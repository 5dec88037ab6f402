import PostgresOtel.Producer.Handles

/-!
# Spans ended by their owner

The holder of a handle does not learn that the owner has ended the span.  Each slot and entry keeps
the generation of the last span its owner ended there, and a call with that handle does nothing and
is no misuse; a later span of the same slot or entry that its owner ends takes the place of it.
-/

set_option autoImplicit false

namespace PostgresOtel

open Exec

variable (env : Env)

/-! ## What an owner leaves behind -/

/-- Every slot and entry either keeps its span and its mark, or has ended its span and is marked with
it. -/
def OwnerEnds (s s' : St) : Prop := ∀ e, (s'.life.Used e ↔ s.life.Used e) ∧
  ((s'.life.gen e = s.life.gen e ∧ s'.life.releasedGen e = s.life.releasedGen e) ∨
    (s.life.gen e ≠ 0 ∧ s'.life.gen e = 0 ∧ s'.life.releasedGen e = s.life.gen e))

namespace OwnerEnds

variable {s s' s'' : St}

theorem refl (s : St) : OwnerEnds s s := fun _ => ⟨Iff.rfl, .inl ⟨rfl, rfl⟩⟩

theorem trans (h : OwnerEnds s s') (h' : OwnerEnds s' s'') : OwnerEnds s s'' := by
  intro e
  obtain ⟨hu, hk⟩ := h e
  obtain ⟨hu', hk'⟩ := h' e
  refine ⟨hu'.trans hu, ?_⟩
  rcases hk with ⟨hg, hr⟩ | ⟨hne, hg, hr⟩
  · rw [← hg, ← hr]
    exact hk'
  · rcases hk' with ⟨hg', hr'⟩ | ⟨hne', -, -⟩
    · exact .inr ⟨hne, hg'.trans hg, hr'.trans hr⟩
    · exact absurd hg hne'

instance : Std.Refl OwnerEnds := ⟨refl⟩

instance : IsTrans St OwnerEnds := ⟨fun _ _ _ => trans⟩

/-- The rest of the life cycle state does not matter. -/
theorem of_pools (hslots : s'.life.slots = s.life.slots) (hnrecs : s'.life.nrecs = s.life.nrecs) :
    OwnerEnds s s' := by
  intro e
  cases e with
  | slot i => simp [Lifecycle.Used, Lifecycle.gen, Lifecycle.releasedGen, hslots]
  | nrec i => simp [Lifecycle.Used, Lifecycle.gen, Lifecycle.releasedGen, hnrecs]

theorem of_life (h : s'.life = s.life) : OwnerEnds s s' := of_pools (by rw [h]) (by rw [h])

/-- One slot with a new cell. -/
theorem of_slot {i : ℕ} {l : SlotLife} (hcell : s'.life.slots.cell = Function.update s.life.slots.cell i l)
    (hused : s'.life.slots.used = s.life.slots.used) (hnrecs : s'.life.nrecs = s.life.nrecs)
    (hl : (l.gen = (s.life.slots.cell i).gen ∧
        l.ownerReleasedGen = (s.life.slots.cell i).ownerReleasedGen) ∨
      ((s.life.slots.cell i).gen ≠ 0 ∧ l.gen = 0 ∧
        l.ownerReleasedGen = (s.life.slots.cell i).gen)) : OwnerEnds s s' := by
  intro e
  cases e with
  | nrec j => simp [Lifecycle.Used, Lifecycle.gen, Lifecycle.releasedGen, hnrecs]
  | slot j =>
    refine ⟨by simp [Lifecycle.Used, hused], ?_⟩
    simp only [Lifecycle.gen, Lifecycle.releasedGen, hcell]
    by_cases hj : j = i
    · subst hj
      rw [Function.update_self]
      exact hl
    · rw [Function.update_of_ne hj]
      exact .inl ⟨rfl, rfl⟩

end OwnerEnds

/-! ## Releases by a resource owner -/

theorem ownerEnds_reportLeak (ref : OtelSpanRef) : Within OwnerEnds (reportLeak env ref) := by
  intro s
  refine (wp_reportLeak env ref s).mono (fun _ s' h => ?_) fun _ _ h => h.elim
  cases hi : s.life.slotOf ref with
  | none =>
    rw [hi] at h
    exact .of_life h.1
  | some i =>
    rw [hi] at h
    refine .of_slot (l := { s.life.slots.cell i with leaked := true }) ?_ ?_ ?_ (.inl ⟨rfl, rfl⟩)
    · rw [h.1]
      rfl
    · rw [h.1]
      rfl
    · rw [h.1]
      rfl

theorem ownerEnds_releaseSlot {i : ℕ} {fate : Fate} {s : St} (hgen : (s.slots i).gen ≠ 0) :
    Wp (releaseSlot env i true fate) (fun _ s' => OwnerEnds s s') (fun _ s' => OwnerEnds s s') s := by
  refine (wp_releaseSlot env i true fate s).mono (fun _ s' h => ?_) fun _ s' h => .of_life h.2.2.2
  refine .of_slot (i := i)
    (l := { ownerReleasedGen := (s.slots i).gen, nextFree := s.life.slots.head }) ?_ ?_ ?_
    (.inr ⟨hgen, rfl, rfl⟩)
  · rw [h.1]
    rfl
  · rw [h.1]
    rfl
  · rw [h.1]
    rfl

/-- The span is ended and then marked; a `FATAL` in between leaves it open. -/
theorem ownerEnds_endSlot {i : ℕ} {reason : Option CString} {gen : ℕ} {s : St}
    (hgen : (s.slots i).gen ≠ 0) (heq : (s.slots i).gen = gen) :
    Wp (do
        endSlot env i 0 true reason
        modifySlot i fun slot => { slot with ownerReleasedGen := gen })
      (fun _ s' => OwnerEnds s s') (fun _ s' => OwnerEnds s s') s := by
  rw [wp_bind]
  refine (wp_endSlot env i 0 true reason s).mono (fun _ s₁ h₁ => ?_) fun _ s₁ h₁ => ?_
  · refine wp_modifySlot fun s₂ hl₂ _ => ?_
    refine .of_slot (i := i)
      (l := { ownerReleasedGen := gen, nextFree := s.life.slots.head }) ?_ ?_ ?_
      (.inr ⟨hgen, rfl, heq.symm⟩)
    · have hcell : (s₁.slots i).toSlotLife = s₁.life.slots.cell i := rfl
      rw [hl₂]
      simp only [hcell, h₁.1]
      simp [Lifecycle.dispatchSlot, Lifecycle.freeSlot, Lifecycle.countUnwound, Pool.set, Pool.put]
    · rw [hl₂, h₁.1]
      rfl
    · rw [hl₂, h₁.1]
      rfl
  · rcases h₁ with ⟨-, h₁⟩ | ⟨-, h₁⟩
    · exact .of_life h₁
    · refine .of_slot (i := i)
        (l := { s.life.slots.cell i with owner := none, dispatching := true }) ?_ ?_ ?_
        (.inl ⟨rfl, rfl⟩)
      · rw [h₁]
        rfl
      · rw [h₁]
        rfl
      · rw [h₁]
        rfl

theorem ownerEnds_releaseResource {ref : OtelSpanRef} (href : 0 < refGen ref) :
    Within OwnerEnds (otelSpanReleaseResource env ref) := by
  intro s
  unfold otelSpanReleaseResource
  rw [wp_bind, wp_get, wp_ite]
  refine ⟨fun _ => .refl s, fun hmatch => ?_⟩
  rw [not_not] at hmatch
  have hgen : (s.slots (refIdx ref)).gen ≠ 0 := by
    rw [hmatch.2]
    exact Nat.ne_of_gt href
  rw [wp_bind]
  refine wp_modifySlot fun s₁ hl₁ _ => ?_
  have h₁ : OwnerEnds s s₁ := by
    refine .of_slot (i := refIdx ref) (l := { s.life.slots.cell (refIdx ref) with owner := none })
      ?_ ?_ ?_ (.inl ⟨rfl, rfl⟩)
    · rw [hl₁]
      rfl
    · rw [hl₁]
      rfl
    · rw [hl₁]
  rw [wp_bind]
  unfold stackRemove stackFind
  rw [wp_bind, wp_bind, wp_get, wp_pure]
  have hrest (s₂ : St) (h₂ : s₂.life.slots = s₁.life.slots ∧ s₂.life.nrecs = s₁.life.nrecs) :
      Wp (if (s.slots (refIdx ref)).leaked then do
          modifyCounters fun c => { c with leakedAtCommit := c.leakedAtCommit + 1 }
          releaseSlot env (refIdx ref) true .leaked
        else if (s.slots (refIdx ref)).dispatching then do
          modifyCounters fun c => { c with droppedInDispatch := c.droppedInDispatch + 1 }
          releaseSlot env (refIdx ref) true .dropped
        else do
          endSlot env (refIdx ref) 0 true (some (cstr "ended by transaction or subtransaction abort"))
          modifySlot (refIdx ref) fun slot =>
            { slot with ownerReleasedGen := (s.slots (refIdx ref)).gen })
        (fun _ s' => OwnerEnds s s') (fun _ s' => OwnerEnds s s') s₂ := by
    have hev : OwnerEnds s s₂ := h₁.trans (.of_pools h₂.1 h₂.2)
    have hsame : (s₂.slots (refIdx ref)).gen = (s.slots (refIdx ref)).gen := by
      change (s₂.life.slots.cell (refIdx ref)).gen = _
      rw [h₂.1, hl₁]
      dsimp only
      rw [Pool.set_cell_self]
    have hgen₂ : (s₂.slots (refIdx ref)).gen ≠ 0 := hsame ▸ hgen
    have hcounted (f : OtelApiCounters → OtelApiCounters) (fate : Fate) : Wp (do
        modifyCounters f
        releaseSlot env (refIdx ref) true fate) (fun _ s' => OwnerEnds s s')
        (fun _ s' => OwnerEnds s s') s₂ := by
      rw [wp_bind]
      have hcount : OwnerEnds s { s₂ with counters := f s₂.counters } :=
        hev.trans (.of_pools rfl rfl)
      exact (ownerEnds_releaseSlot env (s := { s₂ with counters := f s₂.counters }) hgen₂).mono
        (fun _ _ h => hcount.trans h) fun _ _ h => hcount.trans h
    rw [wp_ite]
    refine ⟨fun _ => hcounted _ _, fun _ => ?_⟩
    rw [wp_ite]
    refine ⟨fun _ => hcounted _ _, fun _ => ?_⟩
    exact (ownerEnds_endSlot env hgen₂ hsame).mono (fun _ _ h => hev.trans h) fun _ _ h => hev.trans h
  cases s₁.spanStack.findIdx? fun e => e.entry = .slot (refIdx ref) with
  | none => exact hrest s₁ ⟨rfl, rfl⟩
  | some pos => exact hrest _ ⟨rfl, rfl⟩

theorem ownerEnds_resourceOwnerRelease (owner : ResourceOwner) (ref : OwnedRef) (isCommit : Bool) :
    Within OwnerEnds (resourceOwnerRelease env owner ref isCommit) := by
  unfold resourceOwnerRelease
  refine .bind (.ite (ownerEnds_reportLeak env _) (within_pure _)) fun _ => ?_
  exact .bind (ownerEnds_releaseResource env ref.2) fun _ => within_modify fun s =>
    .of_pools rfl rfl

/-! ## Ends with the transaction -/

theorem ownerEnds_freeNrec {i : ℕ} {s : St} (h : (s.nrecs i).gen ≠ 0) :
    Wp (freeNrec i true) (fun _ s' => OwnerEnds s s') (fun _ s' => OwnerEnds s s') s := by
  refine wp_freeNrec i true fun s' hl _ => fun e => ?_
  cases e with
  | slot j => simp [Lifecycle.Used, Lifecycle.gen, Lifecycle.releasedGen, hl, Lifecycle.freeNrec]
  | nrec j =>
    have hused : s'.life.nrecs.used = s.life.nrecs.used := by
      rw [hl]
      rfl
    refine ⟨by simp [Lifecycle.Used, hused], ?_⟩
    simp only [Lifecycle.gen, Lifecycle.releasedGen, hl, Lifecycle.freeNrec]
    by_cases hj : j = i
    · subst hj
      rw [Pool.put_cell_self]
      exact .inr ⟨h, rfl, rfl⟩
    · rw [Pool.put_cell_of_ne hj]
      exact .inl ⟨rfl, rfl⟩

theorem ownerEnds_dropFromLevel (level : ℕ) (isLeak : Bool) :
    Within OwnerEnds (do
      dropNrecsFromLevel level
      dropActivationsFromLevel level isLeak) := by
  have hfree (idxs : List ℕ) : Within OwnerEnds (freeNrecsFromLevel level idxs) := by
    induction idxs with
    | nil => exact within_pure _
    | cons i rest ih =>
      intro s
      unfold freeNrecsFromLevel
      rw [wp_bind, wp_get]
      refine Within.bind_at ?_ fun _ => ih
      rw [wp_runIf]
      exact ⟨fun h => ownerEnds_freeNrec h.1, fun _ => .refl s⟩
  unfold dropNrecsFromLevel dropActivationsFromLevel
  refine .bind (.bind (within_modify fun s => .of_pools rfl rfl) fun _ =>
    .bind within_get fun s => hfree _) fun _ => ?_
  refine .bind within_get fun s => .bind (within_modify fun s => .of_pools rfl rfl) fun _ => ?_
  exact .ite (within_modify fun s => .of_pools rfl rfl) (within_pure _)

theorem ownerEnds_runOp {op : ProducerOp} (h : op.byOwner = true) :
    Within OwnerEnds (runOp env op) := by
  cases op with
  | ownerRelease owner ref isCommit => exact ownerEnds_resourceOwnerRelease env owner ref isCommit
  | xactCallback event =>
    cases event <;> first
      | exact ownerEnds_dropFromLevel _ _
      | exact within_pure _
  | subxactCallback event =>
    cases event <;> first
      | exact ownerEnds_dropFromLevel _ _
      | exact within_pure _
  | _ => cases h

/-! ## The last span ended by its owner -/

/-- The handle of the last span that its owner ended in a slot or entry. -/
def HandleLog.lastEnded (log : HandleLog) (e : StackRef) : Option OtelSpanRef :=
  (log.ownerEnded.find? fun p => p.2 = e).map Prod.fst

/-- Every slot and entry is marked with the last span that its owner ended there. -/
def EndedInv (s : St) (log : HandleLog) : Prop := ∀ e ref, log.lastEnded e = some ref →
  s.life.Used e ∧ s.life.releasedGen e ≠ 0 ∧ ref = e.handle (s.life.releasedGen e)

namespace EndedInv

variable {s s' : St} {log log' : HandleLog}

/-- Calls that no owner makes leave the marks alone. -/
theorem keep (h : EndedInv s log) (hlog : log'.ownerEnded = log.ownerEnded)
    (hs : ∀ e, s.life.Used e → s'.life.Used e ∧ s'.life.releasedGen e = s.life.releasedGen e) :
    EndedInv s' log' := by
  intro e ref hlast
  unfold HandleLog.lastEnded at hlast
  rw [hlog] at hlast
  obtain ⟨hu, hne, href⟩ := h e ref hlast
  obtain ⟨hu', hr⟩ := hs e hu
  rw [hr]
  exact ⟨hu', hne, href⟩

/-- A span that its owner ends leaves its mark, and the others stay. -/
theorem ends (h : EndedInv s log) (hopen : HandleInv s log) (hev : OwnerEnds s s')
    (hlog : log'.ownerEnded =
      (log.openSpans.filter fun p => ¬ s'.life.Live p.2) ++ log.ownerEnded) : EndedInv s' log' := by
  intro e ref hlast
  unfold HandleLog.lastEnded at hlast
  rw [hlog, List.find?_append] at hlast
  obtain ⟨hused, hkeep⟩ := hev e
  cases hfind : (log.openSpans.filter fun p => ¬ s'.life.Live p.2).find? fun p => p.2 = e with
  | some p =>
    rw [hfind] at hlast
    have hmem := List.mem_filter.1 (List.mem_of_find?_eq_some hfind)
    have hpe : p.2 = e := by simpa using List.find?_some hfind
    have hp : p.1 = ref := by simpa using hlast
    have hdead : ¬ s'.life.Live e := by simpa [hpe] using hmem.2
    obtain ⟨-, hlive, hhandle⟩ := hopen.opened p hmem.1
    rw [hpe] at hlive hhandle
    obtain ⟨hu, hg⟩ := Lifecycle.live_iff.1 hlive
    rcases hkeep with ⟨hgen, -⟩ | ⟨-, -, hr⟩
    · exact absurd (Lifecycle.live_iff.2 ⟨hused.2 hu, hgen ▸ hg⟩) hdead
    · rw [hr]
      exact ⟨hused.2 hu, hg, hp ▸ hhandle⟩
  | none =>
    rw [hfind] at hlast
    obtain ⟨hu, hne, href⟩ := h e ref hlast
    rcases hkeep with ⟨-, hr⟩ | ⟨hg, hgen, -⟩
    · rw [hr]
      exact ⟨hused.2 hu, hne, href⟩
    · -- A span that ended here would have been found.
      obtain ⟨r, hmem⟩ := hopen.live e (Lifecycle.live_iff.2 ⟨hu, hg⟩)
      have hdead : ¬ s'.life.Live e := fun hl => (Lifecycle.live_iff.1 hl).2 hgen
      have hnot := List.find?_eq_none.1 hfind (r, e) (List.mem_filter.2 ⟨hmem, by simpa using hdead⟩)
      simp at hnot

end EndedInv

theorem EndedInv.step (garbage : ℕ → OtelSlot) {s : St} {log : HandleLog} {call : Call}
    (h : EndedInv s log) (hopen : HandleInv s log) (hinv : PoolInv s.life) :
    EndedInv ((producer garbage).next s call)
      (log.after call s ((producer garbage).next s call)) := by
  cases hby : call.op.byOwner with
  | true =>
    have hev : OwnerEnds s ((producer garbage).next s call) :=
      (ownerEnds_runOp call.env hby (s.enter call)).endState
    refine h.ends hopen hev ?_
    unfold HandleLog.after
    rw [if_pos hby]
  | false =>
    have hlog : (log.after call s ((producer garbage).next s call)).ownerEnded = log.ownerEnded := by
      unfold HandleLog.after
      rw [hby]
      rfl
    refine h.keep hlog fun e he => ?_
    have hstep : Step call.env (s.enter call) call.op ((producer garbage).next s call) :=
      step_cases call.env call.op hinv
    revert hstep hby
    generalize (producer garbage).next s call = s'
    generalize call.op = op
    intro hby hstep
    have he' : (s.enter call).life.Used e := he
    cases hstep with
    | start args ref _ hx hstarted =>
      cases hstarted with
      | refused _ _ hev _ => exact ⟨hev.used e he', hev.released e he' fun hf => hf⟩
      | opened args p d x s₁ _ _ _ hev _ hopens _ =>
        have hu := hev.used e he'
        exact ⟨(hopens.used e).2 (.inl hu),
          (hopens.released e hu).trans (hev.released e he' fun hf => hf)⟩
    | startRaised args x _ hx hev => exact ⟨hev.used e he', hev.released e he' fun hf => hf⟩
    | activate ref x _ hact =>
      rw [hact.push]
      exact ⟨he, rfl⟩
    | other _ _ hno hev =>
      refine ⟨hev.used e he', hev.released e he' ?_⟩
      cases op <;> first | exact fun hf => hf | cases hby

variable {garbage : ℕ → OtelSlot} {p : St × HandleLog}

theorem reachable_endedInv (h : (handleRuns garbage).Reachable p) : EndedInv p.1 p.2 := by
  have hboth : HandleInv p.1 p.2 ∧ EndedInv p.1 p.2 :=
    Machine.ReachBy.invariantOver (k := fun _ _ => True)
      (I := fun p => HandleInv p.1 p.2 ∧ EndedInv p.1 p.2) (fun _ _ _ _ _ => trivial)
      ⟨.init, fun _ _ hlast => by cases hlast⟩ (fun _ call hreach hI hen _ =>
        ⟨hI.1.step garbage (reachable_poolInv hreach) (hen.1 call rfl) hen.2,
          hI.2.step garbage hI.1 (reachable_poolInv hreach)⟩) h
  exact hboth.2

/-! ## Calls with the handle -/

/-- The call is made with this handle. -/
def ProducerOp.Names (ref : OtelSpanRef) : ProducerOp → Prop
  | .spanStart args => ∃ a ∈ args, a.parent = .span ∧ a.parentSpan = ref
  | .spanEnd r _ | .spanDiscard r | .spanActivate r | .spanSetStr r _ _ | .spanSetInt r _ _
  | .spanSetDouble r _ _ | .spanSetBool r _ _ | .spanSetVprintf r _ _ | .spanSetName r _
  | .spanSetStatus r _ _ | .spanAddEvent r _ _ _ | .spanAddLink r _ | .spanRecordError r _
  | .spanCaptureError r | .spanContextOf r => r = ref
  | .spanDeactivate tok => tok.v = ref.v
  | .spanCurrent | .emitLog _ | .ownerRelease .. | .xactCallback _ | .subxactCallback _
  | .shmemExit => False

/-- No span, no stack entry and no stale handle more. -/
structure Untouched (s s' : St) : Prop where
  slots : s'.slots = s.slots
  nrecs : s'.nrecs = s.nrecs
  spanStack : s'.spanStack = s.spanStack
  staleHandle : s'.counters.staleHandle = s.counters.staleHandle

namespace Untouched

variable {s s' : St}

theorem refl (s : St) : Untouched s s := ⟨rfl, rfl, rfl, rfl⟩

theorem of_counters {c : OtelApiCounters} (h : ({ s with counters := c } : St).shape = s.shape) :
    Untouched s { s with counters := c } := ⟨rfl, rfl, rfl, congrArg Shape.staleHandle h⟩

end Untouched

/-- The handle names no open span, and the lookup knows that an owner has ended its span. -/
structure QuietHandle (c : Lifecycle) (ref : OtelSpanRef) : Prop where
  nonzero : ref.v ≠ 0
  marked : c.Marked ref
  unnamed : c.entryOf ref = none

section Quiet

variable {ref : OtelSpanRef} {s : St} {α : Type}

/-- Such a handle is looked up without a trace. -/
theorem QuietHandle.wp_slotForRef {Q : Option ℕ → St → Prop} {E : Exn → St → Prop}
    (h : QuietHandle s.life ref) (hv : 0 < ref.v) (hQ : Q none s) : Wp (slotForRef ref) Q E s := by
  have hnone := h.unnamed
  rw [Lifecycle.entryOf, if_pos hv, Option.map_eq_none_iff] at hnone
  refine wp_slotForRef_cases hv (fun i hi => ?_) fun _ n hn => ?_
  · rw [hnone] at hi
    cases hi
  · rw [hn h.marked]
    exact hQ

theorem QuietHandle.wp_nrecForRef {Q : Option ℕ → St → Prop} {E : Exn → St → Prop}
    (h : QuietHandle s.life ref) (hv : ¬ 0 < ref.v) (hQ : Q none s) : Wp (nrecForRef ref) Q E s := by
  have hnone := h.unnamed
  rw [Lifecycle.entryOf, if_neg hv, Option.map_eq_none_iff] at hnone
  refine wp_nrecForRef_cases hv (fun i hi => ?_) fun _ n hn => ?_
  · rw [hnone] at hi
    cases hi
  · rw [hn h.marked]
    exact hQ

/-- A call that is refused, or else does nothing. -/
theorem untouched_refused {readOnly : Bool} {f : Bool → M α}
    (hrefused : ∀ s', Wp (f true) (fun _ s'' => s'' = s') (fun _ _ => False) s')
    (hpass : Wp (f false) (fun _ s' => Untouched s s') (fun _ s' => Untouched s s') s) :
    Wp (callRefused env readOnly >>= f) (fun _ s' => Untouched s s') (fun _ s' => Untouched s s')
      s := by
  rw [wp_bind]
  refine wp_callRefused_cases env (fun c hc => ?_) hpass
  refine (hrefused _).mono (fun _ s' h => ?_) fun _ _ h => h.elim
  rw [h]
  exact .of_counters hc

variable (h : QuietHandle s.life ref)

include h

theorem untouched_setterSlot {f : Option ℕ → M Unit} (hnone : f none = pure ()) :
    Wp (setterSlot env ref >>= f) (fun _ s' => Untouched s s') (fun _ s' => Untouched s s') s := by
  unfold setterSlot
  rw [wp_bind, wp_bind]
  refine wp_callRefused_cases env (fun c hc => ?_) ?_
  · rw [wp_ite]
    refine ⟨fun _ => ?_, fun hr => absurd (.inl rfl) hr⟩
    rw [wp_pure, hnone]
    exact .of_counters hc
  · rw [wp_ite]
    refine ⟨fun _ => ?_, fun hr => ?_⟩
    · rw [wp_pure, hnone]
      exact .refl s
    · refine h.wp_slotForRef (by simpa using hr) ?_
      rw [hnone]
      exact .refl s

theorem untouched_apiSpanEnd (endTime : TimestampTz) :
    Wp (apiSpanEnd env ref endTime) (fun _ s' => Untouched s s') (fun _ s' => Untouched s s') s := by
  unfold apiSpanEnd
  refine untouched_refused env (fun s' => ?_) ?_
  · rw [wp_ite]
    exact ⟨fun _ => rfl, fun hr => absurd (.inl rfl) hr⟩
  · rw [wp_ite]
    refine ⟨fun _ => .refl s, fun _ => ?_⟩
    rw [wp_ite]
    refine ⟨fun hneg => ?_, fun hneg => ?_⟩
    · rw [wp_bind]
      exact h.wp_nrecForRef (by omega) (.refl s)
    · have hne := h.nonzero
      rw [wp_bind]
      exact h.wp_slotForRef (by omega) (.refl s)

theorem untouched_apiSpanDiscard :
    Wp (apiSpanDiscard env ref) (fun _ s' => Untouched s s') (fun _ s' => Untouched s s') s := by
  unfold apiSpanDiscard
  refine untouched_refused env (fun s' => ?_) ?_
  · rw [wp_ite]
    exact ⟨fun _ => rfl, fun hr => absurd (.inl rfl) hr⟩
  · rw [wp_ite]
    refine ⟨fun _ => .refl s, fun _ => ?_⟩
    rw [wp_ite]
    refine ⟨fun hneg => ?_, fun hneg => ?_⟩
    · rw [wp_bind]
      exact h.wp_nrecForRef (by omega) (.refl s)
    · have hne := h.nonzero
      rw [wp_bind]
      exact h.wp_slotForRef (by omega) (.refl s)

theorem untouched_apiSpanActivate :
    Wp (apiSpanActivate env ref) (fun _ s' => Untouched s s') (fun _ s' => Untouched s s') s := by
  unfold apiSpanActivate
  refine untouched_refused env (fun s' => ?_) ?_
  · rw [wp_ite]
    exact ⟨fun _ => rfl, fun hr => absurd (.inl rfl) hr⟩
  · rw [wp_ite]
    refine ⟨fun _ => .refl s, fun _ => ?_⟩
    rw [wp_bind]
    refine wp_activationTarget_cases (fun e he => ?_) fun _ n hn => ?_
    · rw [h.unnamed] at he
      cases he
    · rw [hn h.marked]
      exact .refl s

theorem untouched_apiSpanDeactivate :
    Wp (apiSpanDeactivate env ⟨ref.v⟩) (fun _ s' => Untouched s s') (fun _ s' => Untouched s s')
      s := by
  unfold apiSpanDeactivate
  refine untouched_refused env (fun s' => ?_) ?_
  · rw [wp_ite]
    exact ⟨fun _ => rfl, fun hr => absurd (.inl rfl) hr⟩
  · rw [wp_ite]
    refine ⟨fun _ => .refl s, fun _ => ?_⟩
    rw [wp_bind]
    refine wp_entryForRef_cases (fun e he => ?_) fun _ n hn => ?_
    · rw [h.unnamed] at he
      cases he
    · rw [hn h.marked]
      exact .refl s

theorem untouched_apiSpanContextOf :
    Wp (apiSpanContextOf env ref) (fun _ s' => Untouched s s') (fun _ s' => Untouched s s') s := by
  unfold apiSpanContextOf otelSpanContextOfInternal contextOfHandle
  refine untouched_refused env (fun s' => rfl) ?_
  simp only [Bool.false_eq_true, if_false]
  rw [wp_ite]
  refine ⟨fun hv => absurd hv h.nonzero, fun _ => ?_⟩
  rw [wp_ite]
  refine ⟨fun hv => ?_, fun hv => ?_⟩
  · rw [wp_bind]
    exact h.wp_slotForRef hv (.refl s)
  · rw [wp_bind]
    exact h.wp_nrecForRef hv (.refl s)

/-- A start under such a parent is a start with bad arguments. -/
theorem untouched_apiSpanStart {args : Option OtelSpanStartArgs}
    (hargs : ∃ a ∈ args, a.parent = .span ∧ a.parentSpan = ref) :
    Wp (apiSpanStart env args) (fun _ s' => Untouched s s') (fun _ s' => Untouched s s') s := by
  obtain ⟨a, ha, hparent, href⟩ := hargs
  obtain rfl := Option.mem_def.1 ha
  have hbad (s₁ : St) (h₁ : Untouched s s₁) :
      Wp countBadArgs (fun _ s' => Untouched s s') (fun _ s' => Untouched s s') s₁ :=
    ⟨h₁.slots, h₁.nrecs, h₁.spanStack, h₁.staleHandle⟩
  unfold apiSpanStart
  refine untouched_refused env (fun s' => rfl) ?_
  simp only [Bool.false_eq_true, if_false]
  cases (if a.structSizeOk then a.name else none) with
  | none => exact hbad s (.refl s)
  | some name =>
    dsimp only
    have hseed : Wp (seedPrngIfNeeded env) (fun _ s₁ => s₁.life = s.life ∧ Untouched s s₁)
        (fun _ _ => False) s := by
      unfold seedPrngIfNeeded
      rw [wp_bind, wp_get, wp_ite]
      exact ⟨fun _ => ⟨rfl, .refl s⟩, fun _ => ⟨rfl, rfl, rfl, rfl, rfl⟩⟩
    rw [wp_bind]
    refine hseed.mono (fun _ s₁ h₁ => ?_) fun _ _ hf => hf.elim
    obtain ⟨hlife, hsame⟩ := h₁
    have hq : QuietHandle s₁.life ref := hlife ▸ h
    rw [wp_bind]
    unfold resolveParent
    rw [hparent, href]
    dsimp only
    rw [wp_ite]
    refine ⟨fun hv => ?_, fun hv => ?_⟩
    · rw [wp_bind]
      exact hq.wp_slotForRef hv (hbad s₁ hsame)
    · rw [wp_ite]
      refine ⟨fun hneg => ?_, fun hneg => ?_⟩
      · rw [wp_bind]
        exact hq.wp_nrecForRef hv (hbad s₁ hsame)
      · exact absurd (by omega) h.nonzero

/-- Whatever call is made with such a handle. -/
theorem untouched_runOp {op : ProducerOp} (hop : op.Names ref) :
    Untouched s (endState (runOp env op) s) := by
  have discards {α : Type} {x : M α}
      (hx : Wp x (fun _ s' => Untouched s s') (fun _ s' => Untouched s s') s) :
      Untouched s (endState (discardResult x) s) := by
    rw [endState_discardResult]
    exact hx.endState
  cases op with
  | spanStart args => exact discards (untouched_apiSpanStart env h hop)
  | spanEnd r endTime => exact hop ▸ (untouched_apiSpanEnd env h endTime).endState
  | spanDiscard r => exact hop ▸ (untouched_apiSpanDiscard env h).endState
  | spanActivate r => exact hop ▸ discards (untouched_apiSpanActivate env h)
  | spanDeactivate tok =>
    have htok : tok = ⟨ref.v⟩ := congrArg OtelActivation.mk hop
    exact htok ▸ (untouched_apiSpanDeactivate env h).endState
  | spanSetStr r key val => exact hop ▸ (untouched_setterSlot env h rfl).endState
  | spanSetInt r key val => exact hop ▸ (untouched_setterSlot env h rfl).endState
  | spanSetDouble r key val => exact hop ▸ (untouched_setterSlot env h rfl).endState
  | spanSetBool r key val => exact hop ▸ (untouched_setterSlot env h rfl).endState
  | spanSetVprintf r key formatted => exact hop ▸ (untouched_setterSlot env h rfl).endState
  | spanSetName r name => exact hop ▸ (untouched_setterSlot env h rfl).endState
  | spanSetStatus r code description => exact hop ▸ (untouched_setterSlot env h rfl).endState
  | spanAddEvent r name ts attrs => exact hop ▸ (untouched_setterSlot env h rfl).endState
  | spanAddLink r target => exact hop ▸ (untouched_setterSlot env h rfl).endState
  | spanRecordError r edata => exact hop ▸ (untouched_setterSlot env h rfl).endState
  | spanCaptureError r => exact hop ▸ (untouched_setterSlot env h rfl).endState
  | spanContextOf r => exact hop ▸ discards (untouched_apiSpanContextOf env h)
  | spanCurrent => exact hop.elim
  | emitLog edata => exact hop.elim
  | ownerRelease owner r isCommit => exact hop.elim
  | xactCallback event => exact hop.elim
  | subxactCallback event => exact hop.elim
  | shmemExit => exact hop.elim

end Quiet

/-! ## Runs -/

/-- The handle of the last span that its owner ended in a place is quiet, until a new span has it. -/
theorem quietHandle_of_lastEnded (h : (handleRuns garbage).Reachable p) {ref : OtelSpanRef}
    {e : StackRef} (hlast : p.2.lastEnded e = some ref) (hopen : ∀ e', (ref, e') ∉ p.2.openSpans) :
    QuietHandle p.1.life ref := by
  have hinv := reachable_poolInv (reachable_of_handleRuns h)
  have hhandles := reachable_handleInv h
  obtain ⟨hu, hne, href⟩ := reachable_endedInv h e ref hlast
  have hindex : e.index < maxOpenSpansMax := by
    cases e with
    | slot i => exact (Nat.lt_of_lt_of_le hu hinv.slots_used_le).trans_le hhandles.nslots_le
    | nrec i => exact (Nat.lt_of_lt_of_le hu hinv.nrecs_used_le).trans_le (by decide)
  have hword := index_lt_word hindex
  have hpos := Nat.pos_of_ne_zero hne
  subst href
  refine ⟨fun hv => handle_ne_none hpos (congrArg OtelSpanRef.mk hv),
    (marked_handle hword hpos).2 ⟨hu, rfl⟩, ?_⟩
  rw [Option.eq_none_iff_forall_ne_some]
  intro e' hname
  obtain ⟨-, -, hgen⟩ := (entryOf_handle hword hpos).1 hname
  obtain ⟨r, hmem⟩ := hhandles.live e (Lifecycle.live_iff.2 ⟨hu, hgen ▸ hne⟩)
  have hhandle : r = e.handle (p.1.life.gen e) := (hhandles.opened _ hmem).2.2
  rw [hgen] at hhandle
  exact hopen e (hhandle ▸ hmem)

/-- In every run, a call with the handle of a span that its owner ended changes no span and no stack
entry and counts no stale handle, as long as no other span of the same slot or entry has been ended by
its owner since, and no open span has the same handle. -/
theorem owner_ended_handle_quiet (h : (handleRuns garbage).Reachable p) {ref : OtelSpanRef}
    {e : StackRef} (hlast : p.2.lastEnded e = some ref) (hopen : ∀ e', (ref, e') ∉ p.2.openSpans)
    (call : Call) (hop : call.op.Names ref) :
    Untouched p.1 ((handleRuns garbage).next p call).1 := by
  have huntouched := untouched_runOp call.env (s := p.1.enter call)
    (quietHandle_of_lastEnded h hlast hopen) hop
  exact ⟨huntouched.slots, huntouched.nrecs, huntouched.spanStack, huntouched.staleHandle⟩

def startCall (name : String) : Call :=
  { env := { currentResourceOwner := some 1 }, backend := {},
    op := .spanStart (some { name := some (cstr name) }) }

/-- The owner of the first slot's span, of this generation, releases it in an abort. -/
def abortCall (gen : {g : ℕ // 0 < g}) : Call :=
  { env := {}, backend := {},
    op := .ownerRelease 1 ⟨makeRef gen.1 0 true, refGen_makeRef_pos gen.2 0 true⟩ false }

def endFirst : Call := { env := {}, backend := {}, op := .spanEnd (makeRef 1 0 true) 0 }

/-- One span is ended by its owner. -/
def onceAborted : St × HandleLog :=
  [startCall "first", abortCall ⟨1, by decide⟩].foldl (handleRuns fun _ => {}).next
    ((handleRuns fun _ => {}).init)

/-- Then another one, in the same slot. -/
def twiceAborted : St × HandleLog :=
  [startCall "second", abortCall ⟨2, by decide⟩].foldl (handleRuns fun _ => {}).next onceAborted

theorem reachable_onceAborted : (handleRuns fun _ => {}).Reachable onceAborted := by
  refine Machine.ReachBy.run .init ⟨⟨fun a ha => ?_, by decide⟩, trivial, ⟨fun a ha => ?_, by decide⟩,
    trivial, trivial⟩ <;> obtain rfl := Option.some.inj ha
  · exact trivial
  · exact ⟨by decide +kernel, fun h => by cases h⟩

theorem reachable_twiceAborted : (handleRuns fun _ => {}).Reachable twiceAborted := by
  refine Machine.ReachBy.run reachable_onceAborted ⟨⟨fun a ha => ?_, by decide⟩, trivial,
    ⟨fun a ha => ?_, by decide⟩, trivial, trivial⟩ <;> obtain rfl := Option.some.inj ha
  · exact trivial
  · exact ⟨by decide +kernel, fun h => by cases h⟩

theorem owner_ended_handle_quiet_onceAborted :
    onceAborted.2.ownerEnded = [(makeRef 1 0 true, .slot 0)] ∧
      Untouched onceAborted.1 ((handleRuns fun _ => {}).next onceAborted endFirst).1 := by
  have hopen : onceAborted.2.openSpans = [] := by decide +kernel
  refine ⟨by decide +kernel, owner_ended_handle_quiet (e := .slot 0) reachable_onceAborted
    (by decide +kernel) (fun e' he => ?_) endFirst rfl⟩
  rw [hopen] at he
  cases he

/-- A handle does not stay quiet: the owner of a later span of the same slot takes its mark. -/
theorem later_release_makes_handle_stale :
    ¬ ∀ (p : St × HandleLog), (handleRuns fun _ => {}).Reachable p → ∀ ref e,
      (ref, e) ∈ p.2.ownerEnded → ∀ call : Call, call.op.Names ref → call.op.Valid p.1 →
      Untouched p.1 ((handleRuns fun _ => {}).next p call).1 := by
  intro h
  have huntouched := h twiceAborted reachable_twiceAborted (makeRef 1 0 true) (.slot 0)
    (by decide +kernel) endFirst rfl (by decide : (makeRef 1 0 true).Issued)
  exact absurd huntouched.staleHandle (by decide +kernel)

end PostgresOtel
