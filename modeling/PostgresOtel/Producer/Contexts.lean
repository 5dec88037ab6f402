import PostgresOtel.Producer.Brackets
import PostgresOtel.Producer.Sampling

/-!
# Contexts reported and contexts inherited

`otel_span_context_of` asked about no span in particular, and a span started with the active parent,
read the same state along two paths.  Here is what the first reports, that the second inherits just
that, and that neither changes while the active span stays open.
-/

set_option autoImplicit false

namespace PostgresOtel

open Exec

/-! ## The context of a parent -/

/-- The context that the state has for a parent. -/
def ResolvedParent.context (s : St) : ResolvedParent → Option OtelSpanContext
  | .slot i => some (slotContext (s.slots i))
  | .nrec i => some (s.nrecs i).ctx
  | .remote ctx => some ctx
  | .none => Option.none

/-- The span that the parent stands for is open, if it is one of this backend's. -/
def ResolvedParent.OpenIn (c : Lifecycle) : ResolvedParent → Prop
  | .slot i => c.LiveSlot i
  | .nrec i => c.LiveNrec i
  | .remote _ => True
  | .none => True

theorem isSome_context {s : St} {p : ResolvedParent} :
    (p.context s).isSome = true ↔ p ≠ .none := by
  cases p <;> simp [ResolvedParent.context]

theorem openIn_activeParent (env : Env) {c : Lifecycle} (hinv : PoolInv c) :
    (activeParent env c).OpenIn c := by
  have hlive := hinv.stack_live
  unfold activeParent
  cases hs : c.spanStack with
  | nil => cases remoteContext env <;> exact trivial
  | cons top rest =>
    have htop := hlive top (by rw [hs]; exact List.mem_cons_self)
    change (resolveFromEntry top.entry).OpenIn c
    cases he : top.entry with
    | slot i =>
      rw [he] at htop
      exact htop
    | nrec i =>
      rw [he] at htop
      exact htop

/-! ## The query -/

/-- What a query leaves behind: at most the id of the non-recording span it was about. -/
structure Queried (p : ResolvedParent) (s s' : St) : Prop where
  life : s'.life = s.life
  slots : s'.slots = s.slots
  evolves : Evolves .none s s'
  identified : ∀ i, p = .nrec i → (s'.nrecs i).haveSpanId = true

section Query

variable (env : Env) {s : St}

theorem Queried.same (p : ResolvedParent) (s : St) (h : ∀ i, p ≠ .nrec i) : Queried p s s :=
  ⟨rfl, rfl, .refl s, fun i hi => absurd hi (h i)⟩

/-- A non-recording span is reported with the id it has from then on. -/
theorem wp_nrecContext_reported (i : ℕ) (s : St) :
    Wp (nrecContext env i) (fun ctx s' => ctx = (s'.nrecs i).ctx ∧ Queried (.nrec i) s s')
      (fun _ _ => False) s := by
  have hwithin : Within (Evolves .none) (nrecContext env i) := evolves_nrecContext env i
  have hvalue : Wp (nrecContext env i) (fun ctx s' => ctx = (s'.nrecs i).ctx ∧ s'.life = s.life ∧
      s'.slots = s.slots ∧ (s'.nrecs i).haveSpanId = true) (fun _ _ => False) s := by
    unfold nrecContext
    rw [wp_bind, wp_get, wp_ite]
    refine ⟨fun hid => ⟨rfl, rfl, rfl, hid⟩, fun _ => ?_⟩
    rw [wp_bind]
    apply (wp_seedPrngIfNeeded env .none s).mono
    · intro _ s₁ h₁
      obtain ⟨-, -, hcore, hslots, -⟩ := h₁
      rw [wp_bind]
      refine wp_newSpanId env fun id _ => ?_
      rw [wp_bind]
      refine ⟨rfl, ?_, hslots, ?_⟩
      · have hdata := life_updateNrec_data { s₁ with tick := s₁.tick + 1 } i
          { s₁.nrecs i with haveSpanId := true, ctx := { (s₁.nrecs i).ctx with spanId := id } } rfl
        exact hdata.trans (St.core_eq hcore).1
      · change (Function.update s₁.nrecs i _ i).haveSpanId = true
        rw [Function.update_self]
    · exact fun _ _ h => h.elim
  refine (hvalue.and (hwithin s)).mono (fun ctx s' h => ⟨h.1.1, ?_⟩) fun _ _ h => h.1
  refine ⟨h.1.2.1, h.1.2.2.1, h.2, fun j hj => ?_⟩
  injection hj with hij
  exact hij ▸ h.1.2.2.2

/-- Asked about an open span, `otel_span_context_of` reports what the state has for it. -/
theorem wp_contextOfHandle_holds {ref : OtelSpanRef} {e : StackRef} (hready : s.Ready)
    (href : s.life.Holds ref e) :
    Wp (contextOfHandle env ref)
      (fun r s' => r = (resolveFromEntry e).context s' ∧ Queried (resolveFromEntry e) s s')
      (fun _ _ => False) s := by
  have hnames : s.life.Names ref := .inr ⟨_, hready.entryOf href⟩
  unfold contextOfHandle
  cases e with
  | slot i =>
    have hpos := href.pos_iff.2 ⟨i, rfl⟩
    rw [if_pos hpos, wp_bind]
    refine wp_slotForRef_names hnames hpos fun j hj => ?_
    obtain rfl := Option.some.inj ((hready.slotOf href).symm.trans hj)
    exact ⟨rfl, .same _ _ fun _ h => by cases h⟩
  | nrec i =>
    have hneg := href.neg
    rw [if_neg (by omega), wp_bind]
    refine wp_nrecForRef_names hnames hneg fun j hj => ?_
    obtain rfl := Option.some.inj ((hready.nrecOf href).symm.trans hj)
    dsimp only
    rw [wp_bind]
    apply (wp_nrecContext_reported env i s).mono
    · rintro ctx s₁ ⟨rfl, hq⟩
      exact ⟨rfl, hq⟩
    · exact fun _ _ h => h

/-- Asked about no span in particular, `otel_span_context_of` reports the active parent's context. -/
theorem wp_contextOfInternal_active (hready : s.Ready) :
    Wp (otelSpanContextOfInternal env otelSpanNone)
      (fun r s' => r = (activeParent env s.life).context s' ∧ Queried (activeParent env s.life) s s')
      (fun _ _ => False) s := by
  have hopen : (activeParent env s.life).OpenIn s.life := openIn_activeParent env hready.pool
  unfold otelSpanContextOfInternal
  rw [if_pos (show otelSpanNone.v = 0 from rfl), wp_bind]
  apply (wp_resolveActiveParent env s).mono
  · rintro p s₁ ⟨rfl, rfl⟩
    revert hopen
    cases activeParent env s₁.life with
    | none => exact fun _ => ⟨rfl, .same _ _ fun _ h => by cases h⟩
    | remote ctx => exact fun _ => ⟨rfl, .same _ _ fun _ h => by cases h⟩
    | nrec i =>
      intro _
      dsimp only
      rw [wp_bind]
      apply (wp_nrecContext_reported env i s₁).mono
      · rintro ctx s₂ ⟨rfl, hq⟩
        exact ⟨rfl, hq⟩
      · exact fun _ _ h => h
    | slot i =>
      intro hlive
      dsimp only
      rw [wp_bind, wp_get]
      exact wp_contextOfHandle_holds env (e := .slot i) hready ⟨hlive, rfl⟩
  · exact fun _ _ h => h

/-- Outside of critical sections the API answers just that. -/
theorem apiSpanContextOf_eq (hcrit : env.critSectionCount = 0) (ref : OtelSpanRef) (s : St) :
    apiSpanContextOf env ref s = otelSpanContextOfInternal env ref s := by
  have hrefused : callRefused env true s = .ok false s := by
    unfold callRefused
    simp only [hcrit]
    simp only [ne_eq, not_true_eq_false, Bool.not_true, Bool.false_eq_true, and_false]
    rfl
  change EStateM.bind (callRefused env true) _ s = _
  unfold EStateM.bind
  rw [hrefused]
  rfl

end Query

/-! ## The tracestate of a child -/

/-- The bytes accounted to a slot when it is taken; one never used before is empty. -/
def St.slotBytes (s : St) (i : ℕ) : ℕ := if i < s.slotsUsed then (s.slots i).bytes else 0

/-- What a slot with so many bytes gets of a tracestate: all of it, or nothing if the copy is
refused. -/
inductive CopyOf (env : Env) (bytes : ℕ) : Option CString → Option CString → Prop
  | whole (field : Option CString) : CopyOf env bytes field field
  | overBudget (str : CString) : env.maxSpanBytes < bytes + str.length + 1 →
      CopyOf env bytes (some str) none
  | outOfMemory (str : CString) (n : ℕ) : env.allocFails n = true → CopyOf env bytes (some str) none

/-- No slot but one is touched. -/
def SlotsBut (i : ℕ) (s s' : St) : Prop := ∀ j, j ≠ i → s'.slots j = s.slots j

section Tracestate

variable (env : Env) {i : ℕ}

theorem SlotsBut.trans {s s' s'' : St} (h : SlotsBut i s s') (h' : SlotsBut i s' s'') :
    SlotsBut i s s'' := fun j hj => (h' j hj).trans (h j hj)

theorem slotsBut_update {s : St} {slot : OtelSlot} :
    SlotsBut i s { s with slots := Function.update s.slots i slot } := fun _ hj =>
  Function.update_of_ne hj ..

theorem wp_slotStrdup_copy (str : CString) (maxlen : Option ℕ) (s : St) :
    Wp (slotStrdup env i str maxlen) (fun copy s' => SlotsBut i s s' ∧
      (s'.slots i).span = (s.slots i).span ∧
      (maxlen = none → CopyOf env (s.slots i).bytes (some str) copy.1)) (fun _ _ => False) s := by
  unfold slotStrdup
  rw [wp_bind, wp_get]
  dsimp only
  rw [wp_ite]
  constructor
  · refine fun hover => ⟨fun _ _ => rfl, rfl, fun hmax => ?_⟩
    subst hmax
    exact .overBudget str hover
  · intro _
    rw [wp_bind]
    unfold allocNoOom ask
    rw [wp_bind, wp_get, wp_bind, wp_modify, wp_pure, wp_ite]
    refine ⟨fun _ => ?_, fun hfail => ⟨fun _ _ => rfl, rfl, fun _ => ?_⟩⟩
    · refine ⟨fun _ hj => Function.update_of_ne hj .., ?_, fun hmax => ?_⟩
      · change (Function.update s.slots i _ i).span = _
        rw [Function.update_self]
        rfl
      · subst hmax
        simp only [List.take_length]
        exact .whole (some str)
    · exact .outOfMemory str s.tick (by simpa using hfail)

theorem wp_copyField_copy (field : Option CString) (s : St) :
    Wp (copyField env i field none) (fun copy s' => SlotsBut i s s' ∧
      (s'.slots i).span = (s.slots i).span ∧ CopyOf env (s.slots i).bytes field copy)
      (fun _ _ => False) s := by
  unfold copyField
  cases field with
  | none => exact ⟨fun _ _ => rfl, rfl, .whole none⟩
  | some str =>
    dsimp only
    rw [wp_bind]
    apply (wp_slotStrdup_copy env str none s).mono
    · exact fun _ _ h => ⟨h.1, h.2.1, h.2.2 rfl⟩
    · exact fun _ _ h => h

/-- The tracestate that a child inherits; none if it inherits none. -/
def ResolvedParent.tracestate (s : St) : ResolvedParent → Option (Option CString)
  | .slot j => some (s.slots j).span.tracestate
  | .remote ctx => some ctx.tracestate
  | .nrec _ => Option.none
  | .none => Option.none

/-- What the tracestate of a span in slot `i` is copied from. -/
def CarriesTracestate (i bytes : ℕ) (p : ResolvedParent) (s s' : St) : Prop :=
  ∀ field ∈ p.tracestate s, resolveFromEntry (.slot i) ≠ p →
    CopyOf env bytes field (s'.slots i).span.tracestate

theorem wp_modifySlot_but {f : OtelSlot → OtelSlot} {Q : Unit → St → Prop} {E : Exn → St → Prop}
    {s : St} (h : ∀ s', SlotsBut i s s' → s'.slots i = f (s.slots i) → Q () s') :
    Wp (modifySlot i f) Q E s :=
  h _ slotsBut_update (Function.update_self ..)

theorem wp_inheritFrom_carries (id : OtelSpanId) (field : Option CString) (s : St) :
    Wp (inheritFrom env i id field) (fun _ s' => SlotsBut i s s' ∧
      CopyOf env (s.slots i).bytes field (s'.slots i).span.tracestate) (fun _ _ => False) s := by
  unfold inheritFrom
  rw [wp_bind]
  refine wp_modifySlot_but fun s₁ hbut₁ h₁ => ?_
  rw [wp_bind]
  apply (wp_copyField_copy env field s₁).mono
  · intro copy s₂ h₂
    obtain ⟨hbut₂, -, hcopy⟩ := h₂
    refine wp_modifySlot_but fun s₃ hbut₃ h₃ => ⟨(hbut₁.trans hbut₂).trans hbut₃, ?_⟩
    rw [h₃]
    rw [h₁] at hcopy
    exact hcopy
  · exact fun _ _ h => h

theorem wp_fillParent_carries (p : ResolvedParent) (s : St) :
    Wp (fillParent env i p) (fun _ s' => SlotsBut i s s' ∧
      CarriesTracestate env i (s.slots i).bytes p s s') (fun _ _ => False) s := by
  have hinherit (id : OtelSpanId) (field : Option CString) (hfield : ∀ f ∈ p.tracestate s, f = field) :
      Wp (inheritFrom env i id field) (fun _ s' => SlotsBut i s s' ∧
        CarriesTracestate env i (s.slots i).bytes p s s') (fun _ _ => False) s := by
    apply (wp_inheritFrom_carries env id field s).mono
    · exact fun _ s' h => ⟨h.1, fun f hf _ => hfield f hf ▸ h.2⟩
    · exact fun _ _ h => h
  unfold fillParent
  rw [wp_bind, wp_get]
  cases p with
  | slot j => exact hinherit _ _ fun f hf => (Option.some.inj hf).symm
  | remote ctx => exact hinherit _ _ fun f hf => (Option.some.inj hf).symm
  | nrec j => exact ⟨fun _ _ => rfl, fun f hf => by cases hf⟩
  | none => exact ⟨fun _ _ => rfl, fun f hf => by cases hf⟩

/-- A parent's tracestate is read from a slot other than the new span's. -/
theorem CarriesTracestate.congr {bytes : ℕ} {p : ResolvedParent} {s s' s₁ s₁' : St}
    (h : CarriesTracestate env i bytes p s₁ s₁') (hbut : SlotsBut i s s₁)
    (hspan : (s'.slots i).span.tracestate = (s₁'.slots i).span.tracestate) :
    CarriesTracestate env i bytes p s s' := by
  intro field hfield hp
  rw [hspan]
  refine h field ?_ hp
  cases p with
  | slot j =>
    have hj : j ≠ i := fun hj => hp (hj ▸ rfl)
    have hsame : (s₁.slots j).span.tracestate = (s.slots j).span.tracestate := by rw [hbut j hj]
    exact (congrArg some hsame).trans hfield
  | remote ctx => exact hfield
  | nrec j => exact hfield
  | none => exact hfield

theorem wp_fillSpan_carries (args : OtelSpanStartArgs) (name : CString) (p : ResolvedParent)
    (d : StartDecision) (s : St) :
    Wp (fillSpan env i args name p d) (fun _ s' => SlotsBut i s s' ∧
      CarriesTracestate env i (s.slots i).bytes p s s') (fun _ _ => False) s := by
  unfold fillSpan
  rw [wp_bind]
  refine wp_modifySlot_but fun s₁ hbut₁ h₁ => ?_
  rw [wp_bind]
  refine wp_newSpanId env fun spanId _ => ?_
  rw [wp_bind]
  refine wp_modifySlot_but fun s₂ hbut₂ h₂ => ?_
  have hbut : SlotsBut i s s₂ := hbut₁.trans hbut₂
  have hbytes : (s₂.slots i).bytes = (s.slots i).bytes := by
    rw [h₂, h₁]
  rw [wp_bind]
  apply (wp_fillParent_carries env p s₂).mono
  · intro _ s₃ h₃
    obtain ⟨hbut₃, hcarries⟩ := h₃
    rw [hbytes] at hcarries
    rw [wp_bind]
    refine wp_modifySlot_but fun s₄ hbut₄ h₄ => ?_
    rw [wp_bind]
    apply (wp_slotStrdup_copy env name _ s₄).mono
    · intro copy s₅ h₅
      obtain ⟨hbut₅, hspan₅, -⟩ := h₅
      rw [wp_bind]
      have htime : Wp (timeOrNow env args.startTime) (fun _ s' => s'.slots = s₅.slots)
          (fun _ _ => False) s₅ := by
        unfold timeOrNow getCurrentTimestamp ask
        rw [wp_ite]
        exact ⟨fun _ => rfl, fun _ => rfl⟩
      apply htime.mono
      · intro time s₆ h₆
        refine wp_modifySlot_but fun s₇ hbut₇ h₇ => ?_
        have hbut₅' : SlotsBut i s₅ s₆ := fun j _ => by rw [h₆]
        refine ⟨hbut.trans (hbut₃.trans (hbut₄.trans (hbut₅.trans (hbut₅'.trans hbut₇)))), ?_⟩
        refine hcarries.congr env hbut ?_
        rw [h₇, h₆]
        change (s₅.slots i).span.tracestate = _
        rw [hspan₅, h₄]
      · exact fun _ _ h => h
    · exact fun _ _ h => h
  · exact fun _ _ h => h

/-- Taking a slot accounts nothing to it. -/
theorem wp_takeSlot_bytes {s : St} (hinv : PoolInv s.life) :
    Wp (takeSlot env) (fun r s' => ∀ i ∈ r, SlotsBut i s s' ∧ (s'.slots i).bytes = s.slotBytes i)
      (fun _ _ => True) s := by
  have hfree : Wp takeFreeSlot
      (fun r s' => ∀ i ∈ r, SlotsBut i s s' ∧ (s'.slots i).bytes = s.slotBytes i)
      (fun _ _ => False) s := by
    unfold takeFreeSlot
    rw [wp_bind, wp_get, wp_ite]
    refine ⟨fun hhead i hi => ?_, fun _ => ?_⟩
    · obtain rfl := Option.some.inj hi
      have hlt : s.slotFreeHead.toNat < s.slotsUsed := (hinv.slots_valid.pop hhead).1.1
      exact ⟨fun _ _ => rfl, (if_pos hlt).symm⟩
    · rw [wp_ite]
      refine ⟨fun _ i hi => ?_, fun _ i hi => by cases hi⟩
      obtain rfl := Option.some.inj hi
      refine ⟨fun j hj => Function.update_of_ne hj .., ?_⟩
      change (Function.update s.slots s.slotsUsed {} s.slotsUsed).bytes = _
      rw [Function.update_self, St.slotBytes, if_neg (Nat.lt_irrefl _)]
  unfold takeSlot
  rw [wp_bind]
  apply hfree.mono
  · intro r s₁ h₁
    cases r with
    | none => exact fun i hi => by cases hi
    | some i =>
      obtain ⟨hbut, hbytes⟩ := h₁ i rfl
      dsimp only
      rw [wp_bind, wp_get, wp_ite]
      refine ⟨fun _ => h₁, fun _ => ?_⟩
      rw [wp_bind]
      refine wp_pgTry ?_
      rw [wp_ite]
      refine ⟨fun _ => wp_raiseError fun _ _ => ⟨fun _ => trivial, fun _ => trivial⟩, fun _ => ?_⟩
      refine wp_modifySlot_but fun s₂ hbut₂ h₂ j hj => ?_
      obtain rfl := Option.some.inj hj
      exact ⟨hbut.trans hbut₂, h₂ ▸ hbytes⟩
  · exact fun _ _ h => h.elim

theorem wp_openTakenSlot_carries (args : OtelSpanStartArgs) (name : CString) (p : ResolvedParent)
    (d : StartDecision) (owner : Option ResourceOwner) (s : St) :
    Wp (openTakenSlot env i args name p d owner)
      (fun _ s' => CarriesTracestate env i (s.slots i).bytes p s s') (fun _ _ => False) s := by
  have hrest (owned : OwnedRef) (s : St) : Wp (do
      runIf (args.detached = false) (stackPush (.slot i) false 0)
      recordOwner owner owned
      modifyCounters fun c => { c with spansStarted := c.spansStarted + 1 }
      return owned.1) (fun _ s' => s'.slots = s.slots) (fun _ _ => False) s := by
    rw [wp_bind, wp_runIf]
    refine ⟨fun _ => ?_, fun _ => ?_⟩ <;> cases owner <;> exact rfl
  unfold openTakenSlot nextGen
  rw [wp_bind, wp_bind, wp_get, wp_bind, wp_modify, wp_pure]
  dsimp only
  rw [wp_bind, wp_get, wp_bind]
  refine wp_modifySlot_but fun s₁ hbut₁ h₁ => ?_
  rw [wp_bind]
  apply (wp_fillSpan_carries env args name p d s₁).mono
  · intro _ s₂ h₂
    obtain ⟨-, hcarries⟩ := h₂
    rw [h₁] at hcarries
    apply (hrest _ s₂).mono
    · intro _ s₃ h₃
      refine hcarries.congr env hbut₁ ?_
      rw [h₃]
    · exact fun _ _ h => h
  · exact fun _ _ h => h.elim

theorem wp_startRecording_carries (args : OtelSpanStartArgs) (name : CString) (p : ResolvedParent)
    (d : StartDecision) {s : St} (hinv : PoolInv s.life) :
    Wp (startRecording env args name p d) (fun ref s' => ref = otelSpanNone ∨
      ∃ i, s'.life.Holds ref (.slot i) ∧ CarriesTracestate env i (s.slotBytes i) p s s')
      (fun _ _ => True) s := by
  unfold startRecording
  rw [wp_bind, wp_get, wp_ite]
  refine ⟨fun _ => .inl rfl, fun _ => ?_⟩
  rw [wp_ite]
  refine ⟨fun _ => .inl rfl, fun _ => ?_⟩
  rw [wp_bind]
  have hslots : Wp (ensurePool env) (fun _ s₁ => s₁.slots = s.slots ∧ s₁.slotsUsed = s.slotsUsed)
      (fun _ _ => True) s := by
    unfold ensurePool createPoolContext allocNoOom ask
    rw [wp_bind, wp_get, wp_ite]
    refine ⟨fun _ => ⟨rfl, rfl⟩, fun _ => ?_⟩
    rw [wp_bind, wp_runIf, wp_ite]
    exact ⟨fun _ => ⟨fun _ => trivial, fun _ => ⟨rfl, rfl⟩⟩, fun _ => ⟨rfl, rfl⟩⟩
  apply ((wp_ensurePool_ready env s).and hslots).mono
  · rintro ready s₁ ⟨⟨hp₁, hready⟩, hslots₁, hused₁⟩
    rw [wp_ite]
    refine ⟨fun _ => .inl rfl, fun hr => ?_⟩
    have hinv₁ := hinv.path (hp₁.path env)
    rw [wp_bind]
    apply (wp_prepareStart_returns env args _ s₁).mono
    · rintro _ s₂ rfl
      rw [wp_bind]
      have htake := wp_takeSlot env hinv₁ (hready (by simpa using hr))
      apply (htake.and (wp_takeSlot_bytes env hinv₁)).mono
      · intro r s₃ h₃
        obtain ⟨⟨-, hlife₃⟩, hbytes₃⟩ := h₃
        cases r with
        | none => exact .inl rfl
        | some i =>
          obtain ⟨t, ht, hlife₃⟩ := hlife₃
          obtain ⟨hbut₃, hbytes₃⟩ := hbytes₃ i rfl
          have hopen := wp_openTakenSlot env i args name p d (startOwner env args) hlife₃
          apply (hopen.and (wp_openTakenSlot_carries env args name p d _ s₃)).mono
          · intro ref s₄ h₄
            obtain ⟨⟨-, href, hlife₄⟩, hcarries⟩ := h₄
            refine .inr ⟨i, ⟨?_, ?_⟩, ?_⟩
            · rw [hlife₄]
              change ((Lifecycle.pushUnless _ _ _).slots).Live SlotLife.Free i
              rw [Lifecycle.pushUnless_slots]
              refine ((hinv₁.taken ht).live_set ?_).2 (.inl rfl)
              exact Nat.ne_of_gt (genAfter s₃.genCounter).2
            · rw [href, hlife₄]
              change _ = makeRef ((Lifecycle.pushUnless _ _ _).slots.cell i).gen i true
              rw [Lifecycle.pushUnless_slots]
              change _ = makeRef ((t.set i _).cell i).gen i true
              rw [Pool.set_cell_self]
              rfl
            · have hbytes : s.slotBytes i = (s₃.slots i).bytes := by
                rw [hbytes₃, St.slotBytes, St.slotBytes, hused₁, hslots₁]
              rw [hbytes]
              refine hcarries.congr env (fun j hj => ?_) rfl
              exact (hbut₃ j hj).trans (congrFun hslots₁ j)
          · exact fun _ _ h => h.1.elim
      · exact fun _ _ _ => trivial
    · exact fun _ _ _ => trivial
  · exact fun _ _ h => h.1

theorem slots_resolveParent (args : OtelSpanStartArgs) (s : St) :
    Wp (resolveParent env args) (fun _ s' => s'.slots = s.slots) (fun _ _ => False) s := by
  have hslot (ref : OtelSpanRef) :
      Wp (slotForRef ref) (fun _ s' => s'.slots = s.slots) (fun _ _ => False) s := by
    unfold slotForRef
    rw [wp_bind, wp_get, wp_ite]
    refine ⟨fun _ => rfl, fun _ => ?_⟩
    rw [wp_ite]
    exact ⟨fun _ => rfl, fun _ => rfl⟩
  have hnrec (ref : OtelSpanRef) :
      Wp (nrecForRef ref) (fun _ s' => s'.slots = s.slots) (fun _ _ => False) s := by
    unfold nrecForRef
    rw [wp_bind, wp_get, wp_ite]
    refine ⟨fun _ => rfl, fun _ => ?_⟩
    rw [wp_ite]
    exact ⟨fun _ => rfl, fun _ => rfl⟩
  unfold resolveParent
  cases args.parent with
  | active =>
    dsimp only
    rw [wp_bind]
    exact (wp_resolveActiveParent env s).mono (fun _ _ h => congrArg St.slots h.2) fun _ _ h => h
  | context =>
    cases args.parentCtx with
    | none => exact rfl
    | some ctx =>
      dsimp only
      rw [wp_ite]
      exact ⟨fun _ => rfl, fun _ => rfl⟩
  | span =>
    dsimp only
    rw [wp_ite]
    refine ⟨fun _ => ?_, fun _ => ?_⟩
    · rw [wp_bind]
      exact hslot _
    · rw [wp_ite]
      refine ⟨fun _ => ?_, fun _ => rfl⟩
      rw [wp_bind]
      exact hnrec _
  | root => exact rfl

theorem slots_decideStart (args : OtelSpanStartArgs) (p : ResolvedParent) (s : St) :
    Wp (decideStart env args p) (fun _ s' => s'.life = s.life ∧ s'.slots = s.slots)
      (fun _ _ => False) s := by
  unfold decideStart newTraceId ask
  rw [wp_bind, wp_get]
  cases p <;> exact ⟨rfl, rfl⟩

theorem wp_startNrec_handle (args : OtelSpanStartArgs) (traceId : OtelTraceId) (flags : TraceFlags)
    (s : St) : Wp (startNrec env args traceId flags) (fun ref _ => ref.v ≤ 0) (fun _ _ => True) s := by
  unfold startNrec
  rw [wp_bind, wp_get, wp_ite]
  refine ⟨fun _ => Int.le_refl 0, fun _ => ?_⟩
  rw [wp_bind]
  apply Wp.of_forall
  · intro taken s₁
    cases taken with
    | none => exact Int.le_refl 0
    | some i =>
      dsimp only
      rw [wp_bind]
      apply Wp.of_forall
      · intro g s₂
        have hneg : (makeRef g.1 i false).v ≤ 0 := by
          simp only [makeRef, Bool.false_eq_true, if_false]
          omega
        rw [wp_bind]
        apply Wp.of_forall
        · intro _ s₃
          rw [wp_bind]
          exact Wp.of_forall (fun _ _ => hneg) fun _ _ => trivial
        · exact fun _ _ => trivial
      · exact fun _ _ => trivial
  · exact fun _ _ => trivial

/-- A recording span carries the tracestate of the parent that the start resolved. -/
theorem wp_apiSpanStart_carries (args : OtelSpanStartArgs) {s : St} (hinv : PoolInv s.life) :
    Wp (apiSpanStart env (some args)) (fun ref s' => 0 < ref.v → ∃ i p,
      parentOf env args s.life = some p ∧ s'.life.Holds ref (.slot i) ∧
      CarriesTracestate env i (s.slotBytes i) p s s') (fun _ _ => True) s := by
  have hnone : ¬ 0 < otelSpanNone.v := Int.lt_irrefl 0
  unfold apiSpanStart
  rw [wp_bind]
  have hrefused : Wp (callRefused env false) (fun _ s₁ => Alike s s₁ ∧ s₁.slots = s.slots)
      (fun _ _ => False) s := by
    unfold callRefused
    rw [wp_bind, wp_get, wp_ite]
    refine ⟨fun _ => ⟨⟨rfl, fun _ => rfl, rfl⟩, rfl⟩, fun _ => ?_⟩
    rw [wp_ite]
    exact ⟨fun _ => ⟨⟨rfl, fun _ => rfl, rfl⟩, rfl⟩, fun _ => ⟨⟨rfl, fun _ => rfl, rfl⟩, rfl⟩⟩
  apply hrefused.mono
  · rintro _ s₁ ⟨hlike₁, hslots₁⟩
    rw [wp_ite]
    refine ⟨fun _ hpos => absurd hpos hnone, fun _ => ?_⟩
    dsimp only
    cases (if args.structSizeOk then args.name else none) with
    | none => exact fun hpos => absurd hpos hnone
    | some name =>
      dsimp only
      rw [wp_bind]
      apply (wp_seedPrngIfNeeded env .none s₁).mono
      · rintro _ s₂ ⟨-, -, hcore₂, hslots₂, hnrecs₂, -⟩
        have hlife₂ : s₂.life = s.life := (St.core_eq hcore₂).1.trans hlike₁.life
        rw [wp_bind]
        apply ((wp_resolveParent env args s₂).and (slots_resolveParent env args s₂)).mono
        · rintro parent s₃ ⟨⟨hparent, hlike₃⟩, hslots₃⟩
          cases parent with
          | none => exact fun hpos => absurd hpos hnone
          | some p =>
            dsimp only
            rw [wp_bind]
            apply (slots_decideStart env args p s₃).mono
            · rintro d s₄ ⟨hlife₄, hslots₄⟩
              have hlife : s₄.life = s.life := hlife₄.trans (hlike₃.life.trans hlife₂)
              have hslots : s₄.slots = s.slots :=
                hslots₄.trans (hslots₃.trans (hslots₂.trans hslots₁))
              rw [wp_ite]
              refine ⟨fun _ => ?_, fun _ => ?_⟩
              · apply (wp_startNrec_handle env args _ _ s₄).mono
                · exact fun ref _ hle hpos => absurd hpos (by omega)
                · exact fun _ _ h => h
              · apply (wp_startRecording_carries env args name p d (hlife ▸ hinv)).mono
                · rintro ref s₅ (rfl | ⟨i, hholds, hcarries⟩) hpos
                  · exact absurd hpos hnone
                  · refine ⟨i, p, ?_, hholds, ?_⟩
                    · rw [← hlife₂]
                      exact hparent.symm
                    · have hused : s₄.slotsUsed = s.slotsUsed :=
                        congrArg (fun c : Lifecycle => c.slots.used) hlife
                      have hbytes : s.slotBytes i = s₄.slotBytes i := by
                        rw [St.slotBytes, St.slotBytes, hslots, hused]
                      rw [hbytes]
                      exact hcarries.congr env (fun j _ => congrFun hslots j) rfl
                · exact fun _ _ h => h
            · exact fun _ _ h => h.elim
        · exact fun _ _ h => h.1.elim
      · exact fun _ _ h => h.elim
  · exact fun _ _ h => h.elim

end Tracestate

/-! ## Children of what was reported -/

/-- The decision for a span started under a parent, from what is reported about the parent. -/
def ResolvedParent.decision (env : Env) (ctx : OtelSpanContext) :
    ResolvedParent → OtelSamplerDecision
  | .slot _ => if otelSpanContextSampled ctx then .recordAndSample else .recordOnly
  | .nrec _ => .drop
  | .remote _ | .none =>
    otelRunSampler env.samplerMode env.samplerArg ctx.traceId false (otelSpanContextSampled ctx)

/-- The span in `e` is a child of the context reported for `p`. -/
structure ChildOf (env : Env) (p : ResolvedParent) (ctx : OtelSpanContext) (s' : St)
    (e : StackRef) : Prop where
  traceId : s'.traceIdOf e = ctx.traceId
  recording : (∃ i, e = .slot i) ↔ p.decision env ctx ≠ .drop
  parentSpanId : ∀ i, e = .slot i → (s'.slots i).span.parentSpanId = ctx.spanId
  samplerDecision : ∀ i, e = .slot i → (s'.slots i).span.samplerDecision = p.decision env ctx

/-- The span in `e`, if it is recording, has no parent. -/
def NewRoot (s' : St) (e : StackRef) : Prop :=
  ∀ i, e = .slot i → (s'.slots i).span.parentSpanId = 0

/-- The state knows the parent by `ctx`, but for the id that a non-recording span may lack. -/
def ResolvedParent.KnownAs (p : ResolvedParent) (ctx : OtelSpanContext) (s : St) : Prop :=
  ∀ c ∈ p.context s, c.traceId = ctx.traceId ∧ c.traceFlags = ctx.traceFlags ∧
    ((∀ i, p ≠ .nrec i) → c.spanId = ctx.spanId)

section Children

variable {env : Env} {args : OtelSpanStartArgs} {s s' : St} {p : ResolvedParent} {d : StartDecision}
  {e : StackRef} {ctx : OtelSpanContext}

theorem newRoot_opened (hknown : KnownBy env args s .none d s' e) (hblank : s.Blank) :
    NewRoot s' e := by
  rintro i rfl
  cases hknown with
  | slot _ _ _ hroot => exact hroot rfl hblank

theorem childOf_opened (hd : Decides env args s p d) (hknown : KnownBy env args s p d s' e)
    (hp : p ≠ .none) (hctx : p.KnownAs ctx s) (hfree : ¬ s.life.Live e) (hopen : p.OpenIn s.life) :
    ChildOf env p ctx s' e := by
  obtain ⟨c, hc⟩ := Option.isSome_iff_exists.1 (isSome_context.2 hp)
  obtain ⟨htrace, hflags, hid⟩ := hctx c hc
  -- What the start decides by is what was reported.
  have hdecided : d.traceId = ctx.traceId ∧ d.decision = p.decision env ctx := by
    cases hd with
    | slot i =>
      obtain rfl := Option.some.inj hc
      refine ⟨htrace, ?_⟩
      simp only [ResolvedParent.decision, otelSpanContextSampled, ← hflags, bne_iff_ne]
      rfl
    | nrec i =>
      obtain rfl := Option.some.inj hc
      exact ⟨htrace, rfl⟩
    | remote r =>
      obtain rfl := Option.some.inj hc
      refine ⟨htrace, ?_⟩
      simp only [ResolvedParent.decision, otelSpanContextSampled, ← hflags, ← htrace]
    | none traceId _ => exact absurd rfl hp
  obtain ⟨hdtrace, hdecision⟩ := hdecided
  cases hknown with
  | nrec i hdrop _ hnctx _ =>
    have htraceId : s'.traceIdOf (.nrec i) = ctx.traceId :=
      (congrArg OtelSpanContext.traceId hnctx).trans hdtrace
    refine ⟨htraceId, ?_, (fun j hj => by cases hj), (fun j hj => by cases hj)⟩
    apply iff_of_false
    · rintro ⟨j, hj⟩
      cases hj
    · exact fun hne => hne (hdecision.symm.trans hdrop)
  | slot i hrec hfills hroot =>
    have hnrec (j : ℕ) : p ≠ .nrec j := by
      rintro rfl
      cases hd
      exact hrec rfl
    refine ⟨hfills.traceId.trans hdtrace, ?_, fun j hj => ?_, fun j hj => ?_⟩
    · exact iff_of_true ⟨i, rfl⟩ (hdecision ▸ hrec)
    · obtain rfl : i = j := by
        injection hj
      rw [← hid hnrec]
      refine hfills.parentSpanId c.spanId ?_ fun heq => ?_
      · cases p with
        | slot k => exact congrArg (fun c : OtelSpanContext => some c.spanId) (Option.some.inj hc)
        | remote r => exact congrArg (fun c : OtelSpanContext => some c.spanId) (Option.some.inj hc)
        | nrec k => exact absurd rfl (hnrec k)
        | none => exact absurd rfl hp
      · subst heq
        exact hfree hopen
    · obtain rfl : i = j := by
        injection hj
      exact hfills.samplerDecision.trans hdecision

end Children

/-! ## While the parent stays open -/

/-- Calls of the producer through which the span of a parent stays open. -/
inductive Meanwhile (p : ResolvedParent) (s : St) : St → Prop
  | refl : Meanwhile p s s
  | call {t : St} (call : Call) : Meanwhile p s t → call.op.Valid t → call.Bounded →
      p.OpenIn (endState (runOp call.env call.op) (t.enter call)).life →
      Meanwhile p s (endState (runOp call.env call.op) (t.enter call))

/-- What the context of a parent keeps. -/
def ResolvedParent.Same (s s' : St) : ResolvedParent → Prop
  | .slot i => (s'.slots i).span.identity = (s.slots i).span.identity
  | .nrec i => NrecKeeps (s.nrecs i) (s'.nrecs i)
  | .remote _ => True
  | .none => True

section Meanwhile

variable {p : ResolvedParent} {s s' t : St}

theorem ResolvedParent.Same.trans (h : p.Same s s') (h' : p.Same s' t) : p.Same s t := by
  cases p with
  | slot i => exact Eq.trans h' h
  | nrec i => exact NrecKeeps.trans h h'
  | remote ctx => exact trivial
  | none => exact trivial

theorem Evolves.same {eff : Effects} (h : Evolves eff s s') (hopen : p.OpenIn s'.life) :
    p.OpenIn s.life ∧ p.Same s s' := by
  cases p with
  | slot i => exact ⟨(h.live (.slot i) hopen).1, h.identity i hopen⟩
  | nrec i => exact ⟨(h.live (.nrec i) hopen).1, h.nrec i hopen⟩
  | remote ctx => exact ⟨trivial, trivial⟩
  | none => exact ⟨trivial, trivial⟩

/-- A call after which the span is still open has left it alone. -/
theorem same_step (env : Env) (op : ProducerOp) (hinv : PoolInv s.life) (hbefore : p.OpenIn s.life)
    (hafter : p.OpenIn (endState (runOp env op) s).life) :
    p.Same s (endState (runOp env op) s) := by
  have hstep := step_cases env op hinv
  revert hafter hstep
  generalize endState (runOp env op) s = s'
  intro hafter hstep
  cases hstep with
  | start args ref _ hx hstarted =>
    cases hstarted with
    | refused _ _ hstays _ => exact (hstays.same hafter).2
    | opened args p' d e s₁ _ _ _ hstays hprep hopens _ =>
      cases p with
      | slot i =>
        have hlive : s₁.life.Live (.slot i) := (hprep.live _).2 hbefore
        have hne : e ≠ .slot i := fun heq => hopens.free (heq ▸ hlive)
        exact (hopens.identity i hne).trans (hstays.identity i hlive)
      | nrec i =>
        have hlive : s₁.life.Live (.nrec i) := (hprep.live _).2 hbefore
        have hne : e ≠ .nrec i := fun heq => hopens.free (heq ▸ hlive)
        change NrecKeeps (s.nrecs i) (s'.nrecs i)
        rw [hopens.nrec i hne]
        exact hstays.nrec i hlive
      | remote ctx => exact trivial
      | none => exact trivial
  | startRaised args ex _ hx hstays => exact (hstays.same hafter).2
  | activate ref e _ hact =>
    rw [hact.push]
    cases p with
    | slot i => exact rfl
    | nrec i => exact NrecKeeps.refl _
    | remote ctx => exact trivial
    | none => exact trivial
  | other _ _ _ hev => exact (hev.same hafter).2

theorem Meanwhile.same (h : Meanwhile p s t) (hready : s.Ready) (hopen : p.OpenIn s.life) :
    t.Ready ∧ p.OpenIn t.life ∧ p.Same s t := by
  induction h with
  | refl =>
    refine ⟨hready, hopen, ?_⟩
    cases p with
    | slot i => exact rfl
    | nrec i => exact NrecKeeps.refl _
    | remote ctx => exact trivial
    | none => exact trivial
  | @call t call hrun hvalid hbounded hafter ih =>
    obtain ⟨hready₁, hopen₁, hsame₁⟩ := ih
    have henter : (t.enter call).Ready := ⟨hready₁.pool, hready₁.nslots_le, hready₁.blank⟩
    have hstep := same_step call.env call.op henter.pool hopen₁ hafter
    exact ⟨henter.after call.op ((valid_enter call).2 hvalid) hbounded, hafter, hsame₁.trans hstep⟩

end Meanwhile

/-- The flags of a non-recording span never say that it is sampled. -/
theorem reachable_nrec_unsampled {garbage : ℕ → OtelSlot} {s : St}
    (h : (producer garbage).Reachable s) :
    ∀ i, s.life.LiveNrec i → (s.nrecs i).ctx.traceFlags &&& otelTraceFlagSampled = 0 := by
  have hboth : PoolInv s.life ∧
      ∀ i, s.life.LiveNrec i → (s.nrecs i).ctx.traceFlags &&& otelTraceFlagSampled = 0 := by
    apply Machine.Reachable.invariant (I := fun s => PoolInv s.life ∧
      ∀ i, s.life.LiveNrec i → (s.nrecs i).ctx.traceFlags &&& otelTraceFlagSampled = 0) _ _ h
    · exact ⟨poolInv_init, fun i hlive => absurd hlive.1 (Nat.not_lt_zero i)⟩
    · intro s call hI hvalid
      refine ⟨hI.1.path (life_step garbage hI.1 hvalid), ?_⟩
      have hstep := step_cases call.env call.op (s := s.enter call) hI.1
      change ∀ i, (endState (runOp call.env call.op) (s.enter call)).life.LiveNrec i → _
      revert hstep
      generalize hs' : endState (runOp call.env call.op) (s.enter call) = s'
      have hkept {eff : Effects} {t : St} (hev : Evolves eff (s.enter call) t) (i : ℕ)
          (hlive : t.life.LiveNrec i) : (t.nrecs i).ctx.traceFlags &&& otelTraceFlagSampled = 0 := by
        rw [(hev.nrec i hlive).traceFlags]
        exact hI.2 i (hev.live (.nrec i) hlive).1
      intro hstep i hlive
      change ((endState (runOp call.env call.op) (s.enter call)).nrecs i).ctx.traceFlags &&& _ = 0
      rw [hs']
      generalize call.op = op at hstep
      cases hstep with
      | start args ref _ hx hstarted =>
        cases hstarted with
        | refused _ _ hstays _ => exact hkept hstays i hlive
        | opened args p d e s₁ _ _ _ hstays _ hopens hknown =>
          have hlive' : s'.life.Live (.nrec i) := hlive
          by_cases he : e = .nrec i
          · subst he
            cases hknown with
            | nrec _ _ _ hctx _ =>
              rw [hctx]
              exact random_flag_unsampled _
          · rw [hopens.nrec i he]
            exact hkept hstays i ((hopens.live_iff.1 hlive').resolve_right (Ne.symm he))
      | startRaised args ex _ hx hstays => exact hkept hstays i hlive
      | activate ref e _ hact =>
        rw [hact.push] at hlive ⊢
        exact hI.2 i hlive
      | other _ _ _ hev => exact hkept hev i hlive
  exact hboth.2

/-! ## Reporting agrees with inheriting -/

/-- Starts with the active parent get what was reported for it: a child, or a new root. -/
def StartsAgree (env : Env) (p : ResolvedParent) (r : Option OtelSpanContext) (t : St) : Prop :=
  ∀ args : OtelSpanStartArgs, args.parent = .active →
    Wp (apiSpanStart env (some args)) (fun ref t' => ref ≠ otelSpanNone →
      ∃ e, t'.life.Holds ref e ∧ (r = none → NewRoot t' e) ∧ ∀ ctx ∈ r, ChildOf env p ctx t' e)
      (fun _ _ => True) t

/-- Recording children have the whole tracestate reported, unless they were refused the copy. -/
def TracestatesAgree (env : Env) (r : Option OtelSpanContext) (t : St) : Prop :=
  ∀ args : OtelSpanStartArgs, args.parent = .active →
    Wp (apiSpanStart env (some args)) (fun ref t' => ∀ i, t'.life.Holds ref (.slot i) →
      ∀ ctx ∈ r, CopyOf env (t.slotBytes i) ctx.tracestate (t'.slots i).span.tracestate)
      (fun _ _ => True) t

/-- What a context is known by in other processes. -/
def OtelSpanContext.ids (ctx : OtelSpanContext) : OtelTraceId × OtelSpanId × TraceFlags :=
  (ctx.traceId, ctx.spanId, ctx.traceFlags)

/-- What the answer `r` of a query in `s` that left `s'` behind is worth. -/
structure Reports (env : Env) (s : St) (r : Option OtelSpanContext) (s' : St) : Prop where
  succeeds : r.isSome = true ↔ activeParent env s.life ≠ .none
  unsampled : ∀ ctx ∈ r, ∀ i, activeParent env s.life = .nrec i → otelSpanContextSampled ctx = false
  starts : ∀ t, t = s ∨ t = s' → ∀ env', env'.maxOpenSpans ≤ maxOpenSpansMax →
    activeParent env' t.life = activeParent env s.life →
    StartsAgree env' (activeParent env s.life) r t ∧ TracestatesAgree env' r t
  later : ∀ t, Meanwhile (activeParent env s.life) s' t → ∀ env',
    activeParent env' t.life = activeParent env s.life →
    Wp (otelSpanContextOfInternal env' otelSpanNone)
      (fun r' _ => r'.map OtelSpanContext.ids = r.map OtelSpanContext.ids) (fun _ _ => False) t ∧
    StartsAgree env' (activeParent env s.life) r t

section Reports

variable {env : Env} {s s' t : St} {p : ResolvedParent} {r : Option OtelSpanContext}

theorem parentOf_active {args : OtelSpanStartArgs} {c : Lifecycle} {p' : ResolvedParent}
    (hargs : args.parent = .active) (hparent : parentOf env args c = some p') :
    p' = activeParent env c := by
  unfold parentOf at hparent
  rw [hargs] at hparent
  exact (Option.some.inj hparent).symm

theorem startsAgree (hready : t.Ready) (hp : activeParent env t.life = p)
    (hr : r.isSome = true ↔ p ≠ .none) (hknown : ∀ ctx ∈ r, p.KnownAs ctx t) :
    StartsAgree env p r t := by
  intro args hargs
  apply (wp_apiSpanStart_opens env (some args) hready.pool).mono
  · intro ref t' hstarted hne
    cases hstarted with
    | refused _ _ _ _ => exact absurd rfl hne
    | opened _ p' d e s₁ _ hparent hd hstays hprep hopens hby =>
      have hp' : p' = p := (parentOf_active hargs hparent).trans hp
      subst hp'
      have hopen : p'.OpenIn t.life := hp ▸ openIn_activeParent env hready.pool
      refine ⟨e, ⟨hopens.live_iff.2 (.inr rfl), rfl⟩, fun hnone => ?_, fun ctx hctx => ?_⟩
      · subst hnone
        obtain rfl : p' = .none := by
          by_contra hne'
          cases hr.2 hne'
        exact newRoot_opened hby hready.blank
      · refine childOf_opened hd hby ?_ (hknown ctx hctx) ?_ hopen
        · exact hr.1 (Option.isSome_iff_exists.2 ⟨ctx, hctx⟩)
        · exact fun hlive => hopens.free ((hprep.live e).2 hlive)
  · exact fun _ _ _ => trivial

/-- A start keeps the state in order. -/
theorem wp_apiSpanStart_ready (env : Env) (args : OtelSpanStartArgs) (hready : t.Ready)
    (hmax : env.maxOpenSpans ≤ maxOpenSpansMax) :
    Wp (apiSpanStart env (some args)) (fun _ t' => t'.Ready) (fun _ _ => True) t := by
  have hend : endState (runOp env (.spanStart (some args))) t =
      endState (apiSpanStart env (some args)) t := endState_discardResult _ t
  have hready' := hready.after (.spanStart (some args)) trivial hmax
  rw [hend] at hready'
  unfold Wp
  unfold endState at hready'
  cases hx : apiSpanStart env (some args) t with
  | ok ref t' =>
    rw [hx] at hready'
    exact hready'
  | error e t' => exact trivial

theorem tracestatesAgree (hready : t.Ready) (hmax : env.maxOpenSpans ≤ maxOpenSpansMax)
    (hp : activeParent env t.life = p) (hr : r.isSome = true ↔ p ≠ .none)
    (hfield : ∀ ctx ∈ r, ∀ field ∈ p.tracestate t, field = ctx.tracestate) :
    TracestatesAgree env r t := by
  intro args hargs
  have hall := ((wp_apiSpanStart_opens env (some args) hready.pool).and
    (wp_apiSpanStart_carries env args hready.pool)).and (wp_apiSpanStart_ready env args hready hmax)
  apply hall.mono
  · rintro ref t' ⟨⟨hstarted, hcarries⟩, hready'⟩ i hholds ctx hctx
    obtain ⟨j, p', hparent', hholds', hcarries⟩ := hcarries (hholds.pos_iff.2 ⟨i, rfl⟩)
    have hij : StackRef.slot i = .slot j :=
      Option.some.inj ((hready'.entryOf hholds).symm.trans (hready'.entryOf hholds'))
    injection hij with hij
    subst hij
    have hp' : p' = p := (parentOf_active hargs hparent').trans hp
    subst hp'
    have hopen : p'.OpenIn t.life := hp ▸ openIn_activeParent env hready.pool
    cases hstarted with
    | refused _ _ _ _ => exact absurd rfl hholds.ne_none
    | opened _ p'' d e s₁ _ hparent hd hstays hprep hopens hby =>
      have hp'' : p'' = p' := (parentOf_active hargs hparent).trans hp
      subst hp''
      have hholds'' : t'.life.Holds (e.handle (t'.life.gen e)) e :=
        ⟨hopens.live_iff.2 (.inr rfl), rfl⟩
      have he : e = .slot i :=
        Option.some.inj ((hready'.entryOf hholds'').symm.trans (hready'.entryOf hholds))
      subst he
      have hfree : ¬ t.life.LiveSlot i := fun hlive => hopens.free ((hprep.live (.slot i)).2 hlive)
      cases p'' with
      | none => exact absurd rfl (hr.1 (Option.isSome_iff_exists.2 ⟨ctx, hctx⟩))
      | nrec k =>
        cases hd
        cases hby with
        | slot _ hrec _ _ => exact absurd rfl hrec
      | remote c =>
        have hsame := hfield ctx hctx c.tracestate rfl
        rw [← hsame]
        exact hcarries _ rfl fun heq => by cases heq
      | slot k =>
        have hsame := hfield ctx hctx (t.slots k).span.tracestate rfl
        rw [← hsame]
        refine hcarries _ rfl fun heq => hfree ?_
        injection heq with hik
        exact hik ▸ hopen
  · exact fun _ _ _ => trivial

/-- What a state has for a parent is what a query before reported, while the parent stays open. -/
theorem ids_of_same (hq : ∀ i, p = .nrec i → (s'.nrecs i).haveSpanId = true) (hsame : p.Same s' t) :
    (p.context t).map OtelSpanContext.ids = (p.context s').map OtelSpanContext.ids := by
  cases p with
  | slot i =>
    have hid : (t.slots i).span.identity = (s'.slots i).span.identity := hsame
    have hids : (slotContext (t.slots i)).ids = (slotContext (s'.slots i)).ids := by
      refine Prod.ext ?_ (Prod.ext ?_ ?_)
      · exact congrArg SpanIdentity.traceId hid
      · exact congrArg SpanIdentity.spanId hid
      · exact congrArg SpanIdentity.traceFlags hid
    exact congrArg some hids
  | nrec i =>
    have hkeeps : NrecKeeps (s'.nrecs i) (t.nrecs i) := hsame
    have hids : (t.nrecs i).ctx.ids = (s'.nrecs i).ctx.ids := by
      refine Prod.ext hkeeps.traceId (Prod.ext ?_ hkeeps.traceFlags)
      rcases hkeeps.spanId with ⟨-, hid⟩ | ⟨hno, -⟩
      · exact hid
      · rw [hq i rfl] at hno
        cases hno
    exact congrArg some hids
  | remote ctx => rfl
  | none => rfl

theorem knownAs_of_ids {ctx : OtelSpanContext}
    (h : (p.context t).map OtelSpanContext.ids = some ctx.ids) : p.KnownAs ctx t := by
  intro c hc
  have hc : p.context t = some c := hc
  rw [hc] at h
  have hids : c.ids = ctx.ids := Option.some.inj h
  simp only [OtelSpanContext.ids, Prod.mk.injEq] at hids
  exact ⟨hids.1, hids.2.2, fun _ => hids.2.1⟩

/-- A context with the ids of what was reported is what the parent is known by. -/
theorem knownAs_of_same_ids {ctx : OtelSpanContext} (hctx : ctx ∈ p.context s')
    (heq : (p.context t).map OtelSpanContext.ids = (p.context s').map OtelSpanContext.ids) :
    p.KnownAs ctx t := by
  refine knownAs_of_ids (heq.trans ?_)
  have hctx : p.context s' = some ctx := hctx
  rw [hctx]
  rfl

/-- The parent was known by what is reported before the query as well, but for the id of a non-recording
span. -/
theorem Queried.knownAs_before {ctx : OtelSpanContext} (h : Queried p s s') (hopen : p.OpenIn s'.life)
    (hctx : ctx ∈ p.context s') : p.KnownAs ctx s := by
  intro c hc
  cases p with
  | slot i =>
    obtain rfl := Option.some.inj hctx
    obtain rfl := Option.some.inj hc
    rw [h.slots]
    exact ⟨rfl, rfl, fun _ => rfl⟩
  | nrec i =>
    obtain rfl := Option.some.inj hctx
    obtain rfl := Option.some.inj hc
    have hkeeps := h.evolves.nrec i hopen
    exact ⟨hkeeps.traceId.symm, hkeeps.traceFlags.symm, fun hne => absurd rfl (hne i)⟩
  | remote ctx' =>
    obtain rfl := Option.some.inj hctx
    obtain rfl := Option.some.inj hc
    exact ⟨rfl, rfl, fun _ => rfl⟩
  | none => cases hctx

/-- A start copies the tracestate that is reported. -/
theorem Queried.tracestate {ctx : OtelSpanContext} {field : Option CString} (h : Queried p s s')
    (hslots : t.slots = s.slots) (hctx : ctx ∈ p.context s') (hfield : field ∈ p.tracestate t) :
    field = ctx.tracestate := by
  cases p with
  | slot i =>
    obtain rfl := Option.some.inj hctx
    obtain rfl := Option.some.inj hfield
    rw [hslots, h.slots]
    rfl
  | remote ctx' =>
    obtain rfl := Option.some.inj hctx
    obtain rfl := Option.some.inj hfield
    rfl
  | nrec i => cases hfield
  | none => cases hfield

/-- In every reachable state, a query about no span in particular reports the context that starts
with the active parent inherit, from then on and before. -/
theorem context_query_agrees {garbage : ℕ → OtelSlot}
    (h : (producer garbage).ReachBy (fun _ call => call.Bounded) s) (env : Env) :
    Wp (otelSpanContextOfInternal env otelSpanNone) (Reports env s) (fun _ _ => False) s ∧
    (env.critSectionCount = 0 →
      apiSpanContextOf env otelSpanNone s = otelSpanContextOfInternal env otelSpanNone s) := by
  have hready : s.Ready := reachable_ready h
  have hopen : (activeParent env s.life).OpenIn s.life := openIn_activeParent env hready.pool
  have hunsampled := reachable_nrec_unsampled h.reachable
  refine ⟨?_, fun hcrit => apiSpanContextOf_eq env hcrit otelSpanNone s⟩
  apply (wp_contextOfInternal_active env hready).mono
  · rintro r s' ⟨rfl, hq⟩
    have hready' : s'.Ready := hready.evolves hq.evolves (hq.life ▸ hready.pool) fun _ h => h.elim
    have hopen' : (activeParent env s.life).OpenIn s'.life := hq.life ▸ hopen
    have hsome {t : St} : (((activeParent env s.life).context t).isSome = true ↔
        activeParent env s.life ≠ .none) := isSome_context
    have hbefore : ∀ ctx ∈ (activeParent env s.life).context s',
        (activeParent env s.life).KnownAs ctx s := fun ctx => hq.knownAs_before hopen'
    have hfield {t : St} (hslots : t.slots = s.slots) :
        ∀ ctx ∈ (activeParent env s.life).context s',
          ∀ field ∈ (activeParent env s.life).tracestate t, field = ctx.tracestate :=
      fun ctx hctx field => hq.tracestate hslots hctx
    refine ⟨hsome, ?_, ?_, ?_⟩
    · intro ctx hctx i hi
      rw [hi] at hctx hopen'
      obtain rfl := Option.some.inj hctx
      have hlive : s'.life.LiveNrec i := hopen'
      have hbefore := hunsampled i (hq.life ▸ hlive)
      rw [← (hq.evolves.nrec i hlive).traceFlags] at hbefore
      simp only [otelSpanContextSampled, hbefore]
      rfl
    · rintro t (rfl | rfl) env' hmax hp
      · exact ⟨startsAgree hready hp hsome hbefore,
          tracestatesAgree hready hmax hp hsome (hfield rfl)⟩
      · exact ⟨startsAgree hready' hp hsome fun ctx hctx => knownAs_of_same_ids hctx rfl,
          tracestatesAgree hready' hmax hp hsome (hfield hq.slots)⟩
    · intro t hrun env' hp
      obtain ⟨hready₁, -, hsame⟩ := hrun.same hready' hopen'
      refine ⟨?_, startsAgree hready₁ hp hsome fun ctx hctx => ?_⟩
      · apply (wp_contextOfInternal_active env' hready₁).mono
        · rintro r' t' ⟨rfl, hq'⟩
          rw [hp] at hq' ⊢
          have hopen₁ := openIn_activeParent env' hready₁.pool
          rw [hp] at hopen₁
          have hsame' := (hq'.evolves.same (p := activeParent env s.life)
            (hq'.life ▸ hopen₁)).2
          exact ids_of_same hq.identified (hsame.trans hsame')
        · exact fun _ _ h => h
      · exact knownAs_of_same_ids hctx (ids_of_same hq.identified hsame)
  · exact fun _ _ h => h

/-- A root that is recorded. -/
def recordedRoot : Call where
  env := {}
  backend := {}
  op := .spanStart (some { name := some (cstr "root") })

def recordedRootState : St := (producer fun _ => {}).next ((producer fun _ => {}).init) recordedRoot

/-- A context from outside is in force. -/
def remoteEnv : Env where
  rootCtx := { isSet := true, ctx := { traceId := 7, spanId := 9, traceFlags := 1 } }

/-- Below a root that is not sampled, below one that is, below a context from outside and below
nothing. -/
theorem context_query_agrees_unsampledRoot :
    (activeParent {} unsampledRootState.life = .nrec 0 ∧
      Wp (otelSpanContextOfInternal {} otelSpanNone) (Reports {} unsampledRootState)
        (fun _ _ => False) unsampledRootState) ∧
    (activeParent {} recordedRootState.life = .slot 0 ∧
      Wp (otelSpanContextOfInternal {} otelSpanNone) (Reports {} recordedRootState)
        (fun _ _ => False) recordedRootState ∧
      apiSpanContextOf {} otelSpanNone recordedRootState =
        otelSpanContextOfInternal {} otelSpanNone recordedRootState) ∧
    (activeParent remoteEnv (initSt fun _ => {}).life =
        .remote { traceId := 7, spanId := 9, traceFlags := 1 } ∧
      Wp (otelSpanContextOfInternal remoteEnv otelSpanNone) (Reports remoteEnv (initSt fun _ => {}))
        (fun _ _ => False) (initSt fun _ => {})) ∧
    activeParent {} (initSt fun _ => {}).life = .none ∧
      Wp (otelSpanContextOfInternal {} otelSpanNone) (Reports {} (initSt fun _ => {}))
        (fun _ _ => False) (initSt fun _ => {}) := by
  have hunsampled : (producer fun _ => {}).ReachBy (fun _ call => call.Bounded) unsampledRootState :=
    Machine.ReachBy.step unsampledRoot .init trivial
      (show unsampledRoot.env.maxOpenSpans ≤ maxOpenSpansMax by decide)
  have hrecorded : (producer fun _ => {}).ReachBy (fun _ call => call.Bounded) recordedRootState :=
    Machine.ReachBy.step recordedRoot .init trivial
      (show recordedRoot.env.maxOpenSpans ≤ maxOpenSpansMax by decide)
  refine ⟨⟨rfl, (context_query_agrees hunsampled {}).1⟩, ⟨rfl, ?_⟩,
    ⟨rfl, (context_query_agrees .init remoteEnv).1⟩, rfl,
    (context_query_agrees .init {}).1⟩
  obtain ⟨hreports, hsame⟩ := context_query_agrees hrecorded {}
  exact ⟨hreports, hsame rfl⟩

end Reports

end PostgresOtel
