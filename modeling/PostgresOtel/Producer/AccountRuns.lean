import PostgresOtel.Producer.DataPaths

/-!
# The runs of the producer keep accounts

Whatever the producer is asked to do, the data of spans changes by the steps of `DataStep`: each call is
a path of such steps, whether it returns or is left by an exception.  So every state of the producer
has accounts.
-/

set_option autoImplicit false

namespace PostgresOtel

open Exec

/-! ## Ends -/

/-- The pools and the ledger are in order, and slots can be named by handles. -/
structure St.Tidy (s : St) : Prop where
  pool : PoolInv s.life
  ledger : Ledger s.life
  nslots_le : s.nslots ≤ maxOpenSpansMax

section Tidy

variable {s s' : St} {i : ℕ}

theorem St.Tidy.path {sink : Bool} (h : s.Tidy) (hpath : LifePath sink s.life s'.life)
    (hnslots : s'.nslots = s.nslots) : s'.Tidy :=
  ⟨h.pool.path hpath, h.ledger.path h.pool hpath, hnslots ▸ h.nslots_le⟩

theorem St.Tidy.openSpan (h : s.Tidy) (hlive : s.life.LiveSlot i)
    (hdispatching : (s.slots i).dispatching = false) : s.OpenSpan i := by
  refine ⟨hlive, fun hmem => ?_⟩
  have hdispatched : (s.slots i).dispatching = true := (h.ledger.open_dispatched i hlive).1 hmem
  rw [hdispatching] at hdispatched
  cases hdispatched

theorem St.Tidy.stackOpen (h : s.Tidy) : s.life.StackOpen := by
  intro i hon hdispatching
  obtain ⟨e, he, hentry⟩ := Lifecycle.onStack_iff.1 hon
  have hlive : s.life.Live (.slot i) := hentry ▸ h.pool.stack_live e he
  refine ⟨?_, h.openSpan hlive hdispatching⟩
  calc i < s.life.slots.used := hlive.1
    _ ≤ s.nslots := h.pool.slots_used_le
    _ ≤ maxOpenSpansMax := h.nslots_le
    _ ≤ 2 ^ 32 := by decide

/-- A span that is handed over is not on the stack. -/
theorem St.Tidy.stackOpen_handOver (h : s.Tidy) (hlive : s.life.LiveSlot i)
    (hoff : ¬ s.life.OnStack (.slot i)) (sinks : List Sink) : (s.handOver i sinks).life.StackOpen := by
  intro j hon hdispatching
  have hne : j ≠ i := by
    rintro rfl
    exact hoff hon
  have hslot : (s.handOver i sinks).slots j = s.slots j := Function.update_of_ne hne ..
  have hcell : (s.handOver i sinks).life.slots.cell j = s.life.slots.cell j :=
    congrArg OtelSlot.toSlotLife hslot
  rw [hcell] at hdispatching ⊢
  obtain ⟨hlt, hlive', hnot⟩ := h.stackOpen j hon hdispatching
  refine ⟨hlt, ⟨hlive'.1, ?_⟩, fun hmem => ?_⟩
  · rw [hcell]
    exact hlive'.2
  · have hmem : (s.life.slots.cell j).serial ∈
        (s.dispatches ++ [(⟨(s.slots i).serial, (s.slots i).span, sinks⟩ : Dispatch)]).map
          Dispatch.serial := hmem
    rw [List.map_append, List.mem_append, List.map_singleton, List.mem_singleton] at hmem
    exact hne (h.ledger.serial_inj j i hlive' hlive (hmem.resolve_left hnot))

theorem St.Tidy.congr (h : s.Tidy) (hlife : s'.life = s.life) : s'.Tidy where
  pool := hlife ▸ h.pool
  ledger := hlife ▸ h.ledger
  nslots_le := (congrArg Lifecycle.nslots hlife).trans_le h.nslots_le

/-- What has ended spans and has not started any leaves things tidy. -/
theorem St.Tidy.evolves {sink : Bool} (h : s.Tidy) (hpath : LifePath sink s.life s'.life)
    (hevolves : Evolves .none s s') : s'.Tidy :=
  h.path hpath (hevolves.nslots.resolve_right id)

end Tidy

theorem OtelSlot.Blank.setLife {slot : OtelSlot} (h : slot.Blank) (l : SlotLife) (cxt : Bool) :
    OtelSlot.Blank { slot with toSlotLife := l, cxt := cxt } := by
  unfold OtelSlot.Blank at h ⊢
  rw [h]

section End

variable (env : Env) {i : ℕ} {s : St}

theorem onward_modifySlot {f : OtelSlot → OtelSlot} (h : ∀ slot, (f slot).gen = slot.gen ∧
    SameRecord slot (f slot) ∧ (slot.Blank → (f slot).Blank)) : Within Onward (modifySlot i f) :=
  within_modify fun s => Onward.setSlot rfl rfl rfl ⟨rfl, rfl⟩ (.inr (h (s.slots i)))

theorem onward_releaseSlot (byOwner : Bool) (fate : Fate) :
    Within Onward (releaseSlot env i byOwner fate) := by
  unfold releaseSlot
  refine .bind within_get fun s => .bind (onward_keepsSlots ?_) fun _ => .bind (onward_keepsSlots ?_) fun _ => ?_
  · exact keepsSlots_runIf (keepsSlots_forgetSlot env i _)
  · exact keepsSlots_runIf (keepsSlots_modify fun _ => ⟨rfl, rfl, rfl, rfl, rfl⟩)
  · exact within_modify fun s => Onward.setSlot rfl rfl rfl ⟨rfl, rfl⟩ (.inl ⟨rfl, rfl⟩)

theorem wp_finishSlot_life (endTime : TimestampTz) (unwinding : Bool) (reason : Option CString) (s : St) :
    Wp (finishSlot env i endTime unwinding reason)
      (fun _ s' => s'.life = s.life.countUnwound unwinding) (fun _ _ => False) s := by
  unfold finishSlot
  rw [wp_bind, wp_runIf]
  constructor
  · intro hunwinding
    unfold markUnwound modifyCounters
    rw [wp_bind]
    apply Quiet.wp (quiet_modifySlot ?_)
    swap
    · exact fun _ => rfl
    intro _ s₁ h₁
    rw [wp_modify]
    refine (tame_finishSpan env i endTime).quiet.wp fun _ s₂ h₂ => ?_
    rw [(St.core_eq h₂).1, Lifecycle.countUnwound, if_pos hunwinding, ← (St.core_eq h₁).1]
    rfl
  · intro hunwinding
    refine (tame_finishSpan env i endTime).quiet.wp fun _ s₂ h₂ => ?_
    rw [(St.core_eq h₂).1, Lifecycle.countUnwound, if_neg hunwinding]

/-- What is left of an end once its owner has forgotten the span. -/
theorem onward_finish (endTime : TimestampTz) (unwinding : Bool) (reason : Option CString)
    (h : s.Tidy) (hlive : s.life.LiveSlot i) (hoff : ¬ s.life.OnStack (.slot i))
    (hdispatching : (s.slots i).dispatching = false) :
    Wp (do
        finishSlot env i endTime unwinding reason
        modifySlot i fun slot => { slot with dispatching := true }
        let s ← get
        dispatchSpan env (s.slots i).serial (s.slots i).span
        modifySlot i fun slot => { slot with dispatching := false }
        releaseSlot env i false .dispatched)
      (fun _ s' => Onward s s') (fun _ s' => Onward s s') s := by
  have hcases : Wp (finishSlot env i endTime unwinding reason)
      (fun _ s' => OnSlot i (fun slot slot' => slot'.gen = slot.gen) s s') (fun _ _ => False) s := by
    apply wp_finishSlot_cases
    intro s' hslot _
    refine { hslot with slot := ?_ }
    simpa using congrArg SlotLife.gen hslot.slot.life
  have hfinish := ((wp_endState _ s).and (wp_finishSlot_life env endTime unwinding reason s)).and hcases
  rw [wp_bind]
  refine hfinish.mono (fun _ s₁ h₁ => ?_) fun _ _ h => h.2.elim
  obtain ⟨⟨hend, hlife⟩, hslot⟩ := h₁
  have htally : LifePath env.sink s.life s₁.life := by
    rw [hlife]
    exact .single (.tally s.life _ _ _)
  have htidy := h.path htally (congrArg Lifecycle.nslots hlife)
  have hlive₁ : s₁.life.LiveSlot i := by
    rw [hlife]
    exact hlive
  have hoff₁ : ¬ s₁.life.OnStack (.slot i) := by
    rw [hlife]
    exact hoff
  have hnext : s₁.handOver i env.sinks =
      (DataStep.finish env i endTime unwinding reason).next s := by rw [hend]; rfl
  have hhandOver : Onward s (s₁.handOver i env.sinks) := by
    rw [hnext]
    apply Onward.openSpan (.finish env i endTime unwinding reason) (h.openSpan hlive hdispatching) hlive
    · rw [← hnext]
      exact congrArg (fun c : Lifecycle => c.slots.used) hlife
    · rw [← hnext]
      intro j hne
      exact (Function.update_of_ne hne ..).trans (hslot.others j hne)
    · rw [← hnext]
      show (Function.update s₁.slots i _ i).gen = _
      rw [Function.update_self]
      exact hslot.slot
  have hrest : Within Onward (do
      modifySlot i fun slot => { slot with dispatching := false }
      releaseSlot env i false .dispatched) := by
    refine .bind (onward_modifySlot fun slot => ?_) fun _ => onward_releaseSlot env false _
    exact ⟨rfl, ⟨rfl, rfl, rfl, rfl, rfl⟩, fun hblank => hblank.setLife _ _⟩
  have hdispatch := onward_dispatch env i hhandOver (htidy.stackOpen_handOver hlive₁ hoff₁ env.sinks)
  have hsplit : (do
      modifySlot i fun slot => { slot with dispatching := true }
      let s ← get
      dispatchSpan env (s.slots i).serial (s.slots i).span
      modifySlot i fun slot => { slot with dispatching := false }
      releaseSlot env i false .dispatched) = (do
        modifySlot i fun slot => { slot with dispatching := true }
        let s ← get
        dispatchSpan env (s.slots i).serial (s.slots i).span) >>= fun _ => (do
      modifySlot i fun slot => { slot with dispatching := false }
      releaseSlot env i false .dispatched) := by
    simp only [bind_assoc]
  rw [hsplit, wp_bind]
  exact hdispatch.mono (fun _ s₂ h₂ => h₂.wp (hrest s₂)) fun _ _ h => h

/-- The end of an open span that is off the stack. -/
theorem onward_endSlot (endTime : TimestampTz) (unwinding : Bool) (reason : Option CString)
    (h : s.Tidy) (hlive : s.life.LiveSlot i) (hoff : ¬ s.life.OnStack (.slot i))
    (hdispatching : (s.slots i).dispatching = false) :
    Wp (endSlot env i endTime unwinding reason) (fun _ s' => Onward s s') (fun _ s' => Onward s s') s := by
  have hforget := (wp_forgetSlot env i (s.slots i) s).and (keepsSlots_forgetSlot env i (s.slots i) s)
  rw [endSlot_eq, wp_bind]
  unfold forgetOwner
  rw [wp_bind, wp_get, wp_bind]
  refine hforget.mono (fun _ s₁ h₁ => ?_) fun _ _ h => h.2.onward
  have hlife₁ : s₁.life = s.life := (St.core_eq h₁.1).1
  have hmark : Wp (modifySlot i fun slot => { slot with owner := none })
      (fun _ s₂ => s₂.life = s.life.disown i s.life.spanStack) (fun _ _ => False) s₁ := by
    apply wp_modifySlot
    intro s₂ hlife _
    rw [hlife, ← hlife₁]
    rfl
  have hdisown := (onward_modifySlot (i := i) (f := fun slot => { slot with owner := none })
    (fun _ => ⟨rfl, ⟨rfl, rfl, rfl, rfl, rfl⟩, fun hblank => hblank.setLife _ _⟩) s₁).and hmark
  refine hdisown.mono (fun _ s₂ h₂ => ?_) fun _ _ h => h.2.elim
  apply (h₁.2.onward.trans h₂.1).wp
  have hcell : s₂.life.slots.cell i = { s.life.slots.cell i with owner := none } := by
    rw [h₂.2]
    exact Lifecycle.disown_cell
  apply onward_finish
  · have hpath : LifePath env.sink s.life s₂.life := by
      rw [h₂.2]
      exact path_disown env i (List.Sublist.refl _)
    exact h.path hpath (congrArg Lifecycle.nslots h₂.2)
  · rw [h₂.2]
    exact Lifecycle.disown_live.2 hlive
  · rw [h₂.2]
    exact hoff
  · show (s₂.life.slots.cell i).dispatching = false
    rw [hcell]
    exact hdispatching

end End

/-! ## The active stack -/

section Stack

variable (env : Env) {s : St}

theorem onward_unwindEntry (e : StackEntry) (reason : CString) (h : s.Tidy) (hdepth : s.dispatchDepth = 0)
    (hlive : s.life.Live e.entry) (hoff : ¬ s.life.OnStack e.entry) :
    Wp (unwindEntry env e reason) (fun _ s' => Onward s s') (fun _ s' => Onward s s') s := by
  unfold unwindEntry
  rw [wp_ite]
  constructor
  · intro _
    unfold modifyCounters
    rw [wp_modify]
    exact KeepsSlots.onward ⟨rfl, rfl, rfl, rfl, rfl⟩
  · intro _
    cases hentry : e.entry with
    | slot i =>
      rw [hentry] at hlive hoff
      exact onward_endSlot env 0 true _ h hlive hoff (h.pool.not_dispatching hdepth i hlive)
    | nrec i => exact onward_keepsSlots (keepsSlots_freeNrec i false) s

theorem onward_unwindTo (keep : ℕ) (reason : CString) (fuel : ℕ) (h : s.Tidy)
    (hdepth : s.dispatchDepth = 0) :
    Wp (unwindTo env keep reason fuel) (fun _ s' => Onward s s') (fun _ s' => Onward s s') s := by
  induction fuel generalizing s with
  | zero => exact Std.Refl.refl s
  | succ fuel ih =>
    unfold unwindTo
    rw [wp_bind, wp_get]
    cases hstack : s.spanStack with
    | nil => exact Std.Refl.refl s
    | cons e rest =>
      dsimp only
      rw [wp_ite]
      refine ⟨fun _ => ?_, fun _ => Std.Refl.refl s⟩
      unfold stackPop
      rw [wp_bind, wp_modify, hstack, List.tail_cons, wp_bind]
      have hstack' : s.life.spanStack = e :: rest := hstack
      have hpop : LifePath env.sink s.life ({ s with spanStack := rest } : St).life := by
        refine .single (.unstack s.life rest ?_)
        rw [hstack']
        exact List.sublist_cons_self e rest
      have h₁ : ({ s with spanStack := rest } : St).Tidy := h.path hpop rfl
      have hlive : s.life.Live e.entry := h.pool.stack_live e (by rw [hstack']; exact List.mem_cons_self)
      have hoff : ¬ ({ s with spanStack := rest } : St).life.OnStack e.entry := by
        have hnodup := h.pool.stack_nodup
        rw [hstack', List.map_cons] at hnodup
        exact (List.nodup_cons.1 hnodup).1
      have honward : Onward s { s with spanStack := rest } := KeepsSlots.onward ⟨rfl, rfl, rfl, rfl, rfl⟩
      have hevolves : Within (Evolves .none) (unwindEntry env e reason) :=
        evolves_unwindEntry env e reason
      have hturn := (wp_unwindEntry env e reason h₁.pool hdepth hlive hoff).and
        ((hevolves _).and (onward_unwindEntry env e reason h₁ hdepth hlive hoff))
      refine hturn.mono (fun _ s₂ h₂ => ?_) fun _ _ h₂ => honward.trans h₂.2.2
      obtain ⟨⟨hpath, -, hdepth₂, -, -⟩, hevolves, hturned⟩ := h₂
      exact (honward.trans hturned).wp (ih (h₁.evolves hpath hevolves) hdepth₂)

theorem onward_nonlifoWarning (what : String) (pos : ℕ) (h : s.Tidy) :
    Wp (nonlifoWarning env what pos) (fun _ s' => Onward s s') (fun _ s' => Onward s s') s := by
  have hcount : Onward s { s with counters := { s.counters with nonLifoEnd := s.counters.nonLifoEnd + 1 } } :=
    KeepsSlots.onward ⟨rfl, rfl, rfl, rfl, rfl⟩
  have hwarned : Onward s { s with
      counters := { s.counters with nonLifoEnd := s.counters.nonLifoEnd + 1 }, nonLifoWarned := true } :=
    KeepsSlots.onward ⟨rfl, rfl, rfl, rfl, rfl⟩
  unfold nonlifoWarning modifyCounters
  rw [wp_bind, wp_modify, wp_bind, wp_get, wp_ite]
  refine ⟨fun _ => hcount, fun _ => ?_⟩
  rw [wp_bind, wp_modify]
  exact hwarned.wp (onward_calm (calm_reportWarning env _) h.stackOpen)

theorem onward_popEntryAt (pos : ℕ) (what reason : String) (h : s.Tidy) (hdepth : s.dispatchDepth = 0) :
    Wp (popEntryAt env pos what reason) (fun _ s' => Onward s s') (fun _ s' => Onward s s') s := by
  have hpop : Within Onward stackPop := onward_keepsSlots (keepsSlots_stack _)
  unfold popEntryAt
  rw [wp_bind, wp_runIf]
  refine ⟨fun _ => ?_, fun _ => hpop s⟩
  unfold endAbove stackUnwindAbove
  rw [wp_bind]
  refine ((wp_nonlifoWarning env what pos s).and (onward_nonlifoWarning env what pos h)).mono
    (fun _ s₁ h₁ => ?_) fun _ _ h₁ => h₁.2
  obtain ⟨⟨hlife, -⟩, honward⟩ := h₁
  have hpath : LifePath env.sink s.life s₁.life := by
    rw [hlife]
    exact .single (.tally s.life _ _ _)
  have htidy : s₁.Tidy := h.path hpath (congrArg Lifecycle.nslots hlife)
  have hdepth₁ : s₁.dispatchDepth = 0 := (congrArg Lifecycle.dispatchDepth hlife).trans hdepth
  rw [wp_bind, wp_get]
  exact (onward_unwindTo env _ _ _ htidy hdepth₁).mono
    (fun _ s₂ h₂ => (honward.trans h₂).wp (hpop s₂)) fun _ _ h₂ => honward.trans h₂

theorem wp_stackFind {α : Type} {e : StackRef} {x : Option ℕ → M α} {Q : α → St → Prop}
    {E : Exn → St → Prop} (hnone : Wp (x none) Q E s) (hsome : ∀ pos, Wp (x (some pos)) Q E s) :
    Wp (stackFind e >>= x) Q E s := by
  unfold stackFind
  rw [wp_bind, wp_bind, wp_get, wp_pure]
  cases s.spanStack.findIdx? fun x => x.entry = e with
  | none => exact hnone
  | some pos => exact hsome pos

/-- A span that ends is taken off the stack. -/
theorem onward_popEnded (e : StackRef) (what : String) (h : s.Tidy) (hdepth : s.dispatchDepth = 0)
    (hlive : s.life.Live e) :
    Wp (popEnded env e what)
      (fun _ s' => Onward s s' ∧ s'.Tidy ∧ s'.dispatchDepth = 0 ∧ s'.life.Live e ∧ ¬ s'.life.OnStack e)
      (fun _ s' => Onward s s') s := by
  have honward : Wp (popEnded env e what) (fun _ s' => Onward s s') (fun _ s' => Onward s s') s := by
    unfold popEnded
    apply wp_stackFind
    · exact Std.Refl.refl s
    · exact fun pos => onward_popEntryAt env pos what _ h hdepth
  have hevolves : Within (Evolves .none) (popEnded env e what) := evolves_popEnded env e what
  have hpopped := (wp_popEnded env e what h.pool hdepth hlive).and ((hevolves s).and honward)
  refine hpopped.mono (fun _ s' h' => ?_) fun _ _ h' => h'.2.2
  obtain ⟨⟨hpath, hlive', hoff, hdepth', -, -⟩, hevolves, honward⟩ := h'
  exact ⟨honward, h.evolves hpath hevolves, hdepth', hlive', hoff⟩

end Stack

/-! ## Calls -/

section Calls

variable (env : Env) {α : Type} {s : St}

/-- A call that is let through. -/
theorem onward_call {c : Prop} [Decidable c] {a : α} {x : M α}
    (hx : ∀ s₁ : St, s₁.life = s.life → s.dispatchDepth = 0 → ¬ c →
      Wp x (fun _ s' => Onward s₁ s') (fun _ s' => Onward s₁ s') s₁) :
    Wp (do
      let refused ← callRefused env false
      if refused ∨ c then return a else x) (fun _ s' => Onward s s') (fun _ s' => Onward s s') s := by
  have hcall : Wp (callRefused env false) (fun r s₁ => r = s.life.refuses env ∧ s₁.core = s.core)
      (fun _ _ => False) s := wp_callRefused env fun s₁ h₁ => ⟨rfl, h₁⟩
  rw [wp_bind]
  refine (hcall.and (keepsSlots_callRefused env false s)).mono (fun r s₁ h₁ => ?_) fun _ _ h₁ => h₁.1.elim
  obtain ⟨⟨rfl, hcore⟩, hsame⟩ := h₁
  apply hsame.onward.wp
  rw [wp_ite]
  refine ⟨fun _ => Std.Refl.refl s₁, fun hr => ?_⟩
  rw [not_or] at hr
  exact hx s₁ (St.core_eq hcore).1 (Lifecycle.depth_of_not_refuses env hr.1) hr.2

theorem onward_slotForRef (ref : OtelSpanRef) {x : Option ℕ → M α}
    (hx : ∀ s₁ : St, s₁.life = s.life →
      Wp (x (s.life.slotOf ref)) (fun _ s' => Onward s₁ s') (fun _ s' => Onward s₁ s') s₁) :
    Wp (slotForRef ref >>= x) (fun _ s' => Onward s s') (fun _ s' => Onward s s') s := by
  have hslot : Wp (slotForRef ref) (fun r s₁ => r = s.life.slotOf ref ∧ s₁.core = s.core)
      (fun _ _ => False) s := wp_slotForRef fun s₁ h₁ => ⟨rfl, h₁⟩
  rw [wp_bind]
  refine (hslot.and (keepsSlots_slotForRef ref s)).mono (fun r s₁ h₁ => ?_) fun _ _ h₁ => h₁.1.elim
  obtain ⟨⟨rfl, hcore⟩, hsame⟩ := h₁
  exact hsame.onward.wp (hx s₁ (St.core_eq hcore).1)

theorem onward_nrecForRef (ref : OtelSpanRef) {x : Option ℕ → M α}
    (hx : ∀ s₁ : St, s₁.life = s.life →
      Wp (x (s.life.nrecOf ref)) (fun _ s' => Onward s₁ s') (fun _ s' => Onward s₁ s') s₁) :
    Wp (nrecForRef ref >>= x) (fun _ s' => Onward s s') (fun _ s' => Onward s s') s := by
  have hnrec : Wp (nrecForRef ref) (fun r s₁ => r = s.life.nrecOf ref ∧ s₁.core = s.core)
      (fun _ _ => False) s := wp_nrecForRef fun s₁ h₁ => ⟨rfl, h₁⟩
  rw [wp_bind]
  refine (hnrec.and (keepsSlots_nrecForRef ref s)).mono (fun r s₁ h₁ => ?_) fun _ _ h₁ => h₁.1.elim
  obtain ⟨⟨rfl, hcore⟩, hsame⟩ := h₁
  exact hsame.onward.wp (hx s₁ (St.core_eq hcore).1)

theorem onward_apiSpanEnd (ref : OtelSpanRef) (endTime : TimestampTz) (h : s.Tidy) (href : ref.Issued) :
    Wp (apiSpanEnd env ref endTime) (fun _ s' => Onward s s') (fun _ s' => Onward s s') s := by
  unfold apiSpanEnd
  apply onward_call
  intro s₁ hlife₁ hdepth hv
  have h₁ : s₁.Tidy := h.congr hlife₁
  have hgen : 0 < refGen ref := href.gen_pos hv
  have hdepth₁ : s₁.dispatchDepth = 0 := (congrArg Lifecycle.dispatchDepth hlife₁).trans hdepth
  rw [wp_ite]
  constructor
  · intro _
    apply onward_nrecForRef
    intro s₂ hlife₂
    cases hn : s₁.life.nrecOf ref with
    | none => exact Std.Refl.refl s₂
    | some i =>
      have hlive : s₂.life.Live (.nrec i) := by
        rw [hlife₂]
        exact Lifecycle.live_of_nrecOf hgen hn
      dsimp only
      rw [wp_bind]
      refine (onward_popEnded env (.nrec i) _ (h₁.congr hlife₂) ?_ hlive).mono (fun _ s₃ h₃ => ?_)
        fun _ _ h₃ => h₃
      · exact (congrArg Lifecycle.dispatchDepth hlife₂).trans hdepth₁
      · exact h₃.1.wp (onward_keepsSlots (keepsSlots_freeNrec i false) s₃)
  · intro _
    apply onward_slotForRef
    intro s₂ hlife₂
    cases hi : s₁.life.slotOf ref with
    | none => exact Std.Refl.refl s₂
    | some i =>
      have hlive : s₂.life.Live (.slot i) := by
        rw [hlife₂]
        exact Lifecycle.live_of_slotOf hgen hi
      dsimp only
      rw [wp_bind]
      refine (onward_popEnded env (.slot i) _ (h₁.congr hlife₂) ?_ hlive).mono (fun _ s₃ h₃ => ?_)
        fun _ _ h₃ => h₃
      · exact (congrArg Lifecycle.dispatchDepth hlife₂).trans hdepth₁
      · obtain ⟨honward, h₃, hdepth₃, hlive₃, hoff⟩ := h₃
        apply honward.wp
        exact onward_endSlot env endTime false none h₃ hlive₃ hoff (h₃.pool.not_dispatching hdepth₃ i hlive₃)

theorem onward_apiSpanDiscard (ref : OtelSpanRef) : Within Onward (apiSpanDiscard env ref) := by
  have hcount : Within Onward (modifyCounters fun c => { c with spansDiscarded := c.spansDiscarded + 1 }) :=
    onward_keepsSlots (keepsSlots_counters fun _ => ⟨rfl, rfl⟩)
  unfold apiSpanDiscard
  refine .bind (onward_keepsSlots (keepsSlots_callRefused env false)) fun _ => .ite (within_pure _) ?_
  refine .ite (.bind (onward_keepsSlots (keepsSlots_nrecForRef ref)) fun n => ?_)
    (.bind (onward_keepsSlots (keepsSlots_slotForRef ref)) fun slot => ?_)
  · cases n with
    | none => exact within_pure _
    | some i =>
      refine .bind (onward_keepsSlots (keepsSlots_stackRemove _)) fun _ => .bind ?_ fun _ => hcount
      exact onward_keepsSlots (keepsSlots_freeNrec i false)
  · cases slot with
    | none => exact within_pure _
    | some i =>
      refine .bind (onward_keepsSlots (keepsSlots_stackRemove _)) fun _ => .bind ?_ fun _ => hcount
      exact onward_releaseSlot env false _

theorem keepsSlots_apiSpanActivate (ref : OtelSpanRef) : Within KeepsSlots (apiSpanActivate env ref) := by
  have htarget : Within KeepsSlots (activationTarget ref) := by
    unfold activationTarget
    refine .ite (.bind (keepsSlots_slotForRef ref) fun slot => ?_)
      (.bind (keepsSlots_nrecForRef ref) fun n => ?_)
    · cases slot with
      | none => exact within_pure _
      | some i => exact .bind within_get fun _ => within_pure _
    · cases n with
      | none => exact within_pure _
      | some i => exact .bind within_get fun _ => within_pure _
  have hcount {f : OtelApiCounters → OtelApiCounters} (hf : ∀ c, SameDrops c (f c)) :
      Within KeepsSlots (do
        modifyCounters f
        return otelActivationNone) := .bind (keepsSlots_counters hf) fun _ => within_pure _
  unfold apiSpanActivate
  refine .bind (keepsSlots_callRefused env false) fun _ => .ite (within_pure _) ?_
  refine .bind htarget fun target => ?_
  cases target with
  | none => exact within_pure _
  | some target =>
    refine .ite (hcount fun _ => ⟨rfl, rfl⟩) (.bind (keepsSlots_stackFind _) fun _ => ?_)
    refine .bind within_get fun _ => .ite (hcount fun _ => ⟨rfl, rfl⟩) ?_
    refine .ite (hcount fun _ => ⟨rfl, rfl⟩) (.bind ?_ fun _ => within_pure _)
    exact keepsSlots_modify fun _ => ⟨rfl, rfl, rfl, rfl, rfl⟩

theorem onward_apiSpanDeactivate (tok : OtelActivation) (h : s.Tidy) :
    Wp (apiSpanDeactivate env tok) (fun _ s' => Onward s s') (fun _ s' => Onward s s') s := by
  have hmiss : Within Onward
      (modifyCounters fun c => { c with deactivateNotActive := c.deactivateNotActive + 1 }) :=
    onward_keepsSlots (keepsSlots_counters fun _ => ⟨rfl, rfl⟩)
  unfold apiSpanDeactivate
  apply onward_call
  intro s₁ hlife₁ hdepth _
  have hdepth₁ : s₁.dispatchDepth = 0 := (congrArg Lifecycle.dispatchDepth hlife₁).trans hdepth
  unfold entryForRef
  rw [wp_bind, wp_ite]
  constructor
  · intro _
    rw [← wp_bind, bind_assoc]
    apply onward_slotForRef
    intro s₂ hlife₂
    cases s₁.life.slotOf ⟨tok.v⟩ with
    | none => exact Std.Refl.refl s₂
    | some i =>
      rw [wp_bind, wp_pure]
      apply wp_stackFind (hmiss s₂)
      intro pos
      apply onward_popEntryAt env pos _ _ ((h.congr hlife₁).congr hlife₂)
      exact (congrArg Lifecycle.dispatchDepth hlife₂).trans hdepth₁
  · intro _
    rw [← wp_bind, bind_assoc]
    apply onward_nrecForRef
    intro s₂ hlife₂
    cases s₁.life.nrecOf ⟨tok.v⟩ with
    | none => exact Std.Refl.refl s₂
    | some i =>
      rw [wp_bind, wp_pure]
      apply wp_stackFind (hmiss s₂)
      intro pos
      apply onward_popEntryAt env pos _ _ ((h.congr hlife₁).congr hlife₂)
      exact (congrArg Lifecycle.dispatchDepth hlife₂).trans hdepth₁

end Calls

/-! ## Starts -/

section Start

variable (env : Env) {s : St}

theorem keepsSlots_resolveParent (args : OtelSpanStartArgs) : Within KeepsSlots (resolveParent env args) := by
  unfold resolveParent
  cases args.parent with
  | active => exact .bind (keepsSlots_resolveActiveParent env) fun _ => within_pure _
  | context =>
    cases args.parentCtx with
    | none => exact within_pure _
    | some ctx => exact .ite (within_pure _) (within_pure _)
  | span =>
    refine .ite (.bind (keepsSlots_slotForRef _) fun _ => within_pure _) (.ite ?_ (within_pure _))
    exact .bind (keepsSlots_nrecForRef _) fun _ => within_pure _
  | root => exact within_pure _

theorem keepsSlots_decideStart (args : OtelSpanStartArgs) (p : ResolvedParent) :
    Within KeepsSlots (decideStart env args p) := by
  unfold decideStart newTraceId
  refine .bind within_get fun s => ?_
  cases p with
  | slot i => exact within_pure _
  | nrec i => exact within_pure _
  | remote ctx => exact within_pure _
  | none => exact .bind (keepsSlots_ask _) fun _ => within_pure _

theorem keepsSlots_nextGen : Within KeepsSlots nextGen :=
  .bind within_get fun _ => .bind (keepsSlots_modify fun _ => ⟨rfl, rfl, rfl, rfl, rfl⟩) fun _ => within_pure _

theorem keepsSlots_startNrec (args : OtelSpanStartArgs) (traceId : OtelTraceId) (randomFlag : TraceFlags) :
    Within KeepsSlots (startNrec env args traceId randomFlag) := by
  have hfull : Within KeepsSlots (do
      modifyCounters fun c => { c with startStackFull := c.startStackFull + 1 }
      return otelSpanNone) := .bind (keepsSlots_counters fun _ => ⟨rfl, rfl⟩) fun _ => within_pure _
  have htake : Within KeepsSlots takeNrec := by
    unfold takeNrec
    refine .bind within_get fun s => .ite ?_ (.ite ?_ (within_pure _))
    · exact .bind (keepsSlots_modify fun _ => ⟨rfl, rfl, rfl, rfl, rfl⟩) fun _ => within_pure _
    · exact .bind (keepsSlots_modify fun _ => ⟨rfl, rfl, rfl, rfl, rfl⟩) fun _ => within_pure _
  unfold startNrec
  refine .bind within_get fun s => .ite hfull (.bind htake fun taken => ?_)
  cases taken with
  | none => exact hfull
  | some i =>
    refine .bind keepsSlots_nextGen fun gen => .bind (keepsSlots_modifyNrec _ _) fun _ => ?_
    refine .bind (keepsSlots_runIf (keepsSlots_modify fun _ => ⟨rfl, rfl, rfl, rfl, rfl⟩)) fun _ => ?_
    exact .bind (keepsSlots_counters fun _ => ⟨rfl, rfl⟩) fun _ => within_pure _

theorem keepsSlots_ensurePool : Within KeepsSlots (ensurePool env) := by
  have hcxt : Within KeepsSlots (createPoolContext env) :=
    .ite (keepsSlots_raiseError _) (keepsSlots_modify fun _ => ⟨rfl, rfl, rfl, rfl, rfl⟩)
  unfold ensurePool allocNoOom
  refine .bind within_get fun s => .ite (within_pure _) (.bind (keepsSlots_runIf hcxt) fun _ => ?_)
  refine .bind (keepsSlots_ask _) fun ok => ?_
  exact .bind (keepsSlots_modify fun _ => ⟨rfl, rfl, rfl, rfl, rfl⟩) fun _ => within_pure _

theorem keepsSlots_prepareStart (args : OtelSpanStartArgs) (owner : Option ResourceOwner) :
    Within KeepsSlots (prepareStart env args owner) :=
  .bind (keepsSlots_runIf (keepsSlots_raiseError _)) fun _ => keepsSlots_runIf (keepsSlots_raiseError _)

/-- A slot that was never used is blank when it is taken. -/
theorem onward_newSlot (s : St) : Onward s
    { s with slotsUsed := s.slotsUsed + 1, slots := Function.update s.slots s.slotsUsed {} } := by
  have hother (i : ℕ) (hne : i ≠ s.slotsUsed) :
      Function.update s.slots s.slotsUsed ({} : OtelSlot) i = s.slots i := Function.update_of_ne hne ..
  apply Onward.step (.other { s with
    slotsUsed := s.slotsUsed + 1, slots := Function.update s.slots s.slotsUsed {} })
  · constructor
    case slots =>
      rintro i ⟨hlt, hgen⟩
      have hlt : i < s.slotsUsed + 1 := hlt
      have hgen : (Function.update s.slots s.slotsUsed ({} : OtelSlot) i).gen ≠ 0 := hgen
      have hne : i ≠ s.slotsUsed := by
        rintro rfl
        rw [Function.update_self] at hgen
        exact hgen rfl
      show s.life.LiveSlot i ∧ SameRecord (s.slots i) (Function.update s.slots s.slotsUsed {} i)
      rw [hother i hne] at hgen ⊢
      exact ⟨⟨by show i < s.slotsUsed; omega, hgen⟩, rfl, rfl, rfl, rfl, rfl⟩
    case counts => exact ⟨rfl, rfl⟩
    case dispatches => rfl
  · intro hblank i hi hgen
    have hi : i < s.slotsUsed + 1 := hi
    have hgen : (Function.update s.slots s.slotsUsed ({} : OtelSlot) i).gen = 0 := hgen
    show (Function.update s.slots s.slotsUsed ({} : OtelSlot) i).Blank
    by_cases hne : i = s.slotsUsed
    · rw [hne, Function.update_self]
      rfl
    · rw [hother i hne] at hgen ⊢
      exact hblank i (by omega) hgen

theorem onward_takeSlot : Within Onward (takeSlot env) := by
  have htake : Within Onward takeFreeSlot := by
    unfold takeFreeSlot
    refine .bind within_get fun s => .ite ?_ (.ite ?_ (within_pure _))
    · refine .bind (onward_keepsSlots (keepsSlots_modify fun _ => ?_)) fun _ => within_pure _
      exact ⟨rfl, rfl, rfl, rfl, rfl⟩
    · exact .bind (within_modify onward_newSlot) fun _ => within_pure _
  unfold takeSlot
  refine .bind htake fun taken => ?_
  cases taken with
  | none => exact within_pure _
  | some i =>
    refine .bind within_get fun s => .ite (within_pure _) (.bind ?_ fun _ => within_pure _)
    refine .tryCatch (.ite (onward_keepsSlots (keepsSlots_raiseError _)) ?_) fun e => ?_
    · exact onward_modifySlot fun slot =>
        ⟨rfl, ⟨rfl, rfl, rfl, rfl, rfl⟩, fun hblank => hblank.setLife _ true⟩
    · cases e with
      | error =>
        refine .bind (within_modify fun s => ?_) fun _ => within_throw _
        exact Onward.setSlot rfl rfl rfl ⟨rfl, rfl⟩
          (.inr ⟨rfl, ⟨rfl, rfl, rfl, rfl, rfl⟩, fun hblank => hblank.setLife _ _⟩)
      | fatal => exact within_throw _

/-- The span that is started in a slot that has been taken. -/
theorem onward_openTakenSlot {i : ℕ} (args : OtelSpanStartArgs) (name : CString) (p : ResolvedParent)
    (d : StartDecision) (owner : Option ResourceOwner) {s : St} (hused : i < s.slotsUsed)
    (hfree : (s.slots i).gen = 0) (hblank : s.FreeBlank) :
    Onward s (endState (openTakenSlot env i args name p d owner) s) := by
  have hlife := life_openTakenSlot env i args name p d owner s
  have hslot := (sameData_openTakenSlot env (i := i) args name p d owner s).endState
  have hslots := congrArg Lifecycle.slots hlife
  rw [Lifecycle.slots_pushUnless] at hslots
  apply Onward.step (.start env i args name p d owner)
  · exact ⟨⟨hused, hfree⟩, hblank i hused hfree⟩
  · intro _ j hj hgen
    by_cases hne : j = i
    · have hcell := congrFun (congrArg Pool.cell hslots) i
      have hopened : ((endState (openTakenSlot env i args name p d owner) s).slots i).gen =
          (genAfter s.genCounter).1 := by
        rw [Lifecycle.openSlot, Pool.set_cell_self] at hcell
        exact congrArg SlotLife.gen hcell
      rw [hne] at hgen
      exact absurd (hopened.symm.trans hgen) (Nat.ne_of_gt (genAfter s.genCounter).2)
    · have hsame : (endState (openTakenSlot env i args name p d owner) s).slots j = s.slots j :=
        hslot.others j hne
      have hj : j < s.slotsUsed := hj.trans_eq (congrArg Pool.used hslots)
      show ((endState (openTakenSlot env i args name p d owner) s).slots j).Blank
      rw [hsame]
      exact hblank j hj (hsame ▸ hgen)

theorem onward_startRecording (args : OtelSpanStartArgs) (name : CString) (p : ResolvedParent)
    (d : StartDecision) (h : s.Tidy) (hblank : s.FreeBlank) :
    Wp (startRecording env args name p d) (fun _ s' => Onward s s') (fun _ s' => Onward s s') s := by
  have hrefuse (s : St) {f : OtelApiCounters → OtelApiCounters} (hf : ∀ c, SameDrops c (f c)) :
      Wp (do
        modifyCounters f
        return otelSpanNone) (fun _ s' => Onward s s') (fun _ s' => Onward s s') s :=
    onward_keepsSlots (.bind (keepsSlots_counters hf) fun _ => within_pure _) s
  unfold startRecording
  rw [wp_bind, wp_get, wp_ite]
  refine ⟨fun _ => hrefuse s fun _ => ⟨rfl, rfl⟩, fun _ => ?_⟩
  rw [wp_ite]
  refine ⟨fun _ => hrefuse s fun _ => ⟨rfl, rfl⟩, fun _ => ?_⟩
  rw [wp_bind]
  refine ((wp_ensurePool_ready env s).and (keepsSlots_ensurePool env s)).mono (fun ready s₁ h₁ => ?_)
    fun _ _ h₁ => h₁.2.onward
  obtain ⟨⟨hprepared, hready⟩, hsame⟩ := h₁
  apply hsame.onward.wp
  rw [wp_ite]
  refine ⟨fun _ => hrefuse s₁ fun _ => ⟨rfl, rfl⟩, fun hr => ?_⟩
  have hready : s₁.life.poolReady = true := hready (by simpa using hr)
  have hinv : PoolInv s₁.life := h.pool.path (hprepared.path env)
  have hblank : s₁.FreeBlank := hsame.onward.blank hblank
  rw [wp_bind]
  refine ((wp_prepareStart env args _ s₁).and (keepsSlots_prepareStart env args _ s₁)).mono
    (fun _ s₂ h₂ => ?_) fun _ _ h₂ => h₂.2.onward
  obtain ⟨hcore, hsame⟩ := h₂
  have hlife := (St.core_eq hcore).1
  rw [← hlife] at hinv hready
  apply hsame.onward.wp
  have hblank : s₂.FreeBlank := hsame.onward.blank hblank
  rw [wp_bind]
  refine ((wp_takeSlot env hinv hready).and (onward_takeSlot env s₂)).mono (fun taken s₃ h₃ => ?_)
    fun _ _ h₃ => h₃.2
  obtain ⟨⟨-, htaken⟩, honward⟩ := h₃
  apply honward.wp
  cases taken with
  | none => exact hrefuse s₃ fun _ => ⟨rfl, rfl⟩
  | some i =>
    obtain ⟨t, ht, hlife⟩ := htaken
    have hslots : s₃.life.slots = t := congrArg Lifecycle.slots hlife
    have hclean := hinv.taken_clean ht
    have hused : i < s₃.slotsUsed := by
      show i < s₃.life.slots.used
      rw [hslots]
      exact (hinv.taken ht).lt
    have hfree : (s₃.slots i).gen = 0 := by
      show (s₃.life.slots.cell i).gen = 0
      rw [hslots]
      exact hclean.1
    have hopened := onward_openTakenSlot env args name p d (startOwner env args) hused hfree
      (honward.blank hblank)
    exact (wp_endState _ s₃).mono (fun _ _ heq => heq ▸ hopened) fun _ _ heq => heq ▸ hopened

theorem onward_apiSpanStart (args : Option OtelSpanStartArgs) (h : s.Tidy) (hblank : s.FreeBlank) :
    Wp (apiSpanStart env args) (fun _ s' => Onward s s') (fun _ s' => Onward s s') s := by
  have hbad : Within Onward countBadArgs :=
    onward_keepsSlots (.bind (keepsSlots_counters fun _ => ⟨rfl, rfl⟩) fun _ => within_pure _)
  have hprefix {β : Type} {x : M β} (hquiet : Quiet x) (hslots : Within KeepsSlots x) {s₁ : St}
      (h₁ : s₁.Tidy ∧ s₁.FreeBlank) {k : β → M OtelSpanRef}
      (hk : ∀ b (s₂ : St), s₂.Tidy ∧ s₂.FreeBlank → Wp (k b) (fun _ s' => Onward s₂ s') (fun _ s' => Onward s₂ s') s₂) :
      Wp (x >>= k) (fun _ s' => Onward s₁ s') (fun _ s' => Onward s₁ s') s₁ := by
    rw [wp_bind]
    refine ((hquiet s₁).and (hslots s₁)).mono (fun b s₂ h₂ => ?_) fun _ _ h₂ => h₂.1.elim
    apply h₂.2.onward.wp
    exact hk b s₂ ⟨h₁.1.congr (St.core_eq h₂.1).1, h₂.2.onward.blank h₁.2⟩
  unfold apiSpanStart
  apply hprefix (tame_callRefused env false).quiet (keepsSlots_callRefused env false) ⟨h, hblank⟩
  intro refused s₁ h₁
  rw [wp_ite]
  refine ⟨fun _ => Std.Refl.refl s₁, fun _ => ?_⟩
  cases args with
  | none => exact hbad s₁
  | some args =>
    dsimp only
    cases (if args.structSizeOk then args.name else none) with
    | none => exact hbad s₁
    | some name =>
      apply hprefix (quiet_seedPrngIfNeeded env) (keepsSlots_seedPrngIfNeeded env) h₁
      intro _ s₂ h₂
      apply hprefix (quiet_resolveParent env args) (keepsSlots_resolveParent env args) h₂
      intro parent s₃ h₃
      cases parent with
      | none => exact hbad s₃
      | some p =>
        apply hprefix (tame_decideStart env args p).quiet (keepsSlots_decideStart env args p) h₃
        intro d s₄ h₄
        rw [wp_ite]
        constructor
        · exact fun _ => onward_keepsSlots (keepsSlots_startNrec env args _ _) s₄
        · exact fun _ => onward_startRecording env args name p d h₄.1 h₄.2

end Start

/-! ## Operations and callbacks -/

section Callbacks

variable (env : Env) {s : St}

theorem onward_setter (op : SpanOp) (ref : OtelSpanRef) (hsetter : op.isSetter = true) (h : s.Tidy)
    (href : ref.Issued) :
    Wp (op.run env ref) (fun _ s' => Onward s s') (fun _ s' => Onward s s') s := by
  by_cases hreach : env.Reaches ref s
  · have hfinish : op.isFinish = false := by
      cases op with
      | finish => cases hsetter
      | _ => rfl
    have hlive : s.life.LiveSlot (refIdx ref) := by
      obtain ⟨-, hpos, hlt, hgen⟩ := hreach
      refine ⟨hlt, fun hfree => ?_⟩
      have hfree : (s.slots (refIdx ref)).gen = 0 := hfree
      have hissued := href.gen_pos (Int.ne_of_gt hpos)
      omega
    have hopen := h.openSpan hlive (h.pool.not_dispatching hreach.1.2 _ hlive)
    have hop := onward_operate env op hfinish hopen
    exact (wp_endState _ s).mono (fun _ _ heq => heq ▸ hop) fun _ _ heq => heq ▸ hop
  · apply SpanOp.wp_run
    · intro _ _ c hc
      exact KeepsSlots.onward ⟨rfl, rfl, rfl, hc⟩
    · exact fun h => absurd (h hsetter) hreach

/-- The mark of a leak is of no concern to the log hook. -/
theorem Lifecycle.StackOpen.setLeaked {c : Lifecycle} {i : ℕ} (h : c.StackOpen) (b : Bool) :
    (c.setLeaked i b).StackOpen := by
  intro j hon hdispatching
  have hcell : ∃ l : Bool, (c.setLeaked i b).slots.cell j = { c.slots.cell j with leaked := l } := by
    by_cases hne : j = i
    · subst hne
      exact ⟨b, Lifecycle.setLeaked_cell⟩
    · exact ⟨(c.slots.cell j).leaked, Pool.set_cell_of_ne hne⟩
  obtain ⟨l, hcell⟩ := hcell
  rw [hcell] at hdispatching
  obtain ⟨hlt, ⟨hused, hlive⟩, hnot⟩ := h j hon hdispatching
  refine ⟨hlt, ⟨hused, ?_⟩, ?_⟩
  · rw [hcell]
    exact hlive
  · rw [hcell]
    exact hnot

theorem onward_reportLeak (ref : OtelSpanRef) (h : s.Tidy) :
    Wp (reportLeak env ref) (fun _ s' => Onward s s') (fun _ s' => Onward s s') s := by
  have hmark : Within Onward (modifySlot (refIdx ref) fun slot => { slot with leaked := true }) :=
    onward_modifySlot fun slot => ⟨rfl, ⟨rfl, rfl, rfl, rfl, rfl⟩, fun hblank => hblank.setLife _ _⟩
  unfold reportLeak otelSpanDebugPrint
  rw [wp_bind, wp_bind, wp_get]
  dsimp only
  rw [wp_ite]
  constructor
  · intro _
    have hlife : Wp (modifySlot (refIdx ref) fun slot => { slot with leaked := true })
        (fun _ s₁ => s₁.life = s.life.setLeaked (refIdx ref) true) (fun _ _ => False) s :=
      wp_modifySlot fun s₁ hlife _ => hlife
    rw [wp_bind]
    refine (hlife.and (hmark s)).mono (fun _ s₁ h₁ => ?_) fun _ _ h₁ => h₁.1.elim
    apply h₁.2.wp
    apply onward_calm (calm_reportWarning env _)
    rw [h₁.1]
    exact h.stackOpen.setLeaked true
  · exact fun _ => onward_calm (calm_reportWarning env _) h.stackOpen

/-- The release callback; the mark of a leak has it free the slot and no more. -/
theorem onward_otelSpanReleaseResource (ref : OtelSpanRef) (hgen : 0 < refGen ref)
    (h : (s.slots (refIdx ref)).leaked = false → s.Tidy) :
    Wp (otelSpanReleaseResource env ref) (fun _ s' => Onward s s') (fun _ s' => Onward s s') s := by
  have hdisown : Within Onward (modifySlot (refIdx ref) fun slot => { slot with owner := none }) :=
    onward_modifySlot fun slot => ⟨rfl, ⟨rfl, rfl, rfl, rfl, rfl⟩, fun hblank => hblank.setLife _ _⟩
  have hremove : Within Onward (stackRemove (.slot (refIdx ref))) := onward_keepsSlots (keepsSlots_stackRemove _)
  have hrest {x : M Unit} (hx : Within Onward x) : Wp (do
      modifySlot (refIdx ref) fun slot => { slot with owner := none }
      stackRemove (.slot (refIdx ref))
      x) (fun _ s' => Onward s s') (fun _ s' => Onward s s') s :=
    Within.bind hdisown (fun _ => .bind hremove fun _ => hx) s
  have hkeep (gen : ℕ) :
      Within Onward (modifySlot (refIdx ref) fun slot => { slot with ownerReleasedGen := gen }) :=
    onward_modifySlot fun slot => ⟨rfl, ⟨rfl, rfl, rfl, rfl, rfl⟩, fun hblank => hblank.setLife _ _⟩
  unfold otelSpanReleaseResource
  rw [wp_bind, wp_get, wp_ite]
  refine ⟨fun _ => Std.Refl.refl s, fun hmatch => ?_⟩
  obtain ⟨hlt, hnames⟩ := not_not.1 hmatch
  dsimp only
  by_cases hleaked : (s.slots (refIdx ref)).leaked = true
  · rw [if_pos hleaked]
    apply hrest
    exact .bind (onward_keepsSlots (keepsSlots_counters fun _ => ⟨rfl, rfl⟩)) fun _ =>
      onward_releaseSlot env true _
  rw [if_neg hleaked]
  by_cases hdispatching : (s.slots (refIdx ref)).dispatching = true
  · rw [if_pos hdispatching]
    apply hrest
    exact .bind (onward_keepsSlots (keepsSlots_counters fun _ => ⟨rfl, rfl⟩)) fun _ =>
      onward_releaseSlot env true _
  rw [if_neg hdispatching]
  have h : s.Tidy := h (Bool.eq_false_iff.2 hleaked)
  have hlive : s.life.LiveSlot (refIdx ref) := by
    refine ⟨hlt, fun hfree => ?_⟩
    have hfree : (s.slots (refIdx ref)).gen = 0 := hfree
    omega
  have hmark : Wp (modifySlot (refIdx ref) fun slot => { slot with owner := none })
      (fun _ s₁ => s₁.life = s.life.disown (refIdx ref) s.life.spanStack) (fun _ _ => False) s :=
    wp_modifySlot fun s₁ hlife _ => hlife
  rw [wp_bind]
  refine (hmark.and (hdisown s)).mono (fun _ s₁ h₁ => ?_) fun _ _ h₁ => h₁.1.elim
  obtain ⟨hlife₁, honward₁⟩ := h₁
  apply honward₁.wp
  have hstack : (s₁.life.spanStack.map StackEntry.entry).Nodup := by
    rw [hlife₁]
    exact h.pool.stack_nodup
  have hoff : Wp (stackRemove (.slot (refIdx ref))) (fun _ s₂ => ∃ l : List StackEntry,
      s₂.life = s.life.disown (refIdx ref) l ∧ l.Sublist s.life.spanStack ∧
        ¬ s₂.life.OnStack (.slot (refIdx ref))) (fun _ _ => False) s₁ := by
    apply wp_stackRemove _ hstack
    intro s₂ l hlife₂ hsub hnot _ _
    rw [hlife₁] at hlife₂ hsub
    refine ⟨l, hlife₂, hsub, ?_⟩
    rw [hlife₂]
    exact hnot
  rw [wp_bind]
  refine (hoff.and (hremove s₁)).mono (fun _ s₂ h₂ => ?_) fun _ _ h₂ => h₂.1.elim
  obtain ⟨⟨l, hlife₂, hsub, hoff₂⟩, honward₂⟩ := h₂
  apply honward₂.wp
  have htidy : s₂.Tidy := by
    have hpath : LifePath env.sink s.life s₂.life := by
      rw [hlife₂]
      exact path_disown env _ hsub
    exact h.path hpath (congrArg Lifecycle.nslots hlife₂)
  have hlive₂ : s₂.life.LiveSlot (refIdx ref) := by
    rw [hlife₂]
    exact Lifecycle.disown_live.2 hlive
  have hidle : (s₂.slots (refIdx ref)).dispatching = false := by
    show (s₂.life.slots.cell (refIdx ref)).dispatching = false
    rw [hlife₂, Lifecycle.disown_cell]
    exact Bool.eq_false_iff.2 hdispatching
  rw [wp_bind]
  exact (onward_endSlot env 0 true _ htidy hlive₂ hoff₂ hidle).mono (fun _ s₃ h₃ => h₃.wp (hkeep _ s₃))
    fun _ _ h₃ => h₃

theorem onward_resourceOwnerRelease (owner : ResourceOwner) (ref : OwnedRef) (isCommit : Bool) (h : s.Tidy) :
    Wp (resourceOwnerRelease env owner ref isCommit) (fun _ s' => Onward s s') (fun _ s' => Onward s s') s := by
  have hforget : Within Onward (modify fun s : St => { s with
      owners := Function.update s.owners owner ((s.owners owner).erase ref) } : M Unit) :=
    onward_keepsSlots (keepsSlots_modify fun _ => ⟨rfl, rfl, rfl, rfl, rfl⟩)
  have hreport : Wp (runIf (isCommit = true) (reportLeak env ref.1))
      (fun _ s₁ => Onward s s₁ ∧ ((s₁.slots (refIdx ref.1)).leaked = false → s₁.Tidy))
      (fun _ s₁ => Onward s s₁) s := by
    rw [wp_runIf]
    refine ⟨fun _ => ?_, fun _ => ⟨Std.Refl.refl s, fun _ => h⟩⟩
    refine ((wp_reportLeak env ref.1 s).and (onward_reportLeak env ref.1 h)).mono (fun _ s₁ h₁ => ?_)
      fun _ _ h₁ => h₁.2
    obtain ⟨⟨hlife, -⟩, honward⟩ := h₁
    refine ⟨honward, fun hleaked => ?_⟩
    cases hi : s.life.slotOf ref.1 with
    | none =>
      rw [hi] at hlife
      exact h.congr hlife
    | some i =>
      rw [hi] at hlife
      obtain rfl : refIdx ref.1 = i := by
        unfold Lifecycle.slotOf at hi
        split_ifs at hi
        exact Option.some.inj hi
      have hmarked : (s₁.life.slots.cell (refIdx ref.1)).leaked = true := by
        rw [hlife, Lifecycle.setLeaked_cell]
      exact absurd (hmarked.symm.trans hleaked) (by simp)
  unfold resourceOwnerRelease
  rw [wp_bind]
  refine hreport.mono (fun _ s₁ h₁ => ?_) fun _ _ h₁ => h₁
  apply h₁.1.wp
  rw [wp_bind]
  exact (onward_otelSpanReleaseResource env ref.1 ref.2 h₁.2).mono (fun _ s₂ h₂ => h₂.wp (hforget s₂))
    fun _ _ h₂ => h₂

end Callbacks

/-! ## Runs -/

/-- The handle the call works on was given out by the API. -/
def ProducerOp.Issued (op : ProducerOp) : Prop := ∀ ref ∈ op.worksOn, ref.Issued

theorem onward_discardResult {α : Type} {x : M α} (h : Within KeepsSlots x) : Within Onward (discardResult x) :=
  onward_keepsSlots (.bind h fun _ => within_pure _)

theorem keepsSlots_otelXactCallback (event : XactEvent) : Within KeepsSlots (otelXactCallback event) := by
  cases event with
  | commit | parallelCommit | prepare => exact keepsSlots_dropFromLevel 1 true
  | abort | parallelAbort => exact keepsSlots_dropFromLevel 1 false
  | preCommit | parallelPreCommit | prePrepare => exact within_pure _

theorem keepsSlots_otelSubxactCallback (env : Env) (event : SubXactEvent) :
    Within KeepsSlots (otelSubxactCallback env event) := by
  cases event with
  | abortSub => exact keepsSlots_dropFromLevel env.currentTransactionNestLevel false
  | startSub | commitSub | preCommitSub => exact within_pure _

/-- Whatever the producer is asked to do is a path of data steps. -/
theorem onward_runOp (env : Env) (op : ProducerOp) {s : St} (h : s.Tidy) (hblank : s.FreeBlank)
    (hop : op.Valid s) (hissued : op.Issued) :
    Wp (runOp env op) (fun _ s' => Onward s s') (fun _ s' => Onward s s') s := by
  cases op with
  | spanStart args =>
    show Wp (discardResult _) _ _ s
    unfold discardResult
    rw [wp_bind]
    exact onward_apiSpanStart env args h hblank
  | spanEnd ref endTime => exact onward_apiSpanEnd env ref endTime h hop
  | spanDiscard ref => exact onward_apiSpanDiscard env ref s
  | spanActivate ref => exact onward_discardResult (keepsSlots_apiSpanActivate env ref) s
  | spanDeactivate tok => exact onward_apiSpanDeactivate env tok h
  | spanSetStr ref key val => exact onward_setter env (.setStr key val) ref rfl h (hissued ref rfl)
  | spanSetInt ref key val => exact onward_setter env (.setInt key val) ref rfl h (hissued ref rfl)
  | spanSetDouble ref key val => exact onward_setter env (.setDouble key val) ref rfl h (hissued ref rfl)
  | spanSetBool ref key val => exact onward_setter env (.setBool key val) ref rfl h (hissued ref rfl)
  | spanSetVprintf ref key formatted =>
    exact onward_setter env (.setVprintf key formatted) ref rfl h (hissued ref rfl)
  | spanSetName ref name => exact onward_setter env (.setName name) ref rfl h (hissued ref rfl)
  | spanSetStatus ref code description =>
    exact onward_setter env (.setStatus code description) ref rfl h (hissued ref rfl)
  | spanAddEvent ref name ts attrs =>
    exact onward_setter env (.addEvent name ts attrs) ref rfl h (hissued ref rfl)
  | spanAddLink ref target => exact onward_setter env (.addLink target) ref rfl h (hissued ref rfl)
  | spanRecordError ref edata => exact onward_setter env (.recordError edata) ref rfl h (hissued ref rfl)
  | spanCaptureError ref => exact onward_setter env .captureError ref rfl h (hissued ref rfl)
  | spanCurrent => exact onward_discardResult (keepsSlots_apiSpanCurrent env) s
  | spanContextOf ref => exact onward_discardResult (keepsSlots_apiSpanContextOf env ref) s
  | emitLog edata => exact onward_calm (calm_otelEmitLogHook env edata) h.stackOpen
  | ownerRelease owner ref isCommit => exact onward_resourceOwnerRelease env owner ref isCommit h
  | xactCallback event => exact onward_keepsSlots (keepsSlots_otelXactCallback event) s
  | subxactCallback event => exact onward_keepsSlots (keepsSlots_otelSubxactCallback env event) s
  | shmemExit => exact KeepsSlots.onward ⟨rfl, rfl, rfl, rfl, rfl⟩

/-- Data steps are steps of the accounts. -/
theorem Onward.accounts {garbage : ℕ → OtelSlot} {s s' : St} (h : Onward s s')
    (hs : ∃ a, (spanAccounts garbage).Reachable (s, a)) : ∃ a, (spanAccounts garbage).Reachable (s', a) := by
  have hpath := h.path
  clear h
  induction hpath with
  | refl => exact hs
  | tail _ hstep ih =>
    obtain ⟨a, ha⟩ := ih
    obtain ⟨step, henabled, rfl⟩ := hstep
    exact ⟨a.record _ step, ha.step step ⟨fun _ heq => Option.some.inj heq ▸ henabled, trivial⟩⟩

section Runs

variable {garbage : ℕ → OtelSlot} {s : St}

/-- The state of a run has accounts, and nothing is left in its free slots. -/
theorem reachable_freeBlank_accounts
    (h : (producer garbage).ReachBy (fun _ call => call.Bounded ∧ call.op.Issued) s) :
    s.FreeBlank ∧ ∃ a, (spanAccounts garbage).Reachable (s, a) := by
  induction h with
  | init => exact ⟨fun i hi => absurd hi (Nat.not_lt_zero i), {}, .init⟩
  | @step s call hs hvalid hcall ih =>
    have hready : s.Ready := reachable_ready (hs.mono fun _ _ h => h.1)
    have htidy : s.Tidy := ⟨hready.pool, reachable_ledger hs.reachable, hready.nslots_le⟩
    have henter : Onward s (s.enter call) := KeepsSlots.onward ⟨rfl, rfl, rfl, rfl, rfl⟩
    have hrun := onward_runOp call.env call.op (s := s.enter call) (htidy.congr rfl) (henter.blank ih.1)
      ((valid_enter call).2 hvalid) hcall.2
    have honward : Onward s ((producer garbage).next s call) := henter.trans hrun.endState
    exact ⟨honward.blank ih.1, honward.accounts ih.2⟩

/-- In every run of the producer, every exported span balances with its account, and the statistics are
the sums over all spans just when no exception event was lost. -/
theorem producer_accounts (h : (producer garbage).ReachBy (fun _ call => call.Bounded ∧ call.op.Issued) s) :
    ∃ a : Accounts, a.Kept s ∧ (a.Balanced s ↔ a.lost = 0) := by
  obtain ⟨-, a, ha⟩ := reachable_freeBlank_accounts h
  have hkept : a.Kept s := spanAccounts_kept ha
  exact ⟨a, hkept, hkept.balanced_iff⟩

end Runs

end PostgresOtel
