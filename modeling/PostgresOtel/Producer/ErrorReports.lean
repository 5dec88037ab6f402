import PostgresOtel.Producer.ErrorCapture

/-!
# What a report does to the active stack

The log hook goes down the active stack from its top.  `reportTargets` are the recording spans it comes
to: the first of them records the report, and an `ERROR` marks the others.
-/

set_option autoImplicit false

namespace PostgresOtel

open Exec

variable (env : Env)

/-! ## The spans a report comes to -/

/-- The log hook does not pass over the span in the slot. -/
def SlotLife.Listens (edata : ErrorData) (life : SlotLife) : Prop :=
  life.dispatching = false ∧ (elevelError ≤ edata.elevel → life.session = false)

instance (edata : ErrorData) (life : SlotLife) : Decidable (life.Listens edata) :=
  inferInstanceAs (Decidable (_ ∧ _))

/-- The recording spans of a stack, innermost first. -/
def stackSlots (stack : List StackEntry) : List ℕ :=
  stack.filterMap fun e => match e.entry with
    | .slot i => some i
    | .nrec _ => none

@[simp] theorem stackSlots_nil : stackSlots [] = [] := rfl

theorem stackSlots_slot {e : StackEntry} {i : ℕ} (he : e.entry = .slot i) (rest : List StackEntry) :
    stackSlots (e :: rest) = i :: stackSlots rest := by
  simp [stackSlots, he]

theorem stackSlots_nrec {e : StackEntry} {i : ℕ} (he : e.entry = .nrec i) (rest : List StackEntry) :
    stackSlots (e :: rest) = stackSlots rest := by
  simp [stackSlots, he]

/-- The recording spans that the loop does not pass over, innermost first. -/
def listening (slots : ℕ → OtelSlot) (edata : ErrorData) (stack : List StackEntry) : List ℕ :=
  (stackSlots stack).filter fun i => (slots i).toSlotLife.Listens edata

theorem listening_congr {slots slots' : ℕ → OtelSlot}
    (h : ∀ i, (slots' i).toSlotLife = (slots i).toSlotLife) (edata : ErrorData)
    (stack : List StackEntry) : listening slots' edata stack = listening slots edata stack := by
  unfold listening
  simp only [h]

/-- The spans whose slots the report may change: below an `ERROR`, only the innermost. -/
def reportTargets (slots : ℕ → OtelSlot) (edata : ErrorData) (stack : List StackEntry) : List ℕ :=
  if edata.elevel < elevelError then (listening slots edata stack).take 1
  else listening slots edata stack

/-! ## The loop -/

/-- Only the error, the status and its description have changed, and the account. -/
structure ErrorsOnly (slot slot' : OtelSlot) : Prop where
  life : slot'.toSlotLife = slot.toSlotLife
  attrs : slot'.attrs = slot.attrs
  events : slot'.events = slot.events
  links : slot'.links = slot.links
  span : slot'.span =
    { slot.span with
      status := slot'.span.status, statusDescription := slot'.span.statusDescription }

theorem ErrorsOnly.trans {slot slot' slot'' : OtelSlot} (h : ErrorsOnly slot slot')
    (h' : ErrorsOnly slot' slot'') : ErrorsOnly slot slot'' where
  life := h'.life.trans h.life
  attrs := h'.attrs.trans h.attrs
  events := h'.events.trans h.events
  links := h'.links.trans h.links
  span := by rw [h'.span, h.span]

/-- The span has been marked, perhaps more than once. -/
structure ErrorMark (edata : ErrorData) (slot slot' : OtelSlot) : Prop where
  only : ErrorsOnly slot slot'
  err : slot'.err = slot.err
  status : slot'.span.status = .error
  description : slot.span.statusDescription ≠ none ∨ edata.sqlerrcode = errcodeOutOfMemory →
    slot'.span.statusDescription = slot.span.statusDescription
  described : (∀ n, env.allocFails n = false) → edata.sqlerrcode ≠ errcodeOutOfMemory →
    slot'.span.statusDescription ≠ none

/-- A mark makes no difference to the slot. -/
def OtelSlot.BearsMark (edata : ErrorData) (slot : OtelSlot) : Prop :=
  slot.span.status = .error ∧
    (slot.span.statusDescription ≠ none ∨ edata.sqlerrcode = errcodeOutOfMemory)

variable {env}

theorem ErrorMarked.errorMark {edata : ErrorData} {tick : ℕ} {slot slot' : OtelSlot}
    (h : ErrorMarked env edata tick slot slot') : ErrorMark env edata slot slot' where
  only := ⟨h.life, h.attrs, h.events, h.links, by rw [h.span]⟩
  err := h.err
  status := by rw [h.span]
  description := by
    intro hkeep
    rw [h.span]
    exact if_neg fun hset => hkeep.elim (fun hne => hne hset.1) fun heq => hset.2 heq
  described := by
    intro hallocs hoom
    rw [h.span]
    by_cases hnone : slot.span.statusDescription = none
    · simp [hnone, hoom, Env.describes, hallocs]
    · simp [hnone]

theorem ErrorMark.trans {edata : ErrorData} {slot slot' slot'' : OtelSlot}
    (h : ErrorMark env edata slot slot') (h' : ErrorMark env edata slot' slot'') :
    ErrorMark env edata slot slot'' where
  only := h.only.trans h'.only
  err := h'.err.trans h.err
  status := h'.status
  description := by
    intro hkeep
    have hfirst := h.description hkeep
    refine (h'.description ?_).trans hfirst
    rwa [hfirst]
  described := h'.described

variable (env)

/-- These spans have been marked, and the other slots are as before. -/
structure AllMarked (edata : ErrorData) (targets : List ℕ) (slots slots' : ℕ → OtelSlot) : Prop where
  marked : ∀ i ∈ targets, ErrorMark env edata (slots i) (slots' i)
  others : ∀ i, i ∉ targets → slots' i = slots i

theorem allMarked_nil {edata : ErrorData} {slots slots' : ℕ → OtelSlot} :
    AllMarked env edata [] slots slots' ↔ slots' = slots := by
  constructor
  · intro h
    funext i
    exact h.others i List.not_mem_nil
  · rintro rfl
    exact ⟨fun i hi => absurd hi List.not_mem_nil, fun _ _ => rfl⟩

variable {env}

theorem AllMarked.cons {edata : ErrorData} {i : ℕ} {targets : List ℕ} {slots slots₁ slots' : ℕ → OtelSlot}
    (hfirst : ErrorMark env edata (slots i) (slots₁ i)) (hothers : ∀ j, j ≠ i → slots₁ j = slots j)
    (h : AllMarked env edata targets slots₁ slots') : AllMarked env edata (i :: targets) slots slots' := by
  have hother {j : ℕ} (hj : j ≠ i) : slots₁ j = slots j := hothers j hj
  constructor
  · intro j hj
    by_cases hji : j = i
    · subst hji
      by_cases hmem : j ∈ targets
      · exact hfirst.trans (h.marked j hmem)
      · rw [h.others j hmem]
        exact hfirst
    · rw [← hother hji]
      exact h.marked j ((List.mem_cons.1 hj).resolve_left hji)
  · intro j hj
    rw [List.mem_cons, not_or] at hj
    rw [h.others j hj.2, hother hj.1]

variable (env)

theorem listening_slot {slots : ℕ → OtelSlot} {edata : ErrorData} {e : StackEntry} {i : ℕ}
    (he : e.entry = .slot i) (rest : List StackEntry) :
    listening slots edata (e :: rest) =
      if (slots i).toSlotLife.Listens edata then i :: listening slots edata rest
      else listening slots edata rest := by
  unfold listening
  rw [stackSlots_slot he, List.filter_cons]
  simp

theorem listening_nrec {slots : ℕ → OtelSlot} {edata : ErrorData} {e : StackEntry} {i : ℕ}
    (he : e.entry = .nrec i) (rest : List StackEntry) :
    listening slots edata (e :: rest) = listening slots edata rest := by
  unfold listening
  rw [stackSlots_nrec he]

/-- Once the report has been recorded, the rest of an `ERROR`'s loop marks. -/
theorem wp_recordOnStack_marks {edata : ErrorData} (hlevel : elevelError ≤ edata.elevel)
    (stack : List StackEntry) (s : St) :
    Wp (recordOnStack env edata stack true)
      (fun _ s' => AllMarked env edata (listening s.slots edata stack) s.slots s'.slots)
      (fun _ _ => False) s := by
  induction stack generalizing s with
  | nil => exact (allMarked_nil env).2 rfl
  | cons e rest ih =>
    cases he : e.entry with
    | nrec j =>
      rw [listening_nrec he, recordOnStack, he]
      exact ih s
    | slot i =>
      rw [listening_slot he, recordOnStack, he]
      dsimp only
      rw [wp_bind, wp_get, wp_ite]
      refine ⟨fun hdisp => ?_, fun hdisp => ?_⟩
      · have hpass : ¬ (s.slots i).toSlotLife.Listens edata := fun h => by simp [h.1] at hdisp
        rw [if_neg hpass]
        exact ih s
      rw [wp_ite]
      refine ⟨fun hlow => by omega, fun _ => ?_⟩
      rw [wp_ite]
      refine ⟨fun hsession => ?_, fun hsession => ?_⟩
      · have hpass : ¬ (s.slots i).toSlotLife.Listens edata := fun h => by
          simp [h.2 hlevel] at hsession
        rw [if_neg hpass]
        exact ih s
      have hlistens : (s.slots i).toSlotLife.Listens edata :=
        ⟨by simpa using hdisp, fun _ => by simpa using hsession⟩
      rw [if_pos hlistens, wp_ite]
      refine ⟨fun hno => by simp at hno, fun _ => ?_⟩
      rw [wp_bind]
      apply wp_markSpanError_cases
      intro s₁ h₁
      refine (ih s₁).mono (fun _ s₂ h₂ => ?_) fun _ _ h => h
      have hlife : ∀ j, (s₁.slots j).toSlotLife = (s.slots j).toSlotLife := by
        intro j
        by_cases hj : j = i
        · rw [hj]
          exact h₁.slot.life
        · rw [h₁.others j hj]
      rw [listening_congr hlife] at h₂
      exact AllMarked.cons h₁.slot.errorMark h₁.others h₂

/-- The first of the targets has recorded the report unless it outranks it, and the others have been
marked. -/
def Reported (edata : ErrorData) (tick : ℕ) (targets : List ℕ) (slots slots' : ℕ → OtelSlot) :
    Prop :=
  match targets with
  | [] => slots' = slots
  | t :: rest => ∃ slot₁,
    ((slots t).Outranks edata ∧ slot₁ = slots t ∨
      ¬ (slots t).Outranks edata ∧ ErrorRecorded env edata tick (slots t) slot₁) ∧
    AllMarked env edata rest (Function.update slots t slot₁) slots'

theorem wp_recordOnStack (edata : ErrorData) (stack : List StackEntry) (s : St) :
    Wp (recordOnStack env edata stack false)
      (fun _ s' => Reported env edata s.tick (reportTargets s.slots edata stack)
        s.slots s'.slots)
      (fun _ _ => False) s := by
  induction stack with
  | nil =>
    rw [show reportTargets s.slots edata [] = [] by simp [reportTargets, listening]]
    rfl
  | cons e rest ih =>
    cases he : e.entry with
    | nrec j =>
      unfold reportTargets at ih ⊢
      rw [listening_nrec he, recordOnStack, he]
      exact ih
    | slot i =>
      unfold reportTargets at ih ⊢
      rw [listening_slot he, recordOnStack, he]
      dsimp only
      rw [wp_bind, wp_get, wp_ite]
      refine ⟨fun hdisp => ?_, fun hdisp => ?_⟩
      · have hpass : ¬ (s.slots i).toSlotLife.Listens edata := fun h => by simp [h.1] at hdisp
        rw [if_neg hpass]
        exact ih
      have hdisp : (s.slots i).dispatching = false := by simpa using hdisp
      rw [wp_ite]
      refine ⟨fun hlow => ?_, fun hlevel => ?_⟩
      · -- below an `ERROR` the loop ends with the first span
        have hlistens : (s.slots i).toSlotLife.Listens edata := ⟨hdisp, fun h => by omega⟩
        rw [if_pos hlow, if_pos hlistens, List.take_succ_cons, List.take_zero]
        apply wp_slotRecordError_cases
        · intro hrank
          refine ⟨s.slots i, .inl ⟨hrank, rfl⟩, (allMarked_nil env).2 ?_⟩
          exact (Function.update_eq_self i s.slots).symm
        · intro hrank s' h'
          refine ⟨s'.slots i, .inr ⟨hrank, h'.slot⟩, (allMarked_nil env).2 ?_⟩
          funext j
          by_cases hj : j = i
          · rw [hj, Function.update_self]
          · rw [Function.update_of_ne hj, h'.others j hj]
      rw [if_neg hlevel] at ih ⊢
      rw [wp_ite]
      refine ⟨fun hsession => ?_, fun hsession => ?_⟩
      · have hpass : ¬ (s.slots i).toSlotLife.Listens edata := fun h => by
          simp [h.2 (by omega)] at hsession
        rw [if_neg hpass]
        exact ih
      have hlistens : (s.slots i).toSlotLife.Listens edata :=
        ⟨hdisp, fun _ => by simpa using hsession⟩
      rw [if_pos hlistens, wp_ite]
      refine ⟨fun _ => ?_, fun hno => by simp at hno⟩
      rw [wp_bind]
      apply wp_slotRecordError_cases
      · intro hrank
        refine (wp_recordOnStack_marks env (by omega) rest s).mono (fun _ s' h' => ?_) fun _ _ h => h
        refine ⟨s.slots i, .inl ⟨hrank, rfl⟩, ?_⟩
        rwa [Function.update_eq_self]
      · intro hrank s₁ h₁
        have hslots : s₁.slots = Function.update s.slots i (s₁.slots i) := by
          funext j
          by_cases hj : j = i
          · rw [hj, Function.update_self]
          · rw [Function.update_of_ne hj, h₁.others j hj]
        have hlife : ∀ j, (s₁.slots j).toSlotLife = (s.slots j).toSlotLife := by
          intro j
          by_cases hj : j = i
          · rw [hj]
            exact h₁.slot.life
          · rw [h₁.others j hj]
        refine (wp_recordOnStack_marks env (by omega) rest s₁).mono (fun _ s' h' => ?_) fun _ _ h => h
        refine ⟨s₁.slots i, .inr ⟨hrank, h₁.slot⟩, ?_⟩
        rwa [listening_congr hlife, hslots] at h'

/-- What a report comes to in these surroundings: below `WARNING`, and in a critical section, nothing. -/
def Env.reportTargets (slots : ℕ → OtelSlot) (edata : ErrorData) (stack : List StackEntry) : List ℕ :=
  if elevelWarning ≤ edata.elevel ∧ env.critSectionCount = 0 then
    PostgresOtel.reportTargets slots edata stack
  else []

theorem wp_otelEmitLogHook (edata : ErrorData) (s : St) :
    Wp (otelEmitLogHook env edata)
      (fun _ s' => Reported env edata s.tick
        (env.reportTargets s.slots edata s.spanStack) s.slots s'.slots)
      (fun _ _ => False) s := by
  unfold otelEmitLogHook Env.reportTargets
  rw [wp_bind, wp_get, wp_ite]
  refine ⟨fun hlogged => ?_, fun hlogged => ?_⟩
  · rw [if_pos hlogged]
    exact wp_recordOnStack env edata s.spanStack s
  · rw [if_neg hlogged]
    rfl

/-! ## What no report changes -/

/-- A relation that every elementary step of a report is within. -/
structure ReportFrame (R : St → St → Prop) : Prop where
  slot : ∀ (i : ℕ) (f : OtelSlot → OtelSlot), (∀ slot, ErrorsOnly slot (f slot)) →
    Within R (modifySlot i f)
  count : Within R countCaptureFailed
  ask : ∀ {α : Type} (answer : ℕ → α), Within R (ask answer)

namespace ReportFrame

variable {R : St → St → Prop} [Std.Refl R] [IsTrans St R] (h : ReportFrame R)

include h

theorem copyField (i : ℕ) (field : Option CString) (maxlen : Option ℕ) :
    Within R (copyField env i field maxlen) := by
  unfold PostgresOtel.copyField slotStrdup allocNoOom
  cases field with
  | none => exact within_pure _
  | some str =>
    refine .bind (.bind within_get fun s => .ite (within_pure _) (.bind (h.ask _) fun _ => ?_))
      fun _ => within_pure _
    refine .ite (.bind (h.slot i _ fun slot => ?_) fun _ => within_pure _) (within_pure _)
    exact ⟨rfl, rfl, rfl, rfl, rfl⟩

theorem describeError (i : ℕ) (sqlstate : CString) (message : Option CString) :
    Within R (describeError env i sqlstate message) := by
  unfold PostgresOtel.describeError errorDescription allocNoOom
  refine .bind (.bind (h.ask _) fun _ => .ite (.bind ?_ fun _ => ?_) (within_pure _)) fun _ => ?_
  · exact h.slot i _ fun slot => ⟨rfl, rfl, rfl, rfl, rfl⟩
  · cases message <;> exact within_pure _
  · exact h.slot i _ fun slot => ⟨rfl, rfl, rfl, rfl, rfl⟩

theorem markSpanError (i : ℕ) (edata : ErrorData) : Within R (markSpanError env i edata) := by
  unfold PostgresOtel.markSpanError setSpanError runIf
  refine .bind (h.slot i _ fun slot => ⟨rfl, rfl, rfl, rfl, rfl⟩) fun _ => .bind within_get fun s => ?_
  exact .ite (h.describeError env i _ _) (within_pure _)

theorem slotRecordError (i : ℕ) (edata : ErrorData) : Within R (slotRecordError env i edata) := by
  have hcopy := h.copyField env i
  have herr (f : OtelSlot → Option OtelSlotError) :
      Within R (modifySlot i fun slot => { slot with err := f slot }) :=
    h.slot i _ fun slot => ⟨rfl, rfl, rfl, rfl, rfl⟩
  have htexts : Within R (recordErrorTexts env i edata) := by
    unfold recordErrorTexts copyErrorTexts runIf
    refine .ite h.count (.bind (hcopy _ _) fun _ => .bind (hcopy _ _) fun _ => .bind (hcopy _ _)
      fun _ => .bind (hcopy _ _) fun _ => .bind (hcopy _ _) fun _ => .bind (herr _) fun _ => ?_)
    exact .ite h.count (within_pure _)
  unfold PostgresOtel.slotRecordError getCurrentTimestamp setSpanError runIf
  refine .bind within_get fun s => .ite (within_pure _) (.bind (h.ask _) fun _ => ?_)
  refine .bind (herr _) fun _ => .bind htexts fun _ => .ite ?_ (within_pure _)
  exact h.slot i _ fun slot => ⟨rfl, rfl, rfl, rfl, rfl⟩

theorem recordOnStack (edata : ErrorData) (stack : List StackEntry) (recorded : Bool) :
    Within R (recordOnStack env edata stack recorded) := by
  have hrecord (i : ℕ) := h.slotRecordError env i edata
  have hmark (i : ℕ) := h.markSpanError env i edata
  induction stack generalizing recorded with
  | nil => exact within_pure _
  | cons e rest ih =>
    unfold PostgresOtel.recordOnStack
    cases e.entry with
    | nrec _ => exact ih _
    | slot i =>
      refine .bind within_get fun s => .ite (ih _) (.ite (hrecord i) (.ite (ih _) ?_))
      exact .ite (.bind (hrecord i) fun _ => ih _) (.bind (hmark i) fun _ => ih _)

theorem otelEmitLogHook (edata : ErrorData) : Within R (otelEmitLogHook env edata) := by
  unfold PostgresOtel.otelEmitLogHook
  exact .bind within_get fun s => .ite (h.recordOnStack env edata _ _) (within_pure _)

end ReportFrame

end PostgresOtel
