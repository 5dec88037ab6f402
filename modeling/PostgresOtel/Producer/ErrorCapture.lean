import PostgresOtel.Producer.SpanRuns

/-!
# What errors do to a slot

The exact outcomes of the functions that put an error on a span: recording a report, marking a span that
an abort will end, and lowering a recorded error into an event when the span ends.
-/

set_option autoImplicit false

namespace PostgresOtel

open Exec

variable (env : Env) {i : ℕ}

/-! ## Copies of a report's texts -/

/-- The memory that copies are made from: the bytes charged to the span, and the number of the next
question to the surroundings. -/
structure SpanMemory where
  bytes : ℕ
  tick : ℕ
  deriving DecidableEq

def St.memory (s : St) (i : ℕ) : SpanMemory := ⟨(s.slots i).bytes, s.tick⟩

/-- The question has been put. -/
def SpanMemory.asked (m : SpanMemory) : SpanMemory := { m with tick := m.tick + 1 }

/-- The copy of a text, and the memory after it.  There is none if there is no text, if the span's limit
has no room for it, and if its allocation fails. -/
def Env.copyText (field : Option CString) (maxlen : Option ℕ) (m : SpanMemory) :
    Option CString × SpanMemory :=
  match field with
  | none => (none, m)
  | some text =>
    let size := env.clipLen text maxlen + 1
    if env.maxSpanBytes < m.bytes + size then (none, m)
    else if env.allocFails m.tick then (none, m.asked)
    else (some (text.take (env.clipLen text maxlen)), ⟨m.bytes + size, m.tick + 1⟩)

/-- Only the account of the slot may have changed. -/
def Charged (slot slot' : OtelSlot) : Prop :=
  ∃ bytes requested overdrawn,
    slot' = { slot with bytes := bytes, requested := requested, overdrawn := overdrawn }

instance : Std.Refl Charged := ⟨fun slot => ⟨slot.bytes, slot.requested, slot.overdrawn, rfl⟩⟩

instance : IsTrans OtelSlot Charged := ⟨by
  rintro _ _ _ ⟨_, _, _, rfl⟩ ⟨b, r, o, rfl⟩
  exact ⟨b, r, o, rfl⟩⟩

theorem charged_request (size charge : ℕ) (slot : OtelSlot) : Charged slot (slot.request size charge) :=
  ⟨_, _, _, rfl⟩

theorem wp_copyField_copyText (field : Option CString) (maxlen : Option ℕ) (s : St) :
    Wp (copyField env i field maxlen)
      (fun copy s' => OnSlot i Charged s s' ∧ (copy, s'.memory i) = env.copyText field maxlen (s.memory i))
      (fun _ _ => False) s := by
  unfold copyField
  cases field with
  | none => exact ⟨Std.Refl.refl s, rfl⟩
  | some text =>
    dsimp only
    rw [wp_bind]
    apply wp_slotStrdup_cases
    · intro hrefused
      refine ⟨onSlot_refused env _ _ s, ?_⟩
      unfold Env.copyText St.memory SpanMemory.asked
      rw [slots_refused, tick_refused]
      dsimp only
      by_cases hfull : env.maxSpanBytes < (s.slots i).bytes + (env.clipLen text maxlen + 1)
      · simp only [hfull, if_true]
      · simp only [hfull, if_false, hrefused.resolve_left hfull, if_true]
    · intro hcopied
      refine ⟨onSlot_setSlot (charged_request _ _ _), ?_⟩
      obtain ⟨hroom, hallocs⟩ := not_or.1 hcopied
      unfold Env.copyText St.memory
      rw [slots_setSlot]
      simp only [hroom, if_false, hallocs]
      rfl

/-- The error with the texts of the report. -/
def Env.withTexts (edata : ErrorData) (m : SpanMemory) (err : OtelSlotError) : OtelSlotError :=
  let message := env.copyText edata.message (some env.attrValueMax) m
  let detail := env.copyText edata.detail (some env.attrValueMax) message.2
  let hint := env.copyText edata.hint (some env.attrValueMax) detail.2
  let filename := env.copyText edata.filename none hint.2
  let funcname := env.copyText edata.funcname none filename.2
  { err with
    message := message.1, detail := detail.1, hint := hint.1, filename := filename.1,
    funcname := funcname.1 }

/-- What is known of a report without its texts. -/
def ErrorData.bare (edata : ErrorData) (time : TimestampTz) : OtelSlotError :=
  { elevel := edata.elevel, lineno := edata.lineno, sqlstate := unpackSqlState edata.sqlerrcode,
    time := time }

/-- The error that a report becomes in a slot.  The clock is asked first; a report that memory is out
has no texts. -/
def Env.capturedError (edata : ErrorData) (m : SpanMemory) : OtelSlotError :=
  if edata.sqlerrcode = errcodeOutOfMemory then edata.bare (env.clock m.tick)
  else env.withTexts edata m.asked (edata.bare (env.clock m.tick))

section CapturedError

variable {edata : ErrorData} {m : SpanMemory}

@[simp] theorem Env.capturedError_elevel : (env.capturedError edata m).elevel = edata.elevel := by
  unfold Env.capturedError
  split_ifs <;> rfl

@[simp] theorem Env.capturedError_sqlstate :
    (env.capturedError edata m).sqlstate = unpackSqlState edata.sqlerrcode := by
  unfold Env.capturedError
  split_ifs <;> rfl

@[simp] theorem Env.capturedError_time : (env.capturedError edata m).time = env.clock m.tick := by
  unfold Env.capturedError
  split_ifs <;> rfl

end CapturedError

/-- The slot has this error, and is otherwise as before but for its account. -/
def HasError (err : OtelSlotError) (slot slot' : OtelSlot) : Prop :=
  ∃ slot₁, Charged slot slot₁ ∧ slot' = { slot₁ with err := some err }

theorem wp_copyErrorTexts_withTexts {edata : ErrorData} {err : OtelSlotError} {s : St}
    (herr : (s.slots i).err = some err) :
    Wp (copyErrorTexts env i edata)
      (fun _ s' => OnSlot i (HasError (env.withTexts edata (s.memory i) err)) s s')
      (fun _ _ => False) s := by
  unfold copyErrorTexts
  rw [wp_bind]
  refine (wp_copyField_copyText env edata.message _ s).mono (fun message s₁ h₁ => ?_) fun _ _ h => h
  rw [wp_bind]
  refine (wp_copyField_copyText env edata.detail _ s₁).mono (fun detail s₂ h₂ => ?_) fun _ _ h => h
  rw [wp_bind]
  refine (wp_copyField_copyText env edata.hint _ s₂).mono (fun hint s₃ h₃ => ?_) fun _ _ h => h
  rw [wp_bind]
  refine (wp_copyField_copyText env edata.filename _ s₃).mono (fun filename s₄ h₄ => ?_) fun _ _ h => h
  rw [wp_bind]
  refine (wp_copyField_copyText env edata.funcname _ s₄).mono (fun funcname s₅ h₅ => ?_) fun _ _ h => h
  have hcopied : OnSlot i Charged s s₅ :=
    IsTrans.trans _ _ _ h₁.1 (IsTrans.trans _ _ _ h₂.1 (IsTrans.trans _ _ _ h₃.1
      (IsTrans.trans _ _ _ h₄.1 h₅.1)))
  have herr₅ : (s₅.slots i).err = some err := by
    obtain ⟨b, r, o, heq⟩ := hcopied.slot
    rw [heq, ← herr]
  -- each copy starts from the memory that the one before it left
  have htexts : env.withTexts edata (s.memory i) err =
      { err with
        message := message, detail := detail, hint := hint, filename := filename,
        funcname := funcname } := by
    simp only [Env.withTexts, ← h₁.2, ← h₂.2, ← h₃.2, ← h₄.2, ← h₅.2]
  rw [wp_bind, wp_modifySlot_setSlot, herr₅]
  have hset : OnSlot i (HasError (env.withTexts edata (s.memory i) err)) s
      (s₅.setSlot i { s₅.slots i with err := some (env.withTexts edata (s.memory i) err) }) := by
    refine ⟨?_, fun j hj => ?_, hcopied.nrecs, hcopied.dispatches⟩
    · rw [slots_setSlot]
      exact ⟨s₅.slots i, hcopied.slot, rfl⟩
    · rw [slots_setSlot_of_ne _ _ hj]
      exact hcopied.others j hj
  rw [Option.map_some, ← htexts, wp_runIf]
  refine ⟨fun _ => ?_, fun _ => hset⟩
  exact ⟨hset.slot, hset.others, hset.nrecs, hset.dispatches⟩

/-! ## Recording a report -/

/-- The slot has a more severe error than the report. -/
def OtelSlot.Outranks (slot : OtelSlot) (edata : ErrorData) : Prop :=
  ∃ err ∈ slot.err, edata.elevel < err.elevel

instance (slot : OtelSlot) (edata : ErrorData) : Decidable (slot.Outranks edata) :=
  inferInstanceAs (Decidable (∃ err ∈ slot.err, _))

/-- The report has been recorded in the slot. -/
structure ErrorRecorded (edata : ErrorData) (tick : ℕ) (slot slot' : OtelSlot) : Prop where
  life : slot'.toSlotLife = slot.toSlotLife
  err : slot'.err = some (env.capturedError edata ⟨slot.bytes, tick⟩)
  span : slot'.span =
    { slot.span with status := if elevelError ≤ edata.elevel then .error else slot.span.status }
  attrs : slot'.attrs = slot.attrs
  events : slot'.events = slot.events
  links : slot'.links = slot.links

/-- The report is recorded, unless it is outranked. -/
theorem wp_slotRecordError_cases {edata : ErrorData} {Q : Unit → St → Prop} {E : Exn → St → Prop}
    {s : St} (houtranked : (s.slots i).Outranks edata → Q () s)
    (hrecorded : ¬ (s.slots i).Outranks edata →
      ∀ s', OnSlot i (ErrorRecorded env edata s.tick) s s' → Q () s') :
    Wp (slotRecordError env i edata) Q E s := by
  unfold slotRecordError
  rw [wp_bind, wp_get, wp_ite]
  refine ⟨fun h => houtranked ?_, fun hkeep => ?_⟩
  · unfold OtelSlot.Outranks
    cases herr : (s.slots i).err <;> simp [herr] at h ⊢
    exact h
  have hnot : ¬ (s.slots i).Outranks edata := by
    unfold OtelSlot.Outranks
    cases herr : (s.slots i).err <;> simp [herr] at hkeep ⊢
    exact hkeep
  -- the error as it stands in the slot before its texts are copied
  let err : OtelSlotError := edata.bare (env.clock s.tick)
  let s₁ : St := s.asked.setSlot i { s.slots i with err := some err }
  have hslot₁ : s₁.slots i = { s.slots i with err := some err } := slots_setSlot ..
  have htexts : Wp (recordErrorTexts env i edata)
      (fun _ s' => OnSlot i (HasError (env.capturedError edata (s.memory i))) s₁ s')
      (fun _ _ => False) s₁ := by
    unfold recordErrorTexts Env.capturedError
    rw [wp_ite]
    refine ⟨fun hoom => ?_, fun hoom => ?_⟩
    · rw [if_pos hoom]
      refine ⟨⟨s₁.slots i, Std.Refl.refl _, ?_⟩, fun _ _ => rfl, rfl, rfl⟩
      show s₁.slots i = { s₁.slots i with err := some err }
      rw [hslot₁]
    · rw [if_neg hoom]
      have hmemory : s₁.memory i = (s.memory i).asked := by
        unfold St.memory
        rw [hslot₁]
        rfl
      rw [← hmemory]
      exact wp_copyErrorTexts_withTexts env (show (s₁.slots i).err = some err by rw [hslot₁])
  show Wp (do
    recordErrorTexts env i edata
    runIf (elevelError ≤ edata.elevel) (setSpanError i)) Q E s₁
  rw [wp_bind]
  refine htexts.mono (fun _ s₂ h₂ => ?_) fun _ _ h => h.elim
  obtain ⟨slot₁, ⟨b, r, o, rfl⟩, heq⟩ := h₂.slot
  rw [hslot₁] at heq
  have hothers : ∀ j, j ≠ i → s₂.slots j = s.slots j := fun j hj =>
    (h₂.others j hj).trans (slots_setSlot_of_ne _ _ hj)
  unfold setSpanError
  rw [wp_runIf]
  refine ⟨fun hlevel => ?_, fun hlevel => ?_⟩
  · apply hrecorded hnot
    refine ⟨?_, fun j hj => ?_, h₂.nrecs, h₂.dispatches⟩
    · show ErrorRecorded env edata _ (s.slots i) ((s₂.setSlot i _).slots i)
      rw [slots_setSlot, heq]
      exact ⟨rfl, rfl, by rw [if_pos hlevel], rfl, rfl, rfl⟩
    · exact (slots_setSlot_of_ne s₂ _ hj).trans (hothers j hj)
  · apply hrecorded hnot
    refine ⟨?_, hothers, h₂.nrecs, h₂.dispatches⟩
    rw [heq]
    exact ⟨rfl, rfl, by rw [if_neg hlevel], rfl, rfl, rfl⟩

/-! ## Descriptions -/

/-- "SQLSTATE / message", cut to the buffer. -/
def errorText (sqlstate : CString) : Option CString → CString
  | some message => (sqlstate ++ cstr " / " ++ message).take 255
  | none => sqlstate.take 255

/-- The slot has this description, and is otherwise as before but for its account. -/
structure DescribedAs (description : Option CString) (slot slot' : OtelSlot) : Prop where
  life : slot'.toSlotLife = slot.toSlotLife
  err : slot'.err = slot.err
  span : slot'.span = { slot.span with statusDescription := description }
  attrs : slot'.attrs = slot.attrs
  events : slot'.events = slot.events
  links : slot'.links = slot.links

/-- The description that an error gives, if the allocation with this number succeeds. -/
def Env.describes (tick : ℕ) (sqlstate : CString) (message : Option CString) : Option CString :=
  if env.allocFails tick then none else some (errorText sqlstate message)

theorem wp_describeError_cases {sqlstate : CString} {message : Option CString}
    {Q : Unit → St → Prop} {E : Exn → St → Prop} {s : St}
    (h : ∀ s', OnSlot i (DescribedAs (env.describes s.tick sqlstate message)) s s' → Q () s') :
    Wp (describeError env i sqlstate message) Q E s := by
  unfold describeError errorDescription
  rw [wp_bind, wp_bind]
  apply wp_allocNoOom
  · intro hok
    -- in either case the buffer is requested and the text stored
    have hset : Q () ((s.asked.setSlot i ((s.slots i).request 256 0)).setSlot i
        { (s.slots i).request 256 0 with
          span := { (s.slots i).span with statusDescription := some (errorText sqlstate message) } }) := by
      apply h
      refine ⟨?_, fun j hj => ?_, rfl, rfl⟩
      · simp only [slots_setSlot, Env.describes, hok]
        exact ⟨rfl, rfl, rfl, rfl, rfl, rfl⟩
      · rw [slots_setSlot_of_ne _ _ hj, slots_setSlot_of_ne _ _ hj, slots_asked]
    have hslot : (s.asked.setSlot i ((s.slots i).request 256 0)).slots i = (s.slots i).request 256 0 :=
      slots_setSlot ..
    rw [if_pos rfl, wp_bind, wp_modifySlot_setSlot, slots_asked]
    cases message with
    | some message =>
      rw [wp_pure, wp_modifySlot_setSlot, hslot]
      exact hset
    | none =>
      rw [wp_pure, wp_modifySlot_setSlot, hslot]
      exact hset
  · intro hfails
    apply h
    refine ⟨?_, fun j hj => slots_setSlot_of_ne s.asked _ hj, rfl, rfl⟩
    show DescribedAs _ (s.slots i) ((s.asked.setSlot i _).slots i)
    simp only [slots_setSlot, Env.describes, hfails]
    exact ⟨rfl, rfl, rfl, rfl, rfl, rfl⟩

theorem wp_setSpanError {Q : Unit → St → Prop} {E : Exn → St → Prop} {s : St}
    (h : ∀ s', OnSlot i (fun slot slot' =>
        slot' = { slot with span := { slot.span with status := .error } }) s s' →
      s'.tick = s.tick → Q () s') :
    Wp (setSpanError i) Q E s := by
  unfold setSpanError
  rw [wp_modifySlot_setSlot]
  exact h _ (onSlot_set rfl) rfl

/-- The slot has been marked with the report, without recording it. -/
structure ErrorMarked (edata : ErrorData) (tick : ℕ) (slot slot' : OtelSlot) : Prop where
  life : slot'.toSlotLife = slot.toSlotLife
  err : slot'.err = slot.err
  span : slot'.span =
    { slot.span with
      status := .error
      statusDescription :=
        if slot.span.statusDescription = none ∧ edata.sqlerrcode ≠ errcodeOutOfMemory then
          env.describes tick (unpackSqlState edata.sqlerrcode) edata.message
        else slot.span.statusDescription }
  attrs : slot'.attrs = slot.attrs
  events : slot'.events = slot.events
  links : slot'.links = slot.links

theorem wp_markSpanError_cases {edata : ErrorData} {Q : Unit → St → Prop} {E : Exn → St → Prop}
    {s : St} (h : ∀ s', OnSlot i (ErrorMarked env edata s.tick) s s' → Q () s') :
    Wp (markSpanError env i edata) Q E s := by
  unfold markSpanError
  rw [wp_bind]
  apply wp_setSpanError
  intro s₁ h₁ htick
  have hslot₁ := h₁.slot
  rw [wp_bind, wp_get, wp_runIf, hslot₁]
  refine ⟨fun hdescribe => ?_, fun hkeep => ?_⟩
  · apply wp_describeError_cases
    intro s₂ h₂
    have hslot₂ := h₂.slot
    rw [hslot₁, htick] at hslot₂
    apply h
    refine ⟨?_, fun j hj => (h₂.others j hj).trans (h₁.others j hj), h₂.nrecs.trans h₁.nrecs,
      h₂.dispatches.trans h₁.dispatches⟩
    refine ⟨hslot₂.life, hslot₂.err, ?_, hslot₂.attrs, hslot₂.events, hslot₂.links⟩
    rw [hslot₂.span, if_pos hdescribe]
  · apply h
    refine ⟨?_, h₁.others, h₁.nrecs, h₁.dispatches⟩
    rw [hslot₁]
    exact ⟨rfl, rfl, by rw [if_neg hkeep], rfl, rfl, rfl⟩

end PostgresOtel
