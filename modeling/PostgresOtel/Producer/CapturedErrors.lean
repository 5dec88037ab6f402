import PostgresOtel.Lib.Latest
import PostgresOtel.Producer.SpanOps

/-!
# Errors captured on a span

Beside a run of operations on a span, a record of what happened to it as far as errors go: the reports
that came to it to be recorded, the marks that the log hook left, and the statuses that were set.  The
slot's error is the latest among the most severe reports, and what the span is exported with follows.
-/

set_option autoImplicit false

namespace PostgresOtel

open Exec

variable (env : Env) {i : ℕ}

/-! ## Operations that capture nothing -/

/-- The span has the same error, status, description and events. -/
structure SameErrors (slot slot' : OtelSlot) : Prop where
  err : slot'.err = slot.err
  status : slot'.span.status = slot.span.status
  description : slot'.span.statusDescription = slot.span.statusDescription
  events : slot'.events = slot.events

instance : Std.Refl SameErrors := ⟨fun _ => ⟨rfl, rfl, rfl, rfl⟩⟩

instance : IsTrans OtelSlot SameErrors := ⟨fun _ _ _ h h' =>
  ⟨h'.err.trans h.err, h'.status.trans h.status, h'.description.trans h.description,
    h'.events.trans h.events⟩⟩

theorem SameContents.sameErrors {slot slot' : OtelSlot} (h : SameContents slot slot') :
    SameErrors slot slot' := ⟨h.err, by rw [h.span], by rw [h.span], h.events⟩

theorem OnSlot.mono {R R' : OtelSlot → OtelSlot → Prop} (hR : ∀ slot slot', R slot slot' → R' slot slot')
    {s s' : St} (h : OnSlot i R s s') : OnSlot i R' s s' :=
  ⟨hR _ _ h.slot, h.others, h.nrecs, h.dispatches⟩

theorem sameErrors_slotStrdup (str : CString) (maxlen : Option ℕ) :
    Within (OnSlot i SameErrors) (slotStrdup env i str maxlen) :=
  onSlot_slotStrdup env str maxlen fun _ _ _ => ⟨rfl, rfl, rfl, rfl⟩

theorem sameErrors_slotGrow (arr : SlotArray) (want : ℕ) :
    Within (OnSlot i SameErrors) (slotGrow env i arr want) := fun s =>
  (keeps_slotGrow env arr want s).mono
    (fun _ _ h => h.slot.mono fun _ _ => SameContents.sameErrors)
    fun _ _ h => h.slot.mono fun _ _ => SameContents.sameErrors

theorem sameErrors_copyField (field : Option CString) (maxlen : Option ℕ) :
    Within (OnSlot i SameErrors) (copyField env i field maxlen) :=
  onSlot_copyField env field maxlen fun _ _ _ => ⟨rfl, rfl, rfl, rfl⟩

theorem sameErrors_modifySlot {f : OtelSlot → OtelSlot} (h : ∀ slot, SameErrors slot (f slot)) :
    Within (OnSlot i SameErrors) (modifySlot i f) := onSlot_modifySlot h

theorem sameErrors_modifyCounters (f : OtelApiCounters → OtelApiCounters) :
    Within (OnSlot i SameErrors) (modifyCounters f) := onSlot_modify fun _ => ⟨rfl, rfl, rfl⟩

theorem sameErrors_dropAttr : Within (OnSlot i SameErrors) (dropAttr i) := by
  unfold dropAttr
  refine .bind (sameErrors_modifySlot fun _ => ?_) fun _ => sameErrors_modifyCounters _
  exact ⟨rfl, rfl, rfl, rfl⟩

theorem sameErrors_slotAttr (key : CString) : Within (OnSlot i SameErrors) (slotAttr env i key) := by
  unfold slotAttr copyIfGrown
  refine .bind within_get fun s => ?_
  cases (s.slots i).attrs.findIdx? (fun a => a.key = key) with
  | some k => exact within_pure _
  | none =>
    refine .bind (sameErrors_slotGrow env _ _) fun _ => .bind ?_ fun copy => ?_
    · exact .ite (sameErrors_copyField env _ _) (within_pure _)
    · cases copy with
      | none => exact .bind sameErrors_dropAttr fun _ => within_pure _
      | some k =>
        refine .bind (sameErrors_modifySlot fun _ => ?_) fun _ => within_pure _
        exact ⟨rfl, rfl, rfl, rfl⟩

theorem sameErrors_setAttrValue (k : ℕ) (v : OtelAttrValue) :
    Within (OnSlot i SameErrors) (setAttrValue i k v) :=
  sameErrors_modifySlot fun _ => ⟨rfl, rfl, rfl, rfl⟩

theorem sameErrors_setValue (key : CString) (v : OtelAttrValue) :
    Within (OnSlot i SameErrors) (setValue env i key v) := by
  unfold setValue
  refine .bind (sameErrors_slotAttr env key) fun a => ?_
  cases a with
  | none => exact within_pure _
  | some k => exact sameErrors_setAttrValue k v

theorem sameErrors_setStrInternal (key : CString) (val : Option CString) :
    Within (OnSlot i SameErrors) (setStrInternal env i key val) := by
  unfold setStrInternal
  cases val with
  | none => exact within_pure _
  | some val =>
    refine .bind (sameErrors_slotAttr env key) fun a => ?_
    cases a with
    | none => exact within_pure _
    | some k =>
      refine .bind (sameErrors_slotStrdup env _ _) fun copy => ?_
      cases copy.1 with
      | none =>
        refine .bind (sameErrors_modifySlot fun _ => ?_) fun _ => sameErrors_dropAttr
        exact ⟨rfl, rfl, rfl, rfl⟩
      | some str =>
        refine .bind (onSlot_runIf (sameErrors_modifyCounters _)) fun _ => ?_
        exact sameErrors_setAttrValue k _

theorem sameErrors_setFormatted (key formatted : CString) :
    Within (OnSlot i SameErrors) (setFormatted env i key formatted) := by
  unfold setFormatted allocBigBuffer allocNoOom
  refine .bind (.ite (onSlot_ask _) (within_pure _)) fun big => .ite ?_ ?_
  · refine .bind (sameErrors_modifySlot fun _ => ⟨rfl, rfl, rfl, rfl⟩) fun _ => ?_
    refine .bind (sameErrors_setStrInternal env _ _) fun _ => ?_
    exact sameErrors_modifySlot fun _ => ⟨rfl, rfl, rfl, rfl⟩
  · refine .bind (onSlot_runIf (sameErrors_modifyCounters _)) fun _ => ?_
    exact sameErrors_setStrInternal env _ _

theorem sameErrors_setName (name : Option CString) :
    Within (OnSlot i SameErrors) (setName env i name) := by
  unfold setName
  refine .bind (sameErrors_copyField env _ _) fun copy => ?_
  cases copy with
  | none => exact within_pure _
  | some copy => exact sameErrors_modifySlot fun _ => ⟨rfl, rfl, rfl, rfl⟩

theorem sameErrors_addLink (target : OtelSpanContext) :
    Within (OnSlot i SameErrors) (addLink env i target) := by
  unfold addLink
  refine .bind within_get fun s => .bind (sameErrors_slotGrow env _ _) fun _ => .ite ?_ ?_
  · exact sameErrors_modifySlot fun _ => ⟨rfl, rfl, rfl, rfl⟩
  · refine .bind (sameErrors_modifySlot fun _ => ⟨rfl, rfl, rfl, rfl⟩) fun _ => ?_
    exact onSlot_modify fun _ => ⟨rfl, rfl, rfl⟩

theorem sameErrors_copyEventAttrs (attrs : List AttrArg) :
    Within (OnSlot i SameErrors) (copyEventAttrs env i attrs) := by
  induction attrs with
  | nil => exact within_pure _
  | cons a rest ih =>
    unfold copyEventAttrs copyEventValue
    refine .bind (sameErrors_copyField env _ _) fun key => .bind ?_ fun v => ?_
    · split
      · exact .bind (sameErrors_slotStrdup env _ _) fun _ => within_pure _
      · exact within_pure _
    · split
      · exact .bind ih fun _ => within_pure _
      · exact within_pure _

theorem sameErrors_copyEventArray (attrs : List AttrArg) :
    Within (OnSlot i SameErrors) (copyEventArray env i attrs) := by
  unfold copyEventArray allocNoOom
  refine .ite (within_pure _) (.bind within_get fun s => .ite (within_pure _) ?_)
  refine .bind (onSlot_ask _) fun _ => .ite ?_ (within_pure _)
  refine .bind (sameErrors_modifySlot fun _ => ⟨rfl, rfl, rfl, rfl⟩) fun _ => ?_
  exact sameErrors_copyEventAttrs env attrs

/-- The span has the same error, status and description, and may have more events. -/
structure MoreEvents (slot slot' : OtelSlot) : Prop where
  err : slot'.err = slot.err
  status : slot'.span.status = slot.span.status
  description : slot'.span.statusDescription = slot.span.statusDescription
  events : slot.events <+: slot'.events

instance : Std.Refl MoreEvents := ⟨fun _ => ⟨rfl, rfl, rfl, List.prefix_refl _⟩⟩

instance : IsTrans OtelSlot MoreEvents := ⟨fun _ _ _ h h' =>
  ⟨h'.err.trans h.err, h'.status.trans h.status, h'.description.trans h.description,
    h.events.trans h'.events⟩⟩

theorem SameErrors.moreEvents {slot slot' : OtelSlot} (h : SameErrors slot slot') :
    MoreEvents slot slot' := ⟨h.err, h.status, h.description, by rw [h.events]⟩

theorem moreEvents_addEvent (name : CString) (ts : TimestampTz) (attrs : List AttrArg) :
    Within (OnSlot i MoreEvents) (addEvent env i name ts attrs) := by
  have hsame {α : Type} {x : M α} (h : Within (OnSlot i SameErrors) x) :
      Within (OnSlot i MoreEvents) x := fun s =>
    (h s).mono (fun _ _ h => h.mono fun _ _ => SameErrors.moreEvents)
      fun _ _ h => h.mono fun _ _ => SameErrors.moreEvents
  have hdrop : Within (OnSlot i MoreEvents) (dropEvent i) := by
    apply hsame
    unfold dropEvent
    refine .bind (sameErrors_modifySlot fun _ => ⟨rfl, rfl, rfl, rfl⟩) fun _ => ?_
    exact sameErrors_modifyCounters _
  unfold addEvent copyIfGrown timeOrNow getCurrentTimestamp
  refine .bind within_get fun s => .bind (hsame (sameErrors_slotGrow env _ _)) fun _ => ?_
  refine .bind (.ite (hsame (sameErrors_copyField env _ _)) (within_pure _)) fun ename => ?_
  cases ename with
  | none => exact hdrop
  | some ename =>
    refine .bind (hsame (sameErrors_copyEventArray env attrs)) fun copied => ?_
    cases copied with
    | none => exact hdrop
    | some copied =>
      refine .bind (.ite (onSlot_ask _) (within_pure _)) fun _ => ?_
      exact onSlot_modifySlot fun slot => ⟨rfl, rfl, rfl, List.prefix_append ..⟩

/-! ## What is noted -/

/-- A report that came to a span to be recorded, with the surroundings and the memory left to the span
then. -/
structure Report where
  env : Env
  edata : ErrorData
  memory : SpanMemory

def Report.level (r : Report) : ℕ := r.edata.elevel

/-- The error that the report becomes if it is not outranked. -/
def Report.error (r : Report) : OtelSlotError := r.env.capturedError r.edata r.memory

/-- What happened to a span, as far as errors go. -/
inductive SpanNote
  | report (r : Report)
  /-- The log hook has marked the span, with this description if there was none. -/
  | mark (description : Option CString)
  /-- The status was set, with this copy of a description. -/
  | status (code : OtelSpanStatus) (description : Option CString)

/-- The error that `otel_span_capture_error` gets a copy of. -/
def Env.capturable : List ErrorData → Option ErrorData
  | [] => none
  | edata :: _ =>
    if edata.sqlerrcode = errcodeOutOfMemory then
      some { elevel := elevelError, sqlerrcode := errcodeOutOfMemory }
    else if env.copyErrorDataRaises then none
    else some edata

theorem Env.capturable_cons (edata : ErrorData) (rest : List ErrorData) :
    env.capturable (edata :: rest) =
      if edata.sqlerrcode = errcodeOutOfMemory then
        some { elevel := elevelError, sqlerrcode := errcodeOutOfMemory }
      else if env.copyErrorDataRaises then none
      else some edata := rfl

/-- The copy of a description, if it can be made. -/
def Env.descriptionCopy (slot : OtelSlot) (tick : ℕ) (description : Option CString) : Option CString :=
  description.bind fun text =>
    if env.Refuses slot tick (env.clipLen text (some env.attrValueMax) + 1) then none
    else some (env.clip text)

/-- The description that a mark leaves on a span that has none. -/
def Env.markDescription (tick : ℕ) (edata : ErrorData) : Option CString :=
  if edata.sqlerrcode = errcodeOutOfMemory then none
  else env.describes tick (unpackSqlState edata.sqlerrcode) edata.message

/-- What an operation adds to the record. -/
def SpanOp.note (ref : OtelSpanRef) (s : St) : SpanOp → Option SpanNote
  | .setStatus code description =>
    if env.Reaches ref s then
      some (.status code (env.descriptionCopy (s.slots (refIdx ref)) s.tick description))
    else none
  | .recordError edata =>
    if env.Reaches ref s then edata.map fun edata => .report ⟨env, edata, s.memory (refIdx ref)⟩ else none
  | .captureError =>
    if env.Reaches ref s then
      (env.capturable s.backend.errorStack).map fun edata =>
        .report ⟨env, edata, s.memory (refIdx ref)⟩
    else none
  | .capture edata recorded =>
    if edata.elevel < elevelError ∨ recorded = false then
      some (.report ⟨env, edata, s.memory (refIdx ref)⟩)
    else some (.mark (env.markDescription s.tick edata))
  | _ => none

/-- What has become of the span by what is noted. -/
def SpanNote.Leads (slot slot' : OtelSlot) : SpanNote → Prop
  | .report r => (slot.Outranks r.edata ∧ SameErrors slot slot') ∨
      (¬ slot.Outranks r.edata ∧ slot.bytes = r.memory.bytes ∧
        ErrorRecorded r.env r.edata r.memory.tick slot slot')
  | .mark description => slot'.err = slot.err ∧ slot'.events = slot.events ∧
      slot'.span.status = .error ∧
      slot'.span.statusDescription =
        if slot.span.statusDescription = none then description else slot.span.statusDescription
  | .status code description => slot'.err = slot.err ∧ slot'.events = slot.events ∧
      slot'.span.status = code ∧ slot'.span.statusDescription = description

theorem SpanNote.Leads.events {slot slot' : OtelSlot} {note : SpanNote} (h : note.Leads slot slot') :
    slot'.events = slot.events := by
  cases note with
  | report r =>
    rcases h with ⟨-, hsame⟩ | ⟨-, -, hrecorded⟩
    · exact hsame.events
    · exact hrecorded.events
  | mark | status => exact h.2.1

/-- The operation ends the span. -/
def SpanOp.isFinish : SpanOp → Bool
  | .finish _ _ _ => true
  | _ => false

def SpanOp.isAddEvent : SpanOp → Bool
  | .addEvent _ _ _ => true
  | _ => false

/-- What an operation that does not end the span has done, as far as errors and events go. -/
structure NoteStep (ref : OtelSpanRef) (op : SpanOp) (s s' : St) : Prop where
  note : ∀ note ∈ op.note env ref s, note.Leads (s.slots (refIdx ref)) (s'.slots (refIdx ref))
  other : op.note env ref s = none → MoreEvents (s.slots (refIdx ref)) (s'.slots (refIdx ref))
  events : op.isAddEvent = false → (s'.slots (refIdx ref)).events = (s.slots (refIdx ref)).events

variable {env} {ref : OtelSpanRef} {op : SpanOp} {s s' : St}

theorem NoteStep.of_same (hnote : op.note env ref s = none)
    (h : SameErrors (s.slots (refIdx ref)) (s'.slots (refIdx ref))) : NoteStep env ref op s s' where
  note note hmem := by
    rw [hnote] at hmem
    cases hmem
  other _ := h.moreEvents
  events _ := h.events

theorem NoteStep.of_leads {note : SpanNote} (hnote : op.note env ref s = some note)
    (h : note.Leads (s.slots (refIdx ref)) (s'.slots (refIdx ref))) : NoteStep env ref op s s' where
  note note' hmem := by
    rw [hnote] at hmem
    obtain rfl := Option.some.inj hmem
    exact h
  other hnone := by
    rw [hnote] at hnone
    cases hnone
  events _ := h.events

theorem NoteStep.of_more (hnote : op.note env ref s = none) (hadds : op.isAddEvent = true)
    (h : MoreEvents (s.slots (refIdx ref)) (s'.slots (refIdx ref))) : NoteStep env ref op s s' where
  note note hmem := by
    rw [hnote] at hmem
    cases hmem
  other _ := h
  events hno := by
    rw [hadds] at hno
    cases hno

variable (env)

theorem wp_slotRecordError_leads (edata : ErrorData) (s : St) :
    Wp (slotRecordError env i edata)
      (fun _ s' => (SpanNote.report ⟨env, edata, s.memory i⟩).Leads (s.slots i) (s'.slots i))
      (fun _ _ => False) s := by
  apply wp_slotRecordError_cases
  · exact fun hrank => .inl ⟨hrank, Std.Refl.refl _⟩
  · exact fun hrank s' h => .inr ⟨hrank, rfl, h.slot⟩

theorem wp_captureTurn_step (edata : ErrorData) (recorded : Bool) (s : St) :
    Wp (captureTurn env edata recorded (refIdx ref))
      (fun _ s' => NoteStep env ref (.capture edata recorded) s s') (fun _ _ => False) s := by
  unfold captureTurn
  rw [wp_ite]
  constructor
  · intro hrecord
    have hnote : (SpanOp.capture edata recorded).note env ref s =
        some (.report ⟨env, edata, s.memory (refIdx ref)⟩) := if_pos hrecord
    exact (wp_slotRecordError_leads env edata s).mono (fun _ _ h => .of_leads hnote h) fun _ _ h => h
  · intro hmark
    have hnote : (SpanOp.capture edata recorded).note env ref s =
        some (.mark (env.markDescription s.tick edata)) := if_neg hmark
    apply wp_markSpanError_cases
    intro s' h
    have hslot := h.slot
    refine .of_leads hnote ⟨hslot.err, hslot.events, by rw [hslot.span], ?_⟩
    rw [hslot.span]
    by_cases hnone : (s.slots (refIdx ref)).span.statusDescription = none <;>
      by_cases hoom : edata.sqlerrcode = errcodeOutOfMemory <;>
      simp [Env.markDescription, hnone, hoom]

theorem wp_recordCopy_leads (edata : ErrorData) (s : St) :
    Wp (recordCopy env i edata)
      (fun _ s' => (SpanNote.report ⟨env, edata, s.memory i⟩).Leads (s.slots i) (s'.slots i))
      (fun _ _ => False) s := by
  unfold recordCopy
  rw [wp_bind, wp_modifySlot_setSlot, wp_bind]
  refine (wp_slotRecordError_leads env edata _).mono (fun _ s₁ h₁ => ?_) fun _ _ h => h
  rw [slots_setSlot] at h₁
  rw [wp_modifySlot_setSlot, slots_setSlot]
  rcases h₁ with ⟨hrank, hsame⟩ | ⟨hrank, -, hrecorded⟩
  · exact .inl ⟨hrank, hsame.err, hsame.status, hsame.description, hsame.events⟩
  · exact .inr ⟨hrank, rfl, hrecorded.life, hrecorded.err, hrecorded.span, hrecorded.attrs,
      hrecorded.events, hrecorded.links⟩

theorem wp_captureError_step (hreach : env.Reaches ref s) :
    Wp (captureError env (refIdx ref)) (fun _ s' => NoteStep env ref .captureError s s')
      (fun _ s' => NoteStep env ref .captureError s s') s := by
  have hnote : (SpanOp.captureError).note env ref s =
      (env.capturable s.backend.errorStack).map fun edata =>
        .report ⟨env, edata, s.memory (refIdx ref)⟩ := if_pos hreach
  unfold captureError
  rw [wp_bind, wp_get]
  cases herrors : s.backend.errorStack with
  | nil =>
    have hnone : (SpanOp.captureError).note env ref s = none := by rw [hnote, herrors]; rfl
    exact .of_same hnone (Std.Refl.refl _)
  | cons edata rest =>
    rw [herrors, env.capturable_cons] at hnote
    dsimp only
    rw [wp_ite]
    constructor
    · intro hoom
      rw [if_pos hoom] at hnote
      exact (wp_slotRecordError_leads env _ s).mono (fun _ _ h => .of_leads hnote h) fun _ _ h => h.elim
    · intro hoom
      rw [if_neg hoom] at hnote
      rw [wp_ite]
      constructor
      · intro hraises
        rw [if_pos hraises] at hnote
        rw [wp_bind, wp_modifySlot_setSlot]
        refine NoteStep.of_same hnote ?_
        show SameErrors _ ((s.setSlot (refIdx ref) _).slots (refIdx ref))
        rw [slots_setSlot]
        exact ⟨rfl, rfl, rfl, rfl⟩
      · intro hcopies
        rw [if_neg hcopies] at hnote
        exact (wp_recordCopy_leads env edata s).mono (fun _ _ h => .of_leads hnote h)
          fun _ _ h => h.elim

theorem wp_setStatus_step (code : OtelSpanStatus) (description : Option CString)
    (hreach : env.Reaches ref s) :
    Wp (setStatus env (refIdx ref) code description)
      (fun _ s' => NoteStep env ref (.setStatus code description) s s')
      (fun _ s' => NoteStep env ref (.setStatus code description) s s') s := by
  have hnote : (SpanOp.setStatus code description).note env ref s =
      some (.status code (env.descriptionCopy (s.slots (refIdx ref)) s.tick description)) :=
    if_pos hreach
  -- the description is stored in a slot that has the new status
  have hstore {copy : Option CString} (s₁ : St)
      (hsame : SameErrors ((s.setSlot (refIdx ref)
        { s.slots (refIdx ref) with
          span := { (s.slots (refIdx ref)).span with status := code } }).slots (refIdx ref))
        (s₁.slots (refIdx ref)))
      (hcopy : copy = env.descriptionCopy (s.slots (refIdx ref)) s.tick description) :
      Wp (modifySlot (refIdx ref) fun slot =>
          { slot with span := { slot.span with statusDescription := copy } })
        (fun _ s' => NoteStep env ref (.setStatus code description) s s')
        (fun _ s' => NoteStep env ref (.setStatus code description) s s') s₁ := by
    rw [slots_setSlot] at hsame
    rw [wp_modifySlot_setSlot]
    refine NoteStep.of_leads hnote ?_
    rw [slots_setSlot]
    exact ⟨hsame.err, hsame.events, hsame.status, hcopy⟩
  unfold setStatus copyField
  rw [wp_bind, wp_modifySlot_setSlot, wp_bind]
  cases description with
  | none => exact hstore _ (Std.Refl.refl _) rfl
  | some text =>
    dsimp only
    rw [wp_bind]
    apply wp_slotStrdup_cases
    · intro hrefused
      rw [slots_setSlot] at hrefused
      refine hstore _ ?_ ?_
      · rw [slots_refused]
        exact Std.Refl.refl _
      · exact (if_pos hrefused).symm
    · intro hcopied
      rw [slots_setSlot] at hcopied
      refine hstore _ ?_ ?_
      · simp only [slots_setSlot]
        exact ⟨rfl, rfl, rfl, rfl⟩
      · exact (if_neg hcopied).symm

/-- What an operation notes has become of the span, and only what it notes. -/
theorem note_cases (hfinish : op.isFinish = false) :
    Wp (op.run env ref) (fun _ s' => NoteStep env ref op s s')
      (fun _ s' => NoteStep env ref op s s') s := by
  have hsame {x : M Unit} (hnote : op.note env ref s = none)
      (hx : Within (OnSlot (refIdx ref) SameErrors) x) :
      Wp x (fun _ s' => NoteStep env ref op s s') (fun _ s' => NoteStep env ref op s s') s :=
    (hx s).mono (fun _ _ h => .of_same hnote h.slot) fun _ _ h => .of_same hnote h.slot
  apply SpanOp.wp_run
  · intro hsetter hnot c _
    refine .of_same ?_ (Std.Refl.refl _)
    cases op with
    | capture | finish => cases hsetter
    | setStatus | recordError | captureError => exact if_neg hnot
    | _ => rfl
  · intro hreach
    cases op with
    | setStr key val => exact hsame rfl (sameErrors_setStrInternal env key val)
    | setVprintf key formatted => exact hsame rfl (sameErrors_setFormatted env key formatted)
    | setInt key val => exact hsame rfl (sameErrors_setValue env key _)
    | setDouble key val => exact hsame rfl (sameErrors_setValue env key _)
    | setBool key val => exact hsame rfl (sameErrors_setValue env key _)
    | setName name => exact hsame rfl (sameErrors_setName env name)
    | setStatus code description => exact wp_setStatus_step env code description (hreach rfl)
    | addEvent name ts attrs =>
      have hadds : Within (OnSlot (refIdx ref) MoreEvents)
          ((SpanOp.addEvent name ts attrs).body env (refIdx ref)) := by
        cases name with
        | none => exact within_pure _
        | some name => exact moreEvents_addEvent env name ts attrs
      exact (hadds s).mono (fun _ _ h => .of_more rfl rfl h.slot) fun _ _ h => .of_more rfl rfl h.slot
    | addLink target =>
      refine hsame rfl ?_
      show Within _ ((target.filter otelSpanContextIsValid).elim (pure ()) (addLink env (refIdx ref)))
      cases target.filter otelSpanContextIsValid with
      | none => exact within_pure _
      | some target => exact sameErrors_addLink env target
    | recordError edata =>
      have hnote : (SpanOp.recordError edata).note env ref s =
          edata.map fun edata => .report ⟨env, edata, s.memory (refIdx ref)⟩ := if_pos (hreach rfl)
      cases edata with
      | none => exact hsame hnote (within_pure _)
      | some edata =>
        exact (wp_slotRecordError_leads env edata s).mono (fun _ _ h => .of_leads hnote h)
          fun _ _ h => h.elim
    | captureError => exact wp_captureError_step env (hreach rfl)
    | capture edata recorded =>
      exact (wp_captureTurn_step env edata recorded s).mono (fun _ _ h => h) fun _ _ h => h.elim
    | finish => cases hfinish

/-! ## The record -/

/-- What is on record of a span. -/
structure SpanRecord where
  notes : List SpanNote := []
  /-- The events that calls of `otel_span_add_event` have put on the span. -/
  added : List OtelSpanEvent := []

/-- The reports that came to the span, in their order. -/
def SpanRecord.reports (record : SpanRecord) : List Report :=
  record.notes.filterMap fun note => match note with
    | .report r => some r
    | .mark _ | .status _ _ => none

/-- What a note makes of a description. -/
def SpanNote.describe (description : Option CString) : SpanNote → Option CString
  | .report _ => description
  | .mark d => if description = none then d else description
  | .status _ d => d

/-- The description that the user and the log hook's marks have left. -/
def SpanRecord.description (record : SpanRecord) : Option CString :=
  record.notes.foldl SpanNote.describe none

/-- The note is of an error: one that was captured, as nothing more severe had come before it, or one
that the log hook has marked the span with. -/
def SpanNote.IsError (before : List SpanNote) : SpanNote → Prop
  | .report r => elevelError ≤ r.level ∧ ∀ q, .report q ∈ before → q.level ≤ r.level
  | .mark _ => True
  | .status _ _ => False

/-- An error of `ERROR` level was captured, and the status has not been set since then. -/
def SpanRecord.CapturedError (record : SpanRecord) : Prop :=
  ∃ before note after, record.notes = before ++ note :: after ∧ note.IsError before ∧
    ∀ code d, .status code d ∉ after

/-- No report that came to the span is more severe, and none after it as severe. -/
abbrev SpanRecord.Shows (record : SpanRecord) (r : Report) : Prop :=
  Latest.IsLatest Report.level record.reports r

namespace SpanCall

/-- The record after an operation. -/
def record (call : SpanCall) (slot : OtelSlot) (record : SpanRecord) : SpanRecord where
  notes := record.notes ++ (call.op.note call.env call.ref (call.before slot)).toList
  added :=
    if call.op.isAddEvent then record.added ++ (call.next slot).events.drop slot.events.length
    else record.added

end SpanCall

/-- A run of operations on an open span, with the record beside it. -/
def errorRuns (limit : ℕ) (slot₀ : OtelSlot) : Machine (OtelSlot × SpanRecord) SpanCall :=
  (spanRuns limit slot₀).extend {} some (fun _ call => call.op.isFinish = false)
    fun p call => call.record p.1 p.2

instance (limit : ℕ) (slot₀ : OtelSlot) (p : OtelSlot × SpanRecord) (call : SpanCall) :
    Decidable ((errorRuns limit slot₀).enabled p call) :=
  decidable_of_iff (call.env.maxSpanBytes = limit ∧ call.op.isFinish = false)
    (by simp [errorRuns, Machine.extend, spanRuns])

/-- The slot is as the record says. -/
structure Noted (slot : OtelSlot) (record : SpanRecord) : Prop where
  err : slot.err = (Latest.latest Report.level record.reports).map Report.error
  status : record.CapturedError → slot.span.status = .error
  description : slot.span.statusDescription = record.description
  events : slot.events = record.added

section Records

variable {record : SpanRecord} {note : SpanNote} {added : List OtelSpanEvent}

theorem mem_reports {r : Report} : r ∈ record.reports ↔ .report r ∈ record.notes := by
  unfold SpanRecord.reports
  rw [List.mem_filterMap]
  constructor
  · rintro ⟨note, hmem, hnote⟩
    cases note with
    | report q =>
      obtain rfl := Option.some.inj hnote
      exact hmem
    | mark | status => cases hnote
  · exact fun hmem => ⟨_, hmem, rfl⟩

theorem reports_concat (r : Report) :
    (SpanRecord.mk (record.notes ++ [.report r]) added).reports = record.reports ++ [r] := by
  simp [SpanRecord.reports]

theorem description_concat : (SpanRecord.mk (record.notes ++ [note]) added).description =
    note.describe record.description := by
  simp [SpanRecord.description]

theorem SpanRecord.CapturedError.of_concat
    (h : (SpanRecord.mk (record.notes ++ [note]) added).CapturedError) :
    note.IsError record.notes ∨ (record.CapturedError ∧ ∀ code d, note ≠ .status code d) := by
  obtain ⟨before, error, after, hnotes, herror, hafter⟩ := h
  have hnotes : record.notes ++ [note] = before ++ error :: after := hnotes
  rcases List.eq_nil_or_concat' after with rfl | ⟨after, x, rfl⟩
  · obtain ⟨hinit, hlast⟩ := List.append_inj' hnotes rfl
    left
    rw [hinit, (List.cons.inj hlast).1]
    exact herror
  · have hsplit : record.notes ++ [note] = (before ++ error :: after) ++ [x] := by
      simpa using hnotes
    obtain ⟨hinit, hlast⟩ := List.append_inj' hsplit rfl
    have hnote : note = x := (List.cons.inj hlast).1
    right
    constructor
    · refine ⟨before, error, after, hinit, herror, fun code d hmem => ?_⟩
      exact hafter code d (List.mem_append_left _ hmem)
    · intro code d hstatus
      apply hafter code d
      simp [← hstatus, hnote]

end Records

/-! ## What the slot says -/

section Noted

variable {slot slot' : OtelSlot} {record : SpanRecord} {added : List OtelSpanEvent}

/-- The report is outranked just when one that came before is more severe. -/
theorem Noted.outranks_iff (h : Noted slot record) (edata : ErrorData) :
    slot.Outranks edata ↔ ∃ q ∈ Latest.latest Report.level record.reports, edata.elevel < q.level := by
  unfold OtelSlot.Outranks
  rw [h.err]
  cases Latest.latest Report.level record.reports with
  | none => simp
  | some r => simp [Report.level, Report.error]

theorem Noted.report {r : Report} (h : Noted slot record)
    (hleads : (SpanNote.report r).Leads slot slot') (hevents : slot'.events = added) :
    Noted slot' ⟨record.notes ++ [.report r], added⟩ := by
  have hrank := h.outranks_iff r.edata
  rcases hleads with ⟨houtranked, hsame⟩ | ⟨hnot, hbytes, hrecorded⟩
  · obtain ⟨q, hq, hlt⟩ := hrank.1 houtranked
    have hq : Latest.latest Report.level record.reports = some q := hq
    constructor
    case err =>
      have hlatest : Latest.latest Report.level (record.reports ++ [r]) = some q := by
        rw [Latest.latest_concat, hq]
        exact if_pos hlt
      rw [reports_concat, hlatest, ← hq, hsame.err]
      exact h.err
    case status =>
      intro hcaptured
      rw [hsame.status]
      rcases hcaptured.of_concat with ⟨-, hle⟩ | ⟨hold, -⟩
      · obtain ⟨before, after, hreports, -⟩ := Latest.isLatest_of_latest _ hq
        have hmem : q ∈ record.reports := by simp [hreports]
        have hle := hle q (mem_reports.1 hmem)
        exact absurd hlt (Nat.not_lt.2 hle)
      · exact h.status hold
    case description =>
      rw [hsame.description, description_concat]
      exact h.description
    case events => exact hevents
  · constructor
    case err =>
      have hlatest : Latest.latest Report.level (record.reports ++ [r]) = some r := by
        rw [Latest.latest_concat]
        cases hq : Latest.latest Report.level record.reports with
        | none => rfl
        | some q =>
          exact if_neg fun hlt => hnot (hrank.2 ⟨q, hq, hlt⟩)
      rw [reports_concat, hlatest, hrecorded.err, hbytes]
      rfl
    case status =>
      intro hcaptured
      rw [hrecorded.span]
      dsimp only
      split_ifs with hlevel
      · rfl
      · rcases hcaptured.of_concat with ⟨hlevel', -⟩ | ⟨hold, -⟩
        · exact absurd hlevel' hlevel
        · exact h.status hold
    case description =>
      rw [hrecorded.span, description_concat]
      exact h.description
    case events => exact hevents

/-- What an operation does to the slot, it does to the record. -/
theorem Noted.leads {note : SpanNote} (h : Noted slot record) (hleads : note.Leads slot slot')
    (hevents : slot'.events = added) : Noted slot' ⟨record.notes ++ [note], added⟩ := by
  cases note with
  | report r => exact h.report hleads hevents
  | mark d =>
    obtain ⟨herr, -, hstatus, hdescription⟩ := hleads
    constructor
    case err =>
      have hreports : (SpanRecord.mk (record.notes ++ [.mark d]) added).reports = record.reports := by
        simp [SpanRecord.reports]
      rw [hreports, herr]
      exact h.err
    case status => exact fun _ => hstatus
    case description =>
      rw [hdescription, description_concat, h.description]
      rfl
    case events => exact hevents
  | status code d =>
    obtain ⟨herr, -, hstatus, hdescription⟩ := hleads
    constructor
    case err =>
      have hreports : (SpanRecord.mk (record.notes ++ [.status code d]) added).reports =
          record.reports := by
        simp [SpanRecord.reports]
      rw [hreports, herr]
      exact h.err
    case status =>
      intro hcaptured
      rcases hcaptured.of_concat with herror | ⟨-, hne⟩
      · exact herror.elim
      · exact absurd rfl (hne code d)
    case description =>
      rw [hdescription, description_concat]
      rfl
    case events => exact hevents

theorem Noted.more (h : Noted slot record) (hmore : MoreEvents slot slot')
    (hevents : slot'.events = added) : Noted slot' ⟨record.notes, added⟩ where
  err := by
    rw [hmore.err]
    exact h.err
  status hcaptured := by
    rw [hmore.status]
    exact h.status hcaptured
  description := by
    rw [hmore.description]
    exact h.description
  events := hevents

theorem Noted.next (call : SpanCall) (h : Noted slot record) (hfinish : call.op.isFinish = false) :
    Noted (call.next slot) (call.record slot record) := by
  have hstep : NoteStep call.env call.ref call.op (call.before slot) (call.after slot) :=
    (note_cases call.env hfinish).endState
  obtain ⟨hnote, hother, hevents⟩ := hstep
  rw [SpanCall.slots_before] at hnote hother hevents
  -- the events that are on the span are those on record
  have hadded (hkept : slot.events <+: (call.next slot).events) :
      (call.next slot).events = (call.record slot record).added := by
    unfold SpanCall.record
    dsimp only
    split_ifs with hadds
    · rw [← h.events]
      exact List.prefix_append_drop hkept
    · rw [← h.events]
      exact hevents (by simpa using hadds)
  unfold SpanCall.record at hadded ⊢
  cases hsome : call.op.note call.env call.ref (call.before slot) with
  | none =>
    rw [hsome] at hadded
    have hmore := hother hsome
    rw [Option.toList_none, List.append_nil]
    exact h.more hmore (hadded hmore.events)
  | some note =>
    have hleads := hnote note hsome
    refine h.leads hleads (hadded ?_)
    rw [show (call.next slot).events = slot.events from hleads.events]

end Noted

end PostgresOtel
