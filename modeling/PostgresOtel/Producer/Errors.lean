import PostgresOtel.Producer.Parents

/-!
# Errors on spans

Recording an error report in a slot, the `emit_log_hook` that does so for reports that reach the
server log, and the "exception" event a recorded error becomes when its span ends.
-/

set_option autoImplicit false

namespace PostgresOtel

variable (env : Env)

/-- A field of a report, copied into the slot if it is there. -/
def copyField (idx : ℕ) (field : Option CString) (maxlen : Option ℕ) : M (Option CString) :=
  match field with
  | none => return none
  | some str => do
    let copy ← slotStrdup env idx str maxlen
    return copy.1

def countCaptureFailed : M Unit :=
  modifyCounters fun c => { c with errorCaptureFailed := c.errorCaptureFailed + 1 }

/-- The part of `slot_record_error` that copies a report's texts. -/
def copyErrorTexts (idx : ℕ) (edata : ErrorData) : M Unit := do
  let message ← copyField env idx edata.message (some env.attrValueMax)
  let detail ← copyField env idx edata.detail (some env.attrValueMax)
  let hint ← copyField env idx edata.hint (some env.attrValueMax)
  let filename ← copyField env idx edata.filename none
  let funcname ← copyField env idx edata.funcname none
  modifySlot idx fun slot =>
    { slot with
      err := slot.err.map fun err =>
        { err with
          message := message, detail := detail, hint := hint, filename := filename,
          funcname := funcname } }
  runIf ((edata.message.isSome && message.isNone) || (edata.detail.isSome && detail.isNone) ||
      (edata.hint.isSome && hint.isNone)) countCaptureFailed

/-- After an out-of-memory error the texts are not copied. -/
def recordErrorTexts (idx : ℕ) (edata : ErrorData) : M Unit :=
  if edata.sqlerrcode = errcodeOutOfMemory then countCaptureFailed
  else copyErrorTexts env idx edata

def setSpanError (idx : ℕ) : M Unit :=
  modifySlot idx fun slot => { slot with span := { slot.span with status := .error } }

/-- `slot_record_error`: keeps the most severe error, the latest on a tie. -/
def slotRecordError (idx : ℕ) (edata : ErrorData) : M Unit := do
  let s ← get
  let outranked := match (s.slots idx).err with
    | some err => decide (edata.elevel < err.elevel)
    | none => false
  if outranked then
    return ()
  else
    let time ← getCurrentTimestamp env
    modifySlot idx fun slot =>
      { slot with
        err := some
          { elevel := edata.elevel, lineno := edata.lineno,
            sqlstate := unpackSqlState edata.sqlerrcode, time := time } }
    recordErrorTexts env idx edata
    runIf (elevelError ≤ edata.elevel) (setSpanError idx)

/-- `error_description`: "SQLSTATE / message" in at most 255 bytes. -/
def errorDescription (idx : ℕ) (sqlstate : CString) (message : Option CString) :
    M (Option CString) := do
  let ok ← allocNoOom env
  if ok then
    modifySlot idx (OtelSlot.request 256 0)
    match message with
    | some message => return some ((sqlstate ++ cstr " / " ++ message).take 255)
    | none => return some (sqlstate.take 255)
  else
    return none

def describeError (idx : ℕ) (sqlstate : CString) (message : Option CString) : M Unit := do
  let description ← errorDescription env idx sqlstate message
  modifySlot idx fun slot =>
    { slot with span := { slot.span with statusDescription := description } }

/-- What an `ERROR` leaves on a span of the stack that is not the innermost to be ended by it. -/
def markSpanError (idx : ℕ) (edata : ErrorData) : M Unit := do
  setSpanError idx
  let s ← get
  runIf ((s.slots idx).span.statusDescription = none ∧ edata.sqlerrcode ≠ errcodeOutOfMemory)
    (describeError env idx (unpackSqlState edata.sqlerrcode) edata.message)

/-- The loop of `otel_emit_log_hook` over the active stack, from its top. -/
def recordOnStack (edata : ErrorData) : List StackEntry → Bool → M Unit
  | [], _ => pure ()
  | e :: rest, recorded =>
    match e.entry with
    | .nrec _ => recordOnStack edata rest recorded
    | .slot idx => do
      let s ← get
      if (s.slots idx).dispatching then
        recordOnStack edata rest recorded
      else if edata.elevel < elevelError then
        slotRecordError env idx edata
      else if (s.slots idx).session then
        recordOnStack edata rest recorded
      else if !recorded then
        slotRecordError env idx edata
        recordOnStack edata rest true
      else
        markSpanError env idx edata
        recordOnStack edata rest recorded

/-- `otel_emit_log_hook`. -/
def otelEmitLogHook (edata : ErrorData) : M Unit := do
  let s ← get
  if elevelWarning ≤ edata.elevel ∧ env.critSectionCount = 0 then
    recordOnStack env edata s.spanStack false
  else
    pure ()

/-- `ereport(WARNING)`: balanced on the error stack, and seen by the log hook if it is output. -/
def reportWarning (edata : ErrorData) : M Unit :=
  if env.warningsLogged then otelEmitLogHook env edata else pure ()

/-- The attributes of the "exception" event. -/
def exceptionAttrs (err : OtelSlotError) : List OtelAttribute :=
  let str (key : String) (v : Option CString) : List OtelAttribute :=
    match v with
    | some v => [⟨cstr key, .string (some v)⟩]
    | none => []
  str "exception.type" (some err.sqlstate) ++ str "exception.message" err.message ++
    [⟨cstr "pg.error.elevel", .int err.elevel⟩] ++ str "pg.error.detail" err.detail ++
    str "pg.error.hint" err.hint ++ str "code.function.name" err.funcname ++
    str "code.file.path" err.filename ++ [⟨cstr "code.line.number", .int err.lineno⟩]

/-- The first half of `lower_error_event`. -/
def addExceptionEvent (idx : ℕ) (err : OtelSlotError) : M Unit := do
  let s ← get
  let grown ← slotGrow env idx .events ((s.slots idx).events.length + 1)
  if grown then
    let ok ← allocNoOom env
    runIf (ok = true)
      (modifySlot idx
        (OtelSlot.request (SlotArray.attrs.elemSize * (exceptionAttrs err).length) 0))
    modifySlot idx fun slot =>
      { slot with
        events := slot.events ++
          [{ name := cstr "exception", time := err.time,
             attrs := if ok then exceptionAttrs err else [] }] }
  else
    modifySlot idx fun slot =>
      { slot with span := { slot.span with droppedEvents := slot.span.droppedEvents + 1 } }

/-- `lower_error_event`. -/
def lowerErrorEvent (idx : ℕ) (err : OtelSlotError) : M Unit := do
  addExceptionEvent env idx err
  let s ← get
  runIf ((s.slots idx).span.status = .error ∧ (s.slots idx).span.statusDescription = none)
    (describeError env idx err.sqlstate err.message)

end PostgresOtel
