import PostgresOtel.Producer.Dispatch

/-!
# The producer API

The entries of `otel_producer_api_table`: starting and ending spans, activations, and the setters of
an open span.
-/

set_option autoImplicit false

namespace PostgresOtel

variable (env : Env)

/-! ## Starting a span -/

/-- The generation of an entry that `start_nrec` takes: one off the free list, or the first one
never used. -/
def takeNrec : M (Option ℕ) := do
  let s ← get
  if 0 ≤ s.nrecFreeHead then
    let idx := s.nrecFreeHead.toNat
    modify fun s => { s with nrecFreeHead := (s.nrecs idx).nextFree }
    return some idx
  else if s.nrecsUsed < otelMaxStackDepth then
    modify fun s =>
      { s with
        nrecsUsed := s.nrecsUsed + 1
        nrecs := Function.update s.nrecs s.nrecsUsed
          { s.nrecs s.nrecsUsed with ownerReleasedGen := 0 } }
    return some s.nrecsUsed
  else
    return none

/-- The level at which a transaction end drops a non-recording span; `0` for never. -/
def nrecNestLevel (args : OtelSpanStartArgs) : ℕ :=
  if args.owner = .session ∨ (args.owner = .null ∧ env.currentResourceOwner = none) then 0
  else env.currentTransactionNestLevel

/-- `start_nrec`. -/
def startNrec (args : OtelSpanStartArgs) (traceId : OtelTraceId) (randomFlag : TraceFlags) :
    M OtelSpanRef := do
  let s ← get
  if !args.detached ∧ otelMaxStackDepth ≤ s.spanStack.length then
    modifyCounters fun c => { c with startStackFull := c.startStackFull + 1 }
    return otelSpanNone
  else
    let taken ← takeNrec
    match taken with
    | none =>
      modifyCounters fun c => { c with startStackFull := c.startStackFull + 1 }
      return otelSpanNone
    | some idx =>
      let ⟨gen, _⟩ ← nextGen
      modifyNrec idx fun n =>
        { n with
          gen := gen
          nestLevel := nrecNestLevel env args
          detached := args.detached
          haveSpanId := false
          ctx := { traceId := traceId, traceFlags := randomFlag } }
      runIf (args.detached = false) (stackPush (.nrec idx) false 0)
      modifyCounters fun c => { c with spansUnsampled := c.spansUnsampled + 1 }
      return makeRef gen idx false

/-- What the first half of `api_span_start` decides about a span: record it, or not. -/
structure StartDecision where
  traceId : OtelTraceId
  parentFlags : TraceFlags
  decision : OtelSamplerDecision

/-- The trace id and the sampling decision, from the parent. -/
def decideStart (args : OtelSpanStartArgs) (p : ResolvedParent) : M StartDecision := do
  let s ← get
  match p with
  | .slot idx =>
    let parent := (s.slots idx).span
    return ⟨parent.traceId, parent.traceFlags,
      if parent.traceFlags &&& otelTraceFlagSampled ≠ 0 then .recordAndSample else .recordOnly⟩
  | .nrec idx =>
    let ctx := (s.nrecs idx).ctx
    return ⟨ctx.traceId, ctx.traceFlags, .drop⟩
  | .remote ctx =>
    return ⟨ctx.traceId, ctx.traceFlags,
      otelRunSampler env.samplerMode env.samplerArg ctx.traceId false (otelSpanContextSampled ctx)⟩
  | .none =>
    let traceId ← newTraceId env
    let decision := otelRunSampler env.samplerMode env.samplerArg traceId true false
    return ⟨traceId, otelTraceFlagRandom, if args.forceSample then .recordAndSample else decision⟩

/-- The owner of a recording span; none for a session span. -/
def startOwner (args : OtelSpanStartArgs) : Option ResourceOwner :=
  match args.owner with
  | .session => none
  | .owner o => some o
  | .null => env.currentResourceOwner

/-- The instrumentation scope of a tracer, registered at its first use. -/
def tracerScope (tracer : Option OtelTracer) : Option OtelInstrumentationScope :=
  match tracer with
  | none => none
  | some t =>
    match t.scope with
    | some scope => some scope
    | none =>
      if t.name.isSome then some ⟨t.name, t.version, t.schemaUrl⟩ else none

def needsRegister (tracer : Option OtelTracer) : Bool :=
  match tracer with
  | none => false
  | some t => t.scope.isNone && t.name.isSome

/-- The two calls of `api_span_start` that may raise before a slot is taken. -/
def prepareStart (args : OtelSpanStartArgs) (owner : Option ResourceOwner) : M Unit := do
  runIf (needsRegister args.tracer ∧ env.tracerRegisterRaises)
    (raiseError { elevel := elevelError, sqlerrcode := errcodeOutOfMemory })
  runIf (owner.isSome ∧ env.ownerEnlargeRaises)
    (raiseError { elevel := elevelError, sqlerrcode := errcodeOutOfMemory })

def inheritFrom (idx : ℕ) (parentSpanId : OtelSpanId) (tracestate : Option CString) : M Unit := do
  modifySlot idx fun slot => { slot with span := { slot.span with parentSpanId := parentSpanId } }
  let copy ← copyField env idx tracestate none
  modifySlot idx fun slot => { slot with span := { slot.span with tracestate := copy } }

/-- The parent fields of a new span. -/
def fillParent (idx : ℕ) (p : ResolvedParent) : M Unit := do
  let s ← get
  match p with
  | .slot pidx =>
    inheritFrom env idx (s.slots pidx).span.spanId (s.slots pidx).span.tracestate
  | .remote ctx => inheritFrom env idx ctx.spanId ctx.tracestate
  | .nrec _ => pure ()
  | .none => pure ()

/-- The span fields of a newly taken slot. -/
def fillSpan (idx : ℕ) (args : OtelSpanStartArgs) (name : CString) (p : ResolvedParent)
    (d : StartDecision) : M Unit := do
  modifySlot idx fun slot =>
    { slot with
      attrsCap := otelSlotInlineAttrs
      span :=
        { slot.span with
          kind := args.kind
          scope := (tracerScope args.tracer)
          traceId := d.traceId } }
  let spanId ← newSpanId env
  modifySlot idx fun slot => { slot with span := { slot.span with spanId := spanId } }
  fillParent env idx p
  modifySlot idx fun slot =>
    { slot with
      span :=
        { slot.span with
          traceFlags := (d.parentFlags &&& ~~~otelTraceFlagSampled) |||
            (if d.decision = .recordAndSample then otelTraceFlagSampled else 0)
          samplerDecision := d.decision } }
  let copy ← slotStrdup env idx name (some env.attrValueMax)
  let time ← timeOrNow env args.startTime
  modifySlot idx fun slot =>
    { slot with
      span := { slot.span with name := copy.1.getD (cstr "(out of memory)"), startTime := time } }

/-- The span's entry in its resource owner, or in the count of session spans. -/
def recordOwner (owner : Option ResourceOwner) (ref : OwnedRef) : M Unit :=
  match owner with
  | some owner => resourceOwnerRemember owner ref
  | none =>
    modify fun s =>
      { s with sessionSpansOpen := s.sessionSpansOpen + 1, exitCallbackRegistered := true }

/-- The last part of `api_span_start`, once a slot has been taken. -/
def openTakenSlot (idx : ℕ) (args : OtelSpanStartArgs) (name : CString) (p : ResolvedParent)
    (d : StartDecision) (owner : Option ResourceOwner) : M OtelSpanRef := do
  let ⟨gen, hgen⟩ ← nextGen
  let s ← get
  modifySlot idx fun slot =>
    { slot with
      gen := gen
      detached := args.detached
      session := owner.isNone
      owner := owner
      serial := s.counters.spansStarted }
  fillSpan env idx args name p d
  let ref : OwnedRef := ⟨makeRef gen idx true, refGen_makeRef_pos hgen idx true⟩
  runIf (args.detached = false) (stackPush (.slot idx) false 0)
  recordOwner owner ref
  modifyCounters fun c => { c with spansStarted := c.spansStarted + 1 }
  return ref.1

/-- The second half of `api_span_start`: a recording span. -/
def startRecording (args : OtelSpanStartArgs) (name : CString) (p : ResolvedParent)
    (d : StartDecision) : M OtelSpanRef := do
  let owner := startOwner env args
  let s ← get
  if owner.isNone ∧ (env.maxSessionSpans : ℤ) ≤ s.sessionSpansOpen then
    modifyCounters fun c => { c with startNoSessionSlot := c.startNoSessionSlot + 1 }
    return otelSpanNone
  else if !args.detached ∧ otelMaxStackDepth ≤ s.spanStack.length then
    modifyCounters fun c => { c with startStackFull := c.startStackFull + 1 }
    return otelSpanNone
  else
    let ready ← ensurePool env
    if !ready then
      modifyCounters fun c => { c with startNoSlot := c.startNoSlot + 1 }
      return otelSpanNone
    else
      prepareStart env args owner
      let taken ← takeSlot env
      match taken with
      | none =>
        modifyCounters fun c => { c with startNoSlot := c.startNoSlot + 1 }
        return otelSpanNone
      | some idx => openTakenSlot env idx args name p d owner

def countBadArgs : M OtelSpanRef := do
  modifyCounters fun c => { c with startBadArgs := c.startBadArgs + 1 }
  return otelSpanNone

/-- `api_span_start`. -/
def apiSpanStart (args : Option OtelSpanStartArgs) : M OtelSpanRef := do
  let refused ← callRefused env false
  if refused then
    return otelSpanNone
  else
    match args with
    | none => countBadArgs
    | some args =>
      match (if args.structSizeOk then args.name else none) with
      | none => countBadArgs
      | some name =>
        seedPrngIfNeeded env
        let parent ← resolveParent env args
        match parent with
        | none => countBadArgs
        | some p =>
          let d ← decideStart env args p
          if d.decision = .drop then
            startNrec env args d.traceId (d.parentFlags &&& otelTraceFlagRandom)
          else
            startRecording env args name p d

/-! ## Ending and discarding -/

/-- What ends a span, or deactivates one, below the top of the stack. -/
def endAbove (pos : ℕ) (what reason : String) : M Unit := do
  nonlifoWarning env what pos
  stackUnwindAbove env pos (cstr reason)

/-- Take the entry at `pos` off the active stack, ending what is above it. -/
def popEntryAt (pos : ℕ) (what reason : String) : M Unit := do
  runIf (pos ≠ 0) (endAbove env pos what reason)
  stackPop

/-- Take the entry of a span that ends off the active stack, if it is there. -/
def popEnded (entry : StackRef) (what : String) : M Unit := do
  let pos ← stackFind entry
  match pos with
  | some pos => popEntryAt env pos what "parent span ended first"
  | none => pure ()

/-- `api_span_end`. -/
def apiSpanEnd (s : OtelSpanRef) (endTime : TimestampTz) : M Unit := do
  let refused ← callRefused env false
  if refused ∨ s.v = 0 then
    return ()
  else if s.v < 0 then
    let n ← nrecForRef s
    match n with
    | none => return ()
    | some idx =>
      popEnded env (.nrec idx) "unsampled span ended with spans still open above it"
      freeNrec idx false
  else
    let slot ← slotForRef s
    match slot with
    | none => return ()
    | some idx =>
      popEnded env (.slot idx) "span ended with spans still open above it"
      endSlot env idx endTime false none

/-- `api_span_discard`. -/
def apiSpanDiscard (s : OtelSpanRef) : M Unit := do
  let refused ← callRefused env false
  if refused ∨ s.v = 0 then
    return ()
  else if s.v < 0 then
    let n ← nrecForRef s
    match n with
    | none => return ()
    | some idx =>
      stackRemove (.nrec idx)
      freeNrec idx false
      modifyCounters fun c => { c with spansDiscarded := c.spansDiscarded + 1 }
  else
    let slot ← slotForRef s
    match slot with
    | none => return ()
    | some idx =>
      stackRemove (.slot idx)
      releaseSlot env idx false .discarded
      modifyCounters fun c => { c with spansDiscarded := c.spansDiscarded + 1 }

/-! ## Activations -/

/-- What `api_span_activate` needs of the span a handle names. -/
structure ActivationTarget where
  entry : StackRef
  detached : Bool
  token : OtelActivation

def activationTarget (s : OtelSpanRef) : M (Option ActivationTarget) :=
  if 0 < s.v then do
    let slot ← slotForRef s
    match slot with
    | none => return none
    | some idx =>
      let st ← get
      return some ⟨.slot idx, (st.slots idx).detached, ⟨(makeRef (st.slots idx).gen idx true).v⟩⟩
  else do
    let n ← nrecForRef s
    match n with
    | none => return none
    | some idx =>
      let st ← get
      return some ⟨.nrec idx, (st.nrecs idx).detached, ⟨(makeRef (st.nrecs idx).gen idx false).v⟩⟩

/-- `api_span_activate`. -/
def apiSpanActivate (s : OtelSpanRef) : M OtelActivation := do
  let refused ← callRefused env false
  if refused ∨ s.v = 0 then
    return otelActivationNone
  else
    let target ← activationTarget s
    match target with
    | none => return otelActivationNone
    | some target =>
      if !target.detached then
        modifyCounters fun c => { c with activateNotDetached := c.activateNotDetached + 1 }
        return otelActivationNone
      else
        let pos ← stackFind target.entry
        let st ← get
        if pos.isSome then
          modifyCounters fun c => { c with activateAlreadyActive := c.activateAlreadyActive + 1 }
          return otelActivationNone
        else if otelMaxStackDepth ≤ st.spanStack.length then
          modifyCounters fun c => { c with startStackFull := c.startStackFull + 1 }
          return otelActivationNone
        else
          stackPush target.entry true env.currentTransactionNestLevel
          return target.token

/-- The stack entry of a handle or token that is not null. -/
def entryForRef (s : OtelSpanRef) : M (Option StackRef) :=
  if 0 < s.v then do
    let slot ← slotForRef s
    return slot.map .slot
  else do
    let n ← nrecForRef s
    return n.map .nrec

/-- `api_span_deactivate`. -/
def apiSpanDeactivate (tok : OtelActivation) : M Unit := do
  let refused ← callRefused env false
  if refused ∨ tok.v = 0 then
    return ()
  else
    let entry ← entryForRef ⟨tok.v⟩
    match entry with
    | none => return ()
    | some entry =>
      let pos ← stackFind entry
      match pos with
      | none =>
        modifyCounters fun c => { c with deactivateNotActive := c.deactivateNotActive + 1 }
      | some pos =>
        popEntryAt env pos "span deactivated with spans still open above it"
          "parent activation deactivated first"

/-! ## Setters -/

/-- `setter_slot`. -/
def setterSlot (s : OtelSpanRef) : M (Option ℕ) := do
  let refused ← callRefused env false
  if refused ∨ s.v ≤ 0 then
    return none
  else
    slotForRef s

def dropAttr (idx : ℕ) : M Unit := do
  modifySlot idx fun slot =>
    { slot with span := { slot.span with droppedAttrs := slot.span.droppedAttrs + 1 } }
  modifyCounters fun c => { c with attrDropped := c.attrDropped + 1 }

/-- The copy made once an array has room for it. -/
def copyIfGrown (grown : Bool) (idx : ℕ) (str : CString) (maxlen : Option ℕ) :
    M (Option CString) :=
  if grown then copyField env idx (some str) maxlen else pure none

/-- `slot_attr`: the position of the attribute `key`, added if it is new. -/
def slotAttr (idx : ℕ) (key : CString) : M (Option ℕ) := do
  let s ← get
  match (s.slots idx).attrs.findIdx? (fun a => a.key = key) with
  | some i => return some i
  | none =>
    let count := (s.slots idx).attrs.length
    let grown ← slotGrow env idx .attrs (count + 1)
    let copy ← copyIfGrown env grown idx key none
    match copy with
    | none =>
      dropAttr idx
      return none
    | some k =>
      modifySlot idx fun slot => { slot with attrs := slot.attrs ++ [⟨k, .int 0⟩] }
      return some count

def countTruncated : M Unit :=
  modifyCounters fun c => { c with attrTruncated := c.attrTruncated + 1 }

def setAttrValue (idx i : ℕ) (v : OtelAttrValue) : M Unit :=
  modifySlot idx fun slot =>
    { slot with attrs := slot.attrs.modify i fun a => { a with v := v } }

/-- `set_str_internal`.  When the value cannot be copied, the last attribute is removed. -/
def setStrInternal (idx : ℕ) (key : CString) (val : Option CString) : M Unit := do
  match val with
  | none => return ()
  | some val =>
    let a ← slotAttr env idx key
    match a with
    | none => return ()
    | some i =>
      let copy ← slotStrdup env idx val (some env.attrValueMax)
      match copy.1 with
      | none =>
        modifySlot idx fun slot => { slot with attrs := slot.attrs.dropLast }
        dropAttr idx
      | some str =>
        runIf (copy.2 = true) countTruncated
        setAttrValue idx i (.string (some str))

def apiSpanSetStr (s : OtelSpanRef) (key : CString) (val : Option CString) : M Unit := do
  let slot ← setterSlot env s
  match slot with
  | none => return ()
  | some idx => setStrInternal env idx key val

/-- The common body of `api_span_set_int`, `_double` and `_bool`. -/
def setScalar (s : OtelSpanRef) (key : CString) (v : OtelAttrValue) : M Unit := do
  let slot ← setterSlot env s
  match slot with
  | none => return ()
  | some idx =>
    let a ← slotAttr env idx key
    match a with
    | none => return ()
    | some i => setAttrValue idx i v

def apiSpanSetInt (s : OtelSpanRef) (key : CString) (val : ℤ) : M Unit :=
  setScalar env s key (.int val)

def apiSpanSetDouble (s : OtelSpanRef) (key : CString) (val : BitVec 64) : M Unit :=
  setScalar env s key (.double val)

def apiSpanSetBool (s : OtelSpanRef) (key : CString) (val : Bool) : M Unit :=
  setScalar env s key (.bool val)

/-- The size of `api_span_set_vprintf`'s stack buffer. -/
def vprintfBufSize : ℕ := 1024

/-- Whether `api_span_set_vprintf` gets a buffer for a string longer than its own. -/
def allocBigBuffer (len : ℕ) : M Bool :=
  if vprintfBufSize ≤ len ∧ vprintfBufSize ≤ env.attrValueMax then allocNoOom env else pure false

/-- `api_span_set_vprintf`, given the whole formatted string. -/
def apiSpanSetVprintf (s : OtelSpanRef) (key formatted : CString) : M Unit := do
  let slot ← setterSlot env s
  match slot with
  | none => return ()
  | some idx =>
    let len := formatted.length
    let big ← allocBigBuffer env len
    if big then
      modifySlot idx (OtelSlot.request (len + 1) 0)
      setStrInternal env idx key (some formatted)
      modifySlot idx (OtelSlot.release (len + 1))
    else
      runIf (vprintfBufSize ≤ len) countTruncated
      setStrInternal env idx key (some (formatted.take (vprintfBufSize - 1)))

def apiSpanSetName (s : OtelSpanRef) (name : Option CString) : M Unit := do
  let slot ← setterSlot env s
  match slot with
  | none => return ()
  | some idx =>
    let copy ← copyField env idx name (some env.attrValueMax)
    match copy with
    | none => return ()
    | some copy => modifySlot idx fun slot => { slot with span := { slot.span with name := copy } }

def apiSpanSetStatus (s : OtelSpanRef) (code : OtelSpanStatus) (description : Option CString) :
    M Unit := do
  let slot ← setterSlot env s
  match slot with
  | none => return ()
  | some idx =>
    modifySlot idx fun slot => { slot with span := { slot.span with status := code } }
    let copy ← copyField env idx description (some env.attrValueMax)
    modifySlot idx fun slot => { slot with span := { slot.span with statusDescription := copy } }

/-- An attribute array as a caller passes it: a key, and a value that may be the null string. -/
abbrev AttrArg := OtelAttribute

/-- The copy of an attribute's value; none if it cannot be made. -/
def copyEventValue (idx : ℕ) (v : OtelAttrValue) : M (Option OtelAttrValue) :=
  match v with
  | .string (some str) => do
    let copy ← slotStrdup env idx str (some env.attrValueMax)
    return copy.1.map fun str => .string (some str)
  | v => return some v

/-- The loop of `api_span_add_event` that copies the attributes; none if a copy fails. -/
def copyEventAttrs (idx : ℕ) : List AttrArg → M (Option (List OtelAttribute))
  | [] => return some []
  | a :: rest => do
    let key ← copyField env idx (some a.key) none
    let v ← copyEventValue env idx a.v
    match key, v with
    | some key, some v =>
      let copied ← copyEventAttrs idx rest
      return copied.map (⟨key, v⟩ :: ·)
    | _, _ => return none

def dropEvent (idx : ℕ) : M Unit := do
  modifySlot idx fun slot =>
    { slot with span := { slot.span with droppedEvents := slot.span.droppedEvents + 1 } }
  modifyCounters fun c => { c with eventDropped := c.eventDropped + 1 }

/-- The array copy of `api_span_add_event`, charged to the slot before its strings are copied. -/
def copyEventArray (idx : ℕ) (attrs : List AttrArg) : M (Option (List OtelAttribute)) := do
  if attrs = [] then
    return some []
  else
    let s ← get
    let sz := SlotArray.attrs.elemSize * attrs.length
    if env.maxSpanBytes < (s.slots idx).bytes + sz then
      return none
    else
      let ok ← allocNoOom env
      if ok then
        modifySlot idx (OtelSlot.request sz sz)
        copyEventAttrs env idx attrs
      else
        return none

/-- `api_span_add_event`. -/
def apiSpanAddEvent (s : OtelSpanRef) (name : Option CString) (ts : TimestampTz)
    (attrs : List AttrArg) : M Unit := do
  let slot ← setterSlot env s
  match slot, name with
  | some idx, some name =>
    let st ← get
    let grown ← slotGrow env idx .events ((st.slots idx).events.length + 1)
    let ename ← copyIfGrown env grown idx name (some env.attrValueMax)
    match ename with
    | none => dropEvent idx
    | some ename =>
      let copied ← copyEventArray env idx attrs
      match copied with
      | none => dropEvent idx
      | some copied =>
        let time ← timeOrNow env ts
        modifySlot idx fun slot => { slot with events := slot.events ++ [⟨ename, time, copied⟩] }
  | _, _ => return ()

/-- `api_span_add_link`. -/
def apiSpanAddLink (s : OtelSpanRef) (target : Option OtelSpanContext) : M Unit := do
  let slot ← setterSlot env s
  match slot, target.filter otelSpanContextIsValid with
  | some idx, some target =>
    let st ← get
    let grown ← slotGrow env idx .links ((st.slots idx).links.length + 1)
    if grown then
      modifySlot idx fun slot => { slot with links := slot.links ++ [{ target with tracestate := none }] }
    else
      modifySlot idx fun slot =>
        { slot with span := { slot.span with droppedLinks := slot.span.droppedLinks + 1 } }
      modifyCounters fun c => { c with linkDropped := c.linkDropped + 1 }
  | _, _ => return ()

def apiSpanRecordError (s : OtelSpanRef) (edata : Option ErrorData) : M Unit := do
  let slot ← setterSlot env s
  match slot, edata with
  | some idx, some edata => slotRecordError env idx edata
  | _, _ => return ()

/-- A report is recorded from a copy, which is then freed. -/
def recordCopy (idx : ℕ) (edata : ErrorData) : M Unit := do
  modifySlot idx (OtelSlot.request (env.errorDataSize edata) 0)
  slotRecordError env idx edata
  modifySlot idx (OtelSlot.release (env.errorDataSize edata))

/-- `api_span_capture_error`: `geterrcode` and `CopyErrorData` read the innermost error and raise if
there is none; the copy, made in the slot's memory context, may also fail. -/
def apiSpanCaptureError (s : OtelSpanRef) : M Unit := do
  let slot ← setterSlot env s
  match slot with
  | none => return ()
  | some idx =>
    let st ← get
    match st.backend.errorStack with
    | [] => raiseError { elevel := elevelError }
    | edata :: _ =>
      if edata.sqlerrcode = errcodeOutOfMemory then
        slotRecordError env idx { elevel := elevelError, sqlerrcode := errcodeOutOfMemory }
      else if env.copyErrorDataRaises then
        modifySlot idx (OtelSlot.request (env.errorDataSize edata) 0)
        raiseError { elevel := elevelError, sqlerrcode := errcodeOutOfMemory }
      else
        recordCopy env idx edata

end PostgresOtel
