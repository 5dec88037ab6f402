import PostgresOtel.Producer.Errors

/-!
# Ending and dispatching

Handing a finished span to the emit hooks, the end of a span by its own call, by an unwind or by its
resource owner, and what transaction callbacks drop.
-/

set_option autoImplicit false

namespace PostgresOtel

variable (env : Env)

/-! ## The emit hook chain -/

def runHookAct : HookAct → M Unit
  | .report edata => otelEmitLogHook env edata
  | .call => do
    let _ ← callRefused env false
    pure ()
  | .contextOf s => do
    let _ ← apiSpanContextOf env s
    pure ()
  | .catchError =>
    modifyBackend fun _ =>
      { errorStack := [], interruptHoldoffCount := 0, queryCancelHoldoffCount := 0,
        currentMemoryContext := .errorContext }

def runHookActs : List HookAct → M Unit
  | [] => pure ()
  | act :: rest => do
    runHookAct env act
    runHookActs rest

def runEmitHook (run : HookRun) : M Unit := do
  runHookActs env run.acts
  match run.finish with
  | .returns => pure ()
  | .raisesError edata => raiseError edata
  | .raisesFatal => throw .fatal

/-- The span has reached a sink. -/
def reachSink (serial : ℕ) (span : OtelSpan) (sink : Sink) : M Unit :=
  modify fun s => { s with delivered := s.delivered ++ [⟨serial, span, sink⟩] }

/-- `otel_emit_span_as_log_line`: the line is written, unless there is no memory for its text. -/
def otelEmitSpanAsLogLine (serial : ℕ) (span : OtelSpan) : M Unit :=
  if env.logLineRaises serial then
    raiseError { elevel := elevelError, sqlerrcode := errcodeOutOfMemory }
  else
    reachSink serial span .serverLog

/-- `if (emit_hook) emit_hook(span)`. -/
def callEmitHook (serial : ℕ) (span : OtelSpan) : M Unit :=
  match env.emitHook with
  | some hook => do
    reachSink serial span .emitHook
    runEmitHook env (hook serial)
  | none => pure ()

/-- The body of `dispatch_span`'s `PG_TRY`. -/
def emitSpan (serial : ℕ) (span : OtelSpan) : M Unit := do
  modify fun s => { s with dispatchDepth := s.dispatchDepth + 1 }
  callEmitHook env serial span
  runIf (env.emitSpansToLog = true) (otelEmitSpanAsLogLine env serial span)
  modify fun s => { s with dispatchDepth := s.dispatchDepth - 1 }

/-- The `PG_CATCH` of `dispatch_span`, given what was saved before. -/
def recoverDispatch (saveDepth : ℕ) (save : Backend) : M Unit := do
  modifyBackend fun b => { b with currentMemoryContext := save.currentMemoryContext }
  modify fun s => { s with dispatchDepth := saveDepth }
  modifyBackend fun b =>
    { b with
      interruptHoldoffCount := save.interruptHoldoffCount
      queryCancelHoldoffCount := save.queryCancelHoldoffCount }
  flushErrorState
  modifyCounters fun c => { c with emitHookErrors := c.emitHookErrors + 1 }

/-- `dispatch_span`. -/
def dispatchSpan (serial : ℕ) (span : OtelSpan) : M Unit := do
  let s ← get
  modify fun s => { s with dispatches := s.dispatches ++ [⟨serial, span, env.sinks⟩] }
  if env.sink then
    pgTry (emitSpan env serial span) (recoverDispatch s.dispatchDepth s.backend)
    modifyCounters fun c => { c with spansEmitted := c.spansEmitted + 1 }
  else
    return ()

/-! ## Ending a span -/

/-- The first step of `end_slot`: the owner forgets the span. -/
def forgetOwner (idx : ℕ) : M Unit := do
  let s ← get
  forgetSlot env idx (s.slots idx)
  modifySlot idx fun slot => { slot with owner := none }

/-- What `end_slot` does to a span that did not reach its own end. -/
def markUnwound (idx : ℕ) (unwindReason : Option CString) : M Unit := do
  modifySlot idx fun slot =>
    { slot with
      span :=
        { slot.span with
          status := .error
          statusDescription :=
            if slot.err = none ∧ slot.span.statusDescription = none then unwindReason
            else slot.span.statusDescription } }
  modifyCounters fun c => { c with unwound := c.unwound + 1 }

def lowerCapturedError (idx : ℕ) : M Unit := do
  let s ← get
  match (s.slots idx).err with
  | some err => lowerErrorEvent env idx err
  | none => pure ()

/-- What `end_slot` writes into the span it is about to export. -/
def finishSpan (idx : ℕ) (endTime : TimestampTz) : M Unit := do
  let time ← timeOrNow env endTime
  modifySlot idx fun slot => { slot with span := { slot.span with endTime := time } }
  lowerCapturedError env idx
  modifySlot idx fun slot =>
    { slot with
      span := { slot.span with attrs := slot.attrs, events := slot.events, links := slot.links } }

/-- `end_slot`: export the span in slot `idx`, which is off the active stack, and free the slot. -/
def endSlot (idx : ℕ) (endTime : TimestampTz) (unwinding : Bool) (unwindReason : Option CString) :
    M Unit := do
  forgetOwner env idx
  runIf (unwinding = true) (markUnwound idx unwindReason)
  finishSpan env idx endTime
  modifySlot idx fun slot => { slot with dispatching := true }
  let s ← get
  dispatchSpan env (s.slots idx).serial (s.slots idx).span
  modifySlot idx fun slot => { slot with dispatching := false }
  releaseSlot env idx false .dispatched

/-- What `stack_unwind_above` does with an entry it has popped. -/
def unwindEntry (e : StackEntry) (reason : CString) : M Unit :=
  if e.isActivation then
    modifyCounters fun c => { c with activationUnwound := c.activationUnwound + 1 }
  else
    match e.entry with
    | .slot idx => endSlot env idx 0 true (some reason)
    | .nrec idx => freeNrec idx false

/-- The loop of `stack_unwind_above`: pop while more than `keep` entries are left. -/
def unwindTo (keep : ℕ) (reason : CString) : ℕ → M Unit
  | 0 => pure ()
  | fuel + 1 => do
    let s ← get
    match s.spanStack with
    | [] => pure ()
    | e :: rest =>
      if keep < rest.length + 1 then
        stackPop
        unwindEntry env e reason
        unwindTo keep reason fuel
      else
        pure ()

/-- `stack_unwind_above`: end everything above position `pos`. -/
def stackUnwindAbove (pos : ℕ) (reason : CString) : M Unit := do
  let s ← get
  unwindTo env (s.spanStack.length - pos) reason s.spanStack.length

def stackEntryName (s : St) : StackRef → CString
  | .slot idx => (s.slots idx).span.name
  | .nrec _ => cstr "(unsampled span)"

/-- The detail of `nonlifo_warning` about the entry at position `pos`. -/
def nonlifoDetail (s : St) (pos : ℕ) : CString :=
  let name (pos : ℕ) : CString := (s.spanStack[pos]?.map fun e => stackEntryName s e.entry).getD []
  let depth := s.spanStack.length
  cstr "Ending \"" ++ name pos ++ cstr "\" at stack depth " ++ cstrNat (depth - pos) ++
    cstr "; \"" ++ name 0 ++ cstr "\" is on top at depth " ++ cstrNat depth ++
    cstr (". The spans above it were ended first. " ++
      "Further occurrences in this backend are only counted.")

/-- `nonlifo_warning`. -/
def nonlifoWarning (what : String) (pos : ℕ) : M Unit := do
  modifyCounters fun c => { c with nonLifoEnd := c.nonLifoEnd + 1 }
  let s ← get
  if s.nonLifoWarned then
    pure ()
  else
    modify fun s => { s with nonLifoWarned := true }
    reportWarning env
      { elevel := elevelWarning, sqlerrcode := errcodeWarning,
        message := some (cstr ("otel_api: " ++ what)), detail := some (nonlifoDetail s pos),
        filename := some (cstr "otel_producer.c"), funcname := some (cstr "nonlifo_warning"),
        lineno := 428 }

/-! ## Release by the resource owner -/

/-- `otel_span_debug_print`: called for a span leaked at commit. -/
def otelSpanDebugPrint (ref : OtelSpanRef) : M CString := do
  let s ← get
  let idx := refIdx ref
  if idx < s.slotsUsed ∧ (s.slots idx).gen = refGen ref then
    modifySlot idx fun slot => { slot with leaked := true }
    return cstr "otel_api span \"" ++ (s.slots idx).span.name ++ cstr "\""
  else
    return cstr "otel_api span (stale)"

/-- `otel_span_release_resource`. -/
def otelSpanReleaseResource (ref : OtelSpanRef) : M Unit := do
  let s ← get
  let idx := refIdx ref
  if ¬ (idx < s.slotsUsed ∧ (s.slots idx).gen = refGen ref) then
    return ()
  else
    modifySlot idx fun slot => { slot with owner := none }
    stackRemove (.slot idx)
    let slot := s.slots idx
    if slot.leaked then
      modifyCounters fun c => { c with leakedAtCommit := c.leakedAtCommit + 1 }
      releaseSlot env idx true .leaked
    else if slot.dispatching then
      modifyCounters fun c => { c with droppedInDispatch := c.droppedInDispatch + 1 }
      releaseSlot env idx true .dropped
    else
      endSlot env idx 0 true (some (cstr "ended by transaction or subtransaction abort"))
      modifySlot idx fun s => { s with ownerReleasedGen := slot.gen }

/-- Core's report of a resource that is still held at commit. -/
def reportLeak (ref : OtelSpanRef) : M Unit := do
  let description ← otelSpanDebugPrint ref
  reportWarning env
    { elevel := elevelWarning, sqlerrcode := errcodeWarning,
      message := some (cstr "resource was not closed: " ++ description) }

/-- One turn of core's `ResourceOwnerReleaseAll`: at commit the leak is reported first, and the
owner drops the handle only after the release callback has returned. -/
def resourceOwnerRelease (owner : ResourceOwner) (ref : OwnedRef) (isCommit : Bool) : M Unit := do
  runIf (isCommit = true) (reportLeak env ref.1)
  otelSpanReleaseResource env ref.1
  modify fun s =>
    { s with owners := Function.update s.owners owner ((s.owners owner).erase ref) }

/-! ## Transaction callbacks -/

/-- Whether the non-recording span a stack entry names belongs to subtransaction level `level` or
deeper. -/
def nrecFromLevel (s : St) (level : ℕ) (e : StackEntry) : Bool :=
  match e.entry with
  | .slot _ => false
  | .nrec idx => decide (level ≤ (s.nrecs idx).nestLevel)

/-- The second loop of `drop_nrecs_from_level`, over the entries `idxs`. -/
def freeNrecsFromLevel (level : ℕ) : List ℕ → M Unit
  | [] => pure ()
  | idx :: rest => do
    let s ← get
    runIf ((s.nrecs idx).gen ≠ 0 ∧ level ≤ (s.nrecs idx).nestLevel) (freeNrec idx true)
    freeNrecsFromLevel level rest

/-- `drop_nrecs_from_level`. -/
def dropNrecsFromLevel (level : ℕ) : M Unit := do
  modify fun s => { s with spanStack := s.spanStack.filter fun e => !nrecFromLevel s level e }
  let s ← get
  freeNrecsFromLevel level (List.range s.nrecsUsed)

/-- `drop_activations_from_level`. -/
def dropActivationsFromLevel (level : ℕ) (isLeak : Bool) : M Unit := do
  let s ← get
  let dropped (e : StackEntry) : Bool := e.isActivation && decide (level ≤ e.nestLevel)
  modify fun s => { s with spanStack := s.spanStack.filter fun e => !dropped e }
  runIf (isLeak = true)
    (modifyCounters fun c =>
      { c with
        activationLeakedAtCommit := c.activationLeakedAtCommit + s.spanStack.countP dropped })

/-- `XactEvent`. -/
inductive XactEvent
  | commit | parallelCommit | abort | parallelAbort | prepare
  | preCommit | parallelPreCommit | prePrepare
  deriving DecidableEq

/-- `SubXactEvent`. -/
inductive SubXactEvent
  | startSub | commitSub | abortSub | preCommitSub
  deriving DecidableEq

def otelXactCallback (event : XactEvent) : M Unit :=
  match event with
  | .commit | .parallelCommit | .prepare => do
    dropNrecsFromLevel 1
    dropActivationsFromLevel 1 true
  | .abort | .parallelAbort => do
    dropNrecsFromLevel 1
    dropActivationsFromLevel 1 false
  | .preCommit | .parallelPreCommit | .prePrepare => pure ()

def otelSubxactCallback (event : SubXactEvent) : M Unit :=
  match event with
  | .abortSub => do
    dropNrecsFromLevel env.currentTransactionNestLevel
    dropActivationsFromLevel env.currentTransactionNestLevel false
  | .startSub | .commitSub | .preCommitSub => pure ()

def otelProducerShmemExit : M Unit := do
  let s ← get
  modifyCounters fun c => { c with openAtExit := c.openAtExit + s.sessionSpansOpen }

end PostgresOtel
