import PostgresOtel.Lib.Exec
import PostgresOtel.Producer.Sampler

/-!
# The producer's state

The static variables of `otel_producer.c` as one record, the part of core's state that the producer
saves and restores, and the surroundings of a call: everything a call reads but does not own, with
the outcomes it cannot foresee (an allocation, a raise in core, what the emit hook does).

Two kinds of fields have no counterpart in the source.  `serial`, `fates`, `dispatches`, `delivered`,
`requested` and `overdrawn` only record history: the number of the start a slot belongs to, how each
started span left its slot, the spans `dispatch_span` was called with, those that reached the emit hook
or the server log, the bytes requested in a slot's memory context and not freed, and whether these were
ever more than its account.  `tick` numbers the questions put to the surroundings, so that each of them
may be answered differently.
-/

set_option autoImplicit false

namespace PostgresOtel

/-- `OTEL_MAX_STACK_DEPTH`. -/
def otelMaxStackDepth : ℕ := 128

/-- `OTEL_SLOT_INLINE_ATTRS`. -/
def otelSlotInlineAttrs : ℕ := 12

/-- How a started recording span left its slot. -/
inductive Fate
  | dispatched | discarded | leaked | dropped
  deriving DecidableEq

/-! ## Slots and non-recording entries -/

/-- `OtelSlotError`; its `used` flag is the `Option` around it. -/
structure OtelSlotError where
  elevel : ℕ
  lineno : ℕ
  sqlstate : CString
  time : TimestampTz
  message : Option CString := none
  detail : Option CString := none
  hint : Option CString := none
  filename : Option CString := none
  funcname : Option CString := none
  deriving DecidableEq

/-- The fields of `OtelSlot` that say whether the slot is in use, by whom, and where it stands. -/
structure SlotLife where
  gen : ℕ := 0
  ownerReleasedGen : ℕ := 0
  nextFree : ℤ := 0
  detached : Bool := false
  session : Bool := false
  leaked : Bool := false
  dispatching : Bool := false
  owner : Option ResourceOwner := none
  serial : ℕ := 0
  deriving DecidableEq

/-- `OtelSlot`.  `cxt` says whether its memory context exists; the lengths of the lists are the
span's `n_attrs`, `n_events` and `n_links`. -/
structure OtelSlot extends SlotLife where
  span : OtelSpan := {}
  cxt : Bool := false
  bytes : ℕ := 0
  requested : ℕ := 0
  overdrawn : Bool := false
  attrs : List OtelAttribute := []
  attrsCap : ℕ := 0
  events : List OtelSpanEvent := []
  eventsCap : ℕ := 0
  links : List OtelSpanContext := []
  linksCap : ℕ := 0
  err : Option OtelSlotError := none
  deriving DecidableEq

/-- `size` bytes have been requested in the slot's memory context, and `charge` added to its account. -/
def OtelSlot.request (size charge : ℕ) (slot : OtelSlot) : OtelSlot :=
  { slot with
    bytes := slot.bytes + charge
    requested := slot.requested + size
    overdrawn := slot.overdrawn || decide (slot.bytes + charge < slot.requested + size) }

/-- `size` bytes have been freed in the slot's memory context. -/
def OtelSlot.release (size : ℕ) (slot : OtelSlot) : OtelSlot :=
  { slot with requested := slot.requested - size }

/-- The fields of `OtelNrec` that say whether the entry is in use and where it stands. -/
structure NrecLife where
  gen : ℕ := 0
  ownerReleasedGen : ℕ := 0
  nextFree : ℤ := 0
  nestLevel : ℕ := 0
  detached : Bool := false
  deriving DecidableEq

/-- `OtelNrec`. -/
structure OtelNrec extends NrecLife where
  haveSpanId : Bool := false
  ctx : OtelSpanContext := {}
  deriving DecidableEq

/-- An `int32` of `span_stack`: a slot index, or `-(nrec index) - 1`. -/
inductive StackRef
  | slot (idx : ℕ)
  | nrec (idx : ℕ)
  deriving DecidableEq

/-- An entry of `span_stack` with its `StackEntryMeta`. -/
structure StackEntry where
  entry : StackRef
  isActivation : Bool
  nestLevel : ℕ
  deriving DecidableEq

/-- `OtelApiCounters`. -/
structure OtelApiCounters where
  spansStarted : ℕ := 0
  spansUnsampled : ℕ := 0
  spansEmitted : ℕ := 0
  spansDiscarded : ℕ := 0
  startNoSlot : ℕ := 0
  startNoSessionSlot : ℕ := 0
  startStackFull : ℕ := 0
  startBadArgs : ℕ := 0
  inCritSection : ℕ := 0
  inEmitHook : ℕ := 0
  staleHandle : ℕ := 0
  nonLifoEnd : ℕ := 0
  unwound : ℕ := 0
  leakedAtCommit : ℕ := 0
  droppedInDispatch : ℕ := 0
  openAtExit : ℤ := 0
  attrTruncated : ℕ := 0
  attrDropped : ℕ := 0
  eventDropped : ℕ := 0
  linkDropped : ℕ := 0
  errorCaptureFailed : ℕ := 0
  emitHookErrors : ℕ := 0
  activateNotDetached : ℕ := 0
  activateAlreadyActive : ℕ := 0
  deactivateNotActive : ℕ := 0
  activationUnwound : ℕ := 0
  activationLeakedAtCommit : ℕ := 0
  deriving DecidableEq

/-! ## Core's state -/

inductive MemoryContext
  | errorContext
  | other (id : ℕ)
  deriving DecidableEq

/-- What the producer saves and restores of core's state: `errordata` with the innermost error
first, the two holdoff counts and `CurrentMemoryContext`. -/
structure Backend where
  errorStack : List ErrorData := []
  interruptHoldoffCount : ℕ := 0
  queryCancelHoldoffCount : ℕ := 0
  currentMemoryContext : MemoryContext := .other 0
  deriving DecidableEq

/-- The non-local exits: `ERROR`, which a `PG_TRY` catches, and `FATAL`, which ends the process. -/
inductive Exn
  | error
  | fatal
  deriving DecidableEq

/-! ## The state -/

/-- Where `dispatch_span` sends a span. -/
inductive Sink
  | emitHook
  | serverLog
  deriving DecidableEq

/-- A call of `dispatch_span`: the start it belongs to, the span, and the sinks there were. -/
structure Dispatch where
  serial : ℕ
  span : OtelSpan
  sinks : List Sink
  deriving DecidableEq

/-- There was somewhere to send the span. -/
def Dispatch.sink (d : Dispatch) : Bool := !d.sinks.isEmpty

/-- A span that reached a sink: the emit hook was called with it, or it was written to the log. -/
structure Delivery where
  serial : ℕ
  span : OtelSpan
  sink : Sink
  deriving DecidableEq

/-- The static variables of `otel_producer.c`, the producer's entries in resource owners, and core's
state.  `spanStack` lists the active stack from its top. -/
structure St where
  poolCxt : Bool := false
  poolReady : Bool := false
  nslots : ℕ := 0
  slots : ℕ → OtelSlot
  slotsUsed : ℕ := 0
  slotFreeHead : ℤ := -1
  sessionSpansOpen : ℤ := 0
  dispatchDepth : ℕ := 0
  nrecs : ℕ → OtelNrec := fun _ => {}
  nrecsUsed : ℕ := 0
  nrecFreeHead : ℤ := -1
  spanStack : List StackEntry := []
  genCounter : ℕ := 0
  prngSeeded : Bool := false
  counters : OtelApiCounters := {}
  nonLifoWarned : Bool := false
  exitCallbackRegistered : Bool := false
  owners : ResourceOwner → List OwnedRef := fun _ => []
  backend : Backend := {}
  tick : ℕ := 0
  fates : List (ℕ × Fate) := []
  dispatches : List Dispatch := []
  delivered : List Delivery := []

abbrev M := EStateM Exn St

/-! ## The surroundings of a call -/

/-- What an emit hook does besides exporting the span it is given. -/
inductive HookAct
  /-- A report that reaches `emit_log_hook`. -/
  | report (edata : ErrorData)
  /-- A producer call that changes something. -/
  | call
  /-- The read-only `otel_span_context_of`. -/
  | contextOf (s : OtelSpanRef)
  /-- An `ERROR` the hook catches itself and disposes of with `FlushErrorState`. -/
  | catchError
  deriving DecidableEq

inductive HookEnd
  | returns
  | raisesError (edata : ErrorData)
  | raisesFatal
  deriving DecidableEq

/-- One run of the emit hook chain. -/
structure HookRun where
  acts : List HookAct := []
  finish : HookEnd := .returns
  deriving DecidableEq

theorem spanId_one_ne_zero : (1 : OtelSpanId) ≠ 0 := by decide

theorem traceId_one_ne_zero : (1 : OtelTraceId) ≠ 0 := by decide

/-- What a call reads but does not own.  The functions of a number answer the question with that
`tick`; hook runs are numbered by the start of the span they are given. -/
structure Env where
  currentResourceOwner : Option ResourceOwner := none
  currentTransactionNestLevel : ℕ := 1
  critSectionCount : ℕ := 0
  isParallelWorker : Bool := false
  leaderContext : Option OtelSpanContext := none
  rootCtx : OtelRootContext := {}
  tracestateGuc : Option CString := none
  samplerMode : OtelApiSampler := .parentbasedAlwaysOn
  samplerArg : ℚ := 1
  maxOpenSpans : ℕ := 64
  maxSessionSpans : ℕ := 16
  attrValueMax : ℕ := 4096
  maxSpanBytes : ℕ := 65536
  emitHook : Option (ℕ → HookRun) := none
  emitSpansToLog : Bool := false
  logLineRaises : ℕ → Bool := fun _ => false
  /-- Whether a `WARNING` is output to the server log and so reaches `emit_log_hook`. -/
  warningsLogged : Bool := true
  mbcliplen : CString → ℕ → ℕ := fun _ limit => limit
  clock : ℕ → TimestampTz := fun _ => 0
  allocFails : ℕ → Bool := fun _ => false
  seedDraw : ℕ := 0
  spanIdDraw : ℕ → {v : OtelSpanId // v ≠ 0} := fun _ => ⟨1, spanId_one_ne_zero⟩
  traceIdDraw : ℕ → {v : OtelTraceId // v ≠ 0} := fun _ => ⟨1, traceId_one_ne_zero⟩
  poolContextRaises : Bool := false
  slotContextRaises : Bool := false
  tracerRegisterRaises : Bool := false
  ownerEnlargeRaises : Bool := false
  forgetRaises : OtelSpanRef → Bool := fun _ => false
  copyErrorDataRaises : Bool := false
  /-- What `CopyErrorData` requests for its copy of a report. -/
  errorDataSize : ErrorData → ℕ := fun _ => 1

/-- Whether `dispatch_span` has anywhere to send a span. -/
def Env.sink (env : Env) : Bool := env.emitHook.isSome || env.emitSpansToLog

/-- The sinks there are. -/
def Env.sinks (env : Env) : List Sink :=
  (if env.emitHook.isSome then [.emitHook] else []) ++ if env.emitSpansToLog then [.serverLog] else []

/-! ## Elementary steps -/

def modifyCounters (f : OtelApiCounters → OtelApiCounters) : M Unit :=
  modify fun s => { s with counters := f s.counters }

def modifyBackend (f : Backend → Backend) : M Unit :=
  modify fun s => { s with backend := f s.backend }

/-- Update the slot with index `idx`. -/
def modifySlot (idx : ℕ) (f : OtelSlot → OtelSlot) : M Unit :=
  modify fun s => { s with slots := Function.update s.slots idx (f (s.slots idx)) }

/-- Update the non-recording entry with index `idx`. -/
def modifyNrec (idx : ℕ) (f : OtelNrec → OtelNrec) : M Unit :=
  modify fun s => { s with nrecs := Function.update s.nrecs idx (f (s.nrecs idx)) }

/-- A step taken only under a condition. -/
def runIf (c : Prop) [Decidable c] (x : M Unit) : M Unit := if c then x else pure ()

/-- The answer of the surroundings to the next question. -/
def ask {α : Type} (answer : ℕ → α) : M α := do
  let s ← get
  modify fun s => { s with tick := s.tick + 1 }
  return answer s.tick

/-- `ereport(ERROR)`: `errfinish` leaves the error on top of the stack, both holdoff counts zero and
`ErrorContext` current. -/
def raiseError {α : Type} (edata : ErrorData) : M α := do
  modifyBackend fun b =>
    { errorStack := edata :: b.errorStack, interruptHoldoffCount := 0,
      queryCancelHoldoffCount := 0, currentMemoryContext := .errorContext }
  throw .error

/-- `FlushErrorState`. -/
def flushErrorState : M Unit := modifyBackend fun b => { b with errorStack := [] }

/-- `PG_TRY`/`PG_CATCH`.  A `FATAL` does not come back. -/
def pgTry {α : Type} (body handler : M α) : M α :=
  tryCatch body fun e => match e with
    | .error => handler
    | .fatal => throw .fatal

end PostgresOtel
