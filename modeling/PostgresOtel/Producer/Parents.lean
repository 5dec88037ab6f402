import PostgresOtel.Producer.Slots

/-!
# Parents and contexts

Which span a new one starts under, and the read-only calls that report the active span and the
context of a span.  These are the calls an emit hook may make.
-/

set_option autoImplicit false

namespace PostgresOtel

variable (env : Env)

/-- `ResolvedParent`. -/
inductive ResolvedParent
  | none
  | remote (ctx : OtelSpanContext)
  | slot (idx : ℕ)
  | nrec (idx : ℕ)

def resolveFromEntry : StackRef → ResolvedParent
  | .slot idx => .slot idx
  | .nrec idx => .nrec idx

/-- `otel_tracestate_guc`, when it is set and not empty. -/
def tracestateInForce : Option CString := env.tracestateGuc.filter fun t => t ≠ []

/-- The context a parent outside this backend supplies: the leader's in a parallel worker, or the
root context. -/
def remoteContext : Option OtelSpanContext :=
  match (if env.isParallelWorker then env.leaderContext else Option.none) with
  | some ctx => some ctx
  | none =>
    if env.rootCtx.isSet then
      some { env.rootCtx.ctx with tracestate := tracestateInForce env }
    else
      Option.none

/-- `resolve_active_parent`: the parent a span started with `OTEL_PARENT_ACTIVE` gets. -/
def resolveActiveParent : M ResolvedParent := do
  let s ← get
  match s.spanStack with
  | top :: _ => return resolveFromEntry top.entry
  | [] =>
    match remoteContext env with
    | some ctx => return .remote ctx
    | none => return .none

/-- `resolve_parent`; none if the parent named is stale. -/
def resolveParent (args : OtelSpanStartArgs) : M (Option ResolvedParent) :=
  match args.parent with
  | .active => do
    let p ← resolveActiveParent env
    return some p
  | .context =>
    match args.parentCtx with
    | some ctx =>
      if otelSpanContextIsValid ctx then return some (.remote ctx) else return some .none
    | none => return some .none
  | .span =>
    if 0 < args.parentSpan.v then do
      let ps ← slotForRef args.parentSpan
      return ps.map .slot
    else if args.parentSpan.v < 0 then do
      let pn ← nrecForRef args.parentSpan
      return pn.map .nrec
    else
      return some .none
  | .root => return some .none

/-- `call_refused`: no call in a critical section, and none but read-only ones in an emit hook. -/
def callRefused (readOnly : Bool) : M Bool := do
  let s ← get
  if env.critSectionCount ≠ 0 then
    modifyCounters fun c => { c with inCritSection := c.inCritSection + 1 }
    return true
  else if 0 < s.dispatchDepth ∧ !readOnly then
    modifyCounters fun c => { c with inEmitHook := c.inEmitHook + 1 }
    return true
  else
    return false

def apiSpanCurrent : M OtelSpanRef := do
  let refused ← callRefused env true
  if refused then
    return otelSpanNone
  else
    let s ← get
    match s.spanStack with
    | [] => return otelSpanNone
    | top :: _ =>
      match top.entry with
      | .slot idx => return makeRef (s.slots idx).gen idx true
      | .nrec idx => return makeRef (s.nrecs idx).gen idx false

/-- `nrec_context`: a non-recording span gets its id when its context is first asked for. -/
def nrecContext (idx : ℕ) : M OtelSpanContext := do
  let s ← get
  if (s.nrecs idx).haveSpanId then
    return (s.nrecs idx).ctx
  else
    seedPrngIfNeeded env
    let id ← newSpanId env
    modifyNrec idx fun n => { n with haveSpanId := true, ctx := { n.ctx with spanId := id } }
    let s ← get
    return (s.nrecs idx).ctx

def slotContext (slot : OtelSlot) : OtelSpanContext :=
  { traceId := slot.span.traceId, spanId := slot.span.spanId, traceFlags := slot.span.traceFlags,
    tracestate := slot.span.tracestate }

/-- `otel_span_context_of_internal` for a handle that is not null. -/
def contextOfHandle (s : OtelSpanRef) : M (Option OtelSpanContext) :=
  if 0 < s.v then do
    let slot ← slotForRef s
    match slot with
    | none => return none
    | some idx =>
      let st ← get
      return some (slotContext (st.slots idx))
  else do
    let n ← nrecForRef s
    match n with
    | none => return none
    | some idx =>
      let ctx ← nrecContext env idx
      return some ctx

/-- `otel_span_context_of_internal`; a null handle asks for the active context. -/
def otelSpanContextOfInternal (s : OtelSpanRef) : M (Option OtelSpanContext) :=
  if s.v = 0 then do
    let p ← resolveActiveParent env
    match p with
    | .slot idx =>
      let st ← get
      contextOfHandle env (makeRef (st.slots idx).gen idx true)
    | .nrec idx =>
      let ctx ← nrecContext env idx
      return some ctx
    | .remote ctx => return some ctx
    | .none => return none
  else
    contextOfHandle env s

def apiSpanContextOf (s : OtelSpanRef) : M (Option OtelSpanContext) := do
  let refused ← callRefused env true
  if refused then
    return none
  else
    otelSpanContextOfInternal env s

end PostgresOtel
