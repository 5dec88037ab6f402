import PostgresOtel.Parallel.Workers
import PostgresOtel.Sdt.Bridge
import PostgresOtel.Trace.Planwalk

/-!
# What the hooks ask for

Every call of `otel_span_start` in the hooks of `otel_trace.c`, in the plan-node collectors, in
`otel_fdw.c` and in the `START` path of the probe bridge, with its arguments, as a function of what
the hook finds.  The `Surroundings` are the producer's side of that: the surroundings of the call and the
spans that are open.
-/

set_option autoImplicit false

namespace PostgresOtel

open KeyedStack TraceSt

/-- What a hook can ask the producer about, and the version of the server it was built for. -/
structure Surroundings where
  env : Env
  life : Lifecycle
  pgVersion : CString := []

namespace Surroundings

variable (m : Surroundings)

/-- `otel_span_context_of(OTEL_SPAN_NONE)` succeeds. -/
def haveContext : Bool :=
  match activeParent m.env m.life with
  | .none => false
  | _ => true

/-- `otel_span_current`. -/
def current : OtelSpanRef :=
  match m.life.spanStack with
  | [] => otelSpanNone
  | top :: _ =>
    match top.entry with
    | .slot idx => makeRef (m.life.slots.cell idx).gen idx true
    | .nrec idx => makeRef (m.life.nrecs.cell idx).gen idx false

/-- No span is active, and no root, comment or leader context is in force. -/
structure Untraced : Prop where
  inactive : m.life.spanStack = []
  rootless : m.env.rootCtx.isSet = false
  leaderless : m.env.isParallelWorker = true → m.env.leaderContext = none

/-- These are the moments in which a span would begin a new trace. -/
theorem haveContext_eq_false_iff : m.haveContext = false ↔ m.Untraced := by
  have hnone : m.haveContext = false ↔ activeParent m.env m.life = .none := by
    unfold haveContext
    cases activeParent m.env m.life <;> simp
  rw [hnone]
  unfold activeParent
  constructor
  · intro h
    cases hstack : m.life.spanStack with
    | cons top rest =>
      rw [hstack] at h
      cases htop : top.entry <;> simp [htop, resolveFromEntry] at h
    | nil =>
      rw [hstack] at h
      have hremote : remoteContext m.env = none := by
        cases hctx : remoteContext m.env with
        | none => rfl
        | some ctx =>
          rw [hctx] at h
          cases h
      unfold remoteContext at hremote
      refine ⟨hstack, ?_, fun hworker => ?_⟩
      · cases hset : m.env.rootCtx.isSet with
        | false => rfl
        | true =>
          rw [hset] at hremote
          split at hremote <;> simp at hremote
      · rw [hworker] at hremote
        cases hleader : m.env.leaderContext with
        | none => rfl
        | some ctx => simp [hleader] at hremote
  · rintro ⟨hstack, hroot, hleader⟩
    have hnone : (if m.env.isParallelWorker then m.env.leaderContext else none) = none := by
      split_ifs with hworker
      · exact hleader hworker
      · rfl
    rw [hstack]
    simp [remoteContext, hnone, hroot]

end Surroundings

/-! ## The module's settings -/

/-- `otel.trace_all_queries` and `otel.trace_plan_child_spans`. -/
structure TraceGucs where
  traceAllQueries : Bool := false
  tracePlanChildSpans : Bool := false
  deriving DecidableEq

/-- `otel_pg_tracer`. -/
def Surroundings.otelPgTracer (m : Surroundings) : OtelTracer :=
  { name := some (cstr "otel_postgres_tracing"), version := some m.pgVersion }

/-! ## Statements -/

/-- `start_stmt_span`: what it asks for, if it does. -/
def startStmtSpan (m : Surroundings) (gucs : TraceGucs) (t : TraceSt) (name : Option CString)
    (detached : Bool) : Option OtelSpanStartArgs :=
  if m.haveContext = false ∧ gucs.traceAllQueries = false then
    none
  else if t.stmtStack.isEmpty ∧ m.env.isParallelWorker = false then
    some { tracer := some m.otelPgTracer
           name
           kind := .server
           parent := if m.env.rootCtx.isSet then .context else .root
           parentCtx := if m.env.rootCtx.isSet then some m.env.rootCtx.ctx else none
           detached
           forceSample := gucs.traceAllQueries }
  else
    some { tracer := some m.otelPgTracer
           name
           kind := .server
           detached
           forceSample := gucs.traceAllQueries }

/-! ## Plan nodes -/

/-- `planspans_parent`. -/
def planspansParent (t : TraceSt) (ancestors : List PlanStateInfo) (stmtSpan : OtelSpanRef) :
    OtelSpanRef :=
  ((ancestors.reverse.findSome? fun a => find NodeSpanEntry.node a.ptr t.planspansStack).map
    NodeSpanEntry.ref).getD stmtSpan

/-- What the collectors start: detached, under a span that is named. -/
def childArgs (m : Surroundings) (name : CString) (parentSpan : OtelSpanRef) : OtelSpanStartArgs :=
  { tracer := some m.otelPgTracer
    name := some name
    parent := .span
    parentSpan
    detached := true }

/-- `planspans_node_begin`. -/
def planspansBeginStart (m : Surroundings) (t : TraceSt) (ancestors : List PlanStateInfo)
    (n : PlanStateInfo) (stmtSpan : OtelSpanRef) : Option OtelSpanStartArgs :=
  if n.tag = .sortState ∧ t.sortwrapStack.length < otelPlanspansStackMax then
    none
  else if otelPlanspansStackMax ≤ t.planspansStack.length then
    none
  else
    (planspansSpanName n.tag).map fun name => childArgs m name (planspansParent t ancestors stmtSpan)

/-- The sort ran, as `planspans_sort_span` sees it: by its wrapper's entry, if it has one, else by
the node's instrumentation. -/
def sortRan (t : TraceSt) (n : PlanStateInfo) : Bool :=
  match (if n.tag = .sortState then t.sortwrapFind n.ptr else none) with
  | some _ => n.firstCallEnded
  | none =>
    match n.instrument with
    | none => false
    | some nloops => decide (0 < nloops)

/-- `planspans_node_end`, which asks in `planspans_sort_span`. -/
def planspansEndStart (m : Surroundings) (t : TraceSt) (ancestors : List PlanStateInfo)
    (n : PlanStateInfo) (stmtSpan : OtelSpanRef) : Option OtelSpanStartArgs :=
  if (n.tag = .sortState ∨ n.tag = .incrementalSortState) ∧ sortRan t n = true then
    some (childArgs m (cstr "pg.exec.sort") (planspansParent t ancestors stmtSpan))
  else
    none

/-! ## Foreign scans -/

/-- `OTEL_FDW_USE_CORE_HOOKS` or the collector of the plan walk. -/
inductive FdwBuild
  | coreHooks | planWalk
  deriving DecidableEq

/-- `otel_fdw_scan_begin`. -/
def otelFdwScanStart (m : Surroundings) (t : TraceSt) : Option OtelSpanStartArgs :=
  if otelFdwScanStackMax ≤ t.fdwScanStack.length then
    none
  else
    some { tracer := some m.otelPgTracer
           name := some (cstr "pg.fdw.scan")
           kind := .client
           parent := if m.current.v ≠ 0 then .span else .active
           parentSpan := m.current
           detached := true }

/-! ## Probes -/

/-- The span name of a phase. -/
def sdtSpanName : SdtPhase → CString
  | .query => cstr "pg.query"
  | .parse => cstr "pg.parse"
  | .rewrite => cstr "pg.rewrite"
  | .plan => cstr "pg.plan"
  | .execute => cstr "pg.execute"
  | .smgrRead => cstr "pg.smgr.read"
  | .smgrWrite => cstr "pg.smgr.write"
  | .syncrep => cstr "pg.syncrep.wait"
  | .lockWait => cstr "pg.lock.wait"

/-- The `START` path of `otel_sdt_hook` for a phase. -/
def sdtPhaseStart (m : Surroundings) (phase : SdtPhase) (env : SdtEnv) (s : SdtSt) : Option OtelSpanStartArgs :=
  if s.startPushes phase env then
    some { tracer := some m.otelPgTracer, name := some (sdtSpanName phase) }
  else
    none

/-- The `START` path of `otel_sdt_hook` for a sort. -/
def sdtSortStart (m : Surroundings) (env : SdtEnv) (s : SdtSt) : Option OtelSpanStartArgs :=
  if s.enabledMask .sortStart ∧ SdtSt.Admits env .sortStart ∧ env.hasContext = true ∧
      s.sortStack.length < sortStackSize then
    some { tracer := some m.otelPgTracer, name := some (cstr "pg.sort"), detached := true }
  else
    none

end PostgresOtel
