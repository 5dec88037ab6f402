import PostgresOtel.Client.Active
import PostgresOtel.Trace.PlanSpans
import PostgresOtel.Trace.Requests

/-!
# The spans of the tracing hooks

What the hooks of `otel_trace.c`, the plan-node collectors and `otel_fdw.c` do to the producer's spans
as core calls them: which spans they start, end, activate and name in other calls.  A resource owner
releases the spans of the statements that an abort ends, and a commit those that are still open.
-/

set_option autoImplicit false

namespace PostgresOtel

open KeyedStack TracingSt TraceSt

/-- A span, the query or traced call it was started for, where, and whether it records. -/
structure SpanOwner where
  ref : OtelSpanRef
  key : Ptr
  nest : NestLevel
  recording : Bool
  deriving DecidableEq

/-- The spans; `act` of each `ExecutorRun` in progress, innermost first; the spans started for
statements and for plan nodes; and the statements whose end hook has run. -/
structure StmtSpans where
  work : ActiveSpans := {}
  runs : List OtelSpanRef := []
  stmts : List SpanOwner := []
  nodes : List SpanOwner := []
  ends : List Ptr := []
  deriving DecidableEq

/-- A step of core with what the hooks find at it: whether a span that is started records, that the
backend is a parallel worker, that the plan shape of the query is recorded, that the active stack has
room for an activation, and for the nodes of a plan their ancestors, whether a sort ran and whether
its span was started. -/
structure SpanStep where
  act : TracingAct
  recording : Bool := true
  worker : Bool := false
  planshape : Bool := false
  room : Bool := true
  ancestors : Ptr → List PlanStateInfo := fun _ => []
  sortRan : Ptr → Bool := fun _ => false
  sortStarts : Ptr → Bool := fun _ => false

/-! ## Calls of the producer -/

namespace ActiveSpans

variable (a : ActiveSpans)

/-- `otel_span_start` returns this handle. -/
def started (ref : OtelSpanRef) (nestLevel : ℕ) (detached : Bool) : ActiveSpans :=
  if ref.v = 0 then a else a.start nestLevel detached

/-- `otel_span_current`. -/
def current : OtelSpanRef := (a.active.head?.map ActiveItem.ref).getD otelSpanNone

/-- `finalize_stmt_span`, where `t` has the entries that are left.  `restore_leader_context` names the
span of the top one. -/
def finalizeStmtSpan (t : TraceSt) (ref : OtelSpanRef) : ActiveSpans :=
  if ref.v = 0 then a
  else (a.finish ref).touch ((t.stmtStack.head?.map StmtSpanEntry.ref).getD otelSpanNone)

/-- `planspans_sort_span`, for a sort that ran. -/
def sortSpan (parent : OtelSpanRef) (starts : Bool) (nestLevel : ℕ) : ActiveSpans :=
  if starts then ((a.touch parent).start nestLevel true).finish (spanHandle a.spans.count)
  else a.touch parent

end ActiveSpans

/-- The handle an end call is made with. -/
def SpanEndCall.ref : SpanEndCall → OtelSpanRef
  | .child _ ref => ref
  | .statement ref => ref

namespace TraceSt

variable (t : TraceSt)

/-- The foreign scan gets a span. -/
def opensScan (tag : PlanNodeTag) (ref : OtelSpanRef) : Bool :=
  decide (tag = .foreignScanState) && decide (t.fdwScanStack.length < otelFdwScanStackMax) &&
    decide (ref.v ≠ 0)

/-- The child span that the begin of a node starts. -/
def childStart (planspans fdw : Option OtelSpanRef) (tag : PlanNodeTag) : Option OtelSpanRef :=
  if tag = .foreignScanState then fdw.filter (t.opensScan tag)
  else planspans.filter (t.opensChild tag)

/-- The spans that the end of a node ends, in `planspans_node_end` and `otel_fdw_scan_end`. -/
def childEnds (planspans : Bool) (n : PlanNode) : List OtelSpanRef :=
  (if planspans then (t.planspansNodeEndSpan n).toList.map SpanEndCall.ref else []) ++
    if n.tag = .foreignScanState then
      (find NodeSpanEntry.node n.ptr t.fdwScanStack).toList.map NodeSpanEntry.ref
    else []

end TraceSt

namespace SpanStep

variable (x : SpanStep)

/-- The node gets a span for its sort. -/
def sorts (planspans : Bool) (n : PlanNode) : Bool :=
  planspans && decide (n.tag = .sortState ∨ n.tag = .incrementalSortState) && x.sortRan n.ptr

/-- What the end walk does about a node. -/
def endNode (planspans : Bool) (stmtSpan : OtelSpanRef) (nestLevel : ℕ) (t : TraceSt)
    (a : ActiveSpans) (n : PlanNode) : ActiveSpans :=
  let ended := (t.childEnds planspans n).foldl ActiveSpans.finish a
  if x.sorts planspans n then
    ended.sortSpan (planspansParent t (x.ancestors n.ptr) stmtSpan) (x.sortStarts n.ptr) nestLevel
  else ended

/-- The end walk over the nodes. -/
def endNodes (planspans : Bool) (stmtSpan : OtelSpanRef) (nestLevel : ℕ) :
    TraceSt → ActiveSpans → List PlanNode → ActiveSpans
  | _, a, [] => a
  | t, a, n :: ns => endNodes planspans stmtSpan nestLevel (t.nodeEnd planspans n)
      (x.endNode planspans stmtSpan nestLevel t a n) ns

end SpanStep

/-! ## The hooks -/

namespace StmtSpans

variable (e : StmtSpans) (s : TracingSt)

/-- The span that a query or a traced call starts, which `push_stmt_span` ends if its stack is full. -/
def startStmt (addr : ℕ) (ref : OtelSpanRef) (detached recording : Bool) : StmtSpans :=
  { e with
    work := (e.work.started ref s.currentLevel.level detached).finish
      (s.trace.pushStmtSpan (s.newPtr addr) ref detached s.currentLevel).2
    stmts := if ref.v = 0 then e.stmts
      else ⟨ref, s.newPtr addr, s.currentLevel, recording⟩ :: e.stmts }

/-- The handle that `otel_ExecutorStart` has of the query's span. -/
def stmtSpan (query : Ptr) : OtelSpanRef :=
  ((e.stmts.find? fun w => w.key = query).map SpanOwner.ref).getD otelSpanNone

/-- The handles that the begin of a node names. -/
def beginNames (x : SpanStep) (query node : Ptr) (tag : PlanNodeTag)
    (planspans fdw : Option OtelSpanRef) : OtelSpanRef :=
  if tag = .foreignScanState then
    if fdw.isSome ∧ s.trace.fdwScanStack.length < otelFdwScanStackMax then e.work.current
    else otelSpanNone
  else if planspans.isSome ∧ (planspansSpanName tag).isSome ∧
      s.trace.planspansStack.length < otelPlanspansStackMax then
    planspansParent s.trace (x.ancestors node) (e.stmtSpan query)
  else otelSpanNone

/-- The begin of a plan node. -/
def beginNode (x : SpanStep) (query : Ptr) (addr : ℕ) (tag : PlanNodeTag)
    (planspans fdw : Option OtelSpanRef) : StmtSpans :=
  let named := e.work.touch (e.beginNames s x query (s.newPtr addr) tag planspans fdw)
  match s.trace.childStart planspans fdw tag with
  | none => { e with work := named }
  | some ref =>
    { e with
      work := named.start s.currentLevel.level true
      nodes := ⟨ref, query, s.currentLevel, x.recording⟩ :: e.nodes }

/-- `otel_ExecutorEnd`. -/
def endQuery (x : SpanStep) (query : Ptr) (planspans : Bool) : StmtSpans :=
  let popped := s.trace.popStmtSpan query
  { e with
    work := (x.endNodes planspans popped.2 s.currentLevel.level popped.1 (e.work.touch popped.2)
      ((s.queries.filter fun q => q.ptr = query).flatMap Query.nodes)).finalizeStmtSpan popped.1
        popped.2
    ends := query :: e.ends }

/-- `otel_ExecutorRun`, up to the run. -/
def beginRun (x : SpanStep) (query : Ptr) : StmtSpans :=
  match s.trace.peekCursorSpan query with
  | none => { e with runs := otelSpanNone :: e.runs }
  | some ref =>
    { e with
      work := (e.work.activate ref s.currentLevel.level x.room).1
      runs := (e.work.activate ref s.currentLevel.level x.room).2 :: e.runs }

/-- The `PG_FINALLY` blocks of the innermost runs. -/
def endRuns (n : ℕ) : StmtSpans :=
  { e with work := (e.runs.take n).foldl ActiveSpans.deactivate e.work, runs := e.runs.drop n }

/-- A traced call returns. -/
def endUtility (token : Ptr) : StmtSpans :=
  { e with
    work := e.work.finalizeStmtSpan (s.trace.popStmtSpan token).1 (s.trace.popStmtSpan token).2
    ends := token :: e.ends }

/-- An abort of the innermost level ends the span: it was started in a subtransaction that the abort
undoes or for a query that it ends, or it does not record and was started at the level or deeper. -/
def releases (dead : List Ptr) (ref : OtelSpanRef) : Bool :=
  match s.levels with
  | [] => false
  | top :: rest => rest.isEmpty || (e.stmts ++ e.nodes).any fun w =>
      decide (w.ref = ref) && (decide (w.nest.sub ∈ top.members) ||
        (s.queries.any fun q => decide (q.ptr = w.key) && s.dies dead q) ||
        !w.recording && decide (s.levels.length ≤ w.nest.level))

/-- An error in an aborted transaction ends the calls: their portal is dropped. -/
def dropsCalls (unwound : ℕ) (ref : OtelSpanRef) : Bool :=
  e.stmts.any fun w => decide (w.ref = ref) &&
    (s.frames.take unwound).any fun f => f.token = some w.key

/-- The step of the hooks beside that of core. -/
def next (x : SpanStep) : StmtSpans :=
  match x.act with
  | .executorStart addr isCursor ref =>
    let began := e.startStmt s addr ref isCursor x.recording
    if x.worker || x.planshape then { began with work := began.work.touch ref } else began
  | .nodeBegin query addr tag planspans fdw => e.beginNode s x query addr tag planspans fdw
  | .nodeEnd _ node =>
    { e with
      work := ((find NodeSpanEntry.node node s.trace.fdwScanStack).toList.map
        NodeSpanEntry.ref).foldl ActiveSpans.finish e.work }
  | .executorEnd query planspans => e.endQuery s x query planspans
  | .runBegin query => e.beginRun s x query
  | .runEnd => e.endRuns 1
  | .utilityBegin addr toplevel ref => if toplevel then e.startStmt s addr ref false x.recording else e
  | .utilityEnd => (s.frames.head?.bind CallFrame.token).elim e (e.endUtility s)
  -- What does not record is dropped here as well, without being counted as a leak.
  | .commit _ =>
    { e with work := (e.work.release (fun _ => true) .leaked).dropActivations 1 }
  | .abort unwound dead =>
    let ended := e.endRuns ((s.frames.take unwound).countP fun f => f.query.isSome)
    { ended with
      work := (ended.work.release (e.releases s dead) .released).dropActivations
        s.currentLevel.level }
  | .errorWhenAborted unwound => { e with work := e.work.release (e.dropsCalls s unwound) .released }
  | .begin | .savepoint | .release | .cleanup => e

end StmtSpans

/-! ## When core and the producer do this -/

/-- The handle is null or the next one. -/
def StmtSpans.Fresh (e : StmtSpans) (ref : OtelSpanRef) : Prop :=
  ref.v = 0 ∨ ref = spanHandle e.work.spans.count

instance (e : StmtSpans) (ref : OtelSpanRef) : Decidable (e.Fresh ref) :=
  inferInstanceAs (Decidable (_ ∨ _))

/-- The span was started in a subtransaction that an abort of the innermost level undoes. -/
def StmtSpans.Inside (e : StmtSpans) (s : TracingSt) (ref : OtelSpanRef) : Prop :=
  ∃ top rest, s.levels = top :: rest ∧
    (rest = [] ∨ ∃ w ∈ e.stmts, w.ref = ref ∧ w.nest.sub ∈ top.members)

/-- The producer returns new handles; the shape of a plan is recorded and the plan walked if the span of
the query records; and the calls that an error ends were made in the subtransaction that is aborted,
with all that began in them. -/
def SpanStep.Enabled (p : TracingSt × StmtSpans) (x : SpanStep) : Prop :=
  match x.act with
  | .executorStart _ _ ref => p.2.Fresh ref ∧ (x.planshape → ref.v ≠ 0 ∧ x.recording)
  | .utilityBegin _ _ ref => p.2.Fresh ref
  | .nodeBegin query _ tag planspans fdw =>
    (∀ ref ∈ p.1.trace.childStart planspans fdw tag, p.2.Fresh ref) ∧
      (planspans.isSome → ∃ w ∈ p.2.stmts, w.key = query ∧ w.recording)
  | .abort unwound _ =>
    (∀ f ∈ p.1.frames.take unwound, ∃ top rest, p.1.levels = top :: rest ∧
      (rest = [] ∨ f.sub ∈ top.members)) ∧
    ∀ act ∈ p.2.runs.take ((p.1.frames.take unwound).countP fun f => f.query.isSome),
      ∀ i ∈ p.2.work.above act, p.2.Inside p.1 i.ref
  | _ => True

/-- The backend with the spans of its tracing hooks. -/
def stmtSpans : Machine (TracingSt × StmtSpans) SpanStep :=
  tracing.extend {} (fun x => some x.act) (fun p x => x.Enabled p) fun p x => p.2.next p.1 x

theorem enabled_stmtSpans {p : TracingSt × StmtSpans} {x : SpanStep} (h : x.act.Enabled p.1)
    (hx : x.Enabled p) : stmtSpans.enabled p x := by
  refine ⟨fun a ha => ?_, hx⟩
  cases ha
  exact h

/-- A step where the hooks find nothing special. -/
def SpanStep.of (act : TracingAct) : SpanStep := { act }

end PostgresOtel
