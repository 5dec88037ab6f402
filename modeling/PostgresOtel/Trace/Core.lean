import PostgresOtel.Lib.Machine
import PostgresOtel.Producer.Levels
import PostgresOtel.Trace.Bookkeeping

/-!
# Core around the tracing hooks

The transactions, queries, plan nodes and calls of one backend, and when core calls the hooks of
`otel_trace.c`, `otel_planspans.c` and `otel_fdw.c` for them.  A query is whatever has a `QueryDesc`:
the query of a portal, which may outlive the subtransaction it was started in, or one that a
function runs.  Its `ExecutorEnd` comes only if it ends without an error: core drops a failed
portal's query, and one whose caller is unwound, without calling any hook.

The handles that `otel_span_start` returns are part of the labels.
-/

set_option autoImplicit false

namespace PostgresOtel

structure PlanNode where
  ptr : Ptr
  tag : PlanNodeTag
  deriving DecidableEq

/-- A query with a `QueryDesc`, the subtransaction it was started in, its plan nodes, and the handle
its start put on the statement stack. -/
structure Query where
  ptr : Ptr
  sub : ℕ
  nodes : List PlanNode := []
  pushed : Option OtelSpanRef
  deriving DecidableEq

/-- A call in progress, with the subtransaction it began in. -/
inductive CallFrame
  | run (query : Ptr) (sub : ℕ)
  | utility (token : Ptr) (toplevel : Bool) (sub : ℕ)
  deriving DecidableEq

def CallFrame.sub : CallFrame → ℕ
  | .run _ sub => sub
  | .utility _ _ sub => sub

/-- The key of a call that `otel_ProcessUtility` traces. -/
def CallFrame.token : CallFrame → Option Ptr
  | .utility token true _ => some token
  | _ => none

/-- The query a call runs. -/
def CallFrame.query : CallFrame → Option Ptr
  | .run query _ => some query
  | .utility _ _ _ => none

/-- The state of the backend: the transaction levels and the calls innermost first. -/
structure TracingSt where
  levels : List Subxact := []
  queries : List Query := []
  frames : List CallFrame := []
  nextSub : ℕ := 0
  nextObj : ℕ := 0
  trace : TraceSt := {}
  deriving DecidableEq

namespace TracingSt

variable (s : TracingSt)

/-- `GetCurrentTransactionNestLevel()`. -/
def currentLevel : NestLevel := ⟨s.levels.length, (s.levels.head?.map Subxact.id).getD s.nextSub⟩

/-- The addresses that key the statement stack. -/
def livePtrs : List Ptr := s.queries.map Query.ptr ++ s.frames.filterMap CallFrame.token

/-- The plan nodes of all queries. -/
def planNodes : List PlanNode := s.queries.flatMap Query.nodes

/-- The addresses that key the stack of foreign scans. -/
def scanPtrs : List Ptr :=
  (s.planNodes.filter fun n => n.tag = .foreignScanState).map PlanNode.ptr

/-- A new object at an address. -/
def newPtr (addr : ℕ) : Ptr := ⟨addr, s.nextObj⟩

/-- The address is free for a query or a traced call. -/
def FreeAddr (addr : ℕ) : Prop := ∀ p ∈ s.livePtrs, p.addr ≠ addr

instance (addr : ℕ) : Decidable (s.FreeAddr addr) := inferInstanceAs (Decidable (∀ p ∈ _, _))

/-- The innermost transaction level is open and can run queries. -/
def InProgress : Prop := ∃ top rest, s.levels = top :: rest ∧ top.aborted = false

end TracingSt

/-! ## Steps -/

inductive TracingAct
  | begin
  | savepoint
  | release
  /-- `COMMIT` or `PREPARE TRANSACTION`. -/
  | commit (prepare : Bool)
  /-- The innermost level is aborted, after an error has ended the innermost calls, if it was for
  one.  `dead` are queries started further out that the error ends, such as one that ran. -/
  | abort (unwound : ℕ) (dead : List Ptr)
  | cleanup
  | executorStart (addr : ℕ) (isCursor : Bool) (ref : OtelSpanRef)
  /-- A plan node of a query begins, with what the collectors that see it get for it. -/
  | nodeBegin (query : Ptr) (addr : ℕ) (tag : PlanNodeTag) (planspans fdw : Option OtelSpanRef)
  /-- A foreign scan that ends before its query does. -/
  | nodeEnd (query node : Ptr)
  | executorEnd (query : Ptr) (planspans : Bool)
  | runBegin (query : Ptr)
  | runEnd
  | utilityBegin (addr : ℕ) (toplevel : Bool) (ref : OtelSpanRef)
  | utilityEnd
  /-- An error ends calls of an aborted transaction. -/
  | errorWhenAborted (unwound : ℕ)

/-- What `otel_ProcessUtility` does about its call when that returns or an error ends it. -/
def TraceSt.catchError (t : TraceSt) (f : CallFrame) : TraceSt :=
  match f.token with
  | some token => (t.popStmtSpan token).1
  | none => t

/-- The bookkeeping after an error has ended the innermost calls. -/
def TracingSt.caught (s : TracingSt) (unwound : ℕ) : TraceSt :=
  (s.frames.take unwound).foldl TraceSt.catchError s.trace

/-- The start of a query or utility call pushes an entry. -/
def TraceSt.pushesStmt (t : TraceSt) (ref : OtelSpanRef) : Bool :=
  decide (ref.v ≠ 0) && decide (t.stmtStack.length < otelStmtStackMax)

/-- The begin of a plan node, for the collectors that see it. -/
def TraceSt.nodeBegin (t : TraceSt) (planspans fdw : Option OtelSpanRef) (n : PlanNode)
    (nest : NestLevel) : TraceSt :=
  let begun := planspans.elim t fun ref => t.planspansNodeBegin n.ptr n.tag ref nest
  if n.tag = .foreignScanState then
    fdw.elim begun fun ref => begun.otelFdwScanBegin n.ptr ref nest
  else
    begun

/-- The end of a plan node, as the end walk of its query sees it. -/
def TraceSt.nodeEnd (planspans : Bool) (t : TraceSt) (n : PlanNode) : TraceSt :=
  let ended := if planspans then t.planspansNodeEnd n.ptr n.tag else t
  if n.tag = .foreignScanState then ended.otelFdwScanEnd n.ptr else ended

/-- The query dies with an abort of the innermost level. -/
def TracingSt.dies (s : TracingSt) (dead : List Ptr) (q : Query) : Bool :=
  match s.levels with
  | [] => false
  | top :: rest => decide (q.ptr ∈ dead) || decide (q.sub ∈ top.members) || rest.isEmpty

/-- The call goes on after an abort of the innermost level: what it runs lives, and it began outside
of the level or is the utility call that ends the transaction. -/
def TracingSt.goesOn (s : TracingSt) (dead : List Ptr) (f : CallFrame) : Bool :=
  match s.levels with
  | [] => true
  | top :: rest =>
    (f.query.all fun p => s.queries.any fun q => q.ptr = p && !s.dies dead q) &&
      (rest.isEmpty || decide (f.sub ∉ top.members))

/-- When core does this. -/
def TracingAct.Enabled (s : TracingSt) : TracingAct → Prop
  | .begin => s.levels = []
  | .savepoint => s.InProgress
  | .release => ∃ top parent rest, s.levels = top :: parent :: rest ∧ top.aborted = false ∧
      ∀ f ∈ s.frames, f.sub ∉ top.members
  | .commit _ => (∃ top, s.levels = [top] ∧ top.aborted = false) ∧ s.queries = []
  | .abort unwound dead => s.InProgress ∧ (unwound = 0 → dead = []) ∧
      (∀ f ∈ s.frames.take unwound, ∀ p ∈ f.query, p ∈ dead) ∧
      ∀ f ∈ s.frames.drop unwound, s.goesOn dead f = true
  | .cleanup => ∃ top rest, s.levels = top :: rest ∧ top.aborted = true
  | .executorStart addr _ _ => s.InProgress ∧ s.FreeAddr addr
  | .nodeBegin query addr _ _ _ => s.InProgress ∧ (∃ q ∈ s.queries, q.ptr = query) ∧
      ∀ n ∈ s.planNodes, n.ptr.addr ≠ addr
  | .nodeEnd query node => s.InProgress ∧
      ∃ q ∈ s.queries, q.ptr = query ∧ ⟨node, .foreignScanState⟩ ∈ q.nodes
  | .executorEnd query _ => s.InProgress ∧ (∃ q ∈ s.queries, q.ptr = query) ∧
      ∀ f ∈ s.frames, f.query ≠ some query
  | .runBegin query => s.InProgress ∧ (∃ q ∈ s.queries, q.ptr = query) ∧
      ∀ f ∈ s.frames, f.query ≠ some query
  | .runEnd => ∃ query sub rest, s.frames = .run query sub :: rest
  | .utilityBegin addr _ _ => s.levels ≠ [] ∧ s.FreeAddr addr
  | .utilityEnd => ∃ token toplevel sub rest, s.frames = .utility token toplevel sub :: rest
  | .errorWhenAborted unwound => (∃ top rest, s.levels = top :: rest ∧ top.aborted = true) ∧
      ∀ f ∈ s.frames.take unwound, f.query = none

def TracingSt.next (s : TracingSt) : TracingAct → TracingSt
  | .begin => { s with levels := [{ id := s.nextSub }], nextSub := s.nextSub + 1 }
  | .savepoint => { s with levels := { id := s.nextSub } :: s.levels, nextSub := s.nextSub + 1 }
  | .release =>
    match s.levels with
    | top :: parent :: rest =>
      { s with
        levels := { parent with absorbed := top.members ++ parent.absorbed } :: rest
        trace := s.trace.otelPgtracingSubxactCallback .commitSub s.currentLevel.level }
    | _ => s
  | .commit prepare =>
    { s with
      levels := []
      trace := s.trace.otelPgtracingXactCallback (if prepare then .prepare else .commit) }
  | .abort unwound dead =>
    match s.levels with
    | [] => s
    | top :: rest =>
      { s with
        levels := { top with aborted := true } :: rest
        queries := s.queries.filter fun q => !s.dies dead q
        frames := s.frames.drop unwound
        trace := if rest.isEmpty then (s.caught unwound).otelPgtracingXactCallback .abort
          else (s.caught unwound).otelPgtracingSubxactCallback .abortSub s.currentLevel.level }
  | .cleanup => { s with levels := s.levels.tail }
  | .executorStart addr isCursor ref =>
    { s with
      queries := { ptr := s.newPtr addr
                   sub := s.currentLevel.sub
                   pushed := if s.trace.pushesStmt ref then some ref else none } :: s.queries
      nextObj := s.nextObj + 1
      trace := (s.trace.pushStmtSpan (s.newPtr addr) ref isCursor s.currentLevel).1 }
  | .nodeBegin query addr tag planspans fdw =>
    { s with
      queries := s.queries.map fun q =>
        if q.ptr = query then { q with nodes := ⟨s.newPtr addr, tag⟩ :: q.nodes } else q
      nextObj := s.nextObj + 1
      trace := s.trace.nodeBegin planspans fdw ⟨s.newPtr addr, tag⟩ s.currentLevel }
  | .nodeEnd query node =>
    { s with
      queries := s.queries.map fun q =>
        if q.ptr = query then { q with nodes := q.nodes.filter fun n => n.ptr ≠ node } else q
      trace := s.trace.otelFdwScanEnd node }
  | .executorEnd query planspans =>
    let ended := s.queries.filter fun q => q.ptr = query
    { s with
      queries := s.queries.filter fun q => q.ptr ≠ query
      trace := (ended.flatMap Query.nodes).foldl (TraceSt.nodeEnd planspans)
        (s.trace.popStmtSpan query).1 }
  | .runBegin query => { s with frames := .run query s.currentLevel.sub :: s.frames }
  | .runEnd => { s with frames := s.frames.tail }
  | .utilityBegin addr toplevel ref =>
    { s with
      frames := .utility (s.newPtr addr) toplevel s.currentLevel.sub :: s.frames
      nextObj := s.nextObj + 1
      trace := if toplevel then
        (s.trace.pushStmtSpan (s.newPtr addr) ref false s.currentLevel).1 else s.trace }
  | .utilityEnd =>
    match s.frames with
    | f :: rest => { s with frames := rest, trace := s.trace.catchError f }
    | [] => s
  | .errorWhenAborted unwound =>
    { s with frames := s.frames.drop unwound, trace := s.caught unwound }

/-- The backend with its tracing hooks. -/
def tracing : Machine TracingSt TracingAct where
  init := {}
  enabled s a := a.Enabled s
  next := TracingSt.next

end PostgresOtel
