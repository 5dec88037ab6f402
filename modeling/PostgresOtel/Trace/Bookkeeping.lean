import PostgresOtel.Lib.KeyedStack
import PostgresOtel.Producer.Dispatch

/-!
# The bookkeeping of the tracing hooks

The four static arrays of `otel_trace.c`, `otel_planspans.c` and `otel_fdw.c` and the functions that
work on them.  Where such a function starts a span, its model takes the handle that
`otel_span_start` returned; where it ends one, the model returns the handle.  Stacks are lists from
the top.
-/

set_option autoImplicit false

namespace PostgresOtel

/-- What `GetCurrentTransactionNestLevel` returned, with the subtransaction it was called in, which
the code does not see. -/
structure NestLevel where
  level : ℕ
  sub : ℕ
  deriving DecidableEq

/-- `StmtSpanEntry`. -/
structure StmtSpanEntry where
  key : Ptr
  ref : OtelSpanRef
  subxactLevel : NestLevel
  detached : Bool
  deriving DecidableEq

/-- An entry of `planspans_stack` or `fdw_scan_stack`. -/
structure NodeSpanEntry where
  node : Ptr
  ref : OtelSpanRef
  subxactLevel : NestLevel
  deriving DecidableEq

/-- What a plan node's `ExecProcNode` points to: what the executor put there, or `sortwrap_exec`. -/
inductive ExecProcNodeMtd
  | original (node : Ptr)
  | sortwrapExec
  deriving DecidableEq

/-- An entry of `sortwrap_stack`. -/
structure SortwrapEntry where
  node : Ptr
  prev : ExecProcNodeMtd
  subxactLevel : NestLevel
  deriving DecidableEq

/-- The static variables. -/
structure TraceSt where
  stmtStack : List StmtSpanEntry := []
  planspansStack : List NodeSpanEntry := []
  sortwrapStack : List SortwrapEntry := []
  fdwScanStack : List NodeSpanEntry := []
  deriving DecidableEq

/-- `OTEL_STMT_STACK_MAX`. -/
def otelStmtStackMax : ℕ := 32

/-- `OTEL_PLANSPANS_STACK_MAX`. -/
def otelPlanspansStackMax : ℕ := 16

/-- `OTEL_FDW_SCAN_STACK_MAX`. -/
def otelFdwScanStackMax : ℕ := 16

/-- The entries of a stack pushed below the current level. -/
def dropFromLevel {α : Type} (levelOf : α → NestLevel) (currentLevel : ℕ) (stack : List α) : List α :=
  stack.filter fun e => decide ((levelOf e).level < currentLevel)

namespace TraceSt

variable (s : TraceSt)

/-! ## Statements -/

/-- `push_stmt_span`, with the span it ends because the stack is full. -/
def pushStmtSpan (key : Ptr) (ref : OtelSpanRef) (detached : Bool) (nest : NestLevel) :
    TraceSt × OtelSpanRef :=
  if ref.v = 0 then
    (s, otelSpanNone)
  else if otelStmtStackMax ≤ s.stmtStack.length then
    (s, ref)
  else
    ({ s with stmtStack := ⟨key, ref, nest, detached⟩ :: s.stmtStack }, otelSpanNone)

/-- `pop_stmt_span`. -/
def popStmtSpan (key : Ptr) : TraceSt × OtelSpanRef :=
  ({ s with stmtStack := KeyedStack.remove StmtSpanEntry.key key s.stmtStack },
    ((KeyedStack.find StmtSpanEntry.key key s.stmtStack).map StmtSpanEntry.ref).getD otelSpanNone)

/-- `peek_cursor_span`. -/
def peekCursorSpan (key : Ptr) : Option OtelSpanRef :=
  match KeyedStack.find StmtSpanEntry.key key s.stmtStack with
  | some e => if e.detached then some e.ref else none
  | none => none

/-! ## Plan nodes -/

end TraceSt

/-- The node tags that the hooks tell apart. -/
inductive PlanNodeTag
  | customScanState | functionScanState | tableFuncScanState | gatherState | gatherMergeState
  | sortState | incrementalSortState | foreignScanState | other
  deriving DecidableEq

/-- `planspans_span_name`. -/
def planspansSpanName : PlanNodeTag → Option CString
  | .customScanState => some (cstr "pg.customscan")
  | .functionScanState => some (cstr "pg.funcscan")
  | .tableFuncScanState => some (cstr "pg.tablefuncscan")
  | .gatherState | .gatherMergeState => some (cstr "pg.parallel.gather")
  | _ => none

namespace TraceSt

variable (s : TraceSt)

/-- `sortwrap_find`. -/
def sortwrapFind (node : Ptr) : Option SortwrapEntry :=
  KeyedStack.find SortwrapEntry.node node s.sortwrapStack

/-- `sortwrap_exec`, up to its call of the procedure it returns here. -/
def sortwrapExec (node : Ptr) : Except CString ExecProcNodeMtd :=
  match s.sortwrapFind node with
  | none => .error (cstr "otel_planspans: sort node has no wrapper entry")
  | some e => .ok e.prev

/-- `planspans_node_begin`, for a node that has the procedure the executor gave it. -/
def planspansNodeBegin (node : Ptr) (tag : PlanNodeTag) (ref : OtelSpanRef) (nest : NestLevel) :
    TraceSt :=
  if tag = .sortState ∧ s.sortwrapStack.length < otelPlanspansStackMax then
    { s with sortwrapStack := ⟨node, .original node, nest⟩ :: s.sortwrapStack }
  else if (planspansSpanName tag).isNone ∨ otelPlanspansStackMax ≤ s.planspansStack.length then
    s
  else if ref.v = 0 then
    s
  else
    { s with planspansStack := ⟨node, ref, nest⟩ :: s.planspansStack }

/-- `planspans_node_end`; a sort's entry goes in `planspans_sort_span`. -/
def planspansNodeEnd (node : Ptr) (tag : PlanNodeTag) : TraceSt :=
  if tag = .sortState then
    { s with sortwrapStack := KeyedStack.remove SortwrapEntry.node node s.sortwrapStack }
  else if tag = .incrementalSortState ∨ (planspansSpanName tag).isNone then
    s
  else
    { s with planspansStack := KeyedStack.remove NodeSpanEntry.node node s.planspansStack }

/-- `otel_fdw_scan_begin`. -/
def otelFdwScanBegin (node : Ptr) (ref : OtelSpanRef) (nest : NestLevel) : TraceSt :=
  if otelFdwScanStackMax ≤ s.fdwScanStack.length then
    s
  else if ref.v = 0 then
    s
  else
    { s with fdwScanStack := ⟨node, ref, nest⟩ :: s.fdwScanStack }

/-- `otel_fdw_scan_end`. -/
def otelFdwScanEnd (node : Ptr) : TraceSt :=
  { s with fdwScanStack := KeyedStack.remove NodeSpanEntry.node node s.fdwScanStack }

/-! ## The ends of transactions -/

/-- `otel_fdw_reset`. -/
def otelFdwReset : TraceSt := { s with fdwScanStack := [] }

/-- `otel_planspans_reset`. -/
def otelPlanspansReset : TraceSt := { s with planspansStack := [], sortwrapStack := [] }

/-- `otel_pgtracing_xact_callback`. -/
def otelPgtracingXactCallback (event : XactEvent) : TraceSt :=
  match event with
  | .abort | .parallelAbort => { s with stmtStack := [] }.otelFdwReset.otelPlanspansReset
  | _ => s

/-- `otel_fdw_subxact_abort`. -/
def otelFdwSubxactAbort (event : SubXactEvent) (currentLevel : ℕ) : TraceSt :=
  if event ≠ .abortSub then
    s
  else
    { s with fdwScanStack := dropFromLevel NodeSpanEntry.subxactLevel currentLevel s.fdwScanStack }

/-- `otel_planspans_subxact_abort`. -/
def otelPlanspansSubxactAbort (event : SubXactEvent) (currentLevel : ℕ) : TraceSt :=
  if event ≠ .abortSub then
    s
  else
    { s with
      sortwrapStack := dropFromLevel SortwrapEntry.subxactLevel currentLevel s.sortwrapStack
      planspansStack := dropFromLevel NodeSpanEntry.subxactLevel currentLevel s.planspansStack }

/-- `otel_pgtracing_subxact_callback`. -/
def otelPgtracingSubxactCallback (event : SubXactEvent) (currentLevel : ℕ) : TraceSt :=
  let dropped := if event = .abortSub then
    { s with stmtStack := dropFromLevel StmtSpanEntry.subxactLevel currentLevel s.stmtStack } else s
  (dropped.otelFdwSubxactAbort event currentLevel).otelPlanspansSubxactAbort event currentLevel

/-- The abort of a subtransaction, on all four stacks. -/
theorem otelPgtracingSubxactCallback_abortSub (currentLevel : ℕ) :
    s.otelPgtracingSubxactCallback .abortSub currentLevel =
      { stmtStack := dropFromLevel StmtSpanEntry.subxactLevel currentLevel s.stmtStack
        planspansStack := dropFromLevel NodeSpanEntry.subxactLevel currentLevel s.planspansStack
        sortwrapStack := dropFromLevel SortwrapEntry.subxactLevel currentLevel s.sortwrapStack
        fdwScanStack := dropFromLevel NodeSpanEntry.subxactLevel currentLevel s.fdwScanStack } := rfl

/-- The other events of a subtransaction leave the stacks alone. -/
theorem otelPgtracingSubxactCallback_other {event : SubXactEvent} (h : event ≠ .abortSub)
    (currentLevel : ℕ) : s.otelPgtracingSubxactCallback event currentLevel = s := by
  unfold otelPgtracingSubxactCallback otelFdwSubxactAbort otelPlanspansSubxactAbort
  rw [if_neg h, if_pos h, if_pos h]

end TraceSt

end PostgresOtel
