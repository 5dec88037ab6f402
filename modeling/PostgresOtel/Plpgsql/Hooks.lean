import Mathlib.Logic.Function.Iterate
import PostgresOtel.Client.Spans
import PostgresOtel.Lib.Machine

/-!
# The PL/pgSQL plugin

The callbacks of `otel_plpgsql.c` and the core they are called from: invocations with their open
statements and subtransactions, errors that unwind to the innermost subtransaction or to top level,
and transaction control in procedures.

A registry and a statement stack are lists from the top.  Core unwinds invocations and statements
without calling the plugin, so what the plugin keeps for them is stale from then on.
-/

set_option autoImplicit false

namespace PostgresOtel

/-! ## The state -/

/-- `PlpgsqlSessionSpan`. -/
structure PlpgsqlSessionSpan where
  span : OtelSpanRef
  nestLevel : ℕ
  deriving DecidableEq

/-- `PlpgsqlStmtSpan`. -/
structure PlpgsqlStmtSpan where
  stmtid : ℕ
  span : OtelSpanRef
  deriving DecidableEq

/-- `PLPGSQL_STMT_STACK_INIT_CAPACITY`. -/
def plpgsqlStmtStackInitCapacity : ℕ := 8

/-- `PlpgsqlSpanState`. -/
structure PlpgsqlSpanState where
  funcSpan : OtelSpanRef := otelSpanNone
  useSessionOwner : Bool := false
  capacity : ℕ := plpgsqlStmtStackInitCapacity
  stack : List PlpgsqlStmtSpan := []
  deriving DecidableEq

/-- What an invocation has open: a statement, with the handle `stmt_beg` got for it, or a
subtransaction, which an `EXCEPTION` block or code called from here has begun. -/
inductive Block
  | stmt (stmtid : ℕ) (opened : OtelSpanRef)
  | subxact
  deriving DecidableEq

def Block.isStmt : Block → Bool
  | .stmt _ _ => true
  | .subxact => false

/-- An invocation: `estate->atomic`, `estate->plugin_info` and what is open, innermost first. -/
structure Frame where
  atomic : Bool
  pluginInfo : Option PlpgsqlSpanState
  blocks : List Block := []
  deriving DecidableEq

/-- The subtransactions among blocks. -/
def subxacts (blocks : List Block) : ℕ := blocks.count .subxact

/-- `GetCurrentTransactionNestLevel`, with `savepoints` below the invocations. -/
def nestLevel (savepoints : ℕ) : List Frame → ℕ
  | [] => savepoints + 1
  | f :: fs => subxacts f.blocks + nestLevel savepoints fs

/-- The invocations on the C stack, innermost first, the savepoints below them, the static variables
of the module (a capacity of `0` stands for the `NULL` array), and the producer.  `forgets` records
each handle `session_forget` was called with and the one it removed. -/
structure PlpgsqlSt where
  frames : List Frame := []
  savepoints : ℕ := 0
  sessionStack : List PlpgsqlSessionSpan := []
  sessionCapacity : ℕ := 0
  spans : Spans := {}
  forgets : List (OtelSpanRef × Option OtelSpanRef) := []
  deriving DecidableEq

/-- An allocation of the module that fails, if it is made. -/
inductive Oom
  | never
  | registry
  | stmtStack
  deriving DecidableEq

inductive ResourceReleasePhase
  | beforeLocks | locks | afterLocks
  deriving DecidableEq

namespace PlpgsqlSt

def level (s : PlpgsqlSt) : ℕ := nestLevel s.savepoints s.frames

/-- The innermost invocation changes. -/
def modifyFrame (s : PlpgsqlSt) (f : Frame → Frame) : PlpgsqlSt :=
  match s.frames with
  | [] => s
  | g :: fs => { s with frames := f g :: fs }

/-! ## The registry -/

/-- The capacity after growing. -/
def grow (capacity : ℕ) : ℕ := if capacity = 0 then 8 else capacity * 2

/-- `otel_plpgsql_session_push`, and whether it raises. -/
def sessionPush (oom : Oom) (span : OtelSpanRef) (s : PlpgsqlSt) : PlpgsqlSt × Bool :=
  if span.v = 0 then
    (s, false)
  else if s.sessionStack.length = s.sessionCapacity ∧ oom = .registry then
    ({ s with sessionCapacity := grow s.sessionCapacity }, true)
  else
    ({ s with
        sessionCapacity :=
          if s.sessionStack.length = s.sessionCapacity then grow s.sessionCapacity
          else s.sessionCapacity
        sessionStack := ⟨span, s.level⟩ :: s.sessionStack }, false)

/-- `otel_plpgsql_session_forget`. -/
def sessionForget (span : OtelSpanRef) (s : PlpgsqlSt) : PlpgsqlSt :=
  if span.v = 0 then
    s
  else
    { s with
      sessionStack := s.sessionStack.tail
      forgets := s.forgets ++ [(span, s.sessionStack.head?.map PlpgsqlSessionSpan.span)] }

/-- The loop of the release callback: entries of at least this level are ended from the top. -/
def drain (level : ℕ) : List PlpgsqlSessionSpan → Spans → List PlpgsqlSessionSpan × Spans
  | [], spans => ([], spans)
  | e :: rest, spans =>
    if level ≤ e.nestLevel then drain level rest (spans.finish e.span) else (e :: rest, spans)

/-- `otel_plpgsql_resource_release_callback`. -/
def resourceReleaseCallback (phase : ResourceReleasePhase) (isCommit : Bool) (s : PlpgsqlSt) :
    PlpgsqlSt :=
  if isCommit ∨ phase ≠ .afterLocks then
    s
  else
    let drained := drain s.level s.sessionStack s.spans
    { s with sessionStack := drained.1, spans := drained.2 }

/-! ## The plugin's callbacks -/

/-- `otel_span_start` with the module's owner. -/
def startSpan (session opens : Bool) (s : PlpgsqlSt) : PlpgsqlSt × OtelSpanRef :=
  if opens then
    ({ s with spans := s.spans.start session s.level false }, spanHandle s.spans.count)
  else
    (s, otelSpanNone)

/-- `otel_plpgsql_func_setup`: `tracing` is the module's switch together with
`otel_recording_possible`. -/
def funcSetup (tracing : Bool) : Option PlpgsqlSpanState := if tracing then some {} else none

/-- The span of a function or statement is started and, in a nonatomic invocation, registered. -/
def openRegistered (session opens : Bool) (oom : Oom) (s : PlpgsqlSt) :
    (PlpgsqlSt × Bool) × OtelSpanRef :=
  let started := s.startSpan session opens
  (if session then started.1.sessionPush oom started.2 else (started.1, false), started.2)

/-- `otel_plpgsql_func_beg`, for the innermost invocation. -/
def funcBeg (opens : Bool) (oom : Oom) (s : PlpgsqlSt) : PlpgsqlSt × Bool :=
  match s.frames with
  | { atomic, pluginInfo := some st, .. } :: _ =>
    let r := s.openRegistered (!atomic) opens oom
    (r.1.1.modifyFrame fun f =>
      { f with pluginInfo := some { st with useSessionOwner := !atomic, funcSpan := r.2 } }, r.1.2)
  | _ => (s, false)

/-- The forget and the end of a span whose function or statement has ended. -/
def endSpan (useSessionOwner : Bool) (span : OtelSpanRef) (s : PlpgsqlSt) : PlpgsqlSt :=
  let s := if useSessionOwner then s.sessionForget span else s
  { s with spans := s.spans.finish span }

/-- `otel_plpgsql_func_end`. -/
def funcEnd (s : PlpgsqlSt) : PlpgsqlSt :=
  match s.frames with
  | { pluginInfo := some st, .. } :: _ =>
    (s.endSpan st.useSessionOwner st.funcSpan).modifyFrame fun f =>
      { f with pluginInfo := some { st with stack := [], funcSpan := otelSpanNone } }
  | _ => s

/-- `otel_plpgsql_stack_push`, and whether it raises. -/
def stackPush (stmtid : ℕ) (span : OtelSpanRef) (oom : Oom) (st : PlpgsqlSpanState) :
    PlpgsqlSpanState × Bool :=
  if st.stack.length = st.capacity then
    if oom = .stmtStack then
      ({ st with capacity := st.capacity * 2 }, true)
    else
      ({ st with capacity := st.capacity * 2, stack := ⟨stmtid, span⟩ :: st.stack }, false)
  else
    ({ st with stack := ⟨stmtid, span⟩ :: st.stack }, false)

/-- `otel_plpgsql_stmt_beg`, whether it raises, and the handle it got.  `typenameRaises`: looking up
`plpgsql_stmt_typename` raises. -/
def stmtBeg (stmtid : ℕ) (traceStatements opens typenameRaises : Bool) (oom : Oom)
    (s : PlpgsqlSt) : (PlpgsqlSt × Bool) × OtelSpanRef :=
  match s.frames with
  | { pluginInfo := some st, .. } :: _ =>
    let r := if traceStatements then s.openRegistered st.useSessionOwner opens oom
      else ((s, false), otelSpanNone)
    if r.1.2 ∨ (typenameRaises ∧ traceStatements ∧ opens) then
      ((r.1.1, true), r.2)
    else
      let pushed := stackPush stmtid r.2 oom st
      ((r.1.1.modifyFrame fun f => { f with pluginInfo := some pushed.1 }, pushed.2), r.2)
  | _ => ((s, false), otelSpanNone)

/-- `otel_plpgsql_stmt_end`. -/
def stmtEnd (stmtid : ℕ) (s : PlpgsqlSt) : PlpgsqlSt :=
  match s.frames with
  | { pluginInfo := some st, .. } :: _ =>
    match st.stack.dropWhile fun e => e.stmtid ≠ stmtid with
    | [] => s.modifyFrame fun f => { f with pluginInfo := some { st with stack := [] } }
    | e :: rest =>
      (s.endSpan st.useSessionOwner e.span).modifyFrame fun f =>
        { f with pluginInfo := some { st with stack := rest } }
  | _ => s

/-! ## Core -/

/-- `ResourceOwnerRelease` of a whole (sub)transaction: in each phase the owners' spans, then the
callback, once for every owner. -/
def resourceOwnerRelease (isCommit : Bool) (owners : ℕ) (s : PlpgsqlSt) : PlpgsqlSt :=
  let callbacks (phase : ResourceReleasePhase) := (resourceReleaseCallback phase isCommit)^[owners + 1]
  let released := { s with spans := s.spans.release isCommit s.level }
  callbacks .afterLocks (callbacks .locks (callbacks .beforeLocks released))

/-- The invocations that are left when the innermost subtransaction has caught an error, if one of
them has begun a subtransaction. -/
def unwind : List Frame → Option (List Frame)
  | [] => none
  | f :: fs =>
    match f.blocks.dropWhile Block.isStmt with
    | [] => unwind fs
    | _ :: blocks => some ({ f with blocks := blocks } :: fs)

/-- An `ERROR`: the innermost subtransaction, or else the transaction, is aborted. -/
def raise (owners : ℕ) (s : PlpgsqlSt) : PlpgsqlSt :=
  let released := s.resourceOwnerRelease false owners
  match unwind s.frames with
  | some frames => { released with frames := frames, savepoints := s.savepoints }
  | none => { released with frames := [], savepoints := s.savepoints - 1 }

/-- After a callback: the error it raised, if any, else what core does next. -/
def orThrow (owners : ℕ) (r : PlpgsqlSt × Bool) (k : PlpgsqlSt → PlpgsqlSt) : PlpgsqlSt :=
  if r.2 then r.1.raise owners else k r.1

end PlpgsqlSt

open PlpgsqlSt

/-- What core does. -/
inductive PlpgsqlAct
  | funcBegin (atomic tracing opens : Bool) (oom : Oom) (owners : ℕ)
  | funcEnd
  | stmtBegin (stmtid : ℕ) (traceStatements opens typenameRaises : Bool) (oom : Oom) (owners : ℕ)
  | stmtEnd
  | subxactBegin
  | subxactCommit (owners : ℕ)
  | error (owners : ℕ)
  /-- `COMMIT` and `ROLLBACK` in a procedure. -/
  | commit (owners : ℕ)
  | rollback (owners : ℕ)
  /-- The end of the transaction at top level. -/
  | xactCommit (owners : ℕ)
  deriving DecidableEq

/-- The open statements among blocks, with the handles their `stmt_beg` got. -/
def stmtsOf : List Block → List (ℕ × OtelSpanRef)
  | [] => []
  | .stmt stmtid opened :: blocks => (stmtid, opened) :: stmtsOf blocks
  | .subxact :: blocks => stmtsOf blocks

/-- When core does it.  A nonatomic invocation begins outside subtransactions and only nonatomic
ones call it; a statement does not begin inside itself; transactions are controlled from nonatomic
invocations, outside subtransactions. -/
def PlpgsqlAct.Enabled (s : PlpgsqlSt) : PlpgsqlAct → Prop
  | .funcBegin atomic _ _ _ _ =>
    atomic = false → s.level = 1 ∧ ∀ f ∈ s.frames, f.atomic = false
  | .funcEnd => ∃ f fs, s.frames = f :: fs ∧ f.blocks = []
  | .stmtBegin stmtid _ _ _ _ _ => ∃ f fs, s.frames = f :: fs ∧ stmtid ∉ (stmtsOf f.blocks).map Prod.fst
  | .stmtEnd => ∃ f fs stmtid opened blocks, s.frames = f :: fs ∧
      f.blocks = .stmt stmtid opened :: blocks
  | .subxactBegin => True
  | .subxactCommit _ => (∃ f fs blocks, s.frames = f :: fs ∧ f.blocks = .subxact :: blocks) ∨
      s.frames = [] ∧ 0 < s.savepoints
  | .error _ => True
  | .commit _ | .rollback _ => s.level = 1 ∧ ∃ f fs, s.frames = f :: fs ∧ f.atomic = false
  | .xactCommit _ => s.frames = [] ∧ s.savepoints = 0

/-- A statement or subtransaction begins in the innermost invocation, a subtransaction also outside
of one. -/
def PlpgsqlSt.pushBlock (b : Block) (s : PlpgsqlSt) : PlpgsqlSt :=
  match s.frames, b with
  | [], .subxact => { s with savepoints := s.savepoints + 1 }
  | _, _ => s.modifyFrame fun f => { f with blocks := b :: f.blocks }

def PlpgsqlSt.popBlock (s : PlpgsqlSt) : PlpgsqlSt :=
  match s.frames with
  | [] => { s with savepoints := s.savepoints - 1 }
  | _ => s.modifyFrame fun f => { f with blocks := f.blocks.tail }

def PlpgsqlSt.next (s : PlpgsqlSt) : PlpgsqlAct → PlpgsqlSt
  | .funcBegin atomic tracing opens oom owners =>
    orThrow owners
      ({ s with frames := ⟨atomic, funcSetup tracing, []⟩ :: s.frames }.funcBeg opens oom) id
  | .funcEnd =>
    let s := s.funcEnd
    { s with frames := s.frames.tail }
  | .stmtBegin stmtid traceStatements opens typenameRaises oom owners =>
    let r := s.stmtBeg stmtid traceStatements opens typenameRaises oom
    orThrow owners r.1 (pushBlock (.stmt stmtid r.2))
  | .stmtEnd =>
    match s.frames with
    | { blocks := .stmt stmtid _ :: _, .. } :: _ => (s.stmtEnd stmtid).popBlock
    | _ => s
  | .subxactBegin => s.pushBlock .subxact
  | .subxactCommit owners => (s.resourceOwnerRelease true owners).popBlock
  | .error owners => s.raise owners
  | .commit owners | .xactCommit owners => s.resourceOwnerRelease true owners
  | .rollback owners => s.resourceOwnerRelease false owners

/-- PL/pgSQL with the plugin. -/
def plpgsql : Machine PlpgsqlSt PlpgsqlAct where
  init := {}
  enabled s a := a.Enabled s
  next := PlpgsqlSt.next

end PostgresOtel
