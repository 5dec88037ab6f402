import PostgresOtel.Context.Traceparent
import PostgresOtel.Trace.Untraced

/-!
# The parents of statement spans

`start_stmt_span` takes a statement for outermost if the statement stack is empty.  The stack also
holds cursors and portals that are open between statements, leaves out statements whose spans were
refused, and is emptied by an abort inside of a procedure, so that a statement can be outermost with
entries on the stack, or run inside another one with none.  It matters whenever a span is active.
-/

set_option autoImplicit false

namespace PostgresOtel

open KeyedStack TraceSt

/-! ## The parent a statement should have -/

/-- Who a parent is; the tracestate in force may be added to a context on the way. -/
def ResolvedParent.identity : ResolvedParent → ResolvedParent
  | .remote ctx => .remote { ctx with tracestate := Option.none }
  | p => p

/-- The client's root context if one is in force, or none, which begins a new trace. -/
def clientParent (env : Env) : ResolvedParent :=
  if env.rootCtx.isSet then .remote env.rootCtx.ctx else ResolvedParent.none

/-- The start of a statement's span: whether the statement is executed inside another one, what the
hook finds and what it asks for. -/
structure StmtStart where
  inside : Bool
  found : Surroundings
  args : OtelSpanStartArgs

/-- The parent a statement should have. -/
def StmtStart.due (e : StmtStart) : ResolvedParent :=
  if e.inside then activeParent e.found.env e.found.life else clientParent e.found.env

/-- The parent that the producer finds for the arguments is the one the statement should have. -/
def StmtStart.WellParented (e : StmtStart) : Prop :=
  ∃ p, parentOf e.found.env e.args e.found.life = some p ∧ p.identity = e.due.identity

/-! ## Runs with the starts of statement spans -/

/-- A step of the backend, with what its hook finds if it starts a statement. -/
structure StmtStep where
  act : TracingAct
  found : Surroundings
  gucs : TraceGucs := {}
  name : Option CString := none

namespace StmtStep

variable (s : TracingSt) (x : StmtStep)

/-- What `otel_ExecutorStart` or `otel_ProcessUtility` asks for. -/
def request : Option OtelSpanStartArgs :=
  match x.act with
  | .executorStart _ isCursor _ =>
    startStmtSpan x.found x.gucs s.trace (some (cstr "pgsql.execute")) isCursor
  | .utilityBegin _ true _ => startStmtSpan x.found x.gucs s.trace x.name false
  | _ => none

/-- The handle that the step has for a statement's span. -/
def handle : OtelSpanRef :=
  match x.act with
  | .executorStart _ _ ref => ref
  | .utilityBegin _ true ref => ref
  | _ => otelSpanNone

/-- The statement is executed inside another one: below a call in progress, or in a parallel worker,
which executes a part of its leader's statement. -/
def Inside : Prop := s.frames ≠ [] ∨ x.found.env.isParallelWorker = true

instance : Decidable (x.Inside s) := inferInstanceAs (Decidable (_ ∨ _))

/-- The starts of statement spans in a step. -/
def starts : List StmtStart :=
  (asked x.found (x.request s)).map fun e => ⟨decide (x.Inside s), e.1, e.2⟩

/-- A handle answers a request, and a root context in force was read from a `traceparent`. -/
def Enabled : Prop :=
  (x.handle.v ≠ 0 → x.starts s ≠ []) ∧
    (x.found.env.rootCtx.isSet = true →
      ∃ text, otelTraceparentParse text = some x.found.env.rootCtx.ctx)

end StmtStep

/-- The backend with the starts of its statements' spans. -/
def statements : Machine (TracingSt × List StmtStart) StmtStep :=
  tracing.extend [] (fun x => some x.act) (fun p x => x.Enabled p.1)
    fun p x => p.2 ++ x.starts p.1

/-- The hook of the step may start a statement's span. -/
def TracingAct.StartsStmt : TracingAct → Prop
  | .executorStart _ _ _ => True
  | .utilityBegin _ toplevel _ => toplevel = true
  | _ => False

/-- When a statement starts, the statement stack says whether it is executed inside another one,
unless that makes no difference, because no span is active or the process is a parallel worker. -/
def StmtStep.NestingKnown (s : TracingSt) (x : StmtStep) : Prop :=
  x.act.StartsStmt → (s.trace.stmtStack ≠ [] ↔ s.frames ≠ []) ∨ x.found.life.spanStack = [] ∨
    x.found.env.isParallelWorker = true

/-! ## One start -/

section

variable {env : Env} {m : Surroundings} {gucs : TraceGucs} {t : TraceSt} {name : Option CString}
  {detached : Bool} {args : OtelSpanStartArgs}

/-- The client's context is what is active when no span is, and only then. -/
theorem identity_active_eq_client (hworker : env.isParallelWorker = false) (c : Lifecycle) :
    (activeParent env c).identity = (clientParent env).identity ↔ c.spanStack = [] := by
  cases hstack : c.spanStack with
  | nil =>
    refine iff_of_true ?_ rfl
    cases hset : env.rootCtx.isSet <;>
      simp [activeParent, hstack, remoteContext, hworker, hset, clientParent, ResolvedParent.identity]
  | cons top rest =>
    apply iff_of_false _ (List.cons_ne_nil _ _)
    cases htop : top.entry <;> cases hset : env.rootCtx.isSet <;>
      simp [activeParent, hstack, resolveFromEntry, htop, clientParent, hset, ResolvedParent.identity]

/-- A request is for the client's context from an empty statement stack, and otherwise for what is
active. -/
theorem parentOf_startStmtSpan
    (hvalid : m.env.rootCtx.isSet = true → otelSpanContextIsValid m.env.rootCtx.ctx = true)
    (h : startStmtSpan m gucs t name detached = some args) :
    parentOf m.env args m.life = some (if t.stmtStack = [] ∧ m.env.isParallelWorker = false then
      clientParent m.env else activeParent m.env m.life) := by
  unfold startStmtSpan at h
  simp only [List.isEmpty_iff] at h
  by_cases hgated : m.haveContext = false ∧ gucs.traceAllQueries = false
  · rw [if_pos hgated] at h
    cases h
  rw [if_neg hgated] at h
  by_cases houter : t.stmtStack = [] ∧ m.env.isParallelWorker = false
  · rw [if_pos houter] at h ⊢
    obtain rfl := Option.some.inj h
    cases hset : m.env.rootCtx.isSet with
    | true => simp [parentOf, clientParent, hset, hvalid hset, Option.filter]
    | false => simp [parentOf, clientParent, hset]
  · rw [if_neg houter] at h ⊢
    obtain rfl := Option.some.inj h
    rfl

end

theorem eq_some_of_mem_asked {m : Surroundings} {args : Option OtelSpanStartArgs}
    {e : Surroundings × OtelSpanStartArgs} (h : e ∈ asked m args) : args = some e.2 := by
  unfold asked at h
  cases args with
  | none => simp at h
  | some a =>
    split_ifs at h
    · obtain rfl := List.mem_singleton.1 h
      rfl
    · exact absurd h List.not_mem_nil

/-- The parent of a statement's span as `start_stmt_span` infers it. -/
theorem parentOf_start {s : TracingSt} {x : StmtStep} (hen : x.Enabled s) {e : StmtStart}
    (he : e ∈ x.starts s) :
    x.act.StartsStmt ∧ e.found = x.found ∧ e.inside = decide (x.Inside s) ∧
      parentOf x.found.env e.args x.found.life =
        some (if s.trace.stmtStack = [] ∧ x.found.env.isParallelWorker = false then
          clientParent x.found.env else activeParent x.found.env x.found.life) := by
  obtain ⟨⟨m, args⟩, hasked, rfl⟩ := List.mem_map.1 he
  have hvalid : x.found.env.rootCtx.isSet = true →
      otelSpanContextIsValid x.found.env.rootCtx.ctx = true := by
    intro hset
    obtain ⟨text, htext⟩ := hen.2 hset
    exact otelTraceparentParse_valid htext
  have hrequest : x.request s = some args := eq_some_of_mem_asked hasked
  unfold StmtStep.request at hrequest
  split at hrequest
  · next hact =>
    rw [hact]
    exact ⟨trivial, mem_asked hasked, rfl, parentOf_startStmtSpan hvalid hrequest⟩
  · next hact =>
    rw [hact]
    exact ⟨rfl, mem_asked hasked, rfl, parentOf_startStmtSpan hvalid hrequest⟩
  · cases hrequest

/-- The span of a statement gets the parent it should have, if and only if the nesting is known. -/
theorem wellParented_iff {s : TracingSt} {x : StmtStep} (hen : x.Enabled s) {e : StmtStart}
    (he : e ∈ x.starts s) : e.WellParented ↔ x.NestingKnown s := by
  obtain ⟨hstarts, hfound, hinside, hparent⟩ := parentOf_start hen he
  have hiff : e.WellParented ↔ (if s.trace.stmtStack = [] ∧ x.found.env.isParallelWorker = false then
      clientParent x.found.env else activeParent x.found.env x.found.life).identity =
        e.due.identity := by
    rw [StmtStart.WellParented, hfound, hparent]
    exact ⟨fun ⟨p, hp, hid⟩ => Option.some.inj hp ▸ hid, fun hid => ⟨_, rfl, hid⟩⟩
  rw [hiff, StmtStart.due, hfound, hinside, StmtStep.NestingKnown, forall_prop_of_true hstarts]
  cases hworker : x.found.env.isParallelWorker with
  | true => simp [StmtStep.Inside, hworker]
  | false =>
    have hsame := identity_active_eq_client hworker x.found.life
    by_cases hstack : s.trace.stmtStack = [] <;> by_cases hframes : s.frames = []
    · simp [StmtStep.Inside, hworker, hstack, hframes]
    · simp [StmtStep.Inside, hworker, hstack, hframes, eq_comm, hsame]
    · simp [StmtStep.Inside, hworker, hstack, hframes, hsame]
    · simp [StmtStep.Inside, hworker, hstack, hframes]

/-- In runs in which the nesting of every statement is known when it starts, the span of a statement
that is not executed inside another one has the client's root context as its parent or begins a new
trace, and the span of any other statement has the parent that is active when it starts. -/
theorem statement_parents {p : TracingSt × List StmtStart}
    (h : statements.ReachBy (fun p x => x.NestingKnown p.1) p) : ∀ e ∈ p.2, e.WellParented := by
  apply Machine.ReachBy.invariant (I := fun p => ∀ e ∈ p.2, e.WellParented) _ _ h
  · exact fun _ he => absurd he List.not_mem_nil
  · intro p x hp hen hknown e he
    rcases List.mem_append.1 he with he | he
    · exact hp e he
    · exact (wellParented_iff hen.2 he).2 hknown

/-! ## Single runs -/

theorem enabled_statements {p : TracingSt × List StmtStart} {x : StmtStep} (h : x.act.Enabled p.1)
    (hx : x.Enabled p.1) : statements.enabled p x :=
  ⟨fun _ ha => by cases ha; exact h, hx⟩

/-- The client's context was sent as text. -/
theorem parsed_idleWithRoot :
    ∃ text, otelTraceparentParse text = some idleWithRoot.env.rootCtx.ctx :=
  ⟨_, @otelTraceparentParse_format { traceId := 1, spanId := 1 } rfl⟩

/-- A step that finds the span in slot 0 active, and the client's context. -/
def inSpan (act : TracingAct) : StmtStep := { act, found := inStatement }

/-- A step that finds the client's context and no span. -/
def inRequest (act : TracingAct) : StmtStep := { act, found := idleWithRoot }

/-- A query that runs another one. -/
def nestedQueries : List StmtStep :=
  [inRequest .begin, inRequest (.executorStart 1 false ⟨1⟩), inSpan (.runBegin ⟨1, 0⟩),
    inSpan (.executorStart 2 false ⟨2⟩)]

/-- `DECLARE CURSOR`, whose portal stays open, and then a query while a span of the probe bridge is
active. -/
def queryAfterDeclare : List StmtStep :=
  [inRequest .begin, inRequest (.utilityBegin 1 true ⟨1⟩), inSpan (.executorStart 2 true ⟨2⟩),
    inSpan .utilityEnd, inSpan (.executorStart 3 false ⟨3⟩)]

/-- A procedure that is called while a span of the probe bridge is active; it ends its transaction
with `ROLLBACK` and then runs a query. -/
def queryAfterRollback : List StmtStep :=
  [inSpan .begin, inSpan (.utilityBegin 1 true ⟨1⟩), inSpan (.abort 0 []), inSpan .cleanup,
    inSpan .begin, inSpan (.executorStart 2 false ⟨2⟩)]

/-- A step whose hook starts no statement. -/
theorem enabled_quiet {p : TracingSt × List StmtStart} {x : StmtStep}
    (hctx : ∃ text, otelTraceparentParse text = some x.found.env.rootCtx.ctx)
    (h : x.act.Enabled p.1) (hquiet : x.handle = otelSpanNone) : statements.enabled p x :=
  enabled_statements h ⟨fun hne => absurd (by rw [hquiet]; rfl) hne, fun _ => hctx⟩

theorem statement_parents_nestedQueries :
    (nestedQueries.foldl statements.next ({}, [])).2.map (fun e => (e.inside, e.due)) =
      [(false, .remote { traceId := 1, spanId := 1 }), (true, .slot 0)] ∧
    ∀ e ∈ (nestedQueries.foldl statements.next ({}, [])).2, e.WellParented := by
  have hctx := parsed_idleWithRoot
  have hrun : statements.Admits (fun p x => x.NestingKnown p.1) ({}, []) nestedQueries := by
    refine ⟨enabled_quiet hctx rfl rfl, False.elim, enabled_statements ?_ ⟨?_, fun _ => hctx⟩,
      fun _ => .inr (.inl rfl), enabled_quiet hctx ?_ rfl, False.elim,
      enabled_statements ?_ ⟨?_, fun _ => hctx⟩, fun _ => .inl ?_, trivial⟩
    · exact ⟨⟨_, _, rfl, rfl⟩, by decide⟩
    · exact fun _ => List.cons_ne_nil _ _
    · exact ⟨⟨_, _, rfl, rfl⟩, ⟨_, List.mem_cons_self, rfl⟩, fun _ hf => absurd hf List.not_mem_nil⟩
    · exact ⟨⟨_, _, rfl, rfl⟩, by decide⟩
    · exact fun _ => List.cons_ne_nil _ _
    · exact iff_of_true (List.cons_ne_nil _ _) (List.cons_ne_nil _ _)
  exact ⟨rfl, statement_parents (Machine.ReachBy.run .init hrun)⟩

theorem reachable_queryAfterDeclare :
    statements.Reachable (queryAfterDeclare.foldl statements.next ({}, [])) := by
  have hctx := parsed_idleWithRoot
  refine Machine.ReachBy.run (m := statements) .init ⟨enabled_quiet hctx rfl rfl, trivial,
    enabled_statements ?_ ⟨?_, fun _ => hctx⟩, trivial,
    enabled_statements ?_ ⟨?_, fun _ => hctx⟩, trivial, enabled_quiet hctx ⟨_, _, _, _, rfl⟩ rfl, trivial,
    enabled_statements ?_ ⟨?_, fun _ => hctx⟩, trivial, trivial⟩
  · exact ⟨List.cons_ne_nil _ _, by decide⟩
  · exact fun _ => List.cons_ne_nil _ _
  · exact ⟨⟨_, _, rfl, rfl⟩, by decide⟩
  · exact fun _ => List.cons_ne_nil _ _
  · exact ⟨⟨_, _, rfl, rfl⟩, by decide⟩
  · exact fun _ => List.cons_ne_nil _ _

theorem reachable_queryAfterRollback :
    statements.Reachable (queryAfterRollback.foldl statements.next ({}, [])) := by
  have hctx := parsed_idleWithRoot
  refine Machine.ReachBy.run (m := statements) .init ⟨enabled_quiet hctx rfl rfl, trivial,
    enabled_statements ?_ ⟨?_, fun _ => hctx⟩, trivial, enabled_quiet hctx ?_ rfl, trivial,
    enabled_quiet hctx ⟨_, _, rfl, rfl⟩ rfl, trivial, enabled_quiet hctx rfl rfl, trivial,
    enabled_statements ?_ ⟨?_, fun _ => hctx⟩, trivial, trivial⟩
  · exact ⟨List.cons_ne_nil _ _, by decide⟩
  · exact fun _ => List.cons_ne_nil _ _
  · exact ⟨⟨_, _, rfl, rfl⟩, fun _ => rfl, fun _ hf => absurd hf List.not_mem_nil, by decide⟩
  · exact ⟨⟨_, _, rfl, rfl⟩, by decide⟩
  · exact fun _ => List.cons_ne_nil _ _

/-- With a cursor open, the server span of the next query gets the bridge's span as its parent
although the client has sent a context; after a procedure's `ROLLBACK`, the query it runs gets the
client's context although a span is active. -/
theorem nesting_mistaken :
    (statements.Reachable (queryAfterDeclare.foldl statements.next ({}, [])) ∧
      ∃ e ∈ (queryAfterDeclare.foldl statements.next ({}, [])).2, e.inside = false ∧
      e.found.env.rootCtx.isSet = true ∧
      parentOf e.found.env e.args e.found.life = some (.slot 0) ∧ ¬ e.WellParented) ∧
    statements.Reachable (queryAfterRollback.foldl statements.next ({}, [])) ∧
    ∃ e ∈ (queryAfterRollback.foldl statements.next ({}, [])).2, e.inside = true ∧
      activeParent e.found.env e.found.life = .slot 0 ∧
      parentOf e.found.env e.args e.found.life = some (.remote { traceId := 1, spanId := 1 }) ∧
      ¬ e.WellParented := by
  refine ⟨⟨reachable_queryAfterDeclare, _,
      List.mem_cons_of_mem _ (List.mem_cons_of_mem _ List.mem_cons_self), rfl, rfl, rfl, ?_⟩,
    reachable_queryAfterRollback, _, List.mem_cons_of_mem _ List.mem_cons_self, rfl, rfl, rfl, ?_⟩
  · rintro ⟨p, hp, hid⟩
    obtain rfl := Option.some.inj hp
    cases hid
  · rintro ⟨p, hp, hid⟩
    obtain rfl := Option.some.inj hp
    cases hid

end PostgresOtel
