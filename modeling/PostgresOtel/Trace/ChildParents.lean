import Mathlib.Data.List.TakeWhile
import Mathlib.Logic.Relation
import PostgresOtel.Trace.PlanSpans
import PostgresOtel.Trace.PlanwalkArray
import PostgresOtel.Trace.Untraced

/-!
# The parents of a query's child spans

The collector of `otel_planspans.c` in the two walks of a query, with the order in which it starts and
ends spans.  Scans and gathers get their spans in the begin walk; the end walk ends them on its way
down, and starts the spans of the sorts it finds below them only after that.  Both walks look for the
parent of a span by the addresses of the node's ancestors, so an entry that another query left at one
of them is taken for an ancestor's.

`child_spans_mirror_iff` says which queries get a child span under the nearest ancestor that has one.
-/

set_option autoImplicit false

namespace PostgresOtel

open KeyedStack TraceSt

/-! ## Logs -/

section Log

variable {σ ν ε : Type} (step : σ → ν → σ) (events : σ → ν → List ε)

/-- The events of a run, each from the state it finds. -/
def logOf : σ → List ν → List ε
  | _, [] => []
  | s, v :: l => events s v ++ logOf (step s v) l

theorem foldl_logged (l : List ν) (s : σ) (log : List ε) :
    l.foldl (fun (w : σ × List ε) v => (step w.1 v, w.2 ++ events w.1 v)) (s, log) =
      (l.foldl step s, log ++ logOf step events s l) := by
  induction l generalizing s log with
  | nil => simp [logOf]
  | cons v l ih => simp [logOf, ih]

theorem logOf_append (l l' : List ν) (s : σ) :
    logOf step events s (l ++ l') = logOf step events s l ++ logOf step events (l.foldl step s) l' := by
  induction l generalizing s with
  | nil => rfl
  | cons v l ih => simp [logOf, ih]

variable {step events}

/-- An event comes from the state that the run has reached. -/
theorem mem_logOf {e : ε} {s : σ} {l : List ν} (h : e ∈ logOf step events s l) :
    ∃ before v after, l = before ++ v :: after ∧ e ∈ events (before.foldl step s) v := by
  induction l generalizing s with
  | nil => exact absurd h List.not_mem_nil
  | cons v l ih =>
    rcases List.mem_append.1 h with hv | hl
    · exact ⟨[], v, l, rfl, hv⟩
    · obtain ⟨before, w, after, rfl, hw⟩ := ih hl
      exact ⟨v :: before, w, after, rfl, hw⟩

/-- An event that only one entry of the run has comes from the state the run reaches there. -/
theorem mem_logOf_at {e : ε} {s : σ} {before after : List ν} {v : ν}
    (hnodup : (before ++ v :: after).Nodup)
    (honly : ∀ t, ∀ w ∈ before ++ v :: after, e ∈ events t w → w = v) :
    e ∈ logOf step events s (before ++ v :: after) ↔ e ∈ events (before.foldl step s) v := by
  have hv : v ∉ before ++ after := (List.nodup_cons.1 (List.nodup_middle.1 hnodup)).1
  rw [List.mem_append, not_or] at hv
  rw [logOf_append, logOf, List.mem_append, List.mem_append]
  constructor
  · rintro (h | h | h)
    · obtain ⟨l₁, w, l₂, rfl, hw⟩ := mem_logOf h
      obtain rfl := honly _ w (by simp) hw
      simp at hv
    · exact h
    · obtain ⟨l₁, w, l₂, rfl, hw⟩ := mem_logOf h
      obtain rfl := honly _ w (by simp) hw
      simp at hv
  · exact fun h => .inr (.inl h)

end Log

/-- A search for the nearest node with a value of its own, which may take another node for one: it
finds what it should if it stops at no node before. -/
theorem nearest_eq_iff {ν ρ : Type} {p : ν → Bool} {own : ν → ρ} {f : ν → Option ρ} {d : ρ} {l : List ν}
    (hown : ∀ a ∈ l, p a = true → f a = some (own a))
    (hfresh : ∀ a ∈ l, p a = false → ∀ r, f a = some r → r ≠ d ∧ ∀ b ∈ l, p b = true → r ≠ own b) :
    (l.findSome? f).getD d = ((l.find? p).map own).getD d ↔
      ∀ a ∈ l.takeWhile fun a => !p a, f a = none := by
  induction l with
  | nil => simp
  | cons a l ih =>
    have ih := ih (fun b hb => hown b (List.mem_cons_of_mem _ hb)) fun b hb hp r hr =>
      ⟨(hfresh b (List.mem_cons_of_mem _ hb) hp r hr).1,
        fun c hc => (hfresh b (List.mem_cons_of_mem _ hb) hp r hr).2 c (List.mem_cons_of_mem _ hc)⟩
    cases ha : p a with
    | true => simp [ha, hown a List.mem_cons_self ha]
    | false =>
      cases hf : f a with
      | none => simpa [ha, hf] using ih
      | some r =>
        obtain ⟨hd, hown⟩ := hfresh a List.mem_cons_self ha r hf
        have hne : r ≠ ((l.find? p).map own).getD d := by
          cases hfind : l.find? p with
          | none => exact hd
          | some b =>
            have hb := List.mem_cons_of_mem a (List.mem_of_find?_eq_some hfind)
            exact hown b hb (List.find?_some hfind)
        simp [ha, hf, hne]

/-! ## The collector -/

/-- A span is started for a node, or a span ends. -/
inductive ChildEvent
  | started (node : Ptr) (parent : OtelSpanRef)
  | ended (ref : OtelSpanRef)
  deriving DecidableEq

/-- What the collector finds throughout a query: the surroundings, the handles that the calls of
`otel_span_start` return for its nodes, and the nesting level at its start. -/
structure ChildCalls where
  found : Surroundings
  refs : Ptr → OtelSpanRef
  nest : NestLevel

/-- The kinds whose spans are started in the begin walk. -/
def PlanStateInfo.spanned (n : PlanStateInfo) : Bool := (planspansSpanName n.tag).isSome

/-- The kinds whose spans are started in the end walk. -/
def PlanStateInfo.sorts (n : PlanStateInfo) : Bool :=
  decide (n.tag = .sortState ∨ n.tag = .incrementalSortState)

namespace ChildCalls

variable (c : ChildCalls)

/-- The entry of a node on the stack of child spans. -/
def entry (n : PlanStateInfo) : NodeSpanEntry := ⟨n.ptr, c.refs n.ptr, c.nest⟩

/-- The span of a node that `planspans_node_begin` starts, unless the start is refused. -/
def beginEvents (t : TraceSt) (ctx : OtelPlanwalkContext PlanStateInfo) (n : PlanStateInfo) :
    List ChildEvent :=
  if (c.refs n.ptr).v = 0 then []
  else ((planspansBeginStart c.found t ctx.ancestors n ctx.stmtSpan).map fun args =>
    .started n.ptr args.parentSpan).toList

/-- `planspans_node_end`: the span of a sort is ended as soon as it is started. -/
def endEvents (t : TraceSt) (ctx : OtelPlanwalkContext PlanStateInfo) (n : PlanStateInfo) :
    List ChildEvent :=
  if n.sorts then
    if (c.refs n.ptr).v = 0 then []
    else (planspansEndStart c.found t ctx.ancestors n ctx.stmtSpan).elim [] fun args =>
      [.started n.ptr args.parentSpan, .ended (c.refs n.ptr)]
  else if n.spanned then
    ((find NodeSpanEntry.node n.ptr t.planspansStack).map fun e => .ended e.ref).toList
  else []

/-- `planspans_collector` with `otel.trace_plan_child_spans` on. -/
def collector : StateCollector PlanStateInfo (TraceSt × List ChildEvent) where
  nodeBegin := some fun n ctx s =>
    (s.1.planspansNodeBegin n.ptr n.tag (c.refs n.ptr) c.nest, s.2 ++ c.beginEvents s.1 ctx n)
  nodeEnd := some fun n ctx s =>
    (s.1.planspansNodeEnd n.ptr n.tag, s.2 ++ c.endEvents s.1 ctx n)

variable (stack : PlanwalkInternalCtx PlanStateInfo) (plan : RoseTree PlanStateInfo)
  (stmtSpan : OtelSpanRef)

/-- The begin walk of a query. -/
def beginWalk (s : TraceSt × List ChildEvent) : TraceSt × List ChildEvent :=
  ((otelPlanwalkExecutorStart c.collector.alone stack (some plan) stmtSpan).run s).2

/-- The end walk of a query. -/
def endWalk (s : TraceSt × List ChildEvent) : TraceSt × List ChildEvent :=
  ((otelPlanwalkExecutorEnd c.collector.alone stack (some plan) stmtSpan).run s).2

end ChildCalls

/-! ## A query -/

/-- What the hooks may do while a query runs: everything they do for others.  Nodes that live at the
same time have different addresses, a span that is started is not the statement's, which is open, and
nothing aborts at a nest level up to that of the query: neither its transaction, nor its subtransaction,
nor one of the same or a lower level that begins after the `RELEASE` of its own. -/
inductive Spares (nodes : List PlanStateInfo) (stmtSpan : OtelSpanRef) (nest : NestLevel) :
    TraceSt → TraceSt → Prop
  | pushStmt (t : TraceSt) (key : Ptr) (ref : OtelSpanRef) (detached : Bool) (level : NestLevel) :
    Spares nodes stmtSpan nest t (t.pushStmtSpan key ref detached level).1
  | popStmt (t : TraceSt) (key : Ptr) : Spares nodes stmtSpan nest t (t.popStmtSpan key).1
  | nodeBegin (t : TraceSt) (node : Ptr) (tag : PlanNodeTag) (ref : OtelSpanRef) (level : NestLevel)
      (hnode : ∀ n ∈ nodes, n.ptr.addr ≠ node.addr) (href : ref ≠ stmtSpan) :
    Spares nodes stmtSpan nest t (t.planspansNodeBegin node tag ref level)
  | nodeEnd (t : TraceSt) (node : Ptr) (tag : PlanNodeTag)
      (hnode : ∀ n ∈ nodes, n.ptr.addr ≠ node.addr) :
    Spares nodes stmtSpan nest t (t.planspansNodeEnd node tag)
  | fdwBegin (t : TraceSt) (node : Ptr) (ref : OtelSpanRef) (level : NestLevel) :
    Spares nodes stmtSpan nest t (t.otelFdwScanBegin node ref level)
  | fdwEnd (t : TraceSt) (node : Ptr) : Spares nodes stmtSpan nest t (t.otelFdwScanEnd node)
  | xact (t : TraceSt) (event : XactEvent) (h : event ≠ .abort ∧ event ≠ .parallelAbort) :
    Spares nodes stmtSpan nest t (t.otelPgtracingXactCallback event)
  | subxact (t : TraceSt) (event : SubXactEvent) (currentLevel : ℕ)
      (h : event = .abortSub → nest.level < currentLevel) :
    Spares nodes stmtSpan nest t (t.otelPgtracingSubxactCallback event currentLevel)

/-- A query from its start to its end, with child spans enabled all the time.  Its plan is no deeper
than the walker's array, its nodes have spans of their own, and there is room for them on the stack.
The plan is as the end walk finds it; the begin walk does not read what changes. -/
structure ChildSpansQuery where
  calls : ChildCalls
  stack : PlanwalkInternalCtx PlanStateInfo
  plan : RoseTree PlanStateInfo
  stmtSpan : OtelSpanRef
  atStart : TraceSt
  atEnd : TraceSt
  distinct : Distinct (plan.labels.map fun n => n.ptr)
  shallow : ∀ v ∈ plan.trails [], v.1.length ≤ otelPlanwalkMaxAncestors
  room : atStart.planspansStack.length + (plan.labels.filter fun n => n.spanned).length ≤
    otelPlanspansStackMax
  answered : ∀ n ∈ plan.labels, (calls.refs n.ptr).v ≠ 0
  handles : (stmtSpan :: plan.labels.map fun n => calls.refs n.ptr).Nodup
  old : ∀ e ∈ atStart.planspansStack, e.ref ∉ stmtSpan :: plan.labels.map fun n => calls.refs n.ptr
  meantime : Relation.ReflTransGen (Spares plan.labels stmtSpan calls.nest)
    (calls.beginWalk stack plan stmtSpan (atStart, [])).1 atEnd

namespace ChildSpansQuery

variable (q : ChildSpansQuery)

/-- The starts and ends of the query's child spans. -/
def log : List ChildEvent :=
  (q.calls.endWalk q.stack q.plan q.stmtSpan
    (q.atEnd, (q.calls.beginWalk q.stack q.plan q.stmtSpan (q.atStart, [])).2)).2

/-- The span that a child span below a path belongs under: that of the nearest node with one from the
begin walk, else the statement's. -/
def parentBelow (path : List PlanStateInfo) : OtelSpanRef :=
  ((path.reverse.find? fun a => a.spanned).map fun a => q.calls.refs a.ptr).getD q.stmtSpan

/-- The node is a sort, and it ran. -/
def sortRuns (n : PlanStateInfo) : Prop := n.sorts = true ∧ sortRan q.atEnd n = true

/-- The child spans of the query mirror its plan: each is started under the nearest ancestor with a
span of the begin walk, and no such ancestor's span is ended before. -/
structure Mirrors : Prop where
  exported : ∀ v ∈ q.plan.trails [], (∃ parent, .started v.2.ptr parent ∈ q.log) ↔
    v.2.spanned = true ∨ q.sortRuns v.2
  parent : ∀ v ∈ q.plan.trails [], ∀ parent, .started v.2.ptr parent ∈ q.log →
    parent = q.parentBelow v.1
  order : ∀ v ∈ q.plan.trails [], ∀ a ∈ v.1, a.spanned = true → ∀ parent before after,
    q.log = before ++ .started v.2.ptr parent :: after → .ended (q.calls.refs a.ptr) ∉ before

/-! ## The walks as runs -/

/-- What a node leaves of the stacks in the begin walk. -/
def beginStep (t : TraceSt) (v : List PlanStateInfo × PlanStateInfo) : TraceSt :=
  t.planspansNodeBegin v.2.ptr v.2.tag (q.calls.refs v.2.ptr) q.calls.nest

/-- What a node leaves of the stacks in the end walk. -/
def endStep (t : TraceSt) (v : List PlanStateInfo × PlanStateInfo) : TraceSt :=
  t.planspansNodeEnd v.2.ptr v.2.tag

/-- The events of the begin walk. -/
def beginLog : List ChildEvent :=
  logOf q.beginStep (fun t v => q.calls.beginEvents t ⟨q.stmtSpan, v.1⟩ v.2) q.atStart
    (q.plan.trails [])

/-- The events of the end walk. -/
def endLog : List ChildEvent :=
  logOf endStep (fun t v => q.calls.endEvents t ⟨q.stmtSpan, v.1⟩ v.2) q.atEnd (q.plan.trails [])

/-- The walks of a query show the whole way to each node. -/
theorem visits_eq : planwalkVisits q.plan = q.plan.trails [] := by
  rw [planwalkVisits, shownTrails]
  conv_rhs => rw [← List.map_id (q.plan.trails [])]
  apply List.map_congr_left
  intro v hv
  rw [List.take_of_length_le (q.shallow v hv)]
  rfl

theorem beginWalk_eq : q.calls.beginWalk q.stack q.plan q.stmtSpan (q.atStart, []) =
    ((q.plan.trails []).foldl q.beginStep q.atStart, q.beginLog) := by
  rw [ChildCalls.beginWalk, executorStart_alone _ _ _ _ _ rfl, visits_eq]
  exact foldl_logged q.beginStep (fun t v => q.calls.beginEvents t ⟨q.stmtSpan, v.1⟩ v.2)
    (q.plan.trails []) q.atStart []

theorem log_eq : q.log = q.beginLog ++ q.endLog := by
  rw [log, beginWalk_eq, ChildCalls.endWalk, executorEnd_alone _ _ _ _ _ rfl, visits_eq]
  exact congrArg Prod.snd (foldl_logged endStep
    (fun t v => q.calls.endEvents t ⟨q.stmtSpan, v.1⟩ v.2) (q.plan.trails []) q.atEnd q.beginLog)

/-! ## The nodes -/

variable {q} {before after : List (List PlanStateInfo × PlanStateInfo)}
  {v w : List PlanStateInfo × PlanStateInfo}

theorem mem_labels (hv : v ∈ q.plan.trails []) : v.2 ∈ q.plan.labels := List.mem_map_of_mem hv

theorem trails_nodup : ((q.plan.trails []).map fun v => v.2.ptr.addr).Nodup := by
  have h := q.distinct
  rw [Distinct, RoseTree.labels, List.map_map, List.map_map] at h
  exact h

/-- The nodes of a plan are known by their addresses. -/
theorem eq_of_addr (hv : v ∈ q.plan.trails []) (hw : w ∈ q.plan.trails [])
    (h : v.2.ptr.addr = w.2.ptr.addr) : v = w :=
  List.inj_on_of_nodup_map q.trails_nodup hv hw h

theorem labels_eq_of_addr {n m : PlanStateInfo} (hn : n ∈ q.plan.labels) (hm : m ∈ q.plan.labels)
    (h : n.ptr.addr = m.ptr.addr) : n = m := by
  obtain ⟨v, hv, rfl⟩ := List.mem_map.1 hn
  obtain ⟨w, hw, rfl⟩ := List.mem_map.1 hm
  rw [eq_of_addr hv hw h]

/-- The ancestors of a node come before it. -/
theorem ancestor_before (h : q.plan.trails [] = before ++ v :: after) {a : PlanStateInfo}
    (ha : a ∈ v.1) : ∃ w ∈ before, w.2 = a := by
  rcases RoseTree.ancestorsFirst_trails [] q.plan before v after h a ha with hnil | hbefore
  · exact absurd hnil List.not_mem_nil
  · exact List.mem_map.1 hbefore

theorem mem_of_before (h : q.plan.trails [] = before ++ v :: after) (hw : w ∈ before) :
    w ∈ q.plan.trails [] := by
  rw [h]
  exact List.mem_append_left _ hw

theorem mem_of_split (h : q.plan.trails [] = before ++ v :: after) : v ∈ q.plan.trails [] := by
  simp [h]

/-- The addresses before a node are other ones. -/
theorem addr_before_ne (h : q.plan.trails [] = before ++ v :: after) (hw : w ∈ before) :
    w.2.ptr.addr ≠ v.2.ptr.addr := by
  have hnodup := q.trails_nodup
  rw [h, List.map_append, List.map_cons] at hnodup
  intro heq
  exact (List.nodup_append.1 hnodup).2.2 _ (List.mem_map_of_mem hw) _ List.mem_cons_self heq

theorem ancestor_mem (h : q.plan.trails [] = before ++ v :: after) {a : PlanStateInfo}
    (ha : a ∈ v.1) : a ∈ q.plan.labels := by
  obtain ⟨w, hw, rfl⟩ := ancestor_before h ha
  exact mem_labels (mem_of_before h hw)

/-! ## The begin walk -/

theorem spanned_ne_sorts {n : PlanStateInfo} (h : n.spanned = true) : n.sorts = false := by
  simp only [PlanStateInfo.spanned, PlanStateInfo.sorts] at *
  cases htag : n.tag <;> simp_all [planspansSpanName]

/-- Among the entries of some nodes on top of others, an address of these nodes finds its own. -/
theorem find_own_append {own : List PlanStateInfo} {old : List NodeSpanEntry} {a : PlanStateInfo}
    (h : ∀ n ∈ own, n.ptr.addr = a.ptr.addr → n = a) :
    find NodeSpanEntry.node a.ptr (own.map q.calls.entry ++ old) =
      if a ∈ own then some (q.calls.entry a) else find NodeSpanEntry.node a.ptr old := by
  induction own with
  | nil => simp
  | cons n own ih =>
    rw [List.map_cons, List.cons_append]
    by_cases hn : n.ptr.addr = a.ptr.addr
    · obtain rfl := h n List.mem_cons_self hn
      simp [find, Ptr.same, ChildCalls.entry]
    · have hne : a ≠ n := fun heq => hn (by rw [heq])
      have haddr : (q.calls.entry n).node.addr ≠ a.ptr.addr := hn
      rw [find_cons_of_ne haddr, ih fun m hm => h m (List.mem_cons_of_mem _ hm)]
      simp [hne]

/-- There is room for each entry of the begin walk. -/
theorem room_before (h : q.plan.trails [] = before ++ v :: after) (hspanned : v.2.spanned = true) :
    ((before.map Prod.snd).filter fun n => n.spanned).length + q.atStart.planspansStack.length <
      otelPlanspansStackMax := by
  have hroom := q.room
  have hcount : (q.plan.labels.filter fun n => n.spanned).length =
      ((before.map Prod.snd).filter fun n => n.spanned).length + 1 +
        ((after.map Prod.snd).filter fun n => n.spanned).length := by
    rw [RoseTree.labels, h]
    simp [hspanned]
    omega
  omega

/-- The begin walk pushes the entries of the nodes with a span. -/
theorem begun_planspansStack (h : before <+: q.plan.trails []) :
    (before.foldl q.beginStep q.atStart).planspansStack =
      (((before.map Prod.snd).filter fun n => n.spanned).reverse.map q.calls.entry) ++
        q.atStart.planspansStack := by
  induction before using List.reverseRecOn with
  | nil => simp
  | append_singleton before v ih =>
    obtain ⟨after, hafter⟩ := h
    have htrails : q.plan.trails [] = before ++ v :: after := by simpa using hafter.symm
    have ih := ih ⟨v :: after, htrails.symm⟩
    rw [List.foldl_append, List.foldl_cons, List.foldl_nil, beginStep,
      planspansNodeBegin_planspansStack, ih]
    cases hspanned : v.2.spanned with
    | false =>
      have hopens : ∀ t : TraceSt, t.opensChild v.2.tag (q.calls.refs v.2.ptr) = false := by
        intro t
        simp only [PlanStateInfo.spanned] at hspanned
        simp [opensChild, hspanned]
      simp [hopens, hspanned]
    | true =>
      have hroom := room_before htrails hspanned
      have hanswered := q.answered v.2 (mem_labels (mem_of_split htrails))
      have hopens : (before.foldl q.beginStep q.atStart).opensChild v.2.tag (q.calls.refs v.2.ptr) =
          true := by
        have hlen : (before.foldl q.beginStep q.atStart).planspansStack.length <
            otelPlanspansStackMax := by
          rw [ih, List.length_append, List.length_map, List.length_reverse]
          omega
        simp only [PlanStateInfo.spanned] at hspanned
        simp [opensChild, hspanned, hlen, hanswered]
      simp [hopens, hspanned, ChildCalls.entry]

theorem length_begun (h : q.plan.trails [] = before ++ v :: after) (hspanned : v.2.spanned = true) :
    (before.foldl q.beginStep q.atStart).planspansStack.length < otelPlanspansStackMax := by
  have hroom := room_before h hspanned
  rw [begun_planspansStack ⟨v :: after, h.symm⟩, List.length_append, List.length_map,
    List.length_reverse]
  exact hroom

theorem mem_beginEvents {c : ChildCalls} {t : TraceSt} {ctx : OtelPlanwalkContext PlanStateInfo}
    {n : PlanStateInfo} {e : ChildEvent} (hanswered : (c.refs n.ptr).v ≠ 0)
    (hroom : n.spanned = true → t.planspansStack.length < otelPlanspansStackMax) :
    e ∈ c.beginEvents t ctx n ↔
      n.spanned = true ∧ e = .started n.ptr (planspansParent t ctx.ancestors ctx.stmtSpan) := by
  unfold ChildCalls.beginEvents planspansBeginStart
  rw [if_neg hanswered]
  by_cases hspanned : n.spanned = true
  · have hsort : n.tag ≠ .sortState := by
      intro hsort
      simp [PlanStateInfo.spanned, hsort, planspansSpanName] at hspanned
    obtain ⟨name, hname⟩ := Option.isSome_iff_exists.1 hspanned
    have hlen := hroom hspanned
    simp [hsort, Nat.not_le.2 hlen, hname, hspanned, childArgs]
  · have hname : planspansSpanName n.tag = none := by
      simpa [PlanStateInfo.spanned] using hspanned
    simp [hname, hspanned]

/-- The begin walk starts the spans of the nodes that have one then. -/
theorem mem_beginLog (h : q.plan.trails [] = before ++ v :: after) (parent : OtelSpanRef) :
    .started v.2.ptr parent ∈ q.beginLog ↔ v.2.spanned = true ∧
      parent = planspansParent (before.foldl q.beginStep q.atStart) v.1 q.stmtSpan := by
  rw [beginLog, h, mem_logOf_at, mem_beginEvents]
  · simp
  · exact q.answered v.2 (mem_labels (mem_of_split h))
  · exact length_begun h
  · rw [← h]
    exact List.Nodup.of_map _ q.trails_nodup
  · intro t w hw hevent
    rw [← h] at hw
    rw [ChildCalls.beginEvents] at hevent
    split_ifs at hevent
    · exact absurd hevent List.not_mem_nil
    · obtain ⟨args, -, hargs⟩ := Option.map_eq_some_iff.1 (Option.mem_toList.1 hevent)
      apply eq_of_addr hw (mem_of_split h)
      rw [(ChildEvent.started.inj hargs).1]

theorem ended_notMem_beginLog (ref : OtelSpanRef) : .ended ref ∉ q.beginLog := by
  intro hmem
  obtain ⟨before, v, after, -, hevent⟩ := mem_logOf hmem
  rw [ChildCalls.beginEvents] at hevent
  split_ifs at hevent
  · exact absurd hevent List.not_mem_nil
  · obtain ⟨args, -, hargs⟩ := Option.map_eq_some_iff.1 (Option.mem_toList.1 hevent)
    cases hargs

/-- What an ancestor's address finds in the begin walk. -/
theorem find_begun (h : q.plan.trails [] = before ++ v :: after) {a : PlanStateInfo} (ha : a ∈ v.1) :
    find NodeSpanEntry.node a.ptr (before.foldl q.beginStep q.atStart).planspansStack =
      if a.spanned then some (q.calls.entry a)
      else find NodeSpanEntry.node a.ptr q.atStart.planspansStack := by
  obtain ⟨w, hw, rfl⟩ := ancestor_before h ha
  rw [begun_planspansStack ⟨v :: after, h.symm⟩, find_own_append]
  · have hmem : w.2 ∈ before.map Prod.snd := List.mem_map_of_mem hw
    simp only [List.mem_reverse, List.mem_filter, hmem, true_and]
  · intro n hn haddr
    rw [List.mem_reverse, List.mem_filter] at hn
    obtain ⟨x, hx, rfl⟩ := List.mem_map.1 hn.1
    rw [eq_of_addr (mem_of_before h hx) (mem_of_before h hw) haddr]

theorem planspansParent_eq (t : TraceSt) (ancestors : List PlanStateInfo) (stmtSpan : OtelSpanRef) :
    planspansParent t ancestors stmtSpan = (ancestors.reverse.findSome? fun a =>
      (find NodeSpanEntry.node a.ptr t.planspansStack).map NodeSpanEntry.ref).getD stmtSpan := by
  rw [planspansParent, List.map_findSome?]
  rfl

/-- The nodes that are found before the nearest ancestor with a span have none that is taken for an
ancestor's. -/
theorem beginParent_iff (h : q.plan.trails [] = before ++ v :: after) :
    planspansParent (before.foldl q.beginStep q.atStart) v.1 q.stmtSpan = q.parentBelow v.1 ↔
      ∀ a ∈ v.1.reverse.takeWhile fun a => !a.spanned,
        ∀ e ∈ q.atStart.planspansStack, e.node.addr ≠ a.ptr.addr := by
  have hunspanned : ∀ a ∈ v.1, a.spanned = false →
      find NodeSpanEntry.node a.ptr (before.foldl q.beginStep q.atStart).planspansStack =
        find NodeSpanEntry.node a.ptr q.atStart.planspansStack := by
    intro a ha hspanned
    simp [find_begun h ha, hspanned]
  rw [planspansParent_eq, parentBelow, nearest_eq_iff]
  · refine forall₂_congr fun a ha => ?_
    have hmem := List.mem_reverse.1 (List.takeWhile_subset _ ha)
    have hspanned : a.spanned = false := by simpa using List.mem_takeWhile_imp ha
    rw [hunspanned a hmem hspanned, Option.map_eq_none_iff, find_eq_none_iff]
  · intro a ha hspanned
    simp [find_begun h (List.mem_reverse.1 ha), hspanned, ChildCalls.entry]
  · intro a ha hspanned r hr
    rw [hunspanned a (List.mem_reverse.1 ha) hspanned] at hr
    obtain ⟨e, he, rfl⟩ := Option.map_eq_some_iff.1 hr
    have hold := q.old e (mem_of_find he)
    simp only [List.mem_cons, List.mem_map, not_or, not_exists, not_and] at hold
    exact ⟨hold.1, fun b hb _ heq =>
      hold.2 b (ancestor_mem h (List.mem_reverse.1 hb)) heq.symm⟩

/-! ## Meanwhile -/

variable (q) in
/-- What stays of the begin walk: each of its spans is found at its node, and no entry has the
statement's. -/
structure Holds (t : TraceSt) : Prop where
  own : ∀ n ∈ q.plan.labels, n.spanned = true →
    find NodeSpanEntry.node n.ptr t.planspansStack = some (q.calls.entry n)
  others : ∀ e ∈ t.planspansStack, e.ref ≠ q.stmtSpan

variable {t t' : TraceSt}

theorem Holds.congr (h : q.Holds t) (hsame : t'.planspansStack = t.planspansStack) : q.Holds t' where
  own n hn hspanned := hsame ▸ h.own n hn hspanned
  others e he := h.others e (hsame ▸ he)

theorem holds_begun : q.Holds ((q.plan.trails []).foldl q.beginStep q.atStart) where
  own n hn hspanned := by
    rw [begun_planspansStack List.prefix_rfl, find_own_append]
    · have hmem : n ∈ (q.plan.trails []).map Prod.snd := hn
      simp only [List.mem_reverse, List.mem_filter, hmem, hspanned, and_self, if_true]
    · intro m hm haddr
      exact labels_eq_of_addr (List.mem_filter.1 (List.mem_reverse.1 hm)).1 hn haddr
  others e he := by
    rw [begun_planspansStack List.prefix_rfl, List.mem_append] at he
    rcases he with hown | hold
    · obtain ⟨n, hn, rfl⟩ := List.mem_map.1 hown
      have hn := (List.mem_filter.1 (List.mem_reverse.1 hn)).1
      have hnotin := (List.nodup_cons.1 q.handles).1
      exact fun heq => hnotin (heq ▸ List.mem_map_of_mem hn)
    · exact fun heq => q.old e hold (heq ▸ List.mem_cons_self)

/-- A node of others comes or goes. -/
theorem Holds.push (h : q.Holds t) {e : NodeSpanEntry} (hnode : ∀ n ∈ q.plan.labels, n.ptr.addr ≠ e.node.addr)
    (href : e.ref ≠ q.stmtSpan) (hstack : t'.planspansStack = e :: t.planspansStack) : q.Holds t' where
  own n hn hspanned := by
    rw [hstack, find_cons_of_ne (hnode n hn).symm]
    exact h.own n hn hspanned
  others x hx := by
    rw [hstack, List.mem_cons] at hx
    rcases hx with rfl | hx
    · exact href
    · exact h.others x hx

theorem Holds.remove (h : q.Holds t) {node : Ptr} (hnode : ∀ n ∈ q.plan.labels, n.ptr.addr ≠ node.addr)
    (hstack : t'.planspansStack = KeyedStack.remove NodeSpanEntry.node node t.planspansStack) :
    q.Holds t' where
  own n hn hspanned := by
    rw [hstack, find_remove (hnode n hn)]
    exact h.own n hn hspanned
  others e he := h.others e ((remove_sublist node).subset (hstack ▸ he))

/-- A subtransaction inside the query aborts. -/
theorem Holds.drop (h : q.Holds t) {currentLevel : ℕ} (hlevel : q.calls.nest.level < currentLevel)
    (hstack : t'.planspansStack =
      dropFromLevel NodeSpanEntry.subxactLevel currentLevel t.planspansStack) : q.Holds t' where
  own n hn hspanned := by
    rw [hstack]
    exact find_filter (h.own n hn hspanned) (decide_eq_true hlevel)
  others e he := h.others e (List.mem_of_mem_filter (hstack ▸ he))

theorem planspansNodeEnd_planspansStack (t : TraceSt) (node : Ptr) (tag : PlanNodeTag) :
    (t.planspansNodeEnd node tag).planspansStack = if (planspansSpanName tag).isSome then
      KeyedStack.remove NodeSpanEntry.node node t.planspansStack else t.planspansStack := by
  cases tag <;> rfl

theorem Holds.spares (h : q.Holds t) (hstep : Spares q.plan.labels q.stmtSpan q.calls.nest t t') :
    q.Holds t' := by
  cases hstep with
  | pushStmt key ref detached level => exact h.congr (sameNodeStacks_pushStmtSpan key ref detached).planspans
  | popStmt key => exact h.congr rfl
  | nodeBegin node tag ref level hnode href =>
    have hstack : (t.planspansNodeBegin node tag ref level).planspansStack = _ :=
      planspansNodeBegin_planspansStack node tag ref
    split_ifs at hstack
    · exact h.push hnode href hstack
    · exact h.congr hstack
  | nodeEnd node tag hnode =>
    have hstack := planspansNodeEnd_planspansStack t node tag
    split_ifs at hstack
    · exact h.remove hnode hstack
    · exact h.congr hstack
  | fdwBegin node ref level =>
    refine h.congr ?_
    unfold otelFdwScanBegin
    split_ifs <;> rfl
  | fdwEnd node => exact h.congr rfl
  | xact event hevent =>
    refine h.congr ?_
    cases event <;> simp_all [otelPgtracingXactCallback]
  | subxact event currentLevel hevent =>
    by_cases habort : event = .abortSub
    · subst habort
      exact h.drop (hevent rfl) rfl
    · exact h.congr (by rw [otelPgtracingSubxactCallback_other _ habort])

theorem holds_atEnd : q.Holds q.atEnd := by
  have hmeantime := q.meantime
  rw [beginWalk_eq] at hmeantime
  generalize q.atEnd = t at hmeantime ⊢
  induction hmeantime with
  | refl => exact holds_begun
  | tail _ hstep ih => exact ih.spares hstep

/-! ## The end walk -/

/-- The end walk leaves what is found at addresses it has removed nothing at. -/
theorem find_ending {p : Ptr} (l : List (List PlanStateInfo × PlanStateInfo)) (t : TraceSt)
    (h : ∀ w ∈ l, w.2.spanned = true → p.addr ≠ w.2.ptr.addr) :
    find NodeSpanEntry.node p (l.foldl endStep t).planspansStack =
      find NodeSpanEntry.node p t.planspansStack := by
  induction l generalizing t with
  | nil => rfl
  | cons w l ih =>
    rw [List.foldl_cons, ih _ fun x hx => h x (List.mem_cons_of_mem _ hx), endStep,
      planspansNodeEnd_planspansStack]
    split_ifs with hspanned
    · exact find_remove (h w List.mem_cons_self hspanned)
    · rfl

theorem sortwrapFind_ending {p : Ptr} (l : List (List PlanStateInfo × PlanStateInfo)) (t : TraceSt)
    (h : ∀ w ∈ l, p.addr ≠ w.2.ptr.addr) :
    (l.foldl endStep t).sortwrapFind p = t.sortwrapFind p := by
  induction l generalizing t with
  | nil => rfl
  | cons w l ih =>
    rw [List.foldl_cons, ih _ fun x hx => h x (List.mem_cons_of_mem _ hx), endStep, planspansNodeEnd]
    split_ifs
    · exact find_remove (h w List.mem_cons_self)
    · rfl
    · rfl

/-- A sort has run by the end walk if it has when that reaches it. -/
theorem sortRan_ending (h : q.plan.trails [] = before ++ v :: after) :
    sortRan (before.foldl endStep q.atEnd) v.2 = sortRan q.atEnd v.2 :=
  sortRan_congr (sortwrapFind_ending before q.atEnd fun _ hw => (addr_before_ne h hw).symm)

theorem endEvents_sort {c : ChildCalls} {ctx : OtelPlanwalkContext PlanStateInfo} {n : PlanStateInfo}
    (hanswered : (c.refs n.ptr).v ≠ 0) (hsorts : n.sorts = true) :
    c.endEvents t ctx n = if sortRan t n then
      [.started n.ptr (planspansParent t ctx.ancestors ctx.stmtSpan), .ended (c.refs n.ptr)]
    else [] := by
  have htag : n.tag = .sortState ∨ n.tag = .incrementalSortState := of_decide_eq_true hsorts
  rw [ChildCalls.endEvents, if_pos hsorts, if_neg hanswered, planspansEndStart]
  by_cases hran : sortRan t n = true
  · rw [if_pos ⟨htag, hran⟩, if_pos hran]
    rfl
  · rw [if_neg fun h => hran h.2, if_neg hran]
    rfl

theorem endEvents_scan {c : ChildCalls} {ctx : OtelPlanwalkContext PlanStateInfo} {n : PlanStateInfo}
    (hsorts : n.sorts = false) : c.endEvents t ctx n = if n.spanned then
      ((find NodeSpanEntry.node n.ptr t.planspansStack).map fun e => .ended e.ref).toList else [] := by
  rw [ChildCalls.endEvents, hsorts, if_neg Bool.false_ne_true]

/-- The end walk starts the spans of the sorts that ran. -/
theorem mem_endLog (h : q.plan.trails [] = before ++ v :: after) (parent : OtelSpanRef) :
    .started v.2.ptr parent ∈ q.endLog ↔ q.sortRuns v.2 ∧
      parent = planspansParent (before.foldl endStep q.atEnd) v.1 q.stmtSpan := by
  have hanswered (w) (hw : w ∈ q.plan.trails []) := q.answered w.2 (mem_labels hw)
  rw [endLog, h, mem_logOf_at]
  · cases hsorts : v.2.sorts with
    | false =>
      rw [endEvents_scan hsorts]
      simp only [sortRuns, hsorts, Bool.false_eq_true, false_and, iff_false]
      split_ifs <;> simp
    | true =>
      rw [endEvents_sort (hanswered v (mem_of_split h)) hsorts, sortRan_ending h]
      cases hran : sortRan q.atEnd v.2 <;> simp [sortRuns, hsorts, hran]
  · rw [← h]
    exact List.Nodup.of_map _ q.trails_nodup
  · intro t w hw hevent
    rw [← h] at hw
    cases hsorts : w.2.sorts with
    | false =>
      rw [endEvents_scan hsorts] at hevent
      split_ifs at hevent <;> simp at hevent
    | true =>
      rw [endEvents_sort (hanswered w hw) hsorts] at hevent
      split_ifs at hevent
      · apply eq_of_addr hw (mem_of_split h)
        have hptr : v.2.ptr = w.2.ptr := by
          simp at hevent
          exact hevent.1
        rw [hptr]
      · exact absurd hevent List.not_mem_nil

/-- The span of an ancestor is ended when the walk comes to it, which is before it comes to the node. -/
theorem ended_ancestor (h : q.plan.trails [] = before ++ v :: after) {a : PlanStateInfo} (ha : a ∈ v.1)
    (hspanned : a.spanned = true) : .ended (q.calls.refs a.ptr) ∈
      logOf endStep (fun t v => q.calls.endEvents t ⟨q.stmtSpan, v.1⟩ v.2) q.atEnd before := by
  obtain ⟨w, hw, rfl⟩ := ancestor_before h ha
  have hmem := mem_of_before h hw
  obtain ⟨l₁, l₂, rfl⟩ := List.append_of_mem hw
  have hsplit : q.plan.trails [] = l₁ ++ w :: (l₂ ++ v :: after) := by simpa using h
  have hfind : find NodeSpanEntry.node w.2.ptr (l₁.foldl endStep q.atEnd).planspansStack =
      some (q.calls.entry w.2) := by
    rw [find_ending l₁ q.atEnd fun x hx _ => (addr_before_ne hsplit hx).symm]
    exact holds_atEnd.own w.2 (mem_labels hmem) hspanned
  rw [logOf_append, logOf, endEvents_scan (spanned_ne_sorts hspanned), hspanned, hfind]
  simp [ChildCalls.entry]

/-- A node below none with a span belongs under the statement's, and is put there if no entry is taken
for an ancestor's. -/
theorem endParent_iff (h : q.plan.trails [] = before ++ v :: after)
    (hunspanned : ∀ a ∈ v.1, a.spanned = false) :
    planspansParent (before.foldl endStep q.atEnd) v.1 q.stmtSpan = q.parentBelow v.1 ↔
      ∀ a ∈ v.1, ∀ e ∈ q.atEnd.planspansStack, e.node.addr ≠ a.ptr.addr := by
  have hfind : ∀ a ∈ v.1,
      find NodeSpanEntry.node a.ptr (before.foldl endStep q.atEnd).planspansStack =
        find NodeSpanEntry.node a.ptr q.atEnd.planspansStack := by
    intro a ha
    apply find_ending
    intro w hw hspanned haddr
    have heq := labels_eq_of_addr (ancestor_mem h ha) (mem_labels (mem_of_before h hw)) haddr
    rw [← heq, hunspanned a ha] at hspanned
    exact Bool.false_ne_true hspanned
  have hall : (v.1.reverse.takeWhile fun a => !a.spanned) = v.1.reverse := by
    rw [List.takeWhile_eq_self_iff]
    intro a ha
    simp [hunspanned a (List.mem_reverse.1 ha)]
  rw [planspansParent_eq, parentBelow, nearest_eq_iff, hall]
  · simp only [List.mem_reverse]
    refine forall₂_congr fun a ha => ?_
    rw [hfind a ha, Option.map_eq_none_iff, find_eq_none_iff]
  · intro a ha hspanned
    rw [hunspanned a (List.mem_reverse.1 ha)] at hspanned
    exact absurd hspanned Bool.false_ne_true
  · intro a ha _ r hr
    rw [hfind a (List.mem_reverse.1 ha)] at hr
    obtain ⟨e, he, rfl⟩ := Option.map_eq_some_iff.1 hr
    refine ⟨holds_atEnd.others e (mem_of_find he), fun b hb hspanned => ?_⟩
    rw [hunspanned b (List.mem_reverse.1 hb)] at hspanned
    exact absurd hspanned Bool.false_ne_true

/-! ## Every query -/

/-- A sort that ran below a node with a span of the begin walk is started after that has ended. -/
theorem ended_before_sort (hv : v ∈ q.plan.trails []) (hruns : q.sortRuns v.2) {a : PlanStateInfo}
    (ha : a ∈ v.1) (hspanned : a.spanned = true) : ∃ parent earlier later,
      q.log = earlier ++ .started v.2.ptr parent :: later ∧ .ended (q.calls.refs a.ptr) ∈ earlier := by
  obtain ⟨before, after, h⟩ := List.append_of_mem hv
  have hended := ended_ancestor h ha hspanned
  have hhere : q.calls.endEvents (before.foldl endStep q.atEnd) ⟨q.stmtSpan, v.1⟩ v.2 = _ :=
    endEvents_sort (q.answered v.2 (mem_labels hv)) hruns.1
  rw [sortRan_ending h, if_pos hruns.2] at hhere
  refine ⟨planspansParent (before.foldl endStep q.atEnd) v.1 q.stmtSpan,
    q.beginLog ++ logOf endStep (fun t v => q.calls.endEvents t ⟨q.stmtSpan, v.1⟩ v.2) q.atEnd before,
    .ended (q.calls.refs v.2.ptr) :: logOf endStep
      (fun t v => q.calls.endEvents t ⟨q.stmtSpan, v.1⟩ v.2) (endStep (before.foldl endStep q.atEnd) v)
      after, ?_, List.mem_append_right _ hended⟩
  rw [log_eq, endLog, h, logOf_append, logOf, hhere, List.append_assoc]
  rfl

/-- What is started for a node. -/
theorem mem_log (h : q.plan.trails [] = before ++ v :: after) (parent : OtelSpanRef) :
    .started v.2.ptr parent ∈ q.log ↔
      (v.2.spanned = true ∧
        parent = planspansParent (before.foldl q.beginStep q.atStart) v.1 q.stmtSpan) ∨
      (q.sortRuns v.2 ∧ parent = planspansParent (before.foldl endStep q.atEnd) v.1 q.stmtSpan) := by
  rw [log_eq, List.mem_append, mem_beginLog h, mem_endLog h]

end ChildSpansQuery

open ChildSpansQuery in
/-- The child spans of a query mirror its plan, if and only if the begin walk takes no entry for that
of an ancestor without one, and the sorts that run have no ancestor with a span of the begin walk and
none for which the end walk takes another's. -/
theorem child_spans_mirror_iff (q : ChildSpansQuery) : q.Mirrors ↔
    (∀ v ∈ q.plan.trails [], v.2.spanned = true →
      ∀ a ∈ v.1.reverse.takeWhile fun a => !a.spanned,
        ∀ e ∈ q.atStart.planspansStack, e.node.addr ≠ a.ptr.addr) ∧
    ∀ v ∈ q.plan.trails [], q.sortRuns v.2 → ∀ a ∈ v.1,
      a.spanned = false ∧ ∀ e ∈ q.atEnd.planspansStack, e.node.addr ≠ a.ptr.addr := by
  constructor
  · intro hmirrors
    refine ⟨fun v hv hspanned => ?_, fun v hv hruns => ?_⟩
    · obtain ⟨before, after, h⟩ := List.append_of_mem hv
      exact (beginParent_iff h).1 (hmirrors.parent v hv _ ((mem_log h _).2 (.inl ⟨hspanned, rfl⟩)))
    · obtain ⟨before, after, h⟩ := List.append_of_mem hv
      have hunspanned : ∀ a ∈ v.1, a.spanned = false := by
        intro a ha
        by_contra hspanned
        rw [Bool.not_eq_false] at hspanned
        obtain ⟨parent, earlier, later, hlog, hended⟩ := ended_before_sort hv hruns ha hspanned
        exact hmirrors.order v hv a ha hspanned parent earlier later hlog hended
      have hparent := (endParent_iff h hunspanned).1
        (hmirrors.parent v hv _ ((mem_log h _).2 (.inr ⟨hruns, rfl⟩)))
      exact fun a ha => ⟨hunspanned a ha, hparent a ha⟩
  · rintro ⟨hbegin, hend⟩
    constructor
    · intro v hv
      obtain ⟨before, after, h⟩ := List.append_of_mem hv
      simp only [mem_log h]
      constructor
      · rintro ⟨parent, hspanned | hruns⟩
        · exact .inl hspanned.1
        · exact .inr hruns.1
      · rintro (hspanned | hruns)
        · exact ⟨_, .inl ⟨hspanned, rfl⟩⟩
        · exact ⟨_, .inr ⟨hruns, rfl⟩⟩
    · intro v hv parent hstarted
      obtain ⟨before, after, h⟩ := List.append_of_mem hv
      rcases (mem_log h parent).1 hstarted with ⟨hspanned, rfl⟩ | ⟨hruns, rfl⟩
      · exact (beginParent_iff h).2 (hbegin v hv hspanned)
      · have hsort := hend v hv hruns
        exact (endParent_iff h fun a ha => (hsort a ha).1).2 fun a ha => (hsort a ha).2
    · intro v hv a ha hspanned parent earlier later hlog hended
      obtain ⟨before, after, h⟩ := List.append_of_mem hv
      have hnot : .started v.2.ptr parent ∉ q.endLog := by
        rw [mem_endLog h]
        intro hruns
        rw [(hend v hv hruns.1 a ha).1] at hspanned
        exact Bool.false_ne_true hspanned
      rw [log_eq] at hlog
      -- So the start is in the begin walk, and what comes before it too.
      rcases List.append_eq_append_iff.1 hlog with ⟨mid, -, hmid⟩ | ⟨mid, hlater, -⟩
      · exact hnot (by simp [hmid])
      · have hnotended : .ended (q.calls.refs a.ptr) ∉ q.beginLog := ended_notMem_beginLog _
        rw [hlater, List.mem_append] at hnotended
        exact hnotended (.inl hended)

/-- The calls of a query in a statement, whose answers number the nodes. -/
def numberingCalls : ChildCalls where
  found := inStatement
  refs node := makeRef 1 node.addr true
  nest := ⟨1, 0⟩

/-- The walker before the first walk. -/
def noWalk : PlanwalkInternalCtx PlanStateInfo where
  stmtSpan := otelSpanNone
  nAncestors := 0
  enabledMask := 0
  isEndWalk := false
  ancestors := Vector.replicate _ { ptr := ⟨0, 0⟩, tag := .other }
  depth := 0

/-- A sort that ran over a gather, below which a function scan stands under a node without a span. -/
def scanUnderGather : RoseTree PlanStateInfo :=
  .node { ptr := ⟨1, 1⟩, tag := .sortState, firstCallEnded := true }
    [.node { ptr := ⟨2, 2⟩, tag := .gatherState }
      [.node { ptr := ⟨3, 3⟩, tag := .other } [.node { ptr := ⟨4, 4⟩, tag := .functionScanState } []]]]

def scanBelowGather : ChildSpansQuery where
  calls := numberingCalls
  stack := noWalk
  plan := scanUnderGather
  stmtSpan := makeRef 1 0 true
  atStart := {}
  atEnd := (numberingCalls.beginWalk noWalk scanUnderGather (makeRef 1 0 true) ({}, [])).1
  distinct := by
    unfold Distinct
    decide
  shallow := by decide
  room := by decide
  answered := by decide
  handles := by decide
  old := by decide
  meantime := .refl

/-- The scan's span is started under the gather's, and the sort's at the end under the statement's. -/
theorem child_spans_mirror_iff_scanBelowGather : scanBelowGather.Mirrors ∧
    scanBelowGather.log =
      [.started ⟨2, 2⟩ (makeRef 1 0 true), .started ⟨4, 4⟩ (makeRef 1 2 true),
        .started ⟨1, 1⟩ (makeRef 1 0 true), .ended (makeRef 1 1 true), .ended (makeRef 1 2 true),
        .ended (makeRef 1 4 true)] := by
  have hroot : ∀ v ∈ scanUnderGather.trails [], v.2.sorts = true → v.1 = [] := by decide
  refine ⟨(child_spans_mirror_iff scanBelowGather).2 ⟨?_, ?_⟩, by decide +kernel⟩
  · exact fun v _ _ a _ e he => absurd he List.not_mem_nil
  · intro v hv hruns a ha
    rw [hroot v hv hruns.1] at ha
    exact absurd ha List.not_mem_nil

/-! ## A sort below a gather -/

/-- The sort ran. -/
def sortBelowGather : ChildSpansQuery where
  calls :=
    { found := inStatement
      refs := fun node => makeRef 1 node.addr true
      nest := ⟨1, 0⟩ }
  stack :=
    { stmtSpan := otelSpanNone, nAncestors := 0, enabledMask := 0, isEndWalk := false,
      ancestors := Vector.replicate _ { ptr := ⟨0, 0⟩, tag := .other }, depth := 0 }
  plan := .node { ptr := ⟨1, 1⟩, tag := .gatherState }
    [.node { ptr := ⟨2, 2⟩, tag := .sortState, firstCallEnded := true } []]
  stmtSpan := makeRef 1 0 true
  atStart := {}
  atEnd :=
    { planspansStack := [⟨⟨1, 1⟩, makeRef 1 1 true, ⟨1, 0⟩⟩]
      sortwrapStack := [⟨⟨2, 2⟩, .original ⟨2, 2⟩, ⟨1, 0⟩⟩] }
  distinct := by
    unfold Distinct
    decide
  shallow := by decide
  room := by decide
  answered := by decide
  handles := by decide
  old := by decide
  meantime := .refl

/-- The end walk ends the gather's span, and then starts the sort's under the statement's. -/
theorem sort_below_gather_outlives_it :
    sortBelowGather.log =
        [.started ⟨1, 1⟩ (makeRef 1 0 true), .ended (makeRef 1 1 true),
          .started ⟨2, 2⟩ (makeRef 1 0 true), .ended (makeRef 1 2 true)] ∧
      ¬ sortBelowGather.Mirrors := by
  have hlog : sortBelowGather.log =
      [.started ⟨1, 1⟩ (makeRef 1 0 true), .ended (makeRef 1 1 true),
        .started ⟨2, 2⟩ (makeRef 1 0 true), .ended (makeRef 1 2 true)] := by decide
  refine ⟨hlog, fun h => ?_⟩
  have hparent := h.parent ([{ ptr := ⟨1, 1⟩, tag := .gatherState }],
    { ptr := ⟨2, 2⟩, tag := .sortState, firstCallEnded := true }) (by decide) (makeRef 1 0 true)
    (by rw [hlog]; decide)
  revert hparent
  decide

end PostgresOtel
