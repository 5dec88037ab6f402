import PostgresOtel.Trace.PlanNodes

/-!
# The child spans of a query's plan

`planspans_node_begin` opens the child spans of a query in one walk of its plan and
`planspans_node_end` ends them in another.  The second walk runs only if its collector is enabled
then, and finds what it ends by the addresses of the nodes.  The log keeps the calls of
`otel_span_end` that the hooks make, and the child spans that were opened.
-/

set_option autoImplicit false

namespace PostgresOtel

open KeyedStack TracingSt TraceSt

/-! ## The log -/

/-- A call of `otel_span_end`: for the child span of a node or for the span of a statement. -/
inductive SpanEndCall
  | child (node : Ptr) (ref : OtelSpanRef)
  | statement (ref : OtelSpanRef)
  deriving DecidableEq

/-- The child spans that were opened, and the calls that end spans, in order. -/
structure SpanLog where
  opened : List (Ptr × OtelSpanRef) := []
  ends : List SpanEndCall := []

namespace TraceSt

/-- What `planspans_node_end` ends. -/
def planspansNodeEndSpan (t : TraceSt) (n : PlanNode) : Option SpanEndCall :=
  if n.tag = .sortState ∨ n.tag = .incrementalSortState ∨ (planspansSpanName n.tag).isNone then none
  else (find NodeSpanEntry.node n.ptr t.planspansStack).map fun e => .child n.ptr e.ref

/-- What the end walk over the nodes ends. -/
def endWalkSpans (planspans : Bool) : TraceSt → List PlanNode → List SpanEndCall
  | _, [] => []
  | t, n :: ns =>
    (if planspans then (t.planspansNodeEndSpan n).toList else []) ++
      (t.nodeEnd planspans n).endWalkSpans planspans ns

/-- What `finalize_stmt_span` ends. -/
def finalizeSpan (ref : OtelSpanRef) : List SpanEndCall := if ref.v = 0 then [] else [.statement ref]

end TraceSt

/-- The calls of `otel_span_end` in a step. -/
def TracingSt.endCalls (s : TracingSt) : TracingAct → List SpanEndCall
  | .executorStart addr isCursor ref =>
    finalizeSpan (s.trace.pushStmtSpan (s.newPtr addr) ref isCursor s.currentLevel).2
  | .executorEnd query planspans =>
    (s.trace.popStmtSpan query).1.endWalkSpans planspans
        ((s.queries.filter fun q => q.ptr = query).flatMap Query.nodes) ++
      finalizeSpan (s.trace.popStmtSpan query).2
  | .utilityBegin addr true ref =>
    finalizeSpan (s.trace.pushStmtSpan (s.newPtr addr) ref false s.currentLevel).2
  | .utilityEnd =>
    (s.frames.head?.bind CallFrame.token).elim [] fun token =>
      finalizeSpan (s.trace.popStmtSpan token).2
  | _ => []

/-- The child spans a step opens. -/
def TracingSt.opens (s : TracingSt) : TracingAct → List (Ptr × OtelSpanRef)
  | .nodeBegin _ addr tag planspans _ =>
    (planspans.filter (s.trace.opensChild tag)).toList.map fun ref => (s.newPtr addr, ref)
  | _ => []

/-- The backend with the log of its spans. -/
def loggedTracing : Machine (TracingSt × SpanLog) TracingAct :=
  tracing.extend {} some (fun _ _ => True) fun s a =>
    { opened := s.1.opens a ++ s.2.opened, ends := s.2.ends ++ s.1.endCalls a }

/-! ## What the end of a query should do -/

/-- The end of the query ends each of its child spans, once and before the span of the statement,
and removes the entries of its nodes and nothing else. -/
structure ClosesChildren (s : TracingSt × SpanLog) (q : Query) (planspans : Bool) : Prop where
  ends : ∃ children, (loggedTracing.next s (.executorEnd q.ptr planspans)).2.ends =
      s.2.ends ++ children ++ finalizeSpan (s.1.trace.popStmtSpan q.ptr).2 ∧
    ∀ n ∈ q.nodes, ∀ ref, (n.ptr, ref) ∈ s.2.opened →
      children.count (.child n.ptr ref) = 1 ∧ s.2.ends.count (.child n.ptr ref) = 0
  gone : ∀ n ∈ q.nodes,
    (∀ e ∈ (s.1.next (.executorEnd q.ptr planspans)).trace.planspansStack,
      e.node.addr ≠ n.ptr.addr) ∧
    ∀ e ∈ (s.1.next (.executorEnd q.ptr planspans)).trace.sortwrapStack, e.node.addr ≠ n.ptr.addr
  kept : (s.1.next (.executorEnd q.ptr planspans)).trace.planspansStack =
      s.1.trace.planspansStack.filter (fun e => ∀ n ∈ q.nodes, e.node ≠ n.ptr) ∧
    (s.1.next (.executorEnd q.ptr planspans)).trace.sortwrapStack =
      s.1.trace.sortwrapStack.filter fun e => ∀ n ∈ q.nodes, e.node ≠ n.ptr

/-- An abort of a subtransaction leaves the child spans of the queries that live on: they are stamped
with a level further out.  When a query ends, the entries at the addresses of its nodes are those of
its nodes, and if there are any, the collector is enabled. -/
def KeepsChildren (s : TracingSt) : TracingAct → Prop
  | .abort _ dead => ∀ q ∈ s.queries, s.dies dead q = false → ∀ n ∈ q.nodes,
      ∀ e ∈ s.trace.planspansStack, e.node = n.ptr → e.subxactLevel.level < s.levels.length
  | .executorEnd query planspans => ∀ q ∈ s.queries, q.ptr = query → ∀ n ∈ q.nodes,
      (∀ e ∈ s.trace.planspansStack, e.node.addr = n.ptr.addr → planspans = true ∧ e.node = n.ptr) ∧
      ∀ e ∈ s.trace.sortwrapStack, e.node.addr = n.ptr.addr → planspans = true ∧ e.node = n.ptr
  | _ => True

/-! ## The end walk -/

namespace TraceSt

variable {t : TraceSt} {nodes : List PlanNode}

/-- The entries at the addresses of the nodes are their own, at most one each, on the stack of their
kind. -/
structure OwnNodes (t : TraceSt) (nodes : List PlanNode) : Prop where
  spans_once : (t.planspansStack.map NodeSpanEntry.node).Nodup
  sorts_once : (t.sortwrapStack.map SortwrapEntry.node).Nodup
  span_own : ∀ n ∈ nodes, ∀ e ∈ t.planspansStack, e.node.addr = n.ptr.addr →
    e.node = n.ptr ∧ (planspansSpanName n.tag).isSome
  sort_own : ∀ n ∈ nodes, ∀ e ∈ t.sortwrapStack, e.node.addr = n.ptr.addr →
    e.node = n.ptr ∧ n.tag = .sortState

namespace OwnNodes

/-- The end of a node removes the entry of the node. -/
theorem nodeEnd_planspans (h : OwnNodes t nodes) {n : PlanNode} (hn : n ∈ nodes) :
    (t.nodeEnd true n).planspansStack = t.planspansStack.filter fun e => e.node ≠ n.ptr := by
  rw [nodeEnd_planspansStack, Bool.true_and]
  split_ifs with hname
  · exact remove_eq_filter h.spans_once fun e he haddr => (h.span_own n hn e he haddr).1
  · have hne : ∀ e ∈ t.planspansStack, e.node ≠ n.ptr := fun e he heq =>
      hname (h.span_own n hn e he (congrArg Ptr.addr heq)).2
    exact (List.filter_eq_self.2 fun e he => by simpa using hne e he).symm

theorem nodeEnd_sortwrap (h : OwnNodes t nodes) {n : PlanNode} (hn : n ∈ nodes) :
    (t.nodeEnd true n).sortwrapStack = t.sortwrapStack.filter fun e => e.node ≠ n.ptr := by
  rw [nodeEnd_sortwrapStack, Bool.true_and]
  split_ifs with hsort
  · exact remove_eq_filter h.sorts_once fun e he haddr => (h.sort_own n hn e he haddr).1
  · have hne : ∀ e ∈ t.sortwrapStack, e.node ≠ n.ptr := fun e he heq =>
      hsort (decide_eq_true (h.sort_own n hn e he (congrArg Ptr.addr heq)).2)
    exact (List.filter_eq_self.2 fun e he => by simpa using hne e he).symm

theorem tail {n : PlanNode} {ns : List PlanNode} (h : OwnNodes t (n :: ns)) :
    OwnNodes (t.nodeEnd true n) ns where
  spans_once := h.spans_once.sublist ((nodeEnd_planspansStack_sublist true n).map _)
  sorts_once := h.sorts_once.sublist ((nodeEnd_sortwrapStack_sublist true n).map _)
  span_own m hm e he :=
    h.span_own m (List.mem_cons_of_mem _ hm) e ((nodeEnd_planspansStack_sublist true n).subset he)
  sort_own m hm e he :=
    h.sort_own m (List.mem_cons_of_mem _ hm) e ((nodeEnd_sortwrapStack_sublist true n).subset he)

/-- The walk removes the entries of the nodes. -/
theorem walk_planspans (h : OwnNodes t nodes) :
    (nodes.foldl (TraceSt.nodeEnd true) t).planspansStack =
      t.planspansStack.filter fun e => ∀ n ∈ nodes, e.node ≠ n.ptr := by
  induction nodes generalizing t with
  | nil => exact (List.filter_eq_self.2 fun e _ => by simp).symm
  | cons n ns ih =>
    rw [List.foldl_cons, ih h.tail, h.nodeEnd_planspans List.mem_cons_self, List.filter_filter]
    refine List.filter_congr fun e _ => ?_
    simp [Bool.and_comm]

theorem walk_sortwrap (h : OwnNodes t nodes) :
    (nodes.foldl (TraceSt.nodeEnd true) t).sortwrapStack =
      t.sortwrapStack.filter fun e => ∀ n ∈ nodes, e.node ≠ n.ptr := by
  induction nodes generalizing t with
  | nil => exact (List.filter_eq_self.2 fun e _ => by simp).symm
  | cons n ns ih =>
    rw [List.foldl_cons, ih h.tail, h.nodeEnd_sortwrap List.mem_cons_self, List.filter_filter]
    refine List.filter_congr fun e _ => ?_
    simp [Bool.and_comm]

/-- The end of a node with an entry ends the span of the entry. -/
theorem nodeEndSpan (h : OwnNodes t nodes) {n : PlanNode} (hn : n ∈ nodes) {e : NodeSpanEntry}
    (he : e ∈ t.planspansStack) (hkey : e.node = n.ptr) :
    t.planspansNodeEndSpan n = some (.child n.ptr e.ref) := by
  have hname := (h.span_own n hn e he (congrArg Ptr.addr hkey)).2
  have hfind : find NodeSpanEntry.node n.ptr t.planspansStack = some e := by
    cases hfind : find NodeSpanEntry.node n.ptr t.planspansStack with
    | none =>
      have hnone := List.find?_eq_none.1 hfind e he
      exact absurd (decide_eq_true (congrArg Ptr.addr hkey)) hnone
    | some e' =>
      have hkey' := (h.span_own n hn e' (mem_of_find hfind) (addr_of_find hfind)).1
      rw [List.inj_on_of_nodup_map h.spans_once (mem_of_find hfind) he (hkey'.trans hkey.symm)]
  cases htag : n.tag <;> simp [planspansNodeEndSpan, htag, planspansSpanName, hfind] <;>
    rw [htag] at hname <;> cases hname

end OwnNodes

/-- The walk ends child spans of its nodes only. -/
theorem endWalkSpans_nodes (planspans : Bool) {c : SpanEndCall}
    (hc : c ∈ t.endWalkSpans planspans nodes) : ∃ n ∈ nodes, ∃ ref, c = .child n.ptr ref := by
  induction nodes generalizing t with
  | nil => exact absurd hc List.not_mem_nil
  | cons n ns ih =>
    rcases List.mem_append.1 hc with hc | hc
    · refine ⟨n, List.mem_cons_self, ?_⟩
      unfold planspansNodeEndSpan at hc
      split_ifs at hc
      · exact absurd hc List.not_mem_nil
      · cases hfind : find NodeSpanEntry.node n.ptr t.planspansStack with
        | none => simp [hfind] at hc
        | some e => exact ⟨e.ref, by simpa [hfind] using hc⟩
      · exact absurd hc List.not_mem_nil
    · obtain ⟨m, hm, href⟩ := ih hc
      exact ⟨m, List.mem_cons_of_mem _ hm, href⟩

/-- The walk ends the span of every entry of its nodes, once. -/
theorem OwnNodes.count_endWalkSpans (h : OwnNodes t nodes) (hnd : (nodes.map PlanNode.ptr).Nodup)
    {n : PlanNode} (hn : n ∈ nodes) {e : NodeSpanEntry} (he : e ∈ t.planspansStack)
    (hkey : e.node = n.ptr) : (t.endWalkSpans true nodes).count (.child n.ptr e.ref) = 1 := by
  induction nodes generalizing t with
  | nil => exact absurd hn List.not_mem_nil
  | cons m ms ih =>
    obtain ⟨hnew, hnd⟩ := List.nodup_cons.1 hnd
    simp only [endWalkSpans, if_true, List.count_append]
    by_cases hnm : n.ptr = m.ptr
    · have hlater : ((t.nodeEnd true m).endWalkSpans true ms).count (.child n.ptr e.ref) = 0 := by
        refine List.count_eq_zero.2 fun hc => hnew ?_
        obtain ⟨m', hm', ref, heq⟩ := endWalkSpans_nodes true hc
        obtain ⟨hptr, -⟩ := SpanEndCall.child.inj heq
        rw [← hnm, hptr]
        exact List.mem_map_of_mem hm'
      rw [h.nodeEndSpan List.mem_cons_self he (hkey.trans hnm), hlater, hnm]
      simp
    · have hms : n ∈ ms := (List.mem_cons.1 hn).resolve_left fun heq => hnm (heq ▸ rfl)
      have hhere : ((t.planspansNodeEndSpan m).toList).count (.child n.ptr e.ref) = 0 := by
        refine List.count_eq_zero.2 fun hc => hnm ?_
        have hone : SpanEndCall.child n.ptr e.ref ∈ t.endWalkSpans true [m] := by
          simp [endWalkSpans, hc]
        obtain ⟨m', hm', ref, heq⟩ := endWalkSpans_nodes true hone
        obtain ⟨hptr, -⟩ := SpanEndCall.child.inj heq
        rw [hptr, List.mem_singleton.1 hm']
      rw [hhere, Nat.zero_add]
      refine ih h.tail hnd hms ?_
      rw [h.nodeEnd_planspans List.mem_cons_self]
      exact List.mem_filter.2 ⟨he, decide_eq_true (hkey ▸ hnm)⟩

end TraceSt

/-! ## Open queries keep their child spans -/

/-- The entries are in the order of their nodes and on the stack of the node's kind, and every child
span that was opened for a live node has its entry and has not been ended. -/
structure ChildrenOpen (s : TracingSt × SpanLog) : Prop where
  core : CoreOk s.1
  spans : Dated NodeSpanEntry.node (s.1.planNodes.map PlanNode.ptr) s.1.nextObj
    s.1.trace.planspansStack
  sorts : Dated SortwrapEntry.node (s.1.planNodes.map PlanNode.ptr) s.1.nextObj
    s.1.trace.sortwrapStack
  named : ∀ e ∈ s.1.trace.planspansStack, ∀ n ∈ s.1.planNodes, e.node = n.ptr →
    (planspansSpanName n.tag).isSome
  sorted : ∀ e ∈ s.1.trace.sortwrapStack, ∀ n ∈ s.1.planNodes, e.node = n.ptr → n.tag = .sortState
  opened : ∀ n ∈ s.1.planNodes, ∀ ref, (n.ptr, ref) ∈ s.2.opened →
    ∃ e ∈ s.1.trace.planspansStack, e.node = n.ptr ∧ e.ref = ref
  unended : ∀ n ∈ s.1.planNodes, ∀ ref, .child n.ptr ref ∉ s.2.ends
  opened_old : ∀ c ∈ s.2.opened, c.1.obj < s.1.nextObj
  ended_old : ∀ node ref, .child node ref ∈ s.2.ends → node.obj < s.1.nextObj

/-- The calls that end child spans are made by the end walk, for nodes of the query. -/
theorem child_mem_endCalls {s : TracingSt} {a : TracingAct} {node : Ptr} {ref : OtelSpanRef}
    (h : .child node ref ∈ s.endCalls a) : ∃ query planspans, a = .executorEnd query planspans ∧
      ∃ n ∈ (s.queries.filter fun q => q.ptr = query).flatMap Query.nodes, n.ptr = node := by
  have hfinal : ∀ ref', SpanEndCall.child node ref ∉ finalizeSpan ref' := by
    intro ref' hc
    unfold finalizeSpan at hc
    split_ifs at hc
    · exact absurd hc List.not_mem_nil
    · cases List.mem_singleton.1 hc
  cases a with
  | executorEnd query planspans =>
    rcases List.mem_append.1 h with h | h
    · obtain ⟨n, hn, ref', heq⟩ := endWalkSpans_nodes planspans h
      obtain ⟨rfl, -⟩ := SpanEndCall.child.inj heq
      exact ⟨query, planspans, rfl, n, hn, rfl⟩
    · exact absurd h (hfinal _)
  | executorStart addr isCursor ref' => exact absurd h (hfinal _)
  | utilityBegin addr toplevel ref' =>
    cases toplevel with
    | true => exact absurd h (hfinal _)
    | false => exact absurd h List.not_mem_nil
  | utilityEnd =>
    simp only [TracingSt.endCalls] at h
    cases htoken : s.frames.head?.bind CallFrame.token with
    | none =>
      rw [htoken] at h
      exact absurd h List.not_mem_nil
    | some token =>
      rw [htoken] at h
      exact absurd h (hfinal _)
  | _ => exact absurd h List.not_mem_nil

namespace ChildrenOpen

variable {s s' : TracingSt × SpanLog}

theorem init : ChildrenOpen ({}, {}) where
  core := .init
  spans := .nil
  sorts := .nil
  named _ h := absurd h List.not_mem_nil
  sorted _ h := absurd h List.not_mem_nil
  opened _ h := absurd h List.not_mem_nil
  unended _ h := absurd h List.not_mem_nil
  opened_old _ h := absurd h List.not_mem_nil
  ended_old _ _ h := absurd h List.not_mem_nil

/-- Nodes and entries may go, but not the entry of a node that stays, and no child span of a node
that stays is ended. -/
theorem keep (h : ChildrenOpen s) (hcore : CoreOk s'.1) (hobj : s.1.nextObj ≤ s'.1.nextObj)
    (hnodes : s'.1.planNodes ⊆ s.1.planNodes)
    (hspans : s'.1.trace.planspansStack.Sublist s.1.trace.planspansStack)
    (hsorts : s'.1.trace.sortwrapStack.Sublist s.1.trace.sortwrapStack)
    (hopened : s'.2.opened = s.2.opened)
    (hends : ∀ node ref, .child node ref ∈ s'.2.ends → .child node ref ∈ s.2.ends ∨
      (∃ n ∈ s.1.planNodes, n.ptr = node) ∧ ∀ n ∈ s'.1.planNodes, n.ptr ≠ node)
    (hkeep : ∀ n ∈ s'.1.planNodes, ∀ e ∈ s.1.trace.planspansStack, e.node = n.ptr →
      e ∈ s'.1.trace.planspansStack) : ChildrenOpen s' where
  core := hcore
  spans := (h.spans.sublist hspans (List.map_subset _ hnodes)).create hobj fun _ hp => .inl hp
  sorts := (h.sorts.sublist hsorts (List.map_subset _ hnodes)).create hobj fun _ hp => .inl hp
  named e he n hn := h.named e (hspans.subset he) n (hnodes hn)
  sorted e he n hn := h.sorted e (hsorts.subset he) n (hnodes hn)
  opened n hn ref href := by
    obtain ⟨e, he, hkey, heref⟩ := h.opened n (hnodes hn) ref (hopened ▸ href)
    exact ⟨e, hkeep n hn e he hkey, hkey, heref⟩
  unended n hn ref hc := by
    rcases hends _ _ hc with hold | ⟨-, hgone⟩
    · exact h.unended n (hnodes hn) ref hold
    · exact hgone n hn rfl
  opened_old c hc := Nat.lt_of_lt_of_le (h.opened_old c (hopened ▸ hc)) hobj
  ended_old node ref hc := by
    refine Nat.lt_of_lt_of_le ?_ hobj
    rcases hends _ _ hc with hold | ⟨⟨n, hn, rfl⟩, -⟩
    · exact h.ended_old node ref hold
    · exact h.core.nodes_old n hn

/-! ## A node that begins -/

/-- A node has begun, a new object at an address that no live node has. -/
structure Begun (s s' : TracingSt × SpanLog) (node : PlanNode) : Prop where
  core : CoreOk s'.1
  obj : s'.1.nextObj = s.1.nextObj + 1
  ptr : node.ptr.obj = s.1.nextObj
  nodes : ∀ n ∈ s'.1.planNodes, n = node ∨ n ∈ s.1.planNodes
  free : ∀ n ∈ s.1.planNodes, n.ptr.addr ≠ node.ptr.addr
  ends : s'.2.ends = s.2.ends

namespace Begun

variable {node : PlanNode} {α : Type} {key : α → Ptr} {l : List α} {e : α} {P : PlanNode → Prop}

theorem live (hb : Begun s s' node) {q : Ptr} (hq : q ∈ s'.1.planNodes.map PlanNode.ptr) :
    q ∈ s.1.planNodes.map PlanNode.ptr ∨ q = node.ptr := by
  obtain ⟨n, hn, rfl⟩ := List.mem_map.1 hq
  rcases hb.nodes n hn with rfl | hn
  · exact .inr rfl
  · exact .inl (List.mem_map_of_mem hn)

/-- Older entries stay in order. -/
theorem dated (hb : Begun s s' node) (h : Dated key (s.1.planNodes.map PlanNode.ptr) s.1.nextObj l) :
    Dated key (s'.1.planNodes.map PlanNode.ptr) s'.1.nextObj l :=
  h.create (hb.obj ▸ Nat.le_succ _) fun q hq => (hb.live hq).imp_right fun heq => by
    rw [heq, hb.ptr]

/-- The entry of the new node is the latest. -/
theorem dated_push (hb : Begun s s' node)
    (h : Dated key (s.1.planNodes.map PlanNode.ptr) s.1.nextObj l) (hkey : key e = node.ptr) :
    Dated key (s'.1.planNodes.map PlanNode.ptr) s'.1.nextObj (e :: l) := by
  refine (hb.dated h).push ?_ (fun x hx => ?_) fun q hq hlt => ?_
  · rw [hkey, hb.ptr, hb.obj]
    exact Nat.lt_succ_self _
  · rw [hkey, hb.ptr]
    exact h.old x hx
  · rw [hkey] at hlt ⊢
    rcases hb.live hq with hq | rfl
    · obtain ⟨n, hn, rfl⟩ := List.mem_map.1 hq
      exact (hb.free n hn).symm
    · exact absurd hlt (Nat.lt_irrefl _)

/-- No older entry is the new node's. -/
theorem key_ne (hb : Begun s s' node)
    (h : Dated key (s.1.planNodes.map PlanNode.ptr) s.1.nextObj l) (he : e ∈ l) : key e ≠ node.ptr := by
  intro heq
  have hold := h.old e he
  rw [heq, hb.ptr] at hold
  exact Nat.lt_irrefl _ hold

/-- What the older entries say of their nodes they still say. -/
theorem kinds (hb : Begun s s' node) (h : Dated key (s.1.planNodes.map PlanNode.ptr) s.1.nextObj l)
    (hP : ∀ e ∈ l, ∀ n ∈ s.1.planNodes, key e = n.ptr → P n) :
    ∀ e ∈ l, ∀ n ∈ s'.1.planNodes, key e = n.ptr → P n := by
  intro e he n hn heq
  rcases hb.nodes n hn with rfl | hn
  · exact absurd heq (hb.key_ne h he)
  · exact hP e he n hn heq

theorem kinds_push (hb : Begun s s' node)
    (h : Dated key (s.1.planNodes.map PlanNode.ptr) s.1.nextObj l)
    (hP : ∀ e ∈ l, ∀ n ∈ s.1.planNodes, key e = n.ptr → P n) (hkey : key e = node.ptr) (hnode : P node) :
    ∀ e' ∈ e :: l, ∀ n ∈ s'.1.planNodes, key e' = n.ptr → P n := by
  refine List.forall_mem_cons.2 ⟨fun n hn heq => ?_, hb.kinds h hP⟩
  rcases hb.nodes n hn with rfl | hn
  · exact hnode
  · exact absurd (congrArg Ptr.addr (heq.symm.trans hkey)) (hb.free n hn)

/-- The new node gets its sort entry if it is a sort, or none. -/
theorem sorts (hb : Begun s s' node) (h : ChildrenOpen s) {wraps : Bool} {wrapped : SortwrapEntry}
    (hwrapped : wrapped.node = node.ptr) (hkind : wraps = true → node.tag = .sortState)
    (hstack : s'.1.trace.sortwrapStack =
      if wraps then wrapped :: s.1.trace.sortwrapStack else s.1.trace.sortwrapStack) :
    Dated SortwrapEntry.node (s'.1.planNodes.map PlanNode.ptr) s'.1.nextObj s'.1.trace.sortwrapStack ∧
      ∀ e ∈ s'.1.trace.sortwrapStack, ∀ n ∈ s'.1.planNodes, e.node = n.ptr → n.tag = .sortState := by
  rw [hstack]
  split_ifs with hwraps
  · exact ⟨hb.dated_push h.sorts hwrapped, hb.kinds_push h.sorts h.sorted hwrapped (hkind hwraps)⟩
  · exact ⟨hb.dated h.sorts, hb.kinds h.sorts h.sorted⟩

theorem unended (hb : Begun s s' node) (h : ChildrenOpen s) :
    ∀ n ∈ s'.1.planNodes, ∀ ref, .child n.ptr ref ∉ s'.2.ends := by
  intro n hn ref hc
  rw [hb.ends] at hc
  rcases hb.nodes n hn with rfl | hn
  · have hold := h.ended_old _ ref hc
    rw [hb.ptr] at hold
    exact Nat.lt_irrefl _ hold
  · exact h.unended n hn ref hc

theorem ended_old (hb : Begun s s' node) (h : ChildrenOpen s) :
    ∀ p ref, .child p ref ∈ s'.2.ends → p.obj < s'.1.nextObj := by
  intro p ref hc
  rw [hb.ends] at hc
  rw [hb.obj]
  exact Nat.lt_succ_of_lt (h.ended_old p ref hc)

theorem opened_old (hb : Begun s s' node) (h : ChildrenOpen s) {c : Ptr × OtelSpanRef}
    (hc : c ∈ s.2.opened) : c.1.obj < s'.1.nextObj := by
  rw [hb.obj]
  exact Nat.lt_succ_of_lt (h.opened_old c hc)

/-- No child span of the new node was opened before. -/
theorem not_opened (hb : Begun s s' node) (h : ChildrenOpen s) (ref : OtelSpanRef) :
    (node.ptr, ref) ∉ s.2.opened := by
  intro hc
  have hold := h.opened_old _ hc
  dsimp only at hold
  rw [hb.ptr] at hold
  exact Nat.lt_irrefl _ hold

end Begun

/-- A node without a child span. -/
theorem unopened {node : PlanNode} (h : ChildrenOpen s) (hb : Begun s s' node)
    (hsorts : Dated SortwrapEntry.node (s'.1.planNodes.map PlanNode.ptr) s'.1.nextObj
        s'.1.trace.sortwrapStack ∧
      ∀ e ∈ s'.1.trace.sortwrapStack, ∀ n ∈ s'.1.planNodes, e.node = n.ptr → n.tag = .sortState)
    (hstack : s'.1.trace.planspansStack = s.1.trace.planspansStack)
    (hopened : s'.2.opened = s.2.opened) : ChildrenOpen s' where
  core := hb.core
  spans := hstack ▸ hb.dated h.spans
  sorts := hsorts.1
  named := hstack ▸ hb.kinds h.spans h.named
  sorted := hsorts.2
  opened n hn ref href := by
    rw [hopened] at href
    rw [hstack]
    rcases hb.nodes n hn with rfl | hn
    · exact absurd href (hb.not_opened h ref)
    · exact h.opened n hn ref href
  unended := hb.unended h
  opened_old c hc := hb.opened_old h (hopened ▸ hc)
  ended_old := hb.ended_old h

/-- A node with a child span gets its entry. -/
theorem opensChild {node : PlanNode} {ref₀ : OtelSpanRef} {nest : NestLevel} (h : ChildrenOpen s)
    (hb : Begun s s' node)
    (hsorts : Dated SortwrapEntry.node (s'.1.planNodes.map PlanNode.ptr) s'.1.nextObj
        s'.1.trace.sortwrapStack ∧
      ∀ e ∈ s'.1.trace.sortwrapStack, ∀ n ∈ s'.1.planNodes, e.node = n.ptr → n.tag = .sortState)
    (hname : (planspansSpanName node.tag).isSome)
    (hstack : s'.1.trace.planspansStack = ⟨node.ptr, ref₀, nest⟩ :: s.1.trace.planspansStack)
    (hopened : s'.2.opened = (node.ptr, ref₀) :: s.2.opened) : ChildrenOpen s' where
  core := hb.core
  spans := hstack ▸ hb.dated_push h.spans rfl
  sorts := hsorts.1
  named := hstack ▸ hb.kinds_push h.spans h.named rfl hname
  sorted := hsorts.2
  opened n hn ref href := by
    rw [hopened] at href
    rw [hstack]
    rcases List.mem_cons.1 href with heq | hbefore
    · obtain ⟨hptr, rfl⟩ := Prod.mk.inj heq
      exact ⟨_, List.mem_cons_self, hptr.symm, rfl⟩
    · rcases hb.nodes n hn with rfl | hn
      · exact absurd hbefore (hb.not_opened h ref)
      · obtain ⟨e, he, hrest⟩ := h.opened n hn ref hbefore
        exact ⟨e, List.mem_cons_of_mem _ he, hrest⟩
  unended := hb.unended h
  opened_old c hc := by
    rw [hopened] at hc
    rcases List.mem_cons.1 hc with rfl | hc
    · rw [hb.obj, ← hb.ptr]
      exact Nat.lt_succ_self _
    · exact hb.opened_old h hc
  ended_old := hb.ended_old h

theorem begun (h : ChildrenOpen s) {query : Ptr} {addr : ℕ} {tag : PlanNodeTag}
    {planspans fdw : Option OtelSpanRef}
    (hen : (TracingAct.nodeBegin query addr tag planspans fdw).Enabled s.1) :
    Begun s (loggedTracing.next s (.nodeBegin query addr tag planspans fdw))
      ⟨s.1.newPtr addr, tag⟩ := by
  have hcore := h.core.step hen
  obtain ⟨-, hq, hfree⟩ := hen
  have hperm := flatMap_nodes_perm (n := ⟨s.1.newPtr addr, tag⟩) h.core.queries_nodup hq
  exact ⟨hcore, rfl, rfl, fun n hn => List.mem_cons.1 (hperm.mem_iff.1 hn), hfree, List.append_nil _⟩

/-- A node that begins gets a child span with its entry, or neither. -/
theorem nodeBegin (h : ChildrenOpen s) {query : Ptr} {addr : ℕ} {tag : PlanNodeTag}
    {planspans fdw : Option OtelSpanRef}
    (hen : (TracingAct.nodeBegin query addr tag planspans fdw).Enabled s.1) :
    ChildrenOpen (loggedTracing.next s (.nodeBegin query addr tag planspans fdw)) := by
  have hb := h.begun hen
  have hspanStack := nodeBegin_planspansStack s.1.trace planspans fdw ⟨s.1.newPtr addr, tag⟩
    s.1.currentLevel
  have hsorts := hb.sorts h rfl (fun hwraps => ?_)
    (nodeBegin_sortwrapStack s.1.trace planspans fdw ⟨s.1.newPtr addr, tag⟩ s.1.currentLevel)
  swap
  · simp only [wraps, Bool.and_eq_true, decide_eq_true_eq] at hwraps
    exact hwraps.2.1
  have hopened : (loggedTracing.next s (.nodeBegin query addr tag planspans fdw)).2.opened =
      (planspans.filter (s.1.trace.opensChild tag)).toList.map (fun ref => (s.1.newPtr addr, ref)) ++
        s.2.opened := rfl
  cases hopens : planspans.filter (s.1.trace.opensChild tag) with
  | none =>
    rw [hopens] at hspanStack hopened
    exact h.unopened hb hsorts hspanStack hopened
  | some ref₀ =>
    have hname : (planspansSpanName tag).isSome := by
      have hfilter := (Option.filter_eq_some_iff.1 hopens).2
      simp only [TraceSt.opensChild, Bool.and_eq_true] at hfilter
      exact hfilter.1.1
    rw [hopens] at hspanStack hopened
    exact h.opensChild hb hsorts hname hspanStack hopened

/-- The end of a query concerns its own nodes only. -/
theorem executorEnd (h : ChildrenOpen s) {query : Ptr} {planspans : Bool}
    (hen : (TracingAct.executorEnd query planspans).Enabled s.1) :
    ChildrenOpen (loggedTracing.next s (.executorEnd query planspans)) := by
  have hfilter := List.filter_sublist (l := s.1.queries) (p := fun q => q.ptr ≠ query)
  refine h.keep (h.core.step hen) (Nat.le_refl _) (hfilter.flatMap _).subset
    (nodeEnds_planspansStack_sublist planspans _) (nodeEnds_sortwrapStack_sublist planspans _) rfl
    (fun node ref hc => ?_) fun n hn e he hkey => ?_
  · rcases List.mem_append.1 hc with hc | hc
    · exact .inl hc
    · obtain ⟨query', planspans', heq, m, hm, rfl⟩ := child_mem_endCalls hc
      obtain ⟨rfl, rfl⟩ := TracingAct.executorEnd.inj heq
      refine .inr ⟨⟨m, ?_, rfl⟩, fun n hn heq => ?_⟩
      · obtain ⟨q, hq, hm⟩ := List.mem_flatMap.1 hm
        exact List.mem_flatMap.2 ⟨q, (List.mem_filter.1 hq).1, hm⟩
      · exact h.core.other_node_addr hn hm (congrArg Ptr.addr heq)
  · refine mem_nodeEnds_planspansStack he fun m hm heq => ?_
    rw [hkey] at heq
    exact h.core.other_node_addr hn hm heq

/-- An abort takes no entries of the queries that live on. -/
theorem abort (h : ChildrenOpen s) {unwound : ℕ} {dead : List Ptr}
    (hen : (TracingAct.abort unwound dead).Enabled s.1)
    (hok : KeepsChildren s.1 (.abort unwound dead)) :
    ChildrenOpen (loggedTracing.next s (.abort unwound dead)) := by
  have hcore := h.core.step hen
  obtain ⟨⟨top, rest, hlevels, -⟩, -⟩ := hen
  have hqueries := abort_queries hlevels unwound dead
  have hspans := abort_planspansStack hlevels unwound dead
  have hsorts := abort_sortwrapStack hlevels unwound dead
  have hnodes : (s.1.next (.abort unwound dead)).planNodes ⊆ s.1.planNodes := by
    rw [planNodes, hqueries]
    exact (List.filter_sublist.flatMap _).subset
  have hobj := abort_nextObj s.1 unwound dead
  have hends : (loggedTracing.next s (.abort unwound dead)).2.ends = s.2.ends := List.append_nil _
  refine h.keep hcore hobj.ge hnodes ?_ ?_ rfl (fun node ref hc => .inl (hends ▸ hc))
    fun n hn e he hkey => ?_
  · change (s.1.next (.abort unwound dead)).trace.planspansStack.Sublist _
    rw [hspans]
    split_ifs
    · exact List.nil_sublist _
    · exact List.filter_sublist
  · change (s.1.next (.abort unwound dead)).trace.sortwrapStack.Sublist _
    rw [hsorts]
    split_ifs
    · exact List.nil_sublist _
    · exact List.filter_sublist
  · change e ∈ (s.1.next (.abort unwound dead)).trace.planspansStack
    obtain ⟨q, hq, hn⟩ := List.mem_flatMap.1 hn
    have hq : q ∈ (s.1.next (.abort unwound dead)).queries := hq
    rw [hqueries] at hq
    obtain ⟨hq, hlives⟩ := List.mem_filter.1 hq
    have hlives : s.1.dies dead q = false := by simpa using hlives
    rw [hspans, rest_of_lives hlevels hlives]
    exact List.mem_filter.2 ⟨he, decide_eq_true (hok q hq hlives n hn e he hkey)⟩

theorem step (h : ChildrenOpen s) {a : TracingAct} (hen : a.Enabled s.1)
    (hok : KeepsChildren s.1 a) : ChildrenOpen (loggedTracing.next s a) := by
  rcases nodeStacks_step h.core hen with hsame | ⟨query, addr, tag, planspans, fdw, rfl⟩ |
    ⟨query, planspans, rfl⟩ | ⟨unwound, dead, rfl⟩
  · cases a with
    | nodeBegin query addr tag planspans fdw => exact h.nodeBegin hen
    | executorEnd query planspans => exact h.executorEnd hen
    | _ =>
      refine h.keep (h.core.step hen) hsame.obj hsame.planNodes_subset
        (hsame.entries.planspans ▸ List.Sublist.refl _) (hsame.entries.sortwrap ▸ List.Sublist.refl _)
        rfl (fun node ref hc => ?_) fun n _ e he _ => hsame.entries.planspans ▸ he
      rcases List.mem_append.1 hc with hc | hc
      · exact .inl hc
      · obtain ⟨query, planspans, heq, -⟩ := child_mem_endCalls hc
        cases heq
  · exact h.nodeBegin hen
  · exact h.executorEnd hen
  · exact h.abort hen hok

/-- The entries at the addresses of a query's nodes are those of its nodes. -/
theorem ownNodes (h : ChildrenOpen s) {q : Query} (hq : q ∈ s.1.queries) {planspans : Bool}
    (hok : KeepsChildren s.1 (.executorEnd q.ptr planspans)) :
    OwnNodes (s.1.trace.popStmtSpan q.ptr).1 q.nodes where
  spans_once := h.spans.once
  sorts_once := h.sorts.once
  span_own n hn e he haddr := by
    have hkey := ((hok q hq rfl n hn).1 e he haddr).2
    exact ⟨hkey, h.named e he n (List.mem_flatMap.2 ⟨q, hq, hn⟩) hkey⟩
  sort_own n hn e he haddr := by
    have hkey := ((hok q hq rfl n hn).2 e he haddr).2
    exact ⟨hkey, h.sorted e he n (List.mem_flatMap.2 ⟨q, hq, hn⟩) hkey⟩

end ChildrenOpen

/-- Where the collector is disabled, the end walk leaves both stacks alone. -/
theorem endWalk_disabled (nodes : List PlanNode) (t : TraceSt) :
    (nodes.foldl (TraceSt.nodeEnd false) t).planspansStack = t.planspansStack ∧
      (nodes.foldl (TraceSt.nodeEnd false) t).sortwrapStack = t.sortwrapStack := by
  induction nodes generalizing t with
  | nil => exact ⟨rfl, rfl⟩
  | cons n ns ih =>
    have hspans := nodeEnd_planspansStack (t := t) false n
    have hsorts := nodeEnd_sortwrapStack (t := t) false n
    exact ⟨(ih _).1.trans hspans, (ih _).2.trans hsorts⟩

theorem CoreOk.ended_nodes {s : TracingSt} (h : CoreOk s) {q : Query} (hq : q ∈ s.queries) :
    (s.queries.filter fun q' => q'.ptr = q.ptr).flatMap Query.nodes = q.nodes := by
  have hsingle : s.queries.filter (fun q' => q'.ptr = q.ptr) = [q] := by
    have hnd := h.queries_nodup
    obtain ⟨l₁, l₂, hsplit⟩ := List.append_of_mem hq
    rw [hsplit, List.map_append, List.map_cons] at hnd
    have hnew := (List.nodup_middle.1 hnd).notMem
    rw [← List.map_append] at hnew
    have hother : ∀ l : List Query, l ⊆ l₁ ++ l₂ → l.filter (fun q' => q'.ptr = q.ptr) = [] :=
      fun l hl => List.filter_eq_nil_iff.2 fun x hx heq =>
        hnew (of_decide_eq_true heq ▸ List.mem_map_of_mem (hl hx))
    rw [hsplit, List.filter_append, List.filter_cons_of_pos (by simp),
      hother l₁ (List.subset_append_left _ _), hother l₂ (List.subset_append_right _ _),
      List.nil_append]
  rw [hsingle, List.flatMap_singleton]

theorem CoreOk.nodes_nodup {s : TracingSt} (h : CoreOk s) {q : Query} (hq : q ∈ s.queries) :
    (q.nodes.map PlanNode.ptr).Nodup := by
  have hnd : s.planNodes.Nodup := List.Nodup.of_map _ (List.Nodup.of_map _ h.nodes_distinct)
  refine ((List.nodup_flatMap.1 hnd).1 q hq).map_on fun n hn m hm heq => ?_
  exact h.node_eq (List.mem_flatMap.2 ⟨q, hq, hn⟩) (List.mem_flatMap.2 ⟨q, hq, hm⟩)
    (congrArg Ptr.addr heq)

/-- In runs whose subtransaction aborts leave the child spans of the queries that live on, the end of
every query that finds its collector enabled, and no entry of another node at the addresses of its
nodes, closes the query's child spans. -/
theorem child_spans_closed {s : TracingSt × SpanLog} (hs : loggedTracing.ReachBy
      (fun s => KeepsChildren s.1) s) {q : Query} (hq : q ∈ s.1.queries) {planspans : Bool}
    (hok : KeepsChildren s.1 (.executorEnd q.ptr planspans)) : ClosesChildren s q planspans := by
  have h : ChildrenOpen s := hs.invariant .init fun _ _ hi he ho => hi.step (he.1 _ rfl) ho
  have hown := h.ownNodes hq hok
  have htrace : (s.1.next (.executorEnd q.ptr planspans)).trace =
      q.nodes.foldl (TraceSt.nodeEnd planspans) (s.1.trace.popStmtSpan q.ptr).1 :=
    congrArg (fun nodes => nodes.foldl (TraceSt.nodeEnd planspans) (s.1.trace.popStmtSpan q.ptr).1)
      (h.core.ended_nodes hq)
  have hends : (loggedTracing.next s (.executorEnd q.ptr planspans)).2.ends =
      s.2.ends ++ (s.1.trace.popStmtSpan q.ptr).1.endWalkSpans planspans q.nodes ++
        finalizeSpan (s.1.trace.popStmtSpan q.ptr).2 := by
    rw [List.append_assoc, ← h.core.ended_nodes hq]
    rfl
  have hentry : ∀ n ∈ q.nodes, ∀ ref, (n.ptr, ref) ∈ s.2.opened →
      ∃ e ∈ s.1.trace.planspansStack, e.node = n.ptr ∧ e.ref = ref :=
    fun n hn => h.opened n (List.mem_flatMap.2 ⟨q, hq, hn⟩)
  have hbefore : ∀ n ∈ q.nodes, ∀ ref, s.2.ends.count (.child n.ptr ref) = 0 :=
    fun n hn ref => List.count_eq_zero.2 (h.unended n (List.mem_flatMap.2 ⟨q, hq, hn⟩) ref)
  have hkept : (s.1.next (.executorEnd q.ptr planspans)).trace.planspansStack =
        s.1.trace.planspansStack.filter (fun e => ∀ n ∈ q.nodes, e.node ≠ n.ptr) ∧
      (s.1.next (.executorEnd q.ptr planspans)).trace.sortwrapStack =
        s.1.trace.sortwrapStack.filter fun e => ∀ n ∈ q.nodes, e.node ≠ n.ptr := by
    rw [htrace]
    cases planspans with
    | true => exact ⟨hown.walk_planspans, hown.walk_sortwrap⟩
    | false =>
      -- a node with an entry would need the collector
      have hspan : ∀ e ∈ s.1.trace.planspansStack, ∀ n ∈ q.nodes, e.node ≠ n.ptr :=
        fun e he n hn heq => Bool.false_ne_true ((hok q hq rfl n hn).1 e he (congrArg _ heq)).1
      have hsort : ∀ e ∈ s.1.trace.sortwrapStack, ∀ n ∈ q.nodes, e.node ≠ n.ptr :=
        fun e he n hn heq => Bool.false_ne_true ((hok q hq rfl n hn).2 e he (congrArg _ heq)).1
      obtain ⟨hspans, hsorts⟩ := endWalk_disabled q.nodes (s.1.trace.popStmtSpan q.ptr).1
      rw [hspans, hsorts]
      exact ⟨(List.filter_eq_self.2 fun e he => by simpa using hspan e he).symm,
        (List.filter_eq_self.2 fun e he => by simpa using hsort e he).symm⟩
  refine ⟨⟨_, hends, fun n hn ref href => ⟨?_, hbefore n hn ref⟩⟩, fun n hn => ⟨?_, ?_⟩, hkept⟩
  · obtain ⟨e, he, hkey, rfl⟩ := hentry n hn ref href
    obtain rfl : planspans = true := ((hok q hq rfl n hn).1 e he (congrArg _ hkey)).1
    exact hown.count_endWalkSpans (h.core.nodes_nodup hq) hn he hkey
  · rw [hkept.1]
    intro e he haddr
    obtain ⟨he, hne⟩ := List.mem_filter.1 he
    exact of_decide_eq_true hne n hn ((hok q hq rfl n hn).1 e he haddr).2
  · rw [hkept.2]
    intro e he haddr
    obtain ⟨he, hne⟩ := List.mem_filter.1 he
    exact of_decide_eq_true hne n hn ((hok q hq rfl n hn).2 e he haddr).2

/-- A query with a function scan has been started. -/
def functionScanOpen : TracingSt × SpanLog :=
  [TracingAct.begin, .executorStart 1 false ⟨1⟩,
    .nodeBegin ⟨1, 0⟩ 12 .functionScanState (some ⟨3⟩) none].foldl loggedTracing.next ({}, {})

theorem enabled_logged {s : TracingSt × SpanLog} {a : TracingAct} (h : a.Enabled s.1) :
    loggedTracing.enabled s a :=
  ⟨fun _ hb => by cases hb; exact h, trivial⟩

theorem reachBy_functionScanOpen :
    loggedTracing.ReachBy (fun s => KeepsChildren s.1) functionScanOpen :=
  Machine.ReachBy.run (m := loggedTracing) .init
    ⟨enabled_logged rfl, trivial, enabled_logged ⟨⟨_, _, rfl, rfl⟩, by decide⟩, trivial,
      enabled_logged ⟨⟨_, _, rfl, rfl⟩, by decide, by decide⟩, trivial, trivial⟩

/-- The query of the function scan. -/
def functionScanQuery : Query :=
  { ptr := ⟨1, 0⟩, sub := 0, nodes := [⟨⟨12, 1⟩, .functionScanState⟩], pushed := some ⟨1⟩ }

theorem enabled_functionScanEnd (planspans : Bool) :
    loggedTracing.enabled functionScanOpen (.executorEnd functionScanQuery.ptr planspans) :=
  enabled_logged ⟨⟨_, _, rfl, rfl⟩, ⟨_, List.mem_cons_self, rfl⟩,
    fun _ h => absurd h List.not_mem_nil⟩

theorem child_spans_closed_functionScan :
    ClosesChildren functionScanOpen functionScanQuery true ∧
      functionScanOpen.2.opened = [(⟨12, 1⟩, ⟨3⟩)] := by
  refine ⟨child_spans_closed reachBy_functionScanOpen (by decide) fun q hq _ n hn => ⟨?_, ?_⟩,
    by decide⟩
  · intro e he _
    obtain rfl := List.mem_singleton.1 he
    obtain rfl := List.mem_singleton.1 hq
    obtain rfl := List.mem_singleton.1 hn
    exact ⟨rfl, rfl⟩
  · exact fun e he => absurd he List.not_mem_nil

/-- A query whose child spans are switched off while it runs ends without closing them. -/
theorem switched_off_child_stays_open :
    loggedTracing.Reachable functionScanOpen ∧ functionScanQuery ∈ functionScanOpen.1.queries ∧
      loggedTracing.enabled functionScanOpen (.executorEnd functionScanQuery.ptr false) ∧
      (loggedTracing.next functionScanOpen
        (.executorEnd functionScanQuery.ptr false)).2.ends = [.statement ⟨1⟩] ∧
      (loggedTracing.next functionScanOpen
        (.executorEnd functionScanQuery.ptr false)).1.trace.planspansStack.map NodeSpanEntry.node =
        [⟨12, 1⟩] ∧
      ¬ ClosesChildren functionScanOpen functionScanQuery false := by
  refine ⟨reachBy_functionScanOpen.reachable, by decide, enabled_functionScanEnd false, by decide,
    by decide, fun h => ?_⟩
  exact (h.gone ⟨⟨12, 1⟩, .functionScanState⟩ List.mem_cons_self).1
    ⟨⟨12, 1⟩, ⟨3⟩, ⟨1, 0⟩⟩ (by decide) rfl

end PostgresOtel
