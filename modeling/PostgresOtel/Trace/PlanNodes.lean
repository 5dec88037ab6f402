import PostgresOtel.Trace.Objects

/-!
# The stacks of the plan nodes

What each step does to `planspans_stack` and `sortwrap_stack`: a plan node that begins may push an
entry on one of them, the end of a query removes those of its nodes, aborts drop entries, and all
other steps leave both alone.
-/

set_option autoImplicit false

namespace PostgresOtel

open KeyedStack TracingSt TraceSt

/-! ## The hooks -/

namespace TraceSt

variable {t t' : TraceSt} {nest : NestLevel}

/-- Neither stack of the plan nodes changes. -/
structure SameNodeStacks (t t' : TraceSt) : Prop where
  planspans : t'.planspansStack = t.planspansStack
  sortwrap : t'.sortwrapStack = t.sortwrapStack

theorem SameNodeStacks.refl : SameNodeStacks t t := ⟨rfl, rfl⟩

theorem SameNodeStacks.trans {t'' : TraceSt} (h : SameNodeStacks t t')
    (h' : SameNodeStacks t' t'') : SameNodeStacks t t'' :=
  ⟨h'.planspans.trans h.planspans, h'.sortwrap.trans h.sortwrap⟩

theorem sameNodeStacks_pushStmtSpan (key : Ptr) (ref : OtelSpanRef) (detached : Bool) :
    SameNodeStacks t (t.pushStmtSpan key ref detached nest).1 := by
  unfold pushStmtSpan
  split_ifs <;> exact ⟨rfl, rfl⟩

theorem sameNodeStacks_catchError (f : CallFrame) : SameNodeStacks t (t.catchError f) := by
  unfold catchError
  cases f.token <;> exact ⟨rfl, rfl⟩

theorem sameNodeStacks_caught (frames : List CallFrame) :
    SameNodeStacks t (frames.foldl catchError t) := by
  induction frames generalizing t with
  | nil => exact .refl
  | cons f fs ih => exact (sameNodeStacks_catchError f).trans ih

/-- The node's exec procedure becomes `sortwrap_exec`. -/
def wraps (t : TraceSt) (tag : PlanNodeTag) : Bool :=
  decide (tag = .sortState) && decide (t.sortwrapStack.length < otelPlanspansStackMax)

/-- The node gets a child span. -/
def opensChild (t : TraceSt) (tag : PlanNodeTag) (ref : OtelSpanRef) : Bool :=
  (planspansSpanName tag).isSome && decide (t.planspansStack.length < otelPlanspansStackMax) &&
    decide (ref.v ≠ 0)

theorem planspansSpanName_sortState : planspansSpanName .sortState = none := rfl

theorem planspansNodeBegin_sortwrapStack (node : Ptr) (tag : PlanNodeTag) (ref : OtelSpanRef) :
    (t.planspansNodeBegin node tag ref nest).sortwrapStack =
      if t.wraps tag then ⟨node, .original node, nest⟩ :: t.sortwrapStack else t.sortwrapStack := by
  unfold planspansNodeBegin wraps
  by_cases hsort : tag = .sortState ∧ t.sortwrapStack.length < otelPlanspansStackMax
  · rw [if_pos hsort]
    simp [hsort.1, hsort.2]
  · have hwraps : (decide (tag = .sortState) &&
        decide (t.sortwrapStack.length < otelPlanspansStackMax)) = false := by simpa using hsort
    rw [if_neg hsort, hwraps, if_neg Bool.false_ne_true]
    split_ifs <;> rfl

theorem planspansNodeBegin_planspansStack (node : Ptr) (tag : PlanNodeTag) (ref : OtelSpanRef) :
    (t.planspansNodeBegin node tag ref nest).planspansStack =
      if t.opensChild tag ref then ⟨node, ref, nest⟩ :: t.planspansStack else t.planspansStack := by
  unfold planspansNodeBegin opensChild
  by_cases hsort : tag = .sortState ∧ t.sortwrapStack.length < otelPlanspansStackMax
  · rw [if_pos hsort, hsort.1, planspansSpanName_sortState]
    rfl
  · rw [if_neg hsort]
    cases hname : (planspansSpanName tag).isSome
    · simp [Option.isSome_eq_false_iff.1 hname]
    · by_cases hfull : otelPlanspansStackMax ≤ t.planspansStack.length
      · simp [hfull, Nat.not_lt.2 hfull]
      · by_cases hnull : ref.v = 0
        · simp [hnull]
        · simp [Option.isNone_eq_false_iff.2 hname, hfull, Nat.lt_of_not_le hfull, hnull]

/-- The foreign scans have a stack of their own. -/
theorem nodeBegin_sameNodeStacks (planspans fdw : Option OtelSpanRef) (n : PlanNode) :
    SameNodeStacks (planspans.elim t fun ref => t.planspansNodeBegin n.ptr n.tag ref nest)
      (t.nodeBegin planspans fdw n nest) := by
  by_cases hscan : n.tag = .foreignScanState
  · simp only [nodeBegin, if_pos hscan]
    cases fdw with
    | none => exact .refl
    | some ref =>
      simp only [Option.elim_some, otelFdwScanBegin]
      split_ifs <;> exact ⟨rfl, rfl⟩
  · simp only [nodeBegin, if_neg hscan]
    exact .refl

theorem nodeBegin_sortwrapStack (t : TraceSt) (planspans fdw : Option OtelSpanRef) (n : PlanNode)
    (nest : NestLevel) : (t.nodeBegin planspans fdw n nest).sortwrapStack =
      if planspans.isSome && t.wraps n.tag then
        ⟨n.ptr, .original n.ptr, nest⟩ :: t.sortwrapStack else t.sortwrapStack := by
  rw [(nodeBegin_sameNodeStacks planspans fdw n).sortwrap]
  cases planspans with
  | none => rfl
  | some ref => exact planspansNodeBegin_sortwrapStack n.ptr n.tag ref

theorem nodeBegin_planspansStack (t : TraceSt) (planspans fdw : Option OtelSpanRef) (n : PlanNode)
    (nest : NestLevel) : (t.nodeBegin planspans fdw n nest).planspansStack =
      (planspans.filter (t.opensChild n.tag)).elim t.planspansStack fun ref =>
        ⟨n.ptr, ref, nest⟩ :: t.planspansStack := by
  rw [(nodeBegin_sameNodeStacks planspans fdw n).planspans]
  cases planspans with
  | none => rfl
  | some ref =>
    rw [Option.elim_some, planspansNodeBegin_planspansStack, Option.filter_some]
    split_ifs <;> rfl

/-- The end of a sort removes its entry, if the collector is enabled. -/
theorem nodeEnd_sortwrapStack (planspans : Bool) (n : PlanNode) :
    (t.nodeEnd planspans n).sortwrapStack = if planspans && decide (n.tag = .sortState) then
      remove SortwrapEntry.node n.ptr t.sortwrapStack else t.sortwrapStack := by
  have hended : (t.nodeEnd planspans n).sortwrapStack =
      (if planspans then t.planspansNodeEnd n.ptr n.tag else t).sortwrapStack := by
    simp only [nodeEnd, otelFdwScanEnd]
    split_ifs <;> rfl
  rw [hended]
  cases planspans with
  | false => rfl
  | true =>
    by_cases hsort : n.tag = .sortState
    · simp [planspansNodeEnd, hsort]
    · simp only [planspansNodeEnd, hsort, if_true, if_false, Bool.true_and, decide_false,
        Bool.false_eq_true]
      split_ifs <;> rfl

/-- The end of a node with a child span removes its entry, if the collector is enabled. -/
theorem nodeEnd_planspansStack (planspans : Bool) (n : PlanNode) :
    (t.nodeEnd planspans n).planspansStack = if planspans && (planspansSpanName n.tag).isSome then
      remove NodeSpanEntry.node n.ptr t.planspansStack else t.planspansStack := by
  have hended : (t.nodeEnd planspans n).planspansStack =
      (if planspans then t.planspansNodeEnd n.ptr n.tag else t).planspansStack := by
    simp only [nodeEnd, otelFdwScanEnd]
    split_ifs <;> rfl
  rw [hended]
  cases planspans with
  | false => rfl
  | true => cases htag : n.tag <;> simp [planspansNodeEnd, planspansSpanName]

theorem nodeEnd_sortwrapStack_sublist (planspans : Bool) (n : PlanNode) :
    (t.nodeEnd planspans n).sortwrapStack.Sublist t.sortwrapStack := by
  rw [nodeEnd_sortwrapStack]
  split_ifs
  · exact remove_sublist _
  · exact List.Sublist.refl _

theorem nodeEnds_sortwrapStack_sublist (planspans : Bool) (nodes : List PlanNode) :
    (nodes.foldl (TraceSt.nodeEnd planspans) t).sortwrapStack.Sublist t.sortwrapStack := by
  induction nodes generalizing t with
  | nil => exact List.Sublist.refl _
  | cons n ns ih => exact ih.trans (nodeEnd_sortwrapStack_sublist planspans n)

/-- The entries of nodes at other addresses stay. -/
theorem mem_nodeEnds_sortwrapStack {planspans : Bool} {nodes : List PlanNode} {e : SortwrapEntry}
    (he : e ∈ t.sortwrapStack) (hne : ∀ n ∈ nodes, e.node.addr ≠ n.ptr.addr) :
    e ∈ (nodes.foldl (TraceSt.nodeEnd planspans) t).sortwrapStack := by
  induction nodes generalizing t with
  | nil => exact he
  | cons n ns ih =>
    refine ih ?_ fun m hm => hne m (List.mem_cons_of_mem _ hm)
    rw [nodeEnd_sortwrapStack]
    split_ifs
    · exact mem_remove he (hne n List.mem_cons_self)
    · exact he

theorem nodeEnd_planspansStack_sublist (planspans : Bool) (n : PlanNode) :
    (t.nodeEnd planspans n).planspansStack.Sublist t.planspansStack := by
  rw [nodeEnd_planspansStack]
  split_ifs
  · exact remove_sublist _
  · exact List.Sublist.refl _

theorem nodeEnds_planspansStack_sublist (planspans : Bool) (nodes : List PlanNode) :
    (nodes.foldl (TraceSt.nodeEnd planspans) t).planspansStack.Sublist t.planspansStack := by
  induction nodes generalizing t with
  | nil => exact List.Sublist.refl _
  | cons n ns ih => exact ih.trans (nodeEnd_planspansStack_sublist planspans n)

theorem mem_nodeEnds_planspansStack {planspans : Bool} {nodes : List PlanNode} {e : NodeSpanEntry}
    (he : e ∈ t.planspansStack) (hne : ∀ n ∈ nodes, e.node.addr ≠ n.ptr.addr) :
    e ∈ (nodes.foldl (TraceSt.nodeEnd planspans) t).planspansStack := by
  induction nodes generalizing t with
  | nil => exact he
  | cons n ns ih =>
    refine ih ?_ fun m hm => hne m (List.mem_cons_of_mem _ hm)
    rw [nodeEnd_planspansStack]
    split_ifs
    · exact mem_remove he (hne n List.mem_cons_self)
    · exact he

end TraceSt

/-! ## The steps -/

/-- A step that neither stack of the plan nodes notices: queries may come without nodes, and foreign
scans may go. -/
structure SameNodes (s s' : TracingSt) : Prop where
  entries : SameNodeStacks s.trace s'.trace
  obj : s.nextObj ≤ s'.nextObj
  nodes : ∀ q' ∈ s'.queries, q'.nodes = [] ∨ ∃ q ∈ s.queries, q.ptr = q'.ptr ∧ q'.nodes ⊆ q.nodes
  kept : ∀ q ∈ s.queries, ∃ q' ∈ s'.queries, q'.ptr = q.ptr ∧
    ∀ n ∈ q.nodes, n ∈ q'.nodes ∨ n.tag = .foreignScanState

namespace SameNodes

variable {s s' : TracingSt}

/-- Steps that leave the queries alone. -/
theorem of_queries (hstacks : SameNodeStacks s.trace s'.trace) (hobj : s.nextObj ≤ s'.nextObj)
    (hqueries : s'.queries = s.queries) : SameNodes s s' where
  entries := hstacks
  obj := hobj
  nodes q hq := .inr ⟨q, hqueries ▸ hq, rfl, List.Subset.refl _⟩
  kept q hq := ⟨q, hqueries ▸ hq, rfl, fun _ hn => .inl hn⟩

/-- No node comes in. -/
theorem planNodes_subset (h : SameNodes s s') : s'.planNodes ⊆ s.planNodes := by
  intro n hn
  obtain ⟨q', hq', hn⟩ := List.mem_flatMap.1 hn
  rcases h.nodes q' hq' with hnil | ⟨q, hq, -, hsub⟩
  · rw [hnil] at hn
    exact absurd hn List.not_mem_nil
  · exact List.mem_flatMap.2 ⟨q, hq, hsub hn⟩

end SameNodes

/-- The nodes of a query that stays are at other addresses than those of one that ends. -/
theorem CoreOk.other_node_addr {s : TracingSt} (h : CoreOk s) {query : Ptr} {n : PlanNode}
    (hn : n ∈ (s.queries.filter fun q => q.ptr ≠ query).flatMap Query.nodes) {m : PlanNode}
    (hm : m ∈ (s.queries.filter fun q => q.ptr = query).flatMap Query.nodes) :
    n.ptr.addr ≠ m.ptr.addr := by
  intro heq
  obtain ⟨q, hq, hn⟩ := List.mem_flatMap.1 hn
  obtain ⟨q', hq', hm⟩ := List.mem_flatMap.1 hm
  obtain ⟨hq, hne⟩ := List.mem_filter.1 hq
  obtain ⟨hq', heq'⟩ := List.mem_filter.1 hq'
  have hnm : n = m := h.node_eq (List.mem_flatMap.2 ⟨q, hq, hn⟩) (List.mem_flatMap.2 ⟨q', hq', hm⟩) heq
  have hqq : q = q' := h.node_query hq hq' hn (hnm ▸ hm)
  exact of_decide_eq_true hne (hqq ▸ of_decide_eq_true heq')

/-- What a step can do to the stacks of the plan nodes. -/
theorem nodeStacks_step {s : TracingSt} (hcore : CoreOk s) {a : TracingAct} (hen : a.Enabled s) :
    SameNodes s (s.next a) ∨
      (∃ query addr tag planspans fdw, a = .nodeBegin query addr tag planspans fdw) ∨
      (∃ query planspans, a = .executorEnd query planspans) ∨
      ∃ unwound dead, a = .abort unwound dead := by
  have hself : ∀ q ∈ s.queries, ∃ q' ∈ s.queries, q'.ptr = q.ptr ∧
      ∀ n ∈ q.nodes, n ∈ q'.nodes ∨ n.tag = .foreignScanState :=
    fun q hq => ⟨q, hq, rfl, fun _ hn => .inl hn⟩
  cases a with
  | begin => exact .inl (.of_queries .refl (Nat.le_refl _) rfl)
  | savepoint => exact .inl (.of_queries .refl (Nat.le_refl _) rfl)
  | release =>
    obtain ⟨top, parent, rest, hlevels, -⟩ := hen
    simp only [next, hlevels]
    rw [otelPgtracingSubxactCallback_other _ (by decide)]
    exact .inl (.of_queries .refl (Nat.le_refl _) rfl)
  | commit prepare =>
    refine .inl (.of_queries ?_ (Nat.le_refl _) rfl)
    cases prepare <;> exact ⟨rfl, rfl⟩
  | abort unwound dead => exact .inr (.inr (.inr ⟨unwound, dead, rfl⟩))
  | cleanup => exact .inl (.of_queries .refl (Nat.le_refl _) rfl)
  | executorStart addr isCursor ref =>
    refine .inl ⟨sameNodeStacks_pushStmtSpan _ ref isCursor, Nat.le_succ _, fun q' hq' => ?_,
      fun q hq => ⟨q, List.mem_cons_of_mem _ hq, rfl, fun _ hn => .inl hn⟩⟩
    rcases List.mem_cons.1 hq' with rfl | hq'
    · exact .inl rfl
    · exact .inr ⟨q', hq', rfl, List.Subset.refl _⟩
  | nodeBegin query addr tag planspans fdw =>
    exact .inr (.inl ⟨query, addr, tag, planspans, fdw, rfl⟩)
  | nodeEnd query node =>
    obtain ⟨-, q₀, hq₀, hptr, hscan⟩ := hen
    refine .inl ⟨⟨rfl, rfl⟩, Nat.le_refl _, fun q' hq' => ?_, fun q hq => ?_⟩
    · obtain ⟨q, hq, rfl⟩ := List.mem_map.1 hq'
      refine .inr ⟨q, hq, ?_⟩
      split_ifs
      · exact ⟨rfl, List.filter_subset_self _⟩
      · exact ⟨rfl, List.Subset.refl _⟩
    · refine ⟨_, List.mem_map_of_mem hq, ?_⟩
      split_ifs with heq
      · refine ⟨rfl, fun n hn => ?_⟩
        by_cases hnode : n.ptr = node
        · have hnodes := List.Nodup.of_map _ hcore.nodes_distinct
          have heqn : n = ⟨node, .foreignScanState⟩ :=
            List.inj_on_of_nodup_map hnodes (List.mem_flatMap.2 ⟨q, hq, hn⟩)
              (List.mem_flatMap.2 ⟨q₀, hq₀, hscan⟩) hnode
          exact .inr (congrArg PlanNode.tag heqn)
        · exact .inl (List.mem_filter.2 ⟨hn, decide_eq_true hnode⟩)
      · exact ⟨rfl, fun _ hn => .inl hn⟩
  | executorEnd query planspans => exact .inr (.inr (.inl ⟨query, planspans, rfl⟩))
  | runBegin query => exact .inl (.of_queries .refl (Nat.le_refl _) rfl)
  | runEnd => exact .inl (.of_queries .refl (Nat.le_refl _) rfl)
  | utilityBegin addr toplevel ref =>
    refine .inl (.of_queries ?_ (Nat.le_succ _) rfl)
    cases toplevel with
    | true => exact sameNodeStacks_pushStmtSpan _ ref false
    | false => exact .refl
  | utilityEnd =>
    obtain ⟨token, toplevel, sub, rest, hframes⟩ := hen
    simp only [next, hframes]
    exact .inl (.of_queries (sameNodeStacks_catchError _) (Nat.le_refl _) rfl)
  | errorWhenAborted unwound =>
    exact .inl (.of_queries (sameNodeStacks_caught _) (Nat.le_refl _) rfl)

/-- What the abort of a level does to the stacks of the plan nodes. -/
theorem abort_sortwrapStack {s : TracingSt} {top : Subxact} {rest : List Subxact}
    (hlevels : s.levels = top :: rest) (unwound : ℕ) (dead : List Ptr) :
    (s.next (.abort unwound dead)).trace.sortwrapStack = if rest.isEmpty then [] else
      dropFromLevel SortwrapEntry.subxactLevel s.levels.length s.trace.sortwrapStack := by
  have hcaught : (s.caught unwound).sortwrapStack = s.trace.sortwrapStack :=
    (sameNodeStacks_caught _).sortwrap
  simp only [next, hlevels, currentLevel]
  rw [← hcaught]
  split_ifs <;> rfl

theorem abort_planspansStack {s : TracingSt} {top : Subxact} {rest : List Subxact}
    (hlevels : s.levels = top :: rest) (unwound : ℕ) (dead : List Ptr) :
    (s.next (.abort unwound dead)).trace.planspansStack = if rest.isEmpty then [] else
      dropFromLevel NodeSpanEntry.subxactLevel s.levels.length s.trace.planspansStack := by
  have hcaught : (s.caught unwound).planspansStack = s.trace.planspansStack :=
    (sameNodeStacks_caught _).planspans
  simp only [next, hlevels, currentLevel]
  rw [← hcaught]
  split_ifs <;> rfl

/-- A query that lives on after an abort leaves a level around it. -/
theorem rest_of_lives {s : TracingSt} {top : Subxact} {rest : List Subxact}
    (hlevels : s.levels = top :: rest) {dead : List Ptr} {q : Query}
    (hlives : s.dies dead q = false) : rest.isEmpty = false := by
  by_contra hempty
  simp [dies, hlevels, Bool.of_not_eq_false hempty] at hlives

end PostgresOtel
