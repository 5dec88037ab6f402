import Mathlib.Data.List.Flatten
import Mathlib.Data.List.Pairwise
import PostgresOtel.Trace.Core

/-!
# The objects that are alive

What core guarantees about addresses and numbers, whatever the hooks do: objects that live at the
same time are at different addresses, and every object and subtransaction is older than the next.
-/

set_option autoImplicit false

namespace PostgresOtel

open KeyedStack TracingSt

/-- Open subtransactions have numbers of their own, given out before. -/
def LevelsOk (levels : List Subxact) (nextSub : ℕ) : Prop :=
  (∀ x ∈ levels, x.id < nextSub) ∧ (levels.map Subxact.id).Nodup

structure CoreOk (s : TracingSt) : Prop where
  distinct : Distinct s.livePtrs
  old : ∀ p ∈ s.livePtrs, p.obj < s.nextObj
  nodes_distinct : Distinct (s.planNodes.map PlanNode.ptr)
  nodes_old : ∀ n ∈ s.planNodes, n.ptr.obj < s.nextObj
  levels : LevelsOk s.levels s.nextSub

namespace CoreOk

variable {s s' : TracingSt}

theorem init : CoreOk {} where
  distinct := List.nodup_nil
  old _ h := absurd h List.not_mem_nil
  nodes_distinct := List.nodup_nil
  nodes_old _ h := absurd h List.not_mem_nil
  levels := ⟨fun _ h => absurd h List.not_mem_nil, List.nodup_nil⟩

/-- Objects and levels may go. -/
theorem shrink (h : CoreOk s) (hlive : s'.livePtrs.Sublist s.livePtrs)
    (hnodes : s'.planNodes.Sublist s.planNodes) (hobj : s.nextObj ≤ s'.nextObj)
    (hlevels : LevelsOk s'.levels s'.nextSub) : CoreOk s' where
  distinct := h.distinct.sublist (hlive.map _)
  old p hp := Nat.lt_of_lt_of_le (h.old p (hlive.subset hp)) hobj
  nodes_distinct := h.nodes_distinct.sublist ((hnodes.map _).map _)
  nodes_old n hn := Nat.lt_of_lt_of_le (h.nodes_old n (hnodes.subset hn)) hobj
  levels := hlevels

/-- A query or a traced call is new. -/
theorem create (h : CoreOk s) {addr : ℕ} (hfree : s.FreeAddr addr)
    (hlive : s'.livePtrs.Perm (s.newPtr addr :: s.livePtrs)) (hnodes : s'.planNodes = s.planNodes)
    (hobj : s'.nextObj = s.nextObj + 1) (hlevels : LevelsOk s'.levels s'.nextSub) :
    CoreOk s' where
  distinct := by
    refine (hlive.map Ptr.addr).nodup_iff.2 (List.nodup_cons.2 ⟨fun hm => ?_, h.distinct⟩)
    obtain ⟨p, hp, hpa⟩ := List.mem_map.1 hm
    exact hfree p hp hpa
  old p hp := by
    rw [hobj]
    rcases List.mem_cons.1 (hlive.mem_iff.1 hp) with rfl | hp
    · exact Nat.lt_succ_self _
    · exact Nat.lt_succ_of_lt (h.old p hp)
  nodes_distinct := hnodes ▸ h.nodes_distinct
  nodes_old n hn := by
    rw [hobj]
    exact Nat.lt_succ_of_lt (h.nodes_old n (hnodes ▸ hn))
  levels := hlevels

/-- The queries with a given `QueryDesc` are one. -/
theorem query_unique (h : CoreOk s) {q q' : Query} (hq : q ∈ s.queries) (hq' : q' ∈ s.queries)
    (heq : q.ptr = q'.ptr) : q = q' := by
  have hd := h.distinct
  unfold Distinct livePtrs at hd
  rw [List.map_append, List.map_map] at hd
  exact List.inj_on_of_nodup_map (List.nodup_append.1 hd).1 hq hq' (congrArg Ptr.addr heq)

end CoreOk

/-- Giving one query a node gives the backend one. -/
theorem flatMap_nodes_perm {queries : List Query} {query : Ptr} {n : PlanNode}
    (hnd : (queries.map Query.ptr).Nodup) (hq : ∃ q ∈ queries, q.ptr = query) :
    ((queries.map fun q => if q.ptr = query then { q with nodes := n :: q.nodes } else q).flatMap
      Query.nodes).Perm (n :: queries.flatMap Query.nodes) := by
  obtain ⟨q, hq, rfl⟩ := hq
  obtain ⟨l₁, l₂, rfl⟩ := List.append_of_mem hq
  rw [List.map_append, List.map_cons] at hnd
  have hnot := (List.nodup_middle.1 hnd).notMem
  rw [← List.map_append] at hnot
  have hsame : ∀ l : List Query, (∀ x ∈ l, x ∈ l₁ ++ l₂) →
      (l.map fun x => if x.ptr = q.ptr then { x with nodes := n :: x.nodes } else x) = l := by
    intro l hl
    refine (List.map_congr_left fun x hx => if_neg fun heq : x.ptr = q.ptr => ?_).trans (List.map_id l)
    exact hnot (heq ▸ List.mem_map_of_mem (hl x hx))
  rw [List.map_append, List.map_cons, hsame l₁ fun x hx => List.mem_append_left _ hx,
    hsame l₂ fun x hx => List.mem_append_right _ hx, if_pos rfl, List.flatMap_append,
    List.flatMap_cons, List.flatMap_append, List.flatMap_cons]
  exact List.perm_middle

/-- Changing queries so that they have fewer nodes. -/
theorem flatMap_nodes_sublist (queries : List Query) (f : Query → Query)
    (hf : ∀ q, (f q).nodes.Sublist q.nodes) :
    ((queries.map f).flatMap Query.nodes).Sublist (queries.flatMap Query.nodes) := by
  induction queries with
  | nil => exact List.Sublist.refl _
  | cons q qs ih =>
    rw [List.map_cons, List.flatMap_cons, List.flatMap_cons]
    exact (hf q).append ih

/-- Changing queries keeps their pointers. -/
theorem map_ptr_congr (queries : List Query) (f : Query → Query) (hf : ∀ q, (f q).ptr = q.ptr) :
    (queries.map f).map Query.ptr = queries.map Query.ptr := by
  rw [List.map_map]
  exact List.map_congr_left fun q _ => hf q

theorem abort_queries {s : TracingSt} {top : Subxact} {rest : List Subxact}
    (hlevels : s.levels = top :: rest) (unwound : ℕ) (dead : List Ptr) :
    (s.next (.abort unwound dead)).queries = s.queries.filter fun q => !s.dies dead q := by
  simp only [next, hlevels]

theorem abort_nextObj (s : TracingSt) (unwound : ℕ) (dead : List Ptr) :
    (s.next (.abort unwound dead)).nextObj = s.nextObj := by
  simp only [next]
  split <;> rfl

/-- An abort makes no new object. -/
theorem livePtrs_abort (s : TracingSt) (unwound : ℕ) (dead : List Ptr) :
    (s.next (.abort unwound dead)).livePtrs ⊆ s.livePtrs := by
  have hfilter := List.filter_sublist (l := s.queries) (p := fun q => !s.dies dead q)
  simp only [next]
  split
  · exact List.Subset.refl _
  · exact ((hfilter.map _).append ((List.drop_sublist unwound _).filterMap _)).subset

/-- The nodes of queries come and go while the queries run. -/
theorem livePtrs_nodeBegin (s : TracingSt) (query : Ptr) (addr : ℕ) (tag : PlanNodeTag)
    (planspans fdw : Option OtelSpanRef) :
    (s.next (.nodeBegin query addr tag planspans fdw)).livePtrs = s.livePtrs :=
  congrArg (· ++ _) (map_ptr_congr _ _ fun q => by split_ifs <;> rfl)

theorem livePtrs_nodeEnd (s : TracingSt) (query node : Ptr) :
    (s.next (.nodeEnd query node)).livePtrs = s.livePtrs :=
  congrArg (· ++ _) (map_ptr_congr _ _ fun q => by split_ifs <;> rfl)

namespace CoreOk

variable {s : TracingSt}

theorem queries_nodup (h : CoreOk s) : (s.queries.map Query.ptr).Nodup := by
  have hd := List.Nodup.of_map _ h.distinct
  exact (List.nodup_append.1 hd).1

/-- A node is found by its address. -/
theorem node_eq (h : CoreOk s) {n m : PlanNode} (hn : n ∈ s.planNodes) (hm : m ∈ s.planNodes)
    (haddr : n.ptr.addr = m.ptr.addr) : n = m := by
  have hd := h.nodes_distinct
  unfold Distinct at hd
  rw [List.map_map] at hd
  exact List.inj_on_of_nodup_map hd hn hm haddr

/-- A node belongs to one query. -/
theorem node_query (h : CoreOk s) {q q' : Query} (hq : q ∈ s.queries) (hq' : q' ∈ s.queries)
    {n : PlanNode} (hn : n ∈ q.nodes) (hn' : n ∈ q'.nodes) : q = q' := by
  have hnd : s.planNodes.Nodup := List.Nodup.of_map _ (List.Nodup.of_map _ h.nodes_distinct)
  have hdisj := (List.nodup_flatMap.1 hnd).2
  by_contra hne
  have : Std.Symm (Function.onFun List.Disjoint Query.nodes) := 
    ⟨fun _ _ hxy _ ha hb => hxy hb ha⟩
  exact hdisj.forall hq hq' hne hn hn'

/-- The steps that begin or end levels. -/
theorem levels_step (h : CoreOk s) {levels : List Subxact} {nextSub : ℕ} (t : TraceSt)
    (hlevels : LevelsOk levels nextSub) :
    CoreOk { s with levels := levels, nextSub := nextSub, trace := t } :=
  h.shrink (List.Sublist.refl _) (List.Sublist.refl _) (Nat.le_refl _) hlevels

/-- Core keeps its promises. -/
theorem step (h : CoreOk s) {a : TracingAct} (hen : a.Enabled s) : CoreOk (s.next a) := by
  have hdrop : ∀ n, ((s.frames.drop n).filterMap CallFrame.token).Sublist
      (s.frames.filterMap CallFrame.token) := fun n => (List.drop_sublist n _).filterMap _
  cases a with
  | begin =>
    refine h.levels_step s.trace ⟨fun x hx => ?_, List.nodup_singleton _⟩
    obtain rfl := List.mem_singleton.1 hx
    exact Nat.lt_succ_self _
  | savepoint =>
    refine h.levels_step s.trace ⟨List.forall_mem_cons.2 ⟨Nat.lt_succ_self _, fun x hx => ?_⟩,
      List.nodup_cons.2 ⟨fun hm => ?_, h.levels.2⟩⟩
    · exact Nat.lt_succ_of_lt (h.levels.1 x hx)
    · obtain ⟨x, hx, hid⟩ := List.mem_map.1 hm
      exact absurd (h.levels.1 x hx) (by rw [hid]; exact Nat.lt_irrefl _)
  | release =>
    obtain ⟨top, parent, rest, hlevels, -⟩ := hen
    obtain ⟨hold, hnd⟩ := h.levels
    rw [hlevels] at hold hnd
    simp only [next, hlevels]
    refine h.levels_step _ ⟨List.forall_mem_cons.2 ⟨?_, fun x hx => ?_⟩, hnd.of_cons⟩
    · exact hold parent (List.mem_cons_of_mem _ List.mem_cons_self)
    · exact hold x (List.mem_cons_of_mem _ (List.mem_cons_of_mem _ hx))
  | commit prepare =>
    exact h.levels_step _ ⟨fun x hx => absurd hx List.not_mem_nil, List.nodup_nil⟩
  | abort unwound dead =>
    obtain ⟨⟨top, rest, hlevels, -⟩, -⟩ := hen
    obtain ⟨hold, hnd⟩ := h.levels
    rw [hlevels] at hold hnd
    have hfilter := List.filter_sublist (l := s.queries) (p := fun q => !s.dies dead q)
    simp only [next, hlevels]
    refine h.shrink ((hfilter.map _).append (hdrop unwound)) (hfilter.flatMap _) (Nat.le_refl _)
      ⟨List.forall_mem_cons.2 ⟨?_, fun x hx => hold x (List.mem_cons_of_mem _ hx)⟩, hnd⟩
    exact hold top List.mem_cons_self
  | cleanup =>
    exact h.levels_step s.trace ⟨fun x hx => h.levels.1 x (List.mem_of_mem_tail hx),
      h.levels.2.sublist ((List.tail_sublist _).map _)⟩
  | executorStart addr isCursor ref =>
    exact h.create hen.2 (List.Perm.refl _) rfl rfl h.levels
  | nodeBegin query addr tag planspans fdw =>
    obtain ⟨-, hq, hfree⟩ := hen
    have hperm := flatMap_nodes_perm (n := ⟨s.newPtr addr, tag⟩) h.queries_nodup hq
    have hlive := livePtrs_nodeBegin s query addr tag planspans fdw
    refine ⟨hlive ▸ h.distinct, fun p hp => ?_, ?_, fun n hn => ?_, h.levels⟩
    · rw [hlive] at hp
      exact Nat.lt_succ_of_lt (h.old p hp)
    · refine ((hperm.map PlanNode.ptr).map Ptr.addr).nodup_iff.2
        (List.nodup_cons.2 ⟨fun hm => ?_, h.nodes_distinct⟩)
      obtain ⟨p, hp, hpa⟩ := List.mem_map.1 hm
      obtain ⟨n, hn, rfl⟩ := List.mem_map.1 hp
      exact hfree n hn hpa
    · rcases List.mem_cons.1 (hperm.mem_iff.1 hn) with rfl | hn
      · exact Nat.lt_succ_self _
      · exact Nat.lt_succ_of_lt (h.nodes_old n hn)
  | nodeEnd query node =>
    have hlive := livePtrs_nodeEnd s query node
    refine h.shrink (hlive ▸ List.Sublist.refl _) (flatMap_nodes_sublist _ _ fun q => ?_)
      (Nat.le_refl _) h.levels
    split_ifs
    · exact List.filter_sublist
    · exact List.Sublist.refl _
  | executorEnd query planspans =>
    have hfilter := List.filter_sublist (l := s.queries) (p := fun q => q.ptr ≠ query)
    exact h.shrink ((hfilter.map _).append (List.Sublist.refl _)) (hfilter.flatMap _) (Nat.le_refl _)
      h.levels
  | runBegin query =>
    exact h.shrink (List.Sublist.refl _) (List.Sublist.refl _) (Nat.le_refl _) h.levels
  | runEnd =>
    refine h.shrink ((List.Sublist.refl _).append ?_) (List.Sublist.refl _) (Nat.le_refl _) h.levels
    exact (List.tail_sublist _).filterMap _
  | utilityBegin addr toplevel ref =>
    cases toplevel with
    | true => exact h.create hen.2 List.perm_middle rfl rfl h.levels
    | false =>
      exact h.shrink (List.Sublist.refl _) (List.Sublist.refl _) (Nat.le_succ _) h.levels
  | utilityEnd =>
    obtain ⟨token, toplevel, sub, rest, hframes⟩ := hen
    have hone := hdrop 1
    rw [hframes] at hone
    simp only [next, hframes]
    refine h.shrink ((List.Sublist.refl _).append ?_) (List.Sublist.refl _) (Nat.le_refl _) h.levels
    rw [hframes]
    exact hone
  | errorWhenAborted unwound =>
    exact h.shrink ((List.Sublist.refl _).append (hdrop unwound)) (List.Sublist.refl _)
      (Nat.le_refl _) h.levels

/-- A query and a traced call are at different addresses. -/
theorem token_addr_ne (h : CoreOk s) {q : Query} (hq : q ∈ s.queries) {f : CallFrame}
    (hf : f ∈ s.frames) {token : Ptr} (ht : f.token = some token) : q.ptr.addr ≠ token.addr := by
  have hd := h.distinct
  unfold Distinct livePtrs at hd
  rw [List.map_append] at hd
  refine (List.nodup_append.1 hd).2.2 _ (List.mem_map_of_mem (List.mem_map_of_mem hq)) _ ?_
  exact List.mem_map_of_mem (List.mem_filterMap.2 ⟨f, hf, ht⟩)

end CoreOk

/-! ## The statement stack -/

namespace TraceSt

variable {t : TraceSt} {nest : NestLevel}

/-- A push adds one entry, or none. -/
theorem pushStmtSpan_stack (t : TraceSt) (key : Ptr) (ref : OtelSpanRef) (detached : Bool)
    (nest : NestLevel) : (t.pushStmtSpan key ref detached nest).1.stmtStack =
      if t.pushesStmt ref then ⟨key, ref, nest, detached⟩ :: t.stmtStack else t.stmtStack := by
  unfold pushStmtSpan pushesStmt
  by_cases hv : ref.v = 0
  · simp [hv]
  · by_cases hle : otelStmtStackMax ≤ t.stmtStack.length
    · simp [hv, hle, Nat.not_lt.2 hle]
    · simp [hv, hle, Nat.lt_of_not_le hle]

/-- Plan nodes are kept on other stacks. -/
theorem nodeBegin_stmtStack (t : TraceSt) (planspans fdw : Option OtelSpanRef) (n : PlanNode)
    (nest : NestLevel) : (t.nodeBegin planspans fdw n nest).stmtStack = t.stmtStack := by
  have hbegun : (planspans.elim t fun ref => t.planspansNodeBegin n.ptr n.tag ref nest).stmtStack =
      t.stmtStack := by
    cases planspans with
    | none => rfl
    | some ref =>
      change (t.planspansNodeBegin n.ptr n.tag ref nest).stmtStack = _
      unfold planspansNodeBegin
      split_ifs <;> rfl
  by_cases hscan : n.tag = .foreignScanState
  · simp only [nodeBegin, if_pos hscan]
    cases fdw with
    | none => exact hbegun
    | some ref =>
      refine Eq.trans ?_ hbegun
      change (otelFdwScanBegin _ n.ptr ref nest).stmtStack = _
      unfold otelFdwScanBegin
      split_ifs <;> rfl
  · simp only [nodeBegin, if_neg hscan]
    exact hbegun

theorem nodeEnd_stmtStack (planspans : Bool) (t : TraceSt) (n : PlanNode) :
    (t.nodeEnd planspans n).stmtStack = t.stmtStack := by
  simp only [nodeEnd, planspansNodeEnd, otelFdwScanEnd]
  split_ifs <;> rfl

theorem nodeEnds_stmtStack (planspans : Bool) (nodes : List PlanNode) (t : TraceSt) :
    (nodes.foldl (TraceSt.nodeEnd planspans) t).stmtStack = t.stmtStack := by
  induction nodes generalizing t with
  | nil => rfl
  | cons n ns ih => exact (ih _).trans (nodeEnd_stmtStack planspans t n)

theorem catchError_stmtStack (t : TraceSt) (f : CallFrame) : (t.catchError f).stmtStack =
    f.token.elim t.stmtStack fun token => remove StmtSpanEntry.key token t.stmtStack := by
  unfold catchError
  cases f.token <;> rfl

theorem catchError_sublist (t : TraceSt) (f : CallFrame) :
    (t.catchError f).stmtStack.Sublist t.stmtStack := by
  rw [catchError_stmtStack]
  cases f.token with
  | none => exact List.Sublist.refl _
  | some token => exact remove_sublist token

theorem caught_sublist (frames : List CallFrame) (t : TraceSt) :
    (frames.foldl catchError t).stmtStack.Sublist t.stmtStack := by
  induction frames generalizing t with
  | nil => exact List.Sublist.refl _
  | cons f fs ih => exact (ih _).trans (catchError_sublist t f)

/-- Ending calls keeps the entries at other addresses. -/
theorem mem_caught {frames : List CallFrame} {e : StmtSpanEntry} (he : e ∈ t.stmtStack)
    (hne : ∀ f ∈ frames, ∀ token, f.token = some token → e.key.addr ≠ token.addr) :
    e ∈ (frames.foldl catchError t).stmtStack := by
  induction frames generalizing t with
  | nil => exact he
  | cons f fs ih =>
    refine ih ?_ fun g hg => hne g (List.mem_cons_of_mem _ hg)
    rw [catchError_stmtStack]
    cases ht : f.token with
    | none => exact he
    | some token => exact mem_remove he (hne f List.mem_cons_self token ht)

end TraceSt

end PostgresOtel
