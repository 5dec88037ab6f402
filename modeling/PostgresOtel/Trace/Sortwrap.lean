import Mathlib.Logic.Function.Basic
import PostgresOtel.Trace.PlanNodes

/-!
# Wrapped sorts

`planspans_node_begin` points the `ExecProcNode` of a sort at `sortwrap_exec` and keeps the procedure
it replaced on `sortwrap_stack`; the node's first call puts it back.  The wrapper stays in the node
for as long as the query lives, while aborts prune the stack: a node called after its entry is gone
fails the query.
-/

set_option autoImplicit false

namespace PostgresOtel

open KeyedStack TracingSt TraceSt

/-! ## The exec procedures -/

/-- A step of the backend, or the executor calls a node. -/
inductive SortAct
  | hook (a : TracingAct)
  | execProcNode (node : Ptr)

def SortAct.hook? : SortAct → Option TracingAct
  | .hook a => some a
  | .execProcNode _ => none

/-- The backend, and what each plan node's `ExecProcNode` points to. -/
abbrev SortSt := TracingSt × (Ptr → ExecProcNodeMtd)

/-- Nodes are called while their query lives. -/
def SortAct.Calls (s : SortSt) : SortAct → Prop
  | .hook _ => True
  | .execProcNode node => s.1.InProgress ∧ ∃ n ∈ s.1.planNodes, n.ptr = node

/-- The procedures after a node was called: `sortwrap_exec` puts the node's own one back, or fails. -/
def execProcs (s : SortSt) (node : Ptr) : Ptr → ExecProcNodeMtd :=
  if s.2 node = .sortwrapExec then
    match s.1.trace.sortwrapExec node with
    | .ok prev => Function.update s.2 node prev
    | .error _ => s.2
  else s.2

/-- The begin of a node may wrap it. -/
def SortAct.procs (s : SortSt) : SortAct → Ptr → ExecProcNodeMtd
  | .hook (.nodeBegin _ addr tag planspans _) =>
    if planspans.isSome && s.1.trace.wraps tag then
      Function.update s.2 (s.1.newPtr addr) .sortwrapExec
    else s.2
  | .hook _ => s.2
  | .execProcNode node => execProcs s node

/-- The backend with the calls of its plan nodes. -/
def sorts : Machine SortSt SortAct :=
  tracing.extend ExecProcNodeMtd.original SortAct.hook? SortAct.Calls SortAct.procs

/-! ## Wrapper entries -/

/-- Every live node whose procedure is `sortwrap_exec` has an entry with its own procedure, and
`sortwrap_exec` finds it. -/
def Wrapped (s : SortSt) : Prop :=
  ∀ n ∈ s.1.planNodes, s.2 n.ptr = .sortwrapExec →
    s.1.trace.sortwrapExec n.ptr = .ok (.original n.ptr)

/-- An abort of a subtransaction leaves the wrapper entries of the queries that live on: they are
stamped with a level further out. -/
def KeepsWrapped (s : SortSt) : SortAct → Prop
  | .hook (.abort _ dead) => ∀ q ∈ s.1.queries, s.1.dies dead q = false → ∀ n ∈ q.nodes,
      s.2 n.ptr = .sortwrapExec → ∀ e ∈ s.1.trace.sortwrapStack, e.node = n.ptr →
        e.subxactLevel.level < s.1.levels.length
  | _ => True

/-- The entries are in the order of their nodes, and every wrapped node has its own. -/
structure OwnWrappers (s : SortSt) : Prop where
  core : CoreOk s.1
  dated : Dated SortwrapEntry.node (s.1.planNodes.map PlanNode.ptr) s.1.nextObj
    s.1.trace.sortwrapStack
  prev : ∀ e ∈ s.1.trace.sortwrapStack, e.prev = .original e.node
  own : ∀ n ∈ s.1.planNodes, s.2 n.ptr = .sortwrapExec →
    ∃ e ∈ s.1.trace.sortwrapStack, e.node = n.ptr
  fresh : ∀ p : Ptr, s.1.nextObj ≤ p.obj → s.2 p ≠ .sortwrapExec

namespace OwnWrappers

variable {s s' : SortSt}

theorem init : OwnWrappers sorts.init where
  core := .init
  dated := .nil
  prev _ h := absurd h List.not_mem_nil
  own _ h := absurd h List.not_mem_nil
  fresh _ _ h := by cases h

/-- An own entry is the one that is found. -/
theorem found (h : OwnWrappers s) {n : PlanNode} (hn : n ∈ s.1.planNodes) {e : SortwrapEntry}
    (he : e ∈ s.1.trace.sortwrapStack) (hkey : e.node = n.ptr) :
    s.1.trace.sortwrapExec n.ptr = .ok (.original n.ptr) := by
  have hfind := h.dated.find_own he (hkey ▸ List.mem_map_of_mem hn)
  rw [hkey] at hfind
  simp only [TraceSt.sortwrapExec, sortwrapFind, hfind, h.prev e he, hkey]

theorem wrapped (h : OwnWrappers s) : Wrapped s := by
  intro n hn hexec
  obtain ⟨e, he, hkey⟩ := h.own n hn hexec
  exact h.found hn he hkey

/-- Nodes and entries may go, but not the entry of a wrapped node that stays. -/
theorem keep (h : OwnWrappers s) (hcore : CoreOk s'.1) (hobj : s.1.nextObj ≤ s'.1.nextObj)
    (hnodes : s'.1.planNodes ⊆ s.1.planNodes)
    (hstack : s'.1.trace.sortwrapStack.Sublist s.1.trace.sortwrapStack)
    (hexec : ∀ p, s'.2 p = .sortwrapExec → s.2 p = .sortwrapExec)
    (hkeep : ∀ n ∈ s'.1.planNodes, s'.2 n.ptr = .sortwrapExec →
      ∀ e ∈ s.1.trace.sortwrapStack, e.node = n.ptr → e ∈ s'.1.trace.sortwrapStack) :
    OwnWrappers s' where
  core := hcore
  dated := (h.dated.sublist hstack (List.map_subset _ hnodes)).create hobj fun _ hp => .inl hp
  prev e he := h.prev e (hstack.subset he)
  own n hn hwrap := by
    obtain ⟨e, he, hkey⟩ := h.own n (hnodes hn) (hexec _ hwrap)
    exact ⟨e, hkeep n hn hwrap e he hkey, hkey⟩
  fresh p hp hwrap := h.fresh p (Nat.le_trans hobj hp) (hexec p hwrap)

/-- A call of a node only ever takes a wrapper off. -/
theorem execProcNode (h : OwnWrappers s) (node : Ptr) : OwnWrappers (s.1, execProcs s node) := by
  have hexec : ∀ p, execProcs s node p = .sortwrapExec → s.2 p = .sortwrapExec := by
    intro p hp
    by_cases hnode : s.2 node = .sortwrapExec
    · by_cases heq : p = node
      · exact heq ▸ hnode
      · cases hfind : s.1.trace.sortwrapExec node with
        | error msg => simpa only [execProcs, if_pos hnode, hfind] using hp
        | ok prev =>
          simpa only [execProcs, if_pos hnode, hfind, Function.update_of_ne heq] using hp
    · simpa only [execProcs, if_neg hnode] using hp
  exact h.keep h.core (Nat.le_refl _) (List.Subset.refl _) (List.Sublist.refl _) hexec
    fun _ _ _ _ he _ => he

/-- A new node is wrapped and has an entry, or neither. -/
theorem nodeBegin (h : OwnWrappers s) {query : Ptr} {addr : ℕ} {tag : PlanNodeTag}
    {planspans fdw : Option OtelSpanRef}
    (hen : (TracingAct.nodeBegin query addr tag planspans fdw).Enabled s.1) :
    OwnWrappers (s.1.next (.nodeBegin query addr tag planspans fdw),
      SortAct.procs s (.hook (.nodeBegin query addr tag planspans fdw))) := by
  have hcore := h.core.step hen
  obtain ⟨-, hq, hfree⟩ := hen
  have hperm := flatMap_nodes_perm (n := ⟨s.1.newPtr addr, tag⟩) h.core.queries_nodup hq
  have hnew : ∀ n ∈ (s.1.next (.nodeBegin query addr tag planspans fdw)).planNodes,
      n = ⟨s.1.newPtr addr, tag⟩ ∨ n ∈ s.1.planNodes :=
    fun n hn => List.mem_cons.1 (hperm.mem_iff.1 hn)
  have hstack := nodeBegin_sortwrapStack s.1.trace planspans fdw ⟨s.1.newPtr addr, tag⟩
    s.1.currentLevel
  have hcreate : Dated SortwrapEntry.node
      ((s.1.next (.nodeBegin query addr tag planspans fdw)).planNodes.map PlanNode.ptr)
      (s.1.nextObj + 1) s.1.trace.sortwrapStack := by
    refine h.dated.create (Nat.le_succ _) fun p hp => ?_
    obtain ⟨n, hn, rfl⟩ := List.mem_map.1 hp
    rcases hnew n hn with rfl | hn
    · exact .inr (Nat.le_refl s.1.nextObj)
    · exact .inl (List.mem_map_of_mem hn)
  have hold : ∀ n ∈ s.1.planNodes, n.ptr ≠ s.1.newPtr addr :=
    fun n hn heq => hfree n hn (heq ▸ rfl)
  cases hwrap : planspans.isSome && s.1.trace.wraps tag
  · have hsame : (s.1.next (.nodeBegin query addr tag planspans fdw)).trace.sortwrapStack =
        s.1.trace.sortwrapStack := hstack.trans (by rw [hwrap]; rfl)
    have hprocs : SortAct.procs s (.hook (.nodeBegin query addr tag planspans fdw)) = s.2 := by
      simp only [SortAct.procs, hwrap, Bool.false_eq_true, if_false]
    refine ⟨hcore, hsame ▸ hcreate, hsame ▸ h.prev, fun n hn hexec => ?_, fun p hp => ?_⟩
    · rw [hprocs] at hexec
      rcases hnew n hn with rfl | hn
      · exact absurd hexec (h.fresh _ (Nat.le_refl s.1.nextObj))
      · rw [hsame]
        exact h.own n hn hexec
    · rw [hprocs]
      exact h.fresh p (Nat.le_of_succ_le hp)
  · have hpush : (s.1.next (.nodeBegin query addr tag planspans fdw)).trace.sortwrapStack =
        ⟨s.1.newPtr addr, .original (s.1.newPtr addr), s.1.currentLevel⟩ :: s.1.trace.sortwrapStack :=
      hstack.trans (by rw [hwrap]; rfl)
    have hprocs : SortAct.procs s (.hook (.nodeBegin query addr tag planspans fdw)) =
        Function.update s.2 (s.1.newPtr addr) .sortwrapExec := by
      simp only [SortAct.procs, hwrap, if_true]
    refine ⟨hcore, ?_, ?_, fun n hn hexec => ?_, fun p hp => ?_⟩
    · rw [hpush]
      refine hcreate.push (Nat.lt_succ_self s.1.nextObj) h.dated.old fun p hp hlt => ?_
      obtain ⟨n, hn, rfl⟩ := List.mem_map.1 hp
      rcases hnew n hn with rfl | hn
      · exact absurd hlt (Nat.lt_irrefl _)
      · exact fun heq => hfree n hn heq.symm
    · rw [hpush]
      exact List.forall_mem_cons.2 ⟨rfl, h.prev⟩
    · have hset : Function.update s.2 (s.1.newPtr addr) .sortwrapExec n.ptr = .sortwrapExec :=
        hprocs ▸ hexec
      rw [hpush]
      rcases hnew n hn with rfl | hn
      · exact ⟨_, List.mem_cons_self, rfl⟩
      · rw [Function.update_of_ne (hold n hn)] at hset
        obtain ⟨e, he, hkey⟩ := h.own n hn hset
        exact ⟨e, List.mem_cons_of_mem _ he, hkey⟩
    · have hne : p ≠ s.1.newPtr addr := by
        rintro rfl
        exact absurd hp (Nat.not_succ_le_self _)
      have hset : SortAct.procs s (.hook (.nodeBegin query addr tag planspans fdw)) p = s.2 p := by
        rw [hprocs, Function.update_of_ne hne]
      exact fun hexec => h.fresh p (Nat.le_of_succ_le hp) (hset ▸ hexec)

/-- The end of a query takes its own entries along. -/
theorem executorEnd (h : OwnWrappers s) {query : Ptr} {planspans : Bool}
    (hen : (TracingAct.executorEnd query planspans).Enabled s.1) :
    OwnWrappers (s.1.next (.executorEnd query planspans), s.2) := by
  have hfilter := List.filter_sublist (l := s.1.queries) (p := fun q => q.ptr ≠ query)
  refine h.keep (h.core.step hen) (Nat.le_refl _) (hfilter.flatMap _).subset
    (nodeEnds_sortwrapStack_sublist planspans _) (fun _ hp => hp) fun n hn _ e he hkey => ?_
  refine mem_nodeEnds_sortwrapStack he fun m hm heq => ?_
  rw [hkey] at heq
  exact h.core.other_node_addr hn hm heq

/-- The end of a level takes the entries stamped with it along. -/
theorem abort (h : OwnWrappers s) {unwound : ℕ} {dead : List Ptr}
    (hen : (TracingAct.abort unwound dead).Enabled s.1)
    (hok : KeepsWrapped s (.hook (.abort unwound dead))) :
    OwnWrappers (s.1.next (.abort unwound dead), s.2) := by
  have hcore := h.core.step hen
  obtain ⟨⟨top, rest, hlevels, -⟩, -⟩ := hen
  have hfilter := List.filter_sublist (l := s.1.queries) (p := fun q => !s.1.dies dead q)
  have hqueries := abort_queries hlevels unwound dead
  have hstack := abort_sortwrapStack hlevels unwound dead
  have hnodes : (s.1.next (.abort unwound dead)).planNodes ⊆ s.1.planNodes := by
    rw [planNodes, hqueries]
    exact (hfilter.flatMap _).subset
  have hobj := abort_nextObj s.1 unwound dead
  refine h.keep hcore hobj.ge hnodes ?_ (fun _ hp => hp) fun n hn hexec e he hkey => ?_
  · change (s.1.next (.abort unwound dead)).trace.sortwrapStack.Sublist _
    rw [hstack]
    split_ifs
    · exact List.nil_sublist _
    · exact List.filter_sublist
  · change e ∈ (s.1.next (.abort unwound dead)).trace.sortwrapStack
    obtain ⟨q, hq, hn⟩ := List.mem_flatMap.1 hn
    rw [hqueries] at hq
    obtain ⟨hq, hlives⟩ := List.mem_filter.1 hq
    have hlives : s.1.dies dead q = false := by simpa using hlives
    rw [hstack, rest_of_lives hlevels hlives]
    exact List.mem_filter.2 ⟨he, decide_eq_true (hok q hq hlives n hn hexec e he hkey)⟩

theorem step (h : OwnWrappers s) {a : SortAct} (hen : sorts.enabled s a) (hok : KeepsWrapped s a) :
    OwnWrappers (sorts.next s a) := by
  cases a with
  | execProcNode node => exact h.execProcNode node
  | hook a =>
    have hen : a.Enabled s.1 := hen.1 a rfl
    rcases nodeStacks_step h.core hen with hsame | ⟨query, addr, tag, planspans, fdw, rfl⟩ |
      ⟨query, planspans, rfl⟩ | ⟨unwound, dead, rfl⟩
    · by_cases hnode : ∃ query addr tag planspans fdw, a = .nodeBegin query addr tag planspans fdw
      · obtain ⟨query, addr, tag, planspans, fdw, rfl⟩ := hnode
        exact h.nodeBegin hen
      · have hprocs : SortAct.procs s (.hook a) = s.2 := by
          cases a with
          | nodeBegin query addr tag planspans fdw => exact absurd ⟨_, _, _, _, _, rfl⟩ hnode
          | _ => rfl
        have hnext : sorts.next s (.hook a) = (s.1.next a, s.2) := congrArg (Prod.mk _) hprocs
        rw [hnext]
        refine h.keep (h.core.step hen) hsame.obj hsame.planNodes_subset
          (hsame.entries.sortwrap ▸ List.Sublist.refl _) (fun _ hp => hp) fun _ _ _ e he _ => ?_
        exact hsame.entries.sortwrap ▸ he
    · exact h.nodeBegin hen
    · exact h.executorEnd hen
    · exact h.abort hen hok

end OwnWrappers

/-- The abort of a level leaves every wrapped node its entry if and only if it leaves the entries of
the queries that live on. -/
theorem wrapped_abort_iff {s : SortSt} (h : OwnWrappers s) {unwound : ℕ} {dead : List Ptr}
    (hen : (TracingAct.abort unwound dead).Enabled s.1) :
    Wrapped (sorts.next s (.hook (.abort unwound dead))) ↔
      KeepsWrapped s (.hook (.abort unwound dead)) := by
  refine ⟨fun hwrapped q hq hlives n hn hexec e he hkey => ?_, fun hok => (h.abort hen hok).wrapped⟩
  obtain ⟨⟨top, rest, hlevels, -⟩, -⟩ := hen
  have hstack := abort_sortwrapStack hlevels unwound dead
  rw [rest_of_lives hlevels hlives, if_neg Bool.false_ne_true] at hstack
  have hlive : n ∈ (s.1.next (.abort unwound dead)).planNodes := by
    rw [planNodes, abort_queries hlevels]
    exact List.mem_flatMap.2 ⟨q, List.mem_filter.2 ⟨hq, by rw [hlives]; rfl⟩, hn⟩
  have hcall := hwrapped n hlive hexec
  change (s.1.next (.abort unwound dead)).trace.sortwrapExec n.ptr = _ at hcall
  cases hfind : (s.1.next (.abort unwound dead)).trace.sortwrapFind n.ptr with
  | none =>
    simp only [TraceSt.sortwrapExec, hfind] at hcall
    cases hcall
  | some e' =>
    -- what is found has the node's own procedure, so it is the node's own entry
    simp only [TraceSt.sortwrapExec, hfind] at hcall
    have hin : e' ∈ dropFromLevel SortwrapEntry.subxactLevel s.1.levels.length
        s.1.trace.sortwrapStack := hstack ▸ mem_of_find hfind
    obtain ⟨he', hlevel⟩ := List.mem_filter.1 hin
    have hnode : e'.node = n.ptr := by
      have hprev := (h.prev e' he').symm.trans (Except.ok.inj hcall)
      exact ExecProcNodeMtd.original.inj hprev
    have hsame : e = e' := by
      have hfirst := h.dated.find_own he (hkey ▸ List.mem_map_of_mem (List.mem_flatMap.2 ⟨q, hq, hn⟩))
      have hsecond := h.dated.find_own he'
        (hnode ▸ List.mem_map_of_mem (List.mem_flatMap.2 ⟨q, hq, hn⟩))
      rw [hkey] at hfirst
      rw [hnode] at hsecond
      exact Option.some.inj (hfirst.symm.trans hsecond)
    rw [hsame]
    exact of_decide_eq_true hlevel

/-- In runs whose subtransaction aborts leave the wrapper entries of the queries that live on: every
live node that the executor calls through `sortwrap_exec` has its entry, with its own procedure. -/
theorem sortwrap_entry_present {s : SortSt} (h : sorts.ReachBy KeepsWrapped s) : Wrapped s :=
  (Machine.ReachBy.invariant (I := OwnWrappers) .init (fun _ _ hi he ho => hi.step he ho) h).wrapped

/-- A cursor over a sort is open, and a subtransaction after it is rolled back. -/
def sortAfterRollback : SortSt :=
  [SortAct.hook .begin, .hook (.executorStart 1 true ⟨1⟩),
    .hook (.nodeBegin ⟨1, 0⟩ 11 .sortState (some ⟨0⟩) none), .hook .savepoint,
    .hook (.abort 0 [])].foldl sorts.next sorts.init

/-- A step of the backend alone. -/
theorem enabled_hook {s : SortSt} {a : TracingAct} (h : a.Enabled s.1) :
    sorts.enabled s (.hook a) :=
  ⟨fun _ hb => by cases hb; exact h, trivial⟩

theorem reachBy_sortAfterRollback : sorts.ReachBy KeepsWrapped sortAfterRollback :=
  Machine.ReachBy.run (m := sorts) .init
    ⟨enabled_hook rfl, trivial, enabled_hook ⟨⟨_, _, rfl, rfl⟩, by decide⟩, trivial,
      enabled_hook ⟨⟨_, _, rfl, rfl⟩, by decide, by decide⟩, trivial,
      enabled_hook ⟨_, _, rfl, rfl⟩, trivial,
      enabled_hook ⟨⟨_, _, rfl, rfl⟩, fun _ => rfl, fun _ h => absurd h List.not_mem_nil,
        fun _ h => absurd h List.not_mem_nil⟩,
      fun _ _ _ _ _ _ e he _ => by
        obtain rfl := List.mem_singleton.1 he
        decide, trivial⟩

theorem sortwrap_entry_present_sortAfterRollback :
    sortAfterRollback.1.trace.sortwrapExec ⟨11, 1⟩ = .ok (.original ⟨11, 1⟩) ∧
      sortAfterRollback.2 ⟨11, 1⟩ = .sortwrapExec :=
  ⟨sortwrap_entry_present reachBy_sortAfterRollback ⟨⟨11, 1⟩, .sortState⟩ (by decide) rfl, rfl⟩

/-- A cursor over a sort was opened in a subtransaction that has been released, and a sibling of
that subtransaction is rolled back. -/
def sortOfReleased : SortSt :=
  [SortAct.hook .begin, .hook .savepoint, .hook (.executorStart 1 true ⟨1⟩),
    .hook (.nodeBegin ⟨1, 0⟩ 11 .sortState (some ⟨0⟩) none), .hook .release, .hook .savepoint,
    .hook (.abort 0 []), .hook .cleanup].foldl sorts.next sorts.init

/-- The executor can call the cursor's sort, and `sortwrap_exec` fails. -/
theorem sibling_rollback_fails_sort :
    sorts.Reachable sortOfReleased ∧ sorts.enabled sortOfReleased (.execProcNode ⟨11, 1⟩) ∧
      sortOfReleased.2 ⟨11, 1⟩ = .sortwrapExec ∧
      sortOfReleased.1.trace.sortwrapExec ⟨11, 1⟩ =
        .error (cstr "otel_planspans: sort node has no wrapper entry") := by
  refine ⟨Machine.ReachBy.run (m := sorts) .init ?_, ⟨fun _ h => absurd h (Option.not_mem_none _),
    ⟨_, _, rfl, rfl⟩, ⟨⟨11, 1⟩, .sortState⟩, by decide, rfl⟩, rfl, rfl⟩
  exact ⟨enabled_hook rfl, trivial, enabled_hook ⟨_, _, rfl, rfl⟩, trivial,
    enabled_hook ⟨⟨_, _, rfl, rfl⟩, by decide⟩, trivial,
    enabled_hook ⟨⟨_, _, rfl, rfl⟩, by decide, by decide⟩, trivial,
    enabled_hook ⟨_, _, _, rfl, rfl, by decide⟩, trivial, enabled_hook ⟨_, _, rfl, rfl⟩, trivial,
    enabled_hook ⟨⟨_, _, rfl, rfl⟩, fun _ => rfl, fun _ h => absurd h List.not_mem_nil,
      fun _ h => absurd h List.not_mem_nil⟩, trivial,
    enabled_hook ⟨_, _, rfl, rfl⟩, trivial, trivial⟩

end PostgresOtel
