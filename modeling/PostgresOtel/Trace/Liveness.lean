import PostgresOtel.Trace.Objects

/-!
# No entry outlives its object

An entry leaves with the end hook of its object, with the error handler of its utility call, or in an
abort.  An abort of a subtransaction takes the entries stamped with its level or a deeper one, so it
leaves behind those of queries and scans that were started further out and that its error ends.  As
long as no such entry is left, every entry is of a live object, and the statement stack is empty
whenever a transaction ends outside of a traced utility call.
-/

set_option autoImplicit false

namespace PostgresOtel

open KeyedStack TracingSt TraceSt

/-! ## Levels and the objects that die with them -/

theorem covers_current (s : TracingSt) (sub : ℕ) : Covers s.levels sub s.currentLevel.level :=
  .current s.levels sub

/-- As levels come and go, what was started in a level only moves further out. -/
theorem covers_step {s : TracingSt} {a : TracingAct} (hen : a.Enabled s) {sub level : ℕ}
    (hold : sub < s.nextSub) (h : Covers s.levels sub level) :
    Covers (s.next a).levels sub level := by
  cases a with
  | begin => exact (covers_nil sub level).cons_new hold
  | savepoint => exact h.cons_new hold
  | release =>
    obtain ⟨top, parent, rest, hlevels, -⟩ := hen
    rw [hlevels] at h
    simp only [next, hlevels]
    exact h.release
  | commit prepare => exact covers_nil sub level
  | abort unwound dead =>
    obtain ⟨⟨top, rest, hlevels, -⟩, -⟩ := hen
    rw [hlevels] at h
    simp only [next, hlevels]
    exact h.aborted
  | cleanup =>
    obtain ⟨top, rest, hlevels, -⟩ := hen
    rw [hlevels] at h
    simp only [next, hlevels]
    exact h.of_cons
  | executorStart addr isCursor ref => exact h
  | nodeBegin query addr tag planspans fdw => exact h
  | nodeEnd query node => exact h
  | executorEnd query planspans => exact h
  | runBegin query => exact h
  | runEnd => exact h
  | utilityBegin addr toplevel ref => exact h
  | utilityEnd =>
    obtain ⟨token, toplevel, sub, rest, hframes⟩ := hen
    simp only [next, hframes]
    exact h
  | errorWhenAborted unwound => exact h

/-! ## What the hooks leave on the stacks -/

namespace TraceSt

variable {t : TraceSt} {live : List Ptr}

/-- The entries of ended calls are gone. -/
theorem caught_token_ne {frames : List CallFrame} (h : Tracks StmtSpanEntry.key live t.stmtStack)
    (hd : Distinct live) (hf : ∀ f ∈ frames, ∀ token, f.token = some token → token ∈ live) :
    ∀ e ∈ (frames.foldl catchError t).stmtStack, ∀ f ∈ frames, f.token ≠ some e.key := by
  induction frames generalizing t with
  | nil => exact fun _ _ _ hf => absurd hf List.not_mem_nil
  | cons f fs ih =>
    have hrest := ih (h.sublist (catchError_sublist t f) fun _ _ hk => hk) fun g hg =>
      hf g (List.mem_cons_of_mem _ hg)
    intro e he
    refine List.forall_mem_cons.2 ⟨fun ht => ?_, hrest e he⟩
    have hin := (caught_sublist fs (t.catchError f)).subset he
    rw [catchError_stmtStack, ht] at hin
    exact h.key_of_remove hd (hf f List.mem_cons_self _ ht) e hin rfl

theorem pushStmtSpan_fdwScanStack (t : TraceSt) (key : Ptr) (ref : OtelSpanRef) (detached : Bool)
    (nest : NestLevel) : (t.pushStmtSpan key ref detached nest).1.fdwScanStack = t.fdwScanStack := by
  unfold pushStmtSpan
  split_ifs <;> rfl

/-- Ended calls leave the scans alone. -/
theorem caught_fdwScanStack (frames : List CallFrame) (t : TraceSt) :
    (frames.foldl catchError t).fdwScanStack = t.fdwScanStack := by
  induction frames generalizing t with
  | nil => rfl
  | cons f fs ih =>
    refine (ih _).trans ?_
    unfold catchError
    cases f.token <;> rfl

theorem nodeEnd_fdwScanStack (planspans : Bool) (t : TraceSt) (n : PlanNode) :
    (t.nodeEnd planspans n).fdwScanStack =
      if n.tag = .foreignScanState then remove NodeSpanEntry.node n.ptr t.fdwScanStack
        else t.fdwScanStack := by
  have hended : (if planspans then t.planspansNodeEnd n.ptr n.tag else t).fdwScanStack =
      t.fdwScanStack := by
    unfold planspansNodeEnd
    split_ifs <;> rfl
  by_cases hscan : n.tag = .foreignScanState
  · simp only [nodeEnd, if_pos hscan]
    exact congrArg _ hended
  · simp only [nodeEnd, if_neg hscan]
    exact hended

theorem nodeEnd_sublist (planspans : Bool) (t : TraceSt) (n : PlanNode) :
    (t.nodeEnd planspans n).fdwScanStack.Sublist t.fdwScanStack := by
  rw [nodeEnd_fdwScanStack]
  split_ifs
  · exact remove_sublist _
  · exact List.Sublist.refl _

theorem nodeEnds_sublist (planspans : Bool) (nodes : List PlanNode) (t : TraceSt) :
    (nodes.foldl (TraceSt.nodeEnd planspans) t).fdwScanStack.Sublist t.fdwScanStack := by
  induction nodes generalizing t with
  | nil => exact List.Sublist.refl _
  | cons n ns ih => exact (ih _).trans (nodeEnd_sublist planspans t n)

/-- The entries of ended scans are gone. -/
theorem nodeEnds_node_ne {planspans : Bool} {nodes : List PlanNode}
    (h : Tracks NodeSpanEntry.node live t.fdwScanStack) (hd : Distinct live)
    (hn : ∀ n ∈ nodes, n.tag = .foreignScanState → n.ptr ∈ live) :
    ∀ e ∈ (nodes.foldl (TraceSt.nodeEnd planspans) t).fdwScanStack, ∀ n ∈ nodes,
      n.tag = .foreignScanState → n.ptr ≠ e.node := by
  induction nodes generalizing t with
  | nil => exact fun _ _ _ hn => absurd hn List.not_mem_nil
  | cons n ns ih =>
    have hrest := ih (h.sublist (nodeEnd_sublist planspans t n) fun _ _ hk => hk) fun m hm =>
      hn m (List.mem_cons_of_mem _ hm)
    intro e he
    refine List.forall_mem_cons.2 ⟨fun htag heq => ?_, hrest e he⟩
    have hin := (nodeEnds_sublist planspans ns (t.nodeEnd planspans n)).subset he
    rw [nodeEnd_fdwScanStack, if_pos htag] at hin
    exact h.key_of_remove hd (hn n List.mem_cons_self htag) e hin heq.symm

/-- The begin of a node adds an entry for a foreign scan, or none. -/
theorem nodeBegin_fdwScanStack (t : TraceSt) (planspans fdw : Option OtelSpanRef) (n : PlanNode)
    (nest : NestLevel) : (t.nodeBegin planspans fdw n nest).fdwScanStack = t.fdwScanStack ∨
      n.tag = .foreignScanState ∧
        ∃ ref, (t.nodeBegin planspans fdw n nest).fdwScanStack = ⟨n.ptr, ref, nest⟩ :: t.fdwScanStack := by
  have hbegun : (planspans.elim t fun ref => t.planspansNodeBegin n.ptr n.tag ref nest).fdwScanStack =
      t.fdwScanStack := by
    cases planspans with
    | none => rfl
    | some ref =>
      change (t.planspansNodeBegin n.ptr n.tag ref nest).fdwScanStack = _
      unfold planspansNodeBegin
      split_ifs <;> rfl
  by_cases hscan : n.tag = .foreignScanState
  · simp only [nodeBegin, if_pos hscan]
    cases fdw with
    | none => exact .inl hbegun
    | some ref =>
      rw [← hbegun]
      change (otelFdwScanBegin _ n.ptr ref nest).fdwScanStack = _ ∨ _
      unfold otelFdwScanBegin
      split_ifs with hfull hnull
      · exact .inl rfl
      · exact .inl rfl
      · refine .inr ⟨hscan, ref, ?_⟩
        simp only [Option.elim_some, if_neg hnull]
  · simp only [nodeBegin, if_neg hscan]
    exact .inl hbegun

end TraceSt

/-! ## Every entry is of a live object -/

structure Alive (s : TracingSt) : Prop where
  core : CoreOk s
  queries_old : ∀ q ∈ s.queries, q.sub < s.nextSub
  stmts : Tracks StmtSpanEntry.key s.livePtrs s.trace.stmtStack
  scans : Tracks NodeSpanEntry.node s.scanPtrs s.trace.fdwScanStack
  stmt_covers : ∀ e ∈ s.trace.stmtStack, ∀ q ∈ s.queries, q.ptr = e.key →
    Covers s.levels q.sub e.subxactLevel.level
  scan_covers : ∀ e ∈ s.trace.fdwScanStack, ∀ q ∈ s.queries, ∀ n ∈ q.nodes, n.ptr = e.node →
    Covers s.levels q.sub e.subxactLevel.level

/-- No entry loses its object: an error that aborts a subtransaction ends no query that has, for
itself or for a scan, an entry stamped with a level further out, and a transaction is committed
outside of traced utility calls. -/
def KeepsLive (s : TracingSt) : TracingAct → Prop
  | .abort _ dead => ∀ top rest, s.levels = top :: rest → rest ≠ [] →
      (∀ e ∈ s.trace.stmtStack, e.key ∈ dead → s.levels.length ≤ e.subxactLevel.level) ∧
      ∀ e ∈ s.trace.fdwScanStack, ∀ q ∈ s.queries, q.ptr ∈ dead → ∀ n ∈ q.nodes, n.ptr = e.node →
        s.levels.length ≤ e.subxactLevel.level
  | .commit _ => ∀ e ∈ s.trace.stmtStack, ∀ f ∈ s.frames, f.token ≠ some e.key
  | _ => True

/-- The step ends the transaction. -/
def EndsTransaction (s : TracingSt) : TracingAct → Prop
  | .commit _ => True
  | .abort _ _ => s.levels.length = 1
  | _ => False

theorem mem_scanPtrs {s : TracingSt} {p : Ptr} :
    p ∈ s.scanPtrs ↔ ∃ q ∈ s.queries, ∃ n ∈ q.nodes, n.tag = .foreignScanState ∧ n.ptr = p := by
  unfold scanPtrs planNodes
  simp only [List.mem_map, List.mem_filter, List.mem_flatMap, decide_eq_true_eq]
  constructor
  · rintro ⟨n, ⟨⟨q, hq, hn⟩, htag⟩, rfl⟩
    exact ⟨q, hq, n, hn, htag, rfl⟩
  · rintro ⟨q, hq, n, hn, htag, rfl⟩
    exact ⟨n, ⟨⟨q, hq, hn⟩, htag⟩, rfl⟩

theorem CoreOk.scans_distinct {s : TracingSt} (h : CoreOk s) : Distinct s.scanPtrs :=
  h.nodes_distinct.sublist ((List.filter_sublist.map _).map _)

namespace Alive

variable {s s' : TracingSt}

theorem init : Alive {} where
  core := .init
  queries_old _ h := absurd h List.not_mem_nil
  stmts := .nil
  scans := .nil
  stmt_covers _ h := absurd h List.not_mem_nil
  scan_covers _ h := absurd h List.not_mem_nil

/-- Entries may go, and objects without an entry. -/
theorem keep (h : Alive s) (hcore : CoreOk s') (hsub : s.nextSub ≤ s'.nextSub)
    (hstmt : s'.trace.stmtStack.Sublist s.trace.stmtStack)
    (hscan : s'.trace.fdwScanStack.Sublist s.trace.fdwScanStack)
    (hlive : ∀ e ∈ s'.trace.stmtStack, e.key ∈ s.livePtrs → e.key ∈ s'.livePtrs)
    (hscans : ∀ e ∈ s'.trace.fdwScanStack, e.node ∈ s.scanPtrs → e.node ∈ s'.scanPtrs)
    (hq : ∀ q ∈ s'.queries, ∃ q₀ ∈ s.queries, q₀.ptr = q.ptr ∧ q₀.sub = q.sub ∧ q.nodes ⊆ q₀.nodes)
    (hcov : ∀ sub level, sub < s.nextSub → Covers s.levels sub level → Covers s'.levels sub level) :
    Alive s' := by
  refine ⟨hcore, fun q hq' => ?_, h.stmts.sublist hstmt hlive, h.scans.sublist hscan hscans,
    fun e he q hq' hptr => ?_, fun e he q hq' n hn hptr => ?_⟩
  · obtain ⟨q₀, hq₀, -, hqsub, -⟩ := hq q hq'
    exact hqsub ▸ Nat.lt_of_lt_of_le (h.queries_old q₀ hq₀) hsub
  · obtain ⟨q₀, hq₀, hqptr, hqsub, -⟩ := hq q hq'
    rw [← hqsub]
    exact hcov _ _ (h.queries_old q₀ hq₀)
      (h.stmt_covers e (hstmt.subset he) q₀ hq₀ (hqptr.trans hptr))
  · obtain ⟨q₀, hq₀, -, hqsub, hnodes⟩ := hq q hq'
    rw [← hqsub]
    exact hcov _ _ (h.queries_old q₀ hq₀)
      (h.scan_covers e (hscan.subset he) q₀ hq₀ n (hnodes hn) hptr)

/-- Steps that leave the stacks and their objects alone. -/
theorem same (h : Alive s) (hcore : CoreOk s') (hsub : s.nextSub ≤ s'.nextSub)
    (hstmt : s'.trace.stmtStack = s.trace.stmtStack)
    (hscan : s'.trace.fdwScanStack = s.trace.fdwScanStack) (hlive : s'.livePtrs = s.livePtrs)
    (hqueries : s'.queries = s.queries)
    (hcov : ∀ sub level, sub < s.nextSub → Covers s.levels sub level → Covers s'.levels sub level) :
    Alive s' :=
  h.keep hcore hsub (hstmt ▸ List.Sublist.refl _) (hscan ▸ List.Sublist.refl _)
    (fun _ _ hk => hlive ▸ hk)
    (fun _ _ hk => by rwa [scanPtrs, planNodes, hqueries])
    (fun q hq => ⟨q, hqueries ▸ hq, rfl, rfl, List.Subset.refl _⟩) hcov

/-- The entry of a new query or call. -/
theorem stmts_push (h : Alive s) {addr : ℕ} {live' : List Ptr} (hlive : s.livePtrs ⊆ live')
    (hnew : s.newPtr addr ∈ live') (ref : OtelSpanRef) (detached : Bool) :
    Tracks StmtSpanEntry.key live'
      (s.trace.pushStmtSpan (s.newPtr addr) ref detached s.currentLevel).1.stmtStack := by
  rw [pushStmtSpan_stack]
  split_ifs
  · refine (h.stmts.mono hlive).push hnew fun x hx heq => ?_
    have hlt := h.core.old _ (h.stmts.alive x hx)
    rw [heq] at hlt
    exact Nat.lt_irrefl _ hlt
  · exact h.stmts.mono hlive

/-- The entries after a push, by what they cover. -/
theorem covers_push (h : Alive s) {addr : ℕ} {ref : OtelSpanRef} {detached : Bool}
    {e : StmtSpanEntry}
    (he : e ∈ (s.trace.pushStmtSpan (s.newPtr addr) ref detached s.currentLevel).1.stmtStack)
    {q : Query} (hq : q ∈ s.queries) (hptr : q.ptr = e.key) :
    Covers s.levels q.sub e.subxactLevel.level := by
  rw [pushStmtSpan_stack] at he
  split_ifs at he
  · rcases List.mem_cons.1 he with rfl | he
    · exact covers_current s q.sub
    · exact h.stmt_covers e he q hq hptr
  · exact h.stmt_covers e he q hq hptr

/-- Tokens of calls are alive while the calls are. -/
theorem token_live {f : CallFrame} (hf : f ∈ s.frames) {token : Ptr} (ht : f.token = some token) :
    token ∈ s.livePtrs :=
  List.mem_append_right _ (List.mem_filterMap.2 ⟨f, hf, ht⟩)

/-- After calls have ended, every entry is of a query or of a call that goes on. -/
theorem caught_live (h : Alive s) {n : ℕ} {e : StmtSpanEntry} (he : e ∈ (s.caught n).stmtStack) :
    (∃ q ∈ s.queries, q.ptr = e.key) ∨ e.key ∈ (s.frames.drop n).filterMap CallFrame.token := by
  have hin := (caught_sublist _ _).subset he
  rcases List.mem_append.1 (h.stmts.alive e hin) with hq | hf
  · exact .inl (List.mem_map.1 hq)
  · obtain ⟨f, hf, ht⟩ := List.mem_filterMap.1 hf
    rw [← List.take_append_drop n s.frames] at hf
    rcases List.mem_append.1 hf with hf | hf
    · exact absurd ht (caught_token_ne h.stmts h.core.distinct
        (fun g hg token hg' => token_live (List.mem_of_mem_take hg) hg') e he f hf)
    · exact .inr (List.mem_filterMap.2 ⟨f, hf, ht⟩)

/-- An error that aborts a subtransaction ends only queries whose entries it takes along. -/
theorem abort (h : Alive s) {unwound : ℕ} {dead : List Ptr}
    (hen : (TracingAct.abort unwound dead).Enabled s) (hok : KeepsLive s (.abort unwound dead)) :
    Alive (s.next (.abort unwound dead)) := by
  have hcore := h.core.step hen
  have hcov := fun sub level => @covers_step s _ hen sub level
  obtain ⟨⟨top, rest, hlevels, -⟩, -⟩ := hen
  have hqueries : (s.next (.abort unwound dead)).queries =
      s.queries.filter fun q => !s.dies dead q := by simp only [next, hlevels]
  have hframes : (s.next (.abort unwound dead)).frames = s.frames.drop unwound := by
    simp only [next, hlevels]
  have hsub : (s.next (.abort unwound dead)).nextSub = s.nextSub := by simp only [next, hlevels]
  have hq : ∀ q ∈ (s.next (.abort unwound dead)).queries, ∃ q₀ ∈ s.queries, q₀.ptr = q.ptr ∧
      q₀.sub = q.sub ∧ q.nodes ⊆ q₀.nodes := by
    intro q hq
    rw [hqueries] at hq
    exact ⟨q, List.mem_of_mem_filter hq, rfl, rfl, List.Subset.refl _⟩
  by_cases hrest : rest = []
  · have htrace : (s.next (.abort unwound dead)).trace =
        (s.caught unwound).otelPgtracingXactCallback .abort := by
      simp only [next, hlevels, hrest]
      rfl
    refine h.keep hcore hsub.ge (htrace ▸ List.nil_sublist _) (htrace ▸ List.nil_sublist _)
      (fun e he => ?_) (fun e he => ?_) hq hcov
    · rw [htrace] at he
      exact absurd he List.not_mem_nil
    · rw [htrace] at he
      exact absurd he List.not_mem_nil
  · have htrace : (s.next (.abort unwound dead)).trace =
        (s.caught unwound).otelPgtracingSubxactCallback .abortSub s.levels.length := by
      simp only [next, hlevels]
      rw [if_neg (by simpa using hrest), currentLevel, hlevels]
    have hcaught : (s.caught unwound).fdwScanStack = s.trace.fdwScanStack :=
      caught_fdwScanStack _ _
    -- An entry that stays is stamped below the aborting level, so its query was not started in it.
    have hstays {q : Query} {level : ℕ} (hin : q ∈ s.queries) (hlt : level < s.levels.length)
        (hdead : q.ptr ∉ dead) (hcovers : Covers s.levels q.sub level) :
        q ∈ (s.next (.abort unwound dead)).queries := by
      rw [hqueries]
      refine List.mem_filter.2 ⟨hin, ?_⟩
      have hnot : q.sub ∉ top.members := fun hm => by
        have hle := hcovers top rest (hlevels ▸ List.suffix_refl _) hm
        rw [hlevels, List.length_cons] at hlt
        omega
      simp [dies, hlevels, hdead, hnot, hrest]
    refine h.keep hcore hsub.ge (htrace ▸ List.filter_sublist.trans (caught_sublist _ _))
      (htrace ▸ hcaught ▸ List.filter_sublist) (fun e he _ => ?_) (fun e he _ => ?_) hq hcov
    · rw [htrace] at he
      obtain ⟨he, hlt⟩ := List.mem_filter.1 he
      have hlt := of_decide_eq_true hlt
      have hin := (caught_sublist _ _).subset he
      rcases h.caught_live he with ⟨q, hqin, hptr⟩ | htoken
      · have hdead : q.ptr ∉ dead := fun hd =>
          Nat.not_le.2 hlt ((hok top rest hlevels hrest).1 e hin (hptr ▸ hd))
        refine List.mem_append_left _ (List.mem_map.2 ⟨q, ?_, hptr⟩)
        exact hstays hqin hlt hdead (h.stmt_covers e hin q hqin hptr)
      · exact List.mem_append_right _ (hframes ▸ htoken)
    · rw [htrace] at he
      obtain ⟨he, hlt⟩ := List.mem_filter.1 he
      have hlt := of_decide_eq_true hlt
      rw [hcaught] at he
      obtain ⟨q, hqin, n, hn, htag, hptr⟩ := mem_scanPtrs.1 (h.scans.alive e he)
      have hdead : q.ptr ∉ dead := fun hd =>
        Nat.not_le.2 hlt ((hok top rest hlevels hrest).2 e he q hqin hd n hn hptr)
      exact mem_scanPtrs.2 ⟨q, hstays hqin hlt hdead (h.scan_covers e he q hqin n hn hptr), n, hn,
        htag, hptr⟩

/-- The entry of a new query covers it. -/
theorem executorStart (h : Alive s) {addr : ℕ} {isCursor : Bool} {ref : OtelSpanRef}
    (hen : (TracingAct.executorStart addr isCursor ref).Enabled s) :
    Alive (s.next (.executorStart addr isCursor ref)) := by
  have hcore := h.core.step hen
  have hcurrent : s.currentLevel.sub < s.nextSub := by
    obtain ⟨⟨top, rest, hlevels, -⟩, -⟩ := hen
    have hold := h.core.levels.1
    rw [hlevels] at hold
    rw [currentLevel, hlevels]
    exact hold top List.mem_cons_self
  have hscan : (s.next (.executorStart addr isCursor ref)).trace.fdwScanStack =
      s.trace.fdwScanStack := pushStmtSpan_fdwScanStack _ _ _ _ _
  refine ⟨hcore, List.forall_mem_cons.2 ⟨hcurrent, h.queries_old⟩,
    h.stmts_push (List.subset_cons_self _ _) List.mem_cons_self ref isCursor, hscan ▸ h.scans,
    fun e he => List.forall_mem_cons.2 ⟨fun hptr => ?_, fun q hq hptr => ?_⟩,
    fun e he => List.forall_mem_cons.2 ⟨fun n hn => absurd hn List.not_mem_nil,
      h.scan_covers e (hscan ▸ he)⟩⟩
  · change e ∈ (s.trace.pushStmtSpan _ _ _ _).1.stmtStack at he
    rw [pushStmtSpan_stack] at he
    have hold (hin : e ∈ s.trace.stmtStack) : False := by
      have hlt := h.core.old _ (h.stmts.alive e hin)
      rw [← hptr] at hlt
      exact Nat.lt_irrefl _ hlt
    split_ifs at he
    · rcases List.mem_cons.1 he with rfl | hin
      · exact covers_current s _
      · exact (hold hin).elim
    · exact (hold he).elim
  · exact h.covers_push he hq hptr

/-- A new scan may get an entry, stamped no further out than its query was started. -/
theorem nodeBegin (h : Alive s) {query : Ptr} {addr : ℕ} {tag : PlanNodeTag}
    {planspans fdw : Option OtelSpanRef}
    (hen : (TracingAct.nodeBegin query addr tag planspans fdw).Enabled s) :
    Alive (s.next (.nodeBegin query addr tag planspans fdw)) := by
  have hcore := h.core.step hen
  have hlive := livePtrs_nodeBegin s query addr tag planspans fdw
  have hperm := flatMap_nodes_perm (n := ⟨s.newPtr addr, tag⟩) h.core.queries_nodup hen.2.1
  have hmono : s.scanPtrs ⊆ (s.next (.nodeBegin query addr tag planspans fdw)).scanPtrs := by
    intro p hp
    obtain ⟨n, hn, rfl⟩ := List.mem_map.1 hp
    obtain ⟨hn, htag⟩ := List.mem_filter.1 hn
    refine List.mem_map_of_mem (List.mem_filter.2 ⟨?_, htag⟩)
    exact hperm.mem_iff.2 (List.mem_cons_of_mem _ hn)
  have hquery : ∀ q ∈ (s.next (.nodeBegin query addr tag planspans fdw)).queries,
      ∃ q₀ ∈ s.queries, q₀.ptr = q.ptr ∧ q₀.sub = q.sub ∧
        ∀ n ∈ q.nodes, n = ⟨s.newPtr addr, tag⟩ ∨ n ∈ q₀.nodes := by
    intro q hq
    obtain ⟨q₀, hq₀, rfl⟩ := List.mem_map.1 hq
    refine ⟨q₀, hq₀, ?_⟩
    split_ifs
    · exact ⟨rfl, rfl, fun n hn => List.mem_cons.1 hn⟩
    · exact ⟨rfl, rfl, fun n hn => .inr hn⟩
  have hstmt : (s.next (.nodeBegin query addr tag planspans fdw)).trace.stmtStack =
      s.trace.stmtStack := nodeBegin_stmtStack _ _ _ _ _
  have hfresh : ∀ x ∈ s.trace.fdwScanStack, x.node.obj < s.nextObj := by
    intro x hx
    obtain ⟨q, hq, n, hn, -, hptr⟩ := mem_scanPtrs.1 (h.scans.alive x hx)
    rw [← hptr]
    exact h.core.nodes_old n (List.mem_flatMap.2 ⟨q, hq, hn⟩)
  have hnew : ∀ x ∈ s.trace.fdwScanStack, x.node ≠ s.newPtr addr := by
    intro x hx heq
    have hlt := hfresh x hx
    rw [heq] at hlt
    exact Nat.lt_irrefl _ hlt
  have hold : ∀ x ∈ s.trace.fdwScanStack,
      ∀ q ∈ (s.next (.nodeBegin query addr tag planspans fdw)).queries, ∀ n ∈ q.nodes,
        n.ptr = x.node → Covers s.levels q.sub x.subxactLevel.level := by
    intro x hx q hq n hn hptr
    obtain ⟨q₀, hq₀, -, hqsub, hnodes⟩ := hquery q hq
    rw [← hqsub]
    rcases hnodes n hn with rfl | hn
    · exact absurd hptr.symm (hnew x hx)
    · exact h.scan_covers x hx q₀ hq₀ n hn hptr
  refine ⟨hcore, fun q hq => ?_, hstmt ▸ hlive ▸ h.stmts, ?_, fun e he q hq hptr => ?_, ?_⟩
  · obtain ⟨q₀, hq₀, -, hqsub, -⟩ := hquery q hq
    exact hqsub ▸ h.queries_old q₀ hq₀
  · rcases nodeBegin_fdwScanStack s.trace planspans fdw ⟨s.newPtr addr, tag⟩ s.currentLevel with
      hsame | ⟨htag, ref, hpush⟩
    · exact (show (s.next (.nodeBegin query addr tag planspans fdw)).trace.fdwScanStack = _ from
        hsame) ▸ h.scans.mono hmono
    · refine (show (s.next (.nodeBegin query addr tag planspans fdw)).trace.fdwScanStack = _ from
        hpush) ▸ (h.scans.mono hmono).push ?_ hnew
      refine List.mem_map.2 ⟨⟨s.newPtr addr, tag⟩, List.mem_filter.2 ⟨?_, decide_eq_true htag⟩, rfl⟩
      exact hperm.mem_iff.2 List.mem_cons_self
  · rw [hstmt] at he
    obtain ⟨q₀, hq₀, hqptr, hqsub, -⟩ := hquery q hq
    rw [← hqsub]
    exact h.stmt_covers e he q₀ hq₀ (hqptr.trans hptr)
  · rcases nodeBegin_fdwScanStack s.trace planspans fdw ⟨s.newPtr addr, tag⟩ s.currentLevel with
      hsame | ⟨-, ref, hpush⟩
    · exact (show (s.next (.nodeBegin query addr tag planspans fdw)).trace.fdwScanStack = _ from
        hsame) ▸ hold
    · refine (show (s.next (.nodeBegin query addr tag planspans fdw)).trace.fdwScanStack = _ from
        hpush) ▸ List.forall_mem_cons.2 ⟨fun q _ _ _ _ => covers_current s q.sub, hold⟩

/-- A scan that ends early goes with its entry. -/
theorem nodeEnd (h : Alive s) {query node : Ptr} (hen : (TracingAct.nodeEnd query node).Enabled s) :
    Alive (s.next (.nodeEnd query node)) := by
  have hcore := h.core.step hen
  have hcov := fun sub level => @covers_step s _ hen sub level
  obtain ⟨-, q, hq, -, hnode⟩ := hen
  have hlive := livePtrs_nodeEnd s query node
  refine h.keep hcore (Nat.le_refl _) (List.Sublist.refl _) (remove_sublist node)
    (fun _ _ hk => hlive ▸ hk) (fun e he hk => ?_) (fun q hq => ?_) hcov
  · have hne := h.scans.key_of_remove h.core.scans_distinct
      (mem_scanPtrs.2 ⟨q, hq, _, hnode, rfl, rfl⟩) e he
    obtain ⟨q', hq', n, hn, htag, hptr⟩ := mem_scanPtrs.1 hk
    refine mem_scanPtrs.2 ⟨_, List.mem_map_of_mem hq', n, ?_, htag, hptr⟩
    split_ifs
    · exact List.mem_filter.2 ⟨hn, decide_eq_true (hptr ▸ hne)⟩
    · exact hn
  · obtain ⟨q₀, hq₀, rfl⟩ := List.mem_map.1 hq
    refine ⟨q₀, hq₀, ?_⟩
    split_ifs
    · exact ⟨rfl, rfl, List.filter_sublist.subset⟩
    · exact ⟨rfl, rfl, List.Subset.refl _⟩

/-- A query goes with its entry and those of its scans. -/
theorem executorEnd (h : Alive s) {query : Ptr} {planspans : Bool}
    (hen : (TracingAct.executorEnd query planspans).Enabled s) :
    Alive (s.next (.executorEnd query planspans)) := by
  have hcore := h.core.step hen
  have hcov := fun sub level => @covers_step s _ hen sub level
  obtain ⟨-, ⟨q, hq, rfl⟩, -⟩ := hen
  set s' := s.next (.executorEnd q.ptr planspans) with hs'
  have hstack : s'.trace.stmtStack = remove StmtSpanEntry.key q.ptr s.trace.stmtStack :=
    nodeEnds_stmtStack planspans _ _
  have hremains : ∀ q' ∈ s.queries, q'.ptr ≠ q.ptr → q' ∈ s'.queries := fun q' hq' hne =>
    List.mem_filter.2 ⟨hq', decide_eq_true hne⟩
  have hqlive : q.ptr ∈ s.livePtrs := List.mem_append_left _ (List.mem_map_of_mem hq)
  refine h.keep hcore (Nat.le_refl _) (hstack ▸ remove_sublist _)
    (nodeEnds_sublist planspans _ _) (fun e he hk => ?_) (fun e he hk => ?_)
    (fun q' hq' => ⟨q', List.mem_of_mem_filter hq', rfl, rfl, List.Subset.refl _⟩) hcov
  · rw [hstack] at he
    have hne := h.stmts.key_of_remove h.core.distinct hqlive e he
    rcases List.mem_append.1 hk with hk | hk
    · obtain ⟨q', hq', hptr⟩ := List.mem_map.1 hk
      exact List.mem_append_left _ (List.mem_map.2 ⟨q', hremains q' hq' (hptr ▸ hne), hptr⟩)
    · exact List.mem_append_right _ hk
  · obtain ⟨q', hq', n, hn, htag, hptr⟩ := mem_scanPtrs.1 hk
    refine mem_scanPtrs.2 ⟨q', hremains q' hq' fun heq => ?_, n, hn, htag, hptr⟩
    have hended : n ∈ (s.queries.filter fun x => x.ptr = q.ptr).flatMap Query.nodes :=
      List.mem_flatMap.2 ⟨q', List.mem_filter.2 ⟨hq', decide_eq_true heq⟩, hn⟩
    refine nodeEnds_node_ne (t := (s.trace.popStmtSpan q.ptr).1) h.scans h.core.scans_distinct
      (fun m hm hmtag => ?_) e he n hended htag hptr
    obtain ⟨x, hx, hm⟩ := List.mem_flatMap.1 hm
    exact mem_scanPtrs.2 ⟨x, List.mem_of_mem_filter hx, m, hm, hmtag, rfl⟩

theorem step (h : Alive s) {a : TracingAct} (hen : a.Enabled s) (hok : KeepsLive s a) :
    Alive (s.next a) := by
  have hcore := h.core.step hen
  have hcov := fun sub level => @covers_step s _ hen sub level
  have hself : ∀ q ∈ s.queries, ∃ q₀ ∈ s.queries, q₀.ptr = q.ptr ∧ q₀.sub = q.sub ∧
      q.nodes ⊆ q₀.nodes := fun q hq => ⟨q, hq, rfl, rfl, List.Subset.refl _⟩
  cases a with
  | begin => exact h.same hcore (Nat.le_succ _) rfl rfl rfl rfl hcov
  | savepoint => exact h.same hcore (Nat.le_succ _) rfl rfl rfl rfl hcov
  | release =>
    obtain ⟨top, parent, rest, hlevels, -⟩ := hen
    have hnext : s.next .release = { s with
        levels := { parent with absorbed := top.members ++ parent.absorbed } :: rest } := by
      simp only [next, hlevels]
      rw [otelPgtracingSubxactCallback_other _ (by decide)]
    rw [hnext] at hcore hcov ⊢
    exact h.same hcore (Nat.le_refl _) rfl rfl rfl rfl hcov
  | commit prepare =>
    refine h.same hcore (Nat.le_refl _) ?_ ?_ rfl rfl hcov
    · cases prepare <;> rfl
    · cases prepare <;> rfl
  | abort unwound dead => exact h.abort hen hok
  | cleanup => exact h.same hcore (Nat.le_refl _) rfl rfl rfl rfl hcov
  | executorStart addr isCursor ref => exact h.executorStart hen
  | nodeBegin query addr tag planspans fdw => exact h.nodeBegin hen
  | nodeEnd query node => exact h.nodeEnd hen
  | executorEnd query planspans => exact h.executorEnd hen
  | runBegin query => exact h.same hcore (Nat.le_refl _) rfl rfl rfl rfl hcov
  | runEnd =>
    obtain ⟨query, sub, rest, hfs⟩ := hen
    refine h.same hcore (Nat.le_refl _) rfl rfl ?_ rfl hcov
    simp only [livePtrs, next, hfs]
    rfl
  | utilityBegin addr toplevel ref =>
    cases toplevel with
    | false => exact h.same hcore (Nat.le_refl _) rfl rfl rfl rfl hcov
    | true =>
      have hscan : (s.next (.utilityBegin addr true ref)).trace.fdwScanStack =
          s.trace.fdwScanStack := pushStmtSpan_fdwScanStack _ _ _ _ _
      refine ⟨hcore, h.queries_old, h.stmts_push (fun p hp => ?_) ?_ ref false, hscan ▸ h.scans,
        fun e he q hq hptr => h.covers_push he hq hptr, fun e he => h.scan_covers e (hscan ▸ he)⟩
      · exact List.perm_middle.mem_iff.2 (List.mem_cons_of_mem _ hp)
      · exact List.perm_middle.mem_iff.2 List.mem_cons_self
  | utilityEnd =>
    obtain ⟨token, toplevel, sub, rest, hfs⟩ := hen
    have hlive : ∀ e ∈ (s.caught 1).stmtStack, e.key ∈ s.queries.map Query.ptr ++
        rest.filterMap CallFrame.token := by
      intro e he
      rcases h.caught_live he with ⟨q, hq, hptr⟩ | ht
      · exact List.mem_append_left _ (List.mem_map.2 ⟨q, hq, hptr⟩)
      · rw [hfs] at ht
        exact List.mem_append_right _ ht
    have hcaught : s.caught 1 = s.trace.catchError (.utility token toplevel sub) := by
      rw [caught, hfs]
      rfl
    rw [hcaught] at hlive
    simp only [next, hfs] at hcore hcov ⊢
    exact h.keep hcore (Nat.le_refl _) (catchError_sublist _ _)
      (caught_fdwScanStack [.utility token toplevel sub] s.trace ▸ List.Sublist.refl _)
      (fun e he _ => hlive e he) (fun _ _ hk => hk) hself hcov
  | errorWhenAborted unwound =>
    refine h.keep hcore (Nat.le_refl _) (caught_sublist _ _)
      (caught_fdwScanStack (s.frames.take unwound) s.trace ▸ List.Sublist.refl _)
      (fun e he _ => ?_) (fun _ _ hk => hk) hself hcov
    rcases h.caught_live he with ⟨q, hq, hptr⟩ | ht
    · exact List.mem_append_left _ (List.mem_map.2 ⟨q, hq, hptr⟩)
    · exact List.mem_append_right _ ht

end Alive

theorem reachable_alive {s : TracingSt} (h : tracing.ReachBy KeepsLive s) : Alive s :=
  Machine.ReachBy.invariant (I := Alive) .init (fun _ _ hi he ho => hi.step he ho) h

/-- The end of a transaction leaves no statement on the stack. -/
theorem Alive.stmtStack_eq_nil {s : TracingSt} (h : Alive s) {a : TracingAct} (hen : a.Enabled s)
    (hok : KeepsLive s a) (hend : EndsTransaction s a) : (s.next a).trace.stmtStack = [] := by
  cases a with
  | commit prepare =>
    have hstack : (s.next (.commit prepare)).trace.stmtStack = s.trace.stmtStack := by
      cases prepare <;> rfl
    rw [hstack]
    refine List.eq_nil_iff_forall_not_mem.2 fun e he => ?_
    have hlive := h.stmts.alive e he
    rw [livePtrs, hen.2, List.map_nil, List.nil_append] at hlive
    obtain ⟨f, hf, ht⟩ := List.mem_filterMap.1 hlive
    exact hok e he f hf ht
  | abort unwound dead =>
    obtain ⟨⟨top, rest, hlevels, -⟩, -⟩ := hen
    have hone : s.levels.length = 1 := hend
    rw [hlevels, List.length_cons] at hone
    have hrest : rest = [] := List.eq_nil_of_length_eq_zero (by omega)
    simp only [next, hlevels, hrest]
    rfl
  | begin => exact hend.elim
  | savepoint => exact hend.elim
  | release => exact hend.elim
  | cleanup => exact hend.elim
  | executorStart addr isCursor ref => exact hend.elim
  | nodeBegin query addr tag planspans fdw => exact hend.elim
  | nodeEnd query node => exact hend.elim
  | executorEnd query planspans => exact hend.elim
  | runBegin query => exact hend.elim
  | runEnd => exact hend.elim
  | utilityBegin addr toplevel ref => exact hend.elim
  | utilityEnd => exact hend.elim
  | errorWhenAborted unwound => exact hend.elim

/-- In runs in which no error that aborts a subtransaction ends a query with an entry stamped further
out, and transactions are committed outside of traced utility calls: every entry of the statement
stack is of a live query or call and every entry of the foreign-scan stack of a live scan, what an
end hook finds for an object is its own entry, and no statement is left when a transaction ends. -/
theorem bookkeeping_alive {s : TracingSt} (h : tracing.ReachBy KeepsLive s) :
    (∀ e ∈ s.trace.stmtStack, e.key ∈ s.livePtrs) ∧
    (∀ e ∈ s.trace.fdwScanStack, e.node ∈ s.scanPtrs) ∧
    (∀ p ∈ s.livePtrs, ∀ e, find StmtSpanEntry.key p s.trace.stmtStack = some e → e.key = p) ∧
    (∀ p ∈ s.scanPtrs, ∀ e, find NodeSpanEntry.node p s.trace.fdwScanStack = some e → e.node = p) ∧
    ∀ a, a.Enabled s → KeepsLive s a → EndsTransaction s a → (s.next a).trace.stmtStack = [] := by
  have ha := reachable_alive h
  exact ⟨ha.stmts.alive, ha.scans.alive,
    fun p hp _ hfind => ha.stmts.key_of_find ha.core.distinct hp hfind,
    fun p hp _ hfind => ha.scans.key_of_find ha.core.scans_distinct hp hfind,
    fun _ hen hok hend => ha.stmtStack_eq_nil hen hok hend⟩

/-- A cursor is open and being fetched from. -/
def cursorRunning : TracingSt :=
  [TracingAct.begin, .executorStart 1 true ⟨1⟩,
    .nodeBegin ⟨1, 0⟩ 10 .foreignScanState none (some ⟨2⟩), .runBegin ⟨1, 0⟩].foldl TracingSt.next {}

theorem reachBy_cursorRunning : tracing.ReachBy KeepsLive cursorRunning :=
  Machine.ReachBy.run (m := tracing) .init
    ⟨rfl, trivial, ⟨⟨_, _, rfl, rfl⟩, by decide⟩, trivial,
      ⟨⟨_, _, rfl, rfl⟩, by decide, by decide⟩, trivial,
      ⟨⟨_, _, rfl, rfl⟩, by decide, by decide⟩, trivial, trivial⟩

theorem bookkeeping_alive_cursorRunning :
    cursorRunning.trace.stmtStack.map StmtSpanEntry.key = [⟨1, 0⟩] ∧
      (∀ e ∈ cursorRunning.trace.stmtStack, e.key ∈ cursorRunning.livePtrs) ∧
      (cursorRunning.next (.abort 1 [⟨1, 0⟩])).trace.stmtStack = [] := by
  have h := bookkeeping_alive reachBy_cursorRunning
  refine ⟨by decide, h.1, h.2.2.2.2 (.abort 1 [⟨1, 0⟩])
    ⟨⟨_, _, rfl, rfl⟩, by decide, by decide, by decide⟩ ?_ rfl⟩
  intro top rest hlevels hrest
  obtain ⟨-, rfl⟩ := List.cons.inj hlevels
  exact absurd rfl hrest

/-- A cursor of the transaction fails in a `FETCH` inside a savepoint, which is rolled back, and the
transaction is committed. -/
def failedFetch : TracingSt :=
  [TracingAct.begin, .executorStart 1 true ⟨1⟩, .nodeBegin ⟨1, 0⟩ 10 .foreignScanState none (some ⟨2⟩),
    .savepoint, .runBegin ⟨1, 0⟩, .abort 1 [⟨1, 0⟩], .cleanup, .commit false].foldl TracingSt.next {}

theorem reachable_failedFetch : tracing.Reachable failedFetch :=
  Machine.ReachBy.run (m := tracing) .init
    ⟨rfl, trivial, ⟨⟨_, _, rfl, rfl⟩, by decide⟩, trivial,
      ⟨⟨_, _, rfl, rfl⟩, by decide, by decide⟩, trivial, ⟨_, _, rfl, rfl⟩, trivial,
      ⟨⟨_, _, rfl, rfl⟩, by decide, by decide⟩, trivial,
      ⟨⟨_, _, rfl, rfl⟩, by decide, by decide, by decide⟩, trivial, ⟨_, _, rfl, rfl⟩, trivial,
      ⟨⟨_, rfl, rfl⟩, rfl⟩, trivial, trivial⟩

/-- The cursor's entries are left behind after the commit; in the next transaction the end of a query
at the same address that has pushed nothing finds the dead cursor's span. -/
theorem failed_fetch_leaves_entries :
    tracing.Reachable failedFetch ∧ failedFetch.levels = [] ∧ failedFetch.livePtrs = [] ∧
      failedFetch.trace.stmtStack.map StmtSpanEntry.key = [⟨1, 0⟩] ∧
      failedFetch.scanPtrs = [] ∧
      failedFetch.trace.fdwScanStack.map NodeSpanEntry.node = [⟨10, 1⟩] ∧
      (TracingAct.executorStart 1 false otelSpanNone).Enabled (failedFetch.next .begin) ∧
      (((failedFetch.next .begin).next (.executorStart 1 false otelSpanNone)).queries.map
        fun q => (q.ptr, q.pushed)) = [(⟨1, 2⟩, none)] ∧
      (((failedFetch.next .begin).next (.executorStart 1 false otelSpanNone)).trace.popStmtSpan
        ⟨1, 2⟩).2 = ⟨1⟩ :=
  ⟨reachable_failedFetch, by decide, by decide, by decide, by decide, by decide,
    ⟨⟨_, _, rfl, rfl⟩, by decide⟩, by decide, by decide⟩

end PostgresOtel
