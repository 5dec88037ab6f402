import PostgresOtel.Trace.SpanEnds

/-!
# The handles that the hooks use

A handle that the hooks keep on a stack, or that `otel_ExecutorStart` still has, is of a span that is
open or that was ended in an abort, as long as no span is ended below others, a statement whose span
`push_stmt_span` has ended at once does not go on using it, and no span is left open at a commit with
its handle on a stack.
-/

set_option autoImplicit false

namespace PostgresOtel

open KeyedStack TracingSt TraceSt

namespace ActiveSpans

variable {a : ActiveSpans} {ref : OtelSpanRef}

/-! ## What keeps handles fit -/

theorem usable_start (h : a.Usable ref) (nestLevel : ℕ) (detached : Bool) :
    (a.start nestLevel detached).Usable ref := by
  rcases h with hnull | hopen | hlog
  · exact .inl hnull
  · exact .inr (.inl (Spans.isOpen_start.2 (.inr hopen)))
  · exact .inr (.inr hlog)

/-- A span that a resource owner releases in an abort stays fit. -/
theorem usable_released (h : a.Usable ref) (owned : OtelSpanRef → Bool) :
    (a.release owned .released).Usable ref := by
  rcases h with hnull | hopen | hlog
  · exact .inl hnull
  · cases hown : owned ref with
    | false => exact .inr (.inl (Spans.isOpen_close.2 ⟨hopen, hown⟩))
    | true => exact .inr (.inr (Spans.mem_log_close.2 (.inr ⟨hopen, hown, rfl⟩)))
  · exact .inr (.inr (Spans.mem_log_close.2 (.inl hlog)))

theorem usable_congr {a' : ActiveSpans} (h : a.Usable ref) (hspans : a'.spans = a.spans) :
    a'.Usable ref := by
  unfold Usable at h ⊢
  rwa [hspans]

theorem finish_count : (a.finish ref).spans.count = a.spans.count := by
  have hpopped : ((a.touch ref).popItem ref).spans.count = a.spans.count := by simp
  unfold finish
  split_ifs
  · exact hpopped
  · simp

theorem finish_misused (h : a.Usable ref) : (a.finish ref).misused = a.misused := by
  unfold finish
  rw [touch_usable h]
  split_ifs
  · exact popItem_misused
  · rfl

/-- Spans off the stack are ended by handles that are fit. -/
theorem finishes_misused {refs : List OtelSpanRef} (h : a.Ok) (hnd : refs.Nodup)
    (hoff : ∀ ref ∈ refs, ¬a.OnStack ref) (husable : ∀ ref ∈ refs, a.Usable ref) :
    (refs.foldl finish a).misused = a.misused := by
  induction refs generalizing a with
  | nil => rfl
  | cons ref refs ih =>
    obtain ⟨hnew, hnd⟩ := List.nodup_cons.1 hnd
    have hends := finish_alone h (above_of_not_onStack (hoff ref List.mem_cons_self))
    refine (ih hends.ok hnd (fun r hr => hends.not_onStack (hoff r (List.mem_cons_of_mem _ hr)))
      fun r hr => hends.usable h (husable r (List.mem_cons_of_mem _ hr)) ?_).trans
        (finish_misused (husable ref List.mem_cons_self))
    exact fun hm => hnew (List.mem_singleton.1 hm ▸ hr)

theorem sortSpan_misused {parent : OtelSpanRef} (husable : a.Usable parent) (starts : Bool)
    (nestLevel : ℕ) : (a.sortSpan parent starts nestLevel).misused = a.misused := by
  unfold sortSpan
  rw [touch_usable husable]
  split_ifs
  · exact finish_misused (.inr (.inl (Spans.isOpen_start.2 (.inl rfl))))
  · rfl

/-- A span stays fit that is above none of the activations that end. -/
theorem deactivates_usable {acts : List OtelSpanRef} (hok : a.Ok) (h : a.Usable ref)
    (habove : ∀ act ∈ acts, ∀ i ∈ a.above act, i.ref ≠ ref) :
    (acts.foldl deactivate a).Usable ref := by
  rcases h with hnull | hopen | hlog
  · exact .inl hnull
  · exact .inr (.inl (deactivates_isOpen hok hopen habove))
  · exact .inr (.inr ((Unwinds.deactivates acts).log _ hlog))

end ActiveSpans

/-! ## The ends of plan nodes -/

namespace TraceSt

theorem finds_perm (node : Ptr) (l : List NodeSpanEntry) :
    ((find NodeSpanEntry.node node l).toList.map NodeSpanEntry.ref ++
      (remove NodeSpanEntry.node node l).map NodeSpanEntry.ref).Perm (l.map NodeSpanEntry.ref) := by
  cases hfind : find NodeSpanEntry.node node l with
  | none =>
    have hkept : remove NodeSpanEntry.node node l = l :=
      List.eraseP_of_forall_not fun e he hsame => List.find?_eq_none.1 hfind e he hsame
    rw [hkept]
    exact .refl _
  | some e =>
    obtain ⟨l₁, l₂, rfl, hrem⟩ := remove_of_find hfind
    rw [hrem, List.map_append, List.map_append, List.map_cons, Option.toList_some, List.map_singleton,
      List.singleton_append]
    exact List.perm_middle.symm

/-- The end of a node ends the spans whose entries it removes. -/
theorem childEnds_perm (t : TraceSt) (planspans : Bool) (n : PlanNode) :
    (t.childEnds planspans n ++ (t.nodeEnd planspans n).children.map NodeSpanEntry.ref).Perm
      (t.children.map NodeSpanEntry.ref) := by
  have hplan : ((if planspans then (t.planspansNodeEndSpan n).toList.map SpanEndCall.ref else []) ++
      (t.nodeEnd planspans n).planspansStack.map NodeSpanEntry.ref).Perm
        (t.planspansStack.map NodeSpanEntry.ref) := by
    rw [nodeEnd_planspansStack]
    cases planspans with
    | false => exact .refl _
    | true =>
      unfold planspansNodeEndSpan
      by_cases hname : (planspansSpanName n.tag).isSome
      · have hnot : ¬(n.tag = .sortState ∨ n.tag = .incrementalSortState ∨
            (planspansSpanName n.tag).isNone) := by
          rintro (htag | htag | hnone)
          · simp [htag, planspansSpanName] at hname
          · simp [htag, planspansSpanName] at hname
          · rw [Option.isNone_iff_eq_none.1 hnone] at hname
            exact Bool.false_ne_true hname
        simp only [if_neg hnot, hname, Bool.and_self, if_true]
        have hperm := finds_perm n.ptr t.planspansStack
        cases hfind : find NodeSpanEntry.node n.ptr t.planspansStack with
        | none => simpa [hfind] using hperm
        | some e => simpa [hfind, SpanEndCall.ref] using hperm
      · have hnone : (planspansSpanName n.tag).isNone := by simpa using hname
        simp [hname, hnone]
  have hscan : ((if n.tag = .foreignScanState then
      (find NodeSpanEntry.node n.ptr t.fdwScanStack).toList.map NodeSpanEntry.ref else []) ++
      (t.nodeEnd planspans n).fdwScanStack.map NodeSpanEntry.ref).Perm
        (t.fdwScanStack.map NodeSpanEntry.ref) := by
    rw [nodeEnd_fdwScanStack]
    split_ifs
    · exact finds_perm n.ptr t.fdwScanStack
    · exact .refl _
  unfold childEnds children
  rw [List.map_append, List.map_append]
  refine .trans ?_ (hplan.append hscan)
  rw [List.append_assoc, List.append_assoc]
  refine List.Perm.append_left _ ?_
  rw [← List.append_assoc, ← List.append_assoc]
  exact List.perm_append_comm.append_right _

/-- So does the early end of a foreign scan. -/
theorem scanEnds_perm (t : TraceSt) (node : Ptr) :
    ((find NodeSpanEntry.node node t.fdwScanStack).toList.map NodeSpanEntry.ref ++
      (t.otelFdwScanEnd node).children.map NodeSpanEntry.ref).Perm
        (t.children.map NodeSpanEntry.ref) := by
  unfold children
  rw [List.map_append, List.map_append]
  refine .trans ?_ ((finds_perm node t.fdwScanStack).append_left _)
  rw [← List.append_assoc, ← List.append_assoc]
  exact List.perm_append_comm.append_right _

/-- So does the end walk. -/
theorem walkEnds_perm (planspans : Bool) (nodes : List PlanNode) (t : TraceSt) :
    (t.walkEnds planspans nodes ++
      (nodes.foldl (TraceSt.nodeEnd planspans) t).children.map NodeSpanEntry.ref).Perm
        (t.children.map NodeSpanEntry.ref) := by
  induction nodes generalizing t with
  | nil => exact .refl _
  | cons n ns ih =>
    refine .trans ?_ (childEnds_perm t planspans n)
    rw [walkEnds, List.append_assoc]
    exact (ih _).append_left _

/-- The parent of a child span is the statement's span or that of another node. -/
theorem planspansParent_mem (t : TraceSt) (ancestors : List PlanStateInfo) (stmtSpan : OtelSpanRef) :
    planspansParent t ancestors stmtSpan = stmtSpan ∨
      planspansParent t ancestors stmtSpan ∈ t.children.map NodeSpanEntry.ref := by
  unfold planspansParent
  cases hfind : ancestors.reverse.findSome? fun a => find NodeSpanEntry.node a.ptr t.planspansStack with
  | none => exact .inl rfl
  | some e =>
    obtain ⟨a, -, ha⟩ := List.exists_of_findSome?_eq_some hfind
    exact .inr (List.mem_map_of_mem (List.mem_append_left _ (mem_of_find ha)))

/-- A sort has no other span. -/
theorem childEnds_of_sorts {t : TraceSt} {x : SpanStep} {planspans : Bool} {n : PlanNode}
    (h : x.sorts planspans n = true) : t.childEnds planspans n = [] := by
  unfold SpanStep.sorts at h
  simp only [Bool.and_eq_true, decide_eq_true_eq] at h
  unfold childEnds planspansNodeEndSpan
  rcases h.1.2 with htag | htag <;> simp [htag]

end TraceSt

/-- The spans of the plan nodes are fit to be ended, and the statement's to be their parent. -/
structure ChildrenFit (t : TraceSt) (a : ActiveSpans) (stmtSpan : OtelSpanRef) : Prop where
  ok : a.Ok
  once : (t.children.map NodeSpanEntry.ref).Nodup
  off : ∀ ref ∈ t.children.map NodeSpanEntry.ref, ¬a.OnStack ref
  fit : ∀ ref ∈ t.children.map NodeSpanEntry.ref, a.Usable ref
  stmt : a.Usable stmtSpan
  other : stmtSpan ∉ t.children.map NodeSpanEntry.ref

namespace ChildrenFit

variable {t : TraceSt} {a : ActiveSpans} {stmtSpan : OtelSpanRef}

/-- The end of a node uses fit handles only, and leaves the others fit. -/
theorem endNode (h : ChildrenFit t a stmtSpan) (x : SpanStep) (planspans : Bool) (nestLevel : ℕ)
    (n : PlanNode) : (x.endNode planspans stmtSpan nestLevel t a n).misused = a.misused ∧
      ChildrenFit (t.nodeEnd planspans n) (x.endNode planspans stmtSpan nestLevel t a n) stmtSpan := by
  have hperm := childEnds_perm t planspans n
  have hended : ∀ ref ∈ t.childEnds planspans n, ref ∈ t.children.map NodeSpanEntry.ref :=
    fun ref hr => hperm.subset (List.mem_append_left _ hr)
  have hleft : ∀ ref ∈ (t.nodeEnd planspans n).children.map NodeSpanEntry.ref,
      ref ∈ t.children.map NodeSpanEntry.ref := fun ref hr => hperm.subset (List.mem_append_right _ hr)
  obtain ⟨hnd, hndleft, hdisj⟩ := List.nodup_append.1 (hperm.nodup_iff.2 h.once)
  have hends := ActiveSpans.Ends.endNode h.ok x planspans stmtSpan nestLevel n h.off
  refine ⟨?_, hends.ok, hndleft, fun ref hr => hends.not_onStack (h.off ref (hleft ref hr)),
    fun ref hr => hends.usable h.ok (h.fit ref (hleft ref hr)) fun hm => hdisj ref hm ref hr rfl,
    hends.usable h.ok h.stmt fun hm => h.other (hended _ hm), fun hm => h.other (hleft _ hm)⟩
  unfold SpanStep.endNode
  simp only
  split_ifs with hsort
  · rw [childEnds_of_sorts hsort, List.foldl_nil]
    refine ActiveSpans.sortSpan_misused ?_ _ _
    rcases planspansParent_mem t (x.ancestors n.ptr) stmtSpan with heq | hm
    · rw [heq]
      exact h.stmt
    · exact h.fit _ hm
  · exact ActiveSpans.finishes_misused h.ok hnd (fun ref hr => h.off ref (hended ref hr))
      fun ref hr => h.fit ref (hended ref hr)

theorem endNodes (h : ChildrenFit t a stmtSpan) (x : SpanStep) (planspans : Bool) (nestLevel : ℕ)
    (nodes : List PlanNode) :
    (x.endNodes planspans stmtSpan nestLevel t a nodes).misused = a.misused := by
  induction nodes generalizing t a with
  | nil => rfl
  | cons n ns ih =>
    obtain ⟨hsame, hrest⟩ := h.endNode x planspans nestLevel n
    exact (ih hrest).trans hsame

end ChildrenFit

/-! ## Handles that are kept -/

/-- `otel_ExecutorStart` has the span that was started for its query. -/
theorem Owns.stmtSpan_eq {p : TracingSt × StmtSpans} (h : Owns p) {w : SpanOwner}
    (hw : w ∈ p.2.stmts) {query : Ptr} (hkey : w.key = query) : p.2.stmtSpan query = w.ref := by
  unfold StmtSpans.stmtSpan
  cases hfind : p.2.stmts.find? fun w => w.key = query with
  | none =>
    have hnone := List.find?_eq_none.1 hfind w hw
    exact absurd (decide_eq_true hkey) hnone
  | some w' =>
    have hkey' : w'.key = query :=
      of_decide_eq_true (List.find?_some (p := fun w : SpanOwner => decide (w.key = query)) hfind)
    have heq := List.inj_on_of_nodup_map h.keys (List.mem_of_find?_eq_some hfind) hw
      (hkey'.trans hkey.symm)
    rw [heq]
    rfl

/-- The spans of plan nodes are not popped. -/
theorem Owns.child_ne_popped {p : TracingSt × StmtSpans} (h : Owns p) (key : Ptr)
    {e : NodeSpanEntry} (he : e ∈ p.1.trace.children) : e.ref ≠ (p.1.trace.popStmtSpan key).2 := by
  intro heq
  rcases (h.popped key).1 with hnone | ⟨e', he', hepop, -⟩
  · obtain ⟨c, hc, hce⟩ := List.mem_map.1 (h.children e he)
    exact (h.started c (List.mem_append_right _ hc)).ne_zero (by rw [hce, heq, hnone]; rfl)
  · obtain ⟨w, hw, hwref, -⟩ := h.entries e' he'
    refine h.stmt_not_child hw ?_
    rw [hwref, hepop, ← heq]
    exact List.mem_map_of_mem he

/-- The spans of queries and calls at other addresses are not popped. -/
theorem Owns.pushed_ne_popped {p : TracingSt × StmtSpans} (h : Owns p) {key : Ptr} {q : Query}
    (hq : q ∈ p.1.queries) {ref : OtelSpanRef} (href : q.pushed = some ref)
    (haddr : q.ptr.addr ≠ key.addr) : ref ≠ (p.1.trace.popStmtSpan key).2 := by
  intro heq
  obtain ⟨w, hw, rfl, hkey⟩ := h.pushed q hq ref href
  rcases (h.popped key).1 with hnone | ⟨e, he, hepop, headdr⟩
  · exact (h.started w (List.mem_append_left _ hw)).ne_zero (by rw [heq, hnone]; rfl)
  · obtain ⟨w', hw', hwref, hwkey, -⟩ := h.entries e he
    have hsame := h.stmt_unique hw hw' (heq.trans (hepop.symm.trans hwref.symm))
    apply haddr
    rw [← hkey, hsame, hwkey, headdr]

/-- The handles on the stacks and those of the queries that got an entry are fit, and no other was
used. -/
structure Fit (p : TracingSt × StmtSpans) : Prop where
  entries : ∀ e ∈ p.1.trace.stmtStack, p.2.work.Usable e.ref
  children : ∀ e ∈ p.1.trace.children, p.2.work.Usable e.ref
  pushed : ∀ q ∈ p.1.queries, ∀ ref, q.pushed = some ref → p.2.work.Usable ref
  misused : p.2.work.misused = []

/-- A statement whose span was not kept goes on without it; nothing is above what leaves the active
stack; and no span is open at a commit that an entry keeps. -/
def SpanStep.KeepsFit (p : TracingSt × StmtSpans) (x : SpanStep) : Prop :=
  x.Alone p ∧
  match x.act with
  | .executorStart _ _ ref => ref.v = 0 ∨ p.1.trace.stmtStack.length < otelStmtStackMax ∨
      (x.worker = false ∧ x.planshape = false)
  | .nodeBegin query _ tag planspans _ =>
    tag ≠ .foreignScanState ∧ planspans.isSome ∧ (planspansSpanName tag).isSome ∧
      p.1.trace.planspansStack.length < otelPlanspansStackMax →
        ∃ q ∈ p.1.queries, q.ptr = query ∧ q.pushed ≠ none
  | .commit _ => (∀ e ∈ p.1.trace.stmtStack, ¬p.2.work.spans.IsOpen e.ref) ∧
      ∀ e ∈ p.1.trace.children, ¬p.2.work.spans.IsOpen e.ref
  | _ => True

namespace Fit

variable {p p' : TracingSt × StmtSpans}

theorem init : Fit ({}, {}) where
  entries _ h := absurd h List.not_mem_nil
  children _ h := absurd h List.not_mem_nil
  pushed _ h := absurd h List.not_mem_nil
  misused := rfl

/-- Entries and queries may go, and the handles of the others stay fit. -/
theorem keep (h : Fit p) (hfewer : Fewer p.1 p'.1) (hmisused : p'.2.work.misused = p.2.work.misused)
    (hentries : ∀ e ∈ p'.1.trace.stmtStack, p.2.work.Usable e.ref → p'.2.work.Usable e.ref)
    (hchildren : ∀ e ∈ p'.1.trace.children, p.2.work.Usable e.ref → p'.2.work.Usable e.ref)
    (hpushed : ∀ q ∈ p'.1.queries, ∀ ref, q.pushed = some ref → p.2.work.Usable ref →
      p'.2.work.Usable ref) : Fit p' where
  entries e he := hentries e he (h.entries e (hfewer.stmts.subset he))
  children e he := hchildren e he (h.children e (hfewer.children.subset he))
  pushed q hq ref href := by
    obtain ⟨q₀, hq₀, -, -, heq⟩ := hfewer.queries q hq
    exact hpushed q hq ref href (h.pushed q₀ hq₀ ref (heq.trans href))
  misused := hmisused.trans h.misused

/-- Where every handle stays fit. -/
theorem keepAll (h : Fit p) (hfewer : Fewer p.1 p'.1)
    (hmisused : p'.2.work.misused = p.2.work.misused)
    (hall : ∀ ref, p.2.work.Usable ref → p'.2.work.Usable ref) : Fit p' :=
  h.keep hfewer hmisused (fun e _ => hall e.ref) (fun e _ => hall e.ref) fun _ _ ref _ => hall ref

/-- What starting a statement leaves fit: the handles that were, and its own if it is kept. -/
theorem startStmt_usable (hown : Owns p) (addr : ℕ) {ref : OtelSpanRef} (detached recording : Bool)
    (hfresh : p.2.Fresh ref) :
    (∀ r, p.2.work.Usable r →
      (p.2.startStmt p.1 addr ref detached recording).work.Usable r) ∧
    (p.1.trace.pushesStmt ref = true →
      (p.2.startStmt p.1 addr ref detached recording).work.Usable ref) ∧
    (p.2.startStmt p.1 addr ref detached recording).work.misused = p.2.work.misused := by
  have hends := ActiveSpans.Ends.startStmt hown.ok p.1.trace (p.1.newPtr addr) detached
    p.1.currentLevel hfresh.resolve_left
  have hnil := fun r : OtelSpanRef => @List.not_mem_nil _ r
  refine ⟨fun r hr => ?_, fun hp => ?_, ?_⟩
  · split_ifs at hends
    · exact hends.usable (hown.ok.start _ _) (ActiveSpans.usable_start hr _ _) (hnil r)
    · exact hends.usable hown.ok hr (hnil r)
  · have hv : ref.v ≠ 0 := of_decide_eq_true (Bool.and_eq_true_iff.1 hp).1
    rw [if_pos hp] at hends
    refine hends.usable (hown.ok.start _ _) (.inr (.inl ?_)) (hnil ref)
    exact Spans.isOpen_start.2 (.inl (hfresh.resolve_left hv))
  · have hstarted : (p.2.work.started ref p.1.currentLevel.level detached).misused =
        p.2.work.misused := by
      unfold ActiveSpans.started
      split_ifs <;> rfl
    refine (ActiveSpans.finish_misused ?_).trans hstarted
    unfold pushStmtSpan
    split_ifs with hv hfull
    · exact .inl rfl
    · refine .inr (.inl ?_)
      rw [ActiveSpans.started, if_neg hv]
      exact Spans.isOpen_start.2 (.inl (hfresh.resolve_left hv))
    · exact .inl rfl

/-- A statement starts. -/
theorem startStmt (h : Fit p) (hown : Owns p) {s' : TracingSt} {addr : ℕ} {ref : OtelSpanRef}
    (detached recording : Bool) (hfresh : p.2.Fresh ref)
    (htrace : s'.trace = (p.1.trace.pushStmtSpan (p.1.newPtr addr) ref detached p.1.currentLevel).1)
    (hq : ∀ q ∈ s'.queries, q ∈ p.1.queries ∨
      q.pushed = if p.1.trace.pushesStmt ref then some ref else none) :
    Fit (s', p.2.startStmt p.1 addr ref detached recording) := by
  obtain ⟨hall, hnew, hmisused⟩ := startStmt_usable hown addr detached recording hfresh
  have hstack := pushStmtSpan_stack p.1.trace (p.1.newPtr addr) ref detached p.1.currentLevel
  have hchildren := childrenOf_pushStmtSpan p.1.trace (p.1.newPtr addr) ref detached p.1.currentLevel
  rw [← htrace] at hstack hchildren
  refine ⟨fun e he => ?_, fun e he => hall _ (h.children e (hchildren ▸ he)), fun q hq' r hr => ?_,
    hmisused.trans h.misused⟩
  · rw [hstack] at he
    split_ifs at he with hp
    · rcases List.mem_cons.1 he with rfl | he
      · exact hnew hp
      · exact hall _ (h.entries e he)
    · exact hall _ (h.entries e he)
  · rcases hq q hq' with hq' | hpushed
    · exact hall r (h.pushed q hq' r hr)
    · rw [hpushed] at hr
      split_ifs at hr with hp
      obtain rfl := Option.some.inj hr
      exact hnew hp

/-- A call names a fit handle. -/
theorem touch (h : Fit p) {ref : OtelSpanRef} (hfit : p.2.work.Usable ref) :
    Fit (p.1, { p.2 with work := p.2.work.touch ref }) := by
  rw [ActiveSpans.touch_usable hfit]
  exact h

/-- What the begin of a node names is fit. -/
theorem beginNames (h : Fit p) (hown : Owns p) {x : SpanStep} {query : Ptr} {addr : ℕ}
    {tag : PlanNodeTag} {planspans fdw : Option OtelSpanRef}
    (hact : x.act = .nodeBegin query addr tag planspans fdw) (hok : x.KeepsFit p) :
    p.2.work.Usable (p.2.beginNames p.1 x query (p.1.newPtr addr) tag planspans fdw) := by
  unfold StmtSpans.beginNames
  split_ifs with hscan hfdw hplan
  · unfold ActiveSpans.current
    cases hhead : p.2.work.active.head? with
    | none => exact .inl rfl
    | some i => exact .inr (.inl (hown.ok.opened i (List.mem_of_head? hhead)))
  · exact .inl rfl
  · rcases planspansParent_mem p.1.trace (x.ancestors (p.1.newPtr addr)) (p.2.stmtSpan query) with
      heq | hm
    · obtain ⟨-, hkeeps⟩ := hok
      simp only [hact] at hkeeps
      obtain ⟨q, hq, rfl, hpushed⟩ := hkeeps ⟨hscan, hplan⟩
      obtain ⟨ref, href⟩ := Option.ne_none_iff_exists'.1 hpushed
      obtain ⟨w, hw, rfl, hkey⟩ := hown.pushed q hq ref href
      rw [heq, hown.stmtSpan_eq hw hkey]
      exact h.pushed q hq w.ref href
    · obtain ⟨e, he, heq⟩ := List.mem_map.1 hm
      exact heq ▸ h.children e he
  · exact .inl rfl

/-- A plan node begins. -/
theorem beginNode (h : Fit p) (hown : Owns p) {x : SpanStep} {query : Ptr} {addr : ℕ}
    {tag : PlanNodeTag} {planspans fdw : Option OtelSpanRef}
    (hact : x.act = .nodeBegin query addr tag planspans fdw) (hok : x.KeepsFit p)
    (hfresh : ∀ ref ∈ p.1.trace.childStart planspans fdw tag, p.2.Fresh ref) :
    Fit (p.1.next (.nodeBegin query addr tag planspans fdw),
      p.2.beginNode p.1 x query addr tag planspans fdw) := by
  have hnames := h.beginNames hown hact hok
  have hchildren := childrenOf_nodeBegin p.1.trace planspans fdw ⟨p.1.newPtr addr, tag⟩
    p.1.currentLevel
  have hstack := nodeBegin_stmtStack p.1.trace planspans fdw ⟨p.1.newPtr addr, tag⟩ p.1.currentLevel
  have hpushed : ∀ q ∈ (p.1.next (.nodeBegin query addr tag planspans fdw)).queries, ∀ ref,
      q.pushed = some ref → p.2.work.Usable ref := by
    intro q hq ref href
    obtain ⟨q₀, hq₀, rfl⟩ := List.mem_map.1 hq
    refine h.pushed q₀ hq₀ ref ?_
    split_ifs at href <;> exact href
  unfold StmtSpans.beginNode
  rw [ActiveSpans.touch_usable hnames]
  cases hstart : p.1.trace.childStart planspans fdw tag with
  | none =>
    rw [hstart] at hchildren
    exact ⟨fun e he => h.entries e (hstack ▸ he), fun e he => h.children e (hchildren ▸ he), hpushed,
      h.misused⟩
  | some ref =>
    rw [hstart] at hchildren
    have href : ref = spanHandle p.2.work.spans.count :=
      (hfresh ref hstart).resolve_left (Owns.childStart_ne_zero hstart)
    have hall := fun r (hr : p.2.work.Usable r) =>
      ActiveSpans.usable_start hr p.1.currentLevel.level true
    refine ⟨fun e he => hall _ (h.entries e (hstack ▸ he)), fun e he => ?_,
      fun q hq r hr => hall r (hpushed q hq r hr), h.misused⟩
    rcases List.mem_cons.1 (hchildren.mem_iff.1 he) with rfl | he
    · exact .inr (.inl (Spans.isOpen_start.2 (.inl href)))
    · exact hall _ (h.children e he)

/-- Spans end of which no handle is kept. -/
theorem ends (h : Fit p) (hown : Owns p) {refs : List OtelSpanRef} (hfewer : Fewer p.1 p'.1)
    (hends : ActiveSpans.Ends p.2.work p'.2.work refs) (hmisused : p'.2.work.misused = p.2.work.misused)
    (hentries : ∀ e ∈ p'.1.trace.stmtStack, e.ref ∉ refs)
    (hchildren : ∀ e ∈ p'.1.trace.children, e.ref ∉ refs)
    (hpushed : ∀ q ∈ p'.1.queries, ∀ ref, q.pushed = some ref → ref ∉ refs) : Fit p' :=
  h.keep hfewer hmisused (fun e he hu => hends.usable hown.ok hu (hentries e he))
    (fun e he hu => hends.usable hown.ok hu (hchildren e he))
    fun q hq ref href hu => hends.usable hown.ok hu (hpushed q hq ref href)

/-- The spans of statements are none of those that plan nodes have. -/
theorem stmt_not_ended (hown : Owns p) {refs : List OtelSpanRef}
    (hrefs : ∀ ref ∈ refs, ref ∈ p.1.trace.children.map NodeSpanEntry.ref) :
    (∀ e ∈ p.1.trace.stmtStack, e.ref ∉ refs) ∧
      ∀ q ∈ p.1.queries, ∀ ref, q.pushed = some ref → ref ∉ refs := by
  refine ⟨fun e he hm => ?_, fun q hq ref href hm => ?_⟩
  · obtain ⟨w, hw, hwref, -⟩ := hown.entries e he
    exact hown.stmt_not_child hw (hwref ▸ hrefs _ hm)
  · obtain ⟨w, hw, rfl, -⟩ := hown.pushed q hq ref href
    exact hown.stmt_not_child hw (hrefs _ hm)

/-- A foreign scan ends. -/
theorem nodeEnd (h : Fit p) (hown : Owns p) {query node : Ptr} {x : SpanStep}
    (hact : x.act = .nodeEnd query node) (hfewer : Fewer p.1 (p.1.next x.act)) :
    Fit (p.1.next x.act, p.2.next p.1 x) := by
  have hperm := scanEnds_perm p.1.trace node
  have hrefs : ∀ ref ∈ (find NodeSpanEntry.node node p.1.trace.fdwScanStack).toList.map
      NodeSpanEntry.ref, ref ∈ p.1.trace.children.map NodeSpanEntry.ref :=
    fun ref hr => hperm.subset (List.mem_append_left _ hr)
  have hoff := fun ref hr => hown.children_off (hrefs ref hr)
  obtain ⟨hnd, -, hdisj⟩ := List.nodup_append.1 (hperm.nodup_iff.2 hown.children_once)
  obtain ⟨hentries, hpushed⟩ := stmt_not_ended hown hrefs
  rw [hact] at hfewer ⊢
  simp only [StmtSpans.next, hact]
  refine h.ends hown hfewer (.finishes hown.ok hoff) (ActiveSpans.finishes_misused hown.ok hnd hoff
    fun ref hr => ?_) hentries (fun e he hm => hdisj _ hm _ (List.mem_map_of_mem he) rfl)
      fun q hq ref href => ?_
  · obtain ⟨e, he, rfl⟩ := List.mem_map.1 (hrefs ref hr)
    exact h.children e he
  · obtain ⟨q₀, hq₀, -, -, heq⟩ := hfewer.queries q hq
    exact hpushed q₀ hq₀ ref (heq.trans href)

/-- What is left on the statement stack is named when the leader's context is restored. -/
theorem finalize_misused {a : ActiveSpans} (hok : a.Ok) {t : TraceSt} {ref : OtelSpanRef}
    (habove : a.above ref = []) (href : a.Usable ref)
    (hstack : ∀ e ∈ t.stmtStack, a.Usable e.ref ∧ e.ref ≠ ref) :
    (a.finalizeStmtSpan t ref).misused = a.misused := by
  have hends := ActiveSpans.finish_alone hok habove
  unfold ActiveSpans.finalizeStmtSpan
  split_ifs
  · rfl
  · rw [ActiveSpans.touch_usable, ActiveSpans.finish_misused href]
    cases hhead : t.stmtStack.head? with
    | none => exact .inl rfl
    | some e =>
      obtain ⟨husable, hne⟩ := hstack e (List.mem_of_head? hhead)
      exact hends.usable hok husable fun hm => hne (List.mem_singleton.1 hm)

/-- The handle that `pop_stmt_span` returns is fit. -/
theorem popped_usable (h : Fit p) (hown : Owns p) (key : Ptr) :
    p.2.work.Usable (p.1.trace.popStmtSpan key).2 := by
  rcases (hown.popped key).1 with hnone | ⟨e, he, heq, -⟩
  · exact .inl (by rw [hnone]; rfl)
  · exact heq ▸ h.entries e he

/-- A traced call returns. -/
theorem utilityEnd (h : Fit p) (hown : Owns p) {x : SpanStep} (hact : x.act = .utilityEnd)
    (hen : TracingAct.utilityEnd.Enabled p.1) (halone : x.Alone p)
    (hfewer : Fewer p.1 (p.1.next x.act)) : Fit (p.1.next x.act, p.2.next p.1 x) := by
  obtain ⟨token, toplevel, sub, rest, hframes⟩ := hen
  rw [hact] at hfewer ⊢
  simp only [StmtSpans.next, hact, hframes, List.head?_cons, Option.bind_some]
  cases toplevel with
  | false =>
    exact h.keepAll hfewer rfl fun _ hr => hr
  | true =>
    have habove : p.2.work.above (p.1.trace.popStmtSpan token).2 = [] :=
      halone _ (by simp [SpanStep.leaving, hact, hframes, CallFrame.token])
    have hcore := hown.core
    have hleft : ∀ e ∈ (p.1.trace.popStmtSpan token).1.stmtStack,
        p.2.work.Usable e.ref ∧ e.ref ≠ (p.1.trace.popStmtSpan token).2 := fun e he =>
      ⟨h.entries e ((remove_sublist token).subset he), (hown.popped token).2 e he⟩
    have hstack : (p.1.next .utilityEnd).trace.stmtStack =
        (p.1.trace.popStmtSpan token).1.stmtStack := by
      simp only [TracingSt.next, hframes]
      rfl
    refine h.ends hown hfewer (.finalizeStmtSpan hown.ok _ habove)
      (finalize_misused hown.ok habove (h.popped_usable hown token) hleft) (fun e he hm => ?_)
      (fun e he hm => hown.child_ne_popped token (hfewer.children.subset he)
        (List.mem_singleton.1 hm)) fun q hq ref href hm => ?_
    · rw [hstack] at he
      exact (hleft e he).2 (List.mem_singleton.1 hm)
    · obtain ⟨q₀, hq₀, hptr, -, heq⟩ := hfewer.queries q hq
      refine hown.pushed_ne_popped hq₀ (heq.trans href) ?_ (List.mem_singleton.1 hm)
      exact hcore.token_addr_ne hq₀ (f := .utility token true sub)
        (by rw [hframes]; exact List.mem_cons_self) rfl

/-- The end of a query uses fit handles only. -/
theorem endQuery_misused (h : Fit p) (hown : Owns p) (x : SpanStep) {query : Ptr} (planspans : Bool)
    (habove : p.2.work.above (p.1.trace.popStmtSpan query).2 = []) :
    (p.2.endQuery p.1 x query planspans).work.misused = p.2.work.misused := by
  have hpopped := h.popped_usable hown query
  have hnot : (p.1.trace.popStmtSpan query).2 ∉ p.1.trace.children.map NodeSpanEntry.ref := by
    intro hm
    obtain ⟨e, he, heq⟩ := List.mem_map.1 hm
    exact hown.child_ne_popped query he heq
  have hfit : ChildrenFit (p.1.trace.popStmtSpan query).1 p.2.work (p.1.trace.popStmtSpan query).2 := by
    refine ⟨hown.ok, hown.children_once, fun ref hr => hown.children_off hr, fun ref hr => ?_, hpopped,
      hnot⟩
    obtain ⟨e, he, rfl⟩ := List.mem_map.1 hr
    exact h.children e he
  have hwalk := ActiveSpans.Ends.endNodes hown.ok x planspans (p.1.trace.popStmtSpan query).2
    p.1.currentLevel.level ((p.1.queries.filter fun q => q.ptr = query).flatMap Query.nodes) hfit.off
  have hended : ∀ ref ∈ (p.1.trace.popStmtSpan query).1.walkEnds planspans
      ((p.1.queries.filter fun q => q.ptr = query).flatMap Query.nodes),
      ref ∈ p.1.trace.children.map NodeSpanEntry.ref := fun ref hr => by
    have hmem : ref ∈ (p.1.trace.popStmtSpan query).1.children.map NodeSpanEntry.ref := mem_walkEnds hr
    exact hmem
  unfold StmtSpans.endQuery
  simp only
  rw [ActiveSpans.touch_usable hpopped]
  refine (finalize_misused hwalk.ok ?_ (hwalk.usable hown.ok hpopped fun hm => hnot (hended _ hm))
    fun e he => ⟨hwalk.usable hown.ok (h.entries e ((remove_sublist query).subset he)) ?_,
      (hown.popped query).2 e he⟩).trans (hfit.endNodes x planspans _ _)
  · rw [hwalk.above_eq fun ref hr => hown.children_off (hended ref hr)]
    exact habove
  · exact (stmt_not_ended hown hended).1 e ((remove_sublist query).subset he)

/-- A query ends. -/
theorem executorEnd (h : Fit p) (hown : Owns p) {x : SpanStep} {query : Ptr} {planspans : Bool}
    (hact : x.act = .executorEnd query planspans)
    (hen : (TracingAct.executorEnd query planspans).Enabled p.1) (halone : x.Alone p)
    (hfewer : Fewer p.1 (p.1.next x.act)) : Fit (p.1.next x.act, p.2.next p.1 x) := by
  obtain ⟨-, ⟨q₀, hq₀, rfl⟩, -⟩ := hen
  have habove : p.2.work.above (p.1.trace.popStmtSpan q₀.ptr).2 = [] :=
    halone _ (by simp [SpanStep.leaving, hact])
  have hperm := walkEnds_perm planspans ((p.1.queries.filter fun q => q.ptr = q₀.ptr).flatMap Query.nodes)
    (p.1.trace.popStmtSpan q₀.ptr).1
  have hwalk : ∀ ref ∈ (p.1.trace.popStmtSpan q₀.ptr).1.walkEnds planspans
      ((p.1.queries.filter fun q => q.ptr = q₀.ptr).flatMap Query.nodes),
      ref ∈ p.1.trace.children.map NodeSpanEntry.ref :=
    fun ref hr => hperm.subset (List.mem_append_left _ hr)
  obtain ⟨-, -, hdisj⟩ := List.nodup_append.1 (hperm.nodup_iff.2 hown.children_once)
  obtain ⟨hentries, hpushed⟩ := stmt_not_ended hown hwalk
  have hends := hown.endQuery_ends x planspans habove
  have hmisused := h.endQuery_misused hown x planspans habove
  rw [hact] at hfewer ⊢
  simp only [StmtSpans.next, hact]
  refine h.ends hown hfewer hends hmisused (fun e he hm => ?_) (fun e he hm => ?_)
    fun q hq ref href hm => ?_
  · have hstack : e ∈ (p.1.trace.popStmtSpan q₀.ptr).1.stmtStack := by
      have he : e ∈ ((((p.1.queries.filter fun q => q.ptr = q₀.ptr).flatMap Query.nodes).foldl
        (TraceSt.nodeEnd planspans) (p.1.trace.popStmtSpan q₀.ptr).1).stmtStack) := he
      rwa [nodeEnds_stmtStack] at he
    rcases List.mem_append.1 hm with hm | hm
    · exact hentries e ((remove_sublist q₀.ptr).subset hstack) hm
    · exact (hown.popped q₀.ptr).2 e hstack (List.mem_singleton.1 hm)
  · rcases List.mem_append.1 hm with hm | hm
    · exact hdisj _ hm _ (List.mem_map_of_mem he) rfl
    · exact hown.child_ne_popped q₀.ptr (hfewer.children.subset he) (List.mem_singleton.1 hm)
  · obtain ⟨hq, hne⟩ := List.mem_filter.1 hq
    rcases List.mem_append.1 hm with hm | hm
    · exact hpushed q hq ref href hm
    · refine hown.pushed_ne_popped hq href (fun haddr => of_decide_eq_true hne ?_)
        (List.mem_singleton.1 hm)
      exact hown.core.distinct.eq_of_same (List.mem_append_left _ (List.mem_map_of_mem hq))
        (List.mem_append_left _ (List.mem_map_of_mem hq₀)) haddr

/-- The execution of a query starts. -/
theorem executorStart (h : Fit p) (hown : Owns p) {x : SpanStep} {addr : ℕ} {isCursor : Bool}
    {ref : OtelSpanRef} (hact : x.act = .executorStart addr isCursor ref) (hx : x.Enabled p)
    (hok : x.KeepsFit p) : Fit (p.1.next x.act, p.2.next p.1 x) := by
  obtain ⟨-, hkeeps⟩ := hok
  simp only [hact] at hkeeps
  simp only [SpanStep.Enabled, hact] at hx
  simp only [StmtSpans.next, hact]
  have hbegan : Fit (p.1.next (.executorStart addr isCursor ref),
      p.2.startStmt p.1 addr ref isCursor x.recording) :=
    h.startStmt hown isCursor x.recording hx.1 rfl fun q hq =>
      (List.mem_cons.1 hq).symm.imp_right fun heq => by rw [heq]
  split_ifs with huses
  · refine hbegan.touch ?_
    rcases hkeeps with hnull | hroom | ⟨hworker, hshape⟩
    · exact .inl hnull
    · by_cases hv : ref.v = 0
      · exact .inl hv
      · refine (startStmt_usable hown addr isCursor x.recording hx.1).2.1 ?_
        simp [pushesStmt, hv, hroom]
    · simp [hworker, hshape] at huses
  · exact hbegan

/-- A run begins. -/
theorem runBegin (h : Fit p) (hown : Owns p) {x : SpanStep} {query : Ptr}
    (hact : x.act = .runBegin query) (hfewer : Fewer p.1 (p.1.next x.act)) :
    Fit (p.1.next x.act, p.2.next p.1 x) := by
  obtain ⟨-, hspans, -⟩ := hown.beginRun_work x query
  have hmisused : (p.2.beginRun p.1 x query).work.misused = p.2.work.misused := by
    unfold StmtSpans.beginRun
    cases hpeek : p.1.trace.peekCursorSpan query with
    | none => rfl
    | some ref =>
      obtain ⟨e, he, rfl, -⟩ := hown.peek_stmt hpeek
      simp only [ActiveSpans.activate, ActiveSpans.touch_usable (h.entries e he)]
      split_ifs <;> rfl
  have hnext : p.2.next p.1 x = p.2.beginRun p.1 x query := by simp only [StmtSpans.next, hact]
  rw [hnext]
  exact h.keepAll hfewer hmisused fun ref href => ActiveSpans.usable_congr href hspans

/-- A run ends. -/
theorem runEnd (h : Fit p) (hown : Owns p) {x : SpanStep} (hact : x.act = .runEnd)
    (halone : x.Alone p) (hfewer : Fewer p.1 (p.1.next x.act)) :
    Fit (p.1.next x.act, p.2.next p.1 x) := by
  simp only [SpanStep.Alone, SpanStep.leaving, hact] at halone
  have hnext : p.2.next p.1 x = p.2.endRuns 1 := by simp only [StmtSpans.next, hact]
  have hspans := hown.endRun_spans halone
  rw [hnext]
  exact h.keepAll hfewer ((ActiveSpans.Unwinds.deactivates _).misused) fun ref href =>
    ActiveSpans.usable_congr href hspans

/-- A transaction commits. -/
theorem commit (h : Fit p) {x : SpanStep} {prepare : Bool} (hact : x.act = .commit prepare)
    (hen : (TracingAct.commit prepare).Enabled p.1) (hok : x.KeepsFit p)
    (hfewer : Fewer p.1 (p.1.next x.act)) : Fit (p.1.next x.act, p.2.next p.1 x) := by
  obtain ⟨-, hkeeps⟩ := hok
  simp only [hact] at hkeeps
  rw [hact] at hfewer ⊢
  have hleft : ∀ ref, ¬p.2.work.spans.IsOpen ref → p.2.work.Usable ref →
      (p.2.next p.1 x).work.Usable ref := by
    intro ref hnot href
    simp only [StmtSpans.next, hact]
    rcases href with hnull | hopen | hlog
    · exact .inl hnull
    · exact absurd hopen hnot
    · exact .inr (.inr ((Spans.mem_log_close (q := fun _ => true)).2 (.inl hlog)))
  refine h.keep hfewer ?_ (fun e he => hleft e.ref (hkeeps.1 e (hfewer.stmts.subset he)))
    (fun e he => hleft e.ref (hkeeps.2 e (hfewer.children.subset he))) fun q hq => ?_
  · simp only [StmtSpans.next, hact]
    rfl
  · have hnone : (p.1.next (.commit prepare)).queries = [] := hen.2
    rw [hnone] at hq
    exact absurd hq List.not_mem_nil

/-- What an abort unwinds was started inside of the level, and so does not outlive it. -/
theorem abort (h : Fit p) (hown : Owns p) {x : SpanStep} {unwound : ℕ} {dead : List Ptr}
    (hact : x.act = .abort unwound dead) (hx : x.Enabled p)
    (hfewer : Fewer p.1 (p.1.next x.act)) : Fit (p.1.next x.act, p.2.next p.1 x) := by
  simp only [SpanStep.Enabled, hact] at hx
  have hinside := hx.2
  rw [hact] at hfewer ⊢
  have hall : ∀ ref, (∀ top rest, p.1.levels = top :: rest → rest ≠ [] ∧
      ∀ w ∈ p.2.stmts, w.ref = ref → w.nest.sub ∉ top.members) → p.2.work.Usable ref →
        (p.2.next p.1 x).work.Usable ref := by
    intro ref hlives href
    simp only [StmtSpans.next, hact]
    refine ActiveSpans.usable_released (ActiveSpans.deactivates_usable hown.ok href ?_) _
    intro act hruns i hi heq
    obtain ⟨top, rest, hlevels, hgone⟩ := hinside act hruns i hi
    obtain ⟨hrest, hnot⟩ := hlives top rest hlevels
    rcases hgone with hnil | ⟨w, hw, hwref, hsub⟩
    · exact hrest hnil
    · exact hnot w hw (hwref.trans heq) hsub
  have hmisused : (p.2.next p.1 x).work.misused = p.2.work.misused := by
    simp only [StmtSpans.next, hact]
    exact (ActiveSpans.Unwinds.deactivates _).misused
  refine h.keep hfewer hmisused (fun e he => hall e.ref fun top rest hlevels => ?_)
    (fun e he hu => ?_) fun q hq ref href => hall ref fun top rest hlevels => ?_
  · -- An entry that stays is stamped further out.
    have hlen : p.1.currentLevel.level = (top :: rest).length := by rw [currentLevel, hlevels]
    simp only [TracingSt.next, hlevels] at he
    split_ifs at he with hrest
    · exact absurd he List.not_mem_nil
    · obtain ⟨he, hlt⟩ := List.mem_filter.1 he
      have hlt := of_decide_eq_true hlt
      refine ⟨by simpa using hrest, fun w hw hwref hm => ?_⟩
      obtain ⟨w', hw', hwref', -, hnest⟩ := hown.entries e ((caught_sublist _ _).subset he)
      obtain rfl := hown.stmt_unique hw hw' (hwref.trans hwref'.symm)
      have hle := hown.covers w hw top rest (hlevels ▸ List.suffix_refl _) hm
      rw [hnest] at hle
      rw [hlen] at hlt
      exact absurd hlt (Nat.not_lt.2 hle)
  · simp only [StmtSpans.next, hact]
    refine ActiveSpans.usable_released (ActiveSpans.deactivates_usable hown.ok hu ?_) _
    intro act hruns i hi heq
    obtain ⟨w, hw, hwref⟩ := List.mem_map.1 (hown.active i (ActiveSpans.above_subset act hi))
    refine hown.stmt_not_child hw ?_
    rw [hwref, heq]
    exact List.mem_map_of_mem (hfewer.children.subset he)
  · simp only [TracingSt.next, hlevels] at hq
    obtain ⟨hq, hlives⟩ := List.mem_filter.1 hq
    simp only [dies, hlevels, Bool.not_eq_true', Bool.or_eq_false_iff, decide_eq_false_iff_not] at hlives
    refine ⟨by simpa using hlives.2, fun w hw hwref => ?_⟩
    obtain ⟨w', hw', hwref', hkey⟩ := hown.pushed q hq ref href
    obtain rfl := hown.stmt_unique hw hw' (hwref.trans hwref'.symm)
    rw [hown.queries q hq w hw hkey]
    exact hlives.1.2

/-- No step makes a handle that is kept unfit, or uses one that is. -/
theorem step (h : Fit p) (hown : Owns p) {x : SpanStep} (hen : x.act.Enabled p.1)
    (hx : x.Enabled p) (hok : x.KeepsFit p) : Fit (p.1.next x.act, p.2.next p.1 x) := by
  have hfewer := (fewer_step hen).resolve_right
  -- The producer does nothing at these steps.
  have hidle : Fewer p.1 (p.1.next x.act) → p.2.next p.1 x = p.2 →
      Fit (p.1.next x.act, p.2.next p.1 x) := fun hfewer hsame =>
    h.keepAll hfewer (by rw [hsame]) fun ref href => by rwa [hsame]
  cases hact : x.act with
  | begin => exact hact ▸ hidle (hfewer (by simp [hact])) (by simp only [StmtSpans.next, hact])
  | savepoint => exact hact ▸ hidle (hfewer (by simp [hact])) (by simp only [StmtSpans.next, hact])
  | release => exact hact ▸ hidle (hfewer (by simp [hact])) (by simp only [StmtSpans.next, hact])
  | cleanup => exact hact ▸ hidle (hfewer (by simp [hact])) (by simp only [StmtSpans.next, hact])
  | commit prepare => exact hact ▸ h.commit hact (hact ▸ hen) hok (hfewer (by simp [hact]))
  | abort unwound dead => exact hact ▸ h.abort hown hact hx (hfewer (by simp [hact]))
  | executorStart addr isCursor ref => exact hact ▸ h.executorStart hown hact hx hok
  | nodeBegin query addr tag planspans fdw =>
    simp only [SpanStep.Enabled, hact] at hx
    simp only [StmtSpans.next, hact]
    exact h.beginNode hown hact hok hx.1
  | nodeEnd query node => exact hact ▸ h.nodeEnd hown hact (hfewer (by simp [hact]))
  | executorEnd query planspans =>
    exact hact ▸ h.executorEnd hown hact (hact ▸ hen) hok.1 (hfewer (by simp [hact]))
  | runBegin query => exact hact ▸ h.runBegin hown hact (hfewer (by simp [hact]))
  | runEnd => exact hact ▸ h.runEnd hown hact hok.1 (hfewer (by simp [hact]))
  | utilityBegin addr toplevel ref =>
    simp only [SpanStep.Enabled, hact] at hx
    simp only [StmtSpans.next, hact]
    cases toplevel with
    | true => exact h.startStmt hown false x.recording hx rfl fun q hq => .inl hq
    | false => exact ⟨h.entries, h.children, h.pushed, h.misused⟩
  | utilityEnd => exact hact ▸ h.utilityEnd hown hact (hact ▸ hen) hok.1 (hfewer (by simp [hact]))
  | errorWhenAborted unwound =>
    have hall := fun ref (href : p.2.work.Usable ref) =>
      ActiveSpans.usable_released href (p.2.dropsCalls p.1 unwound)
    simp only [StmtSpans.next, hact]
    exact h.keepAll (hact ▸ hfewer (by simp [hact])) rfl hall

end Fit

theorem reachable_fit {p : TracingSt × StmtSpans}
    (h : stmtSpans.ReachBy (fun p x => x.KeepsFit p) p) : Owns p ∧ Fit p :=
  Machine.ReachBy.invariant (m := stmtSpans) (I := fun p => Owns p ∧ Fit p) ⟨.init, .init⟩
    (fun _ _ hi hen hok => ⟨hi.1.step (hen.1 _ rfl) hen.2,
      hi.2.step hi.1 (hen.1 _ rfl) hen.2 hok⟩) h

/-- In runs in which nothing is above what leaves the active stack, a statement whose span was not kept
goes on without it and no span is open at a commit that an entry keeps: each handle that the hooks name
in a call is null, of an open span, or of one that was released in an abort. -/
theorem hooks_name_open_spans {p : TracingSt × StmtSpans}
    (h : stmtSpans.ReachBy (fun p x => x.KeepsFit p) p) : p.2.work.misused = [] :=
  (reachable_fit h).2.misused

/-- A query with a function scan, whose plan shape is recorded. -/
def functionScanQueried : List SpanStep :=
  [.of .begin, { act := .executorStart 1 false ⟨1⟩, planshape := true },
    .of (.nodeBegin ⟨1, 0⟩ 12 .functionScanState (some ⟨2⟩) none), .of (.executorEnd ⟨1, 0⟩ true),
    .of (.commit false)]

theorem hooks_name_open_spans_functionScanQueried :
    (functionScanQueried.foldl stmtSpans.next ({}, {})).2.work.misused = [] ∧
      (functionScanQueried.foldl stmtSpans.next ({}, {})).2.work.spans.log =
        [(⟨2⟩, .ended), (⟨1⟩, .ended)] := by
  have hrun : stmtSpans.Admits (fun p x => x.KeepsFit p) ({}, {}) functionScanQueried := by
    refine ⟨enabled_stmtSpans rfl trivial, ⟨by decide, trivial⟩, enabled_stmtSpans ?_ ?_,
      ⟨by decide, .inr (.inl (by decide))⟩, enabled_stmtSpans ?_ ?_, ⟨by decide, fun _ => ?_⟩,
      enabled_stmtSpans ?_ trivial, ⟨by decide, trivial⟩, enabled_stmtSpans ?_ trivial,
      ⟨by decide, ?_⟩, trivial⟩
    · exact ⟨⟨_, _, rfl, rfl⟩, by decide⟩
    · exact ⟨.inr rfl, fun _ => ⟨by decide, rfl⟩⟩
    · exact ⟨⟨_, _, rfl, rfl⟩, by decide, by decide⟩
    · exact ⟨by decide, fun _ => ⟨_, List.mem_cons_self, rfl, rfl⟩⟩
    · exact ⟨_, List.mem_cons_self, rfl, by decide⟩
    · exact ⟨⟨_, _, rfl, rfl⟩, by decide, by decide⟩
    · exact ⟨⟨_, rfl, rfl⟩, rfl⟩
    · exact ⟨by decide, by decide⟩
  exact ⟨hooks_name_open_spans (Machine.ReachBy.run .init hrun), by decide⟩

/-! ## A statement whose span was not kept -/

/-- A transaction with this many cursors open, each with its span. -/
def cursorsOpen : ℕ → TracingSt × StmtSpans
  | 0 => stmtSpans.next stmtSpans.init (.of .begin)
  | n + 1 => stmtSpans.next (cursorsOpen n) (.of (.executorStart n true (spanHandle n)))

theorem cursorsOpen_reachable (n : ℕ) : stmtSpans.Reachable (cursorsOpen n) ∧
    (cursorsOpen n).1.levels = [{ id := 0 }] ∧ (∀ key ∈ (cursorsOpen n).1.livePtrs, key.addr < n) ∧
      (cursorsOpen n).2.work.spans.count = n := by
  induction n with
  | zero =>
    refine ⟨Machine.Reachable.step _ .init (enabled_stmtSpans rfl trivial), rfl, fun key hkey => ?_, rfl⟩
    exact absurd hkey List.not_mem_nil
  | succ n ih =>
    obtain ⟨hreach, hlevels, hlive, hcount⟩ := ih
    refine ⟨hreach.step _ (enabled_stmtSpans ⟨⟨_, _, hlevels, rfl⟩, fun key hkey => ?_⟩ ?_), hlevels,
      fun key hkey => ?_, ?_⟩
    · exact Nat.ne_of_lt (hlive key hkey)
    · exact ⟨.inr (congrArg spanHandle hcount.symm), fun h => absurd h Bool.false_ne_true⟩
    · rcases List.mem_cons.1 hkey with rfl | hkey
      · exact Nat.lt_succ_self n
      · exact Nat.lt_succ_of_lt (hlive key hkey)
    · have hstarted : ((cursorsOpen n).2.work.started (spanHandle n)
          (cursorsOpen n).1.currentLevel.level true).spans.count = n + 1 := by
        rw [ActiveSpans.started, if_neg (Spans.spanHandle_ne_zero n)]
        exact congrArg Nat.succ hcount
      exact ActiveSpans.finish_count.trans hstarted

/-- With every place on the statement stack taken, a query starts whose plan shape is recorded. -/
def unkeptShaped : SpanStep :=
  { act := .executorStart otelStmtStackMax true (spanHandle otelStmtStackMax), planshape := true }

/-- `push_stmt_span` ends the span, and `otel_ExecutorStart` goes on to set attributes of it. -/
theorem unkept_span_is_used :
    stmtSpans.Reachable (stmtSpans.next (cursorsOpen otelStmtStackMax) unkeptShaped) ∧
      (stmtSpans.next (cursorsOpen otelStmtStackMax) unkeptShaped).2.work.misused =
        [spanHandle otelStmtStackMax] ∧
      (stmtSpans.next (cursorsOpen otelStmtStackMax) unkeptShaped).2.work.spans.log =
        [(spanHandle otelStmtStackMax, .ended)] := by
  obtain ⟨hreach, hlevels, hlive, hcount⟩ := cursorsOpen_reachable otelStmtStackMax
  refine ⟨hreach.step _ (enabled_stmtSpans ⟨⟨_, _, hlevels, rfl⟩, fun key hkey => ?_⟩
    ⟨.inr (congrArg spanHandle hcount.symm), fun _ => ⟨Spans.spanHandle_ne_zero _, rfl⟩⟩),
    by decide +kernel, by decide +kernel⟩
  exact Nat.ne_of_lt (hlive key hkey)

end PostgresOtel
