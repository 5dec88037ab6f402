import PostgresOtel.Trace.Liveness
import PostgresOtel.Trace.Scoping
import PostgresOtel.Trace.StmtSpans

/-!
# Whose spans the hooks hold

In every run, each handle on the stacks of the hooks is of a span that was started for the entry's own
statement or for a plan node, no two entries have the same one, and only spans of statements are on the
active stack.
-/

set_option autoImplicit false

namespace PostgresOtel

open KeyedStack TracingSt TraceSt

/-- The entries of plan nodes that have a span. -/
def TraceSt.children (t : TraceSt) : List NodeSpanEntry := t.planspansStack ++ t.fdwScanStack

/-! ## Steps that start nothing -/

/-- Entries, queries and traced calls may go, and none comes. -/
structure Fewer (s s' : TracingSt) : Prop where
  stmts : s'.trace.stmtStack.Sublist s.trace.stmtStack
  children : s'.trace.children.Sublist s.trace.children
  queries : ∀ q ∈ s'.queries, ∃ q₀ ∈ s.queries, q₀.ptr = q.ptr ∧ q₀.sub = q.sub ∧
    q₀.pushed = q.pushed
  frames : ∀ f ∈ s'.frames, f.token ≠ none → f ∈ s.frames
  obj : s.nextObj ≤ s'.nextObj

namespace TraceSt

theorem childrenOf_catchError (t : TraceSt) (f : CallFrame) :
    (t.catchError f).children = t.children := by
  unfold catchError
  cases f.token <;> rfl

theorem childrenOf_caught (frames : List CallFrame) (t : TraceSt) :
    (frames.foldl catchError t).children = t.children := by
  induction frames generalizing t with
  | nil => rfl
  | cons f fs ih => exact (ih _).trans (childrenOf_catchError t f)

theorem childrenOf_nodeEnd (planspans : Bool) (t : TraceSt) (n : PlanNode) :
    (t.nodeEnd planspans n).children.Sublist t.children :=
  (nodeEnd_planspansStack_sublist planspans n).append (nodeEnd_sublist planspans t n)

theorem childrenOf_nodeEnds (planspans : Bool) (nodes : List PlanNode) (t : TraceSt) :
    (nodes.foldl (TraceSt.nodeEnd planspans) t).children.Sublist t.children :=
  (nodeEnds_planspansStack_sublist planspans nodes).append (nodeEnds_sublist planspans nodes t)

theorem childrenOf_pushStmtSpan (t : TraceSt) (key : Ptr) (ref : OtelSpanRef) (detached : Bool)
    (nest : NestLevel) : (t.pushStmtSpan key ref detached nest).1.children = t.children := by
  unfold pushStmtSpan
  split_ifs <;> rfl

/-- The begin of a node adds an entry for the scan that got a span. -/
theorem nodeBegin_fdwScanStack_eq (t : TraceSt) (planspans fdw : Option OtelSpanRef) (n : PlanNode)
    (nest : NestLevel) : (t.nodeBegin planspans fdw n nest).fdwScanStack =
      (fdw.filter (t.opensScan n.tag)).elim t.fdwScanStack fun ref =>
        ⟨n.ptr, ref, nest⟩ :: t.fdwScanStack := by
  have hbegun : (planspans.elim t fun ref => t.planspansNodeBegin n.ptr n.tag ref nest).fdwScanStack =
      t.fdwScanStack := by
    cases planspans with
    | none => rfl
    | some ref =>
      change (t.planspansNodeBegin n.ptr n.tag ref nest).fdwScanStack = _
      unfold planspansNodeBegin
      split_ifs <;> rfl
  by_cases hscan : n.tag = .foreignScanState
  · simp only [nodeBegin, if_pos hscan]
    cases fdw with
    | none => exact hbegun
    | some ref =>
      rw [Option.elim_some, otelFdwScanBegin, Option.filter_some, opensScan, hbegun]
      by_cases hfull : otelFdwScanStackMax ≤ t.fdwScanStack.length
      · simp [hfull, Nat.not_lt.2 hfull, hbegun]
      · by_cases hnull : ref.v = 0
        · simp [hfull, hnull, hbegun]
        · simp [hfull, hnull, hscan, Nat.lt_of_not_le hfull]
  · have hnone : fdw.filter (t.opensScan n.tag) = none := by
      cases fdw <;> simp [opensScan, hscan]
    simp only [nodeBegin, if_neg hscan, hnone]
    exact hbegun

/-- The begin of a node adds an entry for the child span that it starts, or none. -/
theorem childrenOf_nodeBegin (t : TraceSt) (planspans fdw : Option OtelSpanRef) (n : PlanNode)
    (nest : NestLevel) : match t.childStart planspans fdw n.tag with
      | none => (t.nodeBegin planspans fdw n nest).children = t.children
      | some ref => (t.nodeBegin planspans fdw n nest).children.Perm (⟨n.ptr, ref, nest⟩ :: t.children) := by
  unfold children childStart
  rw [nodeBegin_planspansStack, nodeBegin_fdwScanStack_eq]
  by_cases hscan : n.tag = .foreignScanState
  · have hnone : planspans.filter (t.opensChild n.tag) = none := by
      cases planspans <;> simp [opensChild, hscan, planspansSpanName]
    rw [hnone, if_pos hscan]
    cases fdw.filter (t.opensScan n.tag) with
    | none => rfl
    | some ref => exact List.perm_middle
  · have hnone : fdw.filter (t.opensScan n.tag) = none := by
      cases fdw <;> simp [opensScan, hscan]
    rw [hnone, if_neg hscan]
    cases planspans.filter (t.opensChild n.tag) with
    | none => rfl
    | some ref => exact .refl _

end TraceSt

/-- Steps that leave the entries, the queries and the calls alone. -/
theorem Fewer.of_eq {s s' : TracingSt} (htrace : s'.trace = s.trace) (hqueries : s'.queries = s.queries)
    (hframes : ∀ f ∈ s'.frames, f.token ≠ none → f ∈ s.frames) (hobj : s.nextObj ≤ s'.nextObj) :
    Fewer s s' where
  stmts := htrace ▸ List.Sublist.refl _
  children := htrace ▸ List.Sublist.refl _
  queries q hq := ⟨q, hqueries ▸ hq, rfl, rfl, rfl⟩
  frames := hframes
  obj := hobj

/-- Only three kinds of steps start a span that the hooks keep. -/
theorem fewer_step {s : TracingSt} {a : TracingAct} (hen : a.Enabled s) :
    Fewer s (s.next a) ∨ (∃ addr isCursor ref, a = .executorStart addr isCursor ref) ∨
      (∃ query addr tag planspans fdw, a = .nodeBegin query addr tag planspans fdw) ∨
      ∃ addr ref, a = .utilityBegin addr true ref := by
  have hself : ∀ q ∈ s.queries, ∃ q₀ ∈ s.queries, q₀.ptr = q.ptr ∧ q₀.sub = q.sub ∧
      q₀.pushed = q.pushed := fun q hq => ⟨q, hq, rfl, rfl, rfl⟩
  have hframes : ∀ f ∈ s.frames, f.token ≠ none → f ∈ s.frames := fun _ hf _ => hf
  cases a with
  | begin => exact .inl (.of_eq rfl rfl hframes (Nat.le_refl _))
  | savepoint => exact .inl (.of_eq rfl rfl hframes (Nat.le_refl _))
  | release =>
    obtain ⟨top, parent, rest, hlevels, -⟩ := hen
    simp only [next, hlevels]
    rw [otelPgtracingSubxactCallback_other _ (by decide)]
    exact .inl (.of_eq rfl rfl hframes (Nat.le_refl _))
  | commit prepare =>
    cases prepare <;> exact .inl (.of_eq rfl rfl hframes (Nat.le_refl _))
  | abort unwound dead =>
    obtain ⟨⟨top, rest, hlevels, -⟩, -⟩ := hen
    have hchildren := childrenOf_caught (s.frames.take unwound) s.trace
    simp only [next, hlevels]
    refine .inl ⟨?_, ?_, fun q hq => hself q (List.mem_of_mem_filter hq),
      fun f hf _ => List.mem_of_mem_drop hf, Nat.le_refl _⟩
    · split_ifs
      · exact List.nil_sublist _
      · exact List.filter_sublist.trans (caught_sublist _ _)
    · rw [← hchildren]
      split_ifs
      · exact List.nil_sublist _
      · exact List.filter_sublist.append List.filter_sublist
  | cleanup => exact .inl (.of_eq rfl rfl hframes (Nat.le_refl _))
  | executorStart addr isCursor ref => exact .inr (.inl ⟨addr, isCursor, ref, rfl⟩)
  | nodeBegin query addr tag planspans fdw =>
    exact .inr (.inr (.inl ⟨query, addr, tag, planspans, fdw, rfl⟩))
  | nodeEnd query node =>
    refine .inl ⟨List.Sublist.refl _, (List.Sublist.refl _).append (remove_sublist _), fun q hq => ?_,
      hframes, Nat.le_refl _⟩
    obtain ⟨q₀, hq₀, rfl⟩ := List.mem_map.1 hq
    refine ⟨q₀, hq₀, ?_⟩
    split_ifs <;> exact ⟨rfl, rfl, rfl⟩
  | executorEnd query planspans =>
    refine .inl ⟨?_, childrenOf_nodeEnds planspans _ _, fun q hq => hself q (List.mem_of_mem_filter hq),
      hframes, Nat.le_refl _⟩
    exact (nodeEnds_stmtStack planspans _ _).symm ▸ remove_sublist query
  | runBegin query =>
    refine .inl (.of_eq rfl rfl (fun f hf ht => ?_) (Nat.le_refl _))
    exact (List.mem_cons.1 hf).resolve_left fun heq => ht (heq ▸ rfl)
  | runEnd =>
    exact .inl (.of_eq rfl rfl (fun f hf _ => List.mem_of_mem_tail hf) (Nat.le_refl _))
  | utilityBegin addr toplevel ref =>
    cases toplevel with
    | true => exact .inr (.inr (.inr ⟨addr, ref, rfl⟩))
    | false =>
      refine .inl (.of_eq rfl rfl (fun f hf ht => ?_) (Nat.le_succ _))
      exact (List.mem_cons.1 hf).resolve_left fun heq => ht (heq ▸ rfl)
  | utilityEnd =>
    obtain ⟨token, toplevel, sub, rest, hfs⟩ := hen
    simp only [next, hfs]
    refine .inl ⟨catchError_sublist _ _, (childrenOf_catchError _ _).symm ▸ List.Sublist.refl _, hself,
      fun f hf _ => ?_, Nat.le_refl _⟩
    exact hfs ▸ List.mem_cons_of_mem _ hf
  | errorWhenAborted unwound =>
    exact .inl ⟨caught_sublist _ _, (childrenOf_caught _ _).symm ▸ List.Sublist.refl _, hself,
      fun f hf _ => List.mem_of_mem_drop hf, Nat.le_refl _⟩

/-! ## What the hooks do to the active stack -/

namespace ActiveSpans.Settles

variable {a : ActiveSpans}

theorem finalizeStmtSpan (t : TraceSt) (ref : OtelSpanRef) :
    Settles a (a.finalizeStmtSpan t ref) := by
  unfold ActiveSpans.finalizeStmtSpan
  split_ifs
  · exact refl
  · exact (finish ref).trans (touch _)

theorem sortSpan (parent : OtelSpanRef) (starts : Bool) (nestLevel : ℕ) :
    Settles a (a.sortSpan parent starts nestLevel) := by
  unfold ActiveSpans.sortSpan
  split_ifs
  · exact ((touch parent).trans (startDetached nestLevel)).trans (finish _)
  · exact touch parent

theorem endNode (x : SpanStep) (planspans : Bool) (stmtSpan : OtelSpanRef) (nestLevel : ℕ)
    (t : TraceSt) (n : PlanNode) : Settles a (x.endNode planspans stmtSpan nestLevel t a n) := by
  have hended := foldl (a := a) (fun a ref => finish (a := a) ref) (t.childEnds planspans n)
  unfold SpanStep.endNode
  simp only
  split_ifs
  · exact hended.trans (sortSpan _ _ _)
  · exact hended

theorem endNodes (x : SpanStep) (planspans : Bool) (stmtSpan : OtelSpanRef) (nestLevel : ℕ)
    (t : TraceSt) (nodes : List PlanNode) :
    Settles a (x.endNodes planspans stmtSpan nestLevel t a nodes) := by
  induction nodes generalizing t a with
  | nil => exact refl
  | cons n ns ih => exact (endNode x planspans stmtSpan nestLevel t n).trans (ih _)

end ActiveSpans.Settles

theorem StmtSpans.endRuns_settles (e : StmtSpans) (n : ℕ) :
    ActiveSpans.Settles e.work (e.endRuns n).work :=
  .foldl (fun a act => .deactivate (a := a) act) _

theorem StmtSpans.endQuery_settles (e : StmtSpans) (s : TracingSt) (x : SpanStep) (query : Ptr)
    (planspans : Bool) : ActiveSpans.Settles e.work (e.endQuery s x query planspans).work :=
  ((ActiveSpans.Settles.touch _).trans (.endNodes x planspans _ _ _ _)).trans (.finalizeStmtSpan _ _)

/-- A step of core that is not the begin of anything starts no span that the hooks keep, and puts
nothing on the active stack. -/
theorem StmtSpans.next_settles (e : StmtSpans) (s : TracingSt) (x : SpanStep)
    (h₁ : ∀ addr isCursor ref, x.act ≠ .executorStart addr isCursor ref)
    (h₂ : ∀ query addr tag planspans fdw, x.act ≠ .nodeBegin query addr tag planspans fdw)
    (h₃ : ∀ query, x.act ≠ .runBegin query)
    (h₄ : ∀ addr ref, x.act ≠ .utilityBegin addr true ref) :
    (e.next s x).stmts = e.stmts ∧ (e.next s x).nodes = e.nodes ∧
      ActiveSpans.Settles e.work (e.next s x).work := by
  unfold StmtSpans.next
  cases hact : x.act with
  | begin => exact ⟨rfl, rfl, .refl⟩
  | savepoint => exact ⟨rfl, rfl, .refl⟩
  | release => exact ⟨rfl, rfl, .refl⟩
  | commit prepare =>
    exact ⟨rfl, rfl, (ActiveSpans.Settles.release _ _).trans (.dropActivations _)⟩
  | abort unwound dead =>
    refine ⟨rfl, rfl, ?_⟩
    refine (e.endRuns_settles ((s.frames.take unwound).countP fun f => f.query.isSome)).trans ?_
    exact (ActiveSpans.Settles.release _ _).trans (.dropActivations _)
  | cleanup => exact ⟨rfl, rfl, .refl⟩
  | executorStart addr isCursor ref => exact absurd hact (h₁ addr isCursor ref)
  | nodeBegin query addr tag planspans fdw => exact absurd hact (h₂ query addr tag planspans fdw)
  | nodeEnd query node => exact ⟨rfl, rfl, .foldl (fun a ref => .finish (a := a) ref) _⟩
  | executorEnd query planspans =>
    exact ⟨rfl, rfl, e.endQuery_settles s x query planspans⟩
  | runBegin query => exact absurd hact (h₃ query)
  | runEnd => exact ⟨rfl, rfl, e.endRuns_settles 1⟩
  | utilityBegin addr toplevel ref =>
    cases toplevel with
    | true => exact absurd hact (h₄ addr ref)
    | false => exact ⟨rfl, rfl, .refl⟩
  | utilityEnd =>
    cases s.frames.head?.bind CallFrame.token with
    | none => exact ⟨rfl, rfl, .refl⟩
    | some token => exact ⟨rfl, rfl, .finalizeStmtSpan _ _⟩
  | errorWhenAborted unwound => exact ⟨rfl, rfl, .release _ _⟩

theorem StmtSpans.mem_startStmt {e : StmtSpans} {s : TracingSt} {addr : ℕ} {ref : OtelSpanRef}
    {detached recording : Bool} {w : SpanOwner} :
    w ∈ (e.startStmt s addr ref detached recording).stmts ↔
      w ∈ e.stmts ∨ (ref.v ≠ 0 ∧ w = ⟨ref, s.newPtr addr, s.currentLevel, recording⟩) := by
  unfold startStmt
  split_ifs with hv
  · simp [hv]
  · simp [hv, or_comm]

/-! ## The owners -/

/-- The handles that the hooks hold are of spans of their own. -/
structure Owns (p : TracingSt × StmtSpans) : Prop where
  core : CoreOk p.1
  ok : p.2.work.Ok
  started : ∀ w ∈ p.2.stmts ++ p.2.nodes, p.2.work.spans.Started w.ref
  once : ((p.2.stmts ++ p.2.nodes).map SpanOwner.ref).Nodup
  keys : (p.2.stmts.map SpanOwner.key).Nodup
  old : ∀ w ∈ p.2.stmts, w.key.obj < p.1.nextObj ∧ w.nest.sub < p.1.nextSub
  entries : ∀ x ∈ p.1.trace.stmtStack, ∃ w ∈ p.2.stmts, w.ref = x.ref ∧ w.key = x.key ∧
    w.nest = x.subxactLevel
  entries_once : (p.1.trace.stmtStack.map StmtSpanEntry.ref).Nodup
  children : ∀ x ∈ p.1.trace.children, x.ref ∈ p.2.nodes.map SpanOwner.ref
  children_once : (p.1.trace.children.map NodeSpanEntry.ref).Nodup
  pushed : ∀ q ∈ p.1.queries, ∀ ref, q.pushed = some ref → ∃ w ∈ p.2.stmts, w.ref = ref ∧ w.key = q.ptr
  queries : ∀ q ∈ p.1.queries, ∀ w ∈ p.2.stmts, w.key = q.ptr → w.nest.sub = q.sub
  frames : ∀ f ∈ p.1.frames, ∀ w ∈ p.2.stmts, f.token = some w.key → w.nest.sub = f.sub
  active : ∀ i ∈ p.2.work.active, i.ref ∈ p.2.stmts.map SpanOwner.ref
  covers : ∀ w ∈ p.2.stmts, Covers p.1.levels w.nest.sub w.nest.level

namespace Owns

variable {p p' : TracingSt × StmtSpans}

theorem init : Owns ({}, {}) where
  core := .init
  ok := .init
  started _ h := absurd h List.not_mem_nil
  once := List.nodup_nil
  keys := List.nodup_nil
  old _ h := absurd h List.not_mem_nil
  entries _ h := absurd h List.not_mem_nil
  entries_once := List.nodup_nil
  children _ h := absurd h List.not_mem_nil
  children_once := List.nodup_nil
  pushed _ h := absurd h List.not_mem_nil
  queries _ h := absurd h List.not_mem_nil
  frames _ h := absurd h List.not_mem_nil
  active _ h := absurd h List.not_mem_nil
  covers _ h := absurd h List.not_mem_nil

/-- Steps that start no span that the hooks keep. -/
theorem keep (h : Owns p) (hcore : CoreOk p'.1) (hfewer : Fewer p.1 p'.1) (hok : p'.2.work.Ok)
    (hcount : p.2.work.spans.count ≤ p'.2.work.spans.count) (hstmts : p'.2.stmts = p.2.stmts)
    (hnodes : p'.2.nodes = p.2.nodes) (hactive : ∀ i ∈ p'.2.work.active, i.ref ∈ p.2.stmts.map SpanOwner.ref)
    (hsub : p.1.nextSub ≤ p'.1.nextSub)
    (hcov : ∀ sub level, sub < p.1.nextSub → Covers p.1.levels sub level → Covers p'.1.levels sub level) :
    Owns p' where
  core := hcore
  ok := hok
  started w hw := (h.started w (by rwa [hstmts, hnodes] at hw)).mono hcount
  once := by rw [hstmts, hnodes]; exact h.once
  keys := hstmts ▸ h.keys
  old w hw := by
    obtain ⟨hobj, hlt⟩ := h.old w (hstmts ▸ hw)
    exact ⟨Nat.lt_of_lt_of_le hobj hfewer.obj, Nat.lt_of_lt_of_le hlt hsub⟩
  entries x hx := hstmts ▸ h.entries x (hfewer.stmts.subset hx)
  entries_once := h.entries_once.sublist (hfewer.stmts.map _)
  children x hx := hnodes ▸ h.children x (hfewer.children.subset hx)
  children_once := h.children_once.sublist (hfewer.children.map _)
  pushed q hq ref href := by
    obtain ⟨q₀, hq₀, hptr, -, hpushed⟩ := hfewer.queries q hq
    rw [hstmts, ← hptr]
    exact h.pushed q₀ hq₀ ref (hpushed.trans href)
  queries q hq w hw hkey := by
    obtain ⟨q₀, hq₀, hptr, hqsub, -⟩ := hfewer.queries q hq
    exact (h.queries q₀ hq₀ w (hstmts ▸ hw) (hkey.trans hptr.symm)).trans hqsub
  frames f hf w hw ht := by
    refine h.frames f (hfewer.frames f hf ?_) w (hstmts ▸ hw) ht
    rw [ht]
    exact Option.some_ne_none _
  active i hi := hstmts ▸ hactive i hi
  covers w hw := hcov _ _ (h.old w (hstmts ▸ hw)).2 (h.covers w (hstmts ▸ hw))

/-- The next handle belongs to no one. -/
theorem ref_ne (h : Owns p) {ref : OtelSpanRef} (hfresh : p.2.Fresh ref) (hv : ref.v ≠ 0)
    {w : SpanOwner} (hw : w ∈ p.2.stmts ++ p.2.nodes) : w.ref ≠ ref := by
  intro heq
  have hstarted := h.started w hw
  rw [heq, hfresh.resolve_left hv] at hstarted
  exact Spans.not_started_next hstarted

/-- No statement is keyed by the next object. -/
theorem key_ne (h : Owns p) {addr : ℕ} {w : SpanOwner} (hw : w ∈ p.2.stmts) :
    w.key ≠ p.1.newPtr addr := by
  intro heq
  have hlt := (h.old w hw).1
  rw [heq] at hlt
  exact Nat.lt_irrefl _ hlt

/-- What starting a statement does to the active stack. -/
theorem startStmt_work (h : Owns p) {addr : ℕ} {ref : OtelSpanRef} {detached recording : Bool}
    (hfresh : p.2.Fresh ref) :
    (p.2.startStmt p.1 addr ref detached recording).work.Ok ∧
      p.2.work.spans.count ≤ (p.2.startStmt p.1 addr ref detached recording).work.spans.count ∧
      (ref.v ≠ 0 → (p.2.startStmt p.1 addr ref detached recording).work.spans.Started ref) ∧
      ∀ i ∈ (p.2.startStmt p.1 addr ref detached recording).work.active,
        i ∈ p.2.work.active ∨ (ref.v ≠ 0 ∧ i.ref = ref) := by
  have hsettle := ActiveSpans.Settles.finish
    (a := p.2.work.started ref p.1.currentLevel.level detached)
    (p.1.trace.pushStmtSpan (p.1.newPtr addr) ref detached p.1.currentLevel).2
  by_cases hv : ref.v = 0
  · have hstart : p.2.work.started ref p.1.currentLevel.level detached = p.2.work := if_pos hv
    rw [hstart] at hsettle
    unfold StmtSpans.startStmt
    rw [hstart]
    exact ⟨hsettle.ok h.ok, hsettle.count, fun hne => absurd hv hne,
      fun i hi => .inl (hsettle.active.subset hi)⟩
  · have hstart : p.2.work.started ref p.1.currentLevel.level detached =
        p.2.work.start p.1.currentLevel.level detached := if_neg hv
    have href : ref = spanHandle p.2.work.spans.count := hfresh.resolve_left hv
    rw [hstart] at hsettle
    unfold StmtSpans.startStmt
    rw [hstart]
    refine ⟨hsettle.ok (h.ok.start _ _), (Nat.le_succ _).trans hsettle.count, fun _ => ?_,
      fun i hi => ?_⟩
    · exact ⟨p.2.work.spans.count, Nat.lt_of_lt_of_le (Nat.lt_succ_self _) hsettle.count, href⟩
    · have hin := hsettle.active.subset hi
      cases detached with
      | true => exact .inl hin
      | false =>
        refine (List.mem_cons.1 hin).symm.imp_right fun heq => ⟨hv, ?_⟩
        rw [heq, href]

/-- A statement starts. -/
theorem startStmt (h : Owns p) {s' : TracingSt} {addr : ℕ} {ref : OtelSpanRef}
    (detached recording : Bool) (hfresh : p.2.Fresh ref) (hcore : CoreOk s') (hne : p.1.levels ≠ [])
    (hlevels : s'.levels = p.1.levels) (hsub : s'.nextSub = p.1.nextSub)
    (hobj : s'.nextObj = p.1.nextObj + 1)
    (htrace : s'.trace = (p.1.trace.pushStmtSpan (p.1.newPtr addr) ref detached p.1.currentLevel).1)
    (hq : ∀ q ∈ s'.queries, q ∈ p.1.queries ∨ q.ptr = p.1.newPtr addr ∧ q.sub = p.1.currentLevel.sub ∧
      q.pushed = if p.1.trace.pushesStmt ref then some ref else none)
    (hf : ∀ f ∈ s'.frames, f.token ≠ none → f ∈ p.1.frames ∨ f.sub = p.1.currentLevel.sub ∧
      f.token = some (p.1.newPtr addr)) :
    Owns (s', p.2.startStmt p.1 addr ref detached recording) := by
  obtain ⟨hok, hcount, hstarted, hactive⟩ :=
    @startStmt_work p h addr ref detached recording hfresh
  have hstack := pushStmtSpan_stack p.1.trace (p.1.newPtr addr) ref detached p.1.currentLevel
  have hchildren := childrenOf_pushStmtSpan p.1.trace (p.1.newPtr addr) ref detached p.1.currentLevel
  rw [← htrace] at hstack hchildren
  have hcur := (exactAt_current h.core hne).1
  have hnew := @ref_ne p h ref hfresh
  have hkey := @key_ne p h addr
  have hpushes : p.1.trace.pushesStmt ref = true → ref.v ≠ 0 := fun hp =>
    of_decide_eq_true (Bool.and_eq_true_iff.1 hp).1
  have hmem := @StmtSpans.mem_startStmt p.2 p.1 addr ref detached recording
  refine ⟨hcore, hok, fun w hw => ?_, ?_, ?_, fun w hw => ?_, fun x hx => ?_, ?_, fun x hx => ?_, ?_,
    fun q hq' ref' href => ?_, fun q hq' w hw hkq => ?_, fun f hf' w hw ht => ?_, fun i hi => ?_,
    fun w hw => ?_⟩
  · rcases List.mem_append.1 hw with hw | hw
    · rcases hmem.1 hw with hw | ⟨hv, rfl⟩
      · exact (h.started w (List.mem_append_left _ hw)).mono hcount
      · exact hstarted hv
    · exact (h.started w (List.mem_append_right _ hw)).mono hcount
  · unfold StmtSpans.startStmt
    split_ifs with hv
    · exact h.once
    · refine List.nodup_cons.2 ⟨fun hm => ?_, h.once⟩
      obtain ⟨w, hw, heq⟩ := List.mem_map.1 hm
      exact hnew hv hw heq
  · unfold StmtSpans.startStmt
    split_ifs with hv
    · exact h.keys
    · refine List.nodup_cons.2 ⟨fun hm => ?_, h.keys⟩
      obtain ⟨w, hw, heq⟩ := List.mem_map.1 hm
      exact hkey hw heq
  · rw [hobj, hsub]
    rcases hmem.1 hw with hw | ⟨-, rfl⟩
    · exact ⟨Nat.lt_succ_of_lt (h.old w hw).1, (h.old w hw).2⟩
    · exact ⟨Nat.lt_succ_self _, hcur⟩
  · have hkeep : x ∈ p.1.trace.stmtStack → ∃ w ∈ (p.2.startStmt p.1 addr ref detached recording).stmts,
        w.ref = x.ref ∧ w.key = x.key ∧ w.nest = x.subxactLevel := by
      intro hx
      obtain ⟨w, hw, hx⟩ := h.entries x hx
      exact ⟨w, hmem.2 (.inl hw), hx⟩
    rw [hstack] at hx
    split_ifs at hx with hp
    · rcases List.mem_cons.1 hx with rfl | hx
      · exact ⟨_, hmem.2 (.inr ⟨hpushes hp, rfl⟩), rfl, rfl, rfl⟩
      · exact hkeep hx
    · exact hkeep hx
  · rw [hstack]
    split_ifs with hp
    · refine List.nodup_cons.2 ⟨fun hm => ?_, h.entries_once⟩
      obtain ⟨x, hx, heq⟩ := List.mem_map.1 hm
      obtain ⟨w, hw, hwx, -⟩ := h.entries x hx
      exact hnew (hpushes hp) (List.mem_append_left _ hw) (hwx.trans heq)
    · exact h.entries_once
  · rw [hchildren] at hx
    exact h.children x hx
  · rw [hchildren]
    exact h.children_once
  · rcases hq q hq' with hq' | ⟨hptr, -, hpushed⟩
    · obtain ⟨w, hw, hrest⟩ := h.pushed q hq' ref' href
      exact ⟨w, hmem.2 (.inl hw), hrest⟩
    · rw [hpushed] at href
      split_ifs at href with hp
      obtain rfl := Option.some.inj href
      exact ⟨_, hmem.2 (.inr ⟨hpushes hp, rfl⟩), rfl, hptr.symm⟩
  · rcases hq q hq' with hq' | ⟨hptr, hqsub, -⟩
    · rcases hmem.1 hw with hw | ⟨-, rfl⟩
      · exact h.queries q hq' w hw hkq
      · have hlt := h.core.old q.ptr (List.mem_append_left _ (List.mem_map_of_mem hq'))
        rw [← hkq] at hlt
        exact absurd hlt (Nat.lt_irrefl _)
    · rcases hmem.1 hw with hw | ⟨-, rfl⟩
      · exact absurd (hkq.trans hptr) (hkey hw)
      · exact hqsub.symm
  · rcases hf f hf' (by rw [ht]; exact Option.some_ne_none _) with hf' | ⟨hfsub, hft⟩
    · rcases hmem.1 hw with hw | ⟨-, rfl⟩
      · exact h.frames f hf' w hw ht
      · have hlt := h.core.old _ (Alive.token_live hf' ht)
        exact absurd hlt (Nat.lt_irrefl _)
    · rcases hmem.1 hw with hw | ⟨-, rfl⟩
      · exact absurd (Option.some.inj (ht.symm.trans hft)) (hkey hw)
      · exact hfsub.symm
  · rcases hactive i hi with hi | ⟨hv, heq⟩
    · obtain ⟨w, hw, heq⟩ := List.mem_map.1 (h.active i hi)
      exact List.mem_map.2 ⟨w, hmem.2 (.inl hw), heq⟩
    · exact List.mem_map.2 ⟨_, hmem.2 (.inr ⟨hv, rfl⟩), heq.symm⟩
  · rw [hlevels]
    rcases hmem.1 hw with hw | ⟨-, rfl⟩
    · exact h.covers w hw
    · exact covers_current p.1 _

/-- The handle that a collector keeps is not null. -/
theorem childStart_ne_zero {t : TraceSt} {planspans fdw : Option OtelSpanRef} {tag : PlanNodeTag}
    {ref : OtelSpanRef} (h : t.childStart planspans fdw tag = some ref) : ref.v ≠ 0 := by
  unfold childStart at h
  split_ifs at h
  · obtain ⟨-, hopens⟩ := Option.filter_eq_some_iff.1 h
    exact of_decide_eq_true (Bool.and_eq_true_iff.1 hopens).2
  · obtain ⟨-, hopens⟩ := Option.filter_eq_some_iff.1 h
    exact of_decide_eq_true (Bool.and_eq_true_iff.1 hopens).2

/-- A plan node begins. -/
theorem beginNode (h : Owns p) (x : SpanStep) {query : Ptr} {addr : ℕ} {tag : PlanNodeTag}
    {planspans fdw : Option OtelSpanRef}
    (hen : (TracingAct.nodeBegin query addr tag planspans fdw).Enabled p.1)
    (hfresh : ∀ ref ∈ p.1.trace.childStart planspans fdw tag, p.2.Fresh ref) :
    Owns (p.1.next (.nodeBegin query addr tag planspans fdw),
      p.2.beginNode p.1 x query addr tag planspans fdw) := by
  have hcore := h.core.step hen
  have hchildren := childrenOf_nodeBegin p.1.trace planspans fdw ⟨p.1.newPtr addr, tag⟩
    p.1.currentLevel
  have hstack := nodeBegin_stmtStack p.1.trace planspans fdw ⟨p.1.newPtr addr, tag⟩ p.1.currentLevel
  have hqueries : ∀ q ∈ (p.1.next (.nodeBegin query addr tag planspans fdw)).queries,
      ∃ q₀ ∈ p.1.queries, q₀.ptr = q.ptr ∧ q₀.sub = q.sub ∧ q₀.pushed = q.pushed := by
    intro q hq
    obtain ⟨q₀, hq₀, rfl⟩ := List.mem_map.1 hq
    refine ⟨q₀, hq₀, ?_⟩
    split_ifs <;> exact ⟨rfl, rfl, rfl⟩
  have hnamed := ActiveSpans.Settles.touch (a := p.2.work)
    (p.2.beginNames p.1 x query (p.1.newPtr addr) tag planspans fdw)
  unfold StmtSpans.beginNode
  cases hstart : p.1.trace.childStart planspans fdw tag with
  | none =>
    rw [hstart] at hchildren
    refine h.keep hcore ⟨hstack ▸ List.Sublist.refl _, ?_, hqueries, fun f hf _ => hf, Nat.le_succ _⟩
      (hnamed.ok h.ok) hnamed.count rfl rfl (fun i hi => h.active i (hnamed.active.subset hi))
      (Nat.le_refl _) fun _ _ _ hc => hc
    exact (show _ = _ from hchildren) ▸ List.Sublist.refl _
  | some ref =>
    rw [hstart] at hchildren
    have hv := childStart_ne_zero hstart
    have href : ref = spanHandle p.2.work.spans.count := (hfresh ref hstart).resolve_left hv
    have hnew := @ref_ne p h ref (hfresh ref hstart) hv
    have hsettle := hnamed.trans (ActiveSpans.Settles.startDetached p.1.currentLevel.level)
    have hgrown : ((⟨ref, query, p.1.currentLevel, x.recording⟩ : SpanOwner) :: p.2.nodes).map
        SpanOwner.ref = ref :: p.2.nodes.map SpanOwner.ref := rfl
    refine ⟨hcore, hsettle.ok h.ok, fun w hw => ?_, ?_, h.keys,
      fun w hw => ⟨Nat.lt_succ_of_lt (h.old w hw).1, (h.old w hw).2⟩,
      fun e he => h.entries e (hstack ▸ he), hstack ▸ h.entries_once, fun e he => ?_, ?_,
      fun q hq ref' href' => ?_, fun q hq w hw hkq => ?_, h.frames,
      fun i hi => h.active i (hsettle.active.subset hi), h.covers⟩
    · rcases List.mem_append.1 hw with hw | hw
      · exact (h.started w (List.mem_append_left _ hw)).mono hsettle.count
      · rcases List.mem_cons.1 hw with rfl | hw
        · refine ⟨p.2.work.spans.count, Nat.lt_of_lt_of_le (Nat.lt_succ_self _) ?_, href⟩
          exact Nat.succ_le_succ hnamed.count
        · exact (h.started w (List.mem_append_right _ hw)).mono hsettle.count
    · rw [List.map_append, hgrown]
      refine List.nodup_middle.2 (List.nodup_cons.2 ⟨fun hm => ?_, List.map_append ▸ h.once⟩)
      rw [← List.map_append] at hm
      obtain ⟨w, hw, heq⟩ := List.mem_map.1 hm
      exact hnew hw heq
    · rw [hgrown]
      rcases List.mem_cons.1 (hchildren.mem_iff.1 he) with rfl | he
      · exact List.mem_cons_self
      · exact List.mem_cons_of_mem _ (h.children e he)
    · refine (hchildren.map NodeSpanEntry.ref).nodup_iff.2 (List.nodup_cons.2 ⟨fun hm => ?_,
        h.children_once⟩)
      obtain ⟨e, he, heq⟩ := List.mem_map.1 hm
      obtain ⟨w, hw, hwe⟩ := List.mem_map.1 (h.children e he)
      exact hnew (List.mem_append_right _ hw) (hwe.trans heq)
    · obtain ⟨q₀, hq₀, hptr, -, hpushed⟩ := hqueries q hq
      rw [← hptr]
      exact h.pushed q₀ hq₀ ref' (hpushed.trans href')
    · obtain ⟨q₀, hq₀, hptr, hqsub, -⟩ := hqueries q hq
      exact (h.queries q₀ hq₀ w hw (hkq.trans hptr.symm)).trans hqsub

/-- The entry that a run finds is of a cursor of its own. -/
theorem peek_stmt (h : Owns p) {query : Ptr} {ref : OtelSpanRef}
    (hpeek : p.1.trace.peekCursorSpan query = some ref) :
    ∃ e ∈ p.1.trace.stmtStack, e.ref = ref ∧ e.key.addr = query.addr ∧ e.detached = true ∧
      ref ∈ p.2.stmts.map SpanOwner.ref := by
  unfold peekCursorSpan at hpeek
  cases hfind : find StmtSpanEntry.key query p.1.trace.stmtStack with
  | none => simp [hfind] at hpeek
  | some e =>
    rw [hfind] at hpeek
    by_cases hdet : e.detached = true
    · have heq : e.ref = ref := by simpa [hdet] using hpeek
      obtain ⟨w, hw, hwref, -⟩ := h.entries e (mem_of_find hfind)
      exact ⟨e, mem_of_find hfind, heq, addr_of_find hfind, hdet,
        List.mem_map.2 ⟨w, hw, hwref.trans heq⟩⟩
    · simp [hdet] at hpeek

/-- What the begin of a run does to the spans. -/
theorem beginRun_work (h : Owns p) (x : SpanStep) (query : Ptr) :
    (p.2.beginRun p.1 x query).work.Ok ∧
      (p.2.beginRun p.1 x query).work.spans = p.2.work.spans ∧
      ∀ i ∈ (p.2.beginRun p.1 x query).work.active, i.ref ∈ p.2.stmts.map SpanOwner.ref := by
  unfold StmtSpans.beginRun
  cases hpeek : p.1.trace.peekCursorSpan query with
  | none => exact ⟨h.ok, rfl, h.active⟩
  | some ref =>
    obtain ⟨e, -, -, -, -, hown⟩ := h.peek_stmt hpeek
    refine ⟨h.ok.activate ref _ _, ?_, ?_⟩
    · simp only [ActiveSpans.activate]
      split_ifs
      · exact ActiveSpans.touch_spans
      · exact ActiveSpans.touch_spans
    · simp only [ActiveSpans.activate]
      split_ifs
      · exact List.forall_mem_cons.2 ⟨hown, h.active⟩
      · rw [ActiveSpans.touch_active]
        exact h.active

theorem nextSub_mono {s : TracingSt} {a : TracingAct} (hen : a.Enabled s) :
    s.nextSub ≤ (s.next a).nextSub := by
  cases a with
  | begin => exact Nat.le_succ _
  | savepoint => exact Nat.le_succ _
  | release =>
    obtain ⟨top, parent, rest, hlevels, -⟩ := hen
    simp only [next, hlevels, Nat.le_refl]
  | abort unwound dead =>
    obtain ⟨⟨top, rest, hlevels, -⟩, -⟩ := hen
    simp only [next, hlevels, Nat.le_refl]
  | utilityEnd =>
    obtain ⟨token, toplevel, sub, rest, hfs⟩ := hen
    simp only [next, hfs, Nat.le_refl]
  | commit prepare => exact Nat.le_refl _
  | cleanup => exact Nat.le_refl _
  | executorStart addr isCursor ref => exact Nat.le_refl _
  | nodeBegin query addr tag planspans fdw => exact Nat.le_refl _
  | nodeEnd query node => exact Nat.le_refl _
  | executorEnd query planspans => exact Nat.le_refl _
  | runBegin query => exact Nat.le_refl _
  | runEnd => exact Nat.le_refl _
  | utilityBegin addr toplevel ref => exact Nat.le_refl _
  | errorWhenAborted unwound => exact Nat.le_refl _

theorem step (h : Owns p) {x : SpanStep} (hen : x.act.Enabled p.1) (hx : x.Enabled p) :
    Owns (p.1.next x.act, p.2.next p.1 x) := by
  have hcore := h.core.step hen
  have hcov := fun sub level => @covers_step p.1 x.act hen sub level
  have hsub := nextSub_mono hen
  have hne (hprogress : p.1.InProgress) : p.1.levels ≠ [] := by
    obtain ⟨top, rest, hlevels, -⟩ := hprogress
    rw [hlevels]
    exact List.cons_ne_nil _ _
  by_cases h₁ : ∃ addr isCursor ref, x.act = .executorStart addr isCursor ref
  · obtain ⟨addr, isCursor, ref, hact⟩ := h₁
    simp only [SpanStep.Enabled, StmtSpans.next, hact] at hen hx hcore ⊢
    have hbegan := h.startStmt isCursor x.recording hx.1 hcore (hne hen.1) rfl rfl rfl rfl
      (fun q hq => (List.mem_cons.1 hq).symm.imp_right fun heq => by rw [heq]; exact ⟨rfl, rfl, rfl⟩)
      fun f hf _ => .inl hf
    split_ifs
    · have htouch := @ActiveSpans.Settles.touch (p.2.startStmt p.1 addr ref isCursor x.recording).work ref
      exact hbegan.keep hcore (.of_eq rfl rfl (fun _ hf _ => hf) (Nat.le_refl _)) (htouch.ok hbegan.ok)
        htouch.count rfl rfl (fun i hi => hbegan.active i (htouch.active.subset hi)) (Nat.le_refl _)
        fun _ _ _ hc => hc
    · exact hbegan
  by_cases h₂ : ∃ query addr tag planspans fdw, x.act = .nodeBegin query addr tag planspans fdw
  · obtain ⟨query, addr, tag, planspans, fdw, hact⟩ := h₂
    simp only [SpanStep.Enabled, StmtSpans.next, hact] at hen hx ⊢
    exact h.beginNode x hen hx.1
  by_cases h₄ : ∃ addr ref, x.act = .utilityBegin addr true ref
  · obtain ⟨addr, ref, hact⟩ := h₄
    simp only [SpanStep.Enabled, StmtSpans.next, hact] at hen hx hcore ⊢
    exact h.startStmt false x.recording hx hcore hen.1 rfl rfl rfl rfl
      (fun q hq => .inl hq) fun f hf _ => (List.mem_cons.1 hf).symm.imp_right fun heq => by
        rw [heq]
        exact ⟨rfl, rfl⟩
  have hfewer := (fewer_step hen).resolve_right fun h => h.elim h₁ fun h => h.elim h₂ h₄
  by_cases h₃ : ∃ query, x.act = .runBegin query
  · obtain ⟨query, hact⟩ := h₃
    simp only [StmtSpans.next, hact] at hfewer hcore hcov hsub ⊢
    obtain ⟨hok, hspans, hactive⟩ := h.beginRun_work x query
    refine h.keep hcore hfewer hok (hspans ▸ Nat.le_refl _) ?_ ?_ hactive hsub hcov
    · unfold StmtSpans.beginRun
      cases p.1.trace.peekCursorSpan query <;> rfl
    · unfold StmtSpans.beginRun
      cases p.1.trace.peekCursorSpan query <;> rfl
  · obtain ⟨hstmts, hnodes, hsettle⟩ := p.2.next_settles p.1 x
      (fun addr isCursor ref hact => h₁ ⟨addr, isCursor, ref, hact⟩)
      (fun query addr tag planspans fdw hact => h₂ ⟨query, addr, tag, planspans, fdw, hact⟩)
      (fun query hact => h₃ ⟨query, hact⟩) fun addr ref hact => h₄ ⟨addr, ref, hact⟩
    exact h.keep hcore hfewer (hsettle.ok h.ok) hsettle.count hstmts hnodes
      (fun i hi => h.active i (hsettle.active.subset hi)) hsub hcov

end Owns

theorem reachable_owns {p : TracingSt × StmtSpans} (h : stmtSpans.Reachable p) : Owns p :=
  Machine.Reachable.invariant (m := stmtSpans) (I := Owns) .init
    (fun _ _ hi hen => hi.step (hen.1 _ rfl) hen.2) h

end PostgresOtel
