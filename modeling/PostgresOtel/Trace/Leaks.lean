import PostgresOtel.Trace.Comment
import PostgresOtel.Trace.Uses

/-!
# Statement spans and the ends of transactions

A statement's span belongs to the resource owner that is current at the statement's start, so it ends
with the transaction level it was started in.  A query does not outlive that level, but a utility call
can: `CALL` and `VACUUM` commit while they run, and their span is then dropped as a leak.
-/

set_option autoImplicit false

namespace PostgresOtel

open KeyedStack TracingSt TraceSt

/-! ## Spans and the lives of their statements -/

/-- The span is open, and has its entry, for as long as its statement is in progress; it is never
dropped as a leak, and the end hook of the statement ends it. -/
structure SpanOwner.KeepsSpan (w : SpanOwner) (p : TracingSt × StmtSpans) : Prop where
  running : w.key ∈ p.1.livePtrs → p.2.work.spans.IsOpen w.ref ∧
    ∃ e ∈ p.1.trace.stmtStack, e.key = w.key ∧ e.ref = w.ref
  onlyRunning : p.2.work.spans.IsOpen w.ref → w.key ∈ p.1.livePtrs
  ended : w.key ∈ p.2.ends → (w.ref, SpanEnd.ended) ∈ p.2.work.spans.log
  kept : (w.ref, SpanEnd.leaked) ∉ p.2.work.spans.log

namespace SpanOwner.KeepsSpan

variable {w : SpanOwner} {p p' : TracingSt × StmtSpans}

/-- A statement that had been started. -/
theorem keep (h : w.KeepsSpan p) (hlive : w.key ∈ p'.1.livePtrs → w.key ∈ p.1.livePtrs)
    (hlog : ∀ x ∈ p.2.work.spans.log, x ∈ p'.2.work.spans.log)
    (hopen : p'.2.work.spans.IsOpen w.ref → p.2.work.spans.IsOpen w.ref)
    (hleak : (w.ref, SpanEnd.leaked) ∈ p'.2.work.spans.log →
      (w.ref, SpanEnd.leaked) ∈ p.2.work.spans.log)
    (hends : w.key ∈ p'.2.ends → w.key ∈ p.2.ends ∨ (w.ref, SpanEnd.ended) ∈ p'.2.work.spans.log)
    (hstays : w.key ∈ p.1.livePtrs → w.key ∈ p'.1.livePtrs → p.2.work.spans.IsOpen w.ref →
      p'.2.work.spans.IsOpen w.ref ∧ ∀ e ∈ p.1.trace.stmtStack, e.key = w.key → e ∈ p'.1.trace.stmtStack)
    (hgoes : w.key ∈ p.1.livePtrs → w.key ∉ p'.1.livePtrs → ¬p'.2.work.spans.IsOpen w.ref) :
    w.KeepsSpan p' where
  running hin := by
    obtain ⟨hopened, e, he, hkey, href⟩ := h.running (hlive hin)
    obtain ⟨hstill, hstack⟩ := hstays (hlive hin) hin hopened
    exact ⟨hstill, e, hstack e he hkey, hkey, href⟩
  onlyRunning ho := by
    by_contra hnot
    exact hgoes (h.onlyRunning (hopen ho)) hnot ho
  ended hin := (hends hin).elim (fun hin => hlog _ (h.ended hin)) id
  kept hm := h.kept (hleak hm)

/-- Steps that leave the spans and the statement stack alone. -/
theorem same (h : w.KeepsSpan p) (hlive : w.key ∈ p'.1.livePtrs ↔ w.key ∈ p.1.livePtrs)
    (hspans : p'.2.work.spans = p.2.work.spans) (hends : p'.2.ends = p.2.ends)
    (hstack : p'.1.trace.stmtStack = p.1.trace.stmtStack) : w.KeepsSpan p' := by
  refine h.keep hlive.1 (fun x hx => hspans ▸ hx) (fun ho => hspans ▸ ho) (fun hm => hspans ▸ hm)
    (fun hm => .inl (hends ▸ hm)) (fun _ _ ho => ⟨hspans ▸ ho, fun e he _ => hstack ▸ he⟩)
    fun hin hnot => absurd (hlive.2 hin) hnot

/-- Spans end in order: that of a statement that completes, and not those of statements that go on. -/
theorem ends (h : w.KeepsSpan p) (hok : p.2.work.Ok) (hs : p.2.work.spans.Started w.ref)
    {refs : List OtelSpanRef} (hends : ActiveSpans.Ends p.2.work p'.2.work refs)
    (hlive : w.key ∈ p'.1.livePtrs → w.key ∈ p.1.livePtrs)
    (hstays : w.key ∈ p.1.livePtrs → w.key ∈ p'.1.livePtrs →
      w.ref ∉ refs ∧ ∀ e ∈ p.1.trace.stmtStack, e.key = w.key → e ∈ p'.1.trace.stmtStack)
    (hgoes : w.key ∈ p.1.livePtrs → w.key ∉ p'.1.livePtrs → w.ref ∈ refs)
    (hdone : w.key ∈ p'.2.ends → w.key ∈ p.2.ends ∨ w.key ∈ p.1.livePtrs ∧ w.key ∉ p'.1.livePtrs) :
    w.KeepsSpan p' := by
  refine h.keep hlive (fun x hx => ?_) (fun ho => ((hends.isOpen _ hs).1 ho).1) (fun hm => ?_)
    (fun hm => (hdone hm).imp_right fun hover => ?_) (fun hin hin' ho => ?_) fun hin hnot ho => ?_
  · exact (hends.log x (hok.tally.started_of_log hx)).2 (.inl hx)
  · exact (hends.others _ hm).resolve_right fun heq => SpanEnd.noConfusion heq
  · exact (hends.log _ hs).2 (.inr ⟨(h.running hover.1).1, hgoes hover.1 hover.2, rfl⟩)
  · obtain ⟨hnot, hstack⟩ := hstays hin hin'
    exact ⟨(hends.isOpen _ hs).2 ⟨ho, hnot⟩, hstack⟩
  · exact ((hends.isOpen _ hs).1 ho).2 (hgoes hin hnot)

end SpanOwner.KeepsSpan

/-- Nothing is above what leaves the active stack; a statement whose span records has room on the
statement stack; and the statements in progress whose spans record end with an abort that takes their
entry, and before a commit. -/
def SpanStep.KeepsStatements (p : TracingSt × StmtSpans) (x : SpanStep) : Prop :=
  x.Alone p ∧
  match x.act with
  | .executorStart _ _ ref =>
    x.recording = true → ref.v = 0 ∨ p.1.trace.stmtStack.length < otelStmtStackMax
  | .utilityBegin _ toplevel ref =>
    toplevel = true → x.recording = true → ref.v = 0 ∨ p.1.trace.stmtStack.length < otelStmtStackMax
  | .commit _ => ∀ w ∈ p.2.stmts, w.recording = true → w.key ∉ p.1.livePtrs
  | .abort unwound dead => ∀ w ∈ p.2.stmts, w.recording = true → w.key ∈ p.1.livePtrs →
      p.1.levels.length ≤ w.nest.level → p.1.Finishes (.abort unwound dead) w.key
  | _ => True

/-! ## What a step does to the statements in progress -/

theorem Fewer.live_subset {s s' : TracingSt} (h : Fewer s s') : s'.livePtrs ⊆ s.livePtrs := by
  intro key hkey
  rcases List.mem_append.1 hkey with hkey | hkey
  · obtain ⟨q, hq, rfl⟩ := List.mem_map.1 hkey
    obtain ⟨q₀, hq₀, hptr, -⟩ := h.queries q hq
    exact List.mem_append_left _ (List.mem_map.2 ⟨q₀, hq₀, hptr⟩)
  · obtain ⟨f, hf, ht⟩ := List.mem_filterMap.1 hkey
    refine List.mem_append_right _ (List.mem_filterMap.2 ⟨f, h.frames f hf ?_, ht⟩)
    rw [ht]
    exact Option.some_ne_none key

namespace StmtSpans

variable {p : TracingSt × StmtSpans} {x : SpanStep}

/-- Steps that start no statement. -/
theorem stmts_next (h₁ : ∀ addr isCursor ref, x.act ≠ .executorStart addr isCursor ref)
    (h₂ : ∀ addr ref, x.act ≠ .utilityBegin addr true ref) :
    (p.2.next p.1 x).stmts = p.2.stmts := by
  by_cases hnode : ∃ query addr tag planspans fdw, x.act = .nodeBegin query addr tag planspans fdw
  · obtain ⟨query, addr, tag, planspans, fdw, hact⟩ := hnode
    simp only [next, hact, beginNode]
    cases p.1.trace.childStart planspans fdw tag <;> rfl
  · by_cases hrun : ∃ query, x.act = .runBegin query
    · obtain ⟨query, hact⟩ := hrun
      simp only [next, hact, beginRun]
      cases p.1.trace.peekCursorSpan query <;> rfl
    · push Not at hnode hrun
      exact (p.2.next_settles p.1 x h₁ hnode hrun h₂).1

/-- A statement starts at the current level. -/
theorem mem_stmts_next (hen : x.act.Enabled p.1) {w : SpanOwner} (hw : w ∈ (p.2.next p.1 x).stmts) :
    w ∈ p.2.stmts ∨ (w.nest = p.1.currentLevel ∧ p.1.levels ≠ []) := by
  by_cases h₁ : ∃ addr isCursor ref, x.act = .executorStart addr isCursor ref
  · obtain ⟨addr, isCursor, ref, hact⟩ := h₁
    rw [hact] at hen
    obtain ⟨⟨top, rest, hlevels, -⟩, -⟩ := hen
    have hw : w ∈ (p.2.startStmt p.1 addr ref isCursor x.recording).stmts := by
      simp only [next, hact] at hw
      split_ifs at hw <;> exact hw
    refine (mem_startStmt.1 hw).imp_right fun hnew => ⟨by rw [hnew.2], ?_⟩
    rw [hlevels]
    exact List.cons_ne_nil _ _
  · by_cases h₂ : ∃ addr ref, x.act = .utilityBegin addr true ref
    · obtain ⟨addr, ref, hact⟩ := h₂
      rw [hact] at hen
      simp only [next, hact, if_true] at hw
      exact (mem_startStmt.1 hw).imp_right fun hnew => ⟨by rw [hnew.2], hen.1⟩
    · push Not at h₁ h₂
      exact .inl (stmts_next h₁ h₂ ▸ hw)

/-- The end hook runs for a statement in progress. -/
theorem mem_ends_next (hen : x.act.Enabled p.1) {key : Ptr} (hkey : key ∈ (p.2.next p.1 x).ends) :
    key ∈ p.2.ends ∨ key ∈ p.1.livePtrs := by
  cases hact : x.act with
  | executorEnd query planspans =>
    rw [hact] at hen
    obtain ⟨-, ⟨q, hq, rfl⟩, -⟩ := hen
    simp only [next, hact] at hkey
    refine (List.mem_cons.1 hkey).symm.imp_right fun heq => ?_
    rw [heq]
    exact List.mem_append_left _ (List.mem_map_of_mem hq)
  | utilityEnd =>
    rw [hact] at hen
    obtain ⟨token, toplevel, sub, rest, hframes⟩ := hen
    simp only [next, hact, hframes, List.head?_cons, Option.bind_some] at hkey
    cases toplevel with
    | false => exact .inl hkey
    | true =>
      refine (List.mem_cons.1 hkey).symm.imp_right fun heq => ?_
      rw [heq]
      exact Alive.token_live (f := .utility token true sub) (hframes ▸ List.mem_cons_self) rfl
  | executorStart addr isCursor ref =>
    simp only [next, hact] at hkey
    split_ifs at hkey <;> exact .inl hkey
  | nodeBegin query addr tag planspans fdw =>
    simp only [next, hact, beginNode] at hkey
    cases hstart : p.1.trace.childStart planspans fdw tag <;> rw [hstart] at hkey <;> exact .inl hkey
  | runBegin query =>
    simp only [next, hact, beginRun] at hkey
    cases hpeek : p.1.trace.peekCursorSpan query <;> rw [hpeek] at hkey <;> exact .inl hkey
  | utilityBegin addr toplevel ref =>
    simp only [next, hact] at hkey
    split_ifs at hkey <;> exact .inl hkey
  | _ =>
    simp only [next, hact] at hkey
    exact .inl hkey

end StmtSpans

/-- Objects are numbered upwards. -/
theorem nextObj_mono {s : TracingSt} {a : TracingAct} (hen : a.Enabled s) :
    s.nextObj ≤ (s.next a).nextObj := by
  rcases fewer_step hen with hfewer | ⟨addr, isCursor, ref, rfl⟩ |
      ⟨query, addr, tag, planspans, fdw, rfl⟩ | ⟨addr, ref, rfl⟩
  · exact hfewer.obj
  · exact Nat.le_succ _
  · exact Nat.le_succ _
  · exact Nat.le_succ _

/-- The entries stay in the order of their objects. -/
theorem dated_step {s : TracingSt}
    (h : Dated StmtSpanEntry.key s.livePtrs s.nextObj s.trace.stmtStack) {a : TracingAct}
    (hen : a.Enabled s) : Dated StmtSpanEntry.key (s.next a).livePtrs (s.next a).nextObj
      (s.next a).trace.stmtStack := by
  rcases fewer_step hen with hfewer | ⟨addr, isCursor, ref, rfl⟩ |
      ⟨query, addr, tag, planspans, fdw, rfl⟩ | ⟨addr, ref, rfl⟩
  · exact (h.sublist hfewer.stmts hfewer.live_subset).create hfewer.obj fun _ hp => .inl hp
  · exact dated_push h hen.2 (fun p hp => (List.mem_cons.1 hp).symm) ref isCursor
  · have hstack := nodeBegin_stmtStack s.trace planspans fdw ⟨s.newPtr addr, tag⟩ s.currentLevel
    rw [livePtrs_nodeBegin]
    exact (h.sublist (hstack ▸ List.Sublist.refl _) (List.Subset.refl _)).create (Nat.le_succ _)
      fun _ hp => .inl hp
  · exact dated_push h hen.2 (fun p hp => (List.mem_cons.1 (List.perm_middle.mem_iff.1 hp)).symm) ref
      false

/-! ## What the start of a statement does -/

namespace Owns

variable {p : TracingSt × StmtSpans} {ref : OtelSpanRef}

/-- The span stays open if the statement stack has room. -/
theorem startStmt_ends (h : Owns p) (addr : ℕ) (detached recording : Bool) (hfresh : p.2.Fresh ref) :
    ActiveSpans.Ends (if p.1.trace.pushesStmt ref then p.2.work.start p.1.currentLevel.level detached
      else p.2.work) (p.2.startStmt p.1 addr ref detached recording).work [] :=
  .startStmt h.ok p.1.trace (p.1.newPtr addr) detached p.1.currentLevel hfresh.resolve_left

/-- Nothing happens to the other spans. -/
theorem startStmt_others (h : Owns p) (addr : ℕ) (detached recording : Bool)
    (hfresh : p.2.Fresh ref) :
    let work := (p.2.startStmt p.1 addr ref detached recording).work
    (∀ r, p.2.work.spans.Started r → (work.spans.IsOpen r ↔ p.2.work.spans.IsOpen r)) ∧
      (∀ y : OtelSpanRef × SpanEnd, p.2.work.spans.Started y.1 →
        (y ∈ work.spans.log ↔ y ∈ p.2.work.spans.log)) ∧
      ∀ y ∈ work.spans.log, y ∈ p.2.work.spans.log ∨ y.2 = .ended := by
  have hends := h.startStmt_ends addr detached recording hfresh
  have hbefore : ∀ r, p.2.work.spans.Started r →
      ((p.2.work.start p.1.currentLevel.level detached).spans.IsOpen r ↔ p.2.work.spans.IsOpen r) := by
    intro r hs
    have hne : r ≠ spanHandle p.2.work.spans.count := fun heq => Spans.not_started_next (heq ▸ hs)
    exact Spans.isOpen_start.trans (or_iff_right hne)
  split_ifs at hends
  · refine ⟨fun r hs => ?_, fun y hs => ?_, hends.others⟩
    · rw [← hbefore r hs]
      simpa using hends.isOpen r (hs.mono (Nat.le_succ _))
    · exact (hends.log y (hs.mono (Nat.le_succ _))).trans (by simp [ActiveSpans.start, Spans.start])
  · refine ⟨fun r hs => ?_, fun y hs => ?_, hends.others⟩
    · simpa using hends.isOpen r hs
    · simpa using hends.log y hs

end Owns

/-! ## What an abort releases -/

namespace Owns

variable {p : TracingSt × StmtSpans} {w : SpanOwner} {unwound : ℕ} {dead : List Ptr}

/-- The span of a statement that ends with the abort of the innermost level. -/
theorem releases_finished (h : Owns p) (hw : w ∈ p.2.stmts) {top : Subxact} {rest : List Subxact}
    (hlevels : p.1.levels = top :: rest)
    (hframes : ∀ f ∈ p.1.frames.take unwound, rest = [] ∨ f.sub ∈ top.members)
    (hfin : p.1.Finishes (.abort unwound dead) w.key) : p.2.releases p.1 dead w.ref = true := by
  simp only [StmtSpans.releases, hlevels]
  refine Bool.or_eq_true_iff.2 ?_
  have hany : w.nest.sub ∈ top.members ∨ (∃ q ∈ p.1.queries, q.ptr = w.key ∧ p.1.dies dead q = true) →
      ((p.2.stmts ++ p.2.nodes).any fun w' => decide (w'.ref = w.ref) &&
        (decide (w'.nest.sub ∈ top.members) ||
          (p.1.queries.any fun q => decide (q.ptr = w'.key) && p.1.dies dead q) ||
          !w'.recording && decide ((top :: rest).length ≤ w'.nest.level))) = true := by
    intro hor
    refine List.any_eq_true.2 ⟨w, List.mem_append_left _ hw, ?_⟩
    rcases hor with hsub | ⟨q, hq, hptr, hdies⟩
    · simp [hsub]
    · have hquery : (p.1.queries.any fun q => decide (q.ptr = w.key) && p.1.dies dead q) = true :=
        List.any_eq_true.2 ⟨q, hq, by simp [hptr, hdies]⟩
      simp [hquery]
  rcases hfin with hquery | ⟨f, hf, htoken⟩
  · exact .inr (hany (.inr hquery))
  · rcases hframes f hf with rfl | hsub
    · exact .inl rfl
    · rw [← h.frames f (List.take_subset _ _ hf) w hw htoken] at hsub
      exact .inr (hany (.inl hsub))

/-- The span of another statement, started further out, is not released if it records. -/
theorem not_releases (h : Owns p) (hw : w ∈ p.2.stmts) (hrec : w.recording = true) {top : Subxact}
    {rest : List Subxact} (hlevels : p.1.levels = top :: rest) (hpos : 0 < w.nest.level)
    (hout : w.nest.level < p.1.levels.length) (hgoes : ¬p.1.Finishes (.abort unwound dead) w.key) :
    p.2.releases p.1 dead w.ref = false := by
  rw [hlevels, List.length_cons] at hout
  have hrest : rest ≠ [] := by
    rintro rfl
    rw [List.length_nil] at hout
    omega
  simp only [StmtSpans.releases, hlevels]
  refine Bool.or_eq_false_iff.2 ⟨by simpa using hrest, List.any_eq_false.2 fun w' hw' => ?_⟩
  by_cases href : w'.ref = w.ref
  · obtain rfl := List.inj_on_of_nodup_map h.once hw' (List.mem_append_left _ hw) href
    have hsub : w'.nest.sub ∉ top.members := fun hm =>
      absurd (h.covers w' hw top rest (hlevels ▸ List.suffix_refl _) hm) (Nat.not_le.2 hout)
    have hquery : (p.1.queries.any fun q => decide (q.ptr = w'.key) && p.1.dies dead q) = false := by
      refine List.any_eq_false.2 fun q hq hdies => hgoes (.inl ⟨q, hq, ?_⟩)
      simpa using hdies
    simp [hsub, hquery, hrec]
  · simp [href]

end Owns

/-! ## Statements that keep their spans -/

/-- Every span of a statement that records is kept for the statement. -/
structure Keeping (p : TracingSt × StmtSpans) : Prop extends Owns p where
  dated : Dated StmtSpanEntry.key p.1.livePtrs p.1.nextObj p.1.trace.stmtStack
  ends_old : ∀ key ∈ p.2.ends, key.obj < p.1.nextObj
  levels : ∀ w ∈ p.2.stmts, 0 < w.nest.level
  spans : ∀ w ∈ p.2.stmts, w.recording = true → w.KeepsSpan p

namespace Keeping

variable {p : TracingSt × StmtSpans} {w : SpanOwner}

theorem init : Keeping ({}, {}) where
  toOwns := .init
  dated := .nil
  ends_old _ h := absurd h List.not_mem_nil
  levels _ h := absurd h List.not_mem_nil
  spans _ h := absurd h List.not_mem_nil

/-! ## The ends of statements -/

/-- A statement in progress is found by its end hook. -/
theorem pop_own (h : Keeping p) (hw : w ∈ p.2.stmts) (hrec : w.recording = true)
    (hin : w.key ∈ p.1.livePtrs) : (p.1.trace.popStmtSpan w.key).2 = w.ref := by
  obtain ⟨-, e, he, hkey, href⟩ := (h.spans w hw hrec).running hin
  have hfind := h.dated.find_own he (hkey ▸ hin)
  rw [hkey] at hfind
  unfold popStmtSpan
  rw [hfind]
  exact href

/-- It is not found by that of another. -/
theorem pop_other (h : Keeping p) (hw : w ∈ p.2.stmts) (hin : w.key ∈ p.1.livePtrs) {key : Ptr}
    (hkey : key ∈ p.1.livePtrs) (hne : key ≠ w.key) : w.ref ≠ (p.1.trace.popStmtSpan key).2 := by
  intro heq
  rcases (h.popped key).1 with hnone | ⟨e, he, hepop, haddr⟩
  · exact (h.started w (List.mem_append_left _ hw)).ne_zero (by rw [heq, hnone]; rfl)
  · obtain ⟨hown, -⟩ := h.entry_stmt hw he (hepop.trans heq.symm)
    exact hne (h.core.distinct.eq_of_same hkey hin (hown ▸ haddr).symm)

/-- The end hook of a statement ends the statement's own span, and spans of plan nodes. -/
theorem completes (h : Keeping p) {x : SpanStep} (hen : x.act.Enabled p.1) {key : Ptr}
    (hcomp : ∀ key', p.1.Finishes x.act key' ↔ key = key') (hkey : key ∈ p.1.livePtrs)
    (hfewer : Fewer p.1 (p.1.next x.act)) {off : List OtelSpanRef}
    (hends : ActiveSpans.Ends p.2.work (p.2.next p.1 x).work
      (off ++ [(p.1.trace.popStmtSpan key).2]))
    (hoff : ∀ ref ∈ off, ref ∈ p.1.trace.children.map NodeSpanEntry.ref)
    (hstack : (p.1.next x.act).trace.stmtStack = remove StmtSpanEntry.key key p.1.trace.stmtStack)
    (hdone : (p.2.next p.1 x).ends = key :: p.2.ends) (hw : w ∈ p.2.stmts) (hrec : w.recording = true) :
    w.KeepsSpan (p.1.next x.act, p.2.next p.1 x) := by
  have hstays : ∀ {key'}, key' ∈ p.1.livePtrs → (key' ∈ (p.1.next x.act).livePtrs ↔ key ≠ key') :=
    fun hin => (mem_livePtrs_next h.core hen hin).trans (not_congr (hcomp _))
  refine (h.spans w hw hrec).ends h.ok (h.started w (List.mem_append_left _ hw)) hends
    (fun hin => hfewer.live_subset hin) (fun hin hin' => ⟨fun hm => ?_, fun e he hown => ?_⟩)
    (fun hin hnot => ?_) fun hm => ?_
  · rcases List.mem_append.1 hm with hm | hm
    · exact h.stmt_not_child hw (hoff _ hm)
    · exact h.pop_other hw hin hkey ((hstays hin).1 hin') (List.mem_singleton.1 hm)
  · rw [hstack]
    refine mem_remove he fun haddr => (hstays hin).1 hin' ?_
    exact (h.core.distinct.eq_of_same (hown ▸ hin) hkey haddr).symm.trans hown
  · obtain rfl : key = w.key := not_not.1 fun hne => hnot ((hstays hin).2 hne)
    rw [h.pop_own hw hrec hin]
    exact List.mem_append_right _ List.mem_cons_self
  · rw [hdone] at hm
    rcases List.mem_cons.1 hm with rfl | hm
    · exact .inr ⟨hkey, fun hin => (hstays hkey).1 hin rfl⟩
    · exact .inl hm

/-- A commit finds no statement's span open. -/
theorem commit (h : Keeping p) {x : SpanStep} {prepare : Bool} (hact : x.act = .commit prepare)
    (hok : x.KeepsStatements p) (hw : w ∈ p.2.stmts) (hrec : w.recording = true) :
    w.KeepsSpan (p.1.next x.act, p.2.next p.1 x) := by
  have hover : w.key ∉ p.1.livePtrs := by
    have hnone := hok.2
    simp only [hact] at hnone
    exact hnone w hw hrec
  have hopen : ¬p.2.work.spans.IsOpen w.ref := fun ho => hover ((h.spans w hw hrec).onlyRunning ho)
  have hlog := fun y => @Spans.mem_log_close p.2.work.spans (fun _ => true) .leaked y
  rw [hact]
  simp only [StmtSpans.next, hact]
  refine (h.spans w hw hrec).keep id (fun y hy => (hlog y).2 (.inl hy)) (fun ho => ?_) (fun hm => ?_) .inl
    (fun hin => absurd hin hover) fun hin => absurd hin hover
  · exact ((Spans.isOpen_close (q := fun _ => true)).1 ho).1
  · exact ((hlog _).1 hm).resolve_right fun hin => hopen hin.1

/-- Calls that an error ends in an aborted transaction, and no other statement. -/
theorem errorWhenAborted (h : Keeping p) {x : SpanStep} {unwound : ℕ}
    (hact : x.act = .errorWhenAborted unwound) (hen : x.act.Enabled p.1)
    (hfewer : Fewer p.1 (p.1.next x.act)) (hw : w ∈ p.2.stmts) (hrec : w.recording = true) :
    w.KeepsSpan (p.1.next x.act, p.2.next p.1 x) := by
  have hstays := fun (hin : w.key ∈ p.1.livePtrs) => mem_livePtrs_next h.core hen hin
  have hlog := fun y =>
    @Spans.mem_log_close p.2.work.spans (p.2.dropsCalls p.1 unwound) .released y
  have hdrops : p.2.dropsCalls p.1 unwound w.ref = true ↔
      ∃ f ∈ p.1.frames.take unwound, f.token = some w.key := by
    simp only [StmtSpans.dropsCalls, List.any_eq_true, Bool.and_eq_true, decide_eq_true_eq]
    constructor
    · rintro ⟨w', hw', href, f, hf⟩
      obtain rfl := h.stmt_unique hw' hw href
      exact ⟨f, hf⟩
    · rintro ⟨f, hf⟩
      exact ⟨w, hw, rfl, f, hf⟩
  rw [hact] at hstays hfewer ⊢
  simp only [StmtSpans.next, hact]
  refine (h.spans w hw hrec).keep (fun hin => hfewer.live_subset hin) (fun y hy => (hlog y).2 (.inl hy))
    (fun ho => (Spans.isOpen_close.1 ho).1) (fun hm => ?_) .inl (fun hin hin' ho => ⟨?_, ?_⟩)
    fun hin hnot ho => ?_
  · exact ((hlog _).1 hm).resolve_right fun hm => SpanEnd.noConfusion hm.2.2
  · refine Spans.isOpen_close.2 ⟨ho, Bool.eq_false_iff.2 fun hdrop => ?_⟩
    exact (hstays hin).1 hin' (hdrops.1 hdrop)
  · intro e he hown
    refine mem_caught he fun f hf token ht haddr => (hstays hin).1 hin' ⟨f, hf, ?_⟩
    have htoken : token ∈ p.1.livePtrs :=
      List.mem_append_right _ (List.mem_filterMap.2 ⟨f, List.take_subset _ _ hf, ht⟩)
    rw [ht, ← h.core.distinct.eq_of_same (hown ▸ hin) htoken haddr, hown]
  · have hdrop := hdrops.2 (not_not.1 fun hnone => hnot ((hstays hin).2 hnone))
    rw [(Spans.isOpen_close.1 ho).2] at hdrop
    exact Bool.false_ne_true hdrop

/-- An abort ends the statements in progress inside of the level, and no other. -/
theorem abort (h : Keeping p) {x : SpanStep} {unwound : ℕ} {dead : List Ptr}
    (hact : x.act = .abort unwound dead) (hen : x.act.Enabled p.1) (hx : x.Enabled p)
    (hok : x.KeepsStatements p) (hfewer : Fewer p.1 (p.1.next x.act)) (hw : w ∈ p.2.stmts)
    (hrec : w.recording = true) : w.KeepsSpan (p.1.next x.act, p.2.next p.1 x) := by
  have hstays := fun (hin : w.key ∈ p.1.livePtrs) => mem_livePtrs_next h.core hen hin
  have hkeeps := hok.2
  simp only [SpanStep.Enabled, hact] at hx hkeeps
  rw [hact] at hstays hfewer hen ⊢
  obtain ⟨⟨top, rest, hlevels, -⟩, -⟩ := hen
  have hframes : ∀ f ∈ p.1.frames.take unwound, rest = [] ∨ f.sub ∈ top.members := by
    intro f hf
    obtain ⟨top', rest', hsame, hinside⟩ := hx.1 f hf
    obtain ⟨rfl, rfl⟩ := List.cons.inj (hlevels.symm.trans hsame)
    exact hinside
  have hout : w.key ∈ p.1.livePtrs → w.key ∈ (p.1.next (.abort unwound dead)).livePtrs →
      w.nest.level < p.1.levels.length := fun hin hin' =>
    Nat.lt_of_not_le fun hle => (hstays hin).1 hin' (hkeeps w hw hrec hin hle)
  have hunwinds := ActiveSpans.Unwinds.deactivates (a := p.2.work)
    (p.2.runs.take ((p.1.frames.take unwound).countP fun f => f.query.isSome))
  have hlog := fun y => @Spans.mem_log_close
    ((p.2.runs.take ((p.1.frames.take unwound).countP fun f => f.query.isSome)).foldl
      ActiveSpans.deactivate p.2.work).spans (p.2.releases p.1 dead) .released y
  simp only [StmtSpans.next, hact]
  refine (h.spans w hw hrec).keep (fun hin => hfewer.live_subset hin)
    (fun y hy => (hlog y).2 (.inl (hunwinds.log y hy)))
    (fun ho => hunwinds.isOpen _ (Spans.isOpen_close.1 ho).1) (fun hm => ?_) .inl
    (fun hin hin' ho => ⟨?_, fun e he hown => ?_⟩) fun hin hnot ho => ?_
  · rcases (hlog _).1 hm with hm | hm
    · exact (hunwinds.others _ hm).resolve_right fun heq => SpanEnd.noConfusion heq
    · exact SpanEnd.noConfusion hm.2.2
  · -- What the runs of the level leave above their activations was started in the level.
    refine Spans.isOpen_close.2 ⟨ActiveSpans.deactivates_isOpen h.ok ho fun act hruns i hi heq => ?_,
      h.not_releases hw hrec hlevels (h.levels w hw) (hout hin hin') ((hstays hin).1 hin')⟩
    have hlt := hout hin hin'
    rw [hlevels, List.length_cons] at hlt
    obtain ⟨top', rest', hsame, hgone⟩ := hx.2 act hruns i hi
    obtain ⟨rfl, rfl⟩ := List.cons.inj (hlevels.symm.trans hsame)
    rcases hgone with rfl | ⟨w', hw', href, hsub⟩
    · have hpos := h.levels w hw
      rw [List.length_nil] at hlt
      omega
    · obtain rfl := h.stmt_unique hw' hw (href.trans heq)
      exact absurd (h.covers w' hw' top rest (hlevels ▸ List.suffix_refl _) hsub) (Nat.not_le.2 hlt)
  · have hlt := hout hin hin'
    have hpos := h.levels w hw
    obtain ⟨w', hw', -, hkey, hnest⟩ := h.entries e he
    obtain rfl := List.inj_on_of_nodup_map h.keys hw' hw (hkey.trans hown)
    have hrest : rest.isEmpty = false := by
      cases rest with
      | nil =>
        rw [hlevels, List.length_singleton] at hlt
        omega
      | cons parent rest => rfl
    have hcaught : e ∈ (p.1.caught unwound).stmtStack := by
      refine mem_caught he fun f hf token ht haddr => (hstays hin).1 hin' (.inr ⟨f, hf, ?_⟩)
      have htoken : token ∈ p.1.livePtrs :=
        List.mem_append_right _ (List.mem_filterMap.2 ⟨f, List.take_subset _ _ hf, ht⟩)
      rw [ht, ← h.core.distinct.eq_of_same (hown ▸ hin) htoken haddr, hown]
    simp only [TracingSt.next, hlevels, hrest, Bool.false_eq_true, if_false]
    refine List.mem_filter.2 ⟨hcaught, decide_eq_true ?_⟩
    rw [← hnest]
    exact hlt
  · have hfin := not_not.1 fun hgoes => hnot ((hstays hin).2 hgoes)
    have hdrop := h.releases_finished hw hlevels hframes hfin
    rw [(Spans.isOpen_close.1 ho).2] at hdrop
    exact Bool.false_ne_true hdrop

/-! ## Steps that begin something -/

/-- A statement starts: its span is open and has its entry, and the others stay as they are. -/
theorem startStmt (h : Keeping p) {s' : TracingSt} {addr : ℕ} {ref : OtelSpanRef}
    (detached recording : Bool) (hfresh : p.2.Fresh ref)
    (hroom : recording = true → ref.v = 0 ∨ p.1.trace.stmtStack.length < otelStmtStackMax)
    (htrace : s'.trace = (p.1.trace.pushStmtSpan (p.1.newPtr addr) ref detached p.1.currentLevel).1)
    (hlive : ∀ key, key ∈ s'.livePtrs ↔ key = p.1.newPtr addr ∨ key ∈ p.1.livePtrs)
    (hw : w ∈ (p.2.startStmt p.1 addr ref detached recording).stmts) (hrec : w.recording = true) :
    w.KeepsSpan (s', p.2.startStmt p.1 addr ref detached recording) := by
  have hstack := pushStmtSpan_stack p.1.trace (p.1.newPtr addr) ref detached p.1.currentLevel
  rw [← htrace] at hstack
  rcases StmtSpans.mem_startStmt.1 hw with hw | ⟨hv, rfl⟩
  · have hs := h.started w (List.mem_append_left _ hw)
    have hkey : w.key ≠ p.1.newPtr addr := h.key_ne hw
    have hin : w.key ∈ s'.livePtrs ↔ w.key ∈ p.1.livePtrs := (hlive _).trans (or_iff_right hkey)
    obtain ⟨hopen, hlog, hothers⟩ := h.startStmt_others addr detached recording hfresh
    refine (h.spans w hw hrec).keep hin.1 (fun y hy => (hlog y (h.ok.tally.started_of_log hy)).2 hy)
      (hopen w.ref hs).1 (fun hm => (hothers _ hm).resolve_right fun heq => SpanEnd.noConfusion heq)
      .inl (fun _ _ ho => ⟨(hopen w.ref hs).2 ho, fun e he _ => ?_⟩)
      fun hold hnot => absurd (hin.2 hold) hnot
    rw [hstack]
    split_ifs
    · exact List.mem_cons_of_mem _ he
    · exact he
  · have hpushes : p.1.trace.pushesStmt ref = true := by
      simp [pushesStmt, hv, (hroom hrec).resolve_left hv]
    have hends := h.startStmt_ends addr detached recording hfresh
    rw [if_pos hpushes] at hends hstack
    have href : ref = spanHandle p.2.work.spans.count := hfresh.resolve_left hv
    have hlast : (p.2.work.start p.1.currentLevel.level detached).spans.Started ref :=
      ⟨p.2.work.spans.count, Nat.lt_succ_self _, href⟩
    have hnew : ¬p.2.work.spans.Started ref := fun hs => Spans.not_started_next (href ▸ hs)
    refine ⟨fun _ => ⟨?_, ⟨_, hstack ▸ List.mem_cons_self, rfl, rfl⟩⟩,
      fun _ => (hlive _).2 (.inl rfl), fun hm => absurd (h.ends_old _ hm) (Nat.lt_irrefl _), fun hm => ?_⟩
    · exact (hends.isOpen ref hlast).2 ⟨Spans.isOpen_start.2 (.inl href), List.not_mem_nil⟩
    · have hlog := (hends.others _ hm).resolve_right fun heq => SpanEnd.noConfusion heq
      exact hnew (h.ok.tally.started_of_log hlog)

/-- The execution of a query starts. -/
theorem executorStart (h : Keeping p) {x : SpanStep} {addr : ℕ} {isCursor : Bool} {ref : OtelSpanRef}
    (hact : x.act = .executorStart addr isCursor ref) (hx : x.Enabled p) (hok : x.KeepsStatements p)
    (hw : w ∈ (p.2.next p.1 x).stmts) (hrec : w.recording = true) :
    w.KeepsSpan (p.1.next x.act, p.2.next p.1 x) := by
  have hroom := hok.2
  simp only [SpanStep.Enabled, hact] at hx hroom
  simp only [StmtSpans.next, hact] at hw ⊢
  have hbegan : ∀ w ∈ (p.2.startStmt p.1 addr ref isCursor x.recording).stmts, w.recording = true →
      w.KeepsSpan (p.1.next (.executorStart addr isCursor ref),
        p.2.startStmt p.1 addr ref isCursor x.recording) := fun w hw hrec =>
    h.startStmt isCursor x.recording hx.1 hroom rfl (fun key => List.mem_cons) hw hrec
  split_ifs at hw ⊢
  · exact (hbegan w hw hrec).same Iff.rfl ActiveSpans.touch_spans rfl rfl
  · exact hbegan w hw hrec

/-- A call of `otel_ProcessUtility` begins. -/
theorem utilityBegin (h : Keeping p) {x : SpanStep} {addr : ℕ} {toplevel : Bool} {ref : OtelSpanRef}
    (hact : x.act = .utilityBegin addr toplevel ref) (hx : x.Enabled p) (hok : x.KeepsStatements p)
    (hw : w ∈ (p.2.next p.1 x).stmts) (hrec : w.recording = true) :
    w.KeepsSpan (p.1.next x.act, p.2.next p.1 x) := by
  have hroom := hok.2
  simp only [SpanStep.Enabled, hact] at hx hroom
  simp only [StmtSpans.next, hact] at hw ⊢
  cases toplevel with
  | true =>
    simp only [if_true] at hw ⊢
    exact h.startStmt false x.recording hx (hroom rfl) rfl
      (fun key => List.perm_middle.mem_iff.trans List.mem_cons) hw hrec
  | false =>
    simp only [Bool.false_eq_true, if_false] at hw ⊢
    exact (h.spans w hw hrec).same Iff.rfl rfl rfl rfl

/-- A plan node begins. -/
theorem nodeBegin (h : Keeping p) {x : SpanStep} {query : Ptr} {addr : ℕ} {tag : PlanNodeTag}
    {planspans fdw : Option OtelSpanRef} (hact : x.act = .nodeBegin query addr tag planspans fdw)
    (hw : w ∈ p.2.stmts) (hrec : w.recording = true) :
    w.KeepsSpan (p.1.next x.act, p.2.next p.1 x) := by
  have hs := h.started w (List.mem_append_left _ hw)
  have hlive := livePtrs_nodeBegin p.1 query addr tag planspans fdw
  have hstack := nodeBegin_stmtStack p.1.trace planspans fdw ⟨p.1.newPtr addr, tag⟩ p.1.currentLevel
  rw [hact]
  simp only [StmtSpans.next, StmtSpans.beginNode, hact]
  cases p.1.trace.childStart planspans fdw tag with
  | none => exact (h.spans w hw hrec).same (hlive ▸ Iff.rfl) ActiveSpans.touch_spans rfl hstack
  | some ref =>
    have htouch := ActiveSpans.Ends.touch h.ok
      (p.2.beginNames p.1 x query (p.1.newPtr addr) tag planspans fdw)
    have hends := htouch.trans (.startDetached htouch.ok p.1.currentLevel.level)
    refine (h.spans w hw hrec).ends h.ok hs hends (hlive ▸ id)
      (fun _ _ => ⟨List.not_mem_nil, fun e he _ => hstack ▸ he⟩) (fun hin hnot => ?_) .inl
    exact absurd (hlive ▸ hin) hnot

/-- A foreign scan ends. -/
theorem nodeEnd (h : Keeping p) {x : SpanStep} {query node : Ptr} (hact : x.act = .nodeEnd query node)
    (hw : w ∈ p.2.stmts) (hrec : w.recording = true) :
    w.KeepsSpan (p.1.next x.act, p.2.next p.1 x) := by
  have hs := h.started w (List.mem_append_left _ hw)
  have hlive := livePtrs_nodeEnd p.1 query node
  have hscan : ∀ ref ∈ (find NodeSpanEntry.node node p.1.trace.fdwScanStack).toList.map
      NodeSpanEntry.ref, ref ∈ p.1.trace.children.map NodeSpanEntry.ref :=
    fun ref hr => (scanEnds_perm p.1.trace node).subset (List.mem_append_left _ hr)
  have hends := ActiveSpans.Ends.finishes h.ok fun ref hr => h.children_off (hscan ref hr)
  rw [hact]
  simp only [StmtSpans.next, hact]
  refine (h.spans w hw hrec).ends h.ok hs hends (hlive ▸ id)
    (fun _ _ => ⟨fun hm => h.stmt_not_child hw (hscan _ hm), fun e he _ => he⟩) (fun hin hnot => ?_) .inl
  exact absurd (hlive ▸ hin) hnot

/-- A run begins. -/
theorem runBegin (h : Keeping p) {x : SpanStep} {query : Ptr} (hact : x.act = .runBegin query)
    (hw : w ∈ p.2.stmts) (hrec : w.recording = true) :
    w.KeepsSpan (p.1.next x.act, p.2.next p.1 x) := by
  have hends : (p.2.beginRun p.1 x query).ends = p.2.ends := by
    unfold StmtSpans.beginRun
    cases p.1.trace.peekCursorSpan query <;> rfl
  rw [hact]
  simp only [StmtSpans.next, hact]
  exact (h.spans w hw hrec).same Iff.rfl (h.beginRun_work x query).2.1 hends rfl

/-- A run ends. -/
theorem runEnd (h : Keeping p) {x : SpanStep} (hact : x.act = .runEnd) (hen : x.act.Enabled p.1)
    (halone : x.Alone p) (hw : w ∈ p.2.stmts) (hrec : w.recording = true) :
    w.KeepsSpan (p.1.next x.act, p.2.next p.1 x) := by
  rw [hact] at hen
  obtain ⟨query, sub, rest, hframes⟩ := hen
  simp only [SpanStep.Alone, SpanStep.leaving, hact] at halone
  have hlive : (p.1.next .runEnd).livePtrs = p.1.livePtrs := by
    simp only [livePtrs, TracingSt.next, hframes, List.tail_cons]
    rfl
  have hspans := h.endRun_spans halone
  rw [hact]
  simp only [StmtSpans.next, hact]
  exact (h.spans w hw hrec).same (hlive ▸ Iff.rfl) hspans rfl rfl

/-! ## Every step -/

/-- A query ends. -/
theorem executorEnd (h : Keeping p) {x : SpanStep} {query : Ptr} {planspans : Bool}
    (hact : x.act = .executorEnd query planspans) (hen : x.act.Enabled p.1) (halone : x.Alone p)
    (hfewer : Fewer p.1 (p.1.next x.act)) (hw : w ∈ p.2.stmts) (hrec : w.recording = true) :
    w.KeepsSpan (p.1.next x.act, p.2.next p.1 x) := by
  have habove : p.2.work.above (p.1.trace.popStmtSpan query).2 = [] :=
    halone _ (by simp [SpanStep.leaving, hact])
  have hnext : p.2.next p.1 x = p.2.endQuery p.1 x query planspans := by
    simp only [StmtSpans.next, hact]
  have hquery := hen
  rw [hact] at hquery
  obtain ⟨-, ⟨q, hq, hptr⟩, -⟩ := hquery
  have hends : ActiveSpans.Ends p.2.work (p.2.next p.1 x).work _ :=
    hnext ▸ h.endQuery_ends x planspans habove
  refine h.completes hen (fun key' => ?_) (hptr ▸ List.mem_append_left _ (List.mem_map_of_mem hq))
    hfewer hends (fun ref hr => ?_) ?_ (hnext ▸ rfl) hw hrec
  · rw [hact]
    exact Option.some_inj
  · have hmem : ref ∈ (p.1.trace.popStmtSpan query).1.children.map NodeSpanEntry.ref := mem_walkEnds hr
    exact hmem
  · rw [hact]
    exact nodeEnds_stmtStack planspans _ _

/-- A call returns. -/
theorem utilityEnd (h : Keeping p) {x : SpanStep} (hact : x.act = .utilityEnd)
    (hen : x.act.Enabled p.1) (halone : x.Alone p) (hfewer : Fewer p.1 (p.1.next x.act))
    (hw : w ∈ p.2.stmts) (hrec : w.recording = true) :
    w.KeepsSpan (p.1.next x.act, p.2.next p.1 x) := by
  have hcall := hen
  rw [hact] at hcall
  obtain ⟨token, toplevel, sub, rest, hframes⟩ := hcall
  cases toplevel with
  | false =>
    have hnext : p.2.next p.1 x = p.2 := by
      simp only [StmtSpans.next, hact, hframes]
      rfl
    have hlive : (p.1.next x.act).livePtrs = p.1.livePtrs := by
      simp only [livePtrs, TracingSt.next, hact, hframes]
      rfl
    have hstack : (p.1.next x.act).trace.stmtStack = p.1.trace.stmtStack := by
      simp only [TracingSt.next, hact, hframes]
      rfl
    exact (h.spans w hw hrec).same (hlive ▸ Iff.rfl) (congrArg (·.work.spans) hnext)
      (congrArg StmtSpans.ends hnext) hstack
  | true =>
    have habove : p.2.work.above (p.1.trace.popStmtSpan token).2 = [] :=
      halone _ (by simp [SpanStep.leaving, hact, hframes, CallFrame.token])
    have hnext : p.2.next p.1 x = p.2.endUtility p.1 token := by
      simp only [StmtSpans.next, hact, hframes]
      rfl
    have hends : ActiveSpans.Ends p.2.work (p.2.next p.1 x).work
        ([] ++ [(p.1.trace.popStmtSpan token).2]) :=
      hnext ▸ .finalizeStmtSpan h.ok _ habove
    refine h.completes hen (fun key' => ?_)
      (Alive.token_live (f := .utility token true sub) (hframes ▸ List.mem_cons_self) rfl) hfewer hends
      (fun ref hr => absurd hr List.not_mem_nil) ?_ (hnext ▸ rfl) hw hrec
    · have hcomp : p.1.completes .utilityEnd = some token := by
        simp [TracingSt.completes, hframes, CallFrame.token]
      rw [hact]
      change p.1.completes .utilityEnd = some key' ↔ token = key'
      rw [hcomp]
      exact Option.some_inj
    · simp only [TracingSt.next, hact, hframes]
      rfl

/-- No step loses the span of a statement in progress, or leaves it open behind the statement. -/
theorem step (h : Keeping p) {x : SpanStep} (hen : x.act.Enabled p.1) (hx : x.Enabled p)
    (hok : x.KeepsStatements p) : Keeping (p.1.next x.act, p.2.next p.1 x) where
  toOwns := h.toOwns.step hen hx
  dated := dated_step h.dated hen
  ends_old key hkey := by
    have hold := (StmtSpans.mem_ends_next hen hkey).elim (h.ends_old key) (h.core.old key)
    exact Nat.lt_of_lt_of_le hold (nextObj_mono hen)
  levels w hw := by
    rcases StmtSpans.mem_stmts_next hen hw with hw | ⟨hnest, hlevels⟩
    · exact h.levels w hw
    · rw [hnest]
      exact List.length_pos_iff.2 hlevels
  spans w hw hrec := by
    have hfewer := (fewer_step hen).resolve_right
    have hold := fun h₁ h₂ => (StmtSpans.stmts_next h₁ h₂ : (p.2.next p.1 x).stmts = p.2.stmts) ▸ hw
    cases hact : x.act with
    | begin =>
      simp only [StmtSpans.next, hact] at hw ⊢
      exact (h.spans w hw hrec).same Iff.rfl rfl rfl rfl
    | savepoint =>
      simp only [StmtSpans.next, hact] at hw ⊢
      exact (h.spans w hw hrec).same Iff.rfl rfl rfl rfl
    | cleanup =>
      simp only [StmtSpans.next, hact] at hw ⊢
      exact (h.spans w hw hrec).same Iff.rfl rfl rfl rfl
    | release =>
      rw [hact] at hen
      obtain ⟨top, parent, rest, hlevels, -⟩ := hen
      have hlive : (p.1.next .release).livePtrs = p.1.livePtrs := by
        simp only [livePtrs, TracingSt.next, hlevels]
      have hstack : (p.1.next .release).trace.stmtStack = p.1.trace.stmtStack := by
        simp only [TracingSt.next, hlevels]
        rw [otelPgtracingSubxactCallback_other _ (by decide)]
      simp only [StmtSpans.next, hact] at hw ⊢
      exact (h.spans w hw hrec).same (hlive ▸ Iff.rfl) rfl rfl hstack
    | commit prepare => exact hact ▸ h.commit hact hok (hold (by simp [hact]) (by simp [hact])) hrec
    | abort unwound dead =>
      exact hact ▸ h.abort hact hen hx hok (hfewer (by simp [hact]))
        (hold (by simp [hact]) (by simp [hact])) hrec
    | executorStart addr isCursor ref => exact hact ▸ h.executorStart hact hx hok hw hrec
    | nodeBegin query addr tag planspans fdw =>
      exact hact ▸ h.nodeBegin hact (hold (by simp [hact]) (by simp [hact])) hrec
    | nodeEnd query node =>
      exact hact ▸ h.nodeEnd hact (hold (by simp [hact]) (by simp [hact])) hrec
    | executorEnd query planspans =>
      exact hact ▸ h.executorEnd hact hen hok.1 (hfewer (by simp [hact]))
        (hold (by simp [hact]) (by simp [hact])) hrec
    | runBegin query => exact hact ▸ h.runBegin hact (hold (by simp [hact]) (by simp [hact])) hrec
    | runEnd => exact hact ▸ h.runEnd hact hen hok.1 (hold (by simp [hact]) (by simp [hact])) hrec
    | utilityBegin addr toplevel ref => exact hact ▸ h.utilityBegin hact hx hok hw hrec
    | utilityEnd =>
      exact hact ▸ h.utilityEnd hact hen hok.1 (hfewer (by simp [hact]))
        (hold (by simp [hact]) (by simp [hact])) hrec
    | errorWhenAborted unwound =>
      exact hact ▸ h.errorWhenAborted hact hen (hfewer (by simp [hact]))
        (hold (by simp [hact]) (by simp [hact])) hrec

end Keeping

/-! ## Spans end with their statements -/

/-- The span is open while its statement is in progress, leaves once, without an error, when the end
hook of the statement ends it, and is not dropped as a leak. -/
structure SpanOwner.EndsWithStatement (w : SpanOwner) (p : TracingSt × StmtSpans) : Prop where
  isOpen_iff : p.2.work.spans.IsOpen w.ref ↔ w.key ∈ p.1.livePtrs
  once : w.key ∈ p.2.ends → p.2.work.spans.log.filter (fun x => x.1 = w.ref) = [(w.ref, .ended)]
  kept : (w.ref, SpanEnd.leaked) ∉ p.2.work.spans.log

/-- In runs in which no transaction commits inside a statement whose span records, no abort takes the
entry of such a statement that goes on, the statement stack has room for them and nothing is above what
leaves the active stack, each of their spans ends with its statement and none is dropped as a leak. -/
theorem spans_end_with_statements {p : TracingSt × StmtSpans}
    (h : stmtSpans.ReachBy (fun p x => x.KeepsStatements p) p) :
    ∀ w ∈ p.2.stmts, w.recording = true → w.EndsWithStatement p := by
  have hkeeping : Keeping p := Machine.ReachBy.invariant (m := stmtSpans) (I := Keeping) .init
    (fun _ _ hi hen hok => hi.step (hen.1 _ rfl) hen.2 hok) h
  intro w hw hrec
  have hspan := hkeeping.spans w hw hrec
  exact ⟨⟨hspan.onlyRunning, fun hin => (hspan.running hin).1⟩,
    fun hdone => hkeeping.ok.tally.log_once (hspan.ended hdone), hspan.kept⟩

/-- A cursor is declared and fetched from, and dropped when its transaction commits. -/
def cursorDropped : List SpanStep :=
  [.of .begin, .of (.utilityBegin 1 true ⟨1⟩), .of (.executorStart 2 true ⟨2⟩), .of .utilityEnd,
    .of (.utilityBegin 1 true ⟨3⟩), .of (.runBegin ⟨2, 1⟩), .of .runEnd, .of .utilityEnd,
    .of (.executorEnd ⟨2, 1⟩ true), .of (.commit false)]

theorem spans_end_with_statements_cursorDropped :
    (∀ w ∈ (cursorDropped.foldl stmtSpans.next ({}, {})).2.stmts, w.recording = true →
      w.EndsWithStatement (cursorDropped.foldl stmtSpans.next ({}, {}))) ∧
      (cursorDropped.foldl stmtSpans.next ({}, {})).2.work.spans.log =
        [(⟨1⟩, .ended), (⟨3⟩, .ended), (⟨2⟩, .ended)] := by
  have hrun : stmtSpans.Admits (fun p x => x.KeepsStatements p) ({}, {}) cursorDropped := by
    refine ⟨enabled_stmtSpans rfl trivial, ⟨by decide, trivial⟩, enabled_stmtSpans ?_ (.inr rfl),
      ⟨by decide, fun _ _ => .inr (by decide)⟩, enabled_stmtSpans ?_ ⟨.inr rfl, by decide⟩,
      ⟨by decide, fun _ => .inr (by decide)⟩, enabled_stmtSpans ⟨_, _, _, _, rfl⟩ trivial,
      ⟨by decide, trivial⟩, enabled_stmtSpans ?_ (.inr rfl), ⟨by decide, fun _ _ => .inr (by decide)⟩,
      enabled_stmtSpans ?_ trivial, ⟨by decide, trivial⟩, enabled_stmtSpans ⟨_, _, _, rfl⟩ trivial,
      ⟨by decide, trivial⟩, enabled_stmtSpans ⟨_, _, _, _, rfl⟩ trivial, ⟨by decide, trivial⟩,
      enabled_stmtSpans ?_ trivial, ⟨by decide, trivial⟩, enabled_stmtSpans ?_ trivial,
      ⟨by decide, fun w _ _ => List.not_mem_nil⟩, trivial⟩
    · exact ⟨List.cons_ne_nil _ _, by decide⟩
    · exact ⟨⟨_, _, rfl, rfl⟩, by decide⟩
    · exact ⟨List.cons_ne_nil _ _, by decide⟩
    · exact ⟨⟨_, _, rfl, rfl⟩, by decide, by decide⟩
    · exact ⟨⟨_, _, rfl, rfl⟩, by decide, by decide⟩
    · exact ⟨⟨_, rfl, rfl⟩, rfl⟩
  exact ⟨spans_end_with_statements (Machine.ReachBy.run .init hrun), by decide⟩

/-- Rolling back a savepoint takes the entry of a cursor from an earlier one that was released. -/
example : ([SpanStep.of .begin, .of .savepoint, .of (.executorStart 1 true ⟨1⟩), .of .release,
    .of .savepoint, .of (.abort 0 []), .of .cleanup, .of (.executorEnd ⟨1, 0⟩ true),
    .of (.commit false)].foldl stmtSpans.next ({}, {})).2.work.spans.log = [(⟨1⟩, .leaked)] := by
  decide

/-- A procedure is called and commits while it runs. -/
def callCommitted : TracingSt × StmtSpans :=
  [.of .begin, .of (.utilityBegin 1 true ⟨1⟩), .of (.commit false), .of .begin, .of .utilityEnd,
    .of (.commit false)].foldl stmtSpans.next stmtSpans.init

/-- The span of the `CALL` is dropped as a leak, and its end hook does not find it open. -/
theorem committing_call_leaks_span :
    stmtSpans.Reachable callCommitted ∧
      callCommitted.2.stmts = [⟨⟨1⟩, ⟨1, 0⟩, ⟨1, 0⟩, true⟩] ∧ callCommitted.2.ends = [⟨1, 0⟩] ∧
      callCommitted.2.work.spans.log = [(⟨1⟩, .leaked)] ∧
      ¬∀ w ∈ callCommitted.2.stmts, w.recording = true → w.EndsWithStatement callCommitted := by
  refine ⟨Machine.ReachBy.run .init ⟨enabled_stmtSpans rfl trivial, trivial,
    enabled_stmtSpans ⟨List.cons_ne_nil _ _, by decide⟩ (.inr rfl), trivial,
    enabled_stmtSpans ⟨⟨_, rfl, rfl⟩, rfl⟩ trivial, trivial, enabled_stmtSpans rfl trivial, trivial,
    enabled_stmtSpans ⟨_, _, _, _, rfl⟩ trivial, trivial,
    enabled_stmtSpans ⟨⟨_, rfl, rfl⟩, rfl⟩ trivial, trivial, trivial⟩, by decide, by decide, by decide,
    fun h => ?_⟩
  exact absurd (h ⟨⟨1⟩, ⟨1, 0⟩, ⟨1, 0⟩, true⟩ (by decide) rfl).kept (by decide)

end PostgresOtel
