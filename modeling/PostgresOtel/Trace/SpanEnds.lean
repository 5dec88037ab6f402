import PostgresOtel.Trace.SpanOwners

/-!
# Which spans the end hooks end

A plan node's spans are off the active stack, so their ends touch no other span; nor does the end of a
statement's span that has nothing above it.
-/

set_option autoImplicit false

namespace PostgresOtel

open KeyedStack TracingSt TraceSt

/-! ## Ends of plan nodes -/

namespace ActiveSpans.Ends

variable {a a' : ActiveSpans} {refs : List OtelSpanRef}

/-- More handles, which are of no span or of closed ones. -/
theorem more (h : Ends a a' []) (hok : a.Ok) {refs : List OtelSpanRef}
    (hclosed : ∀ ref ∈ refs, ¬a.spans.IsOpen ref) : Ends a a' refs := by
  refine ⟨h.ok, h.count, fun ref hs => ?_, fun x hs => ?_, h.others, ?_, h.nonLifoEnd,
    h.activationUnwound⟩
  · rw [h.isOpen ref hs]
    exact ⟨fun ho => ⟨ho.1, fun hm => hclosed ref hm ho.1⟩, fun ho => ⟨ho.1, List.not_mem_nil⟩⟩
  · rw [h.log x hs]
    constructor
    · rintro (hx | ⟨-, hm, -⟩)
      · exact .inl hx
      · exact absurd hm List.not_mem_nil
    · rintro (hx | ⟨ho, hm, -⟩)
      · exact .inl hx
      · exact absurd ho (hclosed x.1 hm)
  · rw [h.active]
    refine List.filter_congr fun i hi => ?_
    have hnot : i.ref ∉ refs := fun hm => hclosed i.ref hm (hok.opened i hi)
    simp [hnot]

theorem refl (h : a.Ok) : Ends a a [] where
  ok := h
  count := Nat.le_refl _
  isOpen := by simp
  log := by simp
  others _ hx := .inl hx
  active := by simp
  nonLifoEnd := rfl
  activationUnwound := rfl

/-- What was off the stack stays off it. -/
theorem not_onStack (h : Ends a a' refs) {ref : OtelSpanRef} (hoff : ¬a.OnStack ref) :
    ¬a'.OnStack ref := by
  intro hon
  obtain ⟨i, hi, rfl⟩ := List.mem_map.1 hon
  rw [h.active] at hi
  exact hoff (List.mem_map_of_mem (List.mem_of_mem_filter hi))

/-- Ends of spans that are off the stack leave it as it is. -/
theorem above_eq (h : Ends a a' refs) (hoff : ∀ ref ∈ refs, ¬a.OnStack ref) (ref : OtelSpanRef) :
    a'.above ref = a.above ref := by
  refine above_congr (h.active.trans (List.filter_eq_self.2 fun i hi => ?_))
  simpa using fun hm => hoff i.ref hm (List.mem_map_of_mem hi)

/-- Spans off the stack end. -/
theorem finishes (h : a.Ok) (hoff : ∀ ref ∈ refs, ¬a.OnStack ref) :
    Ends a (refs.foldl ActiveSpans.finish a) refs := by
  induction refs generalizing a with
  | nil => exact refl h
  | cons ref refs ih =>
    have hfirst := finish_alone h (above_of_not_onStack (hoff ref List.mem_cons_self))
    exact hfirst.trans (ih hfirst.ok fun r hr =>
      hfirst.not_onStack (hoff r (List.mem_cons_of_mem _ hr)))

/-- A span that is ended as soon as it is started. -/
theorem startFinish (h : a.Ok) (nestLevel : ℕ) (detached : Bool) :
    Ends a ((a.start nestLevel detached).finish (spanHandle a.spans.count)) [] := by
  have hstart := h.start nestLevel detached
  have hne : ∀ ref, a.spans.Started ref → ref ≠ spanHandle a.spans.count :=
    fun ref hs heq => Spans.not_started_next (heq ▸ hs)
  have hoff : ¬a.OnStack (spanHandle a.spans.count) := by
    intro hon
    obtain ⟨i, hi, heq⟩ := List.mem_map.1 hon
    exact hne _ (h.tally.started (h.opened i hi)) heq
  have hactive : (a.start nestLevel detached).active.filter
      (fun i => decide (i.ref ∉ [spanHandle a.spans.count])) = a.active := by
    have hall : (a.active.filter fun i => decide (i.ref ∉ [spanHandle a.spans.count])) = a.active :=
      List.filter_eq_self.2 fun i hi => by
        simpa using fun heq => hoff (List.mem_map.2 ⟨i, hi, heq⟩)
    cases detached with
    | true => exact hall
    | false =>
      refine (List.filter_cons_of_neg (by simp)).trans hall
  have hend := @finish_alone _ (spanHandle a.spans.count) hstart (by
    rw [above_eq_nil_iff]
    cases detached with
    | true =>
      intro i _ hon
      exact absurd hon hoff
    | false =>
      intro i hi _
      obtain rfl := Option.some.inj hi
      rfl)
  refine ⟨hend.ok, (Nat.le_succ _).trans hend.count, fun ref hs => ?_, fun x hs => ?_,
    hend.others, ?_, hend.nonLifoEnd, hend.activationUnwound⟩
  · rw [hend.isOpen ref (hs.mono (Nat.le_succ _)), ActiveSpans.start, Spans.isOpen_start]
    simp [hne ref hs]
  · rw [hend.log x (hs.mono (Nat.le_succ _))]
    simp [ActiveSpans.start, Spans.start, hne x.1 hs]
  · rw [hend.active, hactive]
    simp

/-- Ending no span. -/
theorem finishNone (h : a.Ok) : Ends a (a.finish otelSpanNone) [] := by
  have hnot : ¬a.spans.Started otelSpanNone := fun hs => hs.ne_zero rfl
  refine (finish_alone h (above_of_not_onStack fun hon => hnot ?_)).forget h hnot
  obtain ⟨i, hi, heq⟩ := List.mem_map.1 hon
  exact heq ▸ h.tally.started (h.opened i hi)

/-- A statement's span starts: it is kept if the statement stack has room, and ends otherwise. -/
theorem startStmt (h : a.Ok) (t : TraceSt) (key : Ptr) {ref : OtelSpanRef} (detached : Bool)
    (nest : NestLevel) (hfresh : ref.v ≠ 0 → ref = spanHandle a.spans.count) :
    Ends (if t.pushesStmt ref then a.start nest.level detached else a)
      ((a.started ref nest.level detached).finish (t.pushStmtSpan key ref detached nest).2) [] := by
  unfold started pushesStmt pushStmtSpan
  by_cases hv : ref.v = 0
  · simpa [hv] using finishNone h
  · by_cases hfull : otelStmtStackMax ≤ t.stmtStack.length
    · have hfinish := startFinish h nest.level detached
      rw [← hfresh hv] at hfinish
      simpa [hv, hfull, Nat.not_lt.2 hfull] using hfinish
    · simpa [hv, hfull, Nat.lt_of_not_le hfull] using finishNone (h.start nest.level detached)

theorem sortSpan (h : a.Ok) (parent : OtelSpanRef) (starts : Bool) (nestLevel : ℕ) :
    Ends a (a.sortSpan parent starts nestLevel) [] := by
  have htouch := touch h parent
  unfold ActiveSpans.sortSpan
  split_ifs
  · have hcount : a.spans.count = (a.touch parent).spans.count := by rw [touch_spans]
    rw [hcount]
    exact htouch.trans (startFinish htouch.ok nestLevel true)
  · exact htouch

end ActiveSpans.Ends

/-! ## Ends of several activations -/

/-- Spans are unwound, and nothing else happens to spans. -/
structure ActiveSpans.Unwinds (a a' : ActiveSpans) : Prop where
  isOpen : ∀ ref, a'.spans.IsOpen ref → a.spans.IsOpen ref
  log : ∀ x ∈ a.spans.log, x ∈ a'.spans.log
  others : ∀ x ∈ a'.spans.log, x ∈ a.spans.log ∨ x.2 = .unwound
  misused : a'.misused = a.misused

namespace ActiveSpans

variable {a a' b : ActiveSpans} {ref : OtelSpanRef}

namespace Unwinds

theorem refl : Unwinds a a := ⟨fun _ h => h, fun _ h => h, fun _ h => .inl h, rfl⟩

theorem trans (h : Unwinds a a') (h' : Unwinds a' b) : Unwinds a b where
  isOpen ref hopen := h.isOpen ref (h'.isOpen ref hopen)
  log x hx := h'.log x (h.log x hx)
  others x hx := (h'.others x hx).elim (h.others x) .inr
  misused := h'.misused.trans h.misused

theorem popItem (ref : OtelSpanRef) : Unwinds a (a.popItem ref) where
  isOpen x hx := by
    rw [popItem_spans] at hx
    exact (Spans.isOpen_close.1 hx).1
  log x hx := by
    rw [popItem_spans]
    exact Spans.mem_log_close.2 (.inl hx)
  others x hx := by
    rw [popItem_spans] at hx
    exact (Spans.mem_log_close.1 hx).imp_right fun h => h.2.2
  misused := popItem_misused

theorem deactivate (act : OtelSpanRef) : Unwinds a (a.deactivate act) := by
  unfold ActiveSpans.deactivate
  split_ifs
  · exact popItem act
  · exact refl

theorem deactivates (acts : List OtelSpanRef) : Unwinds a (acts.foldl ActiveSpans.deactivate a) := by
  induction acts generalizing a with
  | nil => exact refl
  | cons act acts ih => exact (deactivate act).trans ih

end Unwinds

/-- What is above an item that stays was above it before. -/
theorem above_popItem (h : a.Ok) (act : OtelSpanRef) :
    (a.popItem act).above ref ⊆ a.above ref := by
  by_cases hact : a.OnStack act
  · by_cases hon : (a.popItem act).OnStack ref
    · obtain ⟨i, rest, hsplit, -, htail⟩ := split_onStack hact
      have hactive : (a.popItem act).active = rest := by
        rw [popItem, if_pos hact]
        exact htail
      have hin : ref ∈ rest.map ActiveItem.ref := hactive ▸ hon
      have hnd := h.once
      rw [hsplit, List.append_cons, List.map_append] at hnd
      have hbefore : ∀ j ∈ a.above act ++ [i], j.ref ≠ ref := fun j hj =>
        (List.nodup_append.1 hnd).2.2 _ (List.mem_map_of_mem hj) _ hin
      have hon' : a.OnStack ref := by
        unfold OnStack
        rw [hsplit, List.append_cons, List.map_append]
        exact List.mem_append_right _ hin
      rw [above, if_pos hon, above, if_pos hon', hactive, hsplit, List.append_cons,
        List.takeWhile_append_of_pos fun j hj => decide_eq_true (hbefore j hj)]
      exact List.subset_append_right _ _
    · rw [above_of_not_onStack hon]
      exact List.nil_subset _
  · rw [popItem, if_neg hact]
    exact List.Subset.refl _

/-- A span that is above none of the activations stays open. -/
theorem deactivates_isOpen {acts : List OtelSpanRef} (hok : a.Ok) (h : a.spans.IsOpen ref)
    (habove : ∀ act ∈ acts, ∀ i ∈ a.above act, i.ref ≠ ref) :
    (acts.foldl deactivate a).spans.IsOpen ref := by
  induction acts generalizing a with
  | nil => exact h
  | cons act acts ih =>
    rw [List.foldl_cons]
    have hact := habove act List.mem_cons_self
    have hrest := fun act' hact' => habove act' (List.mem_cons_of_mem act hact')
    unfold deactivate
    split_ifs
    · refine ih (hok.popItem act) ?_ fun act' hact' i hi =>
        hrest act' hact' i (above_popItem hok act hi)
      rw [popItem_spans]
      refine Spans.isOpen_close.2 ⟨h, List.any_eq_false.2 fun i hi => ?_⟩
      simp [hact i hi]
    · exact ih hok h hrest

end ActiveSpans

namespace TraceSt

/-- What the end walk over the nodes ends. -/
def walkEnds (planspans : Bool) : TraceSt → List PlanNode → List OtelSpanRef
  | _, [] => []
  | t, n :: ns => t.childEnds planspans n ++ (t.nodeEnd planspans n).walkEnds planspans ns

theorem mem_childEnds {t : TraceSt} {planspans : Bool} {n : PlanNode} {ref : OtelSpanRef}
    (h : ref ∈ t.childEnds planspans n) : ref ∈ t.children.map NodeSpanEntry.ref := by
  unfold childEnds at h
  rcases List.mem_append.1 h with h | h
  · split_ifs at h
    · obtain ⟨c, hc, rfl⟩ := List.mem_map.1 h
      have hc := Option.mem_toList.1 hc
      unfold planspansNodeEndSpan at hc
      split_ifs at hc
      · obtain ⟨e, he, rfl⟩ := Option.map_eq_some_iff.1 hc
        exact List.mem_map_of_mem (List.mem_append_left _ (mem_of_find he))
    · exact absurd h List.not_mem_nil
  · split_ifs at h
    · obtain ⟨e, he, rfl⟩ := List.mem_map.1 h
      have he := Option.mem_toList.1 he
      exact List.mem_map_of_mem (List.mem_append_right _ (mem_of_find he))
    · exact absurd h List.not_mem_nil

theorem mem_walkEnds {t : TraceSt} {planspans : Bool} {nodes : List PlanNode} {ref : OtelSpanRef}
    (h : ref ∈ t.walkEnds planspans nodes) : ref ∈ t.children.map NodeSpanEntry.ref := by
  induction nodes generalizing t with
  | nil => exact absurd h List.not_mem_nil
  | cons n ns ih =>
    rcases List.mem_append.1 h with h | h
    · exact mem_childEnds h
    · exact ((childrenOf_nodeEnd planspans t n).map _).subset (ih h)

end TraceSt

namespace ActiveSpans.Ends

variable {a : ActiveSpans}

theorem endNode (h : a.Ok) (x : SpanStep) (planspans : Bool) (stmtSpan : OtelSpanRef)
    (nestLevel : ℕ) {t : TraceSt} (n : PlanNode)
    (hoff : ∀ ref ∈ t.children.map NodeSpanEntry.ref, ¬a.OnStack ref) :
    Ends a (x.endNode planspans stmtSpan nestLevel t a n) (t.childEnds planspans n) := by
  have hended : Ends a ((t.childEnds planspans n).foldl ActiveSpans.finish a)
      (t.childEnds planspans n) := finishes h fun ref hr => hoff ref (mem_childEnds hr)
  unfold SpanStep.endNode
  simp only
  split_ifs
  · have hsort := hended.trans (sortSpan hended.ok (planspansParent t (x.ancestors n.ptr) stmtSpan)
      (x.sortStarts n.ptr) nestLevel)
    rwa [List.append_nil] at hsort
  · exact hended

theorem endNodes (h : a.Ok) (x : SpanStep) (planspans : Bool) (stmtSpan : OtelSpanRef)
    (nestLevel : ℕ) {t : TraceSt} (nodes : List PlanNode)
    (hoff : ∀ ref ∈ t.children.map NodeSpanEntry.ref, ¬a.OnStack ref) :
    Ends a (x.endNodes planspans stmtSpan nestLevel t a nodes) (t.walkEnds planspans nodes) := by
  induction nodes generalizing a t with
  | nil => exact refl h
  | cons n ns ih =>
    have hfirst := endNode h x planspans stmtSpan nestLevel n hoff
    refine hfirst.trans (ih hfirst.ok fun ref hr => hfirst.not_onStack (hoff ref ?_))
    exact ((childrenOf_nodeEnd planspans t n).map _).subset hr

theorem finalizeStmtSpan (h : a.Ok) (t : TraceSt) {ref : OtelSpanRef} (habove : a.above ref = []) :
    Ends a (a.finalizeStmtSpan t ref) [ref] := by
  unfold ActiveSpans.finalizeStmtSpan
  split_ifs with hv
  · refine (refl h).more h fun r hr hopen => ?_
    rw [List.mem_singleton.1 hr] at hopen
    exact (h.tally.started hopen).ne_zero hv
  · have hend := finish_alone h habove
    exact hend.trans (touch hend.ok _)

end ActiveSpans.Ends

/-! ## What the hooks end -/

/-- The statement's span that the step ends, or the activation that it pops. -/
def SpanStep.leaving (p : TracingSt × StmtSpans) (x : SpanStep) : Option OtelSpanRef :=
  match x.act with
  | .executorEnd query _ => some (p.1.trace.popStmtSpan query).2
  | .utilityEnd => (p.1.frames.head?.bind CallFrame.token).map fun token =>
      (p.1.trace.popStmtSpan token).2
  | .runEnd => p.2.runs.head?
  | _ => none

/-- Nothing is above what leaves the active stack. -/
def SpanStep.Alone (p : TracingSt × StmtSpans) (x : SpanStep) : Prop :=
  ∀ ref ∈ x.leaving p, p.2.work.above ref = []

instance (p : TracingSt × StmtSpans) (x : SpanStep) : Decidable (x.Alone p) :=
  inferInstanceAs (Decidable (∀ ref ∈ x.leaving p, p.2.work.above ref = []))

namespace Owns

variable {p : TracingSt × StmtSpans}

/-- Statements and plan nodes have different spans. -/
theorem stmt_ne_node (h : Owns p) {w c : SpanOwner} (hw : w ∈ p.2.stmts) (hc : c ∈ p.2.nodes) :
    w.ref ≠ c.ref := by
  have hnd := h.once
  rw [List.map_append] at hnd
  exact (List.nodup_append.1 hnd).2.2 _ (List.mem_map_of_mem hw) _ (List.mem_map_of_mem hc)

/-- A handle is of one statement. -/
theorem stmt_unique (h : Owns p) {w w' : SpanOwner} (hw : w ∈ p.2.stmts) (hw' : w' ∈ p.2.stmts)
    (heq : w.ref = w'.ref) : w = w' := by
  have hnd := h.once
  rw [List.map_append] at hnd
  exact List.inj_on_of_nodup_map (List.nodup_append.1 hnd).1 hw hw' heq

/-- An entry with a statement's span is the statement's. -/
theorem entry_stmt (h : Owns p) {w : SpanOwner} (hw : w ∈ p.2.stmts) {e : StmtSpanEntry}
    (he : e ∈ p.1.trace.stmtStack) (heq : e.ref = w.ref) :
    e.key = w.key ∧ e.subxactLevel = w.nest := by
  obtain ⟨w', hw', href, hkey, hnest⟩ := h.entries e he
  obtain rfl := h.stmt_unique hw' hw (href.trans heq)
  exact ⟨hkey.symm, hnest.symm⟩

/-- What `pop_stmt_span` returns is null or of an entry at the address, and of no entry that is left. -/
theorem popped (h : Owns p) (key : Ptr) :
    ((p.1.trace.popStmtSpan key).2 = otelSpanNone ∨ ∃ e ∈ p.1.trace.stmtStack,
      e.ref = (p.1.trace.popStmtSpan key).2 ∧ e.key.addr = key.addr) ∧
    ∀ e ∈ (p.1.trace.popStmtSpan key).1.stmtStack, e.ref ≠ (p.1.trace.popStmtSpan key).2 := by
  have hnull : ∀ e ∈ p.1.trace.stmtStack, e.ref ≠ otelSpanNone := by
    intro e he heq
    obtain ⟨w, hw, href, -⟩ := h.entries e he
    exact (h.started w (List.mem_append_left _ hw)).ne_zero (by rw [href, heq]; rfl)
  unfold popStmtSpan
  cases hfind : find StmtSpanEntry.key key p.1.trace.stmtStack with
  | none =>
    exact ⟨.inl rfl, fun e he => hnull e ((remove_sublist key).subset he)⟩
  | some e =>
    refine ⟨.inr ⟨e, mem_of_find hfind, rfl, addr_of_find hfind⟩, fun e' he' heq => ?_⟩
    obtain ⟨l₁, l₂, hl, hrem⟩ := remove_of_find hfind
    have hin : e' ∈ l₁ ++ l₂ := by
      have he' : e' ∈ remove StmtSpanEntry.key key p.1.trace.stmtStack := he'
      rwa [hrem] at he'
    have hnd := h.entries_once
    rw [hl, List.map_append, List.map_cons] at hnd
    refine (List.nodup_middle.1 hnd).notMem ?_
    rw [← List.map_append]
    exact List.mem_map.2 ⟨e', hin, heq⟩

/-- A statement's span is no plan node's. -/
theorem stmt_not_child (h : Owns p) {w : SpanOwner} (hw : w ∈ p.2.stmts) :
    w.ref ∉ p.1.trace.children.map NodeSpanEntry.ref := by
  intro hm
  obtain ⟨e, he, heq⟩ := List.mem_map.1 hm
  obtain ⟨c, hc, hce⟩ := List.mem_map.1 (h.children e he)
  exact h.stmt_ne_node hw hc (heq.symm.trans hce.symm)

/-- The spans of plan nodes are off the active stack. -/
theorem children_off (h : Owns p) {ref : OtelSpanRef}
    (href : ref ∈ p.1.trace.children.map NodeSpanEntry.ref) : ¬p.2.work.OnStack ref := by
  intro hon
  obtain ⟨i, hi, rfl⟩ := List.mem_map.1 hon
  obtain ⟨w, hw, heq⟩ := List.mem_map.1 (h.active i hi)
  exact h.stmt_not_child hw (heq ▸ href)

/-- The end of a run pops its activation, and no span ends with it. -/
theorem endRun_spans (h : Owns p) (halone : ∀ act ∈ p.2.runs.head?, p.2.work.above act = []) :
    (p.2.endRuns 1).work.spans = p.2.work.spans := by
  unfold StmtSpans.endRuns
  cases hruns : p.2.runs with
  | nil => rfl
  | cons act rest =>
    rw [hruns] at halone
    simp [ActiveSpans.deactivate_alone h.ok (halone act rfl)]

/-- The end of a query ends the spans of its plan nodes and its own. -/
theorem endQuery_ends (h : Owns p) (x : SpanStep) {query : Ptr} (planspans : Bool)
    (habove : p.2.work.above (p.1.trace.popStmtSpan query).2 = []) :
    ActiveSpans.Ends p.2.work (p.2.endQuery p.1 x query planspans).work
      ((p.1.trace.popStmtSpan query).1.walkEnds planspans
        ((p.1.queries.filter fun q => q.ptr = query).flatMap Query.nodes) ++
          [(p.1.trace.popStmtSpan query).2]) := by
  have htouch := ActiveSpans.Ends.touch h.ok (p.1.trace.popStmtSpan query).2
  have hwalk := ActiveSpans.Ends.endNodes htouch.ok x planspans (p.1.trace.popStmtSpan query).2
    p.1.currentLevel.level (t := (p.1.trace.popStmtSpan query).1)
    ((p.1.queries.filter fun q => q.ptr = query).flatMap Query.nodes)
    fun ref hr => htouch.not_onStack (h.children_off hr)
  have hwalked := htouch.trans hwalk
  have hoff : ∀ ref ∈ (p.1.trace.popStmtSpan query).1.walkEnds planspans
      ((p.1.queries.filter fun q => q.ptr = query).flatMap Query.nodes), ¬p.2.work.OnStack ref := by
    intro ref hr
    have hmem : ref ∈ (p.1.trace.popStmtSpan query).1.children.map NodeSpanEntry.ref := mem_walkEnds hr
    exact h.children_off hmem
  refine hwalked.trans (.finalizeStmtSpan hwalked.ok _ ?_)
  rw [hwalked.above_eq hoff]
  exact habove

end Owns

end PostgresOtel
