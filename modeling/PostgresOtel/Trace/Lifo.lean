import PostgresOtel.Trace.SpanEnds

/-!
# Statement spans and the order of the active stack

An ordinary query and a traced call put their span on the active stack at their start, and a cursor's
run activates the cursor's span; each takes it off at its end.  Only the portal of `DECLARE CURSOR` is
told apart at `ExecutorStart`, so that the other portals have to be closed in the reverse order of
their opening, and inside of what was running then.
-/

set_option autoImplicit false

namespace PostgresOtel

open KeyedStack TracingSt TraceSt

/-! ## The work in progress -/

/-- The work in progress that has an item of its own on the active stack, newest first, after a step:
queries that are not a cursor's, runs of cursors and traced calls, begun since the last commit. -/
def SpanStep.begun (p : TracingSt × StmtSpans) (x : SpanStep) (begun : List ActiveItem) :
    List ActiveItem :=
  match x.act with
  | .executorStart _ isCursor ref =>
    if p.1.trace.pushesStmt ref && !isCursor then ⟨ref, false, p.1.currentLevel.level⟩ :: begun
    else begun
  | .utilityBegin _ toplevel ref =>
    if p.1.trace.pushesStmt ref && toplevel then ⟨ref, false, p.1.currentLevel.level⟩ :: begun
    else begun
  | .runBegin query =>
    match p.1.trace.peekCursorSpan query with
    | none => begun
    | some ref =>
      if p.2.work.spans.IsOpen ref ∧ ¬p.2.work.OnStack ref ∧ x.room then
        ⟨ref, true, p.1.currentLevel.level⟩ :: begun
      else begun
  | .executorEnd _ _ | .utilityEnd | .runEnd =>
    begun.filter fun i => decide (i.ref ∉ (x.leaving p).toList)
  | .commit _ => []
  | .abort _ dead => begun.filter fun i => !p.2.releases p.1 dead i.ref &&
      !(i.isActivation && decide (p.1.currentLevel.level ≤ i.nestLevel))
  | _ => begun

/-- The backend with the work in progress. -/
def nested : Machine ((TracingSt × StmtSpans) × List ActiveItem) SpanStep :=
  stmtSpans.extend [] some (fun _ _ => True) fun p x => x.begun p.1 p.2

/-- The step raises no error: a transaction or subtransaction may be rolled back, but no call is
ended. -/
def SpanStep.NoError (x : SpanStep) : Prop :=
  match x.act with
  | .abort unwound _ => unwound = 0
  | .errorWhenAborted _ => False
  | _ => True

/-- If what ends is among the work in progress, it is the newest. -/
def SpanStep.Newest (p : (TracingSt × StmtSpans) × List ActiveItem) (x : SpanStep) : Prop :=
  ∀ ref ∈ x.leaving p.1, ∀ i ∈ p.2, i.ref = ref → p.2.head? = some i

instance (p : (TracingSt × StmtSpans) × List ActiveItem) (x : SpanStep) : Decidable (x.Newest p) :=
  inferInstanceAs (Decidable (∀ ref ∈ x.leaving p.1, ∀ i ∈ p.2, i.ref = ref → p.2.head? = some i))

/-! ## The active stack lists the work in progress -/

/-- Nothing was unwound. -/
structure InOrder (a : ActiveSpans) : Prop where
  nonLifoEnd : a.nonLifoEnd = 0
  activationUnwound : a.activationUnwound = 0
  log : ∀ x ∈ a.spans.log, x.2 ≠ .unwound

namespace InOrder

variable {a a' : ActiveSpans} {refs : List OtelSpanRef}

theorem init : InOrder {} := ⟨rfl, rfl, fun _ h => absurd h List.not_mem_nil⟩

theorem ends (h : InOrder a) (hends : ActiveSpans.Ends a a' refs) : InOrder a' where
  nonLifoEnd := hends.nonLifoEnd.trans h.nonLifoEnd
  activationUnwound := hends.activationUnwound.trans h.activationUnwound
  log x hx := by
    rcases hends.others x hx with hx | hx
    · exact h.log x hx
    · rw [hx]
      decide

theorem start (h : InOrder a) (nestLevel : ℕ) (detached : Bool) : InOrder (a.start nestLevel detached) :=
  ⟨h.nonLifoEnd, h.activationUnwound, h.log⟩

theorem release (h : InOrder a) (owned : OtelSpanRef → Bool) {how : SpanEnd} (hhow : how ≠ .unwound) :
    InOrder (a.release owned how) where
  nonLifoEnd := h.nonLifoEnd
  activationUnwound := h.activationUnwound
  log x hx := by
    rcases Spans.mem_log_close.1 hx with hx | ⟨-, -, heq⟩
    · exact h.log x hx
    · rw [heq]
      exact hhow

end InOrder

/-- The newest work in progress has nothing above it. -/
theorem above_of_newest {a : ActiveSpans} {ref : OtelSpanRef}
    (h : ∀ i ∈ a.active, i.ref = ref → a.active.head? = some i) : a.above ref = [] := by
  rw [ActiveSpans.above_eq_nil_iff]
  intro i hi hon
  obtain ⟨j, hj, hjr⟩ := List.mem_map.1 hon
  have hhead := h j hj hjr
  rw [Option.mem_def.1 hi] at hhead
  rw [Option.some.inj hhead]
  exact hjr

/-- The active stack lists the work in progress, and nothing was unwound. -/
structure Mirrored (a : ActiveSpans) (begun : List ActiveItem) : Prop extends InOrder a where
  active : a.active = begun

namespace Mirrored

variable {p : TracingSt × StmtSpans} {begun : List ActiveItem}

/-- What ends in order leaves the work in progress that has not ended. -/
theorem ends {a a' : ActiveSpans} {refs off : List OtelSpanRef} (h : Mirrored a begun)
    (hends : ActiveSpans.Ends a a' (off ++ refs)) (hoff : ∀ ref ∈ off, ¬a.OnStack ref) :
    Mirrored a' (begun.filter fun i => decide (i.ref ∉ refs)) := by
  refine ⟨h.toInOrder.ends hends, ?_⟩
  rw [hends.active, h.active]
  refine List.filter_congr fun i hi => ?_
  have hnot : i.ref ∉ off := fun hm => hoff i.ref hm (List.mem_map_of_mem (h.active ▸ hi))
  simp [hnot]

/-- So do ends of spans that are off the stack. -/
theorem endsOff {a a' : ActiveSpans} {off : List OtelSpanRef} (h : Mirrored a begun)
    (hends : ActiveSpans.Ends a a' off) (hoff : ∀ ref ∈ off, ¬a.OnStack ref) : Mirrored a' begun := by
  have hall : Mirrored a' (begun.filter fun i => decide (i.ref ∉ ([] : List OtelSpanRef))) :=
    h.ends ((List.append_nil off).symm ▸ hends) hoff
  simpa using hall

/-- A statement starts. -/
theorem startStmt (h : Mirrored p.2.work begun) (hown : Owns p) (addr : ℕ) {ref : OtelSpanRef}
    (detached recording : Bool) (hfresh : p.2.Fresh ref) :
    Mirrored (p.2.startStmt p.1 addr ref detached recording).work
      (if p.1.trace.pushesStmt ref && !detached then
        ⟨ref, false, p.1.currentLevel.level⟩ :: begun else begun) := by
  have hends := ActiveSpans.Ends.startStmt hown.ok p.1.trace (p.1.newPtr addr) detached
    p.1.currentLevel hfresh.resolve_left
  have hnil := fun ref : OtelSpanRef => @List.not_mem_nil _ ref
  cases hp : p.1.trace.pushesStmt ref with
  | false =>
    rw [hp] at hends
    exact h.endsOff hends fun ref hr => absurd hr (hnil ref)
  | true =>
    have hv : ref.v ≠ 0 := of_decide_eq_true (Bool.and_eq_true_iff.1 hp).1
    rw [hp] at hends
    refine endsOff ⟨h.toInOrder.start _ detached, ?_⟩ hends fun ref hr => absurd hr (hnil ref)
    cases detached <;> simp [ActiveSpans.start, h.active, ← hfresh.resolve_left hv]

theorem step (h : Mirrored p.2.work begun) (hown : Owns p) {x : SpanStep}
    (hx : x.Enabled p) (herr : x.NoError) (hnew : x.Newest (p, begun)) :
    Mirrored (p.2.next p.1 x).work (x.begun p begun) := by
  have hnil := fun ref : OtelSpanRef => @List.not_mem_nil _ ref
  have halone : x.Alone p := by
    intro ref href
    refine above_of_newest fun i hi heq => ?_
    rw [h.active] at hi ⊢
    exact hnew ref href i hi heq
  cases hact : x.act with
  | begin =>
    simp only [StmtSpans.next, SpanStep.begun, hact]
    exact h
  | savepoint =>
    simp only [StmtSpans.next, SpanStep.begun, hact]
    exact h
  | release =>
    simp only [StmtSpans.next, SpanStep.begun, hact]
    exact h
  | cleanup =>
    simp only [StmtSpans.next, SpanStep.begun, hact]
    exact h
  | commit prepare =>
    have hreleased := h.toInOrder.release (fun _ => true) (show SpanEnd.leaked ≠ .unwound by decide)
    simp only [StmtSpans.next, SpanStep.begun, hact]
    refine ⟨⟨hreleased.nonLifoEnd, hreleased.activationUnwound, hreleased.log⟩, ?_⟩
    simp [ActiveSpans.release, ActiveSpans.dropActivations]
  | abort unwound dead =>
    have hreleased := h.toInOrder.release (p.2.releases p.1 dead)
      (show SpanEnd.released ≠ .unwound by decide)
    simp only [SpanStep.NoError, hact] at herr
    simp only [StmtSpans.next, SpanStep.begun, hact, herr]
    refine ⟨⟨hreleased.nonLifoEnd, hreleased.activationUnwound, hreleased.log⟩, ?_⟩
    simp [ActiveSpans.release, ActiveSpans.dropActivations, StmtSpans.endRuns, h.active, Bool.and_comm]
  | executorStart addr isCursor ref =>
    simp only [SpanStep.Enabled, StmtSpans.next, SpanStep.begun, hact] at hx ⊢
    have hbegan := h.startStmt hown addr isCursor x.recording hx.1
    generalize (if p.1.trace.pushesStmt ref && !isCursor then _ else _ : List ActiveItem) = now
      at hbegan ⊢
    split_ifs
    · refine hbegan.endsOff (.touch (hown.startStmt_work hx.1).1 ref) fun ref hr => ?_
      exact absurd hr (hnil ref)
    · exact hbegan
  | nodeBegin query addr tag planspans fdw =>
    simp only [StmtSpans.next, SpanStep.begun, StmtSpans.beginNode, hact]
    have htouch := ActiveSpans.Ends.touch hown.ok
      (p.2.beginNames p.1 x query (p.1.newPtr addr) tag planspans fdw)
    cases p.1.trace.childStart planspans fdw tag with
    | none => exact h.endsOff htouch fun ref hr => absurd hr (hnil ref)
    | some ref =>
      refine h.endsOff (htouch.trans (.startDetached htouch.ok p.1.currentLevel.level)) fun ref hr => ?_
      exact absurd hr (hnil ref)
  | nodeEnd query node =>
    have hoff : ∀ ref ∈ (find NodeSpanEntry.node node p.1.trace.fdwScanStack).toList.map
        NodeSpanEntry.ref, ¬p.2.work.OnStack ref := by
      intro ref hr
      obtain ⟨e, he, rfl⟩ := List.mem_map.1 hr
      refine hown.children_off (List.mem_map_of_mem (List.mem_append_right _ ?_))
      exact mem_of_find (Option.mem_toList.1 he)
    simp only [StmtSpans.next, SpanStep.begun, hact]
    exact h.endsOff (.finishes hown.ok hoff) hoff
  | executorEnd query planspans =>
    simp only [SpanStep.Alone, SpanStep.leaving, hact] at halone
    simp only [StmtSpans.next, SpanStep.begun, SpanStep.leaving, hact]
    refine h.ends (hown.endQuery_ends x planspans (halone _ rfl)) fun ref hr => ?_
    have hmem : ref ∈ (p.1.trace.popStmtSpan query).1.children.map NodeSpanEntry.ref := mem_walkEnds hr
    exact hown.children_off hmem
  | runBegin query =>
    simp only [StmtSpans.next, SpanStep.begun, StmtSpans.beginRun, hact]
    cases p.1.trace.peekCursorSpan query with
    | none => exact h
    | some ref =>
      have htouch := h.endsOff (.touch hown.ok ref) fun ref hr => absurd hr (hnil ref)
      simp only [ActiveSpans.activate]
      split_ifs
      · exact ⟨⟨htouch.nonLifoEnd, htouch.activationUnwound, htouch.log⟩,
          congrArg (List.cons _) h.active⟩
      · exact htouch
  | runEnd =>
    simp only [SpanStep.Alone, SpanStep.leaving, hact] at halone
    simp only [StmtSpans.next, SpanStep.begun, StmtSpans.endRuns, SpanStep.leaving, hact]
    cases hruns : p.2.runs with
    | nil => simpa using h
    | cons act rest =>
      rw [hruns] at halone
      have hpop := ActiveSpans.deactivate_alone hown.ok (halone act rfl)
      simp only [List.take_succ_cons, List.take_zero, List.foldl_cons, List.foldl_nil, hpop]
      refine ⟨⟨h.nonLifoEnd, h.activationUnwound, h.log⟩, ?_⟩
      rw [h.active]
      rfl
  | utilityBegin addr toplevel ref =>
    simp only [SpanStep.Enabled, StmtSpans.next, SpanStep.begun, hact] at hx ⊢
    cases toplevel with
    | true => simpa using h.startStmt hown addr false x.recording hx
    | false => simpa using h
  | utilityEnd =>
    simp only [SpanStep.Alone, SpanStep.leaving, hact] at halone
    simp only [StmtSpans.next, SpanStep.begun, SpanStep.leaving, hact]
    cases htoken : p.1.frames.head?.bind CallFrame.token with
    | none => simpa using h
    | some token =>
      rw [htoken] at halone
      have hends := ActiveSpans.Ends.finalizeStmtSpan hown.ok (p.1.trace.popStmtSpan token).1
        (halone _ rfl)
      exact h.ends ((List.nil_append _).symm ▸ hends) fun ref hr => absurd hr (hnil ref)
  | errorWhenAborted unwound =>
    simp only [SpanStep.NoError, hact] at herr

end Mirrored

theorem reachable_mirrored {p : (TracingSt × StmtSpans) × List ActiveItem}
    (h : nested.ReachBy (fun p x => x.NoError ∧ x.Newest p) p) : Mirrored p.1.2.work p.2 :=
  Machine.ReachBy.invariantOver (m := stmtSpans) (k := fun _ _ => True)
    (I := fun p => Mirrored p.1.2.work p.2) (fun _ _ _ _ _ => trivial) ⟨.init, rfl⟩
    (fun _ x hreach hi hen hok =>
      hi.step (reachable_owns hreach) (hen.1 x rfl).2 hok.1 hok.2) h

/-- In runs without errors in which, of the queries that are not a cursor's, the runs of cursors and
the traced calls, only the newest in progress ends: no span is ended or deactivated with another above
it, and none is unwound. -/
theorem statement_spans_lifo {p : (TracingSt × StmtSpans) × List ActiveItem}
    (h : nested.ReachBy (fun p x => x.NoError ∧ x.Newest p) p) :
    p.1.2.work.nonLifoEnd = 0 ∧ p.1.2.work.activationUnwound = 0 ∧
      ∀ ref, (ref, SpanEnd.unwound) ∉ p.1.2.work.spans.log := by
  have hi := reachable_mirrored h
  exact ⟨hi.nonLifoEnd, hi.activationUnwound, fun ref hm => hi.log _ hm rfl⟩

theorem enabled_nested {p : (TracingSt × StmtSpans) × List ActiveItem} {x : SpanStep}
    (h : x.act.Enabled p.1.1) (hx : x.Enabled p.1) : nested.enabled p x := by
  refine ⟨fun y hy => ?_, trivial⟩
  cases hy
  exact enabled_stmtSpans h hx

/-- A cursor is fetched from, which runs a statement, and closed. -/
def cursorInTurn : List SpanStep :=
  [.of .begin, .of (.executorStart 1 true ⟨1⟩), .of (.runBegin ⟨1, 0⟩),
    .of (.executorStart 2 false ⟨2⟩), .of (.executorEnd ⟨2, 1⟩ false), .of .runEnd,
    .of (.executorEnd ⟨1, 0⟩ false)]

theorem statement_spans_lifo_cursorInTurn :
    (cursorInTurn.foldl nested.next (({}, {}), [])).1.2.work.nonLifoEnd = 0 ∧
      (cursorInTurn.foldl nested.next (({}, {}), [])).1.2.work.spans.log =
        [(⟨2⟩, .ended), (⟨1⟩, .ended)] := by
  have hrun : nested.Admits (fun p x => x.NoError ∧ x.Newest p) (({}, {}), []) cursorInTurn := by
    refine ⟨enabled_nested rfl trivial, ⟨trivial, by decide⟩, enabled_nested ?_ ?_, ⟨trivial, by decide⟩,
      enabled_nested ?_ trivial, ⟨trivial, by decide⟩, enabled_nested ?_ ?_, ⟨trivial, by decide⟩,
      enabled_nested ?_ trivial, ⟨trivial, by decide⟩, enabled_nested ?_ trivial, ⟨trivial, by decide⟩,
      enabled_nested ?_ trivial, ⟨trivial, by decide⟩, trivial⟩
    · exact ⟨⟨_, _, rfl, rfl⟩, by decide⟩
    · exact ⟨.inr rfl, fun h => absurd h (by decide)⟩
    · exact ⟨⟨_, _, rfl, rfl⟩, by decide, by decide⟩
    · exact ⟨⟨_, _, rfl, rfl⟩, by decide⟩
    · exact ⟨.inr rfl, fun h => absurd h (by decide)⟩
    · exact ⟨⟨_, _, rfl, rfl⟩, by decide, by decide⟩
    · exact ⟨_, _, _, rfl⟩
    · exact ⟨⟨_, _, rfl, rfl⟩, by decide, by decide⟩
  exact ⟨(statement_spans_lifo (Machine.ReachBy.run .init hrun)).1, by decide⟩

/-- Two portals are opened, as by `OPEN` in a function, and the first is closed. -/
def crossedPortals : List SpanStep :=
  [.of .begin, .of (.executorStart 1 false ⟨1⟩), .of (.executorStart 2 false ⟨2⟩),
    .of (.executorEnd ⟨1, 0⟩ false)]

/-- The end of the first portal unwinds the span of the second. -/
theorem crossed_portals_unwind :
    nested.ReachBy (fun _ x => x.NoError) (crossedPortals.foldl nested.next (({}, {}), [])) ∧
      (crossedPortals.foldl nested.next (({}, {}), [])).1.2.work.nonLifoEnd = 1 ∧
      (crossedPortals.foldl nested.next (({}, {}), [])).1.2.work.spans.log =
        [(⟨2⟩, .unwound), (⟨1⟩, .ended)] ∧
      (crossedPortals.foldl nested.next (({}, {}), [])).1.1.queries.map Query.ptr = [⟨2, 1⟩] := by
  refine ⟨Machine.ReachBy.run (m := nested) .init ⟨enabled_nested rfl trivial, trivial,
    enabled_nested ?_ ?_, trivial, enabled_nested ?_ ?_, trivial, enabled_nested ?_ trivial, trivial,
    trivial⟩, by decide, by decide, by decide⟩
  · exact ⟨⟨_, _, rfl, rfl⟩, by decide⟩
  · exact ⟨.inr rfl, fun h => absurd h (by decide)⟩
  · exact ⟨⟨_, _, rfl, rfl⟩, by decide⟩
  · exact ⟨.inr rfl, fun h => absurd h (by decide)⟩
  · exact ⟨⟨_, _, rfl, rfl⟩, by decide, by decide⟩

end PostgresOtel
