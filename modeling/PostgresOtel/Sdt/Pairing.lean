import PostgresOtel.Sdt.Held

/-!
# A `DONE` ends the span of its `START`

The bridge matches a `DONE` by its family against the top of the phase stack.  `Pairs` says when that
is the right match: the stack is what the newer phases have pushed, the older ones have nothing open,
and no phase that pushed nothing has an entry of its own family next below it.
-/

set_option autoImplicit false

namespace PostgresOtel

open SdtSt

/-- No phase that pushed nothing finds an entry of its own family next below it. -/
def Safe : List CorePhase → Prop
  | [] => True
  | p :: ps => (p.pushed = none → ∀ e ∈ (entriesOf ps).head?, e.2 ≠ p.phase) ∧ Safe ps

structure Pairs (clientOrWorker : Bool) (s : SdtSt) (young old : List CorePhase) : Prop where
  held : Held clientOrWorker s
  split : s.allPhases = young ++ old
  stack : s.sdtStack = entriesOf young
  safe : Safe young
  closed : ∀ p ∈ old, ∀ ref, p.pushed = some ref → ∀ o ∈ s.spans.opened, o.ref ≠ ref

/-- The steps of runs that keep the brackets matched: no handle is forgotten, and a `START` that
pushes nothing does not find an entry of its own family on top. -/
def SdtAct.KeepsPairs (s : SdtSt) (a : SdtAct) : Prop :=
  a.KeepsHandles s ∧ ∀ phase env, a = .phaseStart phase env → s.startPushes phase env = false →
    ∀ e ∈ s.sdtStack.head?, e.2 ≠ phase

theorem Safe.drop {phases : List CorePhase} (h : Safe phases) (n : ℕ) : Safe (phases.drop n) := by
  induction n generalizing phases with
  | zero => exact h
  | succ n ih =>
    cases phases with
    | nil => exact h
    | cons p ps => exact ih h.2

/-- Dropping phases without an entry drops no entry. -/
theorem entriesOf_drop {phases : List CorePhase} {n : ℕ}
    (h : ∀ p ∈ phases.take n, p.entry = none) : entriesOf (phases.drop n) = entriesOf phases := by
  have hnone : entriesOf (phases.take n) = [] := List.filterMap_eq_nil_iff.2 h
  have hsplit : entriesOf phases = entriesOf (phases.take n) ++ entriesOf (phases.drop n) := by
    rw [entriesOf, entriesOf, entriesOf, ← List.filterMap_append, List.take_append_drop]
  rw [hsplit, hnone, List.nil_append]

namespace Pairs

variable {c : Bool} {s s' : SdtSt} {env : SdtEnv} {young old : List CorePhase}

theorem init (c : Bool) : Pairs c {} [] [] where
  held := held_init c
  split := rfl
  stack := rfl
  safe := trivial
  closed _ h := absurd h List.not_mem_nil

/-- The brackets stay matched as long as the stack and the phases stay, and nothing is reopened. -/
theorem keep (h : Pairs c s young old) (hh : Held c s') (hstack : s'.sdtStack = s.sdtStack)
    (hall : s'.allPhases = s.allPhases)
    (hopen : ∀ o ∈ s'.spans.opened, o ∈ s.spans.opened ∨ s.spans.count < o.ref.v) :
    Pairs c s' young old := by
  refine ⟨hh, hall.trans h.split, hstack.trans h.stack, h.safe, fun p hp ref href o ho heq => ?_⟩
  rcases hopen o ho with hin | hnew
  · exact h.closed p hp ref href o hin heq
  · have hmem : p ∈ s.allPhases := by
      rw [h.split]
      exact List.mem_append_right _ hp
    have hle := (h.held.pushed p hmem ref href).1
    rw [heq] at hnew
    omega

/-- The brackets are matched when the stack is empty and the spans of all phases are closed. -/
theorem of_empty (hh : Held c s) (hstack : s.sdtStack = [])
    (hclosed : ∀ p ∈ s.allPhases, ∀ ref, p.pushed = some ref → ∀ o ∈ s.spans.opened, o.ref ≠ ref) :
    Pairs c s [] s.allPhases :=
  ⟨hh, rfl, hstack, trivial, hclosed⟩

/-! ## Phases -/

theorem phaseStart (h : Pairs c s young old) (phase : SdtPhase) (hc : env.clientOrWorker = c)
    (hok : s.startPushes phase env = false → ∀ e ∈ s.sdtStack.head?, e.2 ≠ phase) :
    ∃ p, Pairs c (s.next (.phaseStart phase env)) (p :: young) old := by
  have hheld := h.held.phaseStart phase hc
  rcases h.held.phaseStart_cases phase hc with ⟨hp, hnext⟩ |
    ⟨spans', ref, -, hnext, -, -, hopen, -, hnew⟩
  · rw [hnext] at hheld ⊢
    refine ⟨⟨phase, env.inCritSection, s.spans.count, none⟩, hheld, ?_, h.stack,
      ⟨fun _ => ?_, h.safe⟩, h.closed⟩
    · exact congrArg (List.cons _) h.split
    · rw [← h.stack]
      exact hok hp
  · rw [hnext] at hheld ⊢
    refine ⟨_, hheld, congrArg (List.cons _) h.split, congrArg (List.cons _) h.stack,
      ⟨fun hnone => absurd hnone (Option.some_ne_none ref), h.safe⟩,
      fun p hp ref' href' o ho heq => ?_⟩
    rcases hopen o ho with hin | ⟨-, heq'⟩
    · exact h.closed p hp ref' href' o hin heq
    · have hmem : p ∈ s.allPhases := by
        rw [h.split]
        exact List.mem_append_right _ hp
      have hle := (h.held.pushed p hmem ref' href').1
      have hpos := (hheld.ordered.2 o ho).1
      rw [← heq, heq'] at hle
      rw [heq'] at hpos
      omega

/-- Nothing open is above the span of the phase whose entry is on top. -/
theorem nothing_above (h : Pairs c s young old) {p : CorePhase} {ps : List CorePhase}
    (hyoung : young = p :: ps) {ref : OtelSpanRef} (hpushed : p.pushed = some ref) :
    ∀ x ∈ s.spans.opened, s.spans.above ref x = false := by
  intro x hx
  by_contra hne
  rw [Bool.not_eq_false, Spans.above, Bool.and_eq_true, Bool.and_eq_true, decide_eq_true_eq,
    Bool.not_eq_true'] at hne
  obtain ⟨⟨hd, hlt⟩, hopen⟩ := hne
  obtain ⟨o, ho, href⟩ := List.any_eq_true.1 hopen
  have hpos := (h.held.ordered.2 o ho).1
  rw [(of_decide_eq_true href).1] at hpos
  have hin := h.held.phaseHeld x hx hd
  have hentry : p.entry = some (ref, p.phase) := by rw [CorePhase.entry, hpushed]; rfl
  rw [h.stack, hyoung, Held.entriesOf_cons, hentry] at hin
  rcases List.mem_cons.1 hin with heq | hin
  · rw [heq] at hlt
    exact Int.lt_irrefl _ hlt
  · obtain ⟨e, he, href⟩ := List.mem_map.1 hin
    obtain ⟨q, hq, hqe⟩ := List.mem_filterMap.1 he
    obtain ⟨ref', hq', rfl⟩ := Option.map_eq_some_iff.1 hqe
    have hall : s.allPhases = p :: (ps ++ old) := by rw [h.split, hyoung]; rfl
    have hsince := h.held.since
    rw [hall, List.pairwise_cons] at hsince
    have hle := hsince.1 q (List.mem_append_left _ hq) ref' hq'
    have hfresh := (h.held.pushed p (hall ▸ List.mem_cons_self) ref hpushed).2.2.2
    change ref' = x.ref at href
    rw [href] at hle
    omega

/-- What a `DONE` does to the spans is to end the one its `START` pushed, if it is open. -/
theorem phaseDone (h : Pairs c s young old) (hen : (SdtAct.phaseDone env).Enabled c s)
    {p : CorePhase} {ps : List CorePhase} (hphases : s.phases = p :: ps) :
    (∃ young' old', Pairs c (s.next (.phaseDone env)) young' old') ∧
      (s.next (.phaseDone env)).spans.opened =
        (s.spans.close (fun o => p.pushed = some o.ref) .ended).opened ∧
      (s.next (.phaseDone env)).spans.log =
        (s.spans.close (fun o => p.pushed = some o.ref) .ended).log := by
  have hheld := h.held.phaseDone hen
  obtain ⟨hc, p', ps', hphases', hcrit⟩ := hen
  obtain ⟨rfl, rfl⟩ := List.cons.inj (hphases.symm.trans hphases')
  have hnext : s.next (.phaseDone env) = { s.fire env (.phaseDone p.phase) with phases := ps } := by
    simp only [SdtSt.next, hphases]
  have hall : p :: (ps ++ s.abandoned) = young ++ old := by
    rw [← h.split, SdtSt.allPhases, hphases]
    rfl
  cases hyoung : young with
  | nil =>
    rw [hyoung] at hall
    have hstack : s.sdtStack = [] := by rw [h.stack, hyoung]; rfl
    have hfire : s.fire env (.phaseDone p.phase) = s :=
      Held.phaseDone_skip (by rw [hstack]; exact fun _ he => absurd he (by simp))
    rw [hnext, hfire] at hheld ⊢
    have hold : ∀ q ∈ p :: (ps ++ s.abandoned), ∀ ref, q.pushed = some ref →
        ∀ o ∈ s.spans.opened, o.ref ≠ ref := by
      rw [hall]
      exact h.closed
    have hnone : s.spans.close (fun o => p.pushed = some o.ref) .ended = s.spans :=
      Spans.close_none fun o ho => decide_eq_false fun hp =>
        hold p List.mem_cons_self o.ref hp o ho rfl
    rw [hnone]
    exact ⟨⟨_, _, of_empty hheld hstack fun q hq => hold q (List.mem_cons_of_mem _ hq)⟩, rfl, rfl⟩
  | cons q rest =>
    rw [hyoung] at hall
    obtain ⟨rfl, hrest⟩ := List.cons.inj hall
    have hsafe := h.safe
    rw [hyoung] at hsafe
    have hstack := h.stack
    rw [hyoung, Held.entriesOf_cons] at hstack
    cases hpushed : p.pushed with
    | none =>
      have hentry : p.entry = none := by rw [CorePhase.entry, hpushed]; rfl
      rw [hentry, Option.toList_none, List.nil_append] at hstack
      have hfire : s.fire env (.phaseDone p.phase) = s :=
        Held.phaseDone_skip (by rw [hstack]; exact hsafe.1 hpushed)
      rw [hnext, hfire] at hheld ⊢
      have hnone : s.spans.close (fun o => (none : Option OtelSpanRef) = some o.ref) .ended =
          s.spans := Spans.close_none fun o _ => decide_eq_false (Option.some_ne_none _).symm
      rw [hnone]
      exact ⟨⟨rest, old, hheld, hrest, hstack, hsafe.2, h.closed⟩, rfl, rfl⟩
    | some ref =>
      have hentry : p.entry = some (ref, p.phase) := by rw [CorePhase.entry, hpushed]; rfl
      rw [hentry] at hstack
      have hmem : p ∈ s.allPhases := by
        rw [SdtSt.allPhases, hphases]
        exact List.mem_cons_self
      have hfire := h.held.phaseDone_own hmem hpushed hstack hc hcrit
      rw [hnext, hfire] at hheld ⊢
      have halone := Spans.finish_alone h.held.ordered (h.nothing_above hyoung hpushed)
      have hsame : (fun o : OpenSpan => decide (some ref = some o.ref)) =
          fun o => decide (o.ref = ref) := by
        funext o
        exact decide_eq_decide.2 ⟨fun heq => (Option.some.inj heq).symm, fun heq => heq ▸ rfl⟩
      rw [hsame]
      refine ⟨⟨rest, old, hheld, hrest, rfl, hsafe.2, fun q hq ref' href' o ho => ?_⟩, halone⟩
      exact h.closed q hq ref' href' o (Spans.mem_finish h.held.ordered ho).1

/-- A commit forgets entries whose spans are closed. -/
theorem transactionCommit (h : Pairs c s young old)
    (hok : SdtAct.KeepsHandles s (.transactionCommit env))
    (hheld : Held c (s.next (.transactionCommit env))) :
    ∃ young' old', Pairs c (s.next (.transactionCommit env)) young' old' := by
  by_cases hrun : s.enabledMask .transactionCommit = true ∧ Admits env .transactionCommit
  · have hnext : s.next (.transactionCommit env) =
        { s.endTxnSpan with sdtStack := [], sortStack := [] }.sdtSyncProbeMask := by
      simp only [SdtSt.next, SdtSt.fire, if_pos hrun.1, otelSdtHook, if_pos hrun.2, dispatch]
    obtain ⟨-, -, -, hphases, haband, -, -⟩ := Held.endTxnSpan_same s
    have hall : (s.next (.transactionCommit env)).allPhases = s.allPhases := by
      rw [hnext]
      exact Held.allPhases_congr hphases haband
    refine ⟨_, _, of_empty hheld (by rw [hnext]; rfl) fun p hp ref href o ho heq => ?_⟩
    rw [hall, h.split] at hp
    rw [hnext] at ho
    have hin := (h.held.mem_endTxnSpan ho).1
    rcases List.mem_append.1 hp with hp | hp
    · refine (hok hrun.1 o hin).1 ?_
      rw [h.stack]
      refine List.mem_map.2 ⟨(ref, p.phase), List.mem_filterMap.2 ⟨p, hp, ?_⟩, heq.symm⟩
      rw [CorePhase.entry, href]
      rfl
    · exact h.closed p hp ref href o hin heq
  · have hnext : s.next (.transactionCommit env) = s := by
      simp only [SdtSt.next, SdtSt.fire, otelSdtHook]
      split_ifs with hm ha
      · exact absurd ⟨hm, ha⟩ hrun
      · rfl
      · rfl
    rw [hnext]
    exact ⟨_, _, h⟩

/-- A caught error ends phases that have no entry. -/
theorem caughtError (h : Pairs c s young old) {ended : ℕ}
    (hok : SdtAct.KeepsHandles s (.caughtError ended)) :
    ∃ young' old', Pairs c (s.next (.caughtError ended)) young' old' := by
  have hheld := h.held.caughtError hok
  set n := min ended s.phases.length
  have hall : (s.next (.caughtError ended)).allPhases = s.allPhases.drop n := by
    change s.phases.drop ended ++ s.abandoned = _
    rw [SdtSt.allPhases, List.drop_append_of_le_length (Nat.min_le_right _ _)]
    rcases Nat.le_total ended s.phases.length with hle | hle
    · rw [Nat.min_eq_left hle]
    · rw [Nat.min_eq_right hle, List.drop_of_length_le hle, List.drop_length]
  have hentry : ∀ p ∈ young.take n, p.entry = none := by
    intro p hp
    by_contra hsome
    obtain ⟨e, he⟩ := Option.ne_none_iff_exists'.1 hsome
    have hin : p ∈ s.phases.take ended := by
      have htake : p ∈ s.allPhases.take n := by
        rw [h.split, List.take_append]
        exact List.mem_append_left _ hp
      rw [SdtSt.allPhases, List.take_append_of_le_length (Nat.min_le_right _ _)] at htake
      exact (List.take_sublist_take_left (Nat.min_le_left _ _)).subset htake
    refine hok p hin e he ?_
    rw [h.stack]
    exact List.mem_filterMap.2 ⟨p, List.mem_of_mem_take hp, he⟩
  refine ⟨young.drop n, old.drop (n - young.length), hheld, ?_, ?_, h.safe.drop n,
    fun p hp => h.closed p (List.mem_of_mem_drop hp)⟩
  · rw [hall, h.split, List.drop_append]
  · rw [entriesOf_drop hentry]
    exact h.stack

/-! ## Every step -/

/-- The stack and the phases stay and nothing is reopened. -/
def Undisturbed (s s' : SdtSt) : Prop :=
  s'.sdtStack = s.sdtStack ∧ s'.allPhases = s.allPhases ∧
    ∀ o ∈ s'.spans.opened, o ∈ s.spans.opened ∨ s.spans.count < o.ref.v

theorem undisturbed_refl : Undisturbed s s := ⟨rfl, rfl, fun _ ho => .inl ho⟩

theorem startSpan_undisturbed (env : SdtEnv) (session detached : Bool) :
    Undisturbed s (s.startSpan env session detached).1 := by
  unfold startSpan
  split_ifs
  · refine ⟨rfl, rfl, List.forall_mem_cons.2 ⟨.inr ?_, fun o ho => .inl ho⟩⟩
    change (s.spans.count : ℤ) < (s.spans.count : ℤ) + 1
    omega
  · exact undisturbed_refl

/-- The probes of sorts, of a transaction's start and of recovery leave the brackets alone. -/
theorem fire_undisturbed (hord : s.spans.Ordered) {id : PgSdtProbeId}
    (hid : id ∈ [PgSdtProbeId.transactionStart, .sortStart, .sortDone, .recoveryXactCommit]) :
    Undisturbed s (s.fire env id) := by
  refine SdtSt.fire_cases (P := Undisturbed s) id undisturbed_refl fun _ _ => ?_
  have hfinish {s' : SdtSt} (h : Undisturbed s s') (hord' : s'.spans.Ordered) (ref : OtelSpanRef) :
      Undisturbed s { s' with spans := s'.spans.finish ref } :=
    ⟨h.1, h.2.1, fun o ho => h.2.2 o (Spans.mem_finish hord' ho).1⟩
  simp only [List.mem_cons, List.not_mem_nil, or_false] at hid
  rcases hid with rfl | rfl | rfl | rfl
  · simp only [dispatch]
    split_ifs
    · exact startSpan_undisturbed env false true
    · exact undisturbed_refl
  · simp only [dispatch]
    split_ifs
    · exact startSpan_undisturbed env env.noOwner true
    · exact undisturbed_refl
  · cases hstack : s.sortStack with
    | nil =>
      have hsame : s.dispatch env .sortDone = s := by simp only [dispatch, hstack]
      rw [hsame]
      exact undisturbed_refl
    | cons ref rest =>
      have hnext : s.dispatch env .sortDone =
          { { s with sortStack := rest }.sdtSyncProbeMask with spans := s.spans.finish ref } := by
        simp only [dispatch, hstack]
        rfl
      rw [hnext]
      exact ⟨rfl, rfl, fun o ho => .inl (Spans.mem_finish hord ho).1⟩
  · simp only [dispatch]
    split_ifs
    · refine hfinish (startSpan_undisturbed ..) ?_ _
      unfold startSpan
      split_ifs
      · exact hord.start ..
      · exact hord
    · exact undisturbed_refl

theorem step (h : Pairs c s young old) {a : SdtAct} (hen : a.Enabled c s) (hok : a.KeepsPairs s) :
    ∃ young' old', Pairs c (s.next a) young' old' := by
  have hheld := h.held.step hen hok.1
  have hkeep (hu : Undisturbed s (s.next a)) : ∃ young' old', Pairs c (s.next a) young' old' :=
    ⟨young, old, h.keep hheld hu.1 hu.2.1 hu.2.2⟩
  cases a with
  | phaseStart phase env =>
    obtain ⟨p, hp⟩ := h.phaseStart phase hen (hok.2 phase env rfl)
    exact ⟨_, _, hp⟩
  | phaseDone env =>
    obtain ⟨hc, p, ps, hphases, hcrit⟩ := hen
    exact (h.phaseDone ⟨hc, p, ps, hphases, hcrit⟩ hphases).1
  | sortStart env => exact hkeep (fire_undisturbed h.held.ordered (by simp))
  | sortDone env => exact hkeep (fire_undisturbed h.held.ordered (by simp))
  | transactionStart env => exact hkeep (fire_undisturbed h.held.ordered (by simp))
  | transactionCommit env => exact h.transactionCommit hok.1 hheld
  | abortTransaction env unwinds =>
    refine ⟨_, _, of_empty hheld ?_ fun p _ ref _ o ho => ?_⟩
    · simp only [SdtSt.next]
      split_ifs <;> rfl
    · rw [(h.held.abortTransaction hen).2] at ho
      exact absurd ho List.not_mem_nil
  | errorWithoutAbort => exact ⟨young, old, hheld, h.split, h.stack, h.safe, h.closed⟩
  | caughtError ended => exact h.caughtError hok.1
  | lose lost how => exact hkeep ⟨rfl, rfl, fun o ho => .inl (Spans.mem_close ho).1⟩
  | setProbes tokens =>
    refine hkeep ?_
    cases hparse : sdtProbesParse tokens with
    | none =>
      have hnext : s.next (.setProbes tokens) = s := by simp only [SdtSt.next, hparse]
      rw [hnext]
      exact undisturbed_refl
    | some mask =>
      have hnext : s.next (.setProbes tokens) = s.sdtProbesAssignHook mask := by
        simp only [SdtSt.next, hparse]
      rw [hnext]
      exact ⟨rfl, rfl, fun _ ho => .inl ho⟩
  | recoveryXactCommit env => exact hkeep (fire_undisturbed h.held.ordered (by simp))

end Pairs

theorem reachable_pairs {c : Bool} {s : SdtSt} (h : (sdt c).ReachBy SdtAct.KeepsPairs s) :
    ∃ young old, Pairs c s young old :=
  Machine.ReachBy.invariant (I := fun s => ∃ young old, Pairs c s young old)
    ⟨_, _, Pairs.init c⟩ (fun _ _ ⟨_, _, hp⟩ he ho => hp.step he ho) h

/-- In runs that keep the brackets matched, what a `DONE` does to the spans is to end the one the
matching `START` pushed, if that is still open. -/
theorem done_ends_own {c : Bool} {s : SdtSt} (h : (sdt c).ReachBy SdtAct.KeepsPairs s)
    {env : SdtEnv} (hen : (SdtAct.phaseDone env).Enabled c s) {p : CorePhase} {ps : List CorePhase}
    (hphases : s.phases = p :: ps) :
    (s.next (.phaseDone env)).spans.opened =
        (s.spans.close (fun o => p.pushed = some o.ref) .ended).opened ∧
      (s.next (.phaseDone env)).spans.log =
        (s.spans.close (fun o => p.pushed = some o.ref) .ended).log := by
  obtain ⟨young, old, hp⟩ := reachable_pairs h
  exact (hp.phaseDone hen hphases).2

/-- A query is being parsed, with both families enabled. -/
def queryParsing : SdtSt :=
  ((({} : SdtSt).next (.setProbes [cstr "query", cstr "parse"])).next
    (.phaseStart .query { noOwner := true })).next (.phaseStart .parse {})

theorem reachBy_queryParsing : (sdt true).ReachBy SdtAct.KeepsPairs queryParsing := by
  have h₀ : (sdt true).ReachBy SdtAct.KeepsPairs (sdt true).init := .init
  have h₁ := h₀.step (m := sdt true)
    (.setProbes [cstr "query", cstr "parse"]) trivial ⟨trivial, fun _ _ h => by cases h⟩
  have h₂ := h₁.step (m := sdt true) (.phaseStart .query { noOwner := true }) rfl
    ⟨trivial, fun _ _ h hp => by cases h; exact absurd hp (by decide)⟩
  exact h₂.step (m := sdt true) (.phaseStart .parse {}) rfl
    ⟨trivial, fun _ _ h hp => by cases h; exact absurd hp (by decide)⟩

theorem done_ends_own_queryParsing :
    (queryParsing.next (.phaseDone {})).spans.opened.map OpenSpan.ref = [⟨1⟩] ∧
      (queryParsing.next (.phaseDone {})).spans.log = [(⟨2⟩, .ended)] ∧
      (queryParsing.next (.phaseDone {})).spans.log =
        (queryParsing.spans.close (fun o => some ⟨2⟩ = some o.ref) .ended).log :=
  ⟨by decide, by decide, (done_ends_own reachBy_queryParsing ⟨rfl, _, _, rfl, rfl⟩ rfl).2⟩

/-- An error ends the parse, its span is released and the error is caught: the entry stays on top,
and the query's `DONE` does not end the query's span. -/
theorem caught_error_hides_query :
    (sdt true).Reachable ((queryParsing.next (.lose [⟨2⟩] .released)).next (.caughtError 1)) ∧
      ((queryParsing.next (.lose [⟨2⟩] .released)).next (.caughtError 1)).phases.map
        CorePhase.pushed = [some ⟨1⟩] ∧
      (((queryParsing.next (.lose [⟨2⟩] .released)).next (.caughtError 1)).next
        (.phaseDone {})).spans.opened.map OpenSpan.ref = [⟨1⟩] ∧
      (((queryParsing.next (.lose [⟨2⟩] .released)).next (.caughtError 1)).next
        (.phaseDone {})).spans.log = [(⟨2⟩, .released)] :=
  ⟨(reachBy_queryParsing.reachable.step (m := sdt true) (.lose [⟨2⟩] .released) trivial).step
    (m := sdt true) (.caughtError 1) trivial, by decide, by decide, by decide⟩

end PostgresOtel
