import PostgresOtel.Producer.Subxacts

/-!
# Leaked activations

At a commit the producer drops the activations that their callers forgot, and counts them.  It drops
the non-recording spans of the transaction first, with their activations, and does not count these.

`leaked_activations_counted_iff` says when the count is right.  The stamps of the entries say which were
made in the transaction, if it began with none left from an earlier one.  `startsClean_of_timely` shows
that it did where nothing is activated between the callback that ends a transaction and its end.
-/

set_option autoImplicit false

namespace PostgresOtel

open Exec

/-! ## The transaction in progress -/

namespace XactLevels

variable {x : XactLevels} {a : LevelAct}

/-- The transaction around all levels. -/
def xactId (x : XactLevels) : Option ℕ := x.levels.getLast?.map Subxact.id

/-- Subtransactions are numbered later than the transaction they are in. -/
def Ordered (x : XactLevels) : Prop := ∀ id ∈ x.xactId, ∀ y ∈ x.levels, id ≤ y.id

/-- A transaction goes on until no level is open. -/
theorem xactId_next (hen : a.Enabled x) (hbegin : a ≠ .begin) :
    (x.next a).levels = [] ∨ (x.next a).xactId = x.xactId := by
  obtain ⟨levels, nextSub⟩ := x
  cases a with
  | begin => exact absurd rfl hbegin
  | savepoint =>
    obtain ⟨top, rest, rfl, -⟩ := hen
    right
    simp [next, xactId]
  | release =>
    obtain ⟨top, parent, rest, rfl, -⟩ := hen
    right
    cases rest <;> simp [next, xactId]
  | commit => exact .inl rfl
  | abort =>
    obtain ⟨top, rest, rfl, -⟩ := hen
    right
    cases rest <;> simp [next, xactId]
  | cleanup =>
    obtain ⟨top, rest, rfl, -⟩ := hen
    cases rest with
    | nil => exact .inl rfl
    | cons y rest =>
      right
      simp [next, xactId]

/-- A level is new, or has the number of one that was open. -/
theorem id_of_mem_next {y : Subxact} (hy : y ∈ (x.next a).levels) :
    y.id = x.nextSub ∨ ∃ z ∈ x.levels, y.id = z.id := by
  obtain ⟨levels, nextSub⟩ := x
  cases a with
  | begin => simp_all [next]
  | savepoint =>
    rcases List.mem_cons.1 hy with rfl | hy
    · exact .inl rfl
    · exact .inr ⟨y, hy, rfl⟩
  | release =>
    rcases levels with _ | ⟨top, _ | ⟨parent, rest⟩⟩
    · exact .inr ⟨y, hy, rfl⟩
    · exact .inr ⟨y, hy, rfl⟩
    · rcases List.mem_cons.1 hy with rfl | hy
      · exact .inr ⟨parent, by simp, rfl⟩
      · exact .inr ⟨y, by simp [hy], rfl⟩
  | commit => exact absurd hy List.not_mem_nil
  | abort =>
    rcases levels with _ | ⟨top, rest⟩
    · exact .inr ⟨y, hy, rfl⟩
    · rcases List.mem_cons.1 hy with rfl | hy
      · exact .inr ⟨top, by simp, rfl⟩
      · exact .inr ⟨y, by simp [hy], rfl⟩
  | cleanup => exact .inr ⟨y, List.mem_of_mem_tail hy, rfl⟩

theorem Ordered.next (h : x.Ordered) (hids : ∀ y ∈ x.levels, y.id < x.nextSub) (hen : a.Enabled x) :
    (x.next a).Ordered := by
  intro id hid y hy
  by_cases hbegin : a = .begin
  · subst hbegin
    simp only [xactId, XactLevels.next, List.getLast?_singleton, Option.map_some,
      Option.mem_some_iff] at hid
    obtain rfl := List.mem_singleton.1 hy
    exact hid.symm.le
  · rcases xactId_next hen hbegin with hnil | hsame
    · rw [hnil] at hy
      exact absurd hy List.not_mem_nil
    · rw [hsame] at hid
      rcases id_of_mem_next hy with hnew | ⟨z, hz, hold⟩
      · obtain ⟨bottom, hbottom, rfl⟩ := Option.map_eq_some_iff.1 hid
        rw [hnew]
        exact (hids bottom (List.mem_of_getLast? hbottom)).le
      · rw [hold]
        exact h id hid z hz

end XactLevels

/-- The entry was pushed in the transaction in progress, at whatever level. -/
def ScopeSt.MadeInside (x : ScopeSt) (e : StackEntry) : Prop :=
  ∃ id ∈ x.xactId, ∃ sub ∈ (x.pushed e.entry).sub, id ≤ sub

instance (x : ScopeSt) (e : StackEntry) : Decidable (x.MadeInside e) :=
  inferInstanceAs (Decidable (∃ id ∈ x.xactId, ∃ sub ∈ (x.pushed e.entry).sub, id ≤ sub))

/-! ## Activations in one step -/

section Step

variable {s s' : St} {x : ScopeSt} {call : Call}

theorem ScopeSt.after_pushed_old {e : StackEntry} (he : e ∈ s.spanStack) :
    (x.after call s s').pushed e.entry = x.pushed e.entry := by
  have hold : s.life.OnStack e.entry := Lifecycle.onStack_iff.2 ⟨e, he, rfl⟩
  simp [ScopeSt.after, hold]

theorem ScopeSt.after_pushed_new {e : StackEntry} (he : e ∈ s'.spanStack)
    (hnew : ¬ s.life.OnStack e.entry) : (x.after call s s').pushed e.entry = x.origin := by
  have hon : s'.life.OnStack e.entry := Lifecycle.onStack_iff.2 ⟨e, he, rfl⟩
  simp [ScopeSt.after, hon, hnew]

/-- The callbacks leave the transaction in progress. -/
theorem ScopeSt.mem_xactId_after (hen : ∀ a ∈ call.op.levelAct, a.Enabled x.toXactLevels) {id : ℕ}
    (hid : id ∈ (x.after call s s').xactId) : id ∈ x.xactId := by
  unfold ScopeSt.after at hid
  cases hact : call.op.levelAct with
  | none =>
    rw [hact] at hid
    exact hid
  | some a =>
    rw [hact] at hid
    have hbegin : a ≠ .begin := by
      rintro rfl
      unfold ProducerOp.levelAct at hact
      split at hact <;> cases hact
    rcases XactLevels.xactId_next (hen a hact) hbegin with hnil | hsame
    · simp only [Option.elim_some, XactLevels.xactId] at hid
      rw [hnil] at hid
      cases hid
    · exact hsame ▸ hid

/-- An activation on the stack was there before, or the call has made it. -/
theorem activation_cases (garbage : ℕ → OtelSlot) (hinv : PoolInv s.life) {e : StackEntry}
    (he : e ∈ ((producer garbage).next s call).spanStack) (hact : e.isActivation = true) :
    e ∈ s.spanStack ∨ (∃ ref, call.op = .spanActivate ref) ∧ ¬ s.life.OnStack e.entry ∧
      e.nestLevel = call.env.currentTransactionNestLevel := by
  have hstep : Step call.env (s.enter call) call.op ((producer garbage).next s call) :=
    step_cases call.env call.op hinv
  revert hstep he
  generalize (producer garbage).next s call = s'
  generalize call.op = op
  intro he hstep
  cases hstep with
  | start args ref _ hx hstarted =>
    cases hstarted with
    | refused _ _ hev _ => exact .inl (hev.stack.subset he)
    | opened args p d entry s₁ _ hparent hd hev hprep hopens hknown =>
      rw [hopens.stack] at he
      split_ifs at he
      · exact .inl (hev.stack.subset he)
      · rcases List.mem_cons.1 he with rfl | he
        · cases hact
        · exact .inl (hev.stack.subset he)
  | startRaised args _ _ hx hev => exact .inl (hev.stack.subset he)
  | activate ref entry _ hactivates =>
    rw [hactivates.push] at he
    rcases List.mem_cons.1 he with rfl | he
    · exact .inr ⟨⟨ref, rfl⟩, hactivates.off, rfl⟩
    · exact .inl he
  | other _ _ _ hev => exact .inl (hev.stack.subset he)

/-- In a transaction, the activations that are stamped with a level were made in it. -/
structure OwnActivations (s : St) (x : ScopeSt) : Prop where
  ordered : x.Ordered
  stamped : ∀ e, (x.pushed e).sub.isSome = true → 1 ≤ (x.pushed e).level
  own : ∀ e ∈ s.spanStack, e.isActivation = true → 1 ≤ e.nestLevel →
    ∀ id ∈ x.xactId, ∃ sub ∈ (x.pushed e.entry).sub, id ≤ sub

/-- A transaction begins with no activation of an earlier one on the stack. -/
def StartsClean (p : St × ScopeSt) (a : ScopeAct) : Prop :=
  a = .level .begin → ∀ e ∈ p.1.spanStack, e.isActivation = true → e.nestLevel = 0

namespace OwnActivations

theorem init {garbage : ℕ → OtelSlot} : OwnActivations (initSt garbage) {} where
  ordered _ hid := by cases hid
  stamped _ h := by cases h
  own _ he := absurd he List.not_mem_nil

theorem level (h : OwnActivations s x) (hscope : ScopeInv s x) {a : LevelAct}
    (hen : a.Enabled x.toXactLevels) (hclean : StartsClean (s, x) (.level a)) :
    OwnActivations s { x with toXactLevels := x.toXactLevels.next a } where
  ordered := h.ordered.next hscope.ids_old hen
  stamped := h.stamped
  own e he hact hlevel id hid := by
    by_cases hbegin : a = .begin
    · subst hbegin
      have := hclean rfl e he hact
      omega
    · rcases XactLevels.xactId_next hen hbegin with hnil | hsame
      · simp only [XactLevels.xactId] at hid
        rw [hnil] at hid
        cases hid
      · exact h.own e he hact hlevel id (hsame ▸ hid)

theorem step (garbage : ℕ → OtelSlot) (h : OwnActivations s x) (hscope : ScopeInv s x)
    (hinv : PoolInv s.life) (hlevel : call.env.currentTransactionNestLevel = x.levels.length)
    (hen : ∀ a ∈ call.op.levelAct, a.Enabled x.toXactLevels) :
    OwnActivations ((producer garbage).next s call)
      (x.after call s ((producer garbage).next s call)) where
  ordered := by
    unfold ScopeSt.after
    cases hact : call.op.levelAct with
    | none => exact h.ordered
    | some a => exact h.ordered.next hscope.ids_old (hen a hact)
  stamped e := by
    unfold ScopeSt.after
    dsimp only
    split_ifs
    · simp only [XactLevels.origin]
      cases x.levels <;> simp
    · exact h.stamped e
  own e he hact hnest id hid := by
    have hid := ScopeSt.mem_xactId_after hen hid
    rcases activation_cases garbage hinv he hact with hold | ⟨-, hnew, hstamp⟩
    · rw [ScopeSt.after_pushed_old hold]
      exact h.own e hold hact hnest id hid
    · rw [ScopeSt.after_pushed_new he hnew]
      cases hlevels : x.levels with
      | nil => simp [hstamp, hlevel, hlevels] at hnest
      | cons top rest =>
        refine ⟨top.id, by simp [XactLevels.origin, hlevels], h.ordered id hid top ?_⟩
        simp [hlevels]

end OwnActivations

end Step

variable {garbage : ℕ → OtelSlot} {p : St × ScopeSt}

theorem reachBy_ownActivations (h : (scopeRuns garbage).ReachBy StartsClean p) :
    ScopeInv p.1 p.2 ∧ OwnActivations p.1 p.2 := by
  refine Machine.ReachBy.invariantOver (k := fun _ _ => True)
    (I := fun p => ScopeInv p.1 p.2 ∧ OwnActivations p.1 p.2)
    (fun _ _ _ _ _ => trivial) ⟨.init, .init⟩ ?_ h
  intro q a hreach hI hen hclean
  cases a with
  | level a => exact ⟨hI.1.level hen.2.2, hI.2.level hI.1 hen.2.2 hclean⟩
  | call c =>
    have hinv := reachable_poolInv hreach
    exact ⟨hI.1.step garbage hinv hen.2.1 hen.2.2.1, hI.2.step garbage hI.1 hinv hen.2.1 hen.2.2.1⟩

/-- In a transaction the stamps say which activations were made in it. -/
theorem ScopeInv.madeInside_iff {s : St} {x : ScopeSt} (h : ScopeInv s x) (hown : OwnActivations s x)
    (hopen : x.levels ≠ []) {e : StackEntry} (he : e ∈ s.spanStack) (hact : e.isActivation = true) :
    x.MadeInside e ↔ 1 ≤ e.nestLevel := by
  constructor
  · rintro ⟨-, -, sub, hsub, -⟩
    rw [h.activation e he hact]
    exact hown.stamped e.entry (Option.isSome_iff_exists.2 ⟨sub, hsub⟩)
  · intro hlevel
    have hid : x.xactId = some (x.levels.getLast hopen).id := by
      rw [XactLevels.xactId, List.getLast?_eq_some_getLast hopen]
      rfl
    exact ⟨_, hid, hown.own e he hact hlevel _ hid⟩

/-! ## Commits -/

/-- The callbacks of a top-level `COMMIT` and of `PREPARE TRANSACTION`. -/
def ProducerOp.commits : ProducerOp → Bool
  | .xactCallback .commit => true
  | .xactCallback .parallelCommit => true
  | .xactCallback .prepare => true
  | _ => false

/-- The callbacks that end a transaction. -/
def ProducerOp.endsXact : ProducerOp → Bool
  | .xactCallback .abort => true
  | .xactCallback .parallelAbort => true
  | op => op.commits

/-- From one state to the other, `activation_leaked_at_commit` rises by the number of activations that
were made in the transaction and are on the stack, and all of these leave it. -/
structure CountsLeaked (s s' : St) (x : ScopeSt) : Prop where
  counted : s'.counters.activationLeakedAtCommit = s.counters.activationLeakedAtCommit +
    s.spanStack.countP fun e => e.isActivation && decide (x.MadeInside e)
  dropped : ∀ e ∈ s.spanStack, e.isActivation = true → x.MadeInside e → e ∉ s'.spanStack

/-- A further condition leaves the count alone if all that are counted meet it. -/
theorem countP_and_eq_iff {α : Type} {p q : α → Bool} {l : List α} :
    (l.countP fun a => p a && q a) = l.countP p ↔ ∀ a ∈ l, p a = true → q a = true := by
  induction l with
  | nil => simp
  | cons a l ih =>
    have hle : (l.countP fun a => p a && q a) ≤ l.countP p :=
      List.countP_mono_left fun b _ h => (Bool.and_eq_true_iff.1 h).1
    rw [List.forall_mem_cons, ← ih]
    cases hp : p a <;> cases hq : q a <;> simp [hp, hq]
    omega

/-- The callback that ends a transaction drops everything with a level, and counts at a commit. -/
theorem drops_at_end (garbage : ℕ → OtelSlot) {call : Call} (hends : call.op.endsXact = true) (s : St) :
    DropsFromLevel 1 call.op.commits s ((producer garbage).next s call) := by
  have hop : runOp call.env call.op =
      (do dropNrecsFromLevel 1; dropActivationsFromLevel 1 call.op.commits) := by
    unfold ProducerOp.endsXact ProducerOp.commits at hends
    split at hends
    · simp_all [runOp, otelXactCallback, ProducerOp.commits]
    · simp_all [runOp, otelXactCallback, ProducerOp.commits]
    · split at hends
      all_goals simp_all [runOp, otelXactCallback, ProducerOp.commits]
  have hdrops := (wp_dropFromLevel 1 call.op.commits (s.enter call)).endState
  rw [← hop] at hdrops
  exact ⟨hdrops.stack, hdrops.leaked⟩

theorem ProducerOp.endsXact_of_commits {op : ProducerOp} (h : op.commits = true) :
    op.endsXact = true := by
  unfold ProducerOp.endsXact
  split
  · rfl
  · rfl
  · exact h

theorem ProducerOp.depth_of_commits {op : ProducerOp} (h : op.commits = true) {depth : ℕ}
    (hdepth : op.AtDepth depth) : depth = 1 := by
  unfold ProducerOp.commits at h
  split at h
  · exact hdepth
  · exact hdepth
  · exact hdepth
  · cases h

/-- In runs whose transactions begin with no activation of an earlier one, the activations leaked at a
commit are all counted, if and only if none of them is of a non-recording span that the commit drops. -/
theorem leaked_activations_counted_iff (h : (scopeRuns garbage).ReachBy StartsClean p) {call : Call}
    (hcommits : call.op.commits = true) (hen : (scopeRuns garbage).enabled p (.call call)) :
    CountsLeaked p.1 ((scopeRuns garbage).next p (.call call)).1 p.2 ↔
      ∀ e ∈ p.1.spanStack, e.isActivation = true → p.2.MadeInside e →
        nrecFromLevel p.1 1 e = false := by
  obtain ⟨hscope, hown⟩ := reachBy_ownActivations h
  have hdrops : DropsFromLevel 1 call.op.commits p.1 ((scopeRuns garbage).next p (.call call)).1 :=
    drops_at_end garbage (ProducerOp.endsXact_of_commits hcommits) p.1
  have hopen : p.2.levels ≠ [] := by
    intro hnil
    have hdepth := ProducerOp.depth_of_commits hcommits hen.2.2.2
    simp [hnil] at hdepth
  have hinside {e : StackEntry} (he : e ∈ p.1.spanStack) (hact : e.isActivation = true) :=
    hscope.madeInside_iff hown hopen he hact
  have hcount : (p.1.spanStack.countP fun e => e.isActivation && decide (p.2.MadeInside e)) =
      p.1.spanStack.countP fun e => e.isActivation && decide (1 ≤ e.nestLevel) := by
    apply List.countP_congr
    intro e he
    simp only [Bool.and_eq_true, decide_eq_true_eq]
    exact and_congr_right fun hact => hinside he hact
  have hleaked := hdrops.leaked
  rw [if_pos hcommits] at hleaked
  constructor
  · intro hcounts e he hact hmade
    have heq := hcounts.counted
    rw [hleaked, hcount, Nat.add_left_cancel_iff, countP_and_eq_iff] at heq
    have hlevel := (hinside he hact).1 hmade
    simpa using heq e he (by simp [hact, hlevel])
  · intro hnone
    refine ⟨?_, fun e he hact hmade hkept => ?_⟩
    · rw [hleaked, hcount, Nat.add_left_cancel_iff, countP_and_eq_iff]
      intro e he hdropped
      simp only [Bool.and_eq_true, decide_eq_true_eq] at hdropped
      simp [hnone e he hdropped.1 ((hinside he hdropped.1).2 hdropped.2)]
    · rw [hdrops.stack, List.mem_filter] at hkept
      have hlevel := (hinside he hact).1 hmade
      simp [St.takenFrom, hact, hlevel] at hkept

/-! ## Timely activations -/

/-- The transactions of a backend, and whether the one in progress has had the callback that ends it:
core commits after that. -/
def xactRuns (garbage : ℕ → OtelSlot) : Machine ((St × ScopeSt) × Bool) ScopeAct :=
  (scopeRuns garbage).extend false some (fun p a => a = .level .commit → p.2 = true) fun p a =>
    match a with
    | .level .begin => false
    | .level _ => p.2
    | .call call => p.2 || call.op.endsXact

/-- Nothing is activated between that callback and the next transaction. -/
def Timely (p : (St × ScopeSt) × Bool) (a : ScopeAct) : Prop :=
  p.2 = true → ∀ call ref, a = .call call → call.op ≠ .spanActivate ref

/-- Activations with a level are on the stack of a transaction that goes on only. -/
structure TimelyInv (s : St) (x : XactLevels) (ended : Bool) : Prop where
  stamped : ∀ e ∈ s.spanStack, e.isActivation = true → 1 ≤ e.nestLevel →
    ended = false ∧ x.levels ≠ []
  aborted : ∀ y ∈ x.levels.getLast?, y.aborted = true → ended = true

namespace TimelyInv

variable {s : St} {x : XactLevels} {ended : Bool} {a : LevelAct}

/-- A level comes or goes. -/
theorem level (h : TimelyInv s x ended) (hen : a.Enabled x) (habort : a ≠ .abort) (hbegin : a ≠ .begin)
    (hcommit : a = .commit → ended = true) : TimelyInv s (x.next a) ended := by
  obtain ⟨levels, nextSub⟩ := x
  have hopen : (∀ y ∈ levels.getLast?, y.aborted = true → ended = true) := h.aborted
  cases a with
  | begin => exact absurd rfl hbegin
  | abort => exact absurd rfl habort
  | savepoint =>
    obtain ⟨top, rest, rfl, -⟩ := hen
    refine ⟨fun e he hact hlevel => ⟨(h.stamped e he hact hlevel).1, by simp [XactLevels.next]⟩, ?_⟩
    simpa [XactLevels.next] using hopen
  | release =>
    obtain ⟨top, parent, rest, rfl, -⟩ := hen
    refine ⟨fun e he hact hlevel => ⟨(h.stamped e he hact hlevel).1, by simp [XactLevels.next]⟩, ?_⟩
    cases rest <;> simpa [XactLevels.next] using hopen
  | commit =>
    refine ⟨fun e he hact hlevel => ?_, fun y hy => by cases hy⟩
    have hgoes := (h.stamped e he hact hlevel).1
    rw [hcommit rfl] at hgoes
    cases hgoes
  | cleanup =>
    obtain ⟨top, rest, rfl, htop⟩ := hen
    cases rest with
    | nil =>
      have hended : ended = true := hopen top rfl htop
      refine ⟨fun e he hact hlevel => ?_, fun y hy => by cases hy⟩
      have hgoes := (h.stamped e he hact hlevel).1
      rw [hended] at hgoes
      cases hgoes
    | cons y rest =>
      refine ⟨fun e he hact hlevel => ⟨(h.stamped e he hact hlevel).1, by simp [XactLevels.next]⟩, ?_⟩
      simpa [XactLevels.next] using hopen

variable {xs : ScopeSt} {call : Call}

/-- An activation with a level does not outlive the callback that ends its transaction. -/
theorem dropped_by_end (hends : call.op.endsXact = true) {e : StackEntry}
    (he : e ∈ ((producer garbage).next s call).spanStack) (hact : e.isActivation = true) :
    e.nestLevel = 0 := by
  rw [(drops_at_end garbage hends s).stack, List.mem_filter] at he
  by_contra hlevel
  have hpos : 1 ≤ e.nestLevel := by omega
  simp [St.takenFrom, hact, hpos] at he

/-- The callbacks that abort a level do so to the innermost one, and to the outermost only at the end
of the transaction. -/
theorem after_abort (hen : ∀ a ∈ call.op.levelAct, a.Enabled xs.toXactLevels)
    (hdepth : call.op.AtDepth xs.levels.length) (s' : St) :
    (xs.after call s s').levels = xs.levels ∨ ∃ top rest, xs.levels = top :: rest ∧
      (xs.after call s s').levels = { top with aborted := true } :: rest ∧
      (call.op.endsXact = true ∨ rest ≠ []) := by
  unfold ScopeSt.after
  cases hact : call.op.levelAct with
  | none => exact .inl rfl
  | some a =>
    have habort : a = .abort ∧ (call.op.endsXact = true ∨ 2 ≤ xs.levels.length) := by
      revert hact hdepth
      unfold ProducerOp.levelAct ProducerOp.AtDepth
      generalize call.op = op
      intro hdepth hact
      split at hact <;> cases hact
      · exact ⟨rfl, .inl rfl⟩
      · exact ⟨rfl, .inl rfl⟩
      · exact ⟨rfl, .inr hdepth⟩
    obtain ⟨rfl, hends⟩ := habort
    obtain ⟨top, rest, hlevels, -⟩ := hen .abort (by rw [hact]; rfl)
    right
    refine ⟨top, rest, hlevels, ?_, hends.imp id fun hdeep hnil => ?_⟩
    · simp only [Option.elim_some, XactLevels.next, hlevels]
    · simp [hlevels, hnil] at hdeep

theorem step (garbage : ℕ → OtelSlot) (h : TimelyInv s xs.toXactLevels ended) (hinv : PoolInv s.life)
    (hlevel : call.env.currentTransactionNestLevel = xs.levels.length)
    (hen : ∀ a ∈ call.op.levelAct, a.Enabled xs.toXactLevels)
    (hdepth : call.op.AtDepth xs.levels.length)
    (htimely : ended = true → ∀ ref, call.op ≠ .spanActivate ref) :
    TimelyInv ((producer garbage).next s call)
      (xs.after call s ((producer garbage).next s call)).toXactLevels
      (ended || call.op.endsXact) where
  stamped e he hact hnest := by
    have hopen (hlevels : xs.levels ≠ []) :
        (xs.after call s ((producer garbage).next s call)).levels ≠ [] := by
      rcases after_abort hen hdepth ((producer garbage).next s call) with hsame | ⟨top, rest, -, hnext, -⟩
      · rwa [hsame]
      · simp [hnext]
    cases hends : call.op.endsXact with
    | true =>
      have := dropped_by_end hends he hact
      omega
    | false =>
      rw [Bool.or_false]
      rcases activation_cases garbage hinv he hact with hold | ⟨⟨ref, hop⟩, -, hstamp⟩
      · obtain ⟨hgoes, hlevels⟩ := h.stamped e hold hact hnest
        exact ⟨hgoes, hopen hlevels⟩
      · constructor
        · cases ended with
          | false => rfl
          | true => exact absurd hop (htimely rfl ref)
        · apply hopen
          intro hnil
          simp [hstamp, hlevel, hnil] at hnest
  aborted y hy haborted := by
    rw [Bool.or_eq_true]
    rcases after_abort hen hdepth ((producer garbage).next s call) with
      hsame | ⟨top, rest, hlevels, hnext, hends | hrest⟩
    · rw [hsame] at hy
      exact .inl (h.aborted y hy haborted)
    · exact .inr hends
    · obtain ⟨z, zs, rfl⟩ := List.exists_cons_of_ne_nil hrest
      have hlast := h.aborted
      rw [hnext] at hy
      rw [hlevels] at hlast
      exact .inl (hlast y (by simpa using hy) haborted)

end TimelyInv

theorem reachBy_timelyInv {p : (St × ScopeSt) × Bool} (h : (xactRuns garbage).ReachBy Timely p) :
    TimelyInv p.1.1 p.1.2.toXactLevels p.2 := by
  refine Machine.ReachBy.invariantOver (k := fun _ _ => True)
    (I := fun p => TimelyInv p.1.1 p.1.2.toXactLevels p.2) (fun _ _ _ _ _ => trivial) ?_ ?_ h
  · exact ⟨fun _ he => absurd he List.not_mem_nil, fun _ hy => by cases hy⟩
  intro q a hreach hI hen htimely
  obtain ⟨-, hscope⟩ := hen.1 a rfl
  cases a with
  | level a =>
    obtain ⟨habort, hlevel⟩ := hscope
    by_cases hbegin : a = .begin
    · subst hbegin
      have hnil : q.1.2.levels = [] := hlevel
      refine ⟨fun e he hact hnest => absurd hnil (hI.stamped e he hact hnest).2, fun y hy haborted => ?_⟩
      obtain rfl := Option.some.inj hy
      cases haborted
    · have hnext := hI.level hlevel habort hbegin fun hcommit => hen.2 (by rw [hcommit])
      cases a with
      | begin => exact absurd rfl hbegin
      | _ => exact hnext
  | call c =>
    have hinv : PoolInv q.1.1.life := reachable_poolInv (hreach.base fun _ _ _ _ _ => trivial)
    exact hI.step garbage hinv hscope.1 hscope.2.1 hscope.2.2 fun hended ref => htimely hended c ref rfl

/-- Where core calls the producer at the end of each transaction, and nothing is activated between
that and the next, every transaction begins with no activation of an earlier one. -/
theorem startsClean_of_timely {p : (St × ScopeSt) × Bool} (h : (xactRuns garbage).ReachBy Timely p) :
    (scopeRuns garbage).ReachBy StartsClean p.1 := by
  refine Machine.ReachBy.base (fun q a b hok hb => ?_)
    (h.withInvariant fun _ hq => reachBy_timelyInv hq)
  obtain rfl := Option.some.inj hb
  obtain ⟨-, hen, hinv⟩ := hok
  rintro rfl e he hact
  have hnil : q.1.2.levels = [] := (hen.1 _ rfl).2.2
  by_contra hlevel
  exact (hinv.stamped e he hact (by omega)).2 hnil

/-! ## Two transactions -/

/-- The commit of a transaction. -/
def commitCall : Call where
  env := { currentTransactionNestLevel := 1 }
  backend := {}
  op := .xactCallback .commit

/-- A sampled span for the session is activated in a subtransaction, and an unsampled one after that. -/
def sessionActivations : St × ScopeSt :=
  [.level .begin, .level .savepoint,
    callAt 2 (.spanStart (some { name := some (cstr "session"), owner := .session,
                                 detached := true, forceSample := true })),
    callAt 2 (.spanActivate (makeRef 1 0 true)), .level .release,
    callAt 1 (.spanStart (some { name := some (cstr "session"), owner := .session,
                                 detached := true, parent := .root })),
    callAt 1 (.spanActivate (makeRef 2 0 false))].foldl
    (scopeRuns fun _ => {}).next (scopeRuns fun _ => {}).init

/-- An unsampled span of the transaction is activated. -/
def unsampledActivation : St × ScopeSt :=
  [.level .begin,
    callAt 1 (.spanStart (some { name := some (cstr "unsampled"), detached := true })),
    callAt 1 (.spanActivate (makeRef 1 0 false))].foldl
    (scopeRuns fun _ => {}).next (scopeRuns fun _ => {}).init

theorem enabled_call {p : St × ScopeSt} {level : ℕ} {op : ProducerOp} (hvalid : op.Valid p.1)
    (hlevel : level = p.2.levels.length) (hact : op.levelAct = none)
    (hdepth : op.AtDepth p.2.levels.length) :
    (scopeRuns fun _ => {}).enabled p (callAt level op) := by
  refine ⟨fun a ha => ?_, hlevel, noLevelAct hact, hdepth⟩
  obtain rfl := Option.some.inj ha
  exact hvalid

theorem enabled_commit {p : St × ScopeSt} (hlevel : 1 = p.2.levels.length) :
    (scopeRuns fun _ => {}).enabled p (.call commitCall) := by
  refine ⟨fun a ha => ?_, hlevel, noLevelAct rfl, hlevel.symm⟩
  obtain rfl := Option.some.inj ha
  exact trivial

theorem reachBy_sessionActivations : (scopeRuns fun _ => {}).ReachBy StartsClean sessionActivations := by
  have hclean (p : St × ScopeSt) {a : ScopeAct} (ha : a ≠ .level .begin) : StartsClean p a :=
    fun h => absurd h ha
  refine Machine.ReachBy.run .init ⟨⟨(fun a ha => by cases ha), by decide, rfl⟩,
    fun _ e he => absurd he List.not_mem_nil, ⟨(fun a ha => by cases ha), by decide, _, _, rfl, rfl⟩,
    hclean _ (by simp), ?_, hclean _ (by simp [callAt]), ?_, hclean _ (by simp [callAt]),
    ⟨(fun a ha => by cases ha), by decide, _, _, _, rfl, rfl⟩, hclean _ (by simp), ?_,
    hclean _ (by simp [callAt]), ?_, hclean _ (by simp [callAt]), trivial⟩
  · exact enabled_call trivial rfl rfl trivial
  · exact enabled_call (by decide : (makeRef 1 0 true).Issued) rfl rfl trivial
  · exact enabled_call trivial rfl rfl trivial
  · exact enabled_call (by decide : (makeRef 2 0 false).Issued) rfl rfl trivial

theorem leaked_activations_counted_iff_sessionActivations :
    sessionActivations.1.spanStack = [⟨.nrec 0, true, 1⟩, ⟨.slot 0, true, 2⟩] ∧
    ((scopeRuns fun _ => {}).next sessionActivations
      (.call commitCall)).1.counters.activationLeakedAtCommit = 2 ∧
    CountsLeaked sessionActivations.1
      ((scopeRuns fun _ => {}).next sessionActivations (.call commitCall)).1 sessionActivations.2 := by
  refine ⟨by decide +kernel, by decide +kernel, ?_⟩
  have hsession : ∀ e ∈ sessionActivations.1.spanStack, nrecFromLevel sessionActivations.1 1 e = false := by
    decide +kernel
  have hlevels : 1 = sessionActivations.2.levels.length := by decide +kernel
  exact (leaked_activations_counted_iff reachBy_sessionActivations rfl (enabled_commit hlevels)).2
    fun e he _ _ => hsession e he

/-- The commit drops the span of the transaction with its activation, and does not count it. -/
theorem unsampled_activation_not_counted :
    (xactRuns fun _ => {}).ReachBy Timely (unsampledActivation, false) ∧
    (scopeRuns fun _ => {}).enabled unsampledActivation (.call commitCall) ∧
    unsampledActivation.1.spanStack = [⟨.nrec 0, true, 1⟩] ∧
    unsampledActivation.2.MadeInside ⟨.nrec 0, true, 1⟩ ∧
    ((scopeRuns fun _ => {}).next unsampledActivation (.call commitCall)).1.spanStack = [] ∧
    ((scopeRuns fun _ => {}).next unsampledActivation
      (.call commitCall)).1.counters.activationLeakedAtCommit = 0 ∧
    ¬ CountsLeaked unsampledActivation.1
      ((scopeRuns fun _ => {}).next unsampledActivation (.call commitCall)).1
      unsampledActivation.2 := by
  have hstack : unsampledActivation.1.spanStack = [⟨.nrec 0, true, 1⟩] := by decide +kernel
  have hmade : unsampledActivation.2.MadeInside ⟨.nrec 0, true, 1⟩ := by decide +kernel
  have hcounter : ((scopeRuns fun _ => {}).next unsampledActivation
      (.call commitCall)).1.counters.activationLeakedAtCommit = 0 := by decide +kernel
  refine ⟨?_, enabled_commit (by decide +kernel), hstack, hmade, by decide +kernel, hcounter,
    fun hcounts => ?_⟩
  · have hrun : (xactRuns fun _ => {}).Admits Timely (xactRuns fun _ => {}).init [.level .begin,
        callAt 1 (.spanStart (some { name := some (cstr "unsampled"), detached := true })),
        callAt 1 (.spanActivate (makeRef 1 0 false))] := by
      refine ⟨⟨fun a ha => ?_, fun h => by cases h⟩, fun h => (by cases h),
        ⟨fun a ha => ?_, fun h => by cases h⟩, fun h => (by cases h),
        ⟨fun a ha => ?_, fun h => by cases h⟩, fun h => (by cases h), trivial⟩
      all_goals obtain rfl := Option.some.inj ha
      · exact ⟨(fun a ha => by cases ha), by decide, rfl⟩
      · exact enabled_call trivial rfl rfl trivial
      · exact enabled_call (by decide : (makeRef 1 0 false).Issued) rfl rfl trivial
    exact Machine.ReachBy.run .init hrun
  · have hrise := hcounts.counted
    rw [hcounter, hstack] at hrise
    simp [hmade] at hrise

end PostgresOtel
