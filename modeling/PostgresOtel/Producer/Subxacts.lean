import PostgresOtel.Producer.Levels
import PostgresOtel.Producer.Steps

/-!
# Subtransactions and the active stack

Runs of the producer among the transactions and subtransactions of its backend, with a record of where
each span was started and each entry of the active stack was pushed.  An abort takes the entries by the
level they are stamped with.  These are the activations and the non-recording spans of the
subtransaction, session spans apart, and of those committed into it; but subtransactions committed
elsewhere have left entries with the same stamps.
-/

set_option autoImplicit false

namespace PostgresOtel

open Exec

/-! ## Records -/

/-- Where something was created: the subtransaction, unless outside of a transaction, and its level. -/
structure Origin where
  sub : Option ℕ := none
  level : ℕ := 0
  deriving DecidableEq

/-- It was created in one of these subtransactions. -/
def Origin.In (o : Origin) (subs : List ℕ) : Prop := ∃ sub ∈ o.sub, sub ∈ subs

instance (o : Origin) (subs : List ℕ) : Decidable (o.In subs) :=
  inferInstanceAs (Decidable (∃ sub ∈ o.sub, sub ∈ subs))

def XactLevels.origin (x : XactLevels) : Origin := ⟨x.levels.head?.map Subxact.id, x.levels.length⟩

/-- The transactions, and for every place where the span there was started, whether as a session span,
and where its entry was pushed. -/
structure ScopeSt extends XactLevels where
  started : StackRef → Origin := fun _ => {}
  session : StackRef → Bool := fun _ => false
  pushed : StackRef → Origin := fun _ => {}

inductive ScopeAct
  | level (a : LevelAct)
  | call (call : Call)

/-- The callbacks that say that the innermost level is aborted. -/
def ProducerOp.levelAct : ProducerOp → Option LevelAct
  | .xactCallback .abort => some .abort
  | .xactCallback .parallelAbort => some .abort
  | .subxactCallback .abortSub => some .abort
  | _ => none

/-- How many levels are open at a callback. -/
def ProducerOp.AtDepth (depth : ℕ) : ProducerOp → Prop
  | .xactCallback _ => depth = 1
  | .subxactCallback _ => 2 ≤ depth
  | _ => True

/-- The call starts a span that would be a session span if recorded. -/
def Call.startsSession (call : Call) : Bool :=
  match call.op with
  | .spanStart (some args) =>
    decide (args.owner = .session ∨ (args.owner = .null ∧ call.env.currentResourceOwner = none))
  | _ => false

def ScopeAct.Enabled (x : ScopeSt) : ScopeAct → Prop
  | .level a => a ≠ .abort ∧ a.Enabled x.toXactLevels
  | .call c => c.env.currentTransactionNestLevel = x.levels.length ∧
    (∀ a ∈ c.op.levelAct, a.Enabled x.toXactLevels) ∧ c.op.AtDepth x.levels.length

/-- The records after a call. -/
def ScopeSt.after (x : ScopeSt) (call : Call) (s s' : St) : ScopeSt where
  toXactLevels := call.op.levelAct.elim x.toXactLevels x.toXactLevels.next
  started e := if s'.life.Live e ∧ ¬ s.life.Live e then x.origin else x.started e
  session e := if s'.life.Live e ∧ ¬ s.life.Live e then call.startsSession else x.session e
  pushed e := if s'.life.OnStack e ∧ ¬ s.life.OnStack e then x.origin else x.pushed e

def ScopeAct.drives : ScopeAct → Option Call
  | .level _ => none
  | .call c => some c

/-- The producer in a backend with transactions. -/
def scopeRuns (garbage : ℕ → OtelSlot) : Machine (St × ScopeSt) ScopeAct :=
  (producer garbage).extend {} ScopeAct.drives (fun p a => a.Enabled p.2) fun p a =>
    match a with
    | .level a => { p.2 with toXactLevels := p.2.toXactLevels.next a }
    | .call call => p.2.after call p.1 ((producer garbage).next p.1 call)

/-! ## The invariant -/

/-- What was created there is stamped with its level, or further in than that is undone. -/
def Origin.Fits (o : Origin) (x : XactLevels) : Prop :=
  ∀ sub ∈ o.sub, sub < x.nextSub ∧ Covers x.levels sub o.level

structure ScopeInv (s : St) (x : ScopeSt) : Prop where
  nrec : ∀ i, s.life.LiveNrec i →
    (s.nrecs i).nestLevel = if x.session (.nrec i) then 0 else (x.started (.nrec i)).level
  activation : ∀ e ∈ s.spanStack, e.isActivation = true → e.nestLevel = (x.pushed e.entry).level
  started_fits : ∀ e, (x.started e).Fits x.toXactLevels
  pushed_fits : ∀ e, (x.pushed e).Fits x.toXactLevels
  ids_old : ∀ y ∈ x.levels, y.id < x.nextSub

theorem Origin.Fits.next {o : Origin} {x : XactLevels} {a : LevelAct} (h : o.Fits x)
    (hen : a.Enabled x) : o.Fits (x.next a) := fun sub hsub =>
  ⟨(h sub hsub).1.trans_le (x.nextSub_le a), (h sub hsub).2.next hen (h sub hsub).1⟩

theorem XactLevels.origin_fits {x : XactLevels} (h : ∀ y ∈ x.levels, y.id < x.nextSub) :
    x.origin.Fits x := by
  intro sub hsub
  obtain ⟨y, hy, rfl⟩ := Option.map_eq_some_iff.1 hsub
  exact ⟨h y (List.mem_of_mem_head? hy), .current x.levels y.id⟩

theorem XactLevels.ids_next {x : XactLevels} (h : ∀ y ∈ x.levels, y.id < x.nextSub) (a : LevelAct) :
    ∀ y ∈ (x.next a).levels, y.id < (x.next a).nextSub := by
  cases a with
  | begin =>
    intro y hy
    rw [List.mem_singleton.1 hy]
    exact Nat.lt_succ_self _
  | savepoint =>
    exact List.forall_mem_cons.2 ⟨Nat.lt_succ_self _, fun y hy => (h y hy).trans (Nat.lt_succ_self _)⟩
  | release =>
    unfold next
    dsimp only
    split
    · rename_i top parent rest hlevels
      rw [hlevels] at h
      refine List.forall_mem_cons.2 ⟨h parent (by simp), fun y hy => h y (by simp [hy])⟩
    · exact h
  | commit => exact fun y hy => absurd hy List.not_mem_nil
  | abort =>
    unfold next
    dsimp only
    split
    · rename_i top rest hlevels
      rw [hlevels] at h
      refine List.forall_mem_cons.2 ⟨h top (by simp), fun y hy => h y (by simp [hy])⟩
    · exact h
  | cleanup => exact fun y hy => h y (List.mem_of_mem_tail hy)

namespace ScopeInv

variable {s s' : St} {x : ScopeSt}

theorem init {garbage : ℕ → OtelSlot} : ScopeInv (initSt garbage) {} where
  nrec i hi := absurd hi.1 (Nat.not_lt_zero i)
  activation e he := absurd he List.not_mem_nil
  started_fits e sub hsub := by cases hsub
  pushed_fits e sub hsub := by cases hsub
  ids_old y hy := absurd hy List.not_mem_nil

theorem level (h : ScopeInv s x) {a : LevelAct} (hen : a.Enabled x.toXactLevels) :
    ScopeInv s { x with toXactLevels := x.toXactLevels.next a } where
  nrec := h.nrec
  activation := h.activation
  started_fits e := (h.started_fits e).next hen
  pushed_fits e := (h.pushed_fits e).next hen
  ids_old := XactLevels.ids_next h.ids_old a

variable {call : Call}

theorem after (h : ScopeInv s x) (hen : ∀ a ∈ call.op.levelAct, a.Enabled x.toXactLevels)
    (hnrec : ∀ i, s'.life.LiveNrec i → (s'.nrecs i).nestLevel =
      if (x.after call s s').session (.nrec i) then 0
      else ((x.after call s s').started (.nrec i)).level)
    (hact : ∀ e ∈ s'.spanStack, e.isActivation = true →
      e.nestLevel = ((x.after call s s').pushed e.entry).level) :
    ScopeInv s' (x.after call s s') := by
  have hfits {o : Origin} (ho : o.Fits x.toXactLevels) :
      o.Fits (x.after call s s').toXactLevels := by
    unfold ScopeSt.after
    cases hact : call.op.levelAct with
    | none => exact ho
    | some a => exact ho.next (hen a hact)
  have hcurrent := XactLevels.origin_fits h.ids_old
  refine ⟨hnrec, hact, fun e => hfits ?_, fun e => hfits ?_, ?_⟩
  · unfold ScopeSt.after
    dsimp only
    split_ifs
    · exact hcurrent
    · exact h.started_fits e
  · unfold ScopeSt.after
    dsimp only
    split_ifs
    · exact hcurrent
    · exact h.pushed_fits e
  · unfold ScopeSt.after
    cases call.op.levelAct with
    | none => exact h.ids_old
    | some a => exact XactLevels.ids_next h.ids_old a

theorem kept_activation (h : ScopeInv s x) {e : StackEntry} (he : e ∈ s.spanStack)
    (hact : e.isActivation = true) :
    e.nestLevel = ((x.after call s s').pushed e.entry).level := by
  have hold : s.life.OnStack e.entry := Lifecycle.onStack_iff.2 ⟨e, he, rfl⟩
  simp only [ScopeSt.after, hold, not_true_eq_false, and_false, if_false]
  exact h.activation e he hact

/-- The records of what stays are kept. -/
theorem evolves {eff : Effects} (h : ScopeInv s x) (hev : Evolves eff s s')
    (hen : ∀ a ∈ call.op.levelAct, a.Enabled x.toXactLevels) :
    ScopeInv s' (x.after call s s') := by
  refine h.after hen (fun i hi => ?_) fun e he hact => ?_
  · have hold : s.life.Live (.nrec i) := (hev.live (.nrec i) hi).1
    simp only [ScopeSt.after, hold, not_true_eq_false, and_false, if_false]
    rw [(hev.nrec i hi).nestLevel]
    exact h.nrec i hold
  · exact h.kept_activation (hev.stack.subset he) hact

theorem nrecNestLevel_eq {args : OtelSpanStartArgs} (hop : call.op = .spanStart (some args)) :
    nrecNestLevel call.env args =
      if call.startsSession then 0 else call.env.currentTransactionNestLevel := by
  simp only [nrecNestLevel, Call.startsSession, hop, decide_eq_true_eq]

theorem step (garbage : ℕ → OtelSlot) (h : ScopeInv s x) (hinv : PoolInv s.life)
    (hlevel : call.env.currentTransactionNestLevel = x.levels.length)
    (hen : ∀ a ∈ call.op.levelAct, a.Enabled x.toXactLevels) :
    ScopeInv ((producer garbage).next s call) (x.after call s ((producer garbage).next s call)) := by
  have henter : ScopeInv (s.enter call) x := ⟨h.1, h.2, h.3, h.4, h.5⟩
  have hafter (s₁ : St) : x.after call (s.enter call) s₁ = x.after call s s₁ := rfl
  have hstep : Step call.env (s.enter call) call.op ((producer garbage).next s call) :=
    step_cases call.env call.op hinv
  revert hstep
  generalize (producer garbage).next s call = s'
  generalize hop : call.op = op
  intro hstep
  rw [← hafter]
  cases hstep with
  | start args ref _ hx hstarted =>
    cases hstarted with
    | refused _ _ hev _ => exact henter.evolves hev hen
    | opened args p d e s₁ _ hparent hd hev hprep hopens hknown =>
      have hfree : ¬ (s.enter call).life.Live e := fun hl => hopens.free ((hprep.live e).2 hl)
      refine henter.after hen (fun i hi => ?_) fun y hy hact => ?_
      · have hi' : s'.life.Live (.nrec i) := hi
        by_cases he : e = .nrec i
        · subst he
          cases hknown with
          | nrec _ _ _ _ hnest =>
            simp only [ScopeSt.after, hi', hfree, not_false_eq_true, and_self, if_true]
            rw [hnest, nrecNestLevel_eq hop, hlevel]
            rfl
        · have hl : s₁.life.Live (.nrec i) :=
            (hopens.live_iff.1 hi').resolve_right fun heq => he heq.symm
          have hold := (hprep.live _).1 hl
          simp only [ScopeSt.after, hold, not_true_eq_false, and_false, if_false]
          rw [hopens.nrec i he, (hev.nrec i hl).nestLevel]
          exact henter.nrec i hold
      · have hmem : y ∈ s₁.spanStack := by
          rw [hopens.stack] at hy
          split_ifs at hy
          · exact hy
          · refine (List.mem_cons.1 hy).resolve_left fun heq => ?_
            rw [heq] at hact
            cases hact
        exact henter.kept_activation (hev.stack.subset hmem) hact
  | startRaised args e _ hx hev => exact henter.evolves hev hen
  | activate ref e _ hact =>
    have hpush := hact.push
    refine henter.after hen (fun i hi => ?_) fun y hy hactivation => ?_
    · rw [hpush] at hi ⊢
      have hold : (s.enter call).life.Live (.nrec i) := hi
      simp only [ScopeSt.after, hold, not_true_eq_false, and_false, if_false]
      exact henter.nrec i hi
    · have hon : s'.life.OnStack e := by
        rw [hpush]
        exact List.mem_cons_self
      rw [hpush] at hy
      rcases List.mem_cons.1 hy with rfl | hy
      · simp only [ScopeSt.after, hon, hact.off, not_false_eq_true, and_self, if_true]
        exact hlevel
      · exact henter.kept_activation hy hactivation
  | other _ _ _ hev => exact henter.evolves hev hen

end ScopeInv

variable {garbage : ℕ → OtelSlot} {p : St × ScopeSt}

theorem reachable_scopeInv (h : (scopeRuns garbage).Reachable p) : ScopeInv p.1 p.2 :=
  Machine.ReachBy.invariantOver (k := fun _ _ => True) (I := fun p => ScopeInv p.1 p.2)
    (fun _ _ _ _ _ => trivial) .init (fun _ a hreach hI hen _ => by
      cases a with
      | level a => exact hI.level hen.2.2
      | call c => exact hI.step garbage (reachable_poolInv hreach) hen.2.1 hen.2.2.1) h

/-! ## Aborts -/

theorem wp_freeNrecsFromLevel_keeps (level : ℕ) (idxs : List ℕ) (s : St) :
    Wp (freeNrecsFromLevel level idxs)
      (fun _ s' => s'.spanStack = s.spanStack ∧ s'.counters = s.counters) (fun _ _ => False) s := by
  induction idxs generalizing s with
  | nil => exact ⟨rfl, rfl⟩
  | cons i rest ih =>
    unfold freeNrecsFromLevel freeNrec
    rw [wp_bind, wp_get, wp_bind, wp_runIf, wp_modify]
    exact ⟨fun _ => ih _, fun _ => ih s⟩

/-- The entries that the end of a level takes. -/
def St.takenFrom (s : St) (level : ℕ) (e : StackEntry) : Bool :=
  nrecFromLevel s level e || (e.isActivation && decide (level ≤ e.nestLevel))

/-- What the end of a level does to the stack: the non-recording spans go first, and the activations
that are still there after that may be counted. -/
structure DropsFromLevel (level : ℕ) (isLeak : Bool) (s s' : St) : Prop where
  stack : s'.spanStack = s.spanStack.filter fun e => !s.takenFrom level e
  leaked : s'.counters.activationLeakedAtCommit = s.counters.activationLeakedAtCommit +
    if isLeak then s.spanStack.countP fun e =>
      (e.isActivation && decide (level ≤ e.nestLevel)) && !nrecFromLevel s level e else 0

theorem wp_dropFromLevel (level : ℕ) (isLeak : Bool) (s : St) :
    Wp (do dropNrecsFromLevel level; dropActivationsFromLevel level isLeak)
      (fun _ => DropsFromLevel level isLeak s) (fun _ => DropsFromLevel level isLeak s) s := by
  unfold dropNrecsFromLevel dropActivationsFromLevel
  rw [wp_bind, wp_bind, wp_modify, wp_bind, wp_get]
  refine (wp_freeNrecsFromLevel_keeps _ _ _).mono (fun _ s₁ h₁ => ?_) fun _ _ hf => hf.elim
  obtain ⟨hstack, hcounters⟩ := h₁
  have hkept : (s₁.spanStack.filter fun e => !(e.isActivation && decide (level ≤ e.nestLevel))) =
      s.spanStack.filter fun e => !s.takenFrom level e := by
    rw [hstack, List.filter_filter]
    refine List.filter_congr fun e _ => ?_
    rw [St.takenFrom, Bool.not_or, Bool.and_comm]
  rw [wp_bind, wp_get, wp_bind, wp_modify, wp_runIf]
  refine ⟨fun hleak => ⟨hkept, ?_⟩, fun hleak => ⟨hkept, ?_⟩⟩
  · simp only [hleak, if_true]
    rw [hstack, List.countP_filter, hcounters]
  · rw [if_neg hleak]
    exact congrArg OtelApiCounters.activationLeakedAtCommit hcounters

theorem spanStack_subxactAbort (env : Env) (s : St) :
    (endState (otelSubxactCallback env .abortSub) s).spanStack =
      s.spanStack.filter fun e => !s.takenFrom env.currentTransactionNestLevel e :=
  (wp_dropFromLevel env.currentTransactionNestLevel false s).endState.stack

theorem St.takenFrom_iff {s : St} {level : ℕ} {e : StackEntry} : s.takenFrom level e = true ↔
    (e.isActivation = true ∧ level ≤ e.nestLevel) ∨
      ∃ i, e.entry = .nrec i ∧ level ≤ (s.nrecs i).nestLevel := by
  obtain ⟨entry, isActivation, nestLevel⟩ := e
  cases entry with
  | slot i => simp [takenFrom, nrecFromLevel]
  | nrec i => simp [takenFrom, nrecFromLevel, or_comm]

/-- What the abort of `top` undoes: activations made in it, and non-recording spans started in it but
for session spans. -/
def ScopeSt.Undoes (x : ScopeSt) (top : Subxact) (e : StackEntry) : Prop :=
  (e.isActivation = true ∧ (x.pushed e.entry).In top.members) ∨
    ∃ i, e.entry = .nrec i ∧ x.session (.nrec i) = false ∧ (x.started (.nrec i)).In top.members

/-- Created at the level of `top` or further in, but not in what `top` undoes. -/
def ScopeSt.Elsewhere (x : ScopeSt) (top : Subxact) (o : Origin) : Prop :=
  x.levels.length ≤ o.level ∧ ¬ o.In top.members

/-- An activation or a non-recording span that another subtransaction has left behind with such a
level. -/
def ScopeSt.LeftBehind (x : ScopeSt) (top : Subxact) (e : StackEntry) : Prop :=
  (e.isActivation = true ∧ x.Elsewhere top (x.pushed e.entry)) ∨
    ∃ i, e.entry = .nrec i ∧ x.session (.nrec i) = false ∧
      x.Elsewhere top (x.started (.nrec i))

theorem Origin.Fits.level_le {o : Origin} {x : XactLevels} {top : Subxact} {rest : List Subxact}
    (h : o.Fits x) (hlevels : x.levels = top :: rest) (hin : o.In top.members) :
    x.levels.length ≤ o.level := by
  obtain ⟨sub, hsub, hmem⟩ := hin
  have hcovers := (h sub hsub).2
  rw [hlevels] at hcovers ⊢
  exact hcovers.head hmem

/-- The stamps of an entry say whether it was created in what the abort undoes, unless it was left
behind by another subtransaction. -/
theorem ScopeInv.taken_iff {s : St} {x : ScopeSt} (h : ScopeInv s x) (hinv : PoolInv s.life)
    {top : Subxact} {rest : List Subxact} (hlevels : x.levels = top :: rest) {e : StackEntry}
    (he : e ∈ s.spanStack) (hleft : ¬ x.LeftBehind top e) :
    s.takenFrom x.levels.length e = true ↔ x.Undoes top e := by
  have hpos : 0 < x.levels.length := by
    rw [hlevels]
    exact Nat.succ_pos _
  have hstamp {i : ℕ} (hi : e.entry = .nrec i) :
      (s.nrecs i).nestLevel = if x.session (.nrec i) then 0 else (x.started (.nrec i)).level :=
    h.nrec i (hi ▸ hinv.stack_live e he : s.life.Live (.nrec i))
  rw [St.takenFrom_iff]
  constructor
  · rintro (⟨hact, hle⟩ | ⟨i, hi, hle⟩)
    · rw [h.activation e he hact] at hle
      exact .inl ⟨hact, by_contra fun hnot => hleft (.inl ⟨hact, hle, hnot⟩)⟩
    · rw [hstamp hi] at hle
      split_ifs at hle with hsession
      · omega
      · have hsession := Bool.eq_false_iff.2 hsession
        exact .inr ⟨i, hi, hsession, by_contra fun hnot => hleft (.inr ⟨i, hi, hsession, hle, hnot⟩)⟩
  · rintro (⟨hact, hin⟩ | ⟨i, hi, hsession, hin⟩)
    · refine .inl ⟨hact, ?_⟩
      rw [h.activation e he hact]
      exact (h.pushed_fits _).level_le hlevels hin
    · refine .inr ⟨i, hi, ?_⟩
      rw [hstamp hi, hsession]
      exact (h.started_fits _).level_le hlevels hin

/-- The abort of a subtransaction takes the activations and the non-recording spans created in it or
in those committed into it, session spans apart, and keeps all other entries in order, whatever
happens to those that a subtransaction of such a level left behind elsewhere. -/
theorem subxact_abort_drops_own (h : (scopeRuns garbage).Reachable p) {call : Call}
    (hop : call.op = .subxactCallback .abortSub) (hen : (scopeRuns garbage).enabled p (.call call))
    {top : Subxact} {rest : List Subxact} (hlevels : p.2.levels = top :: rest) :
    ((scopeRuns garbage).next p (.call call)).1.spanStack.Sublist p.1.spanStack ∧
      ∀ e ∈ p.1.spanStack, ¬ p.2.LeftBehind top e →
        (e ∈ ((scopeRuns garbage).next p (.call call)).1.spanStack ↔ ¬ p.2.Undoes top e) := by
  have hstack : ((scopeRuns garbage).next p (.call call)).1.spanStack =
      p.1.spanStack.filter fun e => !p.1.takenFrom p.2.levels.length e := by
    have hnext : ((scopeRuns garbage).next p (.call call)).1 =
        endState (otelSubxactCallback call.env .abortSub) (p.1.enter call) := by
      change endState (runOp call.env call.op) (p.1.enter call) = _
      rw [hop]
      rfl
    rw [hnext, spanStack_subxactAbort, hen.2.1]
    rfl
  have hinv : PoolInv p.1.life := reachable_poolInv (h.base fun _ _ _ _ _ => trivial)
  rw [hstack]
  refine ⟨List.filter_sublist, fun e he hleft => ?_⟩
  rw [List.mem_filter, Bool.not_eq_true', ← Bool.not_eq_true,
    (reachable_scopeInv h).taken_iff hinv hlevels he hleft]
  exact and_iff_right he

/-! ## Runs -/

/-- A call at some level, where no new root is sampled. -/
def callAt (level : ℕ) (op : ProducerOp) : ScopeAct :=
  .call {
    env := { currentTransactionNestLevel := level, samplerMode := .parentbasedAlwaysOff,
             currentResourceOwner := some 0 }
    backend := {}
    op }

/-- A non-recording span is started in a transaction; another, and one for the session, in a
subtransaction, which also activates the third. -/
def spansInSubxact : St × ScopeSt :=
  [.level .begin, callAt 1 (.spanStart (some { name := some (cstr "outer") })), .level .savepoint,
    callAt 2 (.spanStart (some { name := some (cstr "inner") })),
    callAt 2 (.spanStart (some { name := some (cstr "session"), owner := .session,
                                 detached := true })),
    callAt 2 (.spanActivate (makeRef 3 2 false))].foldl (scopeRuns fun _ => {}).next
    (scopeRuns fun _ => {}).init

theorem noLevelAct {op : ProducerOp} {x : XactLevels} (h : op.levelAct = none) :
    ∀ a ∈ op.levelAct, a.Enabled x := fun a ha => by
  rw [h] at ha
  cases ha

theorem reachable_spansInSubxact : (scopeRuns fun _ => {}).Reachable spansInSubxact := by
  refine Machine.ReachBy.run .init
    ⟨⟨(fun a ha => by cases ha), by decide, rfl⟩, trivial,
      ⟨(fun a ha => ?_), rfl, noLevelAct rfl, trivial⟩, trivial,
      ⟨(fun a ha => by cases ha), by decide, _, _, rfl, rfl⟩, trivial,
      ⟨(fun a ha => ?_), rfl, noLevelAct rfl, trivial⟩, trivial,
      ⟨(fun a ha => ?_), rfl, noLevelAct rfl, trivial⟩, trivial,
      ⟨(fun a ha => ?_), rfl, noLevelAct rfl, trivial⟩, trivial, trivial⟩ <;>
    obtain rfl := Option.some.inj ha
  · exact trivial
  · exact trivial
  · exact trivial
  · exact (by decide : (makeRef 3 2 false).Issued)

/-- The abort of a subtransaction. -/
def abortAt (level : ℕ) : Call where
  env := { currentTransactionNestLevel := level }
  backend := {}
  op := .subxactCallback .abortSub

theorem subxact_abort_drops_own_spansInSubxact :
    spansInSubxact.1.spanStack =
      [⟨.nrec 2, true, 2⟩, ⟨.nrec 1, false, 0⟩, ⟨.nrec 0, false, 0⟩] ∧
    ⟨.nrec 2, true, 2⟩ ∉
      ((scopeRuns fun _ => {}).next spansInSubxact (.call (abortAt 2))).1.spanStack ∧
    ⟨.nrec 1, false, 0⟩ ∉
      ((scopeRuns fun _ => {}).next spansInSubxact (.call (abortAt 2))).1.spanStack ∧
    ⟨.nrec 0, false, 0⟩ ∈
      ((scopeRuns fun _ => {}).next spansInSubxact (.call (abortAt 2))).1.spanStack := by
  have hstack : spansInSubxact.1.spanStack =
      [⟨.nrec 2, true, 2⟩, ⟨.nrec 1, false, 0⟩, ⟨.nrec 0, false, 0⟩] := by decide +kernel
  have hlevels : spansInSubxact.2.levels = [{ id := 1 }, { id := 0 }] := by decide +kernel
  have hpushed : spansInSubxact.2.pushed (.nrec 2) = ⟨some 1, 2⟩ := by decide +kernel
  have houter : spansInSubxact.2.started (.nrec 0) = ⟨some 0, 1⟩ := by decide +kernel
  have hinner : spansInSubxact.2.session (.nrec 1) = false ∧
      spansInSubxact.2.started (.nrec 1) = ⟨some 1, 2⟩ := by decide +kernel
  have hsession : spansInSubxact.2.session (.nrec 2) = true := by decide +kernel
  have hen : (scopeRuns fun _ => {}).enabled spansInSubxact (.call (abortAt 2)) := by
    refine ⟨fun a ha => ?_, by decide +kernel, fun a ha => ?_, ?_⟩
    · obtain rfl := Option.some.inj ha
      exact trivial
    · obtain rfl := Option.some.inj ha
      exact ⟨_, _, hlevels, rfl⟩
    · exact (by decide +kernel : 2 ≤ spansInSubxact.2.levels.length)
  obtain ⟨-, hkept⟩ := subxact_abort_drops_own reachable_spansInSubxact rfl hen hlevels
  refine ⟨hstack, ?_, ?_, ?_⟩
  · rw [hkept _ (by rw [hstack]; decide) ?_, not_not]
    · exact .inl ⟨rfl, by rw [hpushed]; decide⟩
    · rintro (⟨-, -, hnot⟩ | ⟨i, hi, hs, -⟩)
      · rw [hpushed] at hnot
        exact hnot (by decide)
      · rw [← hi, hsession] at hs
        cases hs
  · rw [hkept _ (by rw [hstack]; decide) ?_, not_not]
    · exact .inr ⟨1, rfl, hinner.1, by rw [hinner.2]; decide⟩
    · rintro (⟨hact, -⟩ | ⟨i, hi, -, -, hnot⟩)
      · cases hact
      · rw [← hi, hinner.2] at hnot
        exact hnot (by decide)
  · rw [hkept _ (by rw [hstack]; decide) ?_]
    · rintro (⟨hact, -⟩ | ⟨i, hi, -, hin⟩)
      · cases hact
      · rw [← hi, houter] at hin
        exact absurd hin (by decide)
    · rintro (⟨hact, -⟩ | ⟨i, hi, -, hle, -⟩)
      · cases hact
      · rw [← hi, houter, hlevels] at hle
        exact absurd hle (by decide)

/-- A non-recording span for the session is started in a subtransaction. -/
def sessionInSubxact : St × ScopeSt :=
  [.level .begin, .level .savepoint,
    callAt 2 (.spanStart (some { name := some (cstr "session"), owner := .session }))].foldl
    (scopeRuns fun _ => {}).next (scopeRuns fun _ => {}).init

/-- A span is activated in a subtransaction that is released, and the next one is aborted. -/
def releasedActivation : St × ScopeSt :=
  [.level .begin, .level .savepoint,
    callAt 2 (.spanStart (some { name := some (cstr "session"), owner := .session,
                                 detached := true, forceSample := true })),
    callAt 2 (.spanActivate (makeRef 1 0 true)), .level .release, .level .savepoint].foldl
    (scopeRuns fun _ => {}).next (scopeRuns fun _ => {}).init

/-- A session span outlives the subtransaction it was started in, by design, and the abort of the
sibling takes an activation that a released subtransaction has made. -/
theorem abort_keeps_session_takes_sibling :
    (scopeRuns fun _ => {}).Reachable sessionInSubxact ∧
    sessionInSubxact.2.levels.map Subxact.members = [[1], [0]] ∧
    sessionInSubxact.2.started (.nrec 0) = ⟨some 1, 2⟩ ∧
    ((scopeRuns fun _ => {}).next sessionInSubxact (.call (abortAt 2))).1.spanStack =
      [⟨.nrec 0, false, 0⟩] ∧
    (scopeRuns fun _ => {}).Reachable releasedActivation ∧
    releasedActivation.2.levels.map Subxact.members = [[2], [0, 1]] ∧
    releasedActivation.1.spanStack = [⟨.slot 0, true, 2⟩] ∧
    releasedActivation.2.pushed (.slot 0) = ⟨some 1, 2⟩ ∧
    ((scopeRuns fun _ => {}).next releasedActivation (.call (abortAt 2))).1.spanStack = [] := by
  refine ⟨?_, by decide +kernel, by decide +kernel, by decide +kernel, ?_, by decide +kernel,
    by decide +kernel, by decide +kernel, by decide +kernel⟩
  · refine Machine.ReachBy.run .init
      ⟨⟨(fun a ha => by cases ha), by decide, rfl⟩, trivial,
        ⟨(fun a ha => by cases ha), by decide, _, _, rfl, rfl⟩, trivial,
        ⟨(fun a ha => ?_), rfl, noLevelAct rfl, trivial⟩, trivial, trivial⟩
    obtain rfl := Option.some.inj ha
    exact trivial
  · refine Machine.ReachBy.run .init
      ⟨⟨(fun a ha => by cases ha), by decide, rfl⟩, trivial,
        ⟨(fun a ha => by cases ha), by decide, _, _, rfl, rfl⟩, trivial,
        ⟨(fun a ha => ?_), rfl, noLevelAct rfl, trivial⟩, trivial,
        ⟨(fun a ha => ?_), rfl, noLevelAct rfl, trivial⟩, trivial,
        ⟨(fun a ha => by cases ha), by decide, _, _, _, rfl, rfl⟩, trivial,
        ⟨(fun a ha => by cases ha), by decide, _, _, rfl, rfl⟩, trivial, trivial⟩ <;>
      obtain rfl := Option.some.inj ha
    · exact trivial
    · exact (by decide : (makeRef 1 0 true).Issued)

end PostgresOtel
