import Mathlib.Logic.Function.Basic
import PostgresOtel.Lib.Machine

/-!
# Cells under spin locks

Shared cells, each with a lock of its own, and processes whose operations read and write one cell
in several steps while they hold its lock.  Steps of different processes interleave freely.  The
locks make every operation atomic: the operations that have completed, in the order in which they
released their locks, are a history of cells on which operations run at once.
-/

set_option autoImplicit false

namespace SpinLock

variable {ι P σ τ Op : Type}

/-- Operations by the lock they take, the values their own variables have at first, and the steps
they take on the cell and these variables. -/
structure Sections (ι σ τ Op : Type) where
  lock : Op → ι
  start : Op → τ
  steps : Op → List (σ × τ → σ × τ)

/-- Steps one after another. -/
def runSteps (steps : List (σ × τ → σ × τ)) (x : σ × τ) : σ × τ := steps.foldl (fun x f => f x) x

/-- An operation run at once. -/
def Sections.run (k : Sections ι σ τ Op) (op : Op) (cell : σ) : σ × τ :=
  runSteps (k.steps op) (cell, k.start op)

/-- Where a process is: outside of any operation, waiting for a lock, or inside a section with the
steps still to take.  `entered` only records what the cell was when the lock was taken. -/
inductive Phase (σ τ Op : Type)
  | idle
  | waiting (op : Op)
  | inside (op : Op) (entered : σ) (rest : List (σ × τ → σ × τ)) (vars : τ)

/-- The operation a process is at. -/
def Phase.op : Phase σ τ Op → Option Op
  | .idle => none
  | .waiting op => some op
  | .inside op _ _ _ => some op

def Phase.entered : Phase σ τ Op → Option σ
  | .inside _ entered _ _ => some entered
  | _ => none

/-- The cells, who holds each lock, and the operations that have completed, oldest first, with the
final values of their variables. -/
structure State (ι P σ τ Op : Type) where
  cells : ι → σ
  holder : ι → Option P
  phase : P → Phase σ τ Op
  done : List (P × Op × τ)

inductive Act (P Op : Type)
  | call (p : P) (op : Op)
  | acquire (p : P)
  | step (p : P)
  | release (p : P)

variable (k : Sections ι σ τ Op)

def Act.Enabled (s : State ι P σ τ Op) : Act P Op → Prop
  | .call p _ => s.phase p = .idle
  | .acquire p => ∃ op, s.phase p = .waiting op ∧ s.holder (k.lock op) = none
  | .step p => ∃ op entered f rest vars, s.phase p = .inside op entered (f :: rest) vars
  | .release p => ∃ op entered vars, s.phase p = .inside op entered [] vars

/-- What the cells are between the operations that have completed. -/
def State.between (s : State ι P σ τ Op) (i : ι) : σ :=
  ((s.holder i).bind fun p => (s.phase p).entered).getD (s.cells i)

/-- Each lock is held by the process inside a section under it, and the section has got to where the
steps left lead to the result of the whole. -/
structure Ok (s : State ι P σ τ Op) : Prop where
  holds : ∀ i p, s.holder i = some p ↔
    ∃ op entered rest vars, s.phase p = .inside op entered rest vars ∧ k.lock op = i
  inside : ∀ p op entered rest vars, s.phase p = .inside op entered rest vars →
    runSteps rest (s.cells (k.lock op), vars) = k.run op entered

def State.init (cells : ι → σ) : State ι P σ τ Op :=
  { cells := cells, holder := fun _ => none, phase := fun _ => .idle, done := [] }

theorem ok_init (cells : ι → σ) : Ok k (.init cells : State ι P σ τ Op) where
  holds i p := by
    constructor
    · intro h
      cases h
    · rintro ⟨op, entered, rest, vars, h, -⟩
      cases h
  inside p op entered rest vars h := by cases h

section Inside

variable {k} {s : State ι P σ τ Op} {p q : P} {op op' : Op} {entered entered' : σ}
  {rest rest' : List (σ × τ → σ × τ)} {vars vars' : τ}

theorem Ok.holder_eq (h : Ok k s) (hp : s.phase p = .inside op entered rest vars) :
    s.holder (k.lock op) = some p :=
  (h.holds _ p).2 ⟨op, entered, rest, vars, hp, rfl⟩

/-- Only one process is inside under a lock. -/
theorem Ok.exclusive (h : Ok k s) (hp : s.phase p = .inside op entered rest vars)
    (hq : s.phase q = .inside op' entered' rest' vars') (hlock : k.lock op' = k.lock op) : q = p := by
  have hholder := h.holder_eq hq
  rw [hlock, h.holder_eq hp] at hholder
  exact (Option.some.inj hholder).symm

theorem Ok.holder_ne (h : Ok k s) (hp : s.phase p = .inside op entered rest vars) {i : ι}
    (hi : i ≠ k.lock op) : s.holder i ≠ some p := by
  intro hq
  obtain ⟨_, _, _, _, hin, hlock⟩ := (h.holds i p).1 hq
  rw [hp] at hin
  injection hin with hop
  exact hi (hop ▸ hlock.symm)

/-- A cell under a lock that is held is between operations what it was when the lock was taken. -/
theorem Ok.between_eq (h : Ok k s) (hp : s.phase p = .inside op entered rest vars) :
    s.between (k.lock op) = entered := by
  simp [State.between, h.holder_eq hp, hp, Phase.entered]

end Inside

/-! ## Steps -/

variable [DecidableEq ι] [DecidableEq P]

def State.next (s : State ι P σ τ Op) : Act P Op → State ι P σ τ Op
  | .call p op => { s with phase := Function.update s.phase p (.waiting op) }
  | .acquire p =>
    match s.phase p with
    | .waiting op =>
      { s with
        holder := Function.update s.holder (k.lock op) (some p)
        phase := Function.update s.phase p
          (.inside op (s.cells (k.lock op)) (k.steps op) (k.start op)) }
    | _ => s
  | .step p =>
    match s.phase p with
    | .inside op entered (f :: rest) vars =>
      let x := f (s.cells (k.lock op), vars)
      { s with
        cells := Function.update s.cells (k.lock op) x.1
        phase := Function.update s.phase p (.inside op entered rest x.2) }
    | _ => s
  | .release p =>
    match s.phase p with
    | .inside op _ [] vars =>
      { s with
        holder := Function.update s.holder (k.lock op) none
        phase := Function.update s.phase p .idle
        done := s.done ++ [(p, op, vars)] }
    | _ => s

/-- The processes with the locks. -/
def locked (cells : ι → σ) : Machine (State ι P σ τ Op) (Act P Op) where
  init := .init cells
  enabled s a := a.Enabled k s
  next := State.next k

section Steps

variable {k} {s : State ι P σ τ Op} {a : Act P Op}

omit [DecidableEq ι] in
/-- Steps of a process that has no lock before and after leave the invariant alone. -/
theorem Ok.outside (h : Ok k s) {p : P} {ph : Phase σ τ Op}
    (hp : ∀ op entered rest vars, s.phase p ≠ .inside op entered rest vars)
    (hph : ∀ op entered rest vars, ph ≠ .inside op entered rest vars) :
    Ok k { s with phase := Function.update s.phase p ph } where
  holds i q := by
    change s.holder i = some q ↔ _
    rw [h.holds]
    by_cases hq : q = p
    · subst hq
      simp [hp, hph]
    · simp only [Function.update_of_ne hq]
  inside q op entered rest vars hq := by
    dsimp only at hq
    by_cases hqp : q = p
    · subst hqp
      rw [Function.update_self] at hq
      exact absurd hq (hph _ _ _ _)
    · rw [Function.update_of_ne hqp] at hq
      exact h.inside q op entered rest vars hq

theorem Ok.acquired (h : Ok k s) {p : P} {op : Op} (hp : s.phase p = .waiting op)
    (hfree : s.holder (k.lock op) = none) : Ok k (s.next k (.acquire p)) := by
  simp only [State.next, hp]
  constructor
  · intro i q
    dsimp only
    by_cases hq : q = p
    · subst hq
      rw [Function.update_self]
      by_cases hi : i = k.lock op
      · subst hi
        rw [Function.update_self]
        exact iff_of_true rfl ⟨op, _, _, _, rfl, rfl⟩
      · rw [Function.update_of_ne hi, h.holds, hp]
        constructor
        · rintro ⟨_, _, _, _, heq, -⟩
          cases heq
        · rintro ⟨op', _, _, _, heq, hlock⟩
          injection heq with hop
          exact absurd (hop ▸ hlock.symm) hi
    · rw [Function.update_of_ne hq, ← h.holds]
      by_cases hi : i = k.lock op
      · subst hi
        rw [Function.update_self, hfree]
        simp [Ne.symm hq]
      · rw [Function.update_of_ne hi]
  · intro q op' entered rest vars hq
    dsimp only at hq ⊢
    by_cases hqp : q = p
    · subst hqp
      rw [Function.update_self] at hq
      injection hq with h₁ h₂ h₃ h₄
      subst h₁ h₂ h₃ h₄
      rfl
    · rw [Function.update_of_ne hqp] at hq
      exact h.inside q op' entered rest vars hq

theorem Ok.stepped (h : Ok k s) {p : P} {op : Op} {entered : σ} {f : σ × τ → σ × τ}
    {rest : List (σ × τ → σ × τ)} {vars : τ} (hp : s.phase p = .inside op entered (f :: rest) vars) :
    Ok k (s.next k (.step p)) := by
  simp only [State.next, hp]
  constructor
  · intro i q
    dsimp only
    rw [h.holds]
    by_cases hq : q = p
    · subst hq
      simp [hp]
    · simp only [Function.update_of_ne hq]
  · intro q op' entered' rest' vars' hq
    dsimp only at hq ⊢
    by_cases hqp : q = p
    · subst hqp
      rw [Function.update_self] at hq
      injection hq with h₁ h₂ h₃ h₄
      subst h₁ h₂ h₃ h₄
      rw [Function.update_self]
      exact h.inside _ _ _ _ _ hp
    · rw [Function.update_of_ne hqp] at hq
      have hlock : k.lock op' ≠ k.lock op := fun heq => hqp (h.exclusive hp hq heq)
      rw [Function.update_of_ne hlock]
      exact h.inside q op' entered' rest' vars' hq

theorem Ok.released (h : Ok k s) {p : P} {op : Op} {entered : σ} {vars : τ}
    (hp : s.phase p = .inside op entered [] vars) : Ok k (s.next k (.release p)) := by
  simp only [State.next, hp]
  constructor
  · intro i q
    dsimp only
    by_cases hq : q = p
    · subst hq
      rw [Function.update_self]
      by_cases hi : i = k.lock op
      · subst hi
        simp
      · rw [Function.update_of_ne hi, h.holds, hp]
        constructor
        · rintro ⟨_, _, _, _, heq, hlock⟩
          injection heq with hop
          exact absurd (hop ▸ hlock.symm) hi
        · rintro ⟨_, _, _, _, heq, -⟩
          cases heq
    · rw [Function.update_of_ne hq, ← h.holds]
      by_cases hi : i = k.lock op
      · subst hi
        rw [Function.update_self, h.holder_eq hp]
        simp [Ne.symm hq]
      · rw [Function.update_of_ne hi]
  · intro q op' entered' rest' vars' hq
    dsimp only at hq ⊢
    by_cases hqp : q = p
    · subst hqp
      rw [Function.update_self] at hq
      cases hq
    · rw [Function.update_of_ne hqp] at hq
      exact h.inside q op' entered' rest' vars' hq

theorem Ok.next (h : Ok k s) (ha : a.Enabled k s) : Ok k (s.next k a) := by
  cases a with
  | call p op =>
    have hp : s.phase p = .idle := ha
    exact h.outside (by simp [hp]) (by simp)
  | acquire p =>
    obtain ⟨op, hp, hfree⟩ := ha
    exact h.acquired hp hfree
  | step p =>
    obtain ⟨op, entered, f, rest, vars, hp⟩ := ha
    exact h.stepped hp
  | release p =>
    obtain ⟨op, entered, vars, hp⟩ := ha
    exact h.released hp

/-- Inside, a process stays at its operation until it releases the lock. -/
theorem op_next (ha : a.Enabled k s) (hcall : ∀ p op, a ≠ .call p op) {p : P}
    (hrelease : a ≠ .release p) : ((s.next k a).phase p).op = (s.phase p).op := by
  have hkeep {q : P} {ph : Phase σ τ Op} (hph : ph.op = (s.phase q).op) :
      (Function.update s.phase q ph p).op = (s.phase p).op := by
    by_cases hpq : p = q
    · subst hpq
      rw [Function.update_self, hph]
    · rw [Function.update_of_ne hpq]
  cases a with
  | call q op => exact absurd rfl (hcall q op)
  | acquire q =>
    obtain ⟨op', hq, -⟩ := ha
    simp only [State.next, hq]
    exact hkeep (by rw [hq]; rfl)
  | step q =>
    obtain ⟨op', entered, f, rest, vars, hq⟩ := ha
    simp only [State.next, hq]
    exact hkeep (by rw [hq]; rfl)
  | release q =>
    obtain ⟨op', entered, vars, hq⟩ := ha
    simp only [State.next, hq]
    rw [Function.update_of_ne fun hpq => hrelease (congrArg Act.release hpq.symm)]

/-- Only a call takes a process into an operation. -/
theorem op_of_next (ha : a.Enabled k s) (hcall : ∀ p op, a ≠ .call p op) {p : P} {op : Op}
    (hp : ((s.next k a).phase p).op = some op) : (s.phase p).op = some op := by
  by_cases hrelease : a = .release p
  · subst hrelease
    obtain ⟨op', entered, vars, hq⟩ := ha
    simp only [State.next, hq, Function.update_self] at hp
    cases hp
  · rwa [op_next ha hcall hrelease] at hp

/-- What completes is the operation its process is at. -/
theorem mem_done_of_next (ha : a.Enabled k s) {x : P × Op × τ} (hx : x ∈ (s.next k a).done) :
    x ∈ s.done ∨ (s.phase x.1).op = some x.2.1 := by
  cases a with
  | call q op => exact .inl hx
  | acquire q =>
    obtain ⟨op, hq, -⟩ := ha
    simp only [State.next, hq] at hx
    exact .inl hx
  | step q =>
    obtain ⟨op, entered, f, rest, vars, hq⟩ := ha
    simp only [State.next, hq] at hx
    exact .inl hx
  | release q =>
    obtain ⟨op, entered, vars, hq⟩ := ha
    simp only [State.next, hq] at hx
    rcases List.mem_append.1 hx with hx | hx
    · exact .inl hx
    · rw [List.mem_singleton.1 hx, hq]
      exact .inr rfl

theorem reachable_ok {cells : ι → σ} (h : (locked k cells).Reachable s) : Ok k s :=
  h.invariant (ok_init k cells) fun _ _ hI ha => hI.next ha

end Steps

/-! ## Atomic operations -/

/-- The cells and the operations performed on them, oldest first. -/
structure Atomic (ι P σ τ Op : Type) where
  cells : ι → σ
  done : List (P × Op × τ)

def Atomic.perform (s : Atomic ι P σ τ Op) (a : P × Op) : Atomic ι P σ τ Op :=
  let x := k.run a.2 (s.cells (k.lock a.2))
  { cells := Function.update s.cells (k.lock a.2) x.1
    done := s.done ++ [(a.1, a.2, x.2)] }

/-- Operations at once, one after another. -/
def atomic (cells : ι → σ) : Machine (Atomic ι P σ τ Op) (P × Op) where
  init := ⟨cells, []⟩
  enabled _ _ := True
  next := Atomic.perform k

def State.atomically (s : State ι P σ τ Op) : Atomic ι P σ τ Op := ⟨s.between, s.done⟩

/-- The operation that a step completes. -/
def State.completes (s : State ι P σ τ Op) : Act P Op → Option (P × Op)
  | .release p =>
    match s.phase p with
    | .inside op _ [] _ => some (p, op)
    | _ => none
  | _ => none

section Refines

variable {k} {s : State ι P σ τ Op} {a : Act P Op}

omit [DecidableEq ι] [DecidableEq P] in
/-- A cell that the process has not locked is the same before and after its step. -/
theorem between_eq_of_other {s' : State ι P σ τ Op} {i : ι} {p : P} (hi : s.holder i ≠ some p)
    (hholder : s'.holder i = s.holder i) (hcell : s'.cells i = s.cells i)
    (hphase : ∀ q ≠ p, s'.phase q = s.phase q) : s'.between i = s.between i := by
  unfold State.between
  rw [hholder, hcell]
  cases hq : s.holder i with
  | none => rfl
  | some q =>
    have hqp : q ≠ p := fun heq => hi (heq ▸ hq)
    rw [Option.bind_some, Option.bind_some, hphase q hqp]

theorem between_called (h : Ok k s) {p : P} (hp : s.phase p = .idle) (op : Op) :
    (s.next k (.call p op)).between = s.between := by
  funext i
  refine between_eq_of_other (fun hi => ?_) rfl rfl fun q hq => Function.update_of_ne hq ..
  obtain ⟨_, _, _, _, hin, -⟩ := (h.holds i p).1 hi
  rw [hp] at hin
  cases hin

theorem between_acquired (h : Ok k s) {p : P} {op : Op} (hp : s.phase p = .waiting op)
    (hfree : s.holder (k.lock op) = none) : (s.next k (.acquire p)).between = s.between := by
  simp only [State.next, hp]
  funext i
  by_cases hi : i = k.lock op
  · subst hi
    simp [State.between, hfree, Phase.entered]
  · refine between_eq_of_other (fun hq => ?_) (Function.update_of_ne hi ..) rfl
      fun q hq => Function.update_of_ne hq ..
    obtain ⟨_, _, _, _, hin, -⟩ := (h.holds i p).1 hq
    rw [hp] at hin
    cases hin

theorem between_stepped (h : Ok k s) {p : P} {op : Op} {entered : σ} {f : σ × τ → σ × τ}
    {rest : List (σ × τ → σ × τ)} {vars : τ} (hp : s.phase p = .inside op entered (f :: rest) vars) :
    (s.next k (.step p)).between = s.between := by
  simp only [State.next, hp]
  funext i
  by_cases hi : i = k.lock op
  · subst hi
    simp [State.between, h.holder_eq hp, hp, Phase.entered]
  · exact between_eq_of_other (h.holder_ne hp hi) rfl (Function.update_of_ne hi ..)
      fun q hq => Function.update_of_ne hq ..

/-- When a lock is released, its cell is what the steps have made of it. -/
theorem between_released (h : Ok k s) {p : P} {op : Op} {entered : σ} {vars : τ}
    (hp : s.phase p = .inside op entered [] vars) : (s.next k (.release p)).between =
      Function.update s.between (k.lock op) (s.cells (k.lock op)) := by
  simp only [State.next, hp]
  funext i
  by_cases hi : i = k.lock op
  · subst hi
    simp [State.between]
  · rw [Function.update_of_ne hi]
    exact between_eq_of_other (h.holder_ne hp hi) (Function.update_of_ne hi ..) rfl
      fun q hq => Function.update_of_ne hq ..

/-- A step that completes an operation performs it, and other steps do nothing between operations. -/
theorem atomically_next (h : Ok k s) (ha : a.Enabled k s) : (s.next k a).atomically =
    (s.completes a).elim s.atomically (s.atomically.perform k) := by
  cases a with
  | call p op => exact congrArg (Atomic.mk · s.done) (between_called h ha op)
  | acquire p =>
    obtain ⟨op, hp, hfree⟩ := ha
    have hdone : (s.next k (.acquire p)).done = s.done := by simp only [State.next, hp]
    exact congrArg₂ Atomic.mk (between_acquired h hp hfree) hdone
  | step p =>
    obtain ⟨op, entered, f, rest, vars, hp⟩ := ha
    have hdone : (s.next k (.step p)).done = s.done := by simp only [State.next, hp]
    exact congrArg₂ Atomic.mk (between_stepped h hp) hdone
  | release p =>
    obtain ⟨op, entered, vars, hp⟩ := ha
    have hrun : (s.cells (k.lock op), vars) = k.run op (s.between (k.lock op)) := by
      rw [h.between_eq hp]
      exact h.inside p op entered [] vars hp
    have hdone : (s.next k (.release p)).done = s.done ++ [(p, op, vars)] := by
      simp only [State.next, hp]
    have hcompletes : s.completes (.release p) = some (p, op) := by simp only [State.completes, hp]
    rw [hcompletes]
    refine congrArg₂ Atomic.mk ((between_released h hp).trans ?_) (hdone.trans ?_)
    · rw [show s.cells (k.lock op) = _ from congrArg Prod.fst hrun]
      rfl
    · rw [show vars = _ from congrArg Prod.snd hrun]
      rfl

/-- The processes with the locks refine operations at once. -/
theorem reachable_atomically {cells : ι → σ} (h : (locked k cells).Reachable s) :
    (atomic k cells).Reachable s.atomically := by
  induction h with
  | init => exact .init
  | @step s a hs ha _ ih =>
    change (atomic k cells).Reachable (s.next k a).atomically
    rw [atomically_next (reachable_ok hs) ha]
    cases s.completes a with
    | none => exact ih
    | some x => exact ih.step x trivial

/-! ## Histories -/

/-- The cells after the operations of a history. -/
def cellsAfter (k : Sections ι σ τ Op) (cells : ι → σ) (done : List (P × Op × τ)) : ι → σ :=
  done.foldl (fun c x => Function.update c (k.lock x.2.1) (k.run x.2.1 (c (k.lock x.2.1))).1) cells

/-- Every operation of the history finds the cell as the ones before it have left it. -/
def Sequential (k : Sections ι σ τ Op) (cells : ι → σ) (done : List (P × Op × τ)) : Prop :=
  ∀ before after x, done = before ++ x :: after →
    x.2.2 = (k.run x.2.1 (cellsAfter k cells before (k.lock x.2.1))).2

omit [DecidableEq P] in
theorem cellsAfter_concat (cells : ι → σ) (done : List (P × Op × τ)) (x : P × Op × τ) :
    cellsAfter k cells (done ++ [x]) =
      Function.update (cellsAfter k cells done) (k.lock x.2.1)
        (k.run x.2.1 (cellsAfter k cells done (k.lock x.2.1))).1 := by
  simp [cellsAfter]

/-- What holds of every entry of a history and those before it, when one more comes. -/
theorem forall_split_concat {α : Type} {Q : List α → α → Prop} {l : List α} {y : α}
    (h : ∀ before after x, l = before ++ x :: after → Q before x) (hy : Q l y)
    (before after : List α) (x : α) (heq : l ++ [y] = before ++ x :: after) : Q before x := by
  rcases List.eq_nil_or_concat after with rfl | ⟨after', z, rfl⟩
  · obtain ⟨rfl, hyx⟩ := List.append_inj' heq rfl
    obtain rfl := (List.cons.inj hyx).1
    exact hy
  · have hsplit : l ++ [y] = (before ++ x :: after') ++ [z] := by
      rw [heq]
      simp
    exact h before after' x (List.append_inj' hsplit rfl).1

omit [DecidableEq P] in
theorem atomic_history {cells : ι → σ} {s : Atomic ι P σ τ Op} (h : (atomic k cells).Reachable s) :
    s.cells = cellsAfter k cells s.done ∧ Sequential k cells s.done := by
  apply h.invariant (I := fun s => s.cells = cellsAfter k cells s.done ∧ Sequential k cells s.done)
  · refine ⟨rfl, fun before after x heq => ?_⟩
    cases before <;> cases heq
  · rintro s ⟨p, op⟩ ⟨hcells, hseq⟩ -
    change Function.update s.cells _ _ = cellsAfter k cells (s.done ++ [_]) ∧
      Sequential k cells (s.done ++ [_])
    rw [cellsAfter_concat, hcells]
    exact ⟨rfl, forall_split_concat hseq rfl⟩

/-- The history of completed operations is one of operations at once, and a cell whose lock is free
is what that history leaves. -/
theorem reachable_history {cells : ι → σ} (h : (locked k cells).Reachable s) :
    s.between = cellsAfter k cells s.done ∧ Sequential k cells s.done :=
  atomic_history (reachable_atomically h)

end Refines

end SpinLock
