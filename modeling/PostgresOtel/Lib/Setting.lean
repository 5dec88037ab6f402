import Mathlib.Algebra.BigOperators.Group.List.Basic
import Mathlib.Algebra.GroupWithZero.Nat
import Mathlib.Data.Nat.Notation

/-!
# Settings with a save stack

A setting whose changes are undone when the level they were made in ends: a stack entry keeps the
value to go back to.  A change is made for the session (`set`) or for the transaction (`local`);
when a level commits, its entry merges into the one below it.  `endLevel` also lists the values it
handed back, since owners of a setting react to each of them.
-/

set_option autoImplicit false

/-- How a value is set: to stay, or until the end of the transaction. -/
inductive SetAction
  | set | local
  deriving DecidableEq

/-- What was done at the level of a stack entry; a `set` followed by a `local` keeps the value that
was set. -/
inductive SaveState (V : Type)
  | set
  | local
  | setLocal (masked : V)

/-- A stack entry: the value the setting had before the level. -/
structure Saved (V : Type) where
  level : ℕ
  state : SaveState V
  prior : V

/-- A setting and its stack, innermost level first. -/
structure Setting (V : Type) where
  value : V
  stack : List (Saved V) := []

namespace Setting

variable {V : Type}

/-- The state of an entry after one more change at its level. -/
def restate (value : V) : SetAction → SaveState V → SaveState V
  | .set, _ => .set
  | .local, .set => .setLocal value
  | .local, state => state

/-- Save the value before a change at `level`; nothing is saved outside a transaction. -/
def pushOldValue (level : ℕ) (action : SetAction) (s : Setting V) : Setting V :=
  let pushed := { level := level, prior := s.value
                  state := match action with | .set => .set | .local => .local }
  if level = 0 then s
  else match s.stack with
    | [] => { s with stack := [pushed] }
    | e :: rest =>
      if level ≤ e.level then
        { s with stack := { e with state := restate s.value action e.state } :: rest }
      else { s with stack := pushed :: e :: rest }

/-- Change the value at `level`. -/
def assign (level : ℕ) (action : SetAction) (v : V) (s : Setting V) : Setting V :=
  { s.pushOldValue level action with value := v }

/-- The state of the entry below, once the one above it has committed. -/
def merge (above : Saved V) (below : SaveState V) : SaveState V :=
  match above.state, below with
  | .set, _ => .set
  | .local, .set => .setLocal above.prior
  | .local, below => below
  | .setLocal masked, _ => .setLocal masked

/-- One pass over the innermost entry when the levels from `level` on end, with the value it hands
back; `none` when no entry is left at those levels. -/
def endStep (commit : Bool) (level : ℕ) (s : Setting V) : Option (Setting V × Option V) :=
  match s.stack with
  | [] => none
  | e :: rest =>
    if e.level < level then none
    else if !commit then some ({ value := e.prior, stack := rest }, some e.prior)
    else if e.level = 1 then
      match e.state with
      | .setLocal masked => some ({ value := masked, stack := rest }, some masked)
      | .set => some ({ s with stack := rest }, none)
      | .local => some ({ value := e.prior, stack := rest }, some e.prior)
    else match rest with
      | below :: rest' =>
        if below.level < e.level - 1 then
          some ({ s with stack := { e with level := e.level - 1 } :: rest }, none)
        else some ({ s with stack := { below with state := merge e below.state } :: rest' }, none)
      | [] => some ({ s with stack := [{ e with level := e.level - 1 }] }, none)

/-- Up to `n` passes, with the values they hand back. -/
def endPasses (commit : Bool) (level : ℕ) : ℕ → Setting V → Setting V × List V
  | 0, s => (s, [])
  | n + 1, s =>
    match s.endStep commit level with
    | none => (s, [])
    | some (s', back) =>
      let (s'', backs) := endPasses commit level n s'
      (s'', back.toList ++ backs)

/-- What a pass makes smaller. -/
def weight (s : Setting V) : ℕ := (s.stack.map fun e => e.level + 1).sum

/-- End the levels from `level` on. -/
def endLevel (commit : Bool) (level : ℕ) (s : Setting V) : Setting V × List V :=
  s.endPasses commit level s.weight

/-! ## What a pass does -/

@[simp] theorem assign_value (level : ℕ) (action : SetAction) (v : V) (s : Setting V) :
    (s.assign level action v).value = v := rfl

/-- A pass keeps the value, or hands back the one it makes current. -/
theorem endStep_value {commit : Bool} {level : ℕ} {s s' : Setting V} {back : Option V}
    (h : s.endStep commit level = some (s', back)) : s'.value = back.getD s.value := by
  unfold endStep at h
  split at h
  · cases h
  · split_ifs at h
    · cases h
      rfl
    · split at h <;> (cases h; rfl)
    · split at h
      · split_ifs at h <;> (cases h; rfl)
      · cases h
        rfl

/-- The last value handed back is the current one. -/
theorem endPasses_value (commit : Bool) (level n : ℕ) (s : Setting V) :
    (s.endPasses commit level n).1.value =
      (s.endPasses commit level n).2.getLast?.getD s.value := by
  induction n generalizing s with
  | zero => rfl
  | succ n ih =>
    unfold endPasses
    cases hstep : s.endStep commit level with
    | none => rfl
    | some p =>
      obtain ⟨s', back⟩ := p
      have hvalue := endStep_value hstep
      simp only [ih s', hvalue]
      cases back with
      | none => rfl
      | some v =>
        cases hlast : (s'.endPasses commit level n).2.getLast? with
        | none => simp [List.getLast?_eq_none_iff.1 hlast]
        | some w => simp [List.getLast?_cons, hlast]

theorem endLevel_value (commit : Bool) (level : ℕ) (s : Setting V) :
    (s.endLevel commit level).1.value = (s.endLevel commit level).2.getLast?.getD s.value :=
  endPasses_value ..

/-- A pass makes the stack lighter. -/
theorem endStep_weight {commit : Bool} {level : ℕ} {s s' : Setting V} {back : Option V}
    (hlevel : 0 < level) (h : s.endStep commit level = some (s', back)) : s'.weight < s.weight := by
  obtain ⟨value, stack⟩ := s
  unfold endStep at h
  cases stack with
  | nil => cases h
  | cons e rest =>
    simp only at h
    split_ifs at h with hlt hcommit hone
    · cases h
      simp [weight]
    · cases hstate : e.state <;> rw [hstate] at h <;> cases h <;> simp [weight]
    · cases rest with
      | nil =>
        cases h
        simp only [weight, List.map_cons, List.sum_cons]
        omega
      | cons below rest =>
        simp only at h
        split_ifs at h <;> cases h <;> simp only [weight, List.map_cons, List.sum_cons] <;> omega

/-- There are passes enough: no entry at the ended levels is left on top. -/
theorem endLevel_done (commit : Bool) {level : ℕ} (hlevel : 0 < level) (s : Setting V) :
    (s.endLevel commit level).1.endStep commit level = none := by
  suffices h : ∀ n, s.weight ≤ n → (s.endPasses commit level n).1.endStep commit level = none from
    h _ (Nat.le_refl _)
  intro n
  induction n generalizing s with
  | zero =>
    intro hn
    obtain ⟨value, stack⟩ := s
    cases stack with
    | nil => rfl
    | cons e rest =>
      simp only [weight, List.map_cons, List.sum_cons] at hn
      omega
  | succ n ih =>
    intro hn
    unfold endPasses
    cases hstep : s.endStep commit level with
    | none => exact hstep
    | some p =>
      obtain ⟨s', back⟩ := p
      have hw := endStep_weight hlevel hstep
      exact ih s' (by omega)

/-! ## Levels -/

/-- There is at most one entry for each level, the innermost first, and none for a level above `n`. -/
structure Below (n : ℕ) (s : Setting V) : Prop where
  descending : s.stack.Pairwise fun e e' => e'.level < e.level
  level : ∀ e ∈ s.stack, 0 < e.level ∧ e.level ≤ n

variable {s s' : Setting V} {n : ℕ}

theorem below_nil (n : ℕ) (v : V) : ({ value := v } : Setting V).Below n :=
  ⟨.nil, fun _ h => absurd h List.not_mem_nil⟩

theorem Below.mono {m : ℕ} (h : s.Below n) (hle : n ≤ m) : s.Below m :=
  ⟨h.descending, fun e he => ⟨(h.level e he).1, Nat.le_trans (h.level e he).2 hle⟩⟩

theorem Below.nil (h : s.Below 0) : s.stack = [] := by
  refine List.eq_nil_iff_forall_not_mem.2 fun e he => ?_
  have := h.level e he
  omega

/-- Another innermost entry. -/
theorem Below.cons {value : V} {e : Saved V} {rest : List (Saved V)}
    (h : Below n { value := value, stack := rest }) (hlevel : 0 < e.level ∧ e.level ≤ n)
    (hlt : ∀ e' ∈ rest, e'.level < e.level) (v : V) : Below n { value := v, stack := e :: rest } :=
  ⟨List.pairwise_cons.2 ⟨hlt, h.descending⟩, List.forall_mem_cons.2 ⟨hlevel, h.level⟩⟩

theorem Below.tail {value : V} {e : Saved V} {rest : List (Saved V)}
    (h : Below n { value := value, stack := e :: rest }) (v : V) :
    Below n { value := v, stack := rest } :=
  ⟨(List.pairwise_cons.1 h.descending).2, fun e' he' => h.level e' (List.mem_cons_of_mem _ he')⟩

theorem Below.assign (h : s.Below n) (action : SetAction) (v : V) : (s.assign n action v).Below n := by
  obtain ⟨value, stack⟩ := s
  unfold Setting.assign pushOldValue
  by_cases hn : n = 0
  · simp only [hn, if_true]
    exact hn ▸ ⟨h.descending, h.level⟩
  simp only [hn, if_false]
  cases stack with
  | nil => exact (below_nil n v).cons (by simp; omega) (by simp) v
  | cons e rest =>
    have hlevel := h.level e List.mem_cons_self
    have hlt := (List.pairwise_cons.1 h.descending).1
    dsimp only
    split_ifs with hle
    · exact (h.tail v).cons (e := { e with state := restate value action e.state }) hlevel hlt v
    · refine h.cons (by simp; omega) (List.forall_mem_cons.2 ⟨by simp; omega, fun e' he' => ?_⟩) v
      have := hlt e' he'
      dsimp only
      omega

theorem Below.endStep {commit : Bool} {level : ℕ} {back : Option V} (h : s.Below n)
    (hstep : s.endStep commit level = some (s', back)) : s'.Below n := by
  obtain ⟨value, stack⟩ := s
  unfold Setting.endStep at hstep
  cases stack with
  | nil => cases hstep
  | cons e rest =>
    have hlevel := h.level e List.mem_cons_self
    have hlt := (List.pairwise_cons.1 h.descending).1
    simp only at hstep
    split_ifs at hstep with hend hcommit hone
    · cases hstep
      exact h.tail _
    · cases hstate : e.state <;> rw [hstate] at hstep <;> cases hstep <;> exact h.tail _
    · cases rest with
      | nil =>
        cases hstep
        exact (below_nil n value).cons (by simp; omega) (by simp) value
      | cons below rest =>
        have hbelow := (List.pairwise_cons.1 (h.tail value).descending).1
        simp only at hstep
        split_ifs at hstep with hfar <;> cases hstep
        · refine (h.tail value).cons (by simp; omega) (List.forall_mem_cons.2 ⟨hfar, fun e' he' => ?_⟩) _
          have := hbelow e' he'
          dsimp only
          omega
        · exact ((h.tail value).tail value).cons (e := { below with state := merge e below.state })
            (h.level below (by simp)) hbelow value

theorem Below.endPasses {commit : Bool} {level : ℕ} (h : s.Below n) (passes : ℕ) :
    (s.endPasses commit level passes).1.Below n := by
  induction passes generalizing s with
  | zero => exact h
  | succ passes ih =>
    unfold Setting.endPasses
    cases hstep : s.endStep commit level with
    | none => exact h
    | some p => exact ih (h.endStep hstep)

/-- The end of the innermost level leaves no entry for it. -/
theorem Below.endLevel (h : s.Below n) (hn : 0 < n) (commit : Bool) :
    (s.endLevel commit n).1.Below (n - 1) := by
  have hpasses : (s.endLevel commit n).1.Below n := h.endPasses _
  have hdone := endLevel_done commit hn s
  revert hpasses hdone
  generalize (s.endLevel commit n).1 = s'
  obtain ⟨value, stack⟩ := s'
  intro hpasses hdone
  refine ⟨hpasses.descending, fun e he => ⟨(hpasses.level e he).1, ?_⟩⟩
  cases stack with
  | nil => cases he
  | cons top rest =>
    have htop : top.level < n := by
      by_contra hnot
      unfold Setting.endStep at hdone
      simp only [hnot, if_false] at hdone
      split_ifs at hdone
      · cases hstate : top.state <;> rw [hstate] at hdone <;> cases hdone
      · cases rest <;> simp only at hdone
        · cases hdone
        · split_ifs at hdone
    rcases List.mem_cons.1 he with rfl | he
    · omega
    · have := (List.pairwise_cons.1 hpasses.descending).1 e he
      omega

end Setting
