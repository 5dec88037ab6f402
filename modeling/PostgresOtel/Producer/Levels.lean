import Mathlib.Data.List.Infix

/-!
# Transaction levels

The transaction that a backend is in and its open subtransactions, as core keeps them, with the
subtransactions that were committed into each.  The code of the library sees only how many there are:
`GetCurrentTransactionNestLevel()` is the length of the list.
-/

set_option autoImplicit false

namespace PostgresOtel

/-- An open transaction or subtransaction, the subtransactions committed into it, and whether it has
been aborted and waits for its cleanup. -/
structure Subxact where
  id : ℕ
  absorbed : List ℕ := []
  aborted : Bool := false
  deriving DecidableEq

/-- The subtransactions whose work it would undo. -/
def Subxact.members (x : Subxact) : List ℕ := x.id :: x.absorbed

/-! ## What a level undoes -/

/-- What was started in `sub` and is stamped `level` is undone by no level above `level`. -/
def Covers (levels : List Subxact) (sub level : ℕ) : Prop :=
  ∀ x post, (x :: post) <:+ levels → sub ∈ x.members → post.length + 1 ≤ level

namespace Covers

variable {levels : List Subxact} {x : Subxact} {sub level : ℕ}

theorem cons (h : Covers levels sub level) (hx : sub ∈ x.members → levels.length + 1 ≤ level) :
    Covers (x :: levels) sub level := by
  intro y post hsuffix hsub
  rcases List.suffix_cons_iff.1 hsuffix with heq | hsuffix
  · obtain ⟨rfl, rfl⟩ := List.cons.inj heq
    exact hx hsub
  · exact h y post hsuffix hsub

theorem of_cons (h : Covers (x :: levels) sub level) : Covers levels sub level :=
  fun y post hsuffix => h y post (hsuffix.trans (List.suffix_cons x levels))

theorem head (h : Covers (x :: levels) sub level) (hsub : sub ∈ x.members) :
    levels.length + 1 ≤ level :=
  h x levels (List.suffix_refl _) hsub

/-- What is stamped with the current level. -/
theorem current (levels : List Subxact) (sub : ℕ) : Covers levels sub levels.length :=
  fun _ _ hsuffix _ => hsuffix.length_le

/-- A new level undoes nothing that is older. -/
theorem cons_new {id : ℕ} (h : Covers levels sub level) (hold : sub < id) :
    Covers ({ id } :: levels) sub level := by
  refine h.cons fun hm => ?_
  have heq : sub = id := List.mem_singleton.1 hm
  omega

theorem aborted (h : Covers (x :: levels) sub level) :
    Covers ({ x with aborted := true } :: levels) sub level :=
  h.of_cons.cons h.head

/-- A subtransaction is committed into its parent. -/
theorem release {parent : Subxact} (h : Covers (x :: parent :: levels) sub level) :
    Covers ({ parent with absorbed := x.members ++ parent.absorbed } :: levels) sub level := by
  refine h.of_cons.of_cons.cons fun hm => ?_
  rcases List.mem_cons.1 hm with heq | hm
  · exact h.of_cons.head (heq ▸ List.mem_cons_self)
  · rcases List.mem_append.1 hm with hm | hm
    · have hle := h.head hm
      rw [List.length_cons] at hle
      omega
    · exact h.of_cons.head (List.mem_cons_of_mem _ hm)

end Covers

theorem covers_nil (sub level : ℕ) : Covers [] sub level :=
  fun _ _ hsuffix => absurd (List.suffix_nil.1 hsuffix) (List.cons_ne_nil _ _)

/-! ## Steps -/

/-- The open levels, innermost first. -/
structure XactLevels where
  levels : List Subxact := []
  nextSub : ℕ := 0
  deriving DecidableEq

inductive LevelAct
  | begin
  | savepoint
  | release
  | commit
  | abort
  /-- The aborted level is left. -/
  | cleanup
  deriving DecidableEq

/-- When core does this. -/
def LevelAct.Enabled (x : XactLevels) : LevelAct → Prop
  | .begin => x.levels = []
  | .savepoint => ∃ top rest, x.levels = top :: rest ∧ top.aborted = false
  | .release => ∃ top parent rest, x.levels = top :: parent :: rest ∧ top.aborted = false
  | .commit => ∃ top, x.levels = [top] ∧ top.aborted = false
  | .abort => ∃ top rest, x.levels = top :: rest ∧ top.aborted = false
  | .cleanup => ∃ top rest, x.levels = top :: rest ∧ top.aborted = true

def XactLevels.next (x : XactLevels) : LevelAct → XactLevels
  | .begin => { levels := [{ id := x.nextSub }], nextSub := x.nextSub + 1 }
  | .savepoint => { levels := { id := x.nextSub } :: x.levels, nextSub := x.nextSub + 1 }
  | .release =>
    match x.levels with
    | top :: parent :: rest =>
      { x with levels := { parent with absorbed := top.members ++ parent.absorbed } :: rest }
    | _ => x
  | .commit => { x with levels := [] }
  | .abort =>
    match x.levels with
    | top :: rest => { x with levels := { top with aborted := true } :: rest }
    | [] => x
  | .cleanup => { x with levels := x.levels.tail }

theorem XactLevels.nextSub_le (x : XactLevels) (a : LevelAct) : x.nextSub ≤ (x.next a).nextSub := by
  unfold next
  split <;> first
    | exact Nat.le_succ _
    | split <;> exact Nat.le_refl _
    | exact Nat.le_refl _

/-- As levels come and go, what was started in a level only moves further out. -/
theorem Covers.next {x : XactLevels} {a : LevelAct} {sub level : ℕ} (h : Covers x.levels sub level)
    (hen : a.Enabled x) (hold : sub < x.nextSub) : Covers (x.next a).levels sub level := by
  cases a with
  | begin => exact (covers_nil sub level).cons_new hold
  | savepoint => exact h.cons_new hold
  | release =>
    obtain ⟨top, parent, rest, hlevels, -⟩ := hen
    rw [hlevels] at h
    simp only [XactLevels.next, hlevels]
    exact h.release
  | commit => exact covers_nil sub level
  | abort =>
    obtain ⟨top, rest, hlevels, -⟩ := hen
    rw [hlevels] at h
    simp only [XactLevels.next, hlevels]
    exact h.aborted
  | cleanup =>
    obtain ⟨top, rest, hlevels, -⟩ := hen
    rw [hlevels] at h
    simp only [XactLevels.next, hlevels]
    exact h.of_cons

end PostgresOtel
