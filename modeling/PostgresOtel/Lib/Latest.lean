import Mathlib.Data.List.Induction
import Mathlib.Order.Lattice

/-!
# The latest among the greatest

A fold over a list that keeps an element until one comes that ranks at least as high.
-/

set_option autoImplicit false

namespace Latest

variable {α β : Type} [LinearOrder β] (rank : α → β)

/-- What is kept when `a` comes. -/
def keep (best : Option α) (a : α) : Option α :=
  match best with
  | some b => if rank a < rank b then some b else some a
  | none => some a

def latest (l : List α) : Option α := l.foldl (keep rank) none

/-- No element of the list ranks higher than `a`, and none after it as high. -/
def IsLatest (l : List α) (a : α) : Prop :=
  ∃ before after, l = before ++ a :: after ∧ (∀ b ∈ before, rank b ≤ rank a) ∧
    ∀ b ∈ after, rank b < rank a

theorem latest_concat (l : List α) (a : α) : latest rank (l ++ [a]) = keep rank (latest rank l) a := by
  simp [latest]

theorem keep_isSome (best : Option α) (a : α) : (keep rank best a).isSome = true := by
  unfold keep
  cases best with
  | none => rfl
  | some b =>
    dsimp only
    split_ifs <;> rfl

theorem latest_eq_none_iff {l : List α} : latest rank l = none ↔ l = [] := by
  induction l using List.reverseRecOn with
  | nil => simp [latest]
  | append_singleton l a _ =>
    have hsome := keep_isSome rank (latest rank l) a
    rw [latest_concat]
    constructor
    · intro hnone
      rw [hnone] at hsome
      cases hsome
    · simp

theorem isLatest_of_latest {l : List α} {a : α} (h : latest rank l = some a) : IsLatest rank l a := by
  induction l using List.reverseRecOn generalizing a with
  | nil => cases h
  | append_singleton l x ih =>
    rw [latest_concat] at h
    cases hbest : latest rank l with
    | none =>
      have hnil := (latest_eq_none_iff rank).1 hbest
      rw [hbest] at h
      obtain rfl := Option.some.inj h
      exact ⟨[], [], by simp [hnil], by simp, by simp⟩
    | some b =>
      obtain ⟨before, after, hl, hbefore, hafter⟩ := ih hbest
      rw [hbest] at h
      unfold keep at h
      dsimp only at h
      split_ifs at h with hrank
      · obtain rfl := Option.some.inj h
        refine ⟨before, after ++ [x], by simp [hl], hbefore, ?_⟩
        intro c hc
        rcases List.mem_append.1 hc with hc | hc
        · exact hafter c hc
        · rw [List.mem_singleton.1 hc]
          exact hrank
      · obtain rfl := Option.some.inj h
        have hle : rank b ≤ rank x := not_lt.1 hrank
        refine ⟨l, [], rfl, ?_, by simp⟩
        intro c hc
        rw [hl, List.mem_append, List.mem_cons] at hc
        rcases hc with hc | rfl | hc
        · exact le_trans (hbefore c hc) hle
        · exact hle
        · exact le_trans (le_of_lt (hafter c hc)) hle

end Latest
