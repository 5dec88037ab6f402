import Mathlib.Data.List.Forall2
import Mathlib.Data.List.TakeWhile

/-!
# Lists that correspond entry by entry

Two lists whose entries stand in a relation, cut by tests that agree on related entries.
-/

set_option autoImplicit false

namespace Paired

variable {α β : Type} {R : α → β → Prop} {l : List α} {l' : List β} {p : α → Bool} {q : β → Bool}

theorem takeWhile (h : List.Forall₂ R l l') (hpq : ∀ a b, R a b → p a = q b) :
    List.Forall₂ R (l.takeWhile p) (l'.takeWhile q) := by
  induction h with
  | nil => exact .nil
  | @cons a b l l' hab _ ih =>
    rw [List.takeWhile_cons, List.takeWhile_cons, hpq a b hab]
    split_ifs
    · exact .cons hab ih
    · exact .nil

theorem dropWhile (h : List.Forall₂ R l l') (hpq : ∀ a b, R a b → p a = q b) :
    List.Forall₂ R (l.dropWhile p) (l'.dropWhile q) := by
  induction h with
  | nil => exact .nil
  | @cons a b l l' hab hrest ih =>
    rw [List.dropWhile_cons, List.dropWhile_cons, hpq a b hab]
    split_ifs
    · exact ih
    · exact .cons hab hrest

theorem filter (h : List.Forall₂ R l l') (hpq : ∀ a b, R a b → p a = q b) :
    List.Forall₂ R (l.filter p) (l'.filter q) :=
  List.rel_filter (fun a b hab => Bool.eq_iff_iff.1 (hpq a b hab)) h

theorem tail (h : List.Forall₂ R l l') : List.Forall₂ R l.tail l'.tail := by
  cases h with
  | nil => exact .nil
  | cons _ hrest => exact hrest

theorem countP (h : List.Forall₂ R l l') (hpq : ∀ a b, R a b → p a = q b) :
    l.countP p = l'.countP q := by
  rw [List.countP_eq_length_filter, List.countP_eq_length_filter]
  exact (filter h hpq).length_eq

/-- What is in one list has something to match in the other. -/
theorem exists_right (h : List.Forall₂ R l l') {a : α} (ha : a ∈ l) : ∃ b ∈ l', R a b := by
  induction h with
  | nil => exact absurd ha List.not_mem_nil
  | @cons x y l l' hxy _ ih =>
    rcases List.mem_cons.1 ha with rfl | ha
    · exact ⟨y, List.mem_cons_self, hxy⟩
    · obtain ⟨b, hb, hab⟩ := ih ha
      exact ⟨b, List.mem_cons_of_mem _ hb, hab⟩

theorem exists_left (h : List.Forall₂ R l l') {b : β} (hb : b ∈ l') : ∃ a ∈ l, R a b := by
  obtain ⟨a, ha, hab⟩ := exists_right h.flip hb
  exact ⟨a, ha, hab⟩

/-- What holds of the entries of one list can be said of the pairs. -/
theorem and_right {Q : β → Prop} (h : List.Forall₂ R l l') (hQ : ∀ b ∈ l', Q b) :
    List.Forall₂ (fun a b => Q b ∧ R a b) l l' :=
  ((List.forall₂_and_left l' l).2 ⟨hQ, h.flip⟩).flip

theorem nil_iff (h : List.Forall₂ R l l') : l = [] ↔ l' = [] := by
  cases h <;> simp

end Paired
