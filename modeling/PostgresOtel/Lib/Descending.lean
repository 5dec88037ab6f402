import Mathlib.Data.List.Nodup
import Mathlib.Data.List.TakeWhile
import Mathlib.Order.Lattice

/-!
# Lists that descend

A list whose entries descend by a key, cut at one of its entries: what stands before it is what has a
greater key, and what stands after it is what has a smaller one.
-/

set_option autoImplicit false

namespace Descending

variable {α κ : Type} [LinearOrder κ] {key : α → κ} {l : List α} {x : α}

theorem takeWhile_eq_filter (h : l.Pairwise fun a b => key b < key a) (hx : x ∈ l) {p : α → Bool}
    (hp : ∀ a ∈ l, p a = true ↔ key a ≠ key x) :
    l.takeWhile p = l.filter fun a => decide (key x < key a) := by
  induction l with
  | nil => cases hx
  | cons a l ih =>
    obtain ⟨hhead, htail⟩ := List.pairwise_cons.1 h
    obtain ⟨hpa, hpl⟩ := List.forall_mem_cons.1 hp
    rcases List.mem_cons.1 hx with rfl | hx
    · have hnone : l.filter (fun a => decide (key x < key a)) = [] :=
        List.filter_eq_nil_iff.2 fun a ha => by simpa using le_of_lt (hhead a ha)
      rw [List.takeWhile_cons_of_neg fun hpx => hpa.1 hpx rfl,
        List.filter_cons_of_neg (by simp), hnone]
    · have hlt := hhead x hx
      rw [List.takeWhile_cons_of_pos (hpa.2 (ne_of_gt hlt)), List.filter_cons,
        if_pos (decide_eq_true hlt), ih htail hx hpl]

theorem dropWhile_tail_eq_filter (h : l.Pairwise fun a b => key b < key a) (hx : x ∈ l) {p : α → Bool}
    (hp : ∀ a ∈ l, p a = true ↔ key a ≠ key x) :
    (l.dropWhile p).tail = l.filter fun a => decide (key a < key x) := by
  induction l with
  | nil => cases hx
  | cons a l ih =>
    obtain ⟨hhead, htail⟩ := List.pairwise_cons.1 h
    obtain ⟨hpa, hpl⟩ := List.forall_mem_cons.1 hp
    rcases List.mem_cons.1 hx with rfl | hx
    · have hall : l.filter (fun a => decide (key a < key x)) = l :=
        List.filter_eq_self.2 fun a ha => decide_eq_true (hhead a ha)
      rw [List.dropWhile_cons_of_neg fun hpx => hpa.1 hpx rfl, List.tail_cons,
        List.filter_cons_of_neg (by simp), hall]
    · have hlt := hhead x hx
      rw [List.dropWhile_cons_of_pos (hpa.2 (ne_of_gt hlt)), ih htail hx hpl,
        List.filter_cons_of_neg (by simpa using le_of_lt hlt)]

omit [LinearOrder κ] in
/-- A cut at an entry that is kept. -/
theorem filter_takeWhile {p q : α → Bool} (h : ∀ a ∈ l, q a = false → p a = true) :
    (l.takeWhile q).filter p = (l.filter p).takeWhile q := by
  induction l with
  | nil => rfl
  | cons a l ih =>
    obtain ⟨ha, hl⟩ := List.forall_mem_cons.1 h
    cases hq : q a with
    | true =>
      rw [List.takeWhile_cons_of_pos hq, List.filter_cons, List.filter_cons, ih hl]
      split_ifs
      · rw [List.takeWhile_cons_of_pos hq]
      · rfl
    | false =>
      rw [List.takeWhile_cons_of_neg (by simp [hq]), List.filter_cons_of_pos (ha hq),
        List.takeWhile_cons_of_neg (by simp [hq])]
      rfl

/-- Keys that descend are different. -/
theorem eq_of_key (h : l.Pairwise fun a b => key b < key a) {a b : α} (ha : a ∈ l) (hb : b ∈ l)
    (hab : key a = key b) : a = b := by
  have hnodup : (l.map key).Nodup := List.pairwise_map.2 (h.imp fun hlt => ne_of_gt hlt)
  exact List.inj_on_of_nodup_map hnodup ha hb hab

end Descending
