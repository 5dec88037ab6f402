import Mathlib.Data.Int.Notation
import Mathlib.Data.List.Nodup
import Mathlib.Data.Nat.Notation
import Mathlib.Logic.Function.Basic
import Mathlib.Tactic.Tauto

/-!
# Free lists threaded through an array

An array of cells keeps its unused cells on a singly linked list: `head` is the index of the first
one and `next i` that of the one after cell `i`, with `-1` for the end.  `Chain next head l` says
that following the links from `head` visits `l`, and `Threads next head P` that it visits exactly
the cells with `P`, each once, and stops.

A `Pool` is such an array together with the number of cells ever handed out.  It is valid when its
list threads exactly the free cells among those; taking a cell, installing a live one and putting
one back keep it so.
-/

set_option autoImplicit false

namespace FreeList

/-- Following `next` from `head` visits the cells `l` and ends. -/
def Chain (next : ℕ → ℤ) : ℤ → List ℕ → Prop
  | head, [] => head = -1
  | head, i :: l => head = i ∧ Chain next (next i) l

/-- The links from `head` run through exactly the cells with `P`, each of them once. -/
def Threads (next : ℕ → ℤ) (head : ℤ) (P : ℕ → Prop) : Prop :=
  ∃ l, Chain next head l ∧ l.Nodup ∧ ∀ i, i ∈ l ↔ P i

variable {next next' : ℕ → ℤ} {head : ℤ} {l : List ℕ} {P P' : ℕ → Prop}

theorem Chain.congr (h : Chain next head l) (hn : ∀ i ∈ l, next' i = next i) :
    Chain next' head l := by
  induction l generalizing head with
  | nil => exact h
  | cons i l ih =>
    refine ⟨h.1, ?_⟩
    rw [hn i List.mem_cons_self]
    exact ih h.2 fun j hj => hn j (List.mem_cons_of_mem _ hj)

theorem threads_empty (next : ℕ → ℤ) : Threads next (-1) fun _ => False :=
  ⟨[], rfl, List.nodup_nil, by simp⟩

/-- Links outside the list may change, and the predicate may be replaced by an equivalent one. -/
theorem Threads.congr (h : Threads next head P) (hn : ∀ i, P i → next' i = next i)
    (hP : ∀ i, P' i ↔ P i) : Threads next' head P' := by
  obtain ⟨l, hc, hd, hm⟩ := h
  exact ⟨l, hc.congr fun i hi => hn i ((hm i).1 hi), hd, fun i => (hm i).trans (hP i).symm⟩

/-- Putting a cell in front. -/
theorem Threads.push (h : Threads next head P) {i : ℕ} (hi : ¬ P i) :
    Threads (Function.update next i head) i fun j => j = i ∨ P j := by
  obtain ⟨l, hc, hd, hm⟩ := h
  have hil : i ∉ l := fun hmem => hi ((hm i).1 hmem)
  refine ⟨i :: l, ⟨rfl, ?_⟩, List.nodup_cons.2 ⟨hil, hd⟩, fun j => ?_⟩
  · rw [Function.update_self]
    refine hc.congr fun j hj => Function.update_of_ne ?_ _ _
    rintro rfl
    exact hil hj
  · rw [List.mem_cons, hm j]

/-- Taking the first cell off. -/
theorem Threads.pop (h : Threads next head P) (hh : 0 ≤ head) :
    P head.toNat ∧ Threads next (next head.toNat) fun j => j ≠ head.toNat ∧ P j := by
  obtain ⟨l, hc, hd, hm⟩ := h
  cases l with
  | nil =>
    have : head = -1 := hc
    omega
  | cons i l =>
    obtain ⟨hi, hc⟩ := hc
    have hnat : head.toNat = i := by omega
    rw [hnat]
    refine ⟨(hm i).1 List.mem_cons_self, l, hc, (List.nodup_cons.1 hd).2, fun j => ?_⟩
    constructor
    · intro hj
      refine ⟨?_, (hm j).1 (List.mem_cons_of_mem _ hj)⟩
      rintro rfl
      exact (List.nodup_cons.1 hd).1 hj
    · rintro ⟨hne, hj⟩
      exact ((List.mem_cons.1 ((hm j).2 hj)).resolve_left hne)

/-- Each cell with `P` is on the list once, and no other is. -/
theorem Threads.count (h : Threads next head P) [DecidablePred P] :
    ∃ l, Chain next head l ∧ ∀ i, l.count i = if P i then 1 else 0 := by
  obtain ⟨l, hc, hd, hm⟩ := h
  refine ⟨l, hc, fun i => ?_⟩
  split_ifs with hi
  · exact List.count_eq_one_of_mem hd ((hm i).2 hi)
  · exact List.count_eq_zero_of_not_mem fun hil => hi ((hm i).1 hil)

end FreeList

/-! ## Pools -/

/-- Cells of which those below `used` have been handed out, and the head of their free list. -/
structure Pool (α : Type) where
  cell : ℕ → α
  used : ℕ
  head : ℤ

namespace Pool

variable {α : Type}

/-- Install a cell. -/
def set (p : Pool α) (i : ℕ) (a : α) : Pool α := { p with cell := Function.update p.cell i a }

/-- Put a cell in front of the free list. -/
def put (p : Pool α) (i : ℕ) (a : α) : Pool α :=
  { p with cell := Function.update p.cell i a, head := i }

/-- Take a cell: the head of the free list, else the first one never used, up to `cap` of them. -/
def take (next : α → ℤ) (fresh : α → α) (cap : ℕ) (p : Pool α) : Option (ℕ × Pool α) :=
  if 0 ≤ p.head then
    some (p.head.toNat, { p with head := next (p.cell p.head.toNat) })
  else if p.used < cap then
    some (p.used,
      { p with
        used := p.used + 1
        cell := Function.update p.cell p.used (fresh (p.cell p.used)) })
  else
    none

variable (free : α → Prop) (next : α → ℤ)

/-- The free list runs through exactly the free cells handed out before. -/
def Valid (p : Pool α) : Prop :=
  FreeList.Threads (fun i => next (p.cell i)) p.head fun i => i < p.used ∧ free (p.cell i)

/-- Cell `i` is in use. -/
def Live (p : Pool α) (i : ℕ) : Prop := i < p.used ∧ ¬ free (p.cell i)

/-- What taking cell `i` out of the valid pool `p` gives: `q`, in which `i` is neither on the free
list nor in use yet. -/
structure Taken (p : Pool α) (i : ℕ) (q : Pool α) : Prop where
  lt : i < q.used
  not_live : ¬ p.Live free i
  same : ∀ j, j ≠ i → q.cell j = p.cell j
  used_iff : ∀ j, j < q.used ↔ j < p.used ∨ j = i
  threads : FreeList.Threads (fun j => next (q.cell j)) q.head
    fun j => j ≠ i ∧ j < q.used ∧ free (q.cell j)

variable {free next} {fresh : α → α} {cap i j : ℕ} {p q : Pool α} {a : α}

@[simp] theorem set_used : (p.set i a).used = p.used := rfl

@[simp] theorem set_cell_self : (p.set i a).cell i = a := Function.update_self ..

theorem set_cell_of_ne (h : j ≠ i) : (p.set i a).cell j = p.cell j := Function.update_of_ne h ..

@[simp] theorem put_used : (p.put i a).used = p.used := rfl

@[simp] theorem put_cell_self : (p.put i a).cell i = a := Function.update_self ..

theorem put_cell_of_ne (h : j ≠ i) : (p.put i a).cell j = p.cell j := Function.update_of_ne h ..

theorem set_eq_self : p.set i (p.cell i) = p := by
  unfold set
  rw [Function.update_eq_self]

theorem live_set_of_ne (h : j ≠ i) : (p.set i a).Live free j ↔ p.Live free j := by
  rw [Live, Live, set_cell_of_ne h, set_used]

theorem live_put_of_ne (h : j ≠ i) : (p.put i a).Live free j ↔ p.Live free j := by
  rw [Live, Live, put_cell_of_ne h, put_used]

theorem live_set_iff (ha : free a ↔ free (p.cell i)) : (p.set i a).Live free j ↔ p.Live free j := by
  by_cases h : j = i
  · subst h
    rw [Live, Live, set_cell_self, set_used, ha]
  · exact live_set_of_ne h

theorem live_put_iff (ha : free a) : (p.put i a).Live free j ↔ j ≠ i ∧ p.Live free j := by
  by_cases h : j = i
  · subst h
    simp [Live, ha]
  · simp [live_put_of_ne h, h]

/-- Replacing a cell by one that is as free and has the same link. -/
theorem Valid.set (h : p.Valid free next) (ha : free a ↔ free (p.cell i))
    (hn : next a = next (p.cell i)) : (p.set i a).Valid free next := by
  refine FreeList.Threads.congr h (fun j _ => ?_) fun j => ?_
  · by_cases hj : j = i
    · subst hj
      rw [set_cell_self, hn]
    · rw [set_cell_of_ne hj]
  · by_cases hj : j = i
    · subst hj
      rw [set_cell_self, set_used, ha]
    · rw [set_cell_of_ne hj, set_used]

/-- Freeing a cell in use. -/
theorem Valid.put (h : p.Valid free next) (hi : p.Live free i) (ha : free a)
    (hn : next a = p.head) : (p.put i a).Valid free next := by
  have hpush := FreeList.Threads.push h (i := i) fun hf => hi.2 hf.2
  refine FreeList.Threads.congr hpush (fun j _ => ?_) fun j => ?_
  · by_cases hj : j = i
    · subst hj
      rw [put_cell_self, hn, Function.update_self]
    · rw [put_cell_of_ne hj, Function.update_of_ne hj]
  · by_cases hj : j = i
    · subst hj
      simp [ha, hi.1]
    · simp [put_cell_of_ne hj, hj]

theorem Valid.taken (h : p.Valid free next) (ht : p.take next fresh cap = some (i, q)) :
    Taken free next p i q := by
  unfold take at ht
  by_cases hh : 0 ≤ p.head
  · rw [if_pos hh, Option.some.injEq, Prod.mk.injEq] at ht
    obtain ⟨rfl, rfl⟩ := ht
    obtain ⟨⟨hlt, hfree⟩, hpop⟩ := FreeList.Threads.pop h hh
    exact ⟨hlt, fun hl => hl.2 hfree, fun _ _ => rfl,
      fun j => ⟨.inl, by rintro (hj | rfl) <;> assumption⟩, hpop⟩
  · rw [if_neg hh] at ht
    by_cases hu : p.used < cap
    · rw [if_pos hu, Option.some.injEq, Prod.mk.injEq] at ht
      obtain ⟨rfl, rfl⟩ := ht
      have hne : ∀ j, j ≠ p.used →
          Function.update p.cell p.used (fresh (p.cell p.used)) j = p.cell j :=
        fun j hj => Function.update_of_ne hj ..
      refine ⟨Nat.lt_succ_self _, fun hl => Nat.lt_irrefl _ hl.1, hne, fun j => ?_, ?_⟩
      · exact Nat.lt_succ_iff_lt_or_eq
      · refine FreeList.Threads.congr h (fun j hj => ?_) fun j => ?_
        · change next (Function.update p.cell p.used (fresh (p.cell p.used)) j) = next (p.cell j)
          rw [hne j (Nat.ne_of_lt hj.1)]
        · by_cases hj : j = p.used
          · subst hj
            simp
          · simp only [hne j hj]
            constructor
            · rintro ⟨-, hlt, hf⟩
              exact ⟨by omega, hf⟩
            · rintro ⟨hlt, hf⟩
              exact ⟨hj, by omega, hf⟩
    · rw [if_neg hu] at ht
      cases ht

/-- A cell just taken was free before or is fresh. -/
theorem Valid.taken_cell (h : p.Valid free next) (ht : p.take next fresh cap = some (i, q)) :
    (i < p.used ∧ free (p.cell i) ∧ q.cell i = p.cell i) ∨ q.cell i = fresh (p.cell i) := by
  unfold take at ht
  by_cases hh : 0 ≤ p.head
  · rw [if_pos hh, Option.some.injEq, Prod.mk.injEq] at ht
    obtain ⟨rfl, rfl⟩ := ht
    obtain ⟨⟨hlt, hfree⟩, -⟩ := FreeList.Threads.pop h hh
    exact .inl ⟨hlt, hfree, rfl⟩
  · rw [if_neg hh] at ht
    by_cases hu : p.used < cap
    · rw [if_pos hu, Option.some.injEq, Prod.mk.injEq] at ht
      obtain ⟨rfl, rfl⟩ := ht
      exact .inr (Function.update_self ..)
    · rw [if_neg hu] at ht
      cases ht

/-- Taking a cell does not touch those handed out before. -/
theorem take_cell (ht : p.take next fresh cap = some (i, q)) (hj : j < p.used) :
    q.cell j = p.cell j := by
  unfold take at ht
  split_ifs at ht <;> simp only [Option.some.injEq, Prod.mk.injEq] at ht
  · obtain ⟨rfl, rfl⟩ := ht
    rfl
  · obtain ⟨rfl, rfl⟩ := ht
    exact Function.update_of_ne (Nat.ne_of_lt hj) ..

theorem take_used_le (ht : p.take next fresh cap = some (i, q)) (hp : p.used ≤ cap) :
    q.used ≤ cap := by
  unfold take at ht
  split_ifs at ht <;> simp only [Option.some.injEq, Prod.mk.injEq] at ht
  · obtain ⟨rfl, rfl⟩ := ht
    exact hp
  · obtain ⟨rfl, rfl⟩ := ht
    assumption

namespace Taken

theorem live_iff (h : Taken free next p i q) (hj : j ≠ i) : q.Live free j ↔ p.Live free j := by
  rw [Live, Live, h.same j hj, h.used_iff]
  tauto

/-- Installing the taken cell as one in use. -/
theorem set (h : Taken free next p i q) (ha : ¬ free a) : (q.set i a).Valid free next := by
  refine FreeList.Threads.congr h.threads (fun j hj => ?_) fun j => ?_
  · rw [set_cell_of_ne hj.1]
  · by_cases hj : j = i
    · subst hj
      simp [ha]
    · simp [set_cell_of_ne hj, hj]

theorem live_set (h : Taken free next p i q) (ha : ¬ free a) :
    (q.set i a).Live free j ↔ j = i ∨ p.Live free j := by
  by_cases hj : j = i
  · subst hj
    simp [Live, ha, h.lt]
  · rw [live_set_of_ne hj, h.live_iff hj]
    simp [hj]

/-- Giving the taken cell back. -/
theorem put (h : Taken free next p i q) (ha : free a) (hn : next a = q.head) :
    (q.put i a).Valid free next := by
  have hpush := FreeList.Threads.push h.threads (i := i) fun hf => hf.1 rfl
  refine FreeList.Threads.congr hpush (fun j _ => ?_) fun j => ?_
  · by_cases hj : j = i
    · subst hj
      rw [put_cell_self, hn, Function.update_self]
    · rw [put_cell_of_ne hj, Function.update_of_ne hj]
  · by_cases hj : j = i
    · subst hj
      simp [ha, h.lt]
    · simp [put_cell_of_ne hj, hj]

theorem live_put (h : Taken free next p i q) (ha : free a) :
    (q.put i a).Live free j ↔ p.Live free j := by
  rw [live_put_iff ha]
  by_cases hj : j = i
  · subst hj
    simp [h.not_live]
  · rw [h.live_iff hj]
    simp [hj]

end Taken

end Pool
