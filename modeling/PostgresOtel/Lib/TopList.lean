import Mathlib.Data.List.Induction
import Mathlib.Data.List.TakeDrop
import Mathlib.Data.Nat.Notation
import Mathlib.Order.Lattice

/-!
# The largest entries of a sequence, kept in a short array

Entries with keys are put into an array of fixed size that is kept in descending order: behind those
that are not smaller, while the ones behind it move down and the last falls out.  `insertSlot` does it
in place, as a search and a loop of moves.  `foldl_insertSlot` says what is in the array after any
sequence of entries, and `isTop_top` what that is.
-/

set_option autoImplicit false

namespace TopList

variable {α β K : Type} [LinearOrder K]

/-! ## The ranking of a sequence -/

section Ranking

variable (key : α → K)

/-- Puts an entry behind those that are not smaller. -/
def insertLast (x : α) : List α → List α
  | [] => [x]
  | a :: l => if key x ≤ key a then a :: insertLast x l else x :: a :: l

/-- A sequence in descending order, entries with equal keys in the order in which they came. -/
def ranking (xs : List α) : List α := xs.foldl (fun l x => insertLast key x l) []

/-- The first `n` of the entries above the bound. -/
def top (n : ℕ) (bound : K) (xs : List α) : List α :=
  (ranking key (xs.filter fun x => bound < key x)).take n

variable {key} {x : α} {l l' xs : List α}

theorem mem_insertLast {a : α} : a ∈ insertLast key x l ↔ a = x ∨ a ∈ l := by
  induction l with
  | nil => simp [insertLast]
  | cons b l ih =>
    rw [insertLast]
    split_ifs
    · simp only [List.mem_cons, ih]
      tauto
    · simp

/-- Behind the entries that are not smaller. -/
theorem insertLast_append_of_le (h : ∀ a ∈ l, key x ≤ key a) :
    insertLast key x (l ++ l') = l ++ insertLast key x l' := by
  induction l with
  | nil => rfl
  | cons a l ih =>
    rw [List.cons_append, insertLast, if_pos (h a List.mem_cons_self),
      ih fun b hb => h b (List.mem_cons_of_mem a hb), List.cons_append]

/-- Before the entries that are smaller. -/
theorem insertLast_append_of_lt (h : ∀ a ∈ l', key a < key x) :
    insertLast key x (l ++ l') = insertLast key x l ++ l' := by
  induction l with
  | nil =>
    cases l' with
    | nil => rfl
    | cons a l' => simp [insertLast, h a List.mem_cons_self]
  | cons a l ih =>
    simp only [List.cons_append, insertLast, ih]
    split_ifs <;> simp

/-- What falls out does not matter later. -/
theorem take_insertLast (n : ℕ) :
    (insertLast key x (l.take n)).take n = (insertLast key x l).take n := by
  induction l generalizing n with
  | nil => simp
  | cons a l ih =>
    cases n with
    | zero => simp
    | succ n =>
      rw [List.take_succ_cons, insertLast, insertLast]
      split_ifs
      · rw [List.take_succ_cons, List.take_succ_cons, ih]
      · have hcut : (a :: l.take n).take n = (a :: l).take n := by
          rw [← List.take_succ_cons, List.take_take, min_eq_left (by omega)]
        rw [List.take_succ_cons, List.take_succ_cons, hcut]

theorem insertLast_map {key' : β → K} {f : β → α} (hf : ∀ b, key (f b) = key' b) (y : β)
    (m : List β) : insertLast key (f y) (m.map f) = (insertLast key' y m).map f := by
  induction m with
  | nil => simp [insertLast]
  | cons b m ih =>
    simp only [List.map_cons, insertLast, hf, ih]
    split_ifs <;> simp

end Ranking

/-! ## The array -/

section Slots

variable (key : α → K) (empty : α)

/-- `for (i = last; i > insertAt; i--) slots[i] = slots[i - 1]`. -/
def shiftDown (insertAt : ℕ) : ℕ → List α → List α
  | 0, slots => slots
  | i + 1, slots =>
    if insertAt < i + 1 then shiftDown insertAt i (slots.set (i + 1) (slots.getD i empty))
    else slots

/-- Puts an entry into the first slot it beats, if there is one. -/
def insertSlot (x : α) (slots : List α) : List α :=
  match slots.findIdx? fun a => key a < key x with
  | none => slots
  | some insertAt => (shiftDown empty insertAt (slots.length - 1) slots).set insertAt x

variable {key empty} {x : α} {slots : List α}

theorem shiftDown_getElem? {insertAt i : ℕ} (hi : i < slots.length) (j : ℕ) :
    (shiftDown empty insertAt i slots)[j]? =
      if insertAt < j ∧ j ≤ i then slots[j - 1]? else slots[j]? := by
  induction i generalizing slots with
  | zero =>
    have hj : ¬ (insertAt < j ∧ j ≤ 0) := by omega
    rw [shiftDown, if_neg hj]
  | succ i ih =>
    rw [shiftDown]
    split_ifs with hlt hj hj
    · rw [ih (by simp; omega)]
      rcases Nat.lt_or_ge i j with hij | hij
      · obtain rfl : j = i + 1 := by omega
        have hhere : ¬ (insertAt < i + 1 ∧ i + 1 ≤ i) := by omega
        rw [if_neg hhere, List.getElem?_set_self hi, Nat.add_sub_cancel,
          List.getD_eq_getElem?_getD, List.getElem?_eq_getElem (by omega), Option.getD_some]
      · rw [if_pos ⟨hj.1, hij⟩, List.getElem?_set_ne (by omega)]
    · rw [ih (by simp; omega), if_neg (by omega), List.getElem?_set_ne (by omega)]
    · omega
    · rfl

@[simp] theorem length_shiftDown (insertAt i : ℕ) (slots : List α) :
    (shiftDown empty insertAt i slots).length = slots.length := by
  induction i generalizing slots with
  | zero => rw [shiftDown]
  | succ i ih =>
    rw [shiftDown]
    split_ifs <;> simp [ih]

/-- The array with an entry is the list with the entry, cut off at the end of the array. -/
theorem insertSlot_eq_take (x : α) (slots : List α) :
    insertSlot key empty x slots = (insertLast key x slots).take slots.length := by
  unfold insertSlot
  cases hfind : slots.findIdx? fun a => key a < key x with
  | none =>
    have hall : ∀ a ∈ slots, key x ≤ key a := by
      simpa using List.findIdx?_eq_none_iff.1 hfind
    have hlast : insertLast key x slots = slots ++ [x] := by
      have happend : insertLast key x (slots ++ []) = slots ++ insertLast key x [] :=
        insertLast_append_of_le hall
      simpa [insertLast] using happend
    simp [hlast]
  | some i =>
    obtain ⟨hi, hbeat, hbefore⟩ := List.findIdx?_eq_some_iff_getElem.1 hfind
    have hlast : insertLast key x slots = slots.take i ++ x :: slots.drop i := by
      conv_lhs => rw [← List.take_append_drop i slots]
      rw [insertLast_append_of_le, List.drop_eq_getElem_cons hi, insertLast, if_neg]
      · simpa using hbeat
      · intro a ha
        obtain ⟨j, hj, rfl⟩ := List.mem_iff_getElem.1 ha
        simp only [List.length_take, lt_inf_iff] at hj
        simpa using hbefore j hj.1
    have hlen : (slots.take i).length = i := by simp; omega
    rw [hlast]
    apply List.ext_getElem?
    intro j
    rw [List.getElem?_take]
    rcases Nat.lt_trichotomy j i with hlt | rfl | hgt
    · rw [List.getElem?_set_ne (by omega), shiftDown_getElem? (by omega), if_neg (by omega),
        if_pos (by omega), List.getElem?_append_left (by omega), List.getElem?_take, if_pos hlt]
    · rw [List.getElem?_set_self (by simpa using hi), if_pos hi,
        List.getElem?_append_right (by omega), hlen]
      simp
    · obtain ⟨k, rfl⟩ := Nat.exists_eq_add_of_lt hgt
      rw [List.getElem?_set_ne (by omega), shiftDown_getElem? (by omega),
        List.getElem?_append_right (by omega), hlen]
      have hk : i + k + 1 - i = k + 1 := by omega
      rw [hk, List.getElem?_cons_succ, List.getElem?_drop]
      split_ifs with hshift hin hin
      · rfl
      · omega
      · omega
      · exact List.getElem?_eq_none (by omega)

end Slots

/-! ## A sequence of entries -/

section Sequence

variable {key : α → K} {empty : α}

@[simp] theorem length_insertSlot (x : α) (slots : List α) :
    (insertSlot key empty x slots).length = slots.length := by
  unfold insertSlot
  cases slots.findIdx? fun a => key a < key x <;> simp

theorem take_foldl_insertLast (xs l : List α) (n : ℕ) :
    (xs.foldl (fun l x => insertLast key x l) (l.take n)).take n =
      (xs.foldl (fun l x => insertLast key x l) l).take n := by
  induction xs generalizing l with
  | nil => simp [List.take_take]
  | cons x xs ih =>
    rw [List.foldl_cons, List.foldl_cons, ← ih (insertLast key x (l.take n)), take_insertLast,
      ih]

theorem foldl_insertSlot_eq_take (xs slots : List α) :
    xs.foldl (fun slots x => insertSlot key empty x slots) slots =
      (xs.foldl (fun l x => insertLast key x l) slots).take slots.length := by
  induction xs generalizing slots with
  | nil => simp
  | cons x xs ih =>
    rw [List.foldl_cons, List.foldl_cons, ih, length_insertSlot, insertSlot_eq_take,
      take_foldl_insertLast]

theorem mem_ranking {a : α} {xs : List α} : a ∈ ranking key xs ↔ a ∈ xs := by
  induction xs using List.reverseRecOn with
  | nil => simp [ranking]
  | append_singleton xs x ih =>
    simp only [ranking] at ih
    simp only [ranking, List.foldl_append, List.foldl_cons, List.foldl_nil, mem_insertLast, ih,
      List.mem_append, List.mem_singleton]
    tauto

theorem ranking_concat (xs : List α) (x : α) :
    ranking key (xs ++ [x]) = insertLast key x (ranking key xs) := by
  simp [ranking]

/-- Among empty slots, the entries above their key come before them and the others behind. -/
theorem foldl_insertLast_replicate (key : α → K) (empty : α) (n : ℕ) (xs : List α) :
    ∃ rest, xs.foldl (fun l x => insertLast key x l) (List.replicate n empty) =
      ranking key (xs.filter fun x => key empty < key x) ++ (List.replicate n empty ++ rest) ∧
      ∀ a ∈ rest, key a ≤ key empty := by
  induction xs using List.reverseRecOn with
  | nil => exact ⟨[], by simp [ranking], by simp⟩
  | append_singleton xs x ih =>
    obtain ⟨rest, hfold, hrest⟩ := ih
    rw [List.foldl_append, List.foldl_cons, List.foldl_nil, hfold]
    by_cases hx : key empty < key x
    · refine ⟨rest, ?_, hrest⟩
      have hbehind : ∀ a ∈ List.replicate n empty ++ rest, key a < key x := by
        intro a ha
        rcases List.mem_append.1 ha with ha | ha
        · rw [List.eq_of_mem_replicate ha]
          exact hx
        · exact lt_of_le_of_lt (hrest a ha) hx
      rw [insertLast_append_of_lt hbehind, List.filter_append, List.filter_cons_of_pos (by simpa),
        List.filter_nil, ranking_concat]
    · have hle : key x ≤ key empty := not_lt.1 hx
      refine ⟨insertLast key x rest, ?_, ?_⟩
      · rw [insertLast_append_of_le, insertLast_append_of_le, List.filter_append,
          List.filter_cons_of_neg (by simpa), List.filter_nil, List.append_nil]
        · intro a ha
          rw [List.eq_of_mem_replicate ha]
          exact hle
        · intro a ha
          have hpos := (List.mem_filter.1 (mem_ranking.1 ha)).2
          exact hle.trans (of_decide_eq_true hpos).le
      · intro a ha
        rcases mem_insertLast.1 ha with rfl | ha
        · exact hle
        · exact hrest a ha

/-- What an array of empty slots holds after a sequence of entries. -/
theorem foldl_insertSlot (key : α → K) (empty : α) (n : ℕ) (xs : List α) :
    xs.foldl (fun slots x => insertSlot key empty x slots) (List.replicate n empty) =
      top key n (key empty) xs ++
        List.replicate (n - (top key n (key empty) xs).length) empty := by
  obtain ⟨rest, hfold, -⟩ := foldl_insertLast_replicate key empty n xs
  rw [foldl_insertSlot_eq_take, hfold, List.length_replicate, List.take_append,
    List.take_append_of_le_length (by simp), List.take_replicate, top, List.length_take]
  congr 2
  omega

end Sequence

/-! ## What the top is -/

section Top

variable (key : α → K)

/-- Of numbered entries: a larger key, or an equal one that came earlier. -/
def Outranks (p q : α × ℕ) : Prop := key q.1 < key p.1 ∨ key p.1 = key q.1 ∧ p.2 < q.2

/-- The `n` entries above the bound that outrank all others, or all of them if they are fewer, in
their order.  Each stands with its place in the sequence. -/
structure IsTop (n : ℕ) (bound : K) (xs : List α) (t : List (α × ℕ)) : Prop where
  mem : ∀ p ∈ t, xs[p.2]? = some p.1 ∧ bound < key p.1
  order : t.Pairwise (Outranks key)
  full : t.length ≤ n
  rest : ∀ p : α × ℕ, xs[p.2]? = some p.1 → bound < key p.1 →
    p ∈ t ∨ t.length = n ∧ ∀ q ∈ t, Outranks key q p

/-- The top with the places of its entries. -/
def topPlaces (n : ℕ) (bound : K) (xs : List α) : List (α × ℕ) :=
  top (fun p : α × ℕ => key p.1) n bound xs.zipIdx

variable {key}

theorem pairwise_insertLast {x : α × ℕ} {l : List (α × ℕ)} (h : l.Pairwise (Outranks key))
    (hlast : ∀ p ∈ l, p.2 < x.2) :
    (insertLast (fun p : α × ℕ => key p.1) x l).Pairwise (Outranks key) := by
  induction l with
  | nil => simp [insertLast]
  | cons a l ih =>
    obtain ⟨ha, hl⟩ := List.pairwise_cons.1 h
    rw [insertLast]
    split_ifs with hle
    · rw [List.pairwise_cons]
      constructor
      · intro p hp
        rcases mem_insertLast.1 hp with rfl | hp
        · rcases hle.lt_or_eq with hlt | heq
          · exact .inl hlt
          · exact .inr ⟨heq.symm, hlast a List.mem_cons_self⟩
        · exact ha p hp
      · exact ih hl fun p hp => hlast p (List.mem_cons_of_mem a hp)
    · rw [List.pairwise_cons]
      constructor
      · intro p hp
        rcases List.mem_cons.1 hp with rfl | hp
        · exact .inl (not_le.1 hle)
        · left
          rcases ha p hp with hlt | ⟨heq, -⟩
          · exact hlt.trans (not_le.1 hle)
          · exact heq ▸ not_le.1 hle
      · exact h

/-- The ranking of a numbered sequence. -/
theorem pairwise_ranking {ys : List (α × ℕ)} (h : ys.Pairwise fun p q => p.2 < q.2) :
    (ranking (fun p : α × ℕ => key p.1) ys).Pairwise (Outranks key) := by
  induction ys using List.reverseRecOn with
  | nil => simp [ranking]
  | append_singleton ys y ih =>
    obtain ⟨hys, -, hlast⟩ := List.pairwise_append.1 h
    rw [ranking_concat]
    apply pairwise_insertLast (ih hys)
    intro p hp
    exact hlast p (mem_ranking.1 hp) y List.mem_cons_self

theorem isTop_topPlaces (n : ℕ) (bound : K) (xs : List α) :
    IsTop key n bound xs (topPlaces key n bound xs) := by
  set ranked := ranking (fun p : α × ℕ => key p.1) (xs.zipIdx.filter fun p => bound < key p.1)
    with hranked
  have hmem : ∀ p, p ∈ ranked ↔ xs[p.2]? = some p.1 ∧ bound < key p.1 := by
    intro p
    rw [hranked, mem_ranking, List.mem_filter, List.mem_zipIdx_iff_getElem?]
    simp
  have horder : ranked.Pairwise (Outranks key) := by
    apply pairwise_ranking
    apply List.Pairwise.filter
    rw [← List.pairwise_map, List.zipIdx_map_snd]
    exact List.pairwise_lt_range'
  have htop : topPlaces key n bound xs = ranked.take n := rfl
  rw [htop]
  constructor
  · intro p hp
    exact (hmem p).1 (List.mem_of_mem_take hp)
  · exact horder.sublist (List.take_sublist n ranked)
  · exact List.length_take_le n ranked
  · intro p hp hbound
    have hp : p ∈ ranked := (hmem p).2 ⟨hp, hbound⟩
    rw [← List.take_append_drop n ranked] at hp horder
    rcases List.mem_append.1 hp with hp | hp
    · exact .inl hp
    · have hlen := List.length_pos_of_mem hp
      rw [List.length_drop] at hlen
      refine .inr ⟨by simp; omega, fun q hq => ?_⟩
      exact (List.pairwise_append.1 horder).2.2 q hq p hp

theorem ranking_map {key' : β → K} {f : β → α} (hf : ∀ b, key (f b) = key' b) (ys : List β) :
    ranking key (ys.map f) = (ranking key' ys).map f := by
  induction ys using List.reverseRecOn with
  | nil => rfl
  | append_singleton ys y ih =>
    rw [List.map_append, List.map_singleton, ranking_concat, ranking_concat, ih, insertLast_map hf]

/-- The top of entries made of others. -/
theorem top_map (key' : β → K) (f : β → α) (hf : ∀ b, key (f b) = key' b) (n : ℕ) (bound : K)
    (ys : List β) : top key n bound (ys.map f) = (top key' n bound ys).map f := by
  have hfilter : (ys.map f).filter (fun x => bound < key x) =
      (ys.filter fun y => bound < key' y).map f := by
    simp [List.filter_map, Function.comp_def, hf]
  rw [top, hfilter, ranking_map hf, top, List.map_take]

/-- Without the places it is the top. -/
theorem topPlaces_map_fst (n : ℕ) (bound : K) (xs : List α) :
    (topPlaces key n bound xs).map Prod.fst = top key n bound xs := by
  have hmap : top key n bound (xs.zipIdx.map Prod.fst) = (topPlaces key n bound xs).map Prod.fst :=
    top_map (fun p : α × ℕ => key p.1) Prod.fst (fun _ => rfl) n bound xs.zipIdx
  rw [List.zipIdx_map_fst] at hmap
  exact hmap.symm

end Top

end TopList
