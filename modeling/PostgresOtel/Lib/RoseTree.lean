import Mathlib.Data.List.Flatten
import Mathlib.Data.List.Lex
import Mathlib.Data.Nat.Notation

/-!
# Rose trees in pre-order

A position of a tree is the list of child indices that leads to it from the root.  `positions` lists
the positions of a tree, each once, in lexicographic order, which is pre-order.  `trails` lists its
labels with the labels above them; `trails_positions` says that this is what stands at the positions.
-/

set_option autoImplicit false

inductive RoseTree (α : Type)
  | node (label : α) (children : List (RoseTree α))

namespace RoseTree

variable {α : Type}

/-- The label at a position. -/
def labelAt : RoseTree α → List ℕ → Option α
  | node a _, [] => some a
  | node _ cs, i :: p => cs[i]?.bind fun c => c.labelAt p

/-- The labels at the proper prefixes of a position, root first. -/
def above (t : RoseTree α) (p : List ℕ) : List α :=
  (List.range p.length).filterMap fun k => t.labelAt (p.take k)

mutual

/-- The positions of a tree in pre-order. -/
def positions : RoseTree α → List (List ℕ)
  | node _ cs => [] :: positionsFrom 0 cs

/-- The positions in the trees, the first of them child `i`. -/
def positionsFrom (i : ℕ) : List (RoseTree α) → List (List ℕ)
  | [] => []
  | c :: cs => c.positions.map (i :: ·) ++ positionsFrom (i + 1) cs

end

mutual

/-- The labels in pre-order, each with the labels above it. -/
def trails (path : List α) : RoseTree α → List (List α × α)
  | node a cs => (path, a) :: trailsOf (path ++ [a]) cs

def trailsOf (path : List α) : List (RoseTree α) → List (List α × α)
  | [] => []
  | c :: cs => c.trails path ++ trailsOf path cs

end

/-- The labels in pre-order. -/
def labels (t : RoseTree α) : List α := (t.trails []).map Prod.snd

variable {t : RoseTree α} {a : α} {c : RoseTree α} {cs : List (RoseTree α)} {i : ℕ} {p : List ℕ}

/-! ## Positions -/

@[simp] theorem labelAt_nil : (node a cs).labelAt [] = some a := by
  simp [labelAt]

@[simp] theorem labelAt_cons :
    (node a cs).labelAt (i :: p) = cs[i]?.bind fun c => c.labelAt p := by
  simp [labelAt]

@[simp] theorem above_nil : t.above [] = [] := by
  simp [above]

theorem above_cons (hc : cs[i]? = some c) : (node a cs).above (i :: p) = a :: c.above p := by
  simp [above, List.range_succ_eq_map, List.filterMap_map, Function.comp_def, hc]

theorem mem_positionsFrom :
    p ∈ positionsFrom i cs ↔ ∃ j c q, cs[j]? = some c ∧ q ∈ c.positions ∧ p = (i + j) :: q := by
  induction cs generalizing i with
  | nil => simp [positionsFrom]
  | cons c cs ih =>
    simp only [positionsFrom, List.mem_append, List.mem_map, ih]
    constructor
    · rintro (⟨q, hq, rfl⟩ | ⟨j, d, q, hd, hq, rfl⟩)
      · exact ⟨0, c, q, by simp, hq, by simp⟩
      · exact ⟨j + 1, d, q, by simpa using hd, hq, by simp; omega⟩
    · rintro ⟨j, d, q, hd, hq, rfl⟩
      cases j with
      | zero =>
        obtain rfl : c = d := by simpa using hd
        exact .inl ⟨q, hq, by simp⟩
      | succ j => exact .inr ⟨j, d, q, by simpa using hd, hq, by simp; omega⟩

theorem mem_positions : ∀ {t : RoseTree α} {p : List ℕ}, p ∈ t.positions ↔ (t.labelAt p).isSome
  | node a cs, [] => by simp [positions]
  | node a cs, i :: p => by
    simp only [positions, List.mem_cons, reduceCtorEq, false_or, mem_positionsFrom, Nat.zero_add,
      List.cons.injEq, labelAt_cons]
    constructor
    · rintro ⟨j, c, q, hc, hq, rfl, rfl⟩
      simpa [hc] using mem_positions.1 hq
    · intro h
      cases hc : cs[i]? with
      | none => simp [hc] at h
      | some c =>
        refine ⟨i, c, p, hc, ?_, rfl, rfl⟩
        exact mem_positions.2 (by simpa [hc] using h)
termination_by _ p => p.length

mutual

/-- Pre-order is the lexicographic order of the positions. -/
theorem pairwise_positions (t : RoseTree α) : t.positions.Pairwise (· < ·) := by
  cases t with
  | node a cs =>
    rw [positions, List.pairwise_cons]
    constructor
    · intro p hp
      obtain ⟨j, c, q, -, -, rfl⟩ := mem_positionsFrom.1 hp
      exact List.nil_lt_cons _ _
    · exact pairwise_positionsFrom 0 cs

theorem pairwise_positionsFrom (i : ℕ) (cs : List (RoseTree α)) :
    (positionsFrom i cs).Pairwise (· < ·) := by
  cases cs with
  | nil => simp [positionsFrom]
  | cons c cs =>
    rw [positionsFrom, List.pairwise_append]
    refine ⟨?_, pairwise_positionsFrom (i + 1) cs, ?_⟩
    · rw [List.pairwise_map]
      exact (pairwise_positions c).imp fun h => List.cons_lt_cons_iff.2 (.inr ⟨rfl, h⟩)
    · intro p hp q hq
      obtain ⟨p, -, rfl⟩ := List.mem_map.1 hp
      obtain ⟨j, d, q, -, -, rfl⟩ := mem_positionsFrom.1 hq
      exact List.cons_lt_cons_iff.2 (.inl (by omega))

end

/-! ## Trails -/

mutual

/-- The trails are what stands at the positions. -/
theorem trails_positions (path : List α) (t : RoseTree α) :
    (t.trails path).map (fun v => (v.1, some v.2)) =
      t.positions.map fun p => (path ++ t.above p, t.labelAt p) := by
  cases t with
  | node a cs =>
    rw [trails, positions, List.map_cons, List.map_cons,
      trailsOf_positionsFrom path a cs List.drop_zero]
    simp

theorem trailsOf_positionsFrom (path : List α) (a : α) {i : ℕ} {all : List (RoseTree α)}
    (cs : List (RoseTree α)) (h : all.drop i = cs) :
    (trailsOf (path ++ [a]) cs).map (fun v => (v.1, some v.2)) =
      (positionsFrom i cs).map fun p => (path ++ (node a all).above p, (node a all).labelAt p) := by
  cases cs with
  | nil => simp [trailsOf, positionsFrom]
  | cons c cs =>
    have hc : all[i]? = some c := by
      rw [← List.head?_drop, h]
      rfl
    have htail : all.drop (i + 1) = cs := by
      rw [← List.tail_drop, h]
      rfl
    rw [trailsOf, positionsFrom, List.map_append, List.map_append, List.map_map,
      trails_positions (path ++ [a]) c, trailsOf_positionsFrom path a cs htail]
    simp [Function.comp_def, above_cons hc, hc]

end

mutual

theorem trails_map_snd (path : List α) (t : RoseTree α) : (t.trails path).map Prod.snd = t.labels := by
  cases t with
  | node a cs =>
    simp only [labels, trails, List.map_cons]
    rw [trailsOf_map_snd (path ++ [a]), trailsOf_map_snd ([] ++ [a])]

theorem trailsOf_map_snd (path : List α) (cs : List (RoseTree α)) :
    (trailsOf path cs).map Prod.snd = cs.flatMap labels := by
  cases cs with
  | nil => simp [trailsOf]
  | cons c cs => simp [trailsOf, trails_map_snd path c, trailsOf_map_snd path cs]

end

@[simp] theorem labels_node : (node a cs).labels = a :: cs.flatMap labels := by
  simp only [labels, trails, List.map_cons]
  rw [trailsOf_map_snd]

/-! ## Ancestors come first -/

/-- The labels above an entry are on the path or belong to entries before it. -/
def AncestorsFirst (path : List α) (l : List (List α × α)) : Prop :=
  ∀ before v after, l = before ++ v :: after → ∀ a ∈ v.1, a ∈ path ∨ a ∈ before.map Prod.snd

theorem AncestorsFirst.append {path : List α} {l l' : List (List α × α)}
    (h : AncestorsFirst path l) (h' : AncestorsFirst path l') : AncestorsFirst path (l ++ l') := by
  intro before v after heq a ha
  rcases List.append_eq_append_iff.1 heq with ⟨mid, rfl, hl'⟩ | ⟨mid, hl, hmid⟩
  · rcases h' mid v after hl' a ha with hpath | hbefore
    · exact .inl hpath
    · right
      rw [List.map_append]
      exact List.mem_append_right _ hbefore
  · cases mid with
    | nil =>
      rw [List.append_nil] at hl
      rw [List.nil_append] at hmid
      rcases h' [] v after hmid.symm a ha with hpath | hbefore
      · exact .inl hpath
      · simp at hbefore
    | cons w mid =>
      obtain ⟨rfl, -⟩ := List.cons.inj hmid
      exact h before v mid hl a ha

mutual

theorem ancestorsFirst_trails (path : List α) (t : RoseTree α) :
    AncestorsFirst path (t.trails path) := by
  cases t with
  | node b cs =>
    intro before v after heq a ha
    rw [trails] at heq
    cases before with
    | nil =>
      obtain ⟨rfl, -⟩ := List.cons.inj heq
      exact .inl ha
    | cons w before =>
      obtain ⟨rfl, htail⟩ := List.cons.inj heq
      rcases ancestorsFirst_trailsOf (path ++ [b]) cs before v after htail a ha with hpath | hbefore
      · simp only [List.mem_append, List.mem_singleton] at hpath
        rcases hpath with hpath | rfl
        · exact .inl hpath
        · exact .inr List.mem_cons_self
      · exact .inr (List.mem_cons_of_mem _ hbefore)

theorem ancestorsFirst_trailsOf (path : List α) (cs : List (RoseTree α)) :
    AncestorsFirst path (trailsOf path cs) := by
  cases cs with
  | nil =>
    intro before v after heq
    cases before <;> cases heq
  | cons c cs =>
    rw [trailsOf]
    exact (ancestorsFirst_trails path c).append (ancestorsFirst_trailsOf path cs)

end

end RoseTree
