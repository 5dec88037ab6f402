import Mathlib.Data.List.Nodup

/-!
# Entries overwritten in place or appended

A list of keys with values that is searched from the front: `put` overwrites the value of a key it
finds and appends an entry for one it does not.  So long as keys are only put, no key is there twice.
-/

set_option autoImplicit false

namespace Upsert

variable {κ ν : Type} [BEq κ] [LawfulBEq κ]

/-- Overwrite the value of `key`, or append it. -/
def put (key : κ) (v : ν) : List (κ × ν) → List (κ × ν)
  | [] => [(key, v)]
  | (k, w) :: rest => if k == key then (k, v) :: rest else (k, w) :: put key v rest

/-- Exactly one key changes. -/
theorem lookup_put (key k : κ) (v : ν) (entries : List (κ × ν)) :
    (put key v entries).lookup k = if k == key then some v else entries.lookup k := by
  induction entries with
  | nil => cases h : k == key <;> simp [put, List.lookup_cons, List.lookup_nil, h]
  | cons entry rest ih =>
    obtain ⟨k', w⟩ := entry
    by_cases hk' : k' = key
    · subst hk'
      simp only [put, beq_self_eq_true, if_true, List.lookup_cons]
      cases k == k' <;> simp
    · simp only [put, beq_iff_eq, hk', if_false, List.lookup_cons]
      by_cases h : k = k'
      · subst h
        simp [hk']
      · simp only [beq_false_of_ne h, ih]

theorem mem_keys_put (key k : κ) (v : ν) (entries : List (κ × ν)) :
    k ∈ (put key v entries).map Prod.fst ↔ k = key ∨ k ∈ entries.map Prod.fst := by
  induction entries with
  | nil => simp [put]
  | cons entry rest ih =>
    obtain ⟨k', w⟩ := entry
    by_cases hk' : k' = key
    · subst hk'
      simp [put]
    · simp only [put, beq_iff_eq, hk', if_false, List.map_cons, List.mem_cons, ih]
      tauto

theorem nodup_put {key : κ} {v : ν} {entries : List (κ × ν)} (h : (entries.map Prod.fst).Nodup) :
    ((put key v entries).map Prod.fst).Nodup := by
  induction entries with
  | nil => simp [put]
  | cons entry rest ih =>
    obtain ⟨k', w⟩ := entry
    rw [List.map_cons, List.nodup_cons] at h
    by_cases hk' : k' = key
    · subst hk'
      simpa [put] using h
    · simp only [put, beq_iff_eq, hk', if_false, List.map_cons, List.nodup_cons]
      rw [mem_keys_put]
      exact ⟨fun hmem => hmem.elim hk' h.1, ih h.2⟩

/-- A key that is not there is appended. -/
theorem put_of_not_mem {key : κ} {v : ν} {entries : List (κ × ν)}
    (h : key ∉ entries.map Prod.fst) : put key v entries = entries ++ [(key, v)] := by
  induction entries with
  | nil => rfl
  | cons entry rest ih =>
    obtain ⟨k', w⟩ := entry
    rw [List.map_cons, List.mem_cons, not_or] at h
    simp [put, Ne.symm h.1, ih h.2]

/-- A key that is there has its value replaced where it stands. -/
theorem put_of_mem {key : κ} {v : ν} {entries : List (κ × ν)} (hnd : (entries.map Prod.fst).Nodup)
    (h : key ∈ entries.map Prod.fst) :
    put key v entries = entries.map fun e => if e.1 == key then (e.1, v) else e := by
  induction entries with
  | nil => cases h
  | cons entry rest ih =>
    obtain ⟨k', w⟩ := entry
    rw [List.map_cons, List.nodup_cons] at hnd
    by_cases hk' : k' = key
    · subst hk'
      have hrest : ∀ e ∈ rest, (if e.1 == k' then (e.1, v) else e) = e := fun e he => by
        have hne : e.1 ≠ k' := fun heq => hnd.1 (List.mem_map.2 ⟨e, he, heq⟩)
        simp [hne]
      simp [put, List.map_congr_left hrest]
    · have hmem : key ∈ rest.map Prod.fst := by simpa [Ne.symm hk'] using h
      simp [put, hk', ih hnd.2 hmem]

theorem length_put_of_mem {key : κ} {v : ν} {entries : List (κ × ν)}
    (hnd : (entries.map Prod.fst).Nodup) (h : key ∈ entries.map Prod.fst) :
    (put key v entries).length = entries.length := by
  rw [put_of_mem hnd h, List.length_map]

omit [LawfulBEq κ] in
/-- A put takes no entry away. -/
theorem length_le_put (key : κ) (v : ν) (entries : List (κ × ν)) :
    entries.length ≤ (put key v entries).length := by
  induction entries with
  | nil => exact Nat.zero_le _
  | cons entry rest ih =>
    unfold put
    split_ifs
    · exact Nat.le_refl _
    · exact Nat.succ_le_succ ih

/-- Where an entry comes from. -/
theorem mem_put {key : κ} {v : ν} {entries : List (κ × ν)} {e : κ × ν} (h : e ∈ put key v entries) :
    e = (key, v) ∨ e ∈ entries := by
  induction entries with
  | nil => exact .inl (List.mem_singleton.1 h)
  | cons entry rest ih =>
    obtain ⟨k', w⟩ := entry
    by_cases hk' : k' = key
    · subst hk'
      simp only [put, beq_self_eq_true, if_true, List.mem_cons] at h ⊢
      exact h.imp_right .inr
    · simp only [put, beq_iff_eq, hk', if_false, List.mem_cons] at h ⊢
      rcases h with rfl | h
      · exact .inr (.inl rfl)
      · exact (ih h).imp_right .inr

end Upsert
