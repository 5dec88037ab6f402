import Mathlib.Data.List.Nodup
import Mathlib.Data.Nat.Notation

/-!
# Records found by the address of an object

A stack of records, newest first, each about an object and found again by the object's address.  A
`Ptr` carries the object it was made for besides the address; comparing pointers sees the address
only, so a record of an object that is gone can be taken for one of a later object at its place.

`Tracks` says that every record is about a live object, and `Dated` that the records are in the
order of their objects, so that a live object's own record is found before any older one.
-/

set_option autoImplicit false

/-- An address with the object it was taken of.  Objects are numbered as they are created. -/
structure Ptr where
  addr : ℕ
  obj : ℕ
  deriving DecidableEq

/-- Comparison of pointers. -/
def Ptr.same (p q : Ptr) : Bool := decide (p.addr = q.addr)

namespace KeyedStack

variable {α : Type} (key : α → Ptr)

/-- The newest record at the address. -/
def find (p : Ptr) (l : List α) : Option α := l.find? fun e => (key e).same p

/-- The records without the newest at the address. -/
def remove (p : Ptr) (l : List α) : List α := l.eraseP fun e => (key e).same p

/-- Objects that live at the same time have different addresses. -/
def Distinct (live : List Ptr) : Prop := (live.map Ptr.addr).Nodup

variable {key} {live live' : List Ptr} {l l' : List α} {p : Ptr}

theorem Distinct.eq_of_same (h : Distinct live) {q : Ptr} (hp : p ∈ live) (hq : q ∈ live)
    (hsame : p.addr = q.addr) : p = q := List.inj_on_of_nodup_map h hp hq hsame

theorem remove_sublist (p : Ptr) : (remove key p l).Sublist l := List.eraseP_sublist

theorem mem_of_find {e : α} (h : find key p l = some e) : e ∈ l := List.mem_of_find?_eq_some h

theorem addr_of_find {e : α} (h : find key p l = some e) : (key e).addr = p.addr := by
  have hsame : (key e).same p = true := List.find?_some (p := fun e => (key e).same p) h
  exact of_decide_eq_true hsame

/-- Records at other addresses stay. -/
theorem mem_remove {e : α} (he : e ∈ l) (hne : (key e).addr ≠ p.addr) : e ∈ remove key p l :=
  (List.mem_eraseP_of_neg (by simpa [Ptr.same] using hne)).2 he

/-- What is found at another address is still found. -/
theorem find_remove {q : Ptr} (h : q.addr ≠ p.addr) : find key q (remove key p l) = find key q l := by
  induction l with
  | nil => rfl
  | cons e l ih =>
    by_cases hp : (key e).addr = p.addr
    · have hq : (key e).addr ≠ q.addr := fun hq => h (hq.symm.trans hp)
      simp [find, remove, Ptr.same, hp, Ne.symm h]
    · by_cases hq : (key e).addr = q.addr
      · simp [find, remove, Ptr.same, hq, h]
      · have hkept : remove key p (e :: l) = e :: remove key p l := by
          simp [remove, Ptr.same, hp]
        rw [hkept]
        simp only [find, Ptr.same, hq, List.find?_cons, decide_false]
        exact ih

/-- A record at another address is passed over. -/
theorem find_cons_of_ne {e : α} (h : (key e).addr ≠ p.addr) : find key p (e :: l) = find key p l := by
  simp [find, Ptr.same, h]

theorem find_eq_none_iff : find key p l = none ↔ ∀ e ∈ l, (key e).addr ≠ p.addr := by
  simp [find, Ptr.same]

/-- What is found is still found among records that it is one of. -/
theorem find_filter {e : α} {kept : α → Bool} (h : find key p l = some e) (hkept : kept e = true) :
    find key p (l.filter kept) = some e := by
  obtain ⟨hsame, l₁, l₂, rfl, hbefore⟩ := List.find?_eq_some_iff_append.1 h
  rw [List.filter_append, List.filter_cons_of_pos hkept]
  refine List.find?_eq_some_iff_append.2 ⟨hsame, l₁.filter kept, l₂.filter kept, rfl, fun x hx => ?_⟩
  exact hbefore x (List.mem_of_mem_filter hx)

/-- Removing takes what is found, and nothing else. -/
theorem remove_of_find {e : α} (h : find key p l = some e) :
    ∃ l₁ l₂, l = l₁ ++ e :: l₂ ∧ remove key p l = l₁ ++ l₂ := by
  obtain ⟨hp, l₁, l₂, rfl, hbefore⟩ := List.find?_eq_some_iff_append.1 h
  refine ⟨l₁, l₂, rfl, ?_⟩
  have hnot : ∀ x ∈ l₁, ¬ (key x).same p = true := fun x hx => by simpa using hbefore x hx
  exact (List.eraseP_append_right (p := fun e => (key e).same p) _ hnot).trans
    (congrArg (l₁ ++ ·) (List.eraseP_cons_of_pos (p := fun e => (key e).same p) hp))

/-- Where all records at the address are about the object, and there is at most one, removing it
removes all records about the object. -/
theorem remove_eq_filter (hnd : (l.map key).Nodup)
    (hown : ∀ e ∈ l, (key e).addr = p.addr → key e = p) :
    remove key p l = l.filter fun e => key e ≠ p := by
  induction l with
  | nil => rfl
  | cons e l ih =>
    obtain ⟨hnew, hnd⟩ := List.nodup_cons.1 hnd
    have ih := ih hnd fun x hx => hown x (List.mem_cons_of_mem _ hx)
    by_cases hsame : (key e).same p = true
    · have hkey : key e = p := hown e List.mem_cons_self (of_decide_eq_true hsame)
      have hrem : remove key p (e :: l) = l :=
        List.eraseP_cons_of_pos (p := fun e => (key e).same p) hsame
      rw [hrem, List.filter_cons_of_neg (by simp [hkey])]
      have hothers : ∀ x ∈ l, key x ≠ p := by
        intro x hx hxp
        rw [hkey, ← hxp] at hnew
        exact hnew (List.mem_map_of_mem hx)
      exact (List.filter_eq_self.2 fun x hx => by simpa using hothers x hx).symm
    · have hrem : remove key p (e :: l) = e :: remove key p l :=
        List.eraseP_cons_of_neg (p := fun e => (key e).same p) hsame
      have hkey : key e ≠ p := fun hkey => hsame (decide_eq_true (by rw [hkey]))
      rw [hrem, List.filter_cons_of_pos (by simpa using hkey), ih]

/-! ## Every record is about a live object -/

/-- Every record is about a live object, and no two about the same one. -/
structure Tracks (key : α → Ptr) (live : List Ptr) (l : List α) : Prop where
  alive : ∀ e ∈ l, key e ∈ live
  once : (l.map key).Nodup

namespace Tracks

theorem nil : Tracks key live [] := ⟨fun _ h => absurd h List.not_mem_nil, List.nodup_nil⟩

/-- Records may go, and objects without a record. -/
theorem sublist (h : Tracks key live l) (hs : l'.Sublist l)
    (hlive : ∀ e ∈ l', key e ∈ live → key e ∈ live') : Tracks key live' l' :=
  ⟨fun e he => hlive e he (h.alive e (hs.subset he)), h.once.sublist (hs.map key)⟩

theorem mono (h : Tracks key live l) (hlive : live ⊆ live') : Tracks key live' l :=
  h.sublist (List.Sublist.refl l) fun _ _ hk => hlive hk

theorem push (h : Tracks key live l) {e : α} (hkey : key e ∈ live)
    (hfresh : ∀ x ∈ l, key x ≠ key e) : Tracks key live (e :: l) := by
  refine ⟨List.forall_mem_cons.2 ⟨hkey, h.alive⟩, List.nodup_cons.2 ⟨fun hm => ?_, h.once⟩⟩
  obtain ⟨x, hx, hxe⟩ := List.mem_map.1 hm
  exact hfresh x hx hxe

/-- What is found for a live object is its own record. -/
theorem key_of_find (h : Tracks key live l) (hd : Distinct live) (hp : p ∈ live) {e : α}
    (hfind : find key p l = some e) : key e = p :=
  hd.eq_of_same (h.alive e (mem_of_find hfind)) hp (addr_of_find hfind)

/-- After the record of a live object is removed it has none. -/
theorem key_of_remove (h : Tracks key live l) (hd : Distinct live) (hp : p ∈ live) :
    ∀ e ∈ remove key p l, key e ≠ p := by
  intro e he heq
  have hel : e ∈ l := (remove_sublist p).subset he
  have hsame : (key e).same p = true := decide_eq_true (by rw [heq])
  obtain ⟨x, l₁, l₂, -, hx, hl, hrem⟩ :=
    List.exists_of_eraseP (p := fun e => (key e).same p) hel hsame
  have hxp : key x = p := by
    refine hd.eq_of_same (h.alive x ?_) hp (of_decide_eq_true hx)
    rw [hl]
    exact List.mem_append_right _ List.mem_cons_self
  have hrest : e ∈ l₁ ++ l₂ := hrem ▸ he
  have hnd := h.once
  rw [hl, List.map_append, List.map_cons, hxp] at hnd
  refine (List.nodup_middle.1 hnd).notMem ?_
  rw [← List.map_append, ← heq]
  exact List.mem_map_of_mem hrest

end Tracks

/-! ## The records are in the order of their objects -/

/-- The records are in the order of their objects, all older than `next`, and an object younger than
a live one is not at its address. -/
structure Dated (key : α → Ptr) (live : List Ptr) (next : ℕ) (l : List α) : Prop where
  sorted : l.Pairwise fun e e' => (key e').obj < (key e).obj
  old : ∀ e ∈ l, (key e).obj < next
  younger : ∀ e ∈ l, ∀ p ∈ live, p.obj < (key e).obj → (key e).addr ≠ p.addr

namespace Dated

variable {next next' : ℕ}

theorem nil : Dated key live next [] :=
  ⟨.nil, fun _ h => absurd h List.not_mem_nil, fun _ h => absurd h List.not_mem_nil⟩

/-- Records and objects may go. -/
theorem sublist (h : Dated key live next l) (hs : l'.Sublist l) (hlive : live' ⊆ live) :
    Dated key live' next l' where
  sorted := h.sorted.sublist hs
  old e he := h.old e (hs.subset he)
  younger e he p hp := h.younger e (hs.subset he) p (hlive hp)

/-- A new object. -/
theorem create (h : Dated key live next l) (hle : next ≤ next')
    (hlive : ∀ p ∈ live', p ∈ live ∨ next ≤ p.obj) : Dated key live' next' l where
  sorted := h.sorted
  old e he := Nat.lt_of_lt_of_le (h.old e he) hle
  younger e he p hp hlt := by
    rcases hlive p hp with hp | hp
    · exact h.younger e he p hp hlt
    · have := h.old e he
      omega

/-- A record for the newest object. -/
theorem push (h : Dated key live next l) {e : α} (hobj : (key e).obj < next)
    (hnew : ∀ x ∈ l, (key x).obj < (key e).obj)
    (hlive : ∀ p ∈ live, p.obj < (key e).obj → (key e).addr ≠ p.addr) :
    Dated key live next (e :: l) where
  sorted := List.pairwise_cons.2 ⟨hnew, h.sorted⟩
  old := List.forall_mem_cons.2 ⟨hobj, h.old⟩
  younger := List.forall_mem_cons.2 ⟨hlive, h.younger⟩

/-- No two records are about the same object. -/
theorem once (h : Dated key live next l) : (l.map key).Nodup := by
  refine List.pairwise_map.2 (h.sorted.imp fun hlt heq => ?_)
  rw [heq] at hlt
  exact Nat.lt_irrefl _ hlt

/-- A live object's own record is found, whatever older records are at its address. -/
theorem find_own (h : Dated key live next l) {e : α} (he : e ∈ l) (hp : key e ∈ live) :
    find key (key e) l = some e := by
  obtain ⟨l₁, l₂, rfl⟩ := List.append_of_mem he
  have hbefore : ∀ x ∈ l₁, (key x).same (key e) = false := by
    intro x hx
    have hlt := (List.pairwise_append.1 h.sorted).2.2 x hx e List.mem_cons_self
    exact decide_eq_false
      (h.younger x (List.mem_append_left _ hx) _ hp hlt)
  rw [find, List.find?_append, List.find?_eq_none.2 fun x hx => by simp [hbefore x hx]]
  simp [Ptr.same]

end Dated

end KeyedStack
