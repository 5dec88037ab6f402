import Mathlib.Data.List.Range
import Mathlib.Order.Nat
import PostgresOtel.Lib.Exec

/-!
# Reads of memory

C code examines a string byte by byte from a pointer.  A `ReadM` computation records each address it
examines, so that where it has looked is part of its result; one that gives up leaves the record behind.
`Decides p x r` says that on the string at `p` the computation `x` comes to the result `r` and looks no
further than the NUL.
-/

set_option autoImplicit false

namespace Reads

open Exec

/-- A computation with the addresses it has examined, the latest first. -/
abbrev ReadM (α : Type) := EStateM Unit (List ℕ) α

/-- A pointer to a NUL-terminated string: the bytes from there on. -/
structure CharPtr where
  byte : ℕ → UInt8
  terminated : ∃ n, byte n = 0

namespace CharPtr

/-- The offset of the NUL. -/
def len (p : CharPtr) : ℕ := Nat.find p.terminated

/-- The bytes before the NUL. -/
def text (p : CharPtr) : List UInt8 := (List.range p.len).map p.byte

/-- The string in a buffer, with a NUL after it. -/
def ofString (s : List UInt8) : CharPtr where
  byte i := s.getD i 0
  terminated := ⟨s.length, by simp⟩

@[simp] theorem byte_len (p : CharPtr) : p.byte p.len = 0 := Nat.find_spec p.terminated

@[simp] theorem length_text (p : CharPtr) : p.text.length = p.len := by simp [text]

theorem text_ofString {s : List UInt8} (h : 0 ∉ s) : (ofString s).text = s := by
  have hbyte {i : ℕ} (hi : i < s.length) : (ofString s).byte i = s[i] := by
    simp [ofString, hi]
  have hlen : (ofString s).len = s.length := by
    refine (Nat.find_eq_iff _).2 ⟨by simp [ofString], fun i hi hnul => ?_⟩
    rw [hbyte hi] at hnul
    exact h (hnul ▸ List.getElem_mem hi)
  refine List.ext_getElem (by rw [length_text, hlen]) fun i hi hi' => ?_
  rw [← hbyte hi']
  simp [text]

variable (p : CharPtr)

theorem text_getElem? {i : ℕ} (h : i < p.len) : p.text[i]? = some (p.byte i) := by
  simp [text, h]

/-- The string from an offset on. -/
theorem drop_text {i : ℕ} (h : i < p.len) : p.text.drop i = p.byte i :: p.text.drop (i + 1) := by
  have hlt : i < p.text.length := by simpa using h
  have hget : p.text[i] = p.byte i := by simp [text]
  rw [List.drop_eq_getElem_cons hlt, hget]

end CharPtr

def examine (p : CharPtr) (i : ℕ) : ReadM UInt8 := do
  modify (i :: ·)
  return p.byte i

/-- `strlen`: examines every byte up to the NUL. -/
def strlen (p : CharPtr) : ReadM ℕ := do
  modify ((List.range (p.len + 1)).reverse ++ ·)
  return p.len

/-- Go on only under a condition. -/
def require (c : Prop) [Decidable c] : ReadM Unit := if c then pure () else throw ()

/-- Every address examined is that of a byte of the string or of its NUL. -/
def InString (p : CharPtr) (examined : List ℕ) : Prop := ∀ i ∈ examined, i ≤ p.len

variable {p : CharPtr} {α β : Type}

/-- The computation has the result `r` and stays in the string. -/
def Decides (p : CharPtr) (x : ReadM α) (r : Option α) : Prop :=
  ∀ examined, InString p examined →
    Wp x (fun a examined' => r = some a ∧ InString p examined')
      (fun _ examined' => r = none ∧ InString p examined') examined

theorem decides_pure (a : α) : Decides p (pure a) (some a) := fun _ h => ⟨rfl, h⟩

theorem Decides.bind {x : ReadM β} {f : β → ReadM α} {r : Option β} {g : β → Option α}
    (hx : Decides p x r) (hf : ∀ b, r = some b → Decides p (f b) (g b)) :
    Decides p (x >>= f) (r.bind g) := by
  intro examined h
  rw [wp_bind]
  refine (hx examined h).mono (fun b examined' hb => ?_) fun _ _ hn => ⟨by simp [hn.1], hn.2⟩
  rw [hb.1]
  exact hf b hb.1 examined' hb.2

theorem decides_require {c : Prop} [Decidable c] :
    Decides p (require c) (if c then some () else none) := by
  intro examined h
  unfold require
  split_ifs with hc
  · exact ⟨rfl, h⟩
  · exact ⟨rfl, h⟩

theorem decides_strlen : Decides p (strlen p) (some p.len) := by
  intro examined h
  refine ⟨rfl, fun i hi => ?_⟩
  simp only [List.mem_append, List.mem_reverse, List.mem_range] at hi
  rcases hi with hi | hi
  · omega
  · exact h i hi

theorem decides_examine {i : ℕ} (hi : i ≤ p.len) : Decides p (examine p i) (some (p.byte i)) :=
  fun _ h => ⟨rfl, List.forall_mem_cons.2 ⟨hi, h⟩⟩

/-- Whatever has been decided is the result of a run from the start. -/
theorem Decides.run {x : ReadM α} {r : Option α} (h : Decides p x r) :
    value x [] = r ∧ ∀ i ∈ endState x [], i ≤ p.len := by
  have hwp := h [] fun _ hi => absurd hi List.not_mem_nil
  unfold Wp at hwp
  unfold value endState
  cases hx : x [] with
  | ok a examined =>
    rw [hx] at hwp
    exact ⟨hwp.1.symm, hwp.2⟩
  | error e examined =>
    rw [hx] at hwp
    exact ⟨hwp.1.symm, hwp.2⟩

end Reads
