import Mathlib.Data.Nat.Notation
import Mathlib.Tactic.Common

/-!
# Scans of a buffer

C code that walks over a buffer with pointers, and writes what it finds to another one.  A pointer is
an offset.  A scan may refuse its input; it may also leave a buffer that it must stay in, or not end at
all, and a program is right if it never does.
-/

set_option autoImplicit false

namespace Scan

/-- Why a scan has no result: it refused the input, looked outside of the buffer, wrote past the end of
its output, or was still in its loop. -/
inductive Stop
  | refused | outside | overflow | running
  deriving DecidableEq

abbrev ScanM := Except Stop

/-- The byte at `p`. -/
def byteAt (buf : List UInt8) (p : ℕ) : ScanM UInt8 :=
  match buf[p]? with
  | some c => .ok c
  | none => .error .outside

/-- `p < last && *p == c`. -/
def byteIs (buf : List UInt8) (last p : ℕ) (c : UInt8) : ScanM Bool :=
  if p < last then do
    let b ← byteAt buf p
    return b = c
  else return false

/-- `while (n > 0 && f(*p)) n--, p++`: where the scan stops, at most `n` bytes after `p`. -/
def skipWhile (buf : List UInt8) (f : UInt8 → Bool) : ℕ → ℕ → ScanM ℕ
  | 0, p => return p
  | n + 1, p => do
    let c ← byteAt buf p
    if f c then skipWhile buf f n (p + 1) else return p

/-- Append a byte to an output buffer with room for `size` bytes. -/
def putByte (size : ℕ) (out : List UInt8) (c : UInt8) : ScanM (List UInt8) :=
  if out.length < size then .ok (out ++ [c]) else .error .overflow

/-- The result of a scan that ends in its buffers; none is a refusal. -/
def orRefused {α : Type} : Option α → ScanM α
  | some a => .ok a
  | none => .error .refused

/-! ## A pointer as the rest of the buffer -/

/-- From `p` on, the buffer holds `rest`. -/
def At (buf : List UInt8) (p : ℕ) (rest : List UInt8) : Prop :=
  p + rest.length = buf.length ∧ buf.drop p = rest

variable {buf rest : List UInt8} {p size : ℕ} {c : UInt8}

theorem at_zero (buf : List UInt8) : At buf 0 buf := ⟨by omega, rfl⟩

theorem At.tail (h : At buf p (c :: rest)) : At buf (p + 1) rest := by
  obtain ⟨hlen, hdrop⟩ := h
  refine ⟨by rw [List.length_cons] at hlen; omega, ?_⟩
  rw [← List.tail_drop, hdrop, List.tail_cons]

theorem At.byteAt (h : At buf p (c :: rest)) : byteAt buf p = .ok c := by
  have hget : buf[p]? = some c := by
    rw [← List.head?_drop, h.2, List.head?_cons]
  simp [Scan.byteAt, hget]

theorem At.lt_iff (h : At buf p rest) : p < buf.length ↔ rest ≠ [] := by
  rw [← List.length_pos_iff, ← h.1]
  omega

theorem At.le_iff (h : At buf p rest) : buf.length ≤ p ↔ rest = [] := by
  rw [← Nat.not_lt, h.lt_iff, not_not]

theorem At.sub_eq (h : At buf p rest) : buf.length - p = rest.length := by
  have := h.1
  omega

/-- Skipping comes to where the rest stops having the property. -/
theorem At.dropWhile (h : At buf p rest) (f : UInt8 → Bool) :
    At buf (p + (rest.takeWhile f).length) (rest.dropWhile f) := by
  have hsplit := List.takeWhile_append_dropWhile (p := f) (l := rest)
  obtain ⟨hlen, hdrop⟩ := h
  constructor
  · rw [← hlen, Nat.add_assoc, ← List.length_append, hsplit]
  · have hdropped : (rest.takeWhile f ++ rest.dropWhile f).drop (rest.takeWhile f).length =
        rest.dropWhile f := List.drop_left
    rw [← List.drop_drop, hdrop]
    rwa [hsplit] at hdropped

theorem At.skipWhile (h : At buf p rest) (f : UInt8 → Bool) :
    skipWhile buf f rest.length p = .ok (p + (rest.takeWhile f).length) := by
  induction rest generalizing p with
  | nil => rfl
  | cons c rest ih =>
    rw [List.length_cons, Scan.skipWhile, h.byteAt]
    cases hc : f c with
    | true =>
      have hnext := ih h.tail
      simp only [bind, Except.bind, hc, if_true, hnext, List.takeWhile_cons, List.length_cons]
      congr 1
      omega
    | false => simp [bind, Except.bind, hc, pure, Except.pure]

theorem At.byteIs (h : At buf p rest) (c : UInt8) :
    byteIs buf buf.length p c = .ok (decide (rest.head? = some c)) := by
  unfold Scan.byteIs
  cases rest with
  | nil =>
    have hend : ¬ p < buf.length := fun hlt => h.lt_iff.1 hlt rfl
    rw [if_neg hend]
    rfl
  | cons b rest =>
    have hlt : p < buf.length := h.lt_iff.2 (List.cons_ne_nil b rest)
    rw [if_pos hlt, h.byteAt]
    simp [bind, Except.bind, pure, Except.pure]

theorem putByte_ok {out : List UInt8} (h : out.length < size) (c : UInt8) :
    putByte size out c = .ok (out ++ [c]) := if_pos h

end Scan
