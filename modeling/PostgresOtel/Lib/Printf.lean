import Mathlib.Data.List.DropRight
import Mathlib.Data.Nat.Log
import PostgresOtel.Lib.JsonText

/-!
# Numbers as `printf` writes them

`%u`, `%d`, and `%.17g` of a double given by its bits, with ties rounded to even and words for what is
not finite.  All but the words are JSON numbers.
-/

set_option autoImplicit false

namespace Printf

/-- `%u`. -/
def decimal (n : ℕ) : List UInt8 := (Nat.toDigits 10 n).map fun c => UInt8.ofNat c.toNat

/-- `%d`. -/
def signedDecimal (i : ℤ) : List UInt8 :=
  if i < 0 then 0x2D :: decimal i.natAbs else decimal i.natAbs

/-- `%X`. -/
def upperHex (n : ℕ) : List UInt8 := (Nat.toDigits 16 n).map fun c => UInt8.ofNat c.toUpper.toNat

/-! ## Doubles -/

def exponentField (bits : BitVec 64) : ℕ := (bits.extractLsb' 52 11).toNat

def fractionField (bits : BitVec 64) : ℕ := (bits.extractLsb' 0 52).toNat

def isFinite (bits : BitVec 64) : Bool := exponentField bits != 0x7FF

/-- The magnitude of a finite double, as a fraction. -/
def magnitude (bits : BitVec 64) : ℕ × ℕ :=
  let e := max (exponentField bits) 1
  let m := if exponentField bits = 0 then fractionField bits else fractionField bits + 2 ^ 52
  if 1075 ≤ e then (m * 2 ^ (e - 1075), 1) else (m, 2 ^ (1075 - e))

/-- The exponent of the largest power of ten up to `n / d`. -/
def decimalExponent (n d : ℕ) : ℤ :=
  if d ≤ n then Nat.log 10 (n / d) else -(Nat.clog 10 ((d + n - 1) / n) : ℤ)

/-- `n / d` rounded to a whole number, ties to even. -/
def roundEven (n d : ℕ) : ℕ :=
  let q := n / d
  let r := n % d
  if 2 * r < d ∨ 2 * r = d ∧ q % 2 = 0 then q else q + 1

/-- The 17 significant digits of `n / d`, and the exponent of the first. -/
def significant (n d : ℕ) : ℕ × ℤ :=
  let x := decimalExponent n d
  let m := if x ≤ 16 then roundEven (n * 10 ^ (16 - x).toNat) d
    else roundEven n (d * 10 ^ (x - 16).toNat)
  if m = 10 ^ 17 then (10 ^ 16, x + 1) else (m, x)

/-- A point and digits without trailing zeros, or nothing. -/
def fractionText (t : List UInt8) : List UInt8 :=
  let digits := t.rdropWhile (· = 0x30)
  if digits = [] then [] else 0x2E :: digits

/-- An exponent of at least two digits. -/
def exponentText (x : ℤ) : List UInt8 :=
  0x65 :: (if x < 0 then 0x2D else 0x2B) ::
    ((if x.natAbs < 10 then [0x30] else []) ++ decimal x.natAbs)

/-- The style of `%e` or of `%f`, by the exponent. -/
def generalText (m : ℕ) (x : ℤ) : List UInt8 :=
  let t := decimal m
  if x < -4 ∨ 17 ≤ x then t.take 1 ++ (fractionText (t.drop 1) ++ exponentText x)
  else if 0 ≤ x then t.take (x.toNat + 1) ++ fractionText (t.drop (x.toNat + 1))
  else 0x30 :: fractionText (List.replicate (-x - 1).toNat 0x30 ++ t)

def signText (bits : BitVec 64) : List UInt8 := if bits.msb then [0x2D] else []

/-- `NaN`. -/
def nanText : List UInt8 := [0x4E, 0x61, 0x4E]

/-- `Infinity`. -/
def infinityText : List UInt8 := [0x49, 0x6E, 0x66, 0x69, 0x6E, 0x69, 0x74, 0x79]

/-- `%.17g`. -/
def general17 (bits : BitVec 64) : List UInt8 :=
  if isFinite bits then
    if (magnitude bits).1 = 0 then signText bits ++ [0x30]
    else
      let (m, x) := significant (magnitude bits).1 (magnitude bits).2
      signText bits ++ generalText m x
  else if fractionField bits = 0 then signText bits ++ infinityText
  else nanText

/-! ## JSON numbers -/

open Json

theorem isDigit_digitChar : ∀ d < 10, isDigit (UInt8.ofNat (Nat.digitChar d).toNat) = true := by
  decide

theorem digitChar_ne_zero : ∀ d < 10, d ≠ 0 → UInt8.ofNat (Nat.digitChar d).toNat ≠ 0x30 := by
  decide

theorem decimal_eq (n : ℕ) : decimal n =
    if n < 10 then [UInt8.ofNat (Nat.digitChar n).toNat]
    else decimal (n / 10) ++ [UInt8.ofNat (Nat.digitChar (n % 10)).toNat] := by
  unfold decimal
  rw [Nat.toDigits_eq_if (by decide)]
  split_ifs
  · rfl
  · rw [List.map_append]
    rfl

/-- The number that some digits spell. -/
def readDecimal (digits : List UInt8) : ℕ :=
  digits.foldl (fun n c => n * 10 + (c.toNat - 0x30)) 0

theorem readDecimal_digitChar : ∀ d < 10, (UInt8.ofNat (Nat.digitChar d).toNat).toNat - 0x30 = d := by
  decide

theorem readDecimal_decimal (n : ℕ) : readDecimal (decimal n) = n := by
  induction n using Nat.strong_induction_on with
  | _ n ih =>
    rw [decimal_eq]
    split_ifs with h
    · simpa [readDecimal] using readDecimal_digitChar n h
    · have hrest := ih (n / 10) (by omega)
      have hlast := readDecimal_digitChar (n % 10) (by omega)
      unfold readDecimal at hrest ⊢
      rw [List.foldl_append, hrest, List.foldl_cons, List.foldl_nil, hlast]
      omega

/-- Different numbers are printed differently. -/
theorem decimal_inj {n k : ℕ} (h : decimal n = decimal k) : n = k := by
  rw [← readDecimal_decimal n, h, readDecimal_decimal]

theorem digits_decimal (n : ℕ) : Digits (decimal n) := by
  induction n using Nat.strong_induction_on with
  | _ n ih =>
    rw [decimal_eq]
    split_ifs with h
    · refine ⟨List.cons_ne_nil _ _, fun c hc => ?_⟩
      rw [List.mem_singleton.1 hc]
      exact isDigit_digitChar n h
    · obtain ⟨hne, hdigits⟩ := ih (n / 10) (by omega)
      refine ⟨fun hnil => hne (List.append_eq_nil_iff.1 hnil).1, fun c hc => ?_⟩
      rcases List.mem_append.1 hc with hc | hc
      · exact hdigits c hc
      · rw [List.mem_singleton.1 hc]
        exact isDigit_digitChar _ (by omega)

theorem head_decimal {n : ℕ} (h : n ≠ 0) : (decimal n).head? ≠ some 0x30 := by
  induction n using Nat.strong_induction_on with
  | _ n ih =>
    rw [decimal_eq]
    split_ifs with hlt
    · exact fun hhead => digitChar_ne_zero n hlt h (Option.some.inj hhead)
    · rw [List.head?_append_of_ne_nil _ (digits_decimal _).1]
      exact ih (n / 10) (by omega) (by omega)

theorem whole_decimal (n : ℕ) : Whole (decimal n) := by
  refine ⟨digits_decimal n, fun hhead => ?_⟩
  by_cases h : n = 0
  · rw [h]
    rfl
  · exact absurd hhead (head_decimal h)

/-- A whole number, a fraction and an exponent make a number, with a sign or without. -/
theorem number_of_parts {sign n f e : List UInt8} (hsign : sign = [] ∨ sign = [0x2D]) (hn : Whole n)
    (hf : Fraction f) (he : Exponent e) : Number (sign ++ (n ++ (f ++ e))) :=
  ⟨sign, n, f, e, rfl, hsign, hn, hf, he⟩

theorem number_of_whole {sign n : List UInt8} (hsign : sign = [] ∨ sign = [0x2D]) (hn : Whole n) :
    Number (sign ++ n) := by
  have h := number_of_parts hsign hn (.inl rfl) (.inl rfl)
  rwa [List.append_nil, List.append_nil] at h

theorem number_decimal (n : ℕ) : Number (decimal n) := number_of_whole (.inl rfl) (whole_decimal n)

theorem number_signedDecimal (i : ℤ) : Number (signedDecimal i) := by
  unfold signedDecimal
  split_ifs
  · exact number_of_whole (.inr rfl) (whole_decimal _)
  · exact number_decimal _

theorem fraction_fractionText {t : List UInt8} (h : ∀ c ∈ t, isDigit c = true) :
    Fraction (fractionText t) := by
  unfold fractionText
  dsimp only
  split_ifs with hnil
  · exact .inl rfl
  · exact .inr ⟨_, rfl, hnil, fun c hc => h c (List.rdropWhile_prefix _ _ |>.subset hc)⟩

theorem exponent_exponentText (x : ℤ) : Exponent (exponentText x) := by
  have hdigits : Digits ((if x.natAbs < 10 then [0x30] else []) ++ decimal x.natAbs) := by
    obtain ⟨hne, hd⟩ := digits_decimal x.natAbs
    refine ⟨fun hnil => hne (List.append_eq_nil_iff.1 hnil).2, fun c hc => ?_⟩
    rcases List.mem_append.1 hc with hc | hc
    · split_ifs at hc
      · rw [List.mem_singleton.1 hc]
        decide
      · cases hc
    · exact hd c hc
  refine .inr ⟨0x65, [if x < 0 then 0x2D else 0x2B], _, rfl, .inl rfl, .inr ?_, hdigits⟩
  split_ifs
  · exact .inr rfl
  · exact .inl rfl

/-- The first digits of a whole number are one. -/
theorem whole_take {t : List UInt8} (h : Whole t) (k : ℕ) : Whole (t.take (k + 1)) := by
  obtain ⟨⟨hne, hdigits⟩, hzero⟩ := h
  obtain ⟨c, t, rfl⟩ := List.exists_cons_of_ne_nil hne
  refine ⟨⟨List.cons_ne_nil _ _, fun d hd => hdigits d (List.mem_of_mem_take hd)⟩, fun hhead => ?_⟩
  simp [hzero hhead]

theorem number_generalText {sign : List UInt8} (hsign : sign = [] ∨ sign = [0x2D]) (m : ℕ) (x : ℤ) :
    Number (sign ++ generalText m x) := by
  have hwhole := whole_decimal m
  have hdrop (k : ℕ) : Fraction (fractionText ((decimal m).drop k)) :=
    fraction_fractionText fun c hc => hwhole.1.2 c (List.mem_of_mem_drop hc)
  unfold generalText
  dsimp only
  split_ifs
  · exact number_of_parts hsign (whole_take hwhole 0) (hdrop 1) (exponent_exponentText x)
  · have h := number_of_parts hsign (whole_take hwhole x.toNat) (hdrop (x.toNat + 1)) (.inl rfl)
    rwa [List.append_nil] at h
  · have hzero : Whole [0x30] := whole_decimal 0
    have hfraction : Fraction (fractionText (List.replicate (-x - 1).toNat 0x30 ++ decimal m)) := by
      refine fraction_fractionText fun c hc => ?_
      rcases List.mem_append.1 hc with hc | hc
      · rw [List.eq_of_mem_replicate hc]
        decide
      · exact hwhole.1.2 c hc
    have h := number_of_parts hsign hzero hfraction (.inl rfl)
    rwa [List.append_nil] at h

theorem signText_cases (bits : BitVec 64) : signText bits = [] ∨ signText bits = [0x2D] := by
  unfold signText
  split_ifs
  · exact .inr rfl
  · exact .inl rfl

theorem number_general17 {bits : BitVec 64} (h : isFinite bits = true) : Number (general17 bits) := by
  unfold general17
  rw [if_pos h]
  split_ifs
  · exact number_of_whole (signText_cases bits) (whole_decimal 0)
  · exact number_generalText (signText_cases bits) _ _

/-- A word has bytes outside of strings that a JSON text cannot have there. -/
theorem word_general17 {bits : BitVec 64} (h : isFinite bits = false) :
    Balanced (general17 bits) ∧ ∃ c ∈ bare .outside (general17 bits), bareByte c = false := by
  unfold general17
  rw [if_neg (by rw [h]; decide)]
  split_ifs
  · rcases signText_cases bits with hsign | hsign
    · rw [hsign]
      exact ⟨rfl, 0x49, by decide, rfl⟩
    · rw [hsign]
      exact ⟨rfl, 0x49, by decide, rfl⟩
  · exact ⟨rfl, 0x4E, by decide, rfl⟩

end Printf
