import Mathlib.Data.Int.Log
import Mathlib.Data.Rat.Floor
import Mathlib.Data.Rat.Star
import Mathlib.Tactic.Linarith
import Mathlib.Tactic.NormNum
import Mathlib.Tactic.Positivity

/-!
# Binary64 arithmetic

A `double` as the rational number that it stands for.  An operation rounds its exact result to 53
significant bits, half to even, as C's does in its default mode.  There are no limits to the exponent, so
overflow and subnormal results are left out.
-/

set_option autoImplicit false

namespace Binary64

/-! ## Rounding to a whole number -/

/-- `rint`: the nearest whole number, and the even one if there are two. -/
def rint (q : ℚ) : ℤ :=
  let low := ⌊q⌋
  let rest := q - low
  if rest < 1 / 2 then low
  else if 1 / 2 < rest then low + 1
  else if low % 2 = 0 then low
  else low + 1

theorem rint_cases (q : ℚ) :
    (rint q = ⌊q⌋ ∧ q - ⌊q⌋ ≤ 1 / 2) ∨ (rint q = ⌊q⌋ + 1 ∧ 1 / 2 ≤ q - ⌊q⌋) := by
  unfold rint
  dsimp only
  split_ifs with hlow hhigh heven
  · exact .inl ⟨rfl, hlow.le⟩
  · exact .inr ⟨rfl, hhigh.le⟩
  · exact .inl ⟨rfl, not_lt.1 hhigh⟩
  · exact .inr ⟨rfl, not_lt.1 hlow⟩

theorem floor_le_rint (q : ℚ) : ⌊q⌋ ≤ rint q := by
  rcases rint_cases q with ⟨h, -⟩ | ⟨h, -⟩ <;> omega

theorem rint_le_floor_add_one (q : ℚ) : rint q ≤ ⌊q⌋ + 1 := by
  rcases rint_cases q with ⟨h, -⟩ | ⟨h, -⟩ <;> omega

theorem rint_nearest (q : ℚ) :
    |(rint q : ℚ) - q| ≤ 1 / 2 ∧ (|(rint q : ℚ) - q| = 1 / 2 → rint q % 2 = 0) := by
  have hfloor := Int.floor_le q
  have hlt := Int.lt_floor_add_one q
  unfold rint
  dsimp only
  split_ifs with hlow hhigh heven
  · rw [abs_sub_comm, abs_of_nonneg (by linarith)]
    exact ⟨hlow.le, fun h => by linarith⟩
  · push_cast
    rw [abs_of_nonneg (by linarith)]
    exact ⟨by linarith, fun h => by linarith⟩
  · rw [abs_sub_comm, abs_of_nonneg (by linarith)]
    exact ⟨by linarith, fun _ => heven⟩
  · push_cast
    rw [abs_of_nonneg (by linarith)]
    exact ⟨by linarith, fun _ => by omega⟩

theorem rint_mono {x y : ℚ} (h : x ≤ y) : rint x ≤ rint y := by
  rcases (Int.floor_le_floor h).eq_or_lt with heq | hlt
  · have hfrac : x - ⌊x⌋ ≤ y - ⌊x⌋ := by linarith
    unfold rint
    dsimp only
    rw [← heq]
    split_ifs <;> first | omega | linarith
  · have hx := rint_le_floor_add_one x
    have hy := floor_le_rint y
    omega

theorem rint_intCast (n : ℤ) : rint n = n := by
  unfold rint
  simp

/-- Only a number at most a half away rounds to it; one that is nearer does. -/
theorem rint_eq_of_lt {q : ℚ} {n : ℤ} (h : |q - n| < 1 / 2) : rint q = n := by
  have hnear := (rint_nearest q).1
  rw [abs_lt] at h
  rw [abs_le] at hnear
  have hlow : (rint q : ℚ) - n < 1 := by linarith
  have hhigh : -1 < (rint q : ℚ) - n := by linarith
  have hlow' : rint q - n < 1 := by exact_mod_cast hlow
  have hhigh' : -1 < rint q - n := by exact_mod_cast hhigh
  omega

/-! ## Rounding to 53 bits -/

/-- The exponent of the last of the 53 bits. -/
def lastPlace (x : ℚ) : ℤ := Int.log 2 |x| - 52

/-- The double nearest to `x`, and the even one if there are two. -/
def nearest (x : ℚ) : ℚ := rint (x / 2 ^ lastPlace x) * 2 ^ lastPlace x

/-- `x - y`. -/
def sub (x y : ℚ) : ℚ := nearest (x - y)

/-- `x * y`. -/
def mul (x y : ℚ) : ℚ := nearest (x * y)

/-- The number has no more than 53 significant bits. -/
def IsDouble (x : ℚ) : Prop := ∃ m e : ℤ, |m| ≤ 2 ^ 53 ∧ x = m * 2 ^ e

variable {x y : ℚ}

theorem zpow_two_pos (e : ℤ) : (0 : ℚ) < 2 ^ e := zpow_pos (by norm_num) e

theorem zpow_two_add (a b : ℤ) : (2 : ℚ) ^ (a + b) = 2 ^ a * 2 ^ b := zpow_add₀ (by norm_num) a b

/-- In units of its last place a number has 53 bits. -/
theorem scaled_bounds (hx : 0 < x) :
    ((2 ^ 52 : ℤ) : ℚ) ≤ x / 2 ^ lastPlace x ∧ x / 2 ^ lastPlace x ≤ ((2 ^ 53 : ℤ) : ℚ) := by
  have hlow := Int.zpow_log_le_self (b := 2) (by norm_num) hx
  have hhigh := Int.lt_zpow_succ_log_self (b := 2) (by norm_num) x
  have hpos := zpow_two_pos (lastPlace x)
  have hlog : Int.log 2 x = 52 + lastPlace x := by
    rw [lastPlace, abs_of_pos hx]
    omega
  rw [Nat.cast_two, hlog, zpow_two_add] at hlow
  rw [Nat.cast_two, hlog, show 52 + lastPlace x + 1 = 53 + lastPlace x by omega, zpow_two_add] at hhigh
  rw [le_div_iff₀ hpos, div_le_iff₀ hpos]
  push_cast
  exact ⟨hlow, hhigh.le⟩

theorem significand_bounds (hx : 0 < x) :
    2 ^ 52 ≤ rint (x / 2 ^ lastPlace x) ∧ rint (x / 2 ^ lastPlace x) ≤ 2 ^ 53 := by
  obtain ⟨hlow, hhigh⟩ := scaled_bounds hx
  have hlow' := rint_mono hlow
  have hhigh' := rint_mono hhigh
  rw [rint_intCast] at hlow' hhigh'
  exact ⟨hlow', hhigh'⟩

theorem nearest_pos (hx : 0 < x) : 0 < nearest x := by
  have hint : (0 : ℤ) < rint (x / 2 ^ lastPlace x) := lt_of_lt_of_le (by norm_num) (significand_bounds hx).1
  exact mul_pos (by exact_mod_cast hint) (zpow_two_pos _)

theorem isDouble_nearest (hx : 0 < x) : IsDouble (nearest x) := by
  obtain ⟨hlow, hhigh⟩ := significand_bounds hx
  refine ⟨_, _, ?_, rfl⟩
  rw [abs_of_nonneg (le_trans (by norm_num) hlow)]
  exact hhigh

/-- Rounding is off by half of the last place at most. -/
theorem abs_nearest_sub_le (x : ℚ) : |nearest x - x| ≤ 2 ^ lastPlace x / 2 := by
  have hpos := zpow_two_pos (lastPlace x)
  have hnear := (rint_nearest (x / 2 ^ lastPlace x)).1
  have hscaled : nearest x - x = (rint (x / 2 ^ lastPlace x) - x / 2 ^ lastPlace x) * 2 ^ lastPlace x := by
    rw [nearest, sub_mul, div_mul_cancel₀ x hpos.ne']
  rw [hscaled, abs_mul, abs_of_pos hpos]
  linarith [mul_le_mul_of_nonneg_right hnear hpos.le]

theorem lastPlace_mono (hx : 0 < x) (h : x ≤ y) : lastPlace x ≤ lastPlace y := by
  have hlog := Int.log_mono_right (b := 2) hx h
  rw [lastPlace, lastPlace, abs_of_pos hx, abs_of_pos (hx.trans_le h)]
  omega

theorem nearest_mono (hx : 0 < x) (h : x ≤ y) : nearest x ≤ nearest y := by
  have hposx := zpow_two_pos (lastPlace x)
  rcases (lastPlace_mono hx h).eq_or_lt with heq | hlt
  · have hscaled : x / 2 ^ lastPlace x ≤ y / 2 ^ lastPlace x := by gcongr
    have hint : (rint (x / 2 ^ lastPlace x) : ℚ) ≤ rint (y / 2 ^ lastPlace x) := by
      exact_mod_cast rint_mono hscaled
    rw [nearest, nearest, ← heq]
    exact mul_le_mul_of_nonneg_right hint hposx.le
  · -- The power of two between them separates the results too.
    have hhigh : (rint (x / 2 ^ lastPlace x) : ℚ) ≤ 2 ^ (53 : ℤ) := by
      exact_mod_cast (significand_bounds hx).2
    have hlow : (2 : ℚ) ^ (52 : ℤ) ≤ rint (y / 2 ^ lastPlace y) := by
      exact_mod_cast (significand_bounds (hx.trans_le h)).1
    calc nearest x ≤ 2 ^ (53 : ℤ) * 2 ^ lastPlace x := mul_le_mul_of_nonneg_right hhigh hposx.le
      _ = 2 ^ (53 + lastPlace x) := (zpow_two_add _ _).symm
      _ ≤ 2 ^ (52 + lastPlace y) := zpow_le_zpow_right₀ (by norm_num) (by omega)
      _ = 2 ^ (52 : ℤ) * 2 ^ lastPlace y := zpow_two_add _ _
      _ ≤ nearest y := mul_le_mul_of_nonneg_right hlow (zpow_two_pos _).le

/-- A whole number of last places is not rounded. -/
theorem nearest_of_scaled {n : ℤ} (h : x / 2 ^ lastPlace x = n) : nearest x = x := by
  rw [nearest, h, rint_intCast, ← h, div_mul_cancel₀ x (zpow_two_pos _).ne']

/-- The last place of a double is no finer than its last bit, but for a power of two. -/
theorem IsDouble.scaled (h : IsDouble x) (hx : 0 < x) : ∃ n : ℤ, x / 2 ^ lastPlace x = n := by
  obtain ⟨m, e, hm, rfl⟩ := h
  have hpos := zpow_two_pos e
  have hm0 : (0 : ℚ) < m := by
    by_contra hle
    exact absurd hx (not_lt.2 (mul_nonpos_of_nonpos_of_nonneg (not_lt.1 hle) hpos.le))
  have hmpos : 0 < m := by exact_mod_cast hm0
  rw [abs_of_pos hmpos] at hm
  have hlow := Int.zpow_log_le_self (b := 2) (by norm_num) hx
  have hlog : Int.log 2 ((m : ℚ) * 2 ^ e) = 52 + lastPlace ((m : ℚ) * 2 ^ e) := by
    rw [lastPlace, abs_of_pos hx]
    omega
  have hscale : (m : ℚ) * 2 ^ e / 2 ^ lastPlace ((m : ℚ) * 2 ^ e) =
      m * 2 ^ (e - lastPlace ((m : ℚ) * 2 ^ e)) := by
    rw [zpow_sub₀ (by norm_num), mul_div_assoc]
  generalize lastPlace ((m : ℚ) * 2 ^ e) = l at hlog hscale
  rw [hscale]
  rcases le_or_gt l e with hle | hgt
  · obtain ⟨k, hk⟩ := Int.eq_ofNat_of_zero_le (sub_nonneg.2 hle)
    refine ⟨m * 2 ^ k, ?_⟩
    rw [hk]
    push_cast
    rfl
  · -- Only a significand of `2 ^ 53` reaches the next place.
    rw [Nat.cast_two, hlog] at hlow
    have hnext : (2 : ℚ) ^ (53 : ℤ) * 2 ^ e ≤ m * 2 ^ e := by
      rw [← zpow_two_add]
      exact (zpow_le_zpow_right₀ (by norm_num) (by omega)).trans hlow
    have hfull : (2 : ℚ) ^ (53 : ℤ) ≤ m := le_of_mul_le_mul_right hnext hpos
    have hfull' : 2 ^ 53 ≤ m := by exact_mod_cast hfull
    obtain rfl : m = 2 ^ 53 := le_antisymm hm hfull'
    have hl : l = e + 1 := by
      have hexp : (2 : ℚ) ^ (52 + l) ≤ 2 ^ (53 + e) := by
        rw [zpow_two_add 53 e]
        exact_mod_cast hlow
      have := (zpow_le_zpow_iff_right₀ (by norm_num : (1 : ℚ) < 2)).1 hexp
      omega
    refine ⟨2 ^ 52, ?_⟩
    rw [hl, show e - (e + 1) = -1 by omega]
    norm_num

theorem IsDouble.nearest_eq (h : IsDouble x) (hx : 0 < x) : nearest x = x := by
  obtain ⟨n, hn⟩ := h.scaled hx
  exact nearest_of_scaled hn

/-- A product with a power of two is exact. -/
theorem IsDouble.mul_zpow (h : IsDouble x) (hx : 0 < x) (k : ℤ) : mul x (2 ^ k) = x * 2 ^ k := by
  obtain ⟨m, e, hm, rfl⟩ := h
  refine IsDouble.nearest_eq ⟨m, e + k, hm, ?_⟩ (mul_pos hx (zpow_two_pos k))
  rw [zpow_two_add, mul_assoc]

/-- Between a half and one the last place is `2 ^ -53`. -/
theorem lastPlace_of_half_le (hx : 1 / 2 ≤ x) (hone : x < 1) : lastPlace x = -53 := by
  have hpos : 0 < x := lt_of_lt_of_le (by norm_num) hx
  have hlow : (((2 : ℕ) : ℚ)) ^ (-1 : ℤ) ≤ x := by simpa using hx
  have hhigh : x < ((2 : ℕ) : ℚ) ^ (0 : ℤ) := by simpa using hone
  have hlog := (Int.zpow_le_iff_le_log (b := 2) (by norm_num) hpos).1 hlow
  have hlog' := (Int.lt_zpow_iff_log_lt (b := 2) (by norm_num) hpos).1 hhigh
  rw [lastPlace, abs_of_pos hpos]
  omega

/-- A double from a half on is a whole number of units `2 ^ -53`. -/
theorem IsDouble.units_of_half_le (h : IsDouble x) (hx : 1 / 2 ≤ x) : ∃ n : ℤ, x = n * 2 ^ (-53 : ℤ) := by
  obtain ⟨m, e, hm, rfl⟩ := h
  have hpos := zpow_two_pos e
  rcases le_or_gt (-53) e with he | he
  · obtain ⟨k, hk⟩ := Int.eq_ofNat_of_zero_le (show 0 ≤ e - -53 by omega)
    refine ⟨m * 2 ^ k, ?_⟩
    obtain rfl : e = k + -53 := by omega
    rw [zpow_two_add]
    push_cast
    rw [mul_assoc]
    rfl
  · -- Then it is at most a half.
    have hle : (m : ℚ) * 2 ^ e ≤ 2 ^ (53 : ℤ) * 2 ^ (-54 : ℤ) := by
      have hm' : (m : ℚ) ≤ 2 ^ (53 : ℤ) := by exact_mod_cast (le_abs_self m).trans hm
      have he' : (2 : ℚ) ^ e ≤ 2 ^ (-54 : ℤ) := zpow_le_zpow_right₀ (by norm_num) (by omega)
      exact mul_le_mul hm' he' hpos.le (zpow_two_pos _).le
    refine ⟨2 ^ 52, le_antisymm (hle.trans_eq ?_) (le_trans (le_of_eq ?_) hx)⟩ <;> norm_num

/-- A difference from one is exact, if the double is at least a half. -/
theorem IsDouble.one_sub (h : IsDouble x) (hx : 1 / 2 ≤ x) (hone : x < 1) : sub 1 x = 1 - x := by
  obtain ⟨n, hn⟩ := h.units_of_half_le hx
  refine IsDouble.nearest_eq ⟨2 ^ 53 - n, -53, ?_, ?_⟩ (by linarith)
  · have hscaled : (n : ℚ) = x * 2 ^ (53 : ℤ) := by
      rw [hn, mul_assoc, ← zpow_two_add]
      norm_num
    have hlow : (0 : ℚ) ≤ n := by
      rw [hscaled]
      exact mul_nonneg (by linarith) (zpow_two_pos _).le
    have hhigh : (n : ℚ) ≤ 2 ^ (53 : ℤ) := by
      rw [hscaled]
      exact mul_le_of_le_one_left (zpow_two_pos _).le hone.le
    have hlow' : 0 ≤ n := by exact_mod_cast hlow
    have hhigh' : n ≤ 2 ^ 53 := by exact_mod_cast hhigh
    rw [abs_of_nonneg (by omega)]
    omega
  · rw [hn]
    push_cast
    rw [sub_mul]
    norm_num

end Binary64
