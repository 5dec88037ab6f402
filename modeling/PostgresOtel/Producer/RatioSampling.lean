import Mathlib.Order.Interval.Finset.Nat
import Mathlib.Tactic.Ring
import PostgresOtel.Context.Traceparent
import PostgresOtel.Producer.Sampler

/-!
# Sampling by ratio

`otel_traceidratio_sample` compares the low 56 bits of a trace id with a threshold.  The comparison is
a threshold law at both ends of the range of ratios too, and it is done in 64-bit words none of which
overflows.  The threshold is computed in doubles: for ratios below a half that rounds `1 - ratio` to a
multiple of `2 ^ -53`, and the threshold to a multiple of 8.
-/

set_option autoImplicit false

namespace PostgresOtel

open Binary64

/-! ## The threshold -/

/-- The rejection threshold before it is rounded, without the rounding of doubles. -/
def exactCut (ratio : ℚ) : ℚ := (1 - ratio) * 2 ^ 56

section Threshold

variable {ratio p q : ℚ}

/-- Only the difference is rounded; the product with a power of two is exact. -/
theorem ratioCut_eq (hone : ratio < 1) : ratioCut ratio = sub 1 ratio * 2 ^ 56 := by
  have hpos : 0 < 1 - ratio := by linarith
  have hexact := (isDouble_nearest hpos).mul_zpow (nearest_pos hpos) 56
  exact_mod_cast hexact

theorem ratioCut_antitone (h : p ≤ q) (hone : q < 1) : ratioCut q ≤ ratioCut p := by
  rw [ratioCut_eq hone, ratioCut_eq (h.trans_lt hone)]
  exact mul_le_mul_of_nonneg_right (nearest_mono (by linarith) (by linarith)) (by positivity)

theorem rint_ratioCut_nonneg (hone : ratio < 1) : 0 ≤ rint (ratioCut ratio) := by
  have hpos : 0 < sub 1 ratio := nearest_pos (by linarith)
  have hle : ((0 : ℤ) : ℚ) ≤ ratioCut ratio := by
    rw [ratioCut_eq hone]
    push_cast
    positivity
  have hmono := rint_mono hle
  rwa [rint_intCast] at hmono

theorem rint_ratioCut_le (hzero : 0 < ratio) (hone : ratio < 1) : rint (ratioCut ratio) ≤ 2 ^ 56 := by
  have hnearest : nearest 1 = 1 := IsDouble.nearest_eq ⟨1, 0, by norm_num, by norm_num⟩ one_pos
  have hle : nearest (1 - ratio) ≤ 1 := (nearest_mono (by linarith) (by linarith)).trans_eq hnearest
  have hcut : ratioCut ratio ≤ ((2 ^ 56 : ℤ) : ℚ) := by
    rw [ratioCut_eq hone, sub]
    push_cast
    exact mul_le_of_le_one_left (by positivity) hle
  have hmono := rint_mono hcut
  rwa [rint_intCast] at hmono

/-- Below a half the difference is rounded to units of `2 ^ -53`. -/
theorem ratioCut_of_lt_half (hzero : 0 < ratio) (h : ratio < 1 / 2) :
    ratioCut ratio = ((8 * rint (exactCut ratio / 8) : ℤ) : ℚ) := by
  have hplace : lastPlace (1 - ratio) = -53 := lastPlace_of_half_le (by linarith) (by linarith)
  have hunits : (1 - ratio) / 2 ^ (-53 : ℤ) = exactCut ratio / 8 := by
    rw [exactCut, zpow_neg, div_inv_eq_mul, mul_div_assoc]
    norm_num
  rw [ratioCut_eq (by linarith), sub, nearest, hplace, hunits]
  push_cast
  rw [mul_assoc, show ((2 : ℚ) ^ (-53 : ℤ)) * 2 ^ 56 = 8 by norm_num]
  ring

/-- From a half on nothing is rounded. -/
theorem ratioCut_of_half_le (hdouble : IsDouble ratio) (h : 1 / 2 ≤ ratio) (hone : ratio < 1) :
    ratioCut ratio = exactCut ratio := by
  rw [ratioCut_eq hone, hdouble.one_sub h hone, exactCut]

/-- The two thresholds are the same from a half on, and where the exact one is a multiple of 8. -/
theorem rint_ratioCut_eq_iff (hdouble : IsDouble ratio) (hzero : 0 < ratio) (hone : ratio < 1) :
    rint (ratioCut ratio) = rint (exactCut ratio) ↔ 1 / 2 ≤ ratio ∨ 8 ∣ rint (exactCut ratio) := by
  rcases le_or_gt (1 / 2) ratio with hhalf | hhalf
  · rw [ratioCut_of_half_le hdouble hhalf hone]
    exact ⟨fun _ => .inl hhalf, fun _ => rfl⟩
  · rw [ratioCut_of_lt_half hzero hhalf, rint_intCast]
    constructor
    · exact fun h => .inr ⟨_, h.symm⟩
    · rintro (hle | ⟨n, hn⟩)
      · exact absurd hle (not_le.2 hhalf)
      · have hnear := (rint_nearest (exactCut ratio)).1
        rw [hn] at hnear ⊢
        push_cast at hnear
        rw [abs_le] at hnear
        have heighth : |exactCut ratio / 8 - n| < 1 / 2 := by
          rw [abs_lt]
          constructor <;> linarith
        rw [rint_eq_of_lt heighth]

end Threshold

theorem traceIdRandomness_lt (traceId : OtelTraceId) : traceIdRandomness traceId < 2 ^ 56 :=
  Nat.mod_lt _ (by positivity)

/-- The number of low parts that are rejected, out of `2 ^ 56`. -/
def ratioThreshold (ratio : ℚ) : ℕ :=
  if 1 ≤ ratio then 0 else if ratio ≤ 0 then 2 ^ 56 else (rint (ratioCut ratio)).toNat

/-- Between the ends the threshold is the one that the source computes. -/
theorem ratioThreshold_eq {ratio : ℚ} (hzero : 0 < ratio) (hone : ratio < 1) :
    (ratioThreshold ratio : ℤ) = rint (ratioCut ratio) := by
  have hnonneg := rint_ratioCut_nonneg hone
  rw [ratioThreshold, if_neg (not_le.2 hone), if_neg (not_le.2 hzero)]
  omega

theorem ratioThreshold_antitone {p q : ℚ} (h : p ≤ q) : ratioThreshold q ≤ ratioThreshold p := by
  rcases le_or_gt 1 q with hone | hone
  · rw [ratioThreshold, if_pos hone]
    exact Nat.zero_le _
  rcases le_or_gt p 0 with hzero | hzero
  · rw [ratioThreshold, ratioThreshold, if_neg (not_le.2 hone), if_neg (not_le.2 (h.trans_lt hone)),
      if_pos hzero]
    split_ifs with hq
    · exact Nat.le_refl _
    · have := rint_ratioCut_le (not_le.1 hq) hone
      omega
  · have hp := ratioThreshold_eq hzero (h.trans_lt hone)
    have hq := ratioThreshold_eq (hzero.trans_le h) hone
    have hle := rint_mono (ratioCut_antitone h hone)
    omega

/-- The threshold law. -/
theorem otelTraceidratioSample_iff (traceId : OtelTraceId) (ratio : ℚ) :
    otelTraceidratioSample traceId ratio = true ↔ ratioThreshold ratio ≤ traceIdRandomness traceId := by
  unfold otelTraceidratioSample ratioThreshold
  have hlt := traceIdRandomness_lt traceId
  split_ifs with hone hzero
  · simp
  · simp only [false_iff]
    omega
  · have hnonneg := rint_ratioCut_nonneg (not_le.1 hone)
    rw [decide_eq_true_iff]
    omega

/-- The low parts that are sampled. -/
def sampledLows (ratio : ℚ) : Finset ℕ :=
  (Finset.range (2 ^ 56)).filter fun low =>
    otelTraceidratioSample (BitVec.ofNat 128 low) ratio = true

theorem sampledLows_eq (ratio : ℚ) :
    sampledLows ratio = Finset.Ico (ratioThreshold ratio) (2 ^ 56) := by
  ext low
  simp only [sampledLows, Finset.mem_filter, Finset.mem_range, Finset.mem_Ico]
  rw [and_comm]
  refine and_congr_left fun hlow => ?_
  have hrandom : traceIdRandomness (BitVec.ofNat 128 low) = low := by
    unfold traceIdRandomness
    rw [BitVec.toNat_ofNat]
    omega
  rw [otelTraceidratioSample_iff, hrandom]

/-! ## In words of 64 bits -/

/-- `r = (r << 8) | trace_id->b[i]` over some bytes. -/
def randomnessWord (bytes : List UInt8) : BitVec 64 :=
  bytes.foldl (fun r b => (r <<< 8) ||| b.toBitVec.setWidth 64) 0

/-- The bytes `trace_id->b`. -/
def traceIdBytes (traceId : OtelTraceId) : List UInt8 := toBytes otelTraceIdBytes traceId.toNat

/-- `(uint64) rint(...)`. -/
def thresholdWord (ratio : ℚ) : BitVec 64 := BitVec.ofInt 64 (rint (ratioCut ratio))

/-- `otel_traceidratio_sample` as it computes. -/
def otelTraceidratioSampleWords (traceId : OtelTraceId) (ratio : ℚ) : Bool :=
  if 1 ≤ ratio then true
  else if ratio ≤ 0 then false
  else decide (thresholdWord ratio ≤
    randomnessWord ((traceIdBytes traceId).drop (otelTraceIdBytes - 7)))

theorem toNat_randomnessWord {bytes : List UInt8} (h : bytes.length ≤ 8) :
    (randomnessWord bytes).toNat = ofBytes bytes := by
  induction bytes using List.reverseRecOn with
  | nil => rfl
  | append_singleton bytes b ih =>
    rw [List.length_append, List.length_singleton] at h
    have hshift : ofBytes bytes * 256 < 2 ^ 64 := by
      have hlt := ofBytes_lt bytes
      have hpow : 256 ^ bytes.length ≤ 256 ^ 7 := Nat.pow_le_pow_right (by decide) (by omega)
      omega
    have hword : randomnessWord (bytes ++ [b]) =
        (randomnessWord bytes <<< 8) ||| b.toBitVec.setWidth 64 := by
      simp [randomnessWord, List.foldl_append]
    have hbyte : (b.toBitVec.setWidth 64).toNat = b.toNat := by
      have hb := b.toNat_lt
      rw [BitVec.toNat_setWidth, UInt8.toNat_toBitVec]
      omega
    have hor : ofBytes bytes <<< 8 ||| b.toNat = ofBytes bytes <<< 8 + b.toNat :=
      (Nat.shiftLeft_add_eq_or_of_lt b.toNat_lt _).symm
    rw [hword, BitVec.toNat_or, BitVec.toNat_shiftLeft, ih (by omega), hbyte, ofBytes_concat,
      Nat.mod_eq_of_lt (by rw [Nat.shiftLeft_eq]; omega), hor, Nat.shiftLeft_eq]

theorem drop_toBytes (k m x : ℕ) : (toBytes (k + m) x).drop k = toBytes m x := by
  induction m generalizing x with
  | zero => simp [toBytes]
  | succ m ih =>
    rw [show k + (m + 1) = k + m + 1 by omega, toBytes, toBytes,
      List.drop_append_of_le_length (by simp), ih]

theorem ofBytes_toBytes_mod (n x : ℕ) : ofBytes (toBytes n x) = x % 256 ^ n := by
  induction n generalizing x with
  | zero => simp [toBytes, ofBytes, Nat.mod_one]
  | succ n ih =>
    have hmod : x % 256 ^ (n + 1) = x % 256 + 256 * (x / 256 % 256 ^ n) := by
      rw [Nat.pow_succ', Nat.mod_mul]
    rw [toBytes, ofBytes_concat, ih, UInt8.toNat_ofNat', hmod]
    omega

/-- The last seven bytes are the low 56 bits. -/
theorem toNat_randomnessWord_traceId (traceId : OtelTraceId) :
    (randomnessWord ((traceIdBytes traceId).drop (otelTraceIdBytes - 7))).toNat =
      traceIdRandomness traceId := by
  have hlast : (traceIdBytes traceId).drop (otelTraceIdBytes - 7) = toBytes 7 traceId.toNat :=
    drop_toBytes 9 7 traceId.toNat
  rw [hlast, toNat_randomnessWord (by rw [length_toBytes]; omega), ofBytes_toBytes_mod]
  rfl

/-- Between the ends the threshold fits into a word. -/
theorem toNat_thresholdWord {ratio : ℚ} (hzero : 0 < ratio) (hone : ratio < 1) :
    (thresholdWord ratio).toNat = ratioThreshold ratio := by
  have hthreshold := ratioThreshold_eq hzero hone
  have hnonneg := rint_ratioCut_nonneg hone
  have hle := rint_ratioCut_le hzero hone
  unfold thresholdWord
  rw [← Int.natCast_inj, BitVec.toNat_ofInt, hthreshold]
  omega

theorem otelTraceidratioSampleWords_eq (traceId : OtelTraceId) (ratio : ℚ) :
    otelTraceidratioSampleWords traceId ratio = otelTraceidratioSample traceId ratio := by
  unfold otelTraceidratioSampleWords otelTraceidratioSample
  split_ifs with hone hzero
  · rfl
  · rfl
  · have hword := toNat_thresholdWord (not_le.1 hzero) (not_le.1 hone)
    have hthreshold := ratioThreshold_eq (not_le.1 hzero) (not_le.1 hone)
    refine decide_eq_decide.2 ?_
    rw [BitVec.le_def, toNat_randomnessWord_traceId]
    omega

/-- What the loop has computed after each byte, and what the shift makes of it, fits into a word. -/
theorem randomness_fits (traceId : OtelTraceId) {n : ℕ} (h : n < 7) :
    ofBytes (((traceIdBytes traceId).drop (otelTraceIdBytes - 7)).take n) * 2 ^ 8 < 2 ^ 64 := by
  have hlt := ofBytes_lt (((traceIdBytes traceId).drop (otelTraceIdBytes - 7)).take n)
  have hlength : (((traceIdBytes traceId).drop (otelTraceIdBytes - 7)).take n).length ≤ 6 :=
    (List.length_take_le n _).trans (by omega)
  have hpow := Nat.pow_le_pow_right (n := 256) (by decide) hlength
  omega

/-- The two readings of the last seven bytes agree. -/
theorem ofBytes_traceIdBytes (traceId : OtelTraceId) :
    ofBytes ((traceIdBytes traceId).drop (otelTraceIdBytes - 7)) = traceIdRandomness traceId := by
  have hlength : ((traceIdBytes traceId).drop (otelTraceIdBytes - 7)).length ≤ 8 := by
    simp [traceIdBytes, otelTraceIdBytes]
  rw [← toNat_randomnessWord hlength, toNat_randomnessWord_traceId]

/-! ## The law -/

theorem card_sampledLows (ratio : ℚ) : (sampledLows ratio).card = 2 ^ 56 - ratioThreshold ratio := by
  rw [sampledLows_eq, Nat.card_Ico]

theorem otelTraceidratioSample_mono {p q : ℚ} (h : p ≤ q) (traceId : OtelTraceId)
    (hp : otelTraceidratioSample traceId p = true) : otelTraceidratioSample traceId q = true := by
  rw [otelTraceidratioSample_iff] at hp ⊢
  exact (ratioThreshold_antitone h).trans hp

theorem otelTraceidratioSample_of_nonpos {ratio : ℚ} (h : ratio ≤ 0) (traceId : OtelTraceId) :
    otelTraceidratioSample traceId ratio = false := by
  have hone : ¬1 ≤ ratio := by linarith
  simp [otelTraceidratioSample, hone, h]

theorem otelTraceidratioSample_of_one_le {ratio : ℚ} (h : 1 ≤ ratio) (traceId : OtelTraceId) :
    otelTraceidratioSample traceId ratio = true := by
  simp [otelTraceidratioSample, h]

/-- Two thresholds below `2 ^ 56` that reject the same low parts are the same. -/
theorem rint_ratioCut_eq_of_iff {ratio : ℚ} (hzero : 0 < ratio) (hone : ratio < 1)
    (h : ∀ traceId, otelTraceidratioSample traceId ratio = true ↔
      rint (exactCut ratio) ≤ traceIdRandomness traceId) : rint (ratioCut ratio) = rint (exactCut ratio) := by
  have hthreshold := ratioThreshold_eq hzero hone
  have hle := rint_ratioCut_le hzero hone
  have hexact : 0 ≤ rint (exactCut ratio) ∧ rint (exactCut ratio) ≤ 2 ^ 56 := by
    have hlow : ((0 : ℤ) : ℚ) ≤ exactCut ratio := by
      unfold exactCut
      push_cast
      have : 0 < 1 - ratio := by linarith
      positivity
    have hhigh : exactCut ratio ≤ ((2 ^ 56 : ℤ) : ℚ) := by
      unfold exactCut
      push_cast
      exact mul_le_of_le_one_left (by positivity) (by linarith)
    have hlow' := rint_mono hlow
    have hhigh' := rint_mono hhigh
    rw [rint_intCast] at hlow' hhigh'
    exact ⟨hlow', hhigh'⟩
  -- Each of the two is a low part itself, unless it is `2 ^ 56`.
  have hlow (low : ℕ) (hlt : low < 2 ^ 56) : rint (ratioCut ratio) ≤ low ↔ rint (exactCut ratio) ≤ low := by
    have hrandom : traceIdRandomness (BitVec.ofNat 128 low) = low := by
      unfold traceIdRandomness
      rw [BitVec.toNat_ofNat]
      omega
    have hat := h (BitVec.ofNat 128 low)
    rw [otelTraceidratioSample_iff, hrandom] at hat
    rw [← hat, ← hthreshold]
    omega
  have hcut := hlow (rint (ratioCut ratio)).toNat
  have hexactCut := hlow (rint (exactCut ratio)).toNat
  omega

/-- Sampling by ratio is a threshold law over the low 56 bits, decided in words that hold every
intermediate number.  The threshold is the one of the doubles, in which `1 - ratio` is rounded. -/
theorem ratio_sampling (ratio : ℚ) :
    (∀ traceId, otelTraceidratioSampleWords traceId ratio = true ↔
      ratioThreshold ratio ≤ ofBytes ((traceIdBytes traceId).drop (otelTraceIdBytes - 7))) ∧
    (0 < ratio → ratio < 1 → (ratioThreshold ratio : ℤ) = rint (nearest (1 - ratio) * 2 ^ 56) ∧
      |nearest (1 - ratio) - (1 - ratio)| ≤ 2 ^ lastPlace (1 - ratio) / 2) ∧
    (∀ t u : OtelTraceId, t.toNat % 2 ^ 56 = u.toNat % 2 ^ 56 →
      otelTraceidratioSampleWords t ratio = otelTraceidratioSampleWords u ratio) ∧
    (∀ q traceId, ratio ≤ q → otelTraceidratioSampleWords traceId ratio = true →
      otelTraceidratioSampleWords traceId q = true) ∧
    (ratio ≤ 0 → ∀ traceId, otelTraceidratioSampleWords traceId ratio = false) ∧
    (1 ≤ ratio → ∀ traceId, otelTraceidratioSampleWords traceId ratio = true) ∧
    (sampledLows ratio).card = 2 ^ 56 - ratioThreshold ratio ∧
    (∀ traceId n, n < 7 →
      ofBytes (((traceIdBytes traceId).drop (otelTraceIdBytes - 7)).take n) * 2 ^ 8 < 2 ^ 64) ∧
    (0 < ratio → ratio < 1 → (thresholdWord ratio).toNat = ratioThreshold ratio) ∧
    (IsDouble ratio → 0 < ratio → ratio < 1 →
      ((∀ traceId, otelTraceidratioSampleWords traceId ratio = true ↔
        rint (exactCut ratio) ≤ ofBytes ((traceIdBytes traceId).drop (otelTraceIdBytes - 7))) ↔
      1 / 2 ≤ ratio ∨ 8 ∣ rint (exactCut ratio))) := by
  simp only [otelTraceidratioSampleWords_eq, ofBytes_traceIdBytes]
  refine ⟨fun traceId => otelTraceidratioSample_iff traceId ratio, fun hzero hone => ?_,
    fun t u h => ?_, fun q traceId h => otelTraceidratioSample_mono h traceId,
    otelTraceidratioSample_of_nonpos, otelTraceidratioSample_of_one_le, card_sampledLows ratio,
    fun traceId n => randomness_fits traceId, toNat_thresholdWord, fun hdouble hzero hone => ?_⟩
  · refine ⟨(ratioThreshold_eq hzero hone).trans ?_, abs_nearest_sub_le _⟩
    rw [ratioCut_eq hone, sub]
  · have hlow : traceIdRandomness t = traceIdRandomness u := h
    rw [Bool.eq_iff_iff, otelTraceidratioSample_iff, otelTraceidratioSample_iff, hlow]
  · rw [← rint_ratioCut_eq_iff hdouble hzero hone]
    refine ⟨rint_ratioCut_eq_of_iff hzero hone, fun heq traceId => ?_⟩
    rw [otelTraceidratioSample_iff, ← heq, ← ratioThreshold_eq hzero hone]
    omega

/-- The double nearest to a tenth. -/
def tenth : ℚ := 3602879701896397 / 2 ^ 55

/-- A trace whose low part is the exact threshold of a tenth is dropped. -/
theorem tenth_drops_at_threshold :
    IsDouble tenth ∧ rint (exactCut tenth) = 64851834634135142 ∧
      ratioThreshold tenth = 64851834634135144 ∧
      rint (exactCut tenth) ≤ ofBytes ((traceIdBytes 64851834634135142).drop (otelTraceIdBytes - 7)) ∧
      otelTraceidratioSampleWords 64851834634135142 tenth = false := by
  have hexact : exactCut tenth = ((64851834634135142 : ℤ) : ℚ) := by norm_num [exactCut, tenth]
  have hzero : 0 < tenth := by norm_num [tenth]
  have hone : tenth < 1 := by norm_num [tenth]
  have hthreshold : ratioThreshold tenth = 64851834634135144 := by
    have hcut := ratioCut_of_lt_half hzero (by norm_num [tenth])
    have hunits : rint (exactCut tenth / 8) = 8106479329266893 := by
      refine rint_eq_of_lt ?_
      rw [hexact, abs_lt]
      constructor <;> norm_num
    have heq := ratioThreshold_eq hzero hone
    rw [hcut, rint_intCast, hunits] at heq
    omega
  have hlow : traceIdRandomness 64851834634135142 = 64851834634135142 := by decide
  refine ⟨⟨3602879701896397, -55, by norm_num, by norm_num [tenth]⟩, ?_, hthreshold, ?_, ?_⟩
  · rw [hexact, rint_intCast]
  · rw [hexact, rint_intCast, ofBytes_traceIdBytes, hlow]
    norm_num
  · rw [otelTraceidratioSampleWords_eq, Bool.eq_false_iff, ne_eq, otelTraceidratioSample_iff, hthreshold,
      hlow]
    decide

end PostgresOtel
