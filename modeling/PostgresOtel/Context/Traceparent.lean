import Mathlib.Data.List.Induction
import Mathlib.Tactic.Common
import PostgresOtel.Producer.Types

/-!
# The text codec of `traceparent`

The hex helpers and the W3C traceparent codec of `otel_types.h`.  A byte array is the list of its
bytes; reading past the end of a C string meets its NUL, which is no hex digit.
-/

set_option autoImplicit false

namespace PostgresOtel

/-! ## Hex digits -/

def otelTraceIdBytes : ℕ := 16

def otelSpanIdBytes : ℕ := 8

/-- `OTEL_TRACEPARENT_LEN`, without the trailing NUL. -/
def otelTraceparentLen : ℕ := 55

/-- `hexdigits[v]`. -/
def hexChar (v : UInt8) : UInt8 := if v < 10 then v + 0x30 else v - 10 + 0x61

/-- The value of a lower-case hex digit. -/
def hexValue (c : UInt8) : Option UInt8 :=
  if 0x30 ≤ c ∧ c ≤ 0x39 then some (c - 0x30)
  else if 0x61 ≤ c ∧ c ≤ 0x66 then some (c - 0x61 + 10)
  else none

/-- `otel_bytes_to_hex`: two lower-case digits a byte. -/
def otelBytesToHex (bytes : List UInt8) : CString :=
  bytes.flatMap fun b : UInt8 => [hexChar (b >>> 4), hexChar (b &&& 0x0f)]

/-- `otel_hex_to_bytes`: exactly `2 * n` lower-case digits. -/
def otelHexToBytes : ℕ → CString → Option (List UInt8)
  | 0, _ => some []
  | n + 1, hi :: lo :: rest => do
    let h ← hexValue hi
    let l ← hexValue lo
    let bytes ← otelHexToBytes n rest
    return ((h <<< 4) ||| l) :: bytes
  | _ + 1, _ => none

theorem hexValue_hexChar_hi (b : UInt8) : hexValue (hexChar (b >>> 4)) = some (b >>> 4) := by
  have h : ∀ v : BitVec 8, hexValue (hexChar (UInt8.ofBitVec v >>> 4)) =
      some (UInt8.ofBitVec v >>> 4) := by decide +kernel
  exact h b.toBitVec

theorem hexValue_hexChar_lo (b : UInt8) :
    hexValue (hexChar (b &&& 0x0f)) = some (b &&& 0x0f) := by
  have h : ∀ v : BitVec 8, hexValue (hexChar (UInt8.ofBitVec v &&& 0x0f)) =
      some (UInt8.ofBitVec v &&& 0x0f) := by decide +kernel
  exact h b.toBitVec

theorem nibbles (b : UInt8) : (b >>> 4) <<< 4 ||| (b &&& 0x0f) = b := by
  have h : ∀ v : BitVec 8, (UInt8.ofBitVec v >>> 4) <<< 4 ||| (UInt8.ofBitVec v &&& 0x0f) =
      UInt8.ofBitVec v := by decide +kernel
  exact h b.toBitVec

@[simp] theorem length_otelBytesToHex (bytes : List UInt8) :
    (otelBytesToHex bytes).length = 2 * bytes.length := by
  induction bytes with
  | nil => rfl
  | cons b bytes ih =>
    have h : otelBytesToHex (b :: bytes) =
        hexChar (b >>> 4) :: hexChar (b &&& 0x0f) :: otelBytesToHex bytes := rfl
    rw [h, List.length_cons, List.length_cons, ih, List.length_cons]
    omega

/-- Whatever follows the digits, the bytes that were printed are read back. -/
theorem otelHexToBytes_otelBytesToHex (bytes : List UInt8) (rest : CString) :
    otelHexToBytes bytes.length (otelBytesToHex bytes ++ rest) = some bytes := by
  induction bytes with
  | nil => rfl
  | cons b bytes ih =>
    have h : otelBytesToHex (b :: bytes) ++ rest =
        hexChar (b >>> 4) :: hexChar (b &&& 0x0f) :: (otelBytesToHex bytes ++ rest) := rfl
    rw [h]
    simp only [List.length_cons, otelHexToBytes, hexValue_hexChar_hi, hexValue_hexChar_lo, ih,
      Option.bind_eq_bind, Option.bind_some, Option.pure_def, nibbles]

/-- Bytes can be told from the digits they are printed as. -/
theorem otelBytesToHex_inj {bytes bytes' : List UInt8} (hlen : bytes.length = bytes'.length)
    (h : otelBytesToHex bytes = otelBytesToHex bytes') : bytes = bytes' := by
  have hread := otelHexToBytes_otelBytesToHex bytes []
  rw [h, hlen, otelHexToBytes_otelBytesToHex] at hread
  exact (Option.some.inj hread).symm

/-! ## Identifiers as bytes -/

/-- The number some bytes spell, most significant first. -/
def ofBytes (bytes : List UInt8) : ℕ := bytes.foldl (fun acc b => acc * 256 + b.toNat) 0

/-- The `n` low bytes of a number, most significant first. -/
def toBytes : ℕ → ℕ → List UInt8
  | 0, _ => []
  | n + 1, x => toBytes n (x / 256) ++ [UInt8.ofNat x]

@[simp] theorem length_toBytes (n x : ℕ) : (toBytes n x).length = n := by
  induction n generalizing x with
  | zero => rfl
  | succ n ih => simp only [toBytes, List.length_append, ih, List.length_singleton]

theorem ofBytes_toBytes {n x : ℕ} (h : x < 256 ^ n) : ofBytes (toBytes n x) = x := by
  induction n generalizing x with
  | zero =>
    have hx : x = 0 := by omega
    rw [hx]
    rfl
  | succ n ih =>
    have hdiv : x / 256 < 256 ^ n := by
      rw [Nat.pow_succ] at h
      omega
    have hstep : ofBytes (toBytes (n + 1) x) =
        ofBytes (toBytes n (x / 256)) * 256 + (UInt8.ofNat x).toNat := by
      simp only [toBytes, ofBytes, List.foldl_append, List.foldl_cons, List.foldl_nil]
    have hbyte : (UInt8.ofNat x).toNat = x % 256 := UInt8.toNat_ofNat'
    rw [hstep, ih hdiv, hbyte]
    omega

theorem ofBytes_concat (bytes : List UInt8) (b : UInt8) :
    ofBytes (bytes ++ [b]) = ofBytes bytes * 256 + b.toNat := by
  simp [ofBytes, List.foldl_append]

theorem ofBytes_lt (bytes : List UInt8) : ofBytes bytes < 256 ^ bytes.length := by
  induction bytes using List.reverseRecOn with
  | nil => simp [ofBytes]
  | append_singleton bytes b ih =>
    have hb : b.toNat < 256 := b.toNat_lt
    rw [ofBytes_concat, List.length_append, List.length_singleton, Nat.pow_succ]
    omega

theorem toBytes_ofBytes (bytes : List UInt8) : toBytes bytes.length (ofBytes bytes) = bytes := by
  induction bytes using List.reverseRecOn with
  | nil => rfl
  | append_singleton bytes b ih =>
    have hb : b.toNat < 256 := b.toNat_lt
    have hdiv : (ofBytes bytes * 256 + b.toNat) / 256 = ofBytes bytes := by omega
    have hbyte : UInt8.ofNat (ofBytes bytes * 256 + b.toNat) = b := by
      apply UInt8.toNat_inj.1
      rw [UInt8.toNat_ofNat']
      omega
    rw [ofBytes_concat, List.length_append, List.length_singleton, toBytes, hdiv, ih, hbyte]

theorem ofBytes_eq_zero_iff (bytes : List UInt8) : ofBytes bytes = 0 ↔ ∀ b ∈ bytes, b = 0 := by
  induction bytes using List.reverseRecOn with
  | nil => simp [ofBytes]
  | append_singleton bytes b ih =>
    have hb : b.toNat = 0 ↔ b = 0 := by rw [← UInt8.toNat_inj, UInt8.toNat_zero]
    have hzero : ofBytes bytes * 256 + b.toNat = 0 ↔ (∀ b ∈ bytes, b = 0) ∧ b = 0 := by
      rw [← ih, ← hb]
      omega
    simpa [ofBytes_concat, or_imp, forall_and] using hzero

theorem ofNat_eq_zero_iff {w x : ℕ} (h : x < 2 ^ w) : BitVec.ofNat w x = 0 ↔ x = 0 := by
  rw [← BitVec.toNat_inj, BitVec.toNat_ofNat, Nat.mod_eq_of_lt h]
  simp

/-! ## The header value -/

/-- `otel_traceparent_format`: version 00. -/
def otelTraceparentFormat (ctx : OtelSpanContext) : CString :=
  [0x30, 0x30, 0x2d] ++ otelBytesToHex (toBytes otelTraceIdBytes ctx.traceId.toNat) ++ [0x2d] ++
    otelBytesToHex (toBytes otelSpanIdBytes ctx.spanId.toNat) ++ [0x2d] ++
    otelBytesToHex (toBytes 1 ctx.traceFlags.toNat)

/-- `otel_traceparent_parse`: `none` on any malformed input. -/
def otelTraceparentParse (s : CString) : Option OtelSpanContext := do
  guard (otelTraceparentLen ≤ s.length)
  guard (s[2]? = some 0x2d ∧ s[35]? = some 0x2d ∧ s[52]? = some 0x2d)
  let version ← otelHexToBytes 1 s
  guard (version ≠ [0xff])
  guard (if version = [0x00] then s.length = otelTraceparentLen
    else otelTraceparentLen < s.length → s[otelTraceparentLen]? = some 0x2d)
  let traceId ← otelHexToBytes otelTraceIdBytes (s.drop 3)
  let spanId ← otelHexToBytes otelSpanIdBytes (s.drop 36)
  let traceFlags ← otelHexToBytes 1 (s.drop 53)
  let out : OtelSpanContext :=
    { traceId := BitVec.ofNat 128 (ofBytes traceId), spanId := BitVec.ofNat 64 (ofBytes spanId)
      traceFlags := BitVec.ofNat 8 (ofBytes traceFlags), tracestate := none }
  guard (otelSpanContextIsValid out)
  return out

/-- What is accepted is a valid context. -/
theorem otelTraceparentParse_valid {s : CString} {ctx : OtelSpanContext}
    (h : otelTraceparentParse s = some ctx) : otelSpanContextIsValid ctx = true := by
  unfold otelTraceparentParse guard at h
  simp only [Option.bind_eq_bind, Option.bind_eq_some_iff, Option.pure_def,
    Option.some.injEq] at h
  obtain ⟨-, -, -, -, version, -, -, -, -, -, traceId, -, spanId, -, flags, -, u, hvalid, rfl⟩ := h
  split_ifs at hvalid with hv
  exact hv

/-! ## Texts that parse -/

theorem hexValue_spec {c v : UInt8} (h : hexValue c = some v) : v < 16 ∧ hexChar v = c := by
  have all : ∀ c : BitVec 8, ∀ v ∈ hexValue (UInt8.ofBitVec c),
      v < 16 ∧ hexChar v = UInt8.ofBitVec c := by decide +kernel
  exact all c.toBitVec v h

theorem nibbles_of_lt {h l : UInt8} (hh : h < 16) (hl : l < 16) :
    ((h <<< 4) ||| l) >>> 4 = h ∧ ((h <<< 4) ||| l) &&& 0x0f = l := by
  have all : ∀ a b : Fin 16,
      ((UInt8.ofNat a <<< 4) ||| UInt8.ofNat b) >>> 4 = UInt8.ofNat a ∧
        ((UInt8.ofNat a <<< 4) ||| UInt8.ofNat b) &&& 0x0f = UInt8.ofNat b := by decide +kernel
  simpa using all ⟨h.toNat, hh⟩ ⟨l.toNat, hl⟩

/-- What is read back as bytes is what the bytes are printed as. -/
theorem otelHexToBytes_spec {n : ℕ} {s : CString} {bytes : List UInt8}
    (h : otelHexToBytes n s = some bytes) :
    bytes.length = n ∧ s = otelBytesToHex bytes ++ s.drop (2 * n) := by
  induction n generalizing s bytes with
  | zero =>
    obtain rfl : [] = bytes := by simpa [otelHexToBytes] using h
    exact ⟨rfl, rfl⟩
  | succ n ih =>
    match s, h with
    | hi :: lo :: rest, h =>
      simp only [otelHexToBytes, Option.bind_eq_bind, Option.bind_eq_some_iff, Option.pure_def,
        Option.some.injEq] at h
      obtain ⟨a, ha, b, hb, tail, htail, rfl⟩ := h
      obtain ⟨ha₁, ha₂⟩ := hexValue_spec ha
      obtain ⟨hb₁, hb₂⟩ := hexValue_spec hb
      obtain ⟨hlen, hrest⟩ := ih htail
      obtain ⟨hhi, hlo⟩ := nibbles_of_lt ha₁ hb₁
      refine ⟨by simp [hlen], ?_⟩
      have hcons : otelBytesToHex (((a <<< 4) ||| b) :: tail) =
          hexChar (((a <<< 4) ||| b) >>> 4) :: hexChar (((a <<< 4) ||| b) &&& 0x0f) ::
            otelBytesToHex tail := rfl
      rw [hcons, hhi, hlo, ha₂, hb₂, show 2 * (n + 1) = 2 * n + 1 + 1 by omega]
      simpa using hrest

/-- The header value with the given bytes as its fields, and a tail after them. -/
def traceparentText (version traceId spanId flags : List UInt8) (tail : CString) : CString :=
  otelBytesToHex version ++ 0x2d :: (otelBytesToHex traceId ++
    0x2d :: (otelBytesToHex spanId ++ 0x2d :: (otelBytesToHex flags ++ tail)))

def contextOfBytes (traceId spanId flags : List UInt8) : OtelSpanContext where
  traceId := BitVec.ofNat 128 (ofBytes traceId)
  spanId := BitVec.ofNat 64 (ofBytes spanId)
  traceFlags := BitVec.ofNat 8 (ofBytes flags)

/-- The fields have the lengths the header value gives them. -/
structure FieldLengths (version traceId spanId flags : List UInt8) : Prop where
  version : version.length = 1
  traceId : traceId.length = otelTraceIdBytes
  spanId : spanId.length = otelSpanIdBytes
  flags : flags.length = 1

/-- What may follow the fields: nothing, or for later versions a dash and anything. -/
def TailOk (version : List UInt8) (tail : CString) : Prop :=
  tail = [] ∨ (version ≠ [0x00] ∧ tail.head? = some 0x2d)

instance (version : List UInt8) (tail : CString) : Decidable (TailOk version tail) :=
  inferInstanceAs (Decidable (_ ∨ _))

section Fields

variable {version traceId spanId flags : List UInt8} {tail : CString}

theorem length_traceparentText (h : FieldLengths version traceId spanId flags) :
    (traceparentText version traceId spanId flags tail).length = otelTraceparentLen + tail.length := by
  simp only [traceparentText, List.length_append, List.length_cons, length_otelBytesToHex, h.version,
    h.traceId, h.spanId, h.flags, otelTraceIdBytes, otelSpanIdBytes, otelTraceparentLen]
  omega

/-- The header value from each of its fields on. -/
theorem drop_traceparentText (h : FieldLengths version traceId spanId flags) :
    (traceparentText version traceId spanId flags tail).drop 2 = 0x2d :: (otelBytesToHex traceId ++
      0x2d :: (otelBytesToHex spanId ++ 0x2d :: (otelBytesToHex flags ++ tail))) ∧
    (traceparentText version traceId spanId flags tail).drop 35 =
      0x2d :: (otelBytesToHex spanId ++ 0x2d :: (otelBytesToHex flags ++ tail)) ∧
    (traceparentText version traceId spanId flags tail).drop 52 =
      0x2d :: (otelBytesToHex flags ++ tail) ∧
    (traceparentText version traceId spanId flags tail).drop otelTraceparentLen = tail := by
  simp [traceparentText, List.drop_append, h.version, h.traceId, h.spanId, h.flags, otelTraceIdBytes,
    otelSpanIdBytes, otelTraceparentLen, List.drop_eq_nil_of_le]

/-- A text is its fields, if they stand between dashes. -/
theorem eq_traceparentText {s : CString} (hv : s = otelBytesToHex version ++ s.drop 2)
    (ht : s.drop 3 = otelBytesToHex traceId ++ s.drop 35)
    (hs : s.drop 36 = otelBytesToHex spanId ++ s.drop 52)
    (hf : s.drop 53 = otelBytesToHex flags ++ s.drop 55) (h₂ : s[2]? = some 0x2d)
    (h₃₅ : s[35]? = some 0x2d) (h₅₂ : s[52]? = some 0x2d) :
    s = traceparentText version traceId spanId flags (s.drop otelTraceparentLen) := by
  have dash {i : ℕ} (hi : s[i]? = some 0x2d) : s.drop i = 0x2d :: s.drop (i + 1) := by
    obtain ⟨hlt, hget⟩ := List.getElem?_eq_some_iff.1 hi
    rw [List.drop_eq_getElem_cons hlt, hget]
  unfold traceparentText otelTraceparentLen
  rw [← hf, ← dash h₅₂, ← hs, ← dash h₃₅, ← ht, ← dash h₂, ← hv]

/-- The parser on a text with fields of the right lengths. -/
theorem otelTraceparentParse_text (h : FieldLengths version traceId spanId flags) :
    otelTraceparentParse (traceparentText version traceId spanId flags tail) =
      if version ≠ [0xff] ∧ TailOk version tail ∧
        otelSpanContextIsValid (contextOfBytes traceId spanId flags) = true then
        some (contextOfBytes traceId spanId flags) else none := by
  obtain ⟨s, hs⟩ : ∃ s, s = traceparentText version traceId spanId flags tail := ⟨_, rfl⟩
  have hlen : s.length = otelTraceparentLen + tail.length := hs ▸ length_traceparentText h
  have hdrop := @drop_traceparentText version traceId spanId flags tail h
  obtain ⟨h₂, h₃₅, h₅₂, h₅₅⟩ := hs ▸ hdrop
  have dash {i : ℕ} {rest : CString} (hi : s.drop i = 0x2d :: rest) :
      s[i]? = some 0x2d ∧ s.drop (i + 1) = rest := by
    rw [← List.head?_drop, ← List.tail_drop, hi]
    exact ⟨rfl, rfl⟩
  have hversion : otelHexToBytes 1 s = some version := by
    rw [hs, ← h.version]
    exact otelHexToBytes_otelBytesToHex version _
  have htrace : otelHexToBytes otelTraceIdBytes (s.drop 3) = some traceId := by
    rw [(dash h₂).2, ← h.traceId]
    exact otelHexToBytes_otelBytesToHex traceId _
  have hspan : otelHexToBytes otelSpanIdBytes (s.drop 36) = some spanId := by
    rw [(dash h₃₅).2, ← h.spanId]
    exact otelHexToBytes_otelBytesToHex spanId _
  have hflags : otelHexToBytes 1 (s.drop 53) = some flags := by
    rw [(dash h₅₂).2, ← h.flags]
    exact otelHexToBytes_otelBytesToHex flags _
  have htail : (if version = [0x00] then s.length = otelTraceparentLen
      else otelTraceparentLen < s.length → s[otelTraceparentLen]? = some 0x2d) ↔
      TailOk version tail := by
    rw [hlen, ← List.head?_drop, h₅₅]
    cases tail <;> split_ifs <;> simp_all [TailOk]
  rw [← hs]
  have hle : otelTraceparentLen ≤ s.length := by omega
  unfold otelTraceparentParse guard
  simp only [hle, (dash h₂).1, (dash h₃₅).1, (dash h₅₂).1, and_self, if_true, hversion, htail, htrace,
    hspan, hflags, Option.bind_eq_bind, Option.bind_some, Option.pure_def]
  unfold contextOfBytes
  split_ifs <;> simp_all

end Fields

/-- A text that parses is made of fields of the right lengths. -/
theorem otelTraceparentParse_spec {s : CString} {ctx : OtelSpanContext}
    (h : otelTraceparentParse s = some ctx) :
    ∃ version traceId spanId flags tail, FieldLengths version traceId spanId flags ∧
      s = traceparentText version traceId spanId flags tail ∧ version ≠ [0xff] ∧
      TailOk version tail ∧ ctx = contextOfBytes traceId spanId flags ∧
      otelSpanContextIsValid ctx = true := by
  have hparse := h
  unfold otelTraceparentParse guard at h
  simp only [Option.bind_eq_bind, Option.bind_eq_some_iff] at h
  obtain ⟨_, -, _, hdash, version, hversion, _, -, _, -, traceId, htrace, spanId, hspan, flags,
    hflags, -⟩ := h
  split_ifs at hdash with hdashes
  obtain ⟨hversionLength, hversionText⟩ := otelHexToBytes_spec hversion
  obtain ⟨htraceLength, htraceText⟩ := otelHexToBytes_spec htrace
  obtain ⟨hspanLength, hspanText⟩ := otelHexToBytes_spec hspan
  obtain ⟨hflagsLength, hflagsText⟩ := otelHexToBytes_spec hflags
  rw [List.drop_drop] at htraceText hspanText hflagsText
  have hs := eq_traceparentText hversionText htraceText hspanText hflagsText hdashes.1 hdashes.2.1
    hdashes.2.2
  have hlengths : FieldLengths version traceId spanId flags :=
    ⟨hversionLength, htraceLength, hspanLength, hflagsLength⟩
  rw [hs, otelTraceparentParse_text hlengths] at hparse
  split_ifs at hparse with hok
  obtain rfl := Option.some.inj hparse
  exact ⟨version, traceId, spanId, flags, _, hlengths, hs, hok.1, hok.2.1, rfl, hok.2.2⟩

/-! ## Printing and parsing -/

theorem ofNat_ofBytes_toBytes {w n : ℕ} (x : BitVec w) (h : 2 ^ w = 256 ^ n) :
    BitVec.ofNat w (ofBytes (toBytes n x.toNat)) = x := by
  rw [ofBytes_toBytes (h ▸ x.isLt), BitVec.ofNat_toNat, BitVec.setWidth_eq]

theorem toBytes_toNat_ofNat {w n : ℕ} {bytes : List UInt8} (hlen : bytes.length = n)
    (h : 2 ^ w = 256 ^ n) : toBytes n (BitVec.ofNat w (ofBytes bytes)).toNat = bytes := by
  have hlt := ofBytes_lt bytes
  rw [hlen, ← h] at hlt
  rw [BitVec.toNat_ofNat, Nat.mod_eq_of_lt hlt, ← hlen, toBytes_ofBytes]

theorem otelTraceparentFormat_eq (ctx : OtelSpanContext) :
    otelTraceparentFormat ctx = traceparentText [0x00] (toBytes otelTraceIdBytes ctx.traceId.toNat)
      (toBytes otelSpanIdBytes ctx.spanId.toNat) (toBytes 1 ctx.traceFlags.toNat) [] := by
  simp [otelTraceparentFormat, traceparentText, otelBytesToHex, hexChar]

theorem contextOfBytes_toBytes (ctx : OtelSpanContext) :
    contextOfBytes (toBytes otelTraceIdBytes ctx.traceId.toNat)
      (toBytes otelSpanIdBytes ctx.spanId.toNat) (toBytes 1 ctx.traceFlags.toNat) =
      { ctx with tracestate := none } := by
  unfold contextOfBytes otelTraceIdBytes otelSpanIdBytes
  rw [ofNat_ofBytes_toBytes ctx.traceId (by decide), ofNat_ofBytes_toBytes ctx.spanId (by decide),
    ofNat_ofBytes_toBytes ctx.traceFlags (by decide)]

/-- A valid context survives being printed and parsed, all but its tracestate. -/
theorem otelTraceparentParse_format {ctx : OtelSpanContext} (h : otelSpanContextIsValid ctx) :
    otelTraceparentParse (otelTraceparentFormat ctx) = some { ctx with tracestate := none } := by
  have hlengths : FieldLengths [0x00] (toBytes otelTraceIdBytes ctx.traceId.toNat)
      (toBytes otelSpanIdBytes ctx.spanId.toNat) (toBytes 1 ctx.traceFlags.toNat) :=
    ⟨rfl, length_toBytes _ _, length_toBytes _ _, length_toBytes _ _⟩
  rw [otelTraceparentFormat_eq, otelTraceparentParse_text hlengths, contextOfBytes_toBytes]
  exact if_pos ⟨by decide, .inl rfl, h⟩

/-- The texts of version 00 are printed as they were. -/
theorem otelTraceparentFormat_parse {s : CString} {ctx : OtelSpanContext}
    (h : otelTraceparentParse s = some ctx) (hversion : s.take 2 = [0x30, 0x30]) :
    otelTraceparentFormat ctx = s := by
  obtain ⟨version, traceId, spanId, flags, tail, hlengths, rfl, -, htail, rfl, -⟩ :=
    otelTraceparentParse_spec h
  have hzero : version = [0x00] := by
    have htake : otelBytesToHex version = [0x30, 0x30] := by
      rw [← hversion]
      exact (List.take_left' (by rw [length_otelBytesToHex, hlengths.version])).symm
    exact otelBytesToHex_inj hlengths.version (htake.trans (by decide))
  obtain rfl : tail = [] := htail.resolve_right fun hlater => hlater.1 hzero
  rw [otelTraceparentFormat_eq, hzero]
  unfold contextOfBytes
  rw [toBytes_toNat_ofNat hlengths.traceId (by decide), toBytes_toNat_ofNat hlengths.spanId (by decide),
    toBytes_toNat_ofNat hlengths.flags (by decide)]

end PostgresOtel
