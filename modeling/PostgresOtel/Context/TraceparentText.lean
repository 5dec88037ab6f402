import PostgresOtel.Context.Traceparent
import PostgresOtel.Lib.Reads

/-!
# The traceparent header value

The grammar of the W3C header value, and the parser of `otel_types.h` as it reads the string behind a
pointer.  The parser accepts exactly the texts of the grammar and examines nothing after the NUL;
printing and parsing are inverse to each other.
-/

set_option autoImplicit false

namespace PostgresOtel

open Exec Reads

/-! ## The grammar -/

/-- `n` lower-case hex digits. -/
def LowerHex (n : ℕ) (s : CString) : Prop :=
  s.length = n ∧ ∀ c ∈ s, (0x30 ≤ c ∧ c ≤ 0x39) ∨ (0x61 ≤ c ∧ c ≤ 0x66)

/-- The fields of a header value, which is valid by the W3C's rules. -/
structure TraceparentFields where
  version : CString
  traceId : CString
  parentId : CString
  flags : CString
  tail : CString
  version_hex : LowerHex 2 version
  version_ne : version ≠ cstr "ff"
  traceId_hex : LowerHex 32 traceId
  traceId_ne : ∃ c ∈ traceId, c ≠ 0x30
  parentId_hex : LowerHex 16 parentId
  parentId_ne : ∃ c ∈ parentId, c ≠ 0x30
  flags_hex : LowerHex 2 flags
  tail_ok : tail = [] ∨ (version ≠ cstr "00" ∧ ∃ rest, tail = 0x2d :: rest)

/-- The fields between dashes. -/
def TraceparentFields.text (t : TraceparentFields) : CString :=
  t.version ++ 0x2d :: (t.traceId ++ 0x2d :: (t.parentId ++ 0x2d :: (t.flags ++ t.tail)))

/-- The text belongs to the grammar. -/
def IsTraceparent (s : CString) : Prop := ∃ t : TraceparentFields, t.text = s

theorem hexValue_isSome_iff (c : UInt8) :
    (hexValue c).isSome ↔ (0x30 ≤ c ∧ c ≤ 0x39) ∨ (0x61 ≤ c ∧ c ≤ 0x66) := by
  unfold hexValue
  split_ifs <;> simp_all

/-- What is printed is lower-case digits. -/
theorem lowerHex_of_length {n : ℕ} {bytes : List UInt8} (h : bytes.length = n) :
    LowerHex (2 * n) (otelBytesToHex bytes) := by
  refine ⟨by rw [length_otelBytesToHex, h], fun c hc => ?_⟩
  obtain ⟨b, -, hb⟩ := List.mem_flatMap.1 hc
  rw [← hexValue_isSome_iff]
  rcases List.mem_pair.1 hb with rfl | rfl
  · rw [hexValue_hexChar_hi]
    rfl
  · rw [hexValue_hexChar_lo]
    rfl

/-- Lower-case digits are what some bytes are printed as. -/
theorem LowerHex.bytes {n : ℕ} {s : CString} (h : LowerHex (2 * n) s) :
    ∃ bytes, bytes.length = n ∧ otelBytesToHex bytes = s := by
  have hread : ∃ bytes, otelHexToBytes n s = some bytes := by
    obtain ⟨hlen, hdigits⟩ := h
    induction n generalizing s with
    | zero => exact ⟨[], rfl⟩
    | succ n ih =>
      match s, hlen with
      | hi :: lo :: rest, hlen =>
        simp only [List.forall_mem_cons] at hdigits
        obtain ⟨hhi, hlo, hrest⟩ := hdigits
        obtain ⟨a, ha⟩ := Option.isSome_iff_exists.1 ((hexValue_isSome_iff hi).2 hhi)
        obtain ⟨b, hb⟩ := Option.isSome_iff_exists.1 ((hexValue_isSome_iff lo).2 hlo)
        obtain ⟨tail, htail⟩ := ih (by simp only [List.length_cons] at hlen; omega) hrest
        exact ⟨((a <<< 4) ||| b) :: tail, by simp [otelHexToBytes, ha, hb, htail]⟩
  obtain ⟨bytes, hbytes⟩ := hread
  obtain ⟨hlen, hs⟩ := otelHexToBytes_spec hbytes
  refine ⟨bytes, hlen, ?_⟩
  rw [hs, List.drop_eq_nil_of_le h.1.le, List.append_nil]

/-- Digits other than `0` are those of bytes other than zero. -/
theorem exists_digit_iff (bytes : List UInt8) :
    (∃ c ∈ otelBytesToHex bytes, c ≠ 0x30) ↔ ∃ b ∈ bytes, b ≠ 0 := by
  have digits : ∀ v : BitVec 8, (hexChar (UInt8.ofBitVec v >>> 4) = 0x30 ∧
      hexChar (UInt8.ofBitVec v &&& 0x0f) = 0x30) ↔ UInt8.ofBitVec v = 0 := by decide +kernel
  have all : (∀ c ∈ otelBytesToHex bytes, c = 0x30) ↔ ∀ b ∈ bytes, b = 0 := by
    simp only [otelBytesToHex, List.forall_mem_flatMap, List.forall_mem_cons, List.not_mem_nil,
      false_imp_iff, implies_true, and_true]
    exact forall₂_congr fun b _ => digits b.toBitVec
  simpa using not_congr all

/-! ## Acceptance -/

theorem otelSpanContextIsValid_contextOfBytes {traceId spanId flags : List UInt8}
    (ht : traceId.length = otelTraceIdBytes) (hs : spanId.length = otelSpanIdBytes) :
    otelSpanContextIsValid (contextOfBytes traceId spanId flags) = true ↔
      (∃ b ∈ traceId, b ≠ 0) ∧ ∃ b ∈ spanId, b ≠ 0 := by
  have htrace : ofBytes traceId < 2 ^ 128 := by
    have hlt := ofBytes_lt traceId
    rwa [ht] at hlt
  have hspan : ofBytes spanId < 2 ^ 64 := by
    have hlt := ofBytes_lt spanId
    rwa [hs] at hlt
  simp only [otelSpanContextIsValid, contextOfBytes, Bool.and_eq_true, bne_iff_ne, ne_eq,
    ofNat_eq_zero_iff htrace, ofNat_eq_zero_iff hspan, ofBytes_eq_zero_iff]
  simp

/-- The parser accepts the texts of the grammar and no others. -/
theorem otelTraceparentParse_isSome_iff (s : CString) :
    (otelTraceparentParse s).isSome ↔ IsTraceparent s := by
  constructor
  · intro h
    obtain ⟨ctx, hctx⟩ := Option.isSome_iff_exists.1 h
    obtain ⟨version, traceId, spanId, flags, tail, hlengths, rfl, hne, htail, rfl, hvalid⟩ :=
      otelTraceparentParse_spec hctx
    obtain ⟨htrace, hspan⟩ :=
      (otelSpanContextIsValid_contextOfBytes hlengths.traceId hlengths.spanId).1 hvalid
    refine ⟨{ version := otelBytesToHex version, traceId := otelBytesToHex traceId
              parentId := otelBytesToHex spanId, flags := otelBytesToHex flags, tail := tail
              version_hex := lowerHex_of_length hlengths.version
              version_ne := fun h => hne (otelBytesToHex_inj hlengths.version h)
              traceId_hex := lowerHex_of_length hlengths.traceId
              traceId_ne := (exists_digit_iff traceId).2 htrace
              parentId_hex := lowerHex_of_length hlengths.spanId
              parentId_ne := (exists_digit_iff spanId).2 hspan
              flags_hex := lowerHex_of_length hlengths.flags
              tail_ok := htail.imp_right fun hlater => ⟨?_, List.head?_eq_some_iff.1 hlater.2⟩ }, rfl⟩
    exact fun h => hlater.1 (otelBytesToHex_inj hlengths.version h)
  · rintro ⟨t, rfl⟩
    obtain ⟨version, hversionLength, hversion⟩ := LowerHex.bytes (n := 1) t.version_hex
    obtain ⟨traceId, htraceLength, htrace⟩ := LowerHex.bytes (n := otelTraceIdBytes) t.traceId_hex
    obtain ⟨spanId, hspanLength, hspan⟩ := LowerHex.bytes (n := otelSpanIdBytes) t.parentId_hex
    obtain ⟨flags, hflagsLength, hflags⟩ := LowerHex.bytes (n := 1) t.flags_hex
    have hlengths : FieldLengths version traceId spanId flags :=
      ⟨hversionLength, htraceLength, hspanLength, hflagsLength⟩
    have htext : t.text = traceparentText version traceId spanId flags t.tail := by
      unfold TraceparentFields.text traceparentText
      rw [hversion, htrace, hspan, hflags]
    have hne : version ≠ [0xff] := by
      rintro rfl
      exact t.version_ne (hversion.symm.trans (by decide))
    have htail : TailOk version t.tail := by
      refine t.tail_ok.imp_right fun hlater => ⟨?_, List.head?_eq_some_iff.2 hlater.2⟩
      rintro rfl
      exact hlater.1 (hversion.symm.trans (by decide))
    have hvalid : otelSpanContextIsValid (contextOfBytes traceId spanId flags) = true :=
      (otelSpanContextIsValid_contextOfBytes htraceLength hspanLength).2 ⟨
        (exists_digit_iff traceId).1 (htrace ▸ t.traceId_ne),
        (exists_digit_iff spanId).1 (hspan ▸ t.parentId_ne)⟩
    rw [htext, otelTraceparentParse_text hlengths, if_pos ⟨hne, htail, hvalid⟩]
    rfl

/-! ## Reading the string -/

/-- One digit of `otel_hex_to_bytes`. -/
def hexDigitAt (p : CharPtr) (i : ℕ) : ReadM UInt8 := do
  let c ← examine p i
  match hexValue c with
  | some v => return v
  | none => throw ()

/-- `otel_hex_to_bytes(p + i, n, out)`, which stops at the first byte that is no digit. -/
def otelHexToBytesAt (p : CharPtr) : ℕ → ℕ → ReadM (List UInt8)
  | _, 0 => return []
  | i, n + 1 => do
    let h ← hexDigitAt p i
    let l ← hexDigitAt p (i + 1)
    let bytes ← otelHexToBytesAt p (i + 2) n
    return ((h <<< 4) ||| l) :: bytes

/-- `s[i] != c` as a reason to give up. -/
def requireByte (p : CharPtr) (i : ℕ) (c : UInt8) : ReadM Unit := do
  let b ← examine p i
  require (b = c)

/-- The rules for what follows the fields. -/
def checkTail (p : CharPtr) (version : List UInt8) (len : ℕ) : ReadM Unit :=
  if version = [0x00] then require (len = otelTraceparentLen)
  else if otelTraceparentLen < len then requireByte p otelTraceparentLen 0x2d
  else return ()

/-- `otel_traceparent_parse` on the string at `p`. -/
def otelTraceparentParseAt (p : CharPtr) : ReadM OtelSpanContext := do
  let len ← strlen p
  require (otelTraceparentLen ≤ len)
  requireByte p 2 0x2d
  requireByte p 35 0x2d
  requireByte p 52 0x2d
  let version ← otelHexToBytesAt p 0 1
  require (version ≠ [0xff])
  checkTail p version len
  let traceId ← otelHexToBytesAt p 3 otelTraceIdBytes
  let spanId ← otelHexToBytesAt p 36 otelSpanIdBytes
  let flags ← otelHexToBytesAt p 53 1
  require (otelSpanContextIsValid (contextOfBytes traceId spanId flags) = true)
  return contextOfBytes traceId spanId flags

/-- The terminator is no digit: a read that comes to it goes no further. -/
theorem otelHexToBytes_drop {p : CharPtr} {i n : ℕ} (h : i ≤ p.len) :
    otelHexToBytes (n + 1) (p.text.drop i) =
      (hexValue (p.byte i)).bind fun h => (hexValue (p.byte (i + 1))).bind fun l =>
        (otelHexToBytes n (p.text.drop (i + 2))).bind fun bytes => some (((h <<< 4) ||| l) :: bytes) := by
  rcases h.eq_or_lt with rfl | hi
  · have hnil : p.text.drop p.len = [] := List.drop_eq_nil_of_le (by simp)
    rw [hnil, CharPtr.byte_len]
    rfl
  · rw [p.drop_text hi]
    rcases (Nat.succ_le_of_lt hi).eq_or_lt with hend | hi'
    · have hnil : p.text.drop (i + 1) = [] := List.drop_eq_nil_of_le (by simp; omega)
      have hbyte : p.byte (i + 1) = 0 := by rw [← p.byte_len, ← hend]
      rw [hnil, hbyte]
      cases hexValue (p.byte i) <;> rfl
    · rw [p.drop_text hi']
      rfl

theorem decides_hexDigitAt {p : CharPtr} {i : ℕ} (h : i ≤ p.len) :
    Decides p (hexDigitAt p i) (hexValue (p.byte i)) := by
  have hread : (some (p.byte i)).bind hexValue = hexValue (p.byte i) := rfl
  rw [← hread]
  refine (decides_examine h).bind fun c _ => ?_
  cases hc : hexValue c with
  | some v => exact decides_pure v
  | none => exact fun _ hexamined => ⟨rfl, hexamined⟩

/-- A digit is before the terminator. -/
theorem lt_len_of_hexValue {p : CharPtr} {i : ℕ} {v : UInt8} (h : i ≤ p.len)
    (hv : hexValue (p.byte i) = some v) : i < p.len := by
  refine lt_of_le_of_ne h ?_
  rintro rfl
  have hnul : hexValue 0 = none := by decide
  rw [p.byte_len, hnul] at hv
  exact absurd hv nofun

theorem decides_otelHexToBytesAt {p : CharPtr} {n i : ℕ} (h : i ≤ p.len) :
    Decides p (otelHexToBytesAt p i n) (otelHexToBytes n (p.text.drop i)) := by
  induction n generalizing i with
  | zero => exact decides_pure []
  | succ n ih =>
    rw [otelHexToBytes_drop h]
    refine (decides_hexDigitAt h).bind fun a ha => ?_
    have hi := lt_len_of_hexValue h ha
    refine (decides_hexDigitAt hi).bind fun b hb => ?_
    have hi' := lt_len_of_hexValue hi hb
    exact (ih hi').bind fun bytes _ => decides_pure _

theorem decides_requireByte {p : CharPtr} {i : ℕ} {c : UInt8} (h : i ≤ p.len) :
    Decides p (requireByte p i c) (if p.byte i = c then some () else none) := by
  have hread : (some (p.byte i)).bind (fun b => if b = c then some () else none) =
      if p.byte i = c then some () else none := rfl
  rw [← hread]
  exact (decides_examine h).bind fun b _ => decides_require

theorem decides_checkTail {p : CharPtr} {version : List UInt8} :
    Decides p (checkTail p version p.len) (if (if version = [0x00] then
        p.text.length = otelTraceparentLen
      else otelTraceparentLen < p.text.length → p.text[otelTraceparentLen]? = some 0x2d)
      then some () else none) := by
  rw [p.length_text]
  unfold checkTail
  by_cases hversion : version = [0x00]
  · simpa only [if_pos hversion] using decides_require
  · by_cases hlen : otelTraceparentLen < p.len
    · simpa only [if_neg hversion, p.text_getElem? hlen, Option.some.injEq, hlen, forall_const, if_true]
        using decides_requireByte hlen.le
    · simpa only [if_neg hversion, hlen, false_imp_iff, if_true, if_false] using decides_pure ()

/-- The parser comes to what the text says, and looks at the text alone. -/
theorem decides_otelTraceparentParseAt (p : CharPtr) :
    Decides p (otelTraceparentParseAt p) (otelTraceparentParse p.text) := by
  have guarded : otelTraceparentParse p.text = (some p.len).bind fun len =>
      (if otelTraceparentLen ≤ len then some () else none).bind fun _ =>
      (if p.byte 2 = 0x2d then some () else none).bind fun _ =>
      (if p.byte 35 = 0x2d then some () else none).bind fun _ =>
      (if p.byte 52 = 0x2d then some () else none).bind fun _ =>
      (otelHexToBytes 1 (p.text.drop 0)).bind fun version =>
      (if version ≠ [0xff] then some () else none).bind fun _ =>
      (if (if version = [0x00] then p.text.length = otelTraceparentLen
        else otelTraceparentLen < p.text.length → p.text[otelTraceparentLen]? = some 0x2d)
        then some () else none).bind fun _ =>
      (otelHexToBytes otelTraceIdBytes (p.text.drop 3)).bind fun traceId =>
      (otelHexToBytes otelSpanIdBytes (p.text.drop 36)).bind fun spanId =>
      (otelHexToBytes 1 (p.text.drop 53)).bind fun flags =>
      (if otelSpanContextIsValid (contextOfBytes traceId spanId flags) = true
        then some () else none).bind fun _ => some (contextOfBytes traceId spanId flags) := by
    by_cases hlen : otelTraceparentLen ≤ p.len
    · have hbyte {i : ℕ} (hi : i < otelTraceparentLen) : p.text[i]? = some (p.byte i) :=
        p.text_getElem? (hi.trans_le hlen)
      unfold otelTraceparentParse guard
      rw [hbyte (show 2 < 55 by decide), hbyte (show 35 < 55 by decide),
        hbyte (show 52 < 55 by decide), p.length_text]
      simp only [hlen, if_true, Option.some.injEq, Option.bind_eq_bind, Option.bind_some]
      by_cases h₂ : p.byte 2 = 0x2d <;> by_cases h₃₅ : p.byte 35 = 0x2d <;>
        by_cases h₅₂ : p.byte 52 = 0x2d <;> simp [h₂, h₃₅, h₅₂]
      rfl
    · have hshort : ¬ otelTraceparentLen ≤ p.text.length := by rwa [p.length_text]
      unfold otelTraceparentParse guard
      rw [if_neg hshort, Option.bind_some, if_neg hlen]
      rfl
  rw [guarded]
  refine decides_strlen.bind fun len hlen => ?_
  obtain rfl := Option.some.inj hlen
  refine decides_require.bind fun _ hlong => ?_
  have hlong : otelTraceparentLen ≤ p.len := by
    by_contra hshort
    rw [if_neg hshort] at hlong
    exact absurd hlong nofun
  have inText {i : ℕ} (hi : i ≤ otelTraceparentLen) : i ≤ p.len := hi.trans hlong
  refine (decides_requireByte (inText (by decide))).bind fun _ _ => ?_
  refine (decides_requireByte (inText (by decide))).bind fun _ _ => ?_
  refine (decides_requireByte (inText (by decide))).bind fun _ _ => ?_
  refine (decides_otelHexToBytesAt (inText (by decide))).bind fun version _ => ?_
  refine decides_require.bind fun _ _ => ?_
  refine decides_checkTail.bind fun _ _ => ?_
  refine (decides_otelHexToBytesAt (inText (by decide))).bind fun traceId _ => ?_
  refine (decides_otelHexToBytesAt (inText (by decide))).bind fun spanId _ => ?_
  refine (decides_otelHexToBytesAt (inText (by decide))).bind fun flags _ => ?_
  exact decides_require.bind fun _ _ => decides_pure _

/-- What is printed is a C string. -/
theorem nul_notMem_otelTraceparentFormat (ctx : OtelSpanContext) : 0 ∉ otelTraceparentFormat ctx := by
  have digits (bytes : List UInt8) : 0 ∉ otelBytesToHex bytes := by
    intro h
    exact absurd ((lowerHex_of_length rfl).2 0 h) (by decide)
  simp [otelTraceparentFormat, digits]

/-- The parser accepts exactly the texts of the grammar and looks at nothing after the terminator, and
it and the printer are inverse to each other. -/
theorem traceparent_codec :
    (∀ p : CharPtr, ((value (otelTraceparentParseAt p) []).isSome ↔ IsTraceparent p.text) ∧
      ∀ i ∈ endState (otelTraceparentParseAt p) [], i ≤ p.len) ∧
    (∀ ctx : OtelSpanContext, otelSpanContextIsValid ctx = true →
      value (otelTraceparentParseAt (CharPtr.ofString (otelTraceparentFormat ctx))) [] =
        some { ctx with tracestate := none }) ∧
    ∀ (p : CharPtr) (ctx : OtelSpanContext), value (otelTraceparentParseAt p) [] = some ctx →
      p.text.take 2 = cstr "00" → otelTraceparentFormat ctx = p.text := by
  refine ⟨fun p => ?_, fun ctx hctx => ?_, fun p ctx hparse hversion => ?_⟩
  · obtain ⟨hvalue, hexamined⟩ := (decides_otelTraceparentParseAt p).run
    exact ⟨by rw [hvalue, otelTraceparentParse_isSome_iff], hexamined⟩
  · rw [(decides_otelTraceparentParseAt _).run.1,
      CharPtr.text_ofString (nul_notMem_otelTraceparentFormat ctx)]
    exact otelTraceparentParse_format hctx
  · rw [(decides_otelTraceparentParseAt p).run.1] at hparse
    exact otelTraceparentFormat_parse hparse (hversion.trans (by decide))

end PostgresOtel
