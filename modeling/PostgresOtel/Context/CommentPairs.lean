import Mathlib.Data.List.TakeWhile
import PostgresOtel.Context.CommentBounds

/-!
# The pairs of a comment

`extract_traceparent_from_comment` over the rest of a comment's body instead of offsets, and what it
makes of the body of a comment that was written as sqlcommenter does it.  The scanner takes an escaped
quote for the end of a value, which cuts values short and lets one that is too long through.
-/

set_option autoImplicit false

namespace PostgresOtel

open Scan

/-! ## The scanner over the rest of the body -/

/-- The decoding loop over the rest of the value. -/
def decodeRest (outlen : ℕ) : CString → CString → Option CString
  | [], out => some out
  | c :: rest, out =>
    if outlen ≤ out.length + 1 then none
    else if c = 0x25 then
      match rest with
      | hi :: lo :: rest =>
        match percentByte hi lo with
        | some byte => decodeRest outlen rest (out ++ [byte])
        | none => none
      | _ => none
    else decodeRest outlen rest (out ++ [c])

theorem decodeRest_raw {outlen : ℕ} {c : UInt8} (hc : c ≠ 0x25) (rest out : CString) :
    decodeRest outlen (c :: rest) out =
      if outlen ≤ out.length + 1 then none else decodeRest outlen rest (out ++ [c]) := by
  rw [decodeRest.eq_def]
  dsimp only
  rw [if_neg hc]

theorem decodeRest_escape {outlen : ℕ} {hi lo c : UInt8} (hbyte : percentByte hi lo = some c)
    (rest out : CString) :
    decodeRest outlen (0x25 :: hi :: lo :: rest) out =
      if outlen ≤ out.length + 1 then none else decodeRest outlen rest (out ++ [c]) := by
  rw [decodeRest, if_pos rfl, hbyte]

/-- The body after the next comma. -/
def nextPair (p : CString) : CString := (p.dropWhile isntComma).tail

theorem length_nextPair_lt {p q : CString} (hle : p.length ≤ q.length) (hq : q ≠ []) :
    (nextPair p).length < q.length := by
  have hdrop := (List.dropWhile_suffix isntComma (l := p)).length_le
  have hpos := List.length_pos_iff.2 hq
  unfold nextPair
  rw [List.length_tail]
  omega

/-- What a pair's key is followed by. -/
inductive PairRest
  | noValue (p : CString)
  | malformed
  | value (val after : CString)

/-- Where the value of a pair stands, if it has one. -/
def pairRest (p : CString) : PairRest :=
  match p with
  | 0x3d :: 0x27 :: val =>
    match val.dropWhile isntQuote with
    | [] => .malformed
    | _ :: after => .value (val.takeWhile isntQuote) after
  | 0x3d :: _ => .malformed
  | p => .noValue p

/-- What follows the key, or the value. -/
def PairRest.after : PairRest → CString
  | .noValue p => p
  | .malformed => []
  | .value _ after => after

theorem pairRest_value {p val after : CString} (h : pairRest p = .value val after) :
    ∃ c, p = 0x3d :: 0x27 :: (val ++ c :: after) := by
  unfold pairRest at h
  split at h
  · rename_i text
    have hsplit := List.takeWhile_append_dropWhile (p := isntQuote) (l := text)
    split at h
    · cases h
    · rename_i c rest hrest
      obtain ⟨rfl, rfl⟩ := PairRest.value.inj h
      exact ⟨c, by rw [← hrest, hsplit]⟩
  · cases h
  · cases h

theorem pairRest_after_suffix (p : CString) : (pairRest p).after <:+ p := by
  cases h : pairRest p with
  | malformed => exact List.nil_suffix
  | value val after =>
    obtain ⟨c, rfl⟩ := pairRest_value h
    exact ⟨0x3d :: 0x27 :: (val ++ [c]), by simp [PairRest.after]⟩
  | noValue r =>
    unfold pairRest at h
    split at h
    · split at h <;> cases h
    · cases h
    · rw [PairRest.noValue.inj h]
      exact List.suffix_refl r

/-- The main loop over the rest of the body. -/
def extractRest (outlen : ℕ) (p : CString) : Option CString :=
  if _hp : p = [] then none
  else
    let q := p.dropWhile isBlank
    if q = [] then none
    else
      match _hrest : pairRest (q.dropWhile isKeyByte) with
      | .malformed => none
      | .noValue r => extractRest outlen (nextPair r)
      | .value val after =>
        if q.takeWhile isKeyByte = traceparentKey then decodeRest outlen val []
        else extractRest outlen (nextPair after)
termination_by p.length
decreasing_by
  all_goals
    have hkey := (List.dropWhile_suffix isKeyByte (l := p.dropWhile isBlank)).length_le
    have hblank := (List.dropWhile_suffix isBlank (l := p)).length_le
    have hafter := (pairRest_after_suffix ((p.dropWhile isBlank).dropWhile isKeyByte)).length_le
    rw [_hrest] at hafter
    exact length_nextPair_lt (Nat.le_trans hafter (Nat.le_trans hkey hblank)) _hp

theorem extractRest_nil (outlen : ℕ) : extractRest outlen [] = none := by
  rw [extractRest]
  rfl

/-- One turn of the main loop. -/
theorem extractRest_turn {outlen : ℕ} {p : CString} (hp : p.dropWhile isBlank ≠ []) :
    extractRest outlen p = match pairRest ((p.dropWhile isBlank).dropWhile isKeyByte) with
      | .malformed => none
      | .noValue r => extractRest outlen (nextPair r)
      | .value val after =>
        if (p.dropWhile isBlank).takeWhile isKeyByte = traceparentKey then decodeRest outlen val []
        else extractRest outlen (nextPair after) := by
  have hne : p ≠ [] := by
    rintro rfl
    exact hp rfl
  rw [extractRest, dif_neg hne]
  dsimp only
  rw [if_neg hp]
  split <;> rename_i heq <;> rw [heq]

theorem extractRest_blank {outlen : ℕ} {p : CString} (hp : p.dropWhile isBlank = []) :
    extractRest outlen p = none := by
  rw [extractRest]
  split_ifs
  · rfl
  · dsimp only
    rw [if_pos hp]

theorem pairRest_noValue {p : CString} (h : p.head? ≠ some 0x3d) : pairRest p = .noValue p := by
  unfold pairRest
  split
  · exact absurd rfl h
  · exact absurd rfl h
  · rfl

theorem pairRest_malformed {p : CString} (h : p.head? ≠ some 0x27) :
    pairRest (0x3d :: p) = .malformed := by
  unfold pairRest
  split
  · rename_i heq
    obtain rfl := (List.cons.inj heq).2
    exact absurd rfl h
  · rfl
  · rename_i hne
    exact absurd rfl (hne p)

theorem pairRest_quoted (val : CString) :
    pairRest (0x3d :: 0x27 :: val) = match val.dropWhile isntQuote with
      | [] => .malformed
      | _ :: after => .value (val.takeWhile isntQuote) after := rfl

/-! ## The offsets point to the rest -/

variable {body : CString} {outlen : ℕ}

theorem decodePercentEscape_eq {p : ℕ} {c hi lo : UInt8} {rest : CString} {n : ℕ}
    (hat : At body p (c :: hi :: lo :: rest)) (hn : 3 ≤ n) :
    decodePercentEscape body p n = .ok (percentByte hi lo) := by
  have hlo := hat.tail.tail.byteAt
  unfold decodePercentEscape
  rw [if_neg (by omega), hat.tail.byteAt]
  simp only [bind, Except.bind, hlo]
  rfl

theorem decodePercentEscape_short {p n : ℕ} (hn : n < 3) :
    decodePercentEscape body p n = .ok none := if_pos hn

theorem decodeLoop_eq {valStart i fuel : ℕ} {val tail out : CString}
    (hat : At body (valStart + i) (val ++ tail)) (hfuel : val.length < fuel)
    (hout : out.length < outlen) :
    decodeLoop body valStart (i + val.length) outlen fuel i out =
      orRefused (decodeRest outlen val out) := by
  induction fuel generalizing i val out with
  | zero => omega
  | succ fuel ih =>
    unfold decodeLoop
    cases val with
    | nil =>
      rw [if_neg (by simp), putByte_ok hout]
      rfl
    | cons c val =>
      rw [List.length_cons] at hfuel
      have hlt : i < i + (c :: val).length := by simp
      have hput (b : UInt8) : putByte outlen out b = .ok (out ++ [b]) := putByte_ok hout b
      rw [if_pos hlt, hat.byteAt]
      unfold decodeRest
      by_cases hfull : outlen ≤ out.length + 1
      · rw [if_pos hfull, if_pos hfull]
        rfl
      rw [if_neg hfull, if_neg hfull]
      have hroom (b : UInt8) : (out ++ [b]).length < outlen := by
        rw [List.length_append, List.length_singleton]
        omega
      by_cases hescape : c = 0x25
      · rw [if_pos hescape]
        simp only [bind, Except.bind, hescape, if_true]
        match val, hfuel, hat with
        | [], _, _ =>
          rw [decodePercentEscape_short (by simp)]
          rfl
        | [_], _, _ =>
          rw [decodePercentEscape_short (by simp)]
          rfl
        | hi :: lo :: val, hfuel, hat =>
          rw [decodePercentEscape_eq hat (by simp only [List.length_cons]; omega)]
          dsimp only
          cases percentByte hi lo with
          | none => rfl
          | some byte =>
            have hnext : decodeLoop body valStart (i + 3 + val.length) outlen fuel (i + 3)
                (out ++ [byte]) = orRefused (decodeRest outlen val (out ++ [byte])) :=
              ih hat.tail.tail.tail (by simp only [List.length_cons] at hfuel; omega) (hroom byte)
            simp only [hput]
            rw [← hnext]
            congr 1
            simp only [List.length_cons]
            omega
      · rw [if_neg hescape]
        have hnext : decodeLoop body valStart (i + 1 + val.length) outlen fuel (i + 1) (out ++ [c]) =
            orRefused (decodeRest outlen val (out ++ [c])) := ih hat.tail (by omega) (hroom c)
        simp only [bind, Except.bind, hescape, if_false, hput]
        rw [← hnext]
        congr 1
        rw [List.length_cons]
        omega

theorem skipPair_eq {p : ℕ} {rest : CString} (hat : At body p rest) :
    ∃ q, skipPair body body.length p = .ok q ∧ At body q (nextPair rest) := by
  have hdrop := hat.dropWhile isntComma
  have hskip := hat.skipWhile isntComma
  unfold skipPair nextPair
  rw [hat.sub_eq, hskip]
  cases hrest : rest.dropWhile isntComma with
  | nil =>
    rw [hrest] at hdrop
    have hend : ¬ p + (rest.takeWhile isntComma).length < body.length := by
      rw [hdrop.lt_iff]
      simp
    exact ⟨_, by simp [bind, Except.bind, pure, Except.pure, hend], hdrop⟩
  | cons c after =>
    rw [hrest] at hdrop
    have hlt : p + (rest.takeWhile isntComma).length < body.length := by
      rw [hdrop.lt_iff]
      simp
    exact ⟨_, by simp [bind, Except.bind, pure, Except.pure, hlt], hdrop.tail⟩

/-- A value is read up to its closing quote, and decoded if its key has matched. -/
theorem readValue_eq {p : ℕ} {val : CString} (matched : Bool) (go : ℕ → ScanM CString)
    (hat : At body p val) (hout : 0 < outlen) :
    (do
      let q ← skipWhile body isntQuote (body.length - p) p
      if body.length ≤ q then .error .refused
      else if matched then decodeLoop body p (q - p) outlen (q - p + 1) 0 []
      else go (q + 1)) = match val.dropWhile isntQuote with
      | [] => .error .refused
      | _ :: _ =>
        if matched then orRefused (decodeRest outlen (val.takeWhile isntQuote) [])
        else go (p + (val.takeWhile isntQuote).length + 1) := by
  have hclose := hat.dropWhile isntQuote
  have hsplit := List.takeWhile_append_dropWhile (p := isntQuote) (l := val)
  rw [hat.sub_eq, hat.skipWhile isntQuote]
  simp only [bind, Except.bind, Nat.add_sub_cancel_left]
  cases hafter : val.dropWhile isntQuote with
  | nil =>
    rw [hafter] at hclose
    exact if_pos (hclose.le_iff.2 rfl)
  | cons c after =>
    rw [hafter] at hclose hsplit
    have hopen : ¬ body.length ≤ p + (val.takeWhile isntQuote).length := fun h =>
      List.cons_ne_nil c after (hclose.le_iff.1 h)
    rw [if_neg hopen]
    cases matched with
    | false => rfl
    | true =>
      have hdecode : decodeLoop body p (0 + (val.takeWhile isntQuote).length) outlen
          ((val.takeWhile isntQuote).length + 1) 0 [] =
          orRefused (decodeRest outlen (val.takeWhile isntQuote) []) :=
        decodeLoop_eq (by rwa [hsplit]) (Nat.lt_succ_self _) hout
      rwa [Nat.zero_add] at hdecode

/-- The scan ends, examines no byte outside of the body and writes none past the end of its output. -/
theorem extractLoop_eq {p fuel : ℕ} {rest : CString} (hat : At body p rest)
    (hfuel : rest.length < fuel) (hout : 0 < outlen) :
    extractLoop body body.length outlen fuel p = orRefused (extractRest outlen rest) := by
  induction fuel generalizing p rest with
  | zero => omega
  | succ fuel ih =>
    unfold extractLoop
    by_cases hnil : rest = []
    · rw [if_neg (by rw [hat.lt_iff]; exact fun h => h hnil), hnil, extractRest_nil]
      rfl
    have hblank := hat.dropWhile isBlank
    rw [if_pos (hat.lt_iff.2 hnil), hat.sub_eq, hat.skipWhile isBlank]
    simp only [bind, Except.bind]
    obtain ⟨p₁, hp₁⟩ : ∃ p₁, p₁ = p + (rest.takeWhile isBlank).length := ⟨_, rfl⟩
    obtain ⟨q, hq⟩ : ∃ q, q = rest.dropWhile isBlank := ⟨_, rfl⟩
    have hlen : q.length ≤ rest.length := hq ▸ (List.dropWhile_suffix isBlank).length_le
    rw [← hp₁, ← hq] at hblank
    rw [← hp₁]
    by_cases hqnil : q = []
    · rw [if_pos (hblank.le_iff.2 hqnil), extractRest_blank (hq.symm.trans hqnil)]
      rfl
    rw [if_neg fun h => hqnil (hblank.le_iff.1 h), hblank.sub_eq, hblank.skipWhile isKeyByte,
      extractRest_turn (hq ▸ hqnil), ← hq]
    have hkey := hblank.dropWhile isKeyByte
    have hname : (body.drop p₁).take (p₁ + (q.takeWhile isKeyByte).length - p₁) =
        q.takeWhile isKeyByte := by
      rw [hblank.2, Nat.add_sub_cancel_left]
      exact (List.prefix_iff_eq_take.1 (List.takeWhile_prefix isKeyByte)).symm
    obtain ⟨p₂, hp₂⟩ : ∃ p₂, p₂ = p₁ + (q.takeWhile isKeyByte).length := ⟨_, rfl⟩
    obtain ⟨r, hr⟩ : ∃ r, r = q.dropWhile isKeyByte := ⟨_, rfl⟩
    have hrlen : r.length ≤ q.length := hr ▸ (List.dropWhile_suffix isKeyByte).length_le
    rw [← hp₂, ← hr] at hkey
    rw [← hp₂] at hname ⊢
    rw [← hr]
    dsimp only
    rw [hname]
    -- the loop goes on after a pair
    have hgo {r : CString} {p₃ : ℕ} (hat : At body p₃ r) (hle : r.length ≤ rest.length) :
        (do
          let p ← skipPair body body.length p₃
          extractLoop body body.length outlen fuel p) =
          orRefused (extractRest outlen (nextPair r)) := by
      obtain ⟨p₄, hskip, hat₄⟩ := skipPair_eq hat
      have hlt := length_nextPair_lt hle hnil
      rw [hskip]
      exact ih hat₄ (by omega)
    rw [hkey.byteIs]
    by_cases hvalue : r.head? = some 0x3d
    · simp only [hvalue, decide_true, Bool.not_true, Bool.false_eq_true, if_false]
      obtain ⟨r, rfl⟩ : ∃ r', r = 0x3d :: r' := by
        cases r with
        | nil => cases hvalue
        | cons c r => exact ⟨r, by rw [Option.some.inj hvalue]⟩
      rw [hkey.tail.byteIs]
      by_cases hquote : r.head? = some 0x27
      · simp only [hquote, decide_true, Bool.not_true, Bool.false_eq_true, if_false]
        obtain ⟨val, rfl⟩ : ∃ val, r = 0x27 :: val := by
          cases r with
          | nil => cases hquote
          | cons c r => exact ⟨r, by rw [Option.some.inj hquote]⟩
        have hclose := hkey.tail.tail.dropWhile isntQuote
        have hvlen := (List.dropWhile_suffix isntQuote (l := val)).length_le
        simp only [List.length_cons] at hrlen
        refine (readValue_eq (decide (q.takeWhile isKeyByte = traceparentKey)) (fun p => do
          let p ← skipPair body body.length p
          extractLoop body body.length outlen fuel p) hkey.tail.tail hout).trans ?_
        rw [pairRest_quoted]
        cases hafter : val.dropWhile isntQuote with
        | nil => rfl
        | cons c after =>
          rw [hafter, List.length_cons] at hvlen
          rw [hafter] at hclose
          dsimp only
          by_cases hname : q.takeWhile isKeyByte = traceparentKey
          · simp only [hname, decide_true, if_true]
          · simp only [hname, decide_false, Bool.false_eq_true, if_false]
            exact hgo hclose.tail (by omega)
      · rw [pairRest_malformed hquote]
        simp only [hquote, decide_false, Bool.not_false, if_true]
        rfl
    · rw [pairRest_noValue hvalue]
      simp only [hvalue, decide_false, Bool.not_false, if_true]
      exact hgo hkey (by omega)

/-- Whatever the body holds, the whole scan comes to a result or refuses. -/
theorem extractTraceparentFromComment_eq (body : CString) (hout : 0 < outlen) :
    extractTraceparentFromComment body body.length outlen = orRefused (extractRest outlen body) :=
  extractLoop_eq (at_zero body) (Nat.lt_succ_self _) hout

/-! ## Comments as sqlcommenter writes them -/

/-- The text encodes the value: no comma or percent sign is left as it is, and a quote is escaped with
a backslash. -/
inductive Encodes : CString → CString → Prop
  | nil : Encodes [] []
  | raw {c : UInt8} {value text : CString} : c ≠ 0x2c → c ≠ 0x25 → c ≠ 0x27 → Encodes value text →
      Encodes (c :: value) (c :: text)
  | percent {c hi lo : UInt8} {value text : CString} : percentByte hi lo = some c → c ≠ 0x27 →
      Encodes value text → Encodes (c :: value) (0x25 :: hi :: lo :: text)
  | quote {value text : CString} : Encodes value text →
      Encodes (0x27 :: value) (0x5c :: 0x27 :: text)

/-- A key with its value, and how they are written. -/
structure KeyValue where
  blanks : CString
  key : CString
  value : CString
  text : CString
  blanks_blank : ∀ c ∈ blanks, isBlank c = true
  key_bytes : ∀ c ∈ key, isKeyByte c = true
  key_start : ∀ c ∈ key.head?, isBlank c = false
  encodes : Encodes value text

def KeyValue.written (p : KeyValue) : CString :=
  p.blanks ++ (p.key ++ 0x3d :: 0x27 :: (p.text ++ [0x27]))

/-- The pairs, joined by commas. -/
def commentBody : List KeyValue → CString
  | [] => []
  | [p] => p.written
  | p :: q :: ps => p.written ++ 0x2c :: commentBody (q :: ps)

/-- The first pair whose key is `traceparent`. -/
def traceparentPair (ps : List KeyValue) : Option KeyValue :=
  ps.find? fun p => p.key = traceparentKey

theorem percentDigit_ne {c d : UInt8} (h : percentDigit c = some d) : c ≠ 0x27 ∧ c ≠ 0x2c := by
  constructor
  · rintro rfl
    rw [show percentDigit 0x27 = none by decide] at h
    cases h
  · rintro rfl
    rw [show percentDigit 0x2c = none by decide] at h
    cases h

theorem percentByte_digits {hi lo c : UInt8} (h : percentByte hi lo = some c) :
    (hi ≠ 0x27 ∧ hi ≠ 0x2c) ∧ lo ≠ 0x27 ∧ lo ≠ 0x2c := by
  simp only [percentByte, Option.bind_eq_bind, Option.bind_eq_some_iff] at h
  obtain ⟨a, ha, b, hb, -⟩ := h
  exact ⟨percentDigit_ne ha, percentDigit_ne hb⟩

theorem Encodes.no_comma {value text : CString} (h : Encodes value text) :
    ∀ c ∈ text, isntComma c = true := by
  induction h with
  | nil => simp
  | raw hcomma _ _ _ ih => simp_all [isntComma]
  | percent hbyte _ _ ih =>
    have hdigits := percentByte_digits hbyte
    simp_all [isntComma]
  | quote _ ih => simp_all [isntComma]

/-- What the scanner takes for the value: it ends where the first quote is escaped. -/
def scannedValue (value : CString) : CString :=
  value.takeWhile isntQuote ++ if 0x27 ∈ value then [0x5c] else []

theorem scannedValue_of_notMem {value : CString} (h : 0x27 ∉ value) : scannedValue value = value := by
  have hall : value.takeWhile isntQuote = value := by
    rw [List.takeWhile_eq_self_iff]
    intro c hc
    have hne : c ≠ 0x27 := fun heq => h (heq ▸ hc)
    simp [isntQuote, hne]
  simp [scannedValue, hall, h]

theorem scannedValue_cons {c : UInt8} {value : CString} (hc : c ≠ 0x27) :
    scannedValue (c :: value) = c :: scannedValue value := by
  have hmem : 0x27 ∈ c :: value ↔ 0x27 ∈ value := by simp [Ne.symm hc]
  simp [scannedValue, isntQuote, hc, hmem]

/-- Decoding gives what the scanner has taken for the value, if there is room for it. -/
theorem decodeRest_scanned {value text out : CString} (h : Encodes value text)
    (hout : out.length < outlen) :
    decodeRest outlen (text.takeWhile isntQuote) out =
      if out.length + (scannedValue value).length < outlen then some (out ++ scannedValue value)
      else none := by
  induction h generalizing out with
  | nil => simp [decodeRest, scannedValue, hout]
  | @raw c value text hcomma hpercent hquote _ ih =>
    rw [List.takeWhile_cons_of_pos (by simp [isntQuote, hquote]), decodeRest_raw hpercent,
      scannedValue_cons hquote]
    by_cases hfull : outlen ≤ out.length + 1
    · rw [if_pos hfull, if_neg (by rw [List.length_cons]; omega)]
    · rw [if_neg hfull, ih (by simp; omega)]
      simp [Nat.add_assoc, Nat.add_comm 1]
  | @percent c hi lo value text hbyte hquote _ ih =>
    have hdigits := percentByte_digits hbyte
    rw [List.takeWhile_cons_of_pos (by decide), List.takeWhile_cons_of_pos (by simp [isntQuote, hdigits]),
      List.takeWhile_cons_of_pos (by simp [isntQuote, hdigits]), decodeRest_escape hbyte,
      scannedValue_cons hquote]
    by_cases hfull : outlen ≤ out.length + 1
    · rw [if_pos hfull, if_neg (by rw [List.length_cons]; omega)]
    · rw [if_neg hfull, ih (by simp; omega)]
      simp [Nat.add_assoc, Nat.add_comm 1]
  | @quote value text _ _ =>
    have hseen : scannedValue (0x27 :: value) = [0x5c] := by simp [scannedValue, isntQuote]
    rw [hseen, List.takeWhile_cons_of_pos (by decide), List.takeWhile_cons_of_neg (by decide),
      decodeRest_raw (by decide)]
    by_cases hfull : outlen ≤ out.length + 1
    · rw [if_pos hfull, if_neg (by simp; omega)]
    · rw [if_neg hfull, if_pos (by simp; omega)]
      rfl

/-- A comma further on is not missed. -/
theorem nextPair_append {x : CString} (hx : ∀ c ∈ x, isntComma c = true) (rest : CString) :
    nextPair (x ++ rest) = nextPair rest := by
  unfold nextPair
  rw [List.dropWhile_append_of_pos hx]

/-- Reading one pair: its value is decoded, or the scan goes on after the next comma. -/
theorem extractRest_pair (p : KeyValue) (rest : CString) :
    extractRest outlen (p.written ++ rest) =
      if p.key = traceparentKey then decodeRest outlen (p.text.takeWhile isntQuote) []
      else extractRest outlen (nextPair rest) := by
  obtain ⟨tail, htail⟩ : ∃ tail, tail = 0x27 :: rest := ⟨_, rfl⟩
  have hwritten : p.written ++ rest = p.blanks ++ (p.key ++ 0x3d :: 0x27 :: (p.text ++ tail)) := by
    simp [KeyValue.written, htail]
  -- the blanks, then the key
  have hblank : (p.written ++ rest).dropWhile isBlank = p.key ++ 0x3d :: 0x27 :: (p.text ++ tail) := by
    rw [hwritten, List.dropWhile_append_of_pos p.blanks_blank]
    have hstart := p.key_start
    cases hkey : p.key with
    | nil => rfl
    | cons c key =>
      rw [hkey] at hstart
      exact List.dropWhile_cons_of_neg (by simpa using hstart)
  have hkeyDrop : (p.key ++ 0x3d :: 0x27 :: (p.text ++ tail)).dropWhile isKeyByte =
      0x3d :: 0x27 :: (p.text ++ tail) := by
    rw [List.dropWhile_append_of_pos p.key_bytes]
    rfl
  have hkeyTake : (p.key ++ 0x3d :: 0x27 :: (p.text ++ tail)).takeWhile isKeyByte = p.key := by
    rw [List.takeWhile_append_of_pos p.key_bytes]
    exact List.append_nil _
  -- the value, up to the first quote
  have hvalTake : (p.text ++ tail).takeWhile isntQuote = p.text.takeWhile isntQuote := by
    rw [List.takeWhile_append, htail]
    split_ifs with hall
    · rw [List.takeWhile_cons_of_neg (by decide), List.append_nil]
      exact ((List.takeWhile_prefix isntQuote).eq_of_length hall).symm
    · rfl
  have hvalDrop : (p.text ++ tail).dropWhile isntQuote = p.text.dropWhile isntQuote ++ tail := by
    rw [List.dropWhile_append, htail]
    split_ifs with hnil
    · rw [List.isEmpty_iff.1 hnil]
      rfl
    · rfl
  have hcommas : ∀ c ∈ p.text.dropWhile isntQuote ++ [0x27], isntComma c = true := by
    intro c hc
    rcases List.mem_append.1 hc with hc | hc
    · exact p.encodes.no_comma c ((List.dropWhile_suffix isntQuote).subset hc)
    · rw [List.mem_singleton.1 hc]
      decide
  rw [extractRest_turn (by rw [hblank]; simp), hblank, hkeyDrop, hkeyTake, pairRest_quoted, hvalDrop,
    hvalTake, htail]
  cases hopen : p.text.dropWhile isntQuote with
  | nil => rfl
  | cons c after =>
    rw [hopen] at hcommas
    have hafter : after ++ 0x27 :: rest = after ++ [0x27] ++ rest := by simp
    have hnext := nextPair_append (x := after ++ [0x27])
      (fun c hc => hcommas c (List.mem_cons_of_mem _ hc)) rest
    dsimp only [List.cons_append]
    rw [hafter, hnext]

/-- Reading a whole body: the first pair with the key decides. -/
theorem extractRest_commentBody (ps : List KeyValue) {trail : CString}
    (htrail : ∀ c ∈ trail, isBlank c = true) :
    extractRest outlen (commentBody ps ++ trail) =
      (traceparentPair ps).elim none fun p => decodeRest outlen (p.text.takeWhile isntQuote) [] := by
  have hblank : nextPair trail = [] := by
    have hnone : ∀ c ∈ trail, isntComma c = true := by
      intro c hc
      have hc := htrail c hc
      simp only [isBlank, decide_eq_true_eq] at hc
      rcases hc with rfl | rfl <;> decide
    have hnil := nextPair_append hnone []
    rwa [List.append_nil] at hnil
  induction ps with
  | nil =>
    rw [commentBody, List.nil_append, extractRest_blank (List.dropWhile_eq_nil_iff.2 htrail)]
    rfl
  | cons p ps ih =>
    have hbody : ∃ rest, commentBody (p :: ps) ++ trail = p.written ++ rest ∧
        extractRest outlen (nextPair rest) =
          (traceparentPair ps).elim none fun p =>
            decodeRest outlen (p.text.takeWhile isntQuote) [] := by
      cases ps with
      | nil => exact ⟨trail, rfl, by rw [hblank, extractRest_nil]; rfl⟩
      | cons q ps =>
        refine ⟨0x2c :: (commentBody (q :: ps) ++ trail), by simp [commentBody], ?_⟩
        rw [← ih]
        rfl
    obtain ⟨rest, hrest, hnext⟩ := hbody
    rw [hrest, extractRest_pair, hnext]
    unfold traceparentPair
    rw [List.find?_cons]
    by_cases hkey : p.key = traceparentKey <;> simp [hkey]

/-! ## What is extracted -/

/-- The scan of a body that holds the pairs, into the buffer of the one caller. -/
def extracted (ps : List KeyValue) : ScanM CString :=
  extractTraceparentFromComment (commentBody ps) (commentBody ps).length (otelTraceparentLen + 1)

/-- The scanned value is extracted if it fits into the buffer; blanks at the end do not matter. -/
theorem extractTraceparentFromComment_commentBody (ps : List KeyValue) {trail : CString}
    (htrail : ∀ c ∈ trail, isBlank c = true) :
    extractTraceparentFromComment (commentBody ps ++ trail) (commentBody ps ++ trail).length
      (otelTraceparentLen + 1) = orRefused ((traceparentPair ps).bind fun p =>
        if (scannedValue p.value).length ≤ otelTraceparentLen then some (scannedValue p.value)
        else none) := by
  rw [extractTraceparentFromComment_eq _ (Nat.succ_pos _), extractRest_commentBody ps htrail]
  cases traceparentPair ps with
  | none => rfl
  | some p =>
    have hdecode : decodeRest (otelTraceparentLen + 1) (p.text.takeWhile isntQuote) [] = _ :=
      decodeRest_scanned p.encodes (Nat.succ_pos _)
    simp only [Option.elim_some, Option.bind_some, hdecode, List.length_nil, Nat.zero_add,
      Nat.lt_succ_iff, List.nil_append]

theorem extracted_eq (ps : List KeyValue) :
    extracted ps = orRefused ((traceparentPair ps).bind fun p =>
      if (scannedValue p.value).length ≤ otelTraceparentLen then some (scannedValue p.value)
      else none) := by
  have hbody := @extractTraceparentFromComment_commentBody ps [] fun c hc =>
    absurd hc List.not_mem_nil
  rwa [List.append_nil] at hbody

/-- The extraction undoes the encoding: it gives the value of the first `traceparent` if that is at
most 55 bytes long and has no quote, and fails if there is none or it is longer. -/
def UndoesEncoding (ps : List KeyValue) : Prop :=
  match traceparentPair ps with
  | none => extracted ps = .error .refused
  | some p =>
    (p.value.length ≤ otelTraceparentLen → 0x27 ∉ p.value → extracted ps = .ok p.value) ∧
      (otelTraceparentLen < p.value.length → extracted ps = .error .refused)

/-- The first `traceparent` is too long, and a quote stands where the buffer still has room. -/
def CutByQuote (ps : List KeyValue) : Prop :=
  ∃ p ∈ traceparentPair ps, otelTraceparentLen < p.value.length ∧
    0x27 ∈ p.value.take otelTraceparentLen

theorem takeWhile_length_lt_iff {value : CString} {n : ℕ} (hn : n ≤ value.length) :
    (value.takeWhile isntQuote).length < n ↔ 0x27 ∈ value.take n := by
  induction value generalizing n with
  | nil => simp at hn; simp [hn]
  | cons c value ih =>
    cases n with
    | zero => simp
    | succ n =>
      by_cases hc : c = 0x27
      · simp [hc, isntQuote]
      · have hn : n ≤ value.length := by simpa using hn
        rw [List.takeWhile_cons_of_pos (by simp [isntQuote, hc]), List.take_succ_cons, List.mem_cons,
          List.length_cons, Nat.succ_lt_succ_iff, ih hn]
        simp [Ne.symm hc]

/-- A value that is too long is taken for one that is not, just when a quote cuts it short. -/
theorem scannedValue_length_le_iff {value : CString} (h : otelTraceparentLen < value.length) :
    (scannedValue value).length ≤ otelTraceparentLen ↔ 0x27 ∈ value.take otelTraceparentLen := by
  rw [← takeWhile_length_lt_iff h.le]
  unfold scannedValue
  by_cases hquote : 0x27 ∈ value
  · rw [if_pos hquote, List.length_append, List.length_singleton]
    exact Nat.succ_le_iff
  · have hall : value.takeWhile isntQuote = value := by
      have hscanned := scannedValue_of_notMem hquote
      rwa [scannedValue, if_neg hquote, List.append_nil] at hscanned
    rw [if_neg hquote, List.append_nil, hall]
    omega

theorem undoesEncoding_iff (ps : List KeyValue) : UndoesEncoding ps ↔ ¬ CutByQuote ps := by
  have hextracted := extracted_eq ps
  unfold UndoesEncoding CutByQuote
  cases hpair : traceparentPair ps with
  | none =>
    rw [hpair] at hextracted
    simpa [orRefused] using hextracted
  | some p =>
    rw [hpair, Option.bind_some] at hextracted
    dsimp only
    constructor
    · rintro ⟨-, hlong⟩ ⟨_, hp, hlen, hquote⟩
      obtain rfl := Option.some.inj hp
      rw [if_pos ((scannedValue_length_le_iff hlen).2 hquote), hlong hlen] at hextracted
      cases hextracted
    · intro hcut
      refine ⟨fun hlen hquote => ?_, fun hlen => ?_⟩
      · rw [hextracted, scannedValue_of_notMem hquote, if_pos hlen]
        rfl
      · have hfits : ¬ (scannedValue p.value).length ≤ otelTraceparentLen := fun hfits =>
          hcut ⟨p, rfl, hlen, (scannedValue_length_le_iff hlen).1 hfits⟩
        rw [hextracted, if_neg hfits]
        rfl

/-- The extraction undoes the encoding for just the bodies where no quote cuts a value short that is
too long; and over any bytes it ends, stays in the body and writes no more than its output holds. -/
theorem extraction_undoes_encoding (ps : List KeyValue) (body : CString) (outlen : ℕ) :
    (UndoesEncoding ps ↔ ¬ CutByQuote ps) ∧
    (0 < outlen →
      extractTraceparentFromComment body body.length outlen ≠ .error .running ∧
      extractTraceparentFromComment body body.length outlen ≠ .error .outside ∧
      extractTraceparentFromComment body body.length outlen ≠ .error .overflow) := by
  refine ⟨undoesEncoding_iff ps, fun hout => ?_⟩
  rw [extractTraceparentFromComment_eq body hout]
  cases extractRest outlen body <;> simp [orRefused]

theorem blank_nil : ∀ c ∈ ([] : CString), isBlank c = true := by simp

/-- A `traceparent` with no blanks before it. -/
def KeyValue.traceparent (value text : CString) (encodes : Encodes value text) : KeyValue where
  blanks := []
  key := traceparentKey
  value := value
  text := text
  blanks_blank := blank_nil
  key_bytes := List.all_eq_true.1 (by decide)
  key_start := by
    rintro c ⟨⟩
    decide
  encodes := encodes

theorem encodes_quotes (n : ℕ) :
    Encodes (List.replicate n 0x27) (List.replicate n [0x5c, 0x27]).flatten := by
  induction n with
  | zero => exact .nil
  | succ n ih => exact ih.quote

/-- Text without a comma, a percent sign and a quote stands for itself. -/
theorem encodes_self {value : CString}
    (h : (value.all fun c => decide (c ≠ 0x2c ∧ c ≠ 0x25 ∧ c ≠ 0x27)) = true) :
    Encodes value value := by
  induction value with
  | nil => exact .nil
  | cons c value ih =>
    rw [List.all_cons, Bool.and_eq_true, decide_eq_true_eq] at h
    obtain ⟨⟨hcomma, hpercent, hquote⟩, hrest⟩ := h
    exact .raw hcomma hpercent hquote (ih hrest)

/-- A value of fifty-five bytes, of which the first is percent-encoded. -/
def encodedValue : CString := cstr "00-11111111111111111111111111111111-2222222222222222-01"

theorem encodes_encodedValue : Encodes encodedValue (cstr "%30" ++ encodedValue.tail) :=
  have hrest : Encodes encodedValue.tail encodedValue.tail := encodes_self (by decide)
  .percent (show percentByte 0x33 0x30 = some 0x30 by decide) (by decide) hrest

def encodedPair : KeyValue :=
  .traceparent encodedValue (cstr "%30" ++ encodedValue.tail) encodes_encodedValue

/-- Another key, with a quote in its value. -/
def quotedApp : KeyValue where
  blanks := cstr " "
  key := cstr "app"
  value := [0x61, 0x27, 0x62]
  text := [0x61, 0x5c, 0x27, 0x62]
  blanks_blank := List.all_eq_true.1 (by decide)
  key_bytes := List.all_eq_true.1 (by decide)
  key_start := by
    rintro c ⟨⟩
    decide
  encodes := .raw (by decide) (by decide) (by decide)
    (.quote (.raw (by decide) (by decide) (by decide) .nil))

/-- Fifty-six quotes. -/
def quotedPair : KeyValue :=
  .traceparent (List.replicate 56 0x27) (List.replicate 56 [0x5c, 0x27]).flatten (encodes_quotes 56)

/-- After another pair a whole value is decoded.  Over fifty-six quotes the scan stays in the body. -/
theorem extraction_undoes_encoding_quotedPair :
    extracted [quotedApp, encodedPair] = .ok encodedValue ∧
    extractTraceparentFromComment (commentBody [quotedPair]) (commentBody [quotedPair]).length
      (otelTraceparentLen + 1) ≠ .error .outside := by
  have hwhole : UndoesEncoding [quotedApp, encodedPair] := by
    refine (extraction_undoes_encoding [quotedApp, encodedPair] [] 0).1.2 ?_
    rintro ⟨p, hp, hlong, -⟩
    obtain rfl : encodedPair = p := Option.some.inj hp
    exact absurd hlong (by decide)
  refine ⟨?_, ((extraction_undoes_encoding [quotedPair] _ _).2 (by decide)).2.1⟩
  have hpair : traceparentPair [quotedApp, encodedPair] = some encodedPair := rfl
  unfold UndoesEncoding at hwhole
  rw [hpair] at hwhole
  exact hwhole.1 (by decide) (by decide)

/-- They are taken for a backslash. -/
theorem quoted_pair_is_cut :
    extracted [quotedPair] = .ok [0x5c] ∧ ¬ UndoesEncoding [quotedPair] := by
  have hcut : extracted [quotedPair] = .ok [0x5c] := by decide +kernel
  refine ⟨hcut, fun h => ?_⟩
  have hrefused := h.2 (show otelTraceparentLen < (List.replicate 56 (0x27 : UInt8)).length by decide)
  rw [hcut] at hrefused
  cases hrefused

end PostgresOtel
