import PostgresOtel.Context.Request
import PostgresOtel.Lib.Scan

/-!
# Trace context in SQL comments

The part of `otel.c` that takes a trace context from a comment at the start or the end of a query's
text.  A pointer into the text is its offset, and the two-character markers are written as their
bytes: `/` is 0x2f, `*` 0x2a, `,` 0x2c, `=` 0x3d, `'` 0x27 and `%` 0x25.
-/

set_option autoImplicit false

namespace PostgresOtel

open Scan

/-! ## Finding the comment -/

/-- `OTEL_SQLCOMMENTER_SCAN_BUDGET`. -/
def otelSqlcommenterScanBudget : ℕ := 4096

/-- What may stand before a leading comment. -/
def isSpace (c : UInt8) : Bool := c = 0x20 ∨ c = 0x09 ∨ c = 0x0a ∨ c = 0x0d

/-- What may stand after a trailing comment. -/
def isTrailer (c : UInt8) : Bool := isSpace c ∨ c = 0x3b

/-- `a - b` in a `size_t`. -/
def sizeSub (a b : ℕ) : ℕ := (a + 2 ^ 64 - b) % 2 ^ 64

/-- `memmem` of two bytes. -/
def memmemPair (a b : UInt8) : CString → Option ℕ
  | x :: y :: rest =>
    if x = a ∧ y = b then some 0 else (memmemPair a b (y :: rest)).map (· + 1)
  | _ => none

/-- Two bytes of the text are `a` and `b`. -/
def pairAt (sql : CString) (i : ℕ) (a b : UInt8) : Prop := sql[i]? = some a ∧ sql[i + 1]? = some b

instance (sql : CString) (i : ℕ) (a b : UInt8) : Decidable (pairAt sql i a b) :=
  inferInstanceAs (Decidable (_ ∧ _))

/-- The comment at the start, as where its inside starts and how long it is. -/
def leadingComment (sql : CString) : Option (ℕ × ℕ) :=
  let i := (sql.takeWhile isSpace).length
  if i + 4 ≤ sql.length ∧ pairAt sql i 0x2f 0x2a then
    (memmemPair 0x2a 0x2f (sql.drop (i + 2))).map fun n => (i + 2, n)
  else none

/-- The loop that goes back from `i` to the nearest opening marker above `floor`. -/
def findOpening (sql : CString) (floor : ℕ) : ℕ → Option ℕ
  | 0 => none
  | i + 1 =>
    if floor < i + 1 then
      if pairAt sql i 0x2f 0x2a then some (i + 1) else findOpening sql floor i
    else none

/-- Where the text ends without its trailers. -/
def textEnd (sql : CString) : ℕ := sql.length - (sql.reverse.takeWhile isTrailer).length

/-- The comment at the end. -/
def trailingComment (sql : CString) : Option (ℕ × ℕ) :=
  let last := textEnd sql
  if 4 ≤ last ∧ pairAt sql (last - 2) 0x2a 0x2f then
    let floor := if otelSqlcommenterScanBudget < last then last - otelSqlcommenterScanBudget else 0
    (findOpening sql floor (last - 2)).map fun i => (i + 1, sizeSub (last - 2) (i + 1))
  else none

/-- `find_block_comment`. -/
def findBlockComment (sql : CString) : Option (ℕ × ℕ) :=
  match leadingComment sql with
  | some comment => some comment
  | none => trailingComment sql

/-! ## Reading its pairs -/

/-- The value of a hex digit of an escape. -/
def percentDigit (c : UInt8) : Option UInt8 :=
  if 0x30 ≤ c ∧ c ≤ 0x39 then some (c - 0x30)
  else if 0x61 ≤ c ∧ c ≤ 0x66 then some (c - 0x61 + 10)
  else if 0x41 ≤ c ∧ c ≤ 0x46 then some (c - 0x41 + 10)
  else none

/-- The byte two hex digits stand for. -/
def percentByte (hi lo : UInt8) : Option UInt8 := do
  let hi ← percentDigit hi
  let lo ← percentDigit lo
  return (hi <<< 4) ||| lo

/-- `decode_percent_escape`; none where it returns `0`. -/
def decodePercentEscape (body : CString) (p remaining : ℕ) : ScanM (Option UInt8) :=
  if remaining < 3 then return none
  else do
    let hi ← byteAt body (p + 1)
    let lo ← byteAt body (p + 2)
    return percentByte hi lo

/-- The decoding loop of `extract_traceparent_from_comment`. -/
def decodeLoop (body : CString) (valStart valLen outlen : ℕ) : ℕ → ℕ → CString → ScanM CString
  | 0, _, _ => .error .running
  | fuel + 1, i, out =>
    if i < valLen then
      if outlen ≤ out.length + 1 then .error .refused
      else do
        let c ← byteAt body (valStart + i)
        if c = 0x25 then
          let byte ← decodePercentEscape body (valStart + i) (valLen - i)
          match byte with
          | none => .error .refused
          | some byte =>
            let out ← putByte outlen out byte
            decodeLoop body valStart valLen outlen fuel (i + 3) out
        else
          let out ← putByte outlen out c
          decodeLoop body valStart valLen outlen fuel (i + 1) out
    else do
      -- the terminating NUL
      let _ ← putByte outlen out 0
      return out

def isBlank (c : UInt8) : Bool := c = 0x20 ∨ c = 0x09

def isKeyByte (c : UInt8) : Bool := c ≠ 0x3d ∧ c ≠ 0x2c

def isntQuote (c : UInt8) : Bool := c ≠ 0x27

def isntComma (c : UInt8) : Bool := c ≠ 0x2c

def traceparentKey : CString := cstr "traceparent"

/-- Skip to the next comma and eat it. -/
def skipPair (body : CString) (last p : ℕ) : ScanM ℕ := do
  let p ← skipWhile body isntComma (last - p) p
  return if p < last then p + 1 else p

/-- The main loop of `extract_traceparent_from_comment`. -/
def extractLoop (body : CString) (last outlen : ℕ) : ℕ → ℕ → ScanM CString
  | 0, _ => .error .running
  | fuel + 1, p =>
    if p < last then do
      let p ← skipWhile body isBlank (last - p) p
      if last ≤ p then .error .refused
      else
        let keyStart := p
        let p ← skipWhile body isKeyByte (last - p) p
        let matched := decide ((body.drop keyStart).take (p - keyStart) = traceparentKey)
        let hasValue ← byteIs body last p 0x3d
        if !hasValue then
          let p ← skipPair body last p
          extractLoop body last outlen fuel p
        else
          let p := p + 1
          let quoted ← byteIs body last p 0x27
          if !quoted then .error .refused
          else
            let valStart := p + 1
            let p ← skipWhile body isntQuote (last - valStart) valStart
            let valLen := p - valStart
            if last ≤ p then .error .refused
            else if matched then decodeLoop body valStart valLen outlen (valLen + 1) 0 []
            else
              let p ← skipPair body last (p + 1)
              extractLoop body last outlen fuel p
    else .error .refused

/-- `extract_traceparent_from_comment`: the bytes written to the output before its NUL. -/
def extractTraceparentFromComment (body : CString) (bodylen outlen : ℕ) : ScanM CString :=
  extractLoop body bodylen outlen (bodylen + 1) 0

/-! ## Applying it -/

/-- The context that a text's comment carries. -/
def commentContext (sql : CString) : Option OtelSpanContext :=
  match findBlockComment sql with
  | none => none
  | some (start, len) =>
    match extractTraceparentFromComment ((sql.drop start).take len) len (otelTraceparentLen + 1) with
    | .error _ => none
    | .ok raw => otelTraceparentParse (raw.takeWhile (· ≠ 0))

end PostgresOtel
