import Mathlib.Data.List.TakeWhile
import PostgresOtel.Context.Traceparent
import PostgresOtel.Lib.Exec

/-!
# The binary codec of span contexts

`otel_span_context_send` and `otel_span_context_recv` of `otel_types.h`.  The `pqformat` functions they
call are core's and stand as parameters, with what is documented of them as hypotheses.  A message is
its bytes and the cursor; it also records the offsets whose bytes have been examined.  The receiver is
compared with a decoding of the record cut out of the message (`decodeRecord`).
-/

set_option autoImplicit false

namespace PostgresOtel

open Exec

/-! ## Messages -/

/-- A `StringInfo` that is read.  Its length is an `int`. -/
structure Msg where
  data : List UInt8
  cursor : ℕ
  examined : List ℕ := []
  fits : data.length < 2 ^ 31

inductive RecvError
  /-- `ERRCODE_PROTOCOL_VIOLATION`. -/
  | protocolViolation
  /-- A length went negative or did not fit its `int`. -/
  | badLength
  deriving DecidableEq

abbrev Recv (α : Type) := EStateM RecvError Msg α

/-- `n` bytes of the message from `i` after the cursor on. -/
def Msg.slice (m : Msg) (i n : ℕ) : List UInt8 := (m.data.drop (m.cursor + i)).take n

/-- What `m'` has consumed since `m`: `n` bytes that were there, and it has examined no others. -/
structure Takes (m : Msg) (n : ℕ) (m' : Msg) : Prop where
  data : m'.data = m.data
  cursor : m'.cursor = m.cursor + n
  le : m.cursor + n ≤ m.data.length
  examined : ∀ i ∈ m'.examined, i ∈ m.examined ∨ (m.cursor ≤ i ∧ i < m.cursor + n)

/-- The call gave up because the message does not have `n` more bytes. -/
structure Lacks (m : Msg) (n : ℕ) (e : RecvError) (m' : Msg) : Prop where
  error : e = .protocolViolation
  lt : m.data.length < m.cursor + n
  examined : ∀ i ∈ m'.examined, i ∈ m.examined

/-- The functions of core that the codec calls. -/
structure PqFormat where
  getMsgByte : Recv UInt8
  getMsgInt : ℕ → Recv ℕ
  getMsgBytes : ℤ → Recv Unit
  copyMsgBytes : ℤ → Recv (List UInt8)
  palloc : ℤ → Recv Unit
  sendInt8 : List UInt8 → UInt8 → List UInt8
  sendInt16 : List UInt8 → UInt16 → List UInt8
  sendBytes : List UInt8 → List UInt8 → List UInt8

/-- What is documented of them: a read that finds too little data raises a protocol violation, one
that finds enough moves the cursor; a send appends, in network byte order. -/
structure PqFormat.Documented (pq : PqFormat) : Prop where
  getMsgByte : ∀ m, Wp pq.getMsgByte (fun b m' => Takes m 1 m' ∧ m.slice 0 1 = [b]) (Lacks m 1) m
  getMsgInt : ∀ m, Wp (pq.getMsgInt 2) (fun x m' => Takes m 2 m' ∧ x = ofBytes (m.slice 0 2))
    (Lacks m 2) m
  getMsgBytes : ∀ (m : Msg) (n : ℕ), Wp (pq.getMsgBytes n) (fun _ m' => Takes m n m') (Lacks m n) m
  copyMsgBytes : ∀ (m : Msg) (n : ℕ), Wp (pq.copyMsgBytes n)
    (fun bytes m' => Takes m n m' ∧ bytes = m.slice 0 n) (Lacks m n) m
  palloc : ∀ (m : Msg) (n : ℕ), Wp (pq.palloc n) (fun _ m' => m' = m) (fun _ _ => False) m
  sendInt8 : ∀ buf b, pq.sendInt8 buf b = buf ++ [b]
  sendInt16 : ∀ buf i, pq.sendInt16 buf i = buf ++ toBytes 2 i.toNat
  sendBytes : ∀ buf bytes, pq.sendBytes buf bytes = buf ++ bytes

/-! ## The codec -/

/-- `OTEL_SPAN_CONTEXT_WIRE_V1`. -/
def otelSpanContextWireV1 : UInt8 := 1

/-- `OTEL_TRACESTATE_MAX_LEN`. -/
def otelTracestateMaxLen : ℕ := 512

/-- The fields every record of this version has: the ids, the flags and the tracestate's length. -/
def fixedFieldBytes : ℕ := otelTraceIdBytes + otelSpanIdBytes + 1 + 2

/-- The tracestate bytes that are sent: none if there are too many. -/
def sentTracestate (ctx : OtelSpanContext) : CString :=
  let ts := ctx.tracestate.getD []
  if otelTracestateMaxLen < ts.length then [] else ts

/-- `otel_span_context_send`. -/
def otelSpanContextSend (pq : PqFormat) (buf : List UInt8) (ctx : OtelSpanContext) : List UInt8 :=
  let ts := sentTracestate ctx
  let buf := pq.sendInt8 buf otelSpanContextWireV1
  let buf := pq.sendInt16 buf (UInt16.ofNat (fixedFieldBytes + ts.length))
  let buf := pq.sendBytes buf (toBytes otelTraceIdBytes ctx.traceId.toNat)
  let buf := pq.sendBytes buf (toBytes otelSpanIdBytes ctx.spanId.toNat)
  let buf := pq.sendInt8 buf (UInt8.ofBitVec ctx.traceFlags)
  let buf := pq.sendInt16 buf (UInt16.ofNat ts.length)
  if 0 < ts.length then pq.sendBytes buf ts else buf

/-- A length as the `int` it is computed in, which goes to `INT_MAX`. -/
@[irreducible] def intLength (x : ℤ) : Recv ℤ := if 0 ≤ x ∧ x ≤ 2147483647 then return x else throw .badLength

/-- `buf->cursor - start`. -/
def recordConsumed (start : ℕ) : Recv ℤ := do
  let m ← get
  intLength ((m.cursor : ℤ) - start)

/-- `reclen - (buf->cursor - start)`. -/
def recordLeft (reclen start : ℕ) : Recv ℤ := do
  let consumed ← recordConsumed start
  intLength (reclen - consumed)

/-- The tracestate: the copy ends at the first NUL. -/
def recvTracestate (pq : PqFormat) (tslen : ℕ) : Recv (Option CString) :=
  if 0 < tslen then do
    let size ← intLength (tslen + 1)
    pq.palloc size
    let ts ← pq.copyMsgBytes tslen
    return some (ts.takeWhile (· ≠ 0))
  else return none

/-- Skip the fields a newer writer has appended. -/
def skipAppended (pq : PqFormat) (reclen start : ℕ) : Recv Unit := do
  let consumed ← recordConsumed start
  if consumed < reclen then
    let left ← recordLeft reclen start
    pq.getMsgBytes left
  else return ()

/-- The fields of a record of this version. -/
def recvFields (pq : PqFormat) (reclen start : ℕ) : Recv (Bool × OtelSpanContext) := do
  let traceId ← pq.copyMsgBytes otelTraceIdBytes
  let spanId ← pq.copyMsgBytes otelSpanIdBytes
  let traceFlags ← pq.getMsgByte
  let tslen ← pq.getMsgInt 2
  let left ← recordLeft reclen start
  if left < tslen then
    -- tracestate claims to run past the record
    let left ← recordLeft reclen start
    pq.getMsgBytes left
    return (false, {})
  else
    let tracestate ← recvTracestate pq tslen
    let ctx : OtelSpanContext :=
      { contextOfBytes traceId spanId [traceFlags] with tracestate := tracestate }
    skipAppended pq reclen start
    return (otelSpanContextIsValid ctx, ctx)

/-- `otel_span_context_recv`. -/
def otelSpanContextRecv (pq : PqFormat) : Recv (Bool × OtelSpanContext) := do
  let version ← pq.getMsgByte
  let reclen ← pq.getMsgInt 2
  let m ← get
  if version ≠ otelSpanContextWireV1 ∨ reclen < fixedFieldBytes then
    pq.getMsgBytes reclen
    return (false, {})
  else recvFields pq reclen m.cursor

/-! ## What a record says -/

/-- The record length the header announces. -/
def Msg.announced (m : Msg) : ℕ := ofBytes (m.slice 1 2)

/-- The record, which the message may hold only a part of. -/
def Msg.record (m : Msg) : List UInt8 := m.slice 3 m.announced

/-- The message is shorter than its header, or than what the header announces. -/
def Msg.Short (m : Msg) : Prop := m.data.length < m.cursor + 3 + m.announced

/-- The context a record of this version spells, if its tracestate is inside it. -/
def decodeFields (record : List UInt8) : OtelSpanContext :=
  let ts := (record.drop fixedFieldBytes).take (ofBytes ((record.drop 25).take 2))
  { contextOfBytes (record.take otelTraceIdBytes) ((record.drop 16).take otelSpanIdBytes)
      ((record.drop 24).take 1) with
    tracestate := if ts = [] then none else some (ts.takeWhile (· ≠ 0)) }

def decodeRecord (version : List UInt8) (record : List UInt8) : Bool × OtelSpanContext :=
  if version ≠ [otelSpanContextWireV1] ∨ record.length < fixedFieldBytes ∨
    record.length < fixedFieldBytes + ofBytes ((record.drop 25).take 2) then (false, {})
  else (otelSpanContextIsValid (decodeFields record), decodeFields record)

/-! ## Rules for reads -/

theorem Takes.trans {m m' m'' : Msg} {n n' : ℕ} (h : Takes m n m') (h' : Takes m' n' m'') :
    Takes m (n + n') m'' where
  data := h'.data.trans h.data
  cursor := by rw [h'.cursor, h.cursor, Nat.add_assoc]
  le := by
    have hle := h'.le
    rw [h.cursor, h.data] at hle
    omega
  examined i hi := by
    have hcursor := h.cursor
    rcases h'.examined i hi with hi | hi
    · refine (h.examined i hi).imp_right fun hi => ?_
      omega
    · right
      omega

/-- Bytes after some that were consumed. -/
theorem Takes.slice {m m' : Msg} {k : ℕ} (h : Takes m k m') (i n : ℕ) :
    m'.slice i n = m.slice (k + i) n := by
  unfold Msg.slice
  rw [h.data, h.cursor, Nat.add_assoc]

theorem length_slice {m : Msg} {i n : ℕ} (h : m.cursor + i + n ≤ m.data.length) :
    (m.slice i n).length = n := by
  unfold Msg.slice
  rw [List.length_take, List.length_drop]
  omega

/-- A slice of a slice. -/
theorem slice_record {m : Msg} {i n : ℕ} (h : i + n ≤ m.announced) :
    (m.record.drop i).take n = m.slice (3 + i) n := by
  unfold Msg.record Msg.slice
  rw [List.drop_take, List.take_take, List.drop_drop, Nat.min_eq_left (by omega), Nat.add_assoc]

/-! ## The functions as core has them -/

/-- Consume `n` bytes, and examine them. -/
def takeBytes (n : ℕ) : Recv (List UInt8) := do
  let m ← get
  if m.data.length < m.cursor + n then throw .protocolViolation
  else
    set { m with cursor := m.cursor + n, examined := List.range' m.cursor n ++ m.examined }
    return m.slice 0 n

def corePqFormat : PqFormat where
  getMsgByte := do return (← takeBytes 1).headD 0
  getMsgInt n := do return ofBytes (← takeBytes n)
  getMsgBytes n := do
    let m ← get
    if n < 0 ∨ m.data.length - m.cursor < n then throw .protocolViolation
    else set { m with cursor := m.cursor + n.toNat }
  copyMsgBytes n := if n < 0 then throw .protocolViolation else takeBytes n.toNat
  palloc _ := return ()
  sendInt8 buf b := buf ++ [b]
  sendInt16 buf i := buf ++ toBytes 2 i.toNat
  sendBytes buf bytes := buf ++ bytes

theorem wp_takeBytes (m : Msg) (n : ℕ) :
    Wp (takeBytes n) (fun bytes m' => Takes m n m' ∧ bytes = m.slice 0 n) (Lacks m n) m := by
  unfold takeBytes
  rw [wp_bind, wp_get, wp_ite]
  refine ⟨fun hlt => ⟨rfl, hlt, fun _ hi => hi⟩, fun hge => ⟨⟨rfl, rfl, by omega, fun i hi => ?_⟩, rfl⟩⟩
  rcases List.mem_append.1 hi with hi | hi
  · rw [List.mem_range'_1] at hi
    exact .inr hi
  · exact .inl hi

theorem corePqFormat_documented : corePqFormat.Documented where
  getMsgByte m := by
    change Wp (takeBytes 1 >>= fun bytes => pure (bytes.headD 0)) _ _ m
    rw [wp_bind]
    refine (wp_takeBytes m 1).mono (fun bytes m' h => ⟨h.1, ?_⟩) fun _ _ he => he
    have hlen := length_slice (m := m) (i := 0) (n := 1) (by have hle := h.1.le; omega)
    rw [h.2]
    match hs : m.slice 0 1, hlen with
    | [b], _ => rfl
  getMsgInt m := by
    change Wp (takeBytes 2 >>= fun bytes => pure (ofBytes bytes)) _ _ m
    rw [wp_bind]
    exact (wp_takeBytes m 2).mono (fun bytes m' h => ⟨h.1, congrArg ofBytes h.2⟩) fun _ _ he => he
  getMsgBytes m n := by
    unfold corePqFormat
    rw [wp_bind, wp_get, wp_ite]
    refine ⟨fun hlacks => ⟨rfl, by omega, fun _ hi => hi⟩, fun hthere => ?_⟩
    exact ⟨rfl, rfl, by omega, fun _ hi => .inl hi⟩
  copyMsgBytes m n := by
    have hnonneg : ¬ (n : ℤ) < 0 := by omega
    unfold corePqFormat
    dsimp only
    rw [if_neg hnonneg]
    exact wp_takeBytes m n
  palloc m n := rfl
  sendInt8 _ _ := rfl
  sendInt16 _ _ := rfl
  sendBytes _ _ := rfl

/-! ## Lengths -/

theorem wp_intLength {x : ℤ} {Q : ℤ → Msg → Prop} {E : RecvError → Msg → Prop} {m : Msg}
    (hx : 0 ≤ x ∧ x ≤ 2147483647) (h : Q x m) : Wp (intLength x) Q E m := by
  unfold intLength
  rw [if_pos hx]
  exact h

theorem wp_recordConsumed {start : ℕ} {Q : ℤ → Msg → Prop} {E : RecvError → Msg → Prop} {m : Msg}
    {k : ℕ} (hk : m.cursor = start + k) (hlt : k < 2147483648) (h : Q k m) :
    Wp (recordConsumed start) Q E m := by
  unfold recordConsumed
  rw [wp_bind, wp_get]
  have hx : ((m.cursor : ℤ) - start) = k := by omega
  rw [hx]
  exact wp_intLength (by omega) h

theorem wp_recordLeft {reclen start : ℕ} {Q : ℤ → Msg → Prop} {E : RecvError → Msg → Prop} {m : Msg}
    {k : ℕ} (hk : m.cursor = start + k) (hle : k ≤ reclen) (hlt : reclen < 2147483648)
    (h : Q (reclen - k : ℕ) m) : Wp (recordLeft reclen start) Q E m := by
  unfold recordLeft
  rw [wp_bind]
  refine wp_recordConsumed hk (by omega) ?_
  have hx : ((reclen : ℤ) - (k : ℕ)) = (reclen - k : ℕ) := by omega
  rw [hx]
  exact wp_intLength (by omega) h

/-- The call raised a protocol violation, which the message's length justifies. -/
structure Raised (m : Msg) (e : RecvError) (m' : Msg) : Prop where
  error : e = .protocolViolation
  short : m.Short
  examined : ∀ i ∈ m'.examined, i ∈ m.examined ∨ (m.cursor ≤ i ∧ i < m.data.length)

section Receiving

variable {pq : PqFormat} {m m' : Msg} {k n : ℕ}

/-- A read inside the record fails only on a short message. -/
theorem Takes.raised {e : RecvError} {m'' : Msg} (h : Takes m k m') (hn : k + n ≤ 3 + m.announced)
    (hlacks : Lacks m' n e m'') : Raised m e m'' where
  error := hlacks.error
  short := by
    have hlt := hlacks.lt
    rw [h.data, h.cursor] at hlt
    unfold Msg.Short
    omega
  examined i hi := by
    have hle := h.le
    refine (h.examined i (hlacks.examined i hi)).imp_right fun hi => ?_
    omega

theorem Takes.wp_getMsgByte (hpq : pq.Documented) (h : Takes m k m') (hn : k + 1 ≤ 3 + m.announced) :
    Wp pq.getMsgByte (fun b m'' => Takes m (k + 1) m'' ∧ m.slice k 1 = [b]) (Raised m) m' := by
  refine (hpq.getMsgByte m').mono (fun b m'' hb => ⟨h.trans hb.1, ?_⟩) fun _ _ => h.raised hn
  rw [← hb.2, h.slice, Nat.add_zero]

theorem Takes.wp_getMsgInt (hpq : pq.Documented) (h : Takes m k m') (hn : k + 2 ≤ 3 + m.announced) :
    Wp (pq.getMsgInt 2) (fun x m'' => Takes m (k + 2) m'' ∧ x = ofBytes (m.slice k 2)) (Raised m)
      m' := by
  refine (hpq.getMsgInt m').mono (fun x m'' hx => ⟨h.trans hx.1, ?_⟩) fun _ _ => h.raised hn
  rw [hx.2, h.slice, Nat.add_zero]

theorem Takes.wp_getMsgBytes (hpq : pq.Documented) (h : Takes m k m')
    (hn : k + n ≤ 3 + m.announced) :
    Wp (pq.getMsgBytes n) (fun _ m'' => Takes m (k + n) m'') (Raised m) m' :=
  (hpq.getMsgBytes m' n).mono (fun _ _ hm'' => h.trans hm'') fun _ _ => h.raised hn

theorem Takes.wp_copyMsgBytes (hpq : pq.Documented) (h : Takes m k m')
    (hn : k + n ≤ 3 + m.announced) :
    Wp (pq.copyMsgBytes n) (fun bytes m'' => Takes m (k + n) m'' ∧ bytes = m.slice k n) (Raised m)
      m' := by
  refine (hpq.copyMsgBytes m' n).mono (fun x m'' hx => ⟨h.trans hx.1, ?_⟩) fun _ _ => h.raised hn
  rw [hx.2, h.slice, Nat.add_zero]

/-! ## The receiver -/

theorem Takes.wp_recvTracestate (hpq : pq.Documented) (h : Takes m k m')
    (hn : k + n ≤ 3 + m.announced) (hlt : n < 2 ^ 16) :
    Wp (recvTracestate pq n) (fun ts m'' => Takes m (k + n) m'' ∧
      ts = if m.slice k n = [] then none else some ((m.slice k n).takeWhile (· ≠ 0))) (Raised m)
      m' := by
  unfold recvTracestate
  rcases Nat.eq_zero_or_pos n with rfl | hpos
  · rw [if_neg (Nat.lt_irrefl 0)]
    exact ⟨h, (if_pos (List.take_zero)).symm⟩
  · rw [if_pos hpos, wp_bind]
    refine wp_intLength (by omega) ?_
    rw [wp_bind]
    refine (hpq.palloc m' (n + 1)).mono (fun _ m₁ hm₁ => ?_) fun _ _ hfalse => hfalse.elim
    rw [hm₁, wp_bind]
    refine (h.wp_copyMsgBytes hpq hn).mono (fun bytes m₂ hm₂ => ?_) fun _ _ he => he
    have hle := hm₂.1.le
    have hne : m.slice k n ≠ [] := by
      intro hnil
      have hlen := length_slice (m := m) (i := k) (n := n) (by omega)
      rw [hnil, List.length_nil] at hlen
      omega
    rw [wp_pure, if_neg hne, hm₂.2]
    exact ⟨hm₂.1, rfl⟩

theorem Takes.wp_skipAppended {start reclen : ℕ} (hpq : pq.Documented) (h : Takes m (3 + k) m')
    (hstart : start = m.cursor + 3) (hreclen : reclen = m.announced) (hk : k ≤ m.announced)
    (hlt : m.announced < 2 ^ 16) :
    Wp (skipAppended pq reclen start) (fun _ m'' => Takes m (3 + m.announced) m'') (Raised m) m' := by
  have hcursor : m'.cursor = start + k := by
    rw [h.cursor]
    omega
  unfold skipAppended
  rw [wp_bind]
  refine wp_recordConsumed hcursor (by omega) ?_
  rw [wp_ite]
  refine ⟨fun _ => ?_, fun hdone => ?_⟩
  · rw [wp_bind]
    refine wp_recordLeft hcursor (by omega) (by omega) ?_
    refine (h.wp_getMsgBytes hpq (by omega)).mono (fun _ m'' hm'' => ?_) fun _ _ he => he
    rwa [show 3 + k + (reclen - k) = 3 + m.announced by omega] at hm''
  · have hall : k = m.announced := by omega
    rw [hall] at h
    exact h

/-- The record is all there once as many bytes have been consumed. -/
theorem Takes.length_record (h : Takes m (3 + m.announced) m') : m.record.length = m.announced := by
  have hle := h.le
  exact length_slice (by omega)

theorem announced_lt (m : Msg) : m.announced < 2 ^ 16 := by
  have hlen : (m.slice 1 2).length ≤ 2 := List.length_take_le _ _
  calc m.announced < 256 ^ (m.slice 1 2).length := ofBytes_lt _
    _ ≤ 256 ^ 2 := Nat.pow_le_pow_right (by decide) hlen

/-- The fields of a record, each where the record has it. -/
theorem decodeFields_record (h : fixedFieldBytes + n ≤ m.announced) (hn : n = ofBytes (m.slice 28 2)) :
    decodeFields m.record =
      { contextOfBytes (m.slice 3 16) (m.slice 19 8) (m.slice 27 1) with
        tracestate := if m.slice 30 n = [] then none
          else some ((m.slice 30 n).takeWhile (· ≠ 0)) } := by
  unfold fixedFieldBytes otelTraceIdBytes otelSpanIdBytes at h
  have htslen : (m.record.drop 25).take 2 = m.slice 28 2 := slice_record (by omega)
  have hts : (m.record.drop 27).take n = m.slice 30 n := slice_record (by omega)
  have htrace : m.record.take 16 = m.slice 3 16 := slice_record (i := 0) (by omega)
  have hspan : (m.record.drop 16).take 8 = m.slice 19 8 := slice_record (by omega)
  have hflags : (m.record.drop 24).take 1 = m.slice 27 1 := slice_record (by omega)
  unfold decodeFields
  rw [htslen, ← hn, show fixedFieldBytes = 27 from rfl, hts, show otelTraceIdBytes = 16 from rfl,
    htrace, show otelSpanIdBytes = 8 from rfl, hspan, hflags]

theorem Takes.wp_recvFields {start : ℕ} (hpq : pq.Documented) (h : Takes m 3 m')
    (hversion : m.slice 0 1 = [otelSpanContextWireV1]) (hstart : start = m.cursor + 3)
    (hfixed : fixedFieldBytes ≤ m.announced) :
    Wp (recvFields pq m.announced start)
      (fun r m'' => Takes m (3 + m.announced) m'' ∧ r = decodeRecord (m.slice 0 1) m.record)
      (Raised m) m' := by
  have hlt := announced_lt m
  unfold fixedFieldBytes otelTraceIdBytes otelSpanIdBytes at hfixed
  unfold recvFields
  rw [wp_bind]
  refine (h.wp_copyMsgBytes hpq (n := 16) (by omega)).mono (fun traceId m₁ h₁ => ?_) fun _ _ he => he
  rw [wp_bind]
  refine (h₁.1.wp_copyMsgBytes hpq (n := 8) (by omega)).mono (fun spanId m₂ h₂ => ?_) fun _ _ he => he
  rw [wp_bind]
  refine (h₂.1.wp_getMsgByte hpq (by omega)).mono (fun traceFlags m₃ h₃ => ?_) fun _ _ he => he
  rw [wp_bind]
  refine (h₃.1.wp_getMsgInt hpq (by omega)).mono (fun tslen m₄ h₄ => ?_) fun _ _ he => he
  obtain ⟨h₄, htslen⟩ := h₄
  have hcursor : m₄.cursor = start + 27 := by
    rw [h₄.cursor]
    omega
  have hrecorded : (m.record.drop 25).take 2 = m.slice 28 2 := slice_record (by omega)
  rw [wp_bind]
  refine wp_recordLeft hcursor hfixed (by omega) ?_
  rw [wp_ite]
  refine ⟨fun hpast => ?_, fun hinside => ?_⟩
  · rw [wp_bind]
    refine wp_recordLeft hcursor hfixed (by omega) ?_
    rw [wp_bind]
    refine (h₄.wp_getMsgBytes hpq (by omega)).mono (fun _ m₅ h₅ => ?_) fun _ _ he => he
    rw [show 3 + 16 + 8 + 1 + 2 + (m.announced - 27) = 3 + m.announced by omega] at h₅
    refine ⟨h₅, ?_⟩
    unfold decodeRecord
    rw [if_pos]
    rw [h₅.length_record, hrecorded, ← htslen]
    unfold fixedFieldBytes otelTraceIdBytes otelSpanIdBytes
    omega
  · rw [wp_bind]
    refine (h₄.wp_recvTracestate hpq (n := tslen) (by omega) (by omega)).mono
      (fun tracestate m₅ h₅ => ?_) fun _ _ he => he
    obtain ⟨h₅, rfl⟩ := h₅
    rw [wp_bind]
    refine (Takes.wp_skipAppended (k := 27 + tslen) hpq ?_ hstart rfl (by omega) hlt).mono
      (fun _ m₆ h₆ => ?_) fun _ _ he => he
    · rwa [show 3 + (27 + tslen) = 3 + 16 + 8 + 1 + 2 + tslen by omega]
    · have hfits : fixedFieldBytes + tslen ≤ m.announced := by
        unfold fixedFieldBytes otelTraceIdBytes otelSpanIdBytes
        omega
      have hwhole : ¬ (m.slice 0 1 ≠ [otelSpanContextWireV1] ∨ m.record.length < fixedFieldBytes ∨
          m.record.length < fixedFieldBytes + ofBytes ((m.record.drop 25).take 2)) := by
        rw [h₆.length_record, hrecorded, ← htslen]
        rintro (hne | hshort | hshort)
        · exact hne hversion
        · omega
        · omega
      refine ⟨h₆, ?_⟩
      unfold decodeRecord
      rw [if_neg hwhole, decodeFields_record hfits htslen, h₁.2, h₂.2, h₃.2]

/-- The receiver consumes the header and the record and returns what the record says, or raises the
error because the message is too short. -/
theorem otelSpanContextRecv_spec (hpq : pq.Documented) (m : Msg) :
    Wp (otelSpanContextRecv pq)
      (fun r m' => Takes m (3 + m.announced) m' ∧ r = decodeRecord (m.slice 0 1) m.record) (Raised m)
      m := by
  unfold otelSpanContextRecv
  rw [wp_bind]
  refine (hpq.getMsgByte m).mono (fun version m₁ h₁ => ?_) fun e m' he => ?_
  · obtain ⟨h₁, hversion⟩ := h₁
    rw [wp_bind]
    refine (h₁.wp_getMsgInt hpq (by omega)).mono (fun reclen m₂ h₂ => ?_) fun _ _ he => he
    obtain ⟨h₂, rfl⟩ := h₂
    rw [show ofBytes (m.slice 1 2) = m.announced from rfl, wp_bind, wp_get, wp_ite]
    refine ⟨fun hunknown => ?_, fun hknown => ?_⟩
    · rw [wp_bind]
      refine (h₂.wp_getMsgBytes hpq (by omega)).mono (fun _ m₃ h₃ => ⟨h₃, ?_⟩) fun _ _ he => he
      unfold decodeRecord
      rw [if_pos]
      rw [hversion, Takes.length_record h₃]
      rcases hunknown with hversion | hshort
      · exact .inl fun h => hversion (List.singleton_inj.1 h)
      · exact .inr (.inl hshort)
    · have hv1 : version = otelSpanContextWireV1 := by
        by_contra h
        exact hknown (.inl h)
      rw [hv1] at hversion
      exact Takes.wp_recvFields hpq h₂ hversion h₂.cursor (by omega)
  · have hlt := he.lt
    refine ⟨he.error, ?_, fun i hi => .inl (he.examined i hi)⟩
    unfold Msg.Short
    omega

end Receiving

/-- Framing on any message: the receiver consumes the header and the announced record, and examines
nothing after it, or raises the error because the message is shorter. -/
theorem otelSpanContextRecv_framing (pq : PqFormat) (hpq : pq.Documented) (m : Msg) :
    Wp (otelSpanContextRecv pq)
      (fun r m' => m'.data = m.data ∧ m'.cursor = m.cursor + 3 + m.announced ∧
        m'.cursor ≤ m.data.length ∧
        (∀ i ∈ m'.examined, i ∈ m.examined ∨ (m.cursor ≤ i ∧ i < m.cursor + 3 + m.announced)) ∧
        (r.1 = true → r.2.traceId ≠ 0 ∧ r.2.spanId ≠ 0))
      (fun e m' => e = .protocolViolation ∧ m.data.length < m.cursor + 3 + m.announced ∧
        ∀ i ∈ m'.examined, i ∈ m.examined ∨ (m.cursor ≤ i ∧ i < m.cursor + 3 + m.announced)) m := by
  refine (otelSpanContextRecv_spec hpq m).mono (fun r m' h => ?_) fun e m' he => ?_
  · obtain ⟨htakes, rfl⟩ := h
    have hle := htakes.le
    have hcursor := htakes.cursor
    refine ⟨htakes.data, by omega, by omega, fun i hi => ?_, fun hvalid => ?_⟩
    · refine (htakes.examined i hi).imp_right fun hi => ?_
      omega
    · unfold decodeRecord at hvalid ⊢
      split_ifs at hvalid ⊢ with hbad
      simpa [otelSpanContextIsValid] using hvalid
  · have hshort := he.short
    unfold Msg.Short at hshort
    refine ⟨he.error, hshort, fun i hi => (he.examined i hi).imp_right fun hi => ?_⟩
    omega

/-- A record that is cut, and a whole one of another version with something after it. -/
theorem otelSpanContextRecv_framing_cut :
    Wp (otelSpanContextRecv corePqFormat) (fun _ _ => False) (fun e _ => e = .protocolViolation)
      { data := [1, 0, 27, 0xaa], cursor := 0, fits := by decide } ∧
    Wp (otelSpanContextRecv corePqFormat) (fun _ m' => m'.cursor = 6 ∧ ∀ i ∈ m'.examined, i < 6)
      (fun _ _ => False) { data := [2, 0, 3, 0xaa, 0xbb, 0xcc, 9], cursor := 0, fits := by decide } := by
  constructor
  · exact (otelSpanContextRecv_framing corePqFormat corePqFormat_documented _).mono
      (fun _ m' h => absurd (h.2.1.symm.trans_le h.2.2.1) (by decide)) fun _ _ he => he.1
  · refine (otelSpanContextRecv_framing corePqFormat corePqFormat_documented _).mono
      (fun _ m' h => ?_) fun _ _ he => absurd he.2.1 (by decide)
    obtain ⟨-, hcursor, -, hexamined, -⟩ := h
    refine ⟨hcursor.trans (by decide), fun i hi => ?_⟩
    rcases hexamined i hi with hnone | ⟨-, hlt⟩
    · cases hnone
    · exact hlt.trans_eq (by decide)

/-! ## Sent records -/

/-- What the reader of a sent context gets. -/
def received (ctx : OtelSpanContext) : OtelSpanContext :=
  { ctx with
    tracestate :=
      if ctx.tracestate = some [] ∨ otelTracestateMaxLen < (ctx.tracestate.getD []).length then none
      else ctx.tracestate }

/-- The fields of a context, and those a newer writer appends. -/
def wireFields (ctx : OtelSpanContext) (appended : List UInt8) : List UInt8 :=
  toBytes otelTraceIdBytes ctx.traceId.toNat ++ (toBytes otelSpanIdBytes ctx.spanId.toNat ++
    (toBytes 1 ctx.traceFlags.toNat ++ (toBytes 2 (sentTracestate ctx).length ++
      (sentTracestate ctx ++ appended))))

def wireRecord (ctx : OtelSpanContext) (appended : List UInt8) : List UInt8 :=
  otelSpanContextWireV1 :: (toBytes 2 (wireFields ctx appended).length ++ wireFields ctx appended)

/-- A sent record as a newer writer sends it: with more fields, and its length adjusted. -/
def appendFields (record appended : List UInt8) : List UInt8 :=
  record.take 1 ++ toBytes 2 (ofBytes ((record.drop 1).take 2) + appended.length) ++ record.drop 3 ++
    appended

theorem length_sentTracestate_le (ctx : OtelSpanContext) : (sentTracestate ctx).length ≤ 512 := by
  unfold sentTracestate otelTracestateMaxLen
  grind

theorem length_wireFields (ctx : OtelSpanContext) (appended : List UInt8) :
    (wireFields ctx appended).length = 27 + (sentTracestate ctx).length + appended.length := by
  simp only [wireFields, List.length_append, length_toBytes, otelTraceIdBytes, otelSpanIdBytes]
  omega

theorem tracestate_received (ctx : OtelSpanContext) :
    (received ctx).tracestate =
      if sentTracestate ctx = [] then none else some (sentTracestate ctx) := by
  unfold received sentTracestate
  rcases ctx.tracestate with _ | ts
  · rfl
  · by_cases hlong : otelTracestateMaxLen < ts.length <;> by_cases hnil : ts = [] <;>
      simp [hlong, hnil]

theorem otelSpanContextSend_eq {pq : PqFormat} (hpq : pq.Documented) (buf : List UInt8)
    (ctx : OtelSpanContext) : otelSpanContextSend pq buf ctx = buf ++ wireRecord ctx [] := by
  have hle := length_sentTracestate_le ctx
  have hlen : (UInt16.ofNat (fixedFieldBytes + (sentTracestate ctx).length)).toNat =
      (wireFields ctx []).length := by
    rw [UInt16.toNat_ofNat', length_wireFields]
    unfold fixedFieldBytes otelTraceIdBytes otelSpanIdBytes
    simp only [List.length_nil]
    omega
  have hts : (UInt16.ofNat (sentTracestate ctx).length).toNat = (sentTracestate ctx).length := by
    rw [UInt16.toNat_ofNat']
    omega
  have hflags : toBytes 1 ctx.traceFlags.toNat = [UInt8.ofBitVec ctx.traceFlags] := by
    simp [toBytes, UInt8.ofNat]
  have hlast : ∀ buf : List UInt8, (if 0 < (sentTracestate ctx).length then
      buf ++ sentTracestate ctx else buf) = buf ++ sentTracestate ctx := by
    intro buf
    cases sentTracestate ctx <;> simp
  unfold otelSpanContextSend wireRecord
  simp only [hpq.sendInt8, hpq.sendInt16, hpq.sendBytes, hlen, hts, hlast]
  unfold wireFields
  rw [hflags]
  simp only [List.append_assoc, List.append_nil, List.cons_append, List.nil_append]

/-- The length field is the only other change a newer writer makes. -/
theorem appendFields_wireRecord (ctx : OtelSpanContext) (appended : List UInt8) :
    appendFields (wireRecord ctx []) appended = wireRecord ctx appended := by
  have hle := length_sentTracestate_le ctx
  have hlen : ofBytes (toBytes 2 (wireFields ctx []).length) + appended.length =
      (wireFields ctx appended).length := by
    have hfits : (wireFields ctx []).length < 256 ^ 2 := by
      rw [length_wireFields, List.length_nil]
      omega
    rw [ofBytes_toBytes hfits, length_wireFields, length_wireFields, List.length_nil]
    omega
  have hfields : wireFields ctx [] ++ appended = wireFields ctx appended := by
    simp only [wireFields, List.append_assoc, List.append_nil]
  unfold appendFields wireRecord
  have hlength : (toBytes 2 (wireFields ctx []).length).length = 2 := length_toBytes _ _
  simp only [List.take_succ_cons, List.take_zero, List.drop_succ_cons, List.drop_zero,
    List.take_left' hlength, List.drop_left' hlength, hlen, List.append_assoc, hfields,
    List.cons_append, List.nil_append]

/-- The fields that were sent are read back. -/
theorem decodeRecord_wireFields {ctx : OtelSpanContext} (appended : List UInt8)
    (hvalid : otelSpanContextIsValid ctx = true) (hnul : ∀ ts ∈ ctx.tracestate, 0 ∉ ts) :
    decodeRecord [otelSpanContextWireV1] (wireFields ctx appended) = (true, received ctx) := by
  have hle := length_sentTracestate_le ctx
  have htrace : (wireFields ctx appended).take 16 = toBytes 16 ctx.traceId.toNat :=
    List.take_left' (length_toBytes _ _)
  have h₁₆ : (wireFields ctx appended).drop 16 = toBytes 8 ctx.spanId.toNat ++
      (toBytes 1 ctx.traceFlags.toNat ++ (toBytes 2 (sentTracestate ctx).length ++
        (sentTracestate ctx ++ appended))) :=
    List.drop_left' (length_toBytes _ _)
  have h₂₄ : (wireFields ctx appended).drop 24 = toBytes 1 ctx.traceFlags.toNat ++
      (toBytes 2 (sentTracestate ctx).length ++ (sentTracestate ctx ++ appended)) := by
    rw [show 24 = 16 + 8 from rfl, ← List.drop_drop, h₁₆, List.drop_left' (length_toBytes _ _)]
  have h₂₅ : (wireFields ctx appended).drop 25 =
      toBytes 2 (sentTracestate ctx).length ++ (sentTracestate ctx ++ appended) := by
    rw [show 25 = 24 + 1 from rfl, ← List.drop_drop, h₂₄, List.drop_left' (length_toBytes _ _)]
  have h₂₇ : (wireFields ctx appended).drop 27 = sentTracestate ctx ++ appended := by
    rw [show 27 = 25 + 2 from rfl, ← List.drop_drop, h₂₅, List.drop_left' (length_toBytes _ _)]
  have htslen : ofBytes (((wireFields ctx appended).drop 25).take 2) =
      (sentTracestate ctx).length := by
    rw [h₂₅, List.take_left' (length_toBytes _ _), ofBytes_toBytes (by omega)]
  have hstring : (sentTracestate ctx).takeWhile (· ≠ 0) = sentTracestate ctx := by
    rw [List.takeWhile_eq_self_iff]
    intro b hb
    have hmem : 0 ∉ sentTracestate ctx := by
      unfold sentTracestate
      rcases hts : ctx.tracestate with _ | ts
      · simp
      · have h0 := hnul ts hts
        simp only [Option.getD_some]
        split_ifs
        · simp
        · exact h0
    simpa using fun h : b = 0 => hmem (h ▸ hb)
  have hfields : decodeFields (wireFields ctx appended) = received ctx := by
    have hcontext := contextOfBytes_toBytes ctx
    unfold otelTraceIdBytes otelSpanIdBytes at hcontext
    unfold decodeFields
    dsimp only
    rw [htslen, show fixedFieldBytes = 27 from rfl, h₂₇, List.take_left' rfl, hstring,
      ← tracestate_received, show otelTraceIdBytes = 16 from rfl, htrace,
      show otelSpanIdBytes = 8 from rfl, h₁₆, List.take_left' (length_toBytes _ _), h₂₄,
      List.take_left' (length_toBytes _ _), hcontext]
    rfl
  have hwhole : ¬ ([otelSpanContextWireV1] ≠ [otelSpanContextWireV1] ∨
      (wireFields ctx appended).length < fixedFieldBytes ∨ (wireFields ctx appended).length <
        fixedFieldBytes + ofBytes (((wireFields ctx appended).drop 25).take 2)) := by
    rw [htslen, length_wireFields, show fixedFieldBytes = 27 from rfl]
    rintro (hne | hshort | hshort)
    · exact hne rfl
    · omega
    · omega
  unfold decodeRecord
  rw [if_neg hwhole, hfields]
  exact congrArg (·, received ctx) hvalid

/-- A context as a sender has it: its tracestate is a C string. -/
structure Sendable (ctx : OtelSpanContext) : Prop where
  valid : otelSpanContextIsValid ctx = true
  nul : ∀ ts ∈ ctx.tracestate, 0 ∉ ts

instance (ctx : OtelSpanContext) : Decidable (Sendable ctx) :=
  decidable_of_iff (otelSpanContextIsValid ctx = true ∧ ∀ ts ∈ ctx.tracestate, 0 ∉ ts)
    ⟨fun h => ⟨h.1, h.2⟩, fun h => ⟨h.valid, h.nul⟩⟩

section Sending

variable {pq : PqFormat} {m : Msg} {ctx : OtelSpanContext} {rest : List UInt8}

/-- A record at the cursor is received, and the cursor is left after it. -/
theorem recv_wireRecord (hpq : pq.Documented) (hctx : Sendable ctx) {appended : List UInt8}
    (hlen : (wireFields ctx appended).length < 2 ^ 16)
    (hm : m.data.drop m.cursor = wireRecord ctx appended ++ rest) :
    ∃ m', otelSpanContextRecv pq m = .ok (true, received ctx) m' ∧ m'.data = m.data ∧
      m'.cursor = m.cursor + (wireRecord ctx appended).length := by
  have hrecord : (wireRecord ctx appended).length = 3 + (wireFields ctx appended).length := by
    simp only [wireRecord, List.length_cons, List.length_append, length_toBytes]
    omega
  have hdrop (i : ℕ) : m.data.drop (m.cursor + i) = (wireRecord ctx appended ++ rest).drop i := by
    rw [← hm, List.drop_drop]
  have hversion : m.slice 0 1 = [otelSpanContextWireV1] := by
    unfold Msg.slice
    rw [hdrop]
    rfl
  have hannounced : m.announced = (wireFields ctx appended).length := by
    unfold Msg.announced Msg.slice
    rw [hdrop]
    simp only [wireRecord, List.cons_append, List.drop_succ_cons, List.drop_zero, List.append_assoc,
      List.take_left' (length_toBytes _ _)]
    exact ofBytes_toBytes hlen
  have hfields : m.record = wireFields ctx appended := by
    have hthree : (wireRecord ctx appended ++ rest).drop 3 = wireFields ctx appended ++ rest := by
      simp only [wireRecord, List.cons_append, List.drop_succ_cons, List.append_assoc,
        List.drop_left' (length_toBytes _ _)]
    unfold Msg.record Msg.slice
    rw [hdrop, hthree, hannounced, List.take_left' rfl]
  have hlong : ¬ m.Short := by
    have hlength := congrArg List.length hm
    rw [List.length_drop, List.length_append] at hlength
    unfold Msg.Short
    omega
  obtain ⟨r, m', hrun, htakes, hr⟩ := ((otelSpanContextRecv_spec hpq m).mono (fun _ _ h => h)
    fun e m' he => hlong he.short).exists_ok
  rw [hversion, hfields, decodeRecord_wireFields appended hctx.valid hctx.nul] at hr
  refine ⟨m', hr ▸ hrun, htakes.data, ?_⟩
  rw [htakes.cursor, hannounced, hrecord]

/-- Receive `n` records, one after the other. -/
def recvMany (pq : PqFormat) : ℕ → Recv (List (Bool × OtelSpanContext))
  | 0 => return []
  | n + 1 => do
    let r ← otelSpanContextRecv pq
    let rs ← recvMany pq n
    return r :: rs

theorem foldl_otelSpanContextSend (hpq : pq.Documented) (buf : List UInt8)
    (ctxs : List OtelSpanContext) :
    ctxs.foldl (otelSpanContextSend pq) buf = buf ++ ctxs.flatMap (wireRecord · []) := by
  induction ctxs generalizing buf with
  | nil => exact (List.append_nil _).symm
  | cons ctx ctxs ih =>
    rw [List.foldl_cons, ih, otelSpanContextSend_eq hpq, List.flatMap_cons, List.append_assoc]

/-- Records that were sent one after the other are received as the contexts they were sent for. -/
theorem recvMany_flatMap (hpq : pq.Documented) {ctxs : List OtelSpanContext}
    (hctxs : ∀ ctx ∈ ctxs, Sendable ctx)
    (hm : m.data.drop m.cursor = ctxs.flatMap (wireRecord · []) ++ rest) :
    ∃ m', recvMany pq ctxs.length m = .ok (ctxs.map fun ctx => (true, received ctx)) m' ∧
      m'.data = m.data ∧ m'.cursor = m.cursor + (ctxs.flatMap (wireRecord · [])).length := by
  induction ctxs generalizing m with
  | nil => exact ⟨m, rfl, rfl, rfl⟩
  | cons ctx ctxs ih =>
    rw [List.forall_mem_cons] at hctxs
    rw [List.flatMap_cons, List.append_assoc] at hm
    have hle := length_sentTracestate_le ctx
    have hlen : (wireFields ctx []).length < 2 ^ 16 := by
      rw [length_wireFields, List.length_nil]
      omega
    obtain ⟨m₁, hrun, hdata, hcursor⟩ := recv_wireRecord hpq hctxs.1 hlen hm
    have hm₁ : m₁.data.drop m₁.cursor = ctxs.flatMap (wireRecord · []) ++ rest := by
      rw [hdata, hcursor, ← List.drop_drop, hm, List.drop_left' rfl]
    obtain ⟨m₂, hrun', hdata', hcursor'⟩ := ih hctxs.2 hm₁
    refine ⟨m₂, ?_, hdata'.trans hdata, ?_⟩
    · change EStateM.bind _ _ m = _
      unfold EStateM.bind
      rw [hrun]
      change EStateM.bind _ _ m₁ = _
      unfold EStateM.bind
      rw [hrun']
      rfl
    · rw [hcursor', hcursor, List.flatMap_cons, List.length_append, Nat.add_assoc]

end Sending

/-- What was sent is received: one record with anything after it, any concatenation of records, and a
record to which a newer writer has appended fields. -/
theorem spanContext_roundTrip (pq : PqFormat) (hpq : pq.Documented) :
    (∀ (ctx : OtelSpanContext) (m : Msg) (rest : List UInt8), Sendable ctx →
      m.data.drop m.cursor = otelSpanContextSend pq [] ctx ++ rest →
      ∃ m', otelSpanContextRecv pq m = .ok (true, received ctx) m' ∧ m'.data = m.data ∧
        m'.cursor = m.cursor + (otelSpanContextSend pq [] ctx).length) ∧
    (∀ (ctxs : List OtelSpanContext) (m : Msg) (rest : List UInt8), (∀ ctx ∈ ctxs, Sendable ctx) →
      m.data.drop m.cursor = ctxs.foldl (otelSpanContextSend pq) [] ++ rest →
      ∃ m', recvMany pq ctxs.length m = .ok (ctxs.map fun ctx => (true, received ctx)) m' ∧
        m'.data = m.data ∧
        m'.cursor = m.cursor + (ctxs.foldl (otelSpanContextSend pq) []).length) ∧
    ∀ (ctx : OtelSpanContext) (appended : List UInt8) (m : Msg) (rest : List UInt8), Sendable ctx →
      (otelSpanContextSend pq [] ctx).length - 3 + appended.length < 2 ^ 16 →
      m.data.drop m.cursor = appendFields (otelSpanContextSend pq [] ctx) appended ++ rest →
      ∃ m', otelSpanContextRecv pq m = .ok (true, received ctx) m' ∧ m'.data = m.data ∧
        m'.cursor = m.cursor + (otelSpanContextSend pq [] ctx).length + appended.length := by
  have hrecord (ctx : OtelSpanContext) (appended : List UInt8) :
      (wireRecord ctx appended).length = 30 + (sentTracestate ctx).length + appended.length := by
    simp only [wireRecord, List.length_cons, List.length_append, length_toBytes, length_wireFields]
    omega
  have hsend (ctx : OtelSpanContext) : otelSpanContextSend pq [] ctx = wireRecord ctx [] :=
    otelSpanContextSend_eq hpq [] ctx
  refine ⟨fun ctx m rest hctx hm => ?_, fun ctxs m rest hctxs hm => ?_,
    fun ctx appended m rest hctx hlen hm => ?_⟩
  · have hle := length_sentTracestate_le ctx
    rw [hsend] at hm ⊢
    refine recv_wireRecord hpq hctx ?_ hm
    rw [length_wireFields, List.length_nil]
    omega
  · rw [foldl_otelSpanContextSend hpq, List.nil_append] at hm ⊢
    exact recvMany_flatMap hpq hctxs hm
  · rw [hsend, hrecord, List.length_nil] at hlen
    rw [hsend, appendFields_wireRecord] at hm
    obtain ⟨m', hrun, hdata, hcursor⟩ := recv_wireRecord hpq hctx
      (by rw [length_wireFields]; omega) hm
    refine ⟨m', hrun, hdata, ?_⟩
    rw [hcursor, hsend, hrecord, hrecord, List.length_nil]
    omega

def vendorContext : OtelSpanContext :=
  { traceId := 1, spanId := 2, traceFlags := 1, tracestate := some [0x61] }

/-- A context with an empty vendor state, which is received as none. -/
def plainContext : OtelSpanContext :=
  { traceId := 1, spanId := 3, traceFlags := 0, tracestate := some [] }

/-- Two records with something after them, and a record with fields of a newer writer before another. -/
theorem spanContext_roundTrip_core :
    otelSpanContextSend corePqFormat [] vendorContext =
      [1, 0, 28, 0, 0, 0, 0, 0, 0, 0, 0, 0, 0, 0, 0, 0, 0, 0, 1, 0, 0, 0, 0, 0, 0, 0, 2, 1, 0, 1, 0x61] ∧
    (∃ m', recvMany corePqFormat 2
      { data := [vendorContext, plainContext].foldl (otelSpanContextSend corePqFormat) [] ++ [9]
        cursor := 0, fits := by decide } =
      .ok [(true, vendorContext), (true, { plainContext with tracestate := none })] m' ∧
      m'.cursor = 61) ∧
    ∃ m', otelSpanContextRecv corePqFormat
      { data := appendFields (otelSpanContextSend corePqFormat [] vendorContext) [7, 8] ++
          otelSpanContextSend corePqFormat [] plainContext
        cursor := 0, fits := by decide } = .ok (true, vendorContext) m' ∧ m'.cursor = 33 := by
  obtain ⟨-, hmany, happended⟩ := spanContext_roundTrip corePqFormat corePqFormat_documented
  refine ⟨by decide, ?_, ?_⟩
  · obtain ⟨m', hrun, -, hcursor⟩ := hmany [vendorContext, plainContext]
      { data := [vendorContext, plainContext].foldl (otelSpanContextSend corePqFormat) [] ++ [9]
        cursor := 0, fits := by decide } [9] (by decide) rfl
    exact ⟨m', hrun, hcursor⟩
  · obtain ⟨m', hrun, -, hcursor⟩ := happended vendorContext [7, 8]
      { data := appendFields (otelSpanContextSend corePqFormat [] vendorContext) [7, 8] ++
          otelSpanContextSend corePqFormat [] plainContext
        cursor := 0, fits := by decide } (otelSpanContextSend corePqFormat [] plainContext)
      (by decide) (by decide) rfl
    exact ⟨m', hrun, hcursor⟩

end PostgresOtel
