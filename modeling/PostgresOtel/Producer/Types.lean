import Mathlib.Algebra.Group.Nat.Defs
import Mathlib.Data.Int.Notation
import Mathlib.Data.Nat.Notation

/-!
# Values of the producer API

The value types of `otel_types.h`, the exporter's view of a span (`otel_exporter.h`), the handles
and start arguments of `otel_producer.h`, and the two pieces of core the producer reads: an
`ErrorData` and the levels of `elog.h`.  A C string is the list of its bytes before the NUL; an
identifier is the big-endian number its bytes spell.
-/

set_option autoImplicit false

namespace PostgresOtel

/-- A C string: its bytes, without the NUL. -/
abbrev CString := List UInt8

/-- The bytes of a string literal. -/
def cstr (s : String) : CString := s.toList.map fun c => UInt8.ofNat c.toNat

/-- The decimal digits `%d` prints for a number that is not negative. -/
def cstrNat (n : ℕ) : CString := cstr (toString n)

abbrev TimestampTz := ℤ

/-! ## Trace context -/

abbrev OtelTraceId := BitVec 128

abbrev OtelSpanId := BitVec 64

abbrev TraceFlags := BitVec 8

def otelTraceFlagSampled : TraceFlags := 0x01

def otelTraceFlagRandom : TraceFlags := 0x02

/-- `OtelSpanContext`. -/
structure OtelSpanContext where
  traceId : OtelTraceId := 0
  spanId : OtelSpanId := 0
  traceFlags : TraceFlags := 0
  tracestate : Option CString := none
  deriving DecidableEq

def otelSpanContextIsValid (ctx : OtelSpanContext) : Bool := ctx.traceId != 0 && ctx.spanId != 0

def otelSpanContextSampled (ctx : OtelSpanContext) : Bool :=
  ctx.traceFlags &&& otelTraceFlagSampled != 0

/-- `OtelRootContext`: the backend's root trace context. -/
structure OtelRootContext where
  isSet : Bool := false
  fromComment : Bool := false
  ctx : OtelSpanContext := {}
  deriving DecidableEq

/-! ## Spans as exporters see them -/

inductive OtelSpanKind
  | internal | server | client | producer | consumer
  deriving DecidableEq

inductive OtelSpanStatus
  | unset | ok | error
  deriving DecidableEq

inductive OtelSamplerDecision
  | drop | recordOnly | recordAndSample
  deriving DecidableEq

/-- `OtelInstrumentationScope`. -/
structure OtelInstrumentationScope where
  name : Option CString
  version : Option CString
  schemaUrl : Option CString
  deriving DecidableEq

/-- The value of an attribute; a double is its bit pattern. -/
inductive OtelAttrValue
  | string (s : Option CString)
  | int (i : ℤ)
  | double (bits : BitVec 64)
  | bool (b : Bool)
  deriving DecidableEq

structure OtelAttribute where
  key : CString
  v : OtelAttrValue
  deriving DecidableEq

structure OtelSpanEvent where
  name : CString
  time : TimestampTz
  attrs : List OtelAttribute
  deriving DecidableEq

/-- `OtelSpan`.  An array and its count are one list. -/
structure OtelSpan where
  kind : OtelSpanKind := .internal
  scope : Option OtelInstrumentationScope := none
  traceId : OtelTraceId := 0
  spanId : OtelSpanId := 0
  parentSpanId : OtelSpanId := 0
  traceFlags : TraceFlags := 0
  tracestate : Option CString := none
  name : CString := []
  status : OtelSpanStatus := .unset
  samplerDecision : OtelSamplerDecision := .drop
  statusDescription : Option CString := none
  startTime : TimestampTz := 0
  endTime : TimestampTz := 0
  attrs : List OtelAttribute := []
  droppedAttrs : ℕ := 0
  events : List OtelSpanEvent := []
  droppedEvents : ℕ := 0
  links : List OtelSpanContext := []
  droppedLinks : ℕ := 0
  deriving DecidableEq

/-! ## Handles -/

/-- `OtelSpanRef`: a handle to a span, `0` for none. -/
structure OtelSpanRef where
  v : ℤ
  deriving DecidableEq

def otelSpanNone : OtelSpanRef := ⟨0⟩

/-- `OtelActivation`: the token of an activation. -/
structure OtelActivation where
  v : ℤ
  deriving DecidableEq

def otelActivationNone : OtelActivation := ⟨0⟩

/-- `OTEL_GEN_MASK`, as a modulus. -/
def otelGenModulus : ℕ := 2 ^ 31

def makeRef (gen idx : ℕ) (recording : Bool) : OtelSpanRef :=
  let v : ℤ := (gen * 2 ^ 32 + idx : ℕ)
  ⟨if recording then v else -v⟩

def refGen (s : OtelSpanRef) : ℕ := s.v.natAbs / 2 ^ 32

def refIdx (s : OtelSpanRef) : ℕ := s.v.natAbs % 2 ^ 32

/-- What the API promises about a handle it gives out, in this backend or in another: it is null or
names a generation, and generations are never `0`. -/
def OtelSpanRef.Issued (s : OtelSpanRef) : Prop := s.v = 0 ∨ 0 < refGen s

instance (s : OtelSpanRef) : Decidable s.Issued := inferInstanceAs (Decidable (_ ∨ _))

theorem refGen_makeRef {gen idx : ℕ} (hidx : idx < 2 ^ 32) (recording : Bool) :
    refGen (makeRef gen idx recording) = gen := by
  cases recording <;> simp [refGen, makeRef, -Nat.reducePow] <;> omega

theorem refIdx_makeRef {gen idx : ℕ} (hidx : idx < 2 ^ 32) (recording : Bool) :
    refIdx (makeRef gen idx recording) = idx := by
  cases recording <;> simp [refIdx, makeRef, -Nat.reducePow] <;> omega

theorem refGen_makeRef_pos {gen : ℕ} (h : 0 < gen) (idx : ℕ) (recording : Bool) :
    0 < refGen (makeRef gen idx recording) := by
  have hle : 2 ^ 32 ≤ gen * 2 ^ 32 + idx := by omega
  cases recording <;> simp only [refGen, makeRef, Bool.false_eq_true, if_true, if_false,
    Int.natAbs_neg, Int.natAbs_natCast] <;> exact Nat.div_pos hle (by decide)

/-- A handle to a recording span as a resource owner holds it. -/
abbrev OwnedRef := {ref : OtelSpanRef // 0 < refGen ref}

/-! ## Start arguments -/

/-- `OtelTracer`. -/
structure OtelTracer where
  name : Option CString := none
  version : Option CString := none
  schemaUrl : Option CString := none
  scope : Option OtelInstrumentationScope := none
  deriving DecidableEq

/-- `OtelSpanParent`. -/
inductive OtelSpanParent
  | active | context | span | root
  deriving DecidableEq

abbrev ResourceOwner := ℕ

/-- `OtelSpanStartArgs.owner`: NULL, `OTEL_OWNER_SESSION` or a resource owner. -/
inductive OwnerArg
  | null
  | session
  | owner (o : ResourceOwner)
  deriving DecidableEq

/-- `OtelSpanStartArgs`. -/
structure OtelSpanStartArgs where
  structSizeOk : Bool := true
  tracer : Option OtelTracer := none
  name : Option CString
  kind : OtelSpanKind := .internal
  parent : OtelSpanParent := .active
  parentCtx : Option OtelSpanContext := none
  parentSpan : OtelSpanRef := otelSpanNone
  owner : OwnerArg := .null
  detached : Bool := false
  startTime : TimestampTz := 0
  forceSample : Bool := false

/-! ## Error reports -/

/-- `WARNING` of `elog.h`. -/
def elevelWarning : ℕ := 19

/-- `ERROR` of `elog.h`. -/
def elevelError : ℕ := 21

/-- `PGUNSIXBIT` over the five characters of an error code. -/
def unpackSqlState (sqlState : ℕ) : CString :=
  (List.range 5).map fun i => UInt8.ofNat (sqlState / 64 ^ i % 64 + 48)

/-- `ERRCODE_OUT_OF_MEMORY`, class 53200. -/
def errcodeOutOfMemory : ℕ := 5 + 3 * 64 + 2 * 64 ^ 2

/-- `ERRCODE_WARNING`, class 01000. -/
def errcodeWarning : ℕ := 64

/-- The fields of `ErrorData` that the producer reads. -/
structure ErrorData where
  elevel : ℕ
  sqlerrcode : ℕ := 0
  message : Option CString := none
  detail : Option CString := none
  hint : Option CString := none
  filename : Option CString := none
  funcname : Option CString := none
  lineno : ℕ := 0
  deriving DecidableEq

end PostgresOtel
