import PostgresOtel.Client.ProducerRuns
import PostgresOtel.Lib.Script
import PostgresOtel.Parallel.Workers

/-!
# Modules that call the producer

A module's code is a script of calls of `otel_producer_api_table`, made through the inline entry points
of `otel_producer.h`, and the producer serves it.
-/

set_option autoImplicit false

namespace PostgresOtel

open Exec Script

/-- What a call answers. -/
def ProducerOp.Answer : ProducerOp → Type
  | .spanStart _ | .spanCurrent => OtelSpanRef
  | .spanActivate _ => OtelActivation
  | .spanContextOf _ => Option OtelSpanContext
  | _ => Unit

/-- A call with its answer. -/
def answerOp (env : Env) : (op : ProducerOp) → M op.Answer
  | .spanStart args => apiSpanStart env args
  | .spanActivate ref => apiSpanActivate env ref
  | .spanCurrent => apiSpanCurrent env
  | .spanContextOf ref => apiSpanContextOf env ref
  | .spanEnd ref endTime => apiSpanEnd env ref endTime
  | .spanDiscard ref => apiSpanDiscard env ref
  | .spanDeactivate tok => apiSpanDeactivate env tok
  | .spanSetStr ref key val => apiSpanSetStr env ref key val
  | .spanSetInt ref key val => apiSpanSetInt env ref key val
  | .spanSetDouble ref key val => apiSpanSetDouble env ref key val
  | .spanSetBool ref key val => apiSpanSetBool env ref key val
  | .spanSetVprintf ref key formatted => apiSpanSetVprintf env ref key formatted
  | .spanSetName ref name => apiSpanSetName env ref name
  | .spanSetStatus ref code description => apiSpanSetStatus env ref code description
  | .spanAddEvent ref name ts attrs => apiSpanAddEvent env ref name ts attrs
  | .spanAddLink ref target => apiSpanAddLink env ref target
  | .spanRecordError ref edata => apiSpanRecordError env ref edata
  | .spanCaptureError ref => apiSpanCaptureError env ref
  | .emitLog edata => otelEmitLogHook env edata
  | .ownerRelease owner ref isCommit => resourceOwnerRelease env owner ref isCommit
  | .xactCallback event => otelXactCallback event
  | .subxactCallback event => otelSubxactCallback env event
  | .shmemExit => otelProducerShmemExit

theorem returns_eq_value {α : Type} (x : M α) (s : St) : returns x s = (value x s).isSome := by
  unfold returns value
  cases x s <;> rfl

theorem returns_answerOp (env : Env) (op : ProducerOp) (s : St) :
    returns (runOp env op) s = (value (answerOp env op) s).isSome := by
  cases op with
  | spanStart args => exact (returns_discardResult _ s).trans (returns_eq_value _ s)
  | spanActivate ref => exact (returns_discardResult _ s).trans (returns_eq_value _ s)
  | spanCurrent => exact (returns_discardResult _ s).trans (returns_eq_value _ s)
  | spanContextOf ref => exact (returns_discardResult _ s).trans (returns_eq_value _ s)
  | _ => exact returns_eq_value _ s

/-- The code of a module. -/
abbrev Api := Script ProducerOp ProducerOp.Answer

/-- An entry of the producer table. -/
def otelProducerApi (op : ProducerOp) : Api op.Answer := send op

/-- The call a module makes at this moment. -/
def callNow (env : Env) (s : St) (op : ProducerOp) : Call := { env, backend := s.backend, op }

/-! ## The inline entry points -/

namespace Inline

/-- `otel_span_start`. -/
def otelSpanStart (env : Env) (args : OtelSpanStartArgs) : Api OtelSpanRef :=
  if otelRecordingPossible env then otelProducerApi (.spanStart (some args)) else pure otelSpanNone

/-- `otel_span_end_at`; `otel_span_end` is with time zero. -/
def otelSpanEndAt (s : OtelSpanRef) (endTime : TimestampTz) : Api Unit :=
  if s.v ≠ 0 then otelProducerApi (.spanEnd s endTime) else pure ()

def otelSpanEnd (s : OtelSpanRef) : Api Unit := otelSpanEndAt s 0

def otelSpanDiscard (s : OtelSpanRef) : Api Unit :=
  if s.v ≠ 0 then otelProducerApi (.spanDiscard s) else pure ()

def otelSpanSetStr (s : OtelSpanRef) (key : CString) (val : Option CString) : Api Unit :=
  if 0 < s.v then otelProducerApi (.spanSetStr s key val) else pure ()

def otelSpanSetInt (s : OtelSpanRef) (key : CString) (val : ℤ) : Api Unit :=
  if 0 < s.v then otelProducerApi (.spanSetInt s key val) else pure ()

def otelSpanSetStatus (s : OtelSpanRef) (code : OtelSpanStatus) (description : Option CString) :
    Api Unit :=
  if 0 < s.v then otelProducerApi (.spanSetStatus s code description) else pure ()

def otelSpanAddLink (s : OtelSpanRef) (target : Option OtelSpanContext) : Api Unit :=
  if 0 < s.v then otelProducerApi (.spanAddLink s target) else pure ()

def otelSpanContextOf (s : OtelSpanRef) : Api (Option OtelSpanContext) := otelProducerApi (.spanContextOf s)

end Inline

end PostgresOtel
