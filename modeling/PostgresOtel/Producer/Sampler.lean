import PostgresOtel.Lib.Binary64
import PostgresOtel.Producer.Types

/-!
# The sampler

`otel_run_sampler` of `otel_api.c`: the decision for a span without a local parent.  The ratio is the
rational number that `otel_sampler_arg` stands for, and what is computed from it is rounded as doubles
are.
-/

set_option autoImplicit false

namespace PostgresOtel

/-- `OtelApiSampler`. -/
inductive OtelApiSampler
  | alwaysOn | alwaysOff | traceidratio
  | parentbasedAlwaysOn | parentbasedAlwaysOff | parentbasedTraceidratio
  deriving DecidableEq

/-- The low 56 bits of the trace id, its last seven bytes read as a big-endian number. -/
def traceIdRandomness (traceId : OtelTraceId) : ℕ := traceId.toNat % 2 ^ 56

/-- `(1.0 - ratio) * 72057594037927936.0`. -/
def ratioCut (ratio : ℚ) : ℚ := Binary64.mul (Binary64.sub 1 ratio) (2 ^ 56)

def otelTraceidratioSample (traceId : OtelTraceId) (ratio : ℚ) : Bool :=
  if 1 ≤ ratio then true
  else if ratio ≤ 0 then false
  else decide (Binary64.rint (ratioCut ratio) ≤ traceIdRandomness traceId)

/-- `otel_run_sampler`, with the two settings it reads. -/
def otelRunSampler (mode : OtelApiSampler) (arg : ℚ) (traceId : OtelTraceId)
    (newRoot remoteSampled : Bool) : OtelSamplerDecision :=
  let sampleIf (b : Bool) : OtelSamplerDecision := if b then .recordAndSample else .drop
  match mode with
  | .alwaysOn => .recordAndSample
  | .alwaysOff => .drop
  | .traceidratio => sampleIf (otelTraceidratioSample traceId arg)
  | .parentbasedAlwaysOn => if !newRoot then sampleIf remoteSampled else .recordAndSample
  | .parentbasedAlwaysOff => if !newRoot then sampleIf remoteSampled else .drop
  | .parentbasedTraceidratio =>
    if !newRoot then sampleIf remoteSampled
    else sampleIf (otelTraceidratioSample traceId arg)

end PostgresOtel
