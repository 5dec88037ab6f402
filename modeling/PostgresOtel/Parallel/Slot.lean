import PostgresOtel.Producer.Types

/-!
# The leader's slot in shared memory

`otel_parallel.c`: a backend publishes the context that its parallel workers start their spans under,
and a worker reads it.  A slot that is set holds a trace id, a span id and flags.
-/

set_option autoImplicit false

namespace PostgresOtel

/-- `otel_parallel_publish_leader_context`; the slot has no room for a tracestate. -/
def otelParallelPublishLeaderContext (ctx : Option OtelSpanContext) : Option OtelSpanContext :=
  (ctx.filter fun ctx => otelSpanContextIsValid ctx).map fun ctx => { ctx with tracestate := none }

/-- `otel_parallel_clear_leader_context`. -/
def otelParallelClearLeaderContext : Option OtelSpanContext := otelParallelPublishLeaderContext none

/-- `otel_parallel_get_leader_context`, with the slot of the leader if the backend is a worker. -/
def otelParallelGetLeaderContext (isParallelWorker : Bool) (slot : Option OtelSpanContext) :
    Option OtelSpanContext :=
  if isParallelWorker then slot.filter fun ctx => otelSpanContextIsValid ctx else none

/-- What a worker gets of a published context is all but its tracestate. -/
theorem get_published {ctx : OtelSpanContext} (hvalid : otelSpanContextIsValid ctx = true) :
    otelParallelGetLeaderContext true (otelParallelPublishLeaderContext (some ctx)) =
      some { ctx with tracestate := none } := by
  have hvalid' : otelSpanContextIsValid { ctx with tracestate := none } = true := hvalid
  simp [otelParallelGetLeaderContext, otelParallelPublishLeaderContext, Option.filter, hvalid,
    hvalid']

end PostgresOtel
