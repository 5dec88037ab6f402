import PostgresOtel.Producer.Guarantees

/-!
# Ending a span while an error is being handled

`dispatch_span` promises that a tracing failure does not break the traced operation, and spans are
ended inside `PG_CATCH` and `PG_FINALLY` blocks whose error is thrown again afterwards.  Its own
catch block disposes of the hook's error with `FlushErrorState`, which empties the whole error
stack.  What is left of the stack is a matter of which spans the call ends.
-/

set_option autoImplicit false

namespace PostgresOtel

open Exec

variable {garbage : ℕ → OtelSlot} {s : St} {call : Call}

theorem Env.errorsAfter_eq_iff (env : Env) (ended : List ℕ) (errors : List ErrorData) :
    env.errorsAfter ended errors = errors ↔ errors = [] ∨ ∀ n ∈ ended, env.disturbs n = false := by
  unfold Env.errorsAfter
  split_ifs with h
  · obtain ⟨n, hn, hd⟩ := List.any_eq_true.1 h
    refine ⟨fun he => .inl he.symm, ?_⟩
    rintro (rfl | hall)
    · rfl
    · rw [hall n hn] at hd
      cases hd
  · refine ⟨fun _ => .inr fun n hn => ?_, fun _ => rfl⟩
    cases hd : env.disturbs n with
    | true => exact absurd (List.any_eq_true.2 ⟨n, hn, hd⟩) h
    | false => rfl

/-- A call that returns leaves the error stack as the dispatches of the spans it ends do. -/
theorem errorStack_next (h : (producer garbage).Reachable s) (hop : call.op.Valid s)
    (hret : returns (runOp call.env call.op) (s.enter call) = true) :
    ((producer garbage).next s call).backend.errorStack =
      call.env.errorsAfter (s.life.endedByOp call.env call.op) call.backend.errorStack := by
  have hinv : PoolInv (s.enter call).life := reachable_poolInv (s := s) h
  have hfollows := follows_runOp call.env call.op hinv ((valid_enter call).2 hop)
  exact (Wp.of_returns (Wp.mono hfollows (fun _ _ hs => hs.2) fun _ _ hs => hs) hret)

/-- A call leaves the errors being handled alone exactly if there are none or no dispatch of a span
it ends runs into an `ERROR`. -/
theorem error_stack_kept_iff (h : (producer garbage).Reachable s) (hop : call.op.Valid s)
    (hret : returns (runOp call.env call.op) (s.enter call) = true) :
    ((producer garbage).next s call).backend.errorStack = call.backend.errorStack ↔
      call.backend.errorStack = [] ∨
        ∀ n ∈ s.life.endedByOp call.env call.op, call.env.disturbs n = false := by
  rw [errorStack_next h hop hret]
  exact Env.errorsAfter_eq_iff _ _ _

/-- The end of the first span in a `PG_FINALLY`, with the user's error on the error stack. -/
def endDuringError (env : Env) : Call where
  env := env
  backend := { errorStack := [{ elevel := elevelError, sqlerrcode := 130 }] }
  op := endFirstSpan.op

/-- The span's hook raises an `ERROR`, and the error that was being handled is gone. -/
theorem error_stack_lost :
    (producer fun _ => {}).Reachable sessionSpanOpen ∧
      (endDuringError raisingEnv).op.Valid sessionSpanOpen ∧
      returns (runOp raisingEnv endFirstSpan.op)
        (sessionSpanOpen.enter (endDuringError raisingEnv)) = true ∧
      (endDuringError raisingEnv).backend.errorStack ≠ [] ∧
      ((producer fun _ => {}).next sessionSpanOpen
        (endDuringError raisingEnv)).backend.errorStack = [] :=
  ⟨reachable_sessionSpanOpen, valid_endFirstSpan, by decide +kernel, by decide, by decide +kernel⟩

/-- With a hook that returns, the same call keeps the user's error. -/
theorem error_stack_kept_iff_quiet :
    ((producer fun _ => {}).next sessionSpanOpen
      (endDuringError { emitHook := some fun _ => {} })).backend.errorStack =
        [{ elevel := elevelError, sqlerrcode := 130 }] :=
  (error_stack_kept_iff reachable_sessionSpanOpen
    (show (endDuringError { emitHook := some fun _ => {} }).op.Valid sessionSpanOpen from
      valid_endFirstSpan) (by decide +kernel)).2 (.inr fun _ _ => rfl)

end PostgresOtel
