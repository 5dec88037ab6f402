import PostgresOtel.Producer.Brackets
import PostgresOtel.Producer.Unwinding

/-!
# A fetch that raises

`otel_ExecutorRun` activates the span of a cursor for one run of its plan, and deactivates it in a
`PG_FINALLY`.  An `ERROR` reaches the `PG_FINALLY` before it is reported and before the transaction is
aborted, so the deactivation finds the spans that the run has left open still above the cursor's.
-/

set_option autoImplicit false

namespace PostgresOtel

open Exec

variable (env env' : Env)

/-- `PG_TRY`/`PG_FINALLY`.  A `FATAL` does not come back. -/
def pgFinally (body cleanup : M Unit) : M Unit := do
  tryCatch body fun e => match e with
    | .error => do
      cleanup
      throw .error
    | .fatal => throw .fatal
  cleanup

/-- `otel_ExecutorRun`, with the span that `peek_cursor_span` finds for the query; `env'` surrounds
what comes after the run. -/
def otelExecutorRun (cursorSpan : Option OtelSpanRef) (run : M Unit) : M Unit :=
  match cursorSpan with
  | none => pgFinally run (pure ())
  | some ref => do
    let act ← apiSpanActivate env ref
    pgFinally run (apiSpanDeactivate env' act)

theorem endState_pgFinally_raised {body cleanup : M Unit} {s s' : St}
    (h : body s = .error .error s') : endState (pgFinally body cleanup) s = endState cleanup s' := by
  refine Wp.endState (I := fun t => t = endState cleanup s') ?_
  unfold pgFinally
  rw [wp_bind, wp_tryCatch]
  refine Wp.of_error h ?_
  dsimp only
  rw [wp_bind]
  exact (wp_endState cleanup s').mono (fun _ _ ht => ht) fun _ _ ht => ht

/-! ## Deactivating below the top -/

section Deactivate

variable {env : Env} {s : St}

/-- No end of a span that is unwound is counted as out of order. -/
theorem wp_unwindEntry_nonLifo (e : StackEntry) (reason : CString) (s : St) :
    Wp (unwindEntry env e reason)
      (fun _ s' => s'.spanStack = s.spanStack ∧ s'.counters.nonLifoEnd = s.counters.nonLifoEnd)
      (fun _ s' => s'.counters.nonLifoEnd = s.counters.nonLifoEnd) s := by
  unfold unwindEntry
  rw [wp_ite]
  refine ⟨fun _ => ⟨rfl, rfl⟩, fun _ => ?_⟩
  cases e.entry with
  | nrec i => exact ⟨rfl, rfl⟩
  | slot i =>
    refine (wp_endSlot env i 0 true (some reason) s).mono (fun _ s' h => ?_) fun x s' h => ?_
    · exact ⟨congrArg Lifecycle.spanStack h.1, congrArg Lifecycle.nonLifoEnd h.1⟩
    · rcases h with ⟨-, h⟩ | ⟨-, h⟩
      · exact congrArg Lifecycle.nonLifoEnd h
      · exact congrArg Lifecycle.nonLifoEnd h

/-- An entry that is not on top is taken off out of order, however its call ends. -/
theorem wp_popEntryAt_nonLifo (what reason : String) {above rest : List StackEntry} {x : StackEntry}
    (hstack : s.spanStack = above ++ x :: rest) (habove : above ≠ []) :
    Wp (popEntryAt env above.length what reason)
      (fun _ s' => s'.counters.nonLifoEnd = s.counters.nonLifoEnd + 1)
      (fun _ s' => s'.counters.nonLifoEnd = s.counters.nonLifoEnd + 1) s := by
  unfold popEntryAt endAbove stackUnwindAbove
  rw [wp_bind, wp_runIf]
  refine ⟨fun _ => ?_, fun hlen => absurd (by simpa using hlen) habove⟩
  rw [wp_bind]
  refine (wp_nonlifoWarning env what _ s).mono (fun _ s₁ h₁ => ?_) fun _ _ h => h.elim
  have hcount : s₁.counters.nonLifoEnd = s.counters.nonLifoEnd + 1 :=
    congrArg Lifecycle.nonLifoEnd h₁.1
  have hstack₁ : s₁.spanStack = above ++ x :: rest := (congrArg Lifecycle.spanStack h₁.1).trans hstack
  have hkeep : s₁.spanStack.length - above.length = (x :: rest).length := by
    rw [hstack₁, List.length_append]
    omega
  rw [wp_bind, wp_get, hkeep]
  refine (wp_unwindTo_turns env (I := fun _ s' => s'.counters.nonLifoEnd = s.counters.nonLifoEnd + 1)
    (cstr reason) (x :: rest) ?_ above hstack₁ (by simp [hstack₁]) hcount).mono
    (fun _ s₂ h₂ => h₂.2) fun _ _ h => h
  intro e above' s₂ _ hs₂
  refine (wp_unwindEntry_nonLifo e (cstr reason) _).mono (fun _ s₃ h₃ => ?_) fun _ s₃ h₃ => ?_
  · exact ⟨h₃.1, h₃.2.trans hs₂⟩
  · exact h₃.trans hs₂

/-- The deactivation of the span at `e`, wherever on the stack its entry is. -/
theorem wp_apiSpanDeactivate_at {ref : OtelSpanRef} {e : StackRef} {above rest : List StackEntry}
    {x : StackEntry} {Q : Unit → St → Prop} {E : Exn → St → Prop} (hready : s.Ready)
    (hcrit : env.critSectionCount = 0) (hdepth : s.dispatchDepth = 0)
    (href : s.life.Holds ref e) (hstack : s.spanStack = above ++ x :: rest) (hx : x.entry = e)
    (hpop : Wp (popEntryAt env above.length "span deactivated with spans still open above it"
      "parent activation deactivated first") Q E s) :
    Wp (apiSpanDeactivate env ⟨ref.v⟩) Q E s := by
  have hentry := hready.entryOf href
  have hnodup : (s.spanStack.map StackEntry.entry).Nodup := hready.pool.stack_nodup
  have hfind : s.spanStack.findIdx? (fun x => x.entry = e) = some above.length := by
    rw [hstack] at hnodup
    rw [hstack, ← hx]
    exact findIdx_entry hnodup
  unfold apiSpanDeactivate
  refine wp_not_refused env hcrit hdepth href.ne_none ?_
  rw [wp_bind]
  refine wp_entryForRef_cases (fun e' he' => ?_) fun hno => ?_
  · obtain rfl := Option.some.inj (hentry.symm.trans he')
    dsimp only
    unfold stackFind
    rw [wp_bind, wp_bind, wp_get, wp_pure, hfind]
    exact hpop
  · have hno : s.life.entryOf ref = none := hno
    rw [hentry] at hno
    cases hno

end Deactivate

/-! ## A fetch and what follows it -/

/-- A fetch that an `ERROR` leaves: the cursor's span, the calls made while the plan runs, and the
error; the surroundings of the two calls of `otel_ExecutorRun`; the report of the error and the calls
of the abort. -/
structure FailedFetch where
  cursorSpan : OtelSpanRef
  calls : List Call
  edata : ErrorData
  before : Env
  after : Env
  report : Call
  abort : List Call

/-- A call that core makes to abort a transaction. -/
def ProducerOp.Aborts : ProducerOp → Prop
  | .ownerRelease _ _ isCommit => isCommit = false
  | .xactCallback event => event = .abort
  | .subxactCallback event => event = .abortSub
  | _ => False

instance : DecidablePred ProducerOp.Aborts := fun op => by
  unfold ProducerOp.Aborts
  cases op <;> infer_instance

namespace FailedFetch

variable (f : FailedFetch) (garbage : ℕ → OtelSlot) (s : St)

/-- What the run of the plan does to the producer. -/
def run : M Unit := do
  modify fun s => f.calls.foldl (producer garbage).next s
  raiseError f.edata

/-- The states that a fetch goes through: after the activation, when the `ERROR` leaves the run, when it
leaves `otel_ExecutorRun`, when it has been reported, and after the abort. -/
def activated : St := endState (apiSpanActivate f.before f.cursorSpan) s

def failed : St := endState (f.run garbage) (f.activated s)

def deactivated : St :=
  endState (otelExecutorRun f.before f.after (some f.cursorSpan) (f.run garbage)) s

def reported : St := (producer garbage).next (f.deactivated garbage s) f.report

def aborted : St := f.abort.foldl (producer garbage).next (f.reported garbage s)

/-- The `ERROR` leaves a run that began in the reachable state `s`, where the span at `e` is open,
detached and not active.  It is activated, and the run leaves the entries `above` over its activation. -/
structure Fails (e : StackRef) (above rest : List StackEntry) : Prop where
  reachable : (producer garbage).ReachBy (fun _ call => call.Bounded) s
  bounded : f.before.maxOpenSpans ≤ maxOpenSpansMax
  holds : s.life.Holds f.cursorSpan e
  detached : s.life.detached e = true
  off : ¬ s.life.OnStack e
  activates : ∃ tok, value (apiSpanActivate f.before f.cursorSpan) s = some tok ∧
    tok ≠ otelActivationNone
  runs : (producer garbage).Admits (fun _ call => call.Bounded) (f.activated s) f.calls
  stack : (f.failed garbage s).spanStack =
    above ++ ⟨e, true, f.before.currentTransactionNestLevel⟩ :: rest
  gen : (f.failed garbage s).life.gen e = s.life.gen e
  /-- In a critical section the error would be a `PANIC`, and an emit hook could not have activated
  the span. -/
  calm : f.after.critSectionCount = 0 ∧ (f.failed garbage s).dispatchDepth = 0
  reports : f.report.op = .emitLog f.edata
  aborts : (producer garbage).Admits (fun _ call => call.op.Aborts) (f.reported garbage s) f.abort
  releases : ∀ i, .slot i ∈ startEntries above → ∀ owner ∈ ((f.failed garbage s).slots i).owner,
    (f.aborted garbage s).owners owner = []

/-- The deactivation is no misuse, and leaves the spans that were opened in the run for the abort,
which ends each of them, the recording ones exported once and as failed.  The error has been recorded
on the innermost recording one. -/
structure AbortsCleanly (above : List StackEntry) : Prop where
  misuse : (f.deactivated garbage s).misuse = (f.failed garbage s).misuse
  left : ∀ e ∈ startEntries above, (f.deactivated garbage s).life.Live e ∧
    (f.deactivated garbage s).life.gen e = (f.failed garbage s).life.gen e
  ended : ∀ e ∈ startEntries above, ¬ ((f.aborted garbage s).life.Live e ∧
    (f.aborted garbage s).life.gen e = (f.failed garbage s).life.gen e)
  exported : ∀ i, .slot i ∈ startEntries above →
    ∃ d ∈ (f.aborted garbage s).dispatches, d.span.status = .error ∧
      d.serial = ((f.failed garbage s).slots i).serial ∧
      ((f.aborted garbage s).dispatches.map Dispatch.serial).count d.serial = 1
  recorded : ∀ i, topSlot (above.filter fun x => !x.isActivation) = some i →
    ∃ err ∈ ((f.reported garbage s).slots i).err, err.elevel = f.edata.elevel ∧
      err.sqlstate = unpackSqlState f.edata.sqlerrcode

variable {f garbage s} {e : StackRef} {above rest : List StackEntry}

theorem Fails.value_activate (h : f.Fails garbage s e above rest) :
    apiSpanActivate f.before f.cursorSpan s = .ok ⟨f.cursorSpan.v⟩ (f.activated s) ∧
      (f.activated s).spanStack = ⟨e, true, f.before.currentTransactionNestLevel⟩ :: s.spanStack := by
  obtain ⟨tok, hvalue, hne⟩ := h.activates
  have hok := ok_of_value hvalue
  have hact := (wp_apiSpanActivate_holds f.before (reachable_ready h.reachable) h.holds h.detached
    h.off).result hok
  obtain ⟨hnone, -⟩ | ⟨htok, -, hacts⟩ := hact
  · exact absurd hnone hne
  · have heq : tok = ⟨f.cursorSpan.v⟩ := by
      rw [htok, h.holds.handle]
      rfl
    rw [heq] at hok
    exact ⟨hok, congrArg St.spanStack hacts.push⟩

theorem failed_eq : f.run garbage (f.activated s) = .error .error (f.failed garbage s) := rfl

/-- The run ends in a state of the producer's, but for core's error stack. -/
theorem Fails.ready (h : f.Fails garbage s e above rest) : (f.failed garbage s).Ready := by
  have hstart := reachable_ready h.reachable
  have hactivated : (producer garbage).ReachBy (fun _ call => call.Bounded) (f.activated s) := by
    let call : Call := ⟨f.before, s.backend, .spanActivate f.cursorSpan⟩
    have hissued : call.op.Valid s := hstart.issued h.holds
    have hstep := h.reachable.step call hissued h.bounded
    have heq : (producer garbage).next s call = f.activated s := by
      change endState (discardResult (apiSpanActivate f.before f.cursorSpan)) s = _
      unfold discardResult
      rw [endState_bind_ok h.value_activate.1]
      rfl
    rwa [heq] at hstep
  have hrun := reachable_ready (hactivated.run h.runs)
  exact ⟨hrun.pool, hrun.nslots_le, hrun.blank⟩

theorem Fails.holds_failed (h : f.Fails garbage s e above rest) :
    (f.failed garbage s).life.Holds f.cursorSpan e := by
  refine ⟨h.ready.pool.stack_live ⟨e, true, f.before.currentTransactionNestLevel⟩ ?_, ?_⟩
  · change _ ∈ (f.failed garbage s).spanStack
    rw [h.stack]
    exact List.mem_append_right _ List.mem_cons_self
  · rw [h.gen]
    exact h.holds.handle

/-- All that `otel_ExecutorRun` does after the `ERROR` is to deactivate the span. -/
theorem Fails.deactivated_eq (h : f.Fails garbage s e above rest) :
    f.deactivated garbage s =
      endState (apiSpanDeactivate f.after ⟨f.cursorSpan.v⟩) (f.failed garbage s) := by
  unfold deactivated otelExecutorRun
  rw [endState_bind_ok h.value_activate.1]
  exact endState_pgFinally_raised failed_eq

/-- The fetch is aborted as it should be exactly if the `ERROR` finds the cursor's activation on top of
the active stack, with nothing left open above it. -/
theorem aborts_cleanly_iff (h : f.Fails garbage s e above rest) :
    f.AbortsCleanly garbage s above ↔ above = [] := by
  constructor
  · intro hclean
    by_contra habove
    have hcount : (f.deactivated garbage s).counters.nonLifoEnd =
        (f.failed garbage s).counters.nonLifoEnd + 1 := by
      rw [h.deactivated_eq]
      refine Wp.endState (I := fun s' : St =>
        s'.counters.nonLifoEnd = (f.failed garbage s).counters.nonLifoEnd + 1) ?_
      exact wp_apiSpanDeactivate_at h.ready h.calm.1 h.calm.2 h.holds_failed h.stack rfl
        (wp_popEntryAt_nonLifo _ _ h.stack habove)
    have hsame : (f.deactivated garbage s).counters.nonLifoEnd =
        (f.failed garbage s).counters.nonLifoEnd := congrArg Misuse.nonLifoEnd hclean.misuse
    omega
  · rintro rfl
    have hpop : f.deactivated garbage s = { f.failed garbage s with spanStack := rest } := by
      rw [h.deactivated_eq]
      obtain ⟨_, s', hok, hs'⟩ := (wp_apiSpanDeactivate_top f.after h.ready h.calm.1 h.calm.2
        h.holds_failed h.stack rfl).exists_ok
      exact (endState_ok hok).trans hs'
    refine ⟨?_, fun r hr => ?_, fun r hr => ?_, fun i hi => ?_, fun i hi => ?_⟩
    · rw [hpop]
      rfl
    · exact absurd hr List.not_mem_nil
    · exact absurd hr List.not_mem_nil
    · exact absurd hi List.not_mem_nil
    · cases hi

/-- The deactivation itself ends what was opened in the run, as failed and before the error is
reported. -/
theorem deactivation_unwinds (h : f.Fails garbage s e above rest) (hlogs : f.after.LogsNothing)
    (hreturns : returns (apiSpanDeactivate f.after ⟨f.cursorSpan.v⟩) (f.failed garbage s) = true) :
    (f.deactivated garbage s).spanStack = rest ∧
      ∃ s₁, Warned (f.failed garbage s) s₁ ∧ Unwound f.after above s₁ (f.deactivated garbage s) := by
  rw [h.deactivated_eq]
  refine Wp.of_returns (I := fun s' : St => s'.spanStack = rest ∧
    ∃ s₁, Warned (f.failed garbage s) s₁ ∧ Unwound f.after above s₁ s')
    (E := fun _ _ => True) ?_ hreturns
  exact wp_apiSpanDeactivate_at h.ready h.calm.1 h.calm.2 h.holds_failed h.stack rfl
    (wp_popEntryAt_unwound hlogs _ _ above rest _ h.stack h.ready.pool h.calm.2)

end FailedFetch

/-! ### A cursor -/

/-- Two slots, a hook that takes the spans, and a transaction's resource owner. -/
def fetchEnv : Env :=
  { maxOpenSpans := 2, emitHook := some fun _ => {}, currentResourceOwner := some 0 }

def fetchCall (op : ProducerOp) : Call := ⟨fetchEnv, {}, op⟩

theorem fetchEnv_bounded : fetchEnv.maxOpenSpans ≤ maxOpenSpansMax := by decide

theorem fetchCall_bounded {op : ProducerOp} : (fetchCall op).Bounded := fetchEnv_bounded

def cursorOpened : St :=
  (producer fun _ => {}).next (initSt fun _ => {})
    (fetchCall (.spanStart (some { name := some (cstr "cursor"), detached := true })))

def functionSpan : Call :=
  fetchCall (.spanStart (some { name := some (cstr "function") }))

def divisionByZero : ErrorData := { elevel := elevelError, sqlerrcode := 33816706 }

/-- A fetch with these calls in its run; the abort releases the cursor's span. -/
def raisingFetch (calls : List Call) : FailedFetch where
  cursorSpan := makeRef 1 0 true
  calls := calls
  edata := divisionByZero
  before := fetchEnv
  after := fetchEnv
  report := fetchCall (.emitLog divisionByZero)
  abort := [fetchCall (.xactCallback .abort),
    fetchCall (.ownerRelease 0 ⟨makeRef 1 0 true, by decide⟩ false)]

theorem cursorOpened_reachable :
    (producer fun _ => {}).ReachBy (fun _ call => call.Bounded) cursorOpened :=
  .step _ .init trivial fetchCall_bounded

theorem fails_raisingFetch {calls : List Call} {above : List StackEntry}
    (hruns : (producer fun _ => {}).Admits (fun _ call => call.Bounded)
      ((raisingFetch calls).activated cursorOpened) calls)
    (hstack : ((raisingFetch calls).failed (fun _ => {}) cursorOpened).spanStack =
      above ++ [⟨.slot 0, true, 1⟩])
    (hfailed : ((raisingFetch calls).failed (fun _ => {}) cursorOpened).life.gen (.slot 0) = 1 ∧
      ((raisingFetch calls).failed (fun _ => {}) cursorOpened).dispatchDepth = 0)
    (hheld : ⟨makeRef 1 0 true, by decide⟩ ∈ ((producer fun _ => {}).next
      ((raisingFetch calls).reported (fun _ => {}) cursorOpened)
      (fetchCall (.xactCallback .abort))).owners 0)
    (hreleases : ∀ i, .slot i ∈ startEntries above →
      ∀ owner ∈ (((raisingFetch calls).failed (fun _ => {}) cursorOpened).slots i).owner,
        ((raisingFetch calls).aborted (fun _ => {}) cursorOpened).owners owner = []) :
    (raisingFetch calls).Fails (fun _ => {}) cursorOpened (.slot 0) above [] where
  reachable := cursorOpened_reachable
  bounded := fetchEnv_bounded
  holds := by
    show cursorOpened.life.Holds (makeRef 1 0 true) (.slot 0)
    exact ⟨by decide +kernel, by decide +kernel⟩
  detached := by decide +kernel
  off := by decide +kernel
  activates := by
    show ∃ tok, value (apiSpanActivate fetchEnv (makeRef 1 0 true)) cursorOpened = some tok ∧ _
    exact ⟨⟨(makeRef 1 0 true).v⟩, by decide +kernel, by decide⟩
  runs := hruns
  stack := hstack
  gen := hfailed.1
  calm := ⟨rfl, hfailed.2⟩
  reports := rfl
  aborts := ⟨trivial, rfl, ⟨hheld, fun h => by cases h⟩, rfl, trivial⟩
  releases := hreleases

/-- A function span that ends before the error is raised. -/
theorem fails_after_function :
    (raisingFetch [functionSpan, fetchCall (.spanEnd (makeRef 2 1 true) 0)]).Fails (fun _ => {})
      cursorOpened (.slot 0) [] [] :=
  fails_raisingFetch ⟨trivial, fetchCall_bounded, .inr (by decide), fetchCall_bounded, trivial⟩
    (by decide +kernel) (by decide +kernel) (by decide +kernel) fun _ h => absurd h List.not_mem_nil

theorem aborts_cleanly_ended :
    (raisingFetch [functionSpan, fetchCall (.spanEnd (makeRef 2 1 true) 0)]).AbortsCleanly
      (fun _ => {}) cursorOpened [] :=
  (FailedFetch.aborts_cleanly_iff fails_after_function).2 rfl

/-- One that is open when it is raised. -/
theorem fails_in_function :
    (raisingFetch [functionSpan]).Fails (fun _ => {}) cursorOpened (.slot 0) [⟨.slot 1, false, 0⟩] [] :=
  fails_raisingFetch ⟨trivial, fetchCall_bounded, trivial⟩ (by decide +kernel) (by decide +kernel)
    (by decide +kernel) fun i hi => by
      obtain rfl : i = 1 := by simpa [startEntries] using hi
      decide +kernel

theorem fetch_counted_out_of_order :
    ¬ ∀ (f : FailedFetch) (s : St) (e : StackRef) (above rest : List StackEntry),
      f.Fails (fun _ => {}) s e above rest → f.AbortsCleanly (fun _ => {}) s above := by
  intro h
  have hmisuse := (h _ _ _ _ _ fails_in_function).misuse
  exact absurd hmisuse (by decide +kernel)

end PostgresOtel
