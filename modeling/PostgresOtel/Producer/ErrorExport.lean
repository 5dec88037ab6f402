import PostgresOtel.Producer.CapturedErrors

/-!
# The errors of an exported span

Every run of operations on an open span, with its record, and its end: what the span is exported with
is read off the record.  A captured error of any severity takes the place of the reason of an
unwinding, whose text is for spans on which nothing was captured.
-/

set_option autoImplicit false

namespace PostgresOtel

open Exec

/-! ## Runs -/

section Runs

variable {slot slot' : OtelSlot} {record : SpanRecord}

/-- Nothing is on record of a span that has just been started. -/
theorem OpenedSlot.noted {limit : ℕ} (h : OpenedSlot limit slot) : Noted slot {} := by
  have hdata := h.data
  constructor
  case err => exact hdata.err
  case status =>
    rintro ⟨before, note, after, hnotes, -⟩
    simp at hnotes
  case description => exact hdata.description
  case events => exact hdata.events

/-- Along every run the slot is as the record says. -/
theorem errorRuns_noted {limit : ℕ} {slot₀ : OtelSlot} {p : OtelSlot × SpanRecord}
    (hopen : OpenedSlot limit slot₀) (hp : (errorRuns limit slot₀).Reachable p) : Noted p.1 p.2 := by
  apply Machine.Reachable.invariant (I := fun p => Noted p.1 p.2) _ _ hp
  · exact hopen.noted
  · intro p call h henabled
    exact h.next call henabled.2

end Runs

/-! ## What is shown -/

/-- The event that shows a report at the end of a span: its attributes are missing only if their array
cannot be allocated then. -/
def Report.event (r : Report) (env : Env) (slot : OtelSlot) (tick : ℕ) : OtelSpanEvent where
  name := cstr "exception"
  time := r.env.clock r.memory.tick
  attrs := if env.allocFails (env.tickAfterEvent slot tick) then [] else exceptionAttrs r.error

/-- "SQLSTATE / message" of the report, unless its buffer cannot be allocated. -/
def Report.description (r : Report) (env : Env) (tick : ℕ) : Option CString :=
  if env.allocFails tick then none
  else some (errorText (unpackSqlState r.edata.sqlerrcode) r.error.message)

/-- The exported span shows what is on record.  `before` is the span before it was ended, and `tick` the
number of the first question that `lower_error_event` puts. -/
structure ErrorsShown (env : Env) (tick : ℕ) (record : SpanRecord) (before : OtelSlot)
    (unwinding : Bool) (reason : Option CString) (span : OtelSpan) : Prop where
  unreported : record.reports = [] → span.events = record.added ∧
    span.droppedEvents = before.span.droppedEvents
  reported : record.reports ≠ [] → ∃ r, record.Shows r ∧
    (env.AddsEvent before tick → span.events = record.added ++ [r.event env before tick] ∧
      span.droppedEvents = before.span.droppedEvents) ∧
    (¬ env.AddsEvent before tick → span.events = record.added ∧
      span.droppedEvents = before.span.droppedEvents + 1)
  status : record.CapturedError ∨ unwinding = true → span.status = .error
  kept : ∀ text, record.description = some text → span.statusDescription = some text
  reason : unwinding = true → record.reports = [] → record.description = none →
    span.statusDescription = reason
  described : unwinding = true ∨ before.span.status = .error → record.reports ≠ [] →
    record.description = none → ∃ r, record.Shows r ∧
      span.statusDescription = r.description env (env.tickAfterException before tick)

section Export

variable {env : Env} {slot slot' : OtelSlot} {record : SpanRecord} {tick : ℕ} {unwinding : Bool}
  {reason : Option CString}

theorem status_closing : (slot.closing unwinding reason).span.status =
    if unwinding then .error else slot.span.status := by
  cases unwinding <;> rfl

theorem description_closing : (slot.closing unwinding reason).span.statusDescription =
    if unwinding = true ∧ slot.err = none ∧ slot.span.statusDescription = none then reason
    else slot.span.statusDescription := by
  cases unwinding <;> simp [OtelSlot.closing, OtelSlot.unwound]

/-- Whether the event of a captured error gets its place does not depend on how the span ends. -/
theorem exceptionEvents_closing :
    env.exceptionEvents (slot.closing unwinding reason) tick = env.exceptionEvents slot tick := by
  cases unwinding <;> rfl

theorem addsEvent_closing :
    env.AddsEvent (slot.closing unwinding reason) tick ↔ env.AddsEvent slot tick := by
  cases unwinding <;> exact Iff.rfl

theorem tickAfterException_closing :
    env.tickAfterException (slot.closing unwinding reason) tick = env.tickAfterException slot tick := by
  cases unwinding <;> rfl

/-- Ending the span leaves a description that is there alone. -/
theorem endDescription_closing_of_some {text : CString} (h : slot.span.statusDescription = some text) :
    env.endDescription (slot.closing unwinding reason) tick = some text := by
  have hkept : (slot.closing unwinding reason).span.statusDescription = some text := by
    simp [description_closing, h]
  unfold Env.endDescription
  cases (slot.closing unwinding reason).err <;> simp [hkept]

/-- A span on which nothing was captured gets the reason of its unwinding. -/
theorem endDescription_unwound_of_none (herr : slot.err = none)
    (h : slot.span.statusDescription = none) :
    env.endDescription (slot.closing true reason) tick = reason := by
  simp [Env.endDescription, description_closing, herr, h]

/-- A span on which an error was captured is described by it. -/
theorem endDescription_of_some {err : OtelSlotError} (herr : slot.err = some err)
    (h : slot.span.statusDescription = none)
    (hstatus : unwinding = true ∨ slot.span.status = .error) :
    env.endDescription (slot.closing unwinding reason) tick =
      env.describes (env.tickAfterException slot tick) err.sqlstate err.message := by
  have hclosed : (slot.closing unwinding reason).span.status = .error := by
    rw [status_closing]
    split_ifs with hunwinding
    · rfl
    · exact hstatus.resolve_left hunwinding
  simp [Env.endDescription, hclosed, description_closing, herr, h, tickAfterException_closing]

/-- A slot has an error just when something was reported to the span. -/
theorem Noted.err_eq_none_iff (h : Noted slot record) : slot.err = none ↔ record.reports = [] := by
  rw [h.err, ← Latest.latest_eq_none_iff Report.level, Option.map_eq_none_iff]

/-- The error in a slot is that of the report which ranks highest. -/
theorem Noted.shows (h : Noted slot record) (hreports : record.reports ≠ []) :
    ∃ r, record.Shows r ∧ slot.err = some r.error := by
  cases hbest : Latest.latest Report.level record.reports with
  | none => exact absurd ((Latest.latest_eq_none_iff Report.level).1 hbest) hreports
  | some r =>
    refine ⟨r, Latest.isLatest_of_latest _ hbest, ?_⟩
    rw [h.err, hbest]
    rfl

theorem exceptionEvent_error (r : Report) :
    env.exceptionEvent slot tick r.error = r.event env slot tick := by
  unfold Env.exceptionEvent Report.event Report.error
  rw [Env.capturedError_time]

/-- What a span with a record is exported with. -/
theorem Noted.shown (h : Noted slot record)
    (hfinishes : Finishes env tick (slot.closing unwinding reason) slot') :
    ErrorsShown env tick record slot unwinding reason slot'.span := by
  have hevents := hfinishes.events
  obtain ⟨time, hspan⟩ := hfinishes.span
  rw [events_closing, h.events, exceptionEvents_closing] at hevents
  rw [hspan]
  constructor
  case unreported =>
    intro hnone
    have herr := h.err_eq_none_iff.2 hnone
    dsimp only
    simp [hevents, Env.exceptionEvents, Env.DropsException, herr]
  case reported =>
    intro hreports
    obtain ⟨r, hshows, herr⟩ := h.shows hreports
    refine ⟨r, hshows, fun hadds => ?_, fun hnot => ?_⟩
    · simp [hevents, Env.exceptionEvents, Env.DropsException, addsEvent_closing, herr, hadds,
        exceptionEvent_error]
    · simp [hevents, Env.exceptionEvents, Env.DropsException, addsEvent_closing, herr, hnot]
  case status =>
    dsimp only
    rw [status_closing]
    intro hor
    split_ifs with hunwinding
    · rfl
    · exact h.status (hor.resolve_right hunwinding)
  case kept =>
    intro text htext
    rw [← h.description] at htext
    exact endDescription_closing_of_some htext
  case reason =>
    rintro rfl hnone hdescription
    rw [← h.description] at hdescription
    exact endDescription_unwound_of_none (h.err_eq_none_iff.2 hnone) hdescription
  case described =>
    intro hstatus hreports hdescription
    rw [← h.description] at hdescription
    obtain ⟨r, hshows, herr⟩ := h.shows hreports
    refine ⟨r, hshows, ?_⟩
    dsimp only
    rw [endDescription_of_some herr hdescription hstatus]
    simp [Env.describes, Report.description, Report.error]

end Export

/-! ## The end of a run -/

theorem SpanCall.finishes {call : SpanCall} {slot : OtelSlot} {endTime : TimestampTz}
    {unwinding : Bool} {reason : Option CString} (hop : call.op = .finish endTime unwinding reason) :
    Finishes call.env (tickAfterTime endTime (call.before slot).tick)
      (slot.closing unwinding reason) (call.next slot) := by
  have hslot : Wp (call.op.run call.env call.ref)
      (fun _ s' => Finishes call.env (tickAfterTime endTime (call.before slot).tick)
        (((call.before slot).slots (refIdx call.ref)).closing unwinding reason)
        (s'.slots (refIdx call.ref)))
      (fun _ _ => False) (call.before slot) := by
    rw [hop]
    apply wp_finishSlot_cases
    exact fun s' h _ => h.slot
  have hdone := (hslot.mono (fun _ _ h => h) fun _ _ h => h.elim).endState
  rw [SpanCall.slots_before] at hdone
  exact hdone

/-- However errors were reported to a span and captured on it, and however the span ends, it is
exported with what is on record. -/
theorem error_capture {limit : ℕ} {slot₀ : OtelSlot} {p : OtelSlot × SpanRecord} {call : SpanCall}
    {endTime : TimestampTz} {unwinding : Bool} {reason : Option CString}
    (hopen : OpenedSlot limit slot₀) (hp : (errorRuns limit slot₀).Reachable p)
    (hop : call.op = .finish endTime unwinding reason) :
    ErrorsShown call.env (tickAfterTime endTime (call.before p.1).tick) p.2 p.1 unwinding reason
      (call.next p.1).span :=
  (errorRuns_noted hopen hp).shown (SpanCall.finishes hop)

/-- Something is added to a span, a warning is reported to it, and then an error whose message cannot be
copied. -/
def refusedRun : List SpanCall :=
  [smallCall (.addEvent (some (cstr "step")) 1 []) fun _ => false,
    smallCall (.capture { elevel := elevelWarning, message := some (cstr "first") } false) fun _ => false,
    smallCall (.capture { elevel := elevelError, message := some (cstr "second") } false)
      fun tick => tick = 1]

def refusedState : OtelSlot × SpanRecord :=
  refusedRun.foldl (errorRuns 1024 smallSpan).next (errorRuns 1024 smallSpan).init

def unwoundEnd : SpanCall := smallCall (.finish 1 true (some (cstr "unwound"))) fun _ => false

/-- Unwound, the span shows the error after its own event, and is described by the SQLSTATE alone. -/
theorem error_capture_warned :
    ErrorsShown unwoundEnd.env 0 refusedState.2 refusedState.1 true (some (cstr "unwound"))
      (unwoundEnd.next refusedState.1).span ∧
    (unwoundEnd.next refusedState.1).span.events.map OtelSpanEvent.name =
      [cstr "step", cstr "exception"] ∧
    (unwoundEnd.next refusedState.1).span.statusDescription = some (cstr "00000") := by
  have hreached : (errorRuns 1024 smallSpan).Reachable refusedState :=
    Machine.ReachBy.init.run (by decide)
  refine ⟨?_, by decide, by decide⟩
  exact error_capture smallSpan_opened hreached
    (show unwoundEnd.op = .finish 1 true (some (cstr "unwound")) from rfl)

/-- A span to which a warning is reported before an outer end unwinds it. -/
def warnedRun : List SpanCall := [smallCall (.capture { elevel := elevelWarning } false) fun _ => false]

/-- The warning describes the span, where the reason of the unwinding was to. -/
theorem warning_describes : ¬ ∀ (limit : ℕ) (slot₀ : OtelSlot) (p : OtelSlot × SpanRecord)
    (call : SpanCall) (endTime : TimestampTz) (reason : Option CString),
    OpenedSlot limit slot₀ → (errorRuns limit slot₀).Reachable p →
    call.op = .finish endTime true reason → (∀ r ∈ p.2.reports, r.level < elevelError) →
    (∀ code d, .status code d ∉ p.2.notes) → (call.next p.1).span.statusDescription = reason := by
  intro h
  have hreached : (errorRuns 1024 smallSpan).Reachable
      (warnedRun.foldl (errorRuns 1024 smallSpan).next (errorRuns 1024 smallSpan).init) :=
    Machine.ReachBy.init.run (by decide)
  have hreason := h 1024 smallSpan _ unwoundEnd 1 _ smallSpan_opened hreached rfl ?_ ?_
  · revert hreason
    decide
  · decide
  · intro code d hmem
    cases List.mem_singleton.1 hmem

end PostgresOtel
