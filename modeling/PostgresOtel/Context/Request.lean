import PostgresOtel.Lib.Machine
import PostgresOtel.Lib.Setting
import PostgresOtel.Context.Traceparent

/-!
# The trace context of a request

`otel.c` keeps the root trace context twice: as text in the settings `otel_api.traceparent` and
`otel_api.tracestate`, which core saves, restores and copies to parallel workers, and parsed in
`otel_root_ctx`.  A run of `requests` is what happens to one backend: trace headers of the
protocol, `SET` and `RESET`, transactions and savepoints, workers, and the clear at
ready-for-query.

Beside what the code stores, a state remembers who wrote each value of `otel_api.traceparent`, the
headers that arrived since the last clear, and the contexts whose request is over.
-/

set_option autoImplicit false

namespace PostgresOtel

/-! ## The hooks of `otel_api.traceparent` -/

/-- What a check hook reports about a value it refuses. -/
structure GucCheckError where
  errmsg : CString
  errdetail : CString

/-- `check_traceparent`. -/
def checkTraceparent (newval : CString) : Except GucCheckError Unit :=
  if newval = [] then .ok ()
  else if (otelTraceparentParse newval).isSome then .ok ()
  else .error
    { errmsg := cstr "invalid W3C traceparent format: \"" ++ newval ++ cstr "\""
      errdetail := cstr "Expected \"00-\x7b32 hex\x7d-\x7b16 hex\x7d-\x7b2 hex\x7d\" " ++
        cstr "with non-zero trace-id and parent-id." }

/-- `assign_traceparent`: the root context a value of the setting stands for. -/
def assignTraceparent (newval : CString) : OtelRootContext :=
  match otelTraceparentParse newval with
  | none => {}
  | some ctx => { isSet := true, ctx := ctx }

/-- Who wrote a value of the setting: the configuration, a trace header or a `SET`. -/
inductive Writer
  | configuration | header | session
  deriving DecidableEq

/-- A value of `otel_api.traceparent`, and who wrote it. -/
structure TraceparentValue where
  text : CString
  writer : Writer := .configuration
  deriving DecidableEq

/-- The values the two settings are reset to. -/
structure Defaults where
  traceparent : CString := []
  tracestate : CString := []

/-! ## States -/

/-- A trace header that arrived, and whether a context was in force before it. -/
structure Arrival where
  traceparent : CString
  inForce : Bool
  deriving DecidableEq

/-- The root context of a backend and what it is derived from. -/
structure RequestSt where
  root : OtelRootContext
  otelCtxFromMHeader : Bool := false
  traceparent : Setting TraceparentValue
  tracestate : Setting CString
  /-- `GUCNestLevel`: `0` outside a transaction. -/
  nestLevel : ℕ := 0
  /-- The root contexts of the parallel workers that are running. -/
  workers : List OtelRootContext := []
  /-- Who wrote the value `root` was last derived from. -/
  writer : Writer := .configuration
  /-- The headers of the request being served, latest first. -/
  arrivals : List Arrival := []
  /-- The contexts whose request is over and that nobody installed since. -/
  ended : List OtelSpanContext := []

namespace RequestSt

/-- The assign hook runs on the value the setting gets. -/
def assigned (s : RequestSt) (v : TraceparentValue) : RequestSt :=
  { s with root := assignTraceparent v.text, writer := v.writer }

/-- Somebody installed the root context: its request is not over. -/
def installed (s : RequestSt) : RequestSt := { s with ended := s.ended.filter (· ≠ s.root.ctx) }

/-- `set_config_option` on `otel_api.traceparent`; `none` resets it. -/
def setTraceparent (d : Defaults) (s : RequestSt) (action : SetAction) (writer : Writer)
    (newval : Option CString) : RequestSt :=
  let store (v : TraceparentValue) : RequestSt :=
    { s with traceparent := s.traceparent.assign s.nestLevel action v }.assigned v
  match newval with
  | none => store ⟨d.traceparent, .configuration⟩
  | some text =>
    match checkTraceparent text with
    | .ok () => (store ⟨text, writer⟩).installed
    | .error _ => s

/-- `set_config_option` on `otel_api.tracestate`, which has no hooks. -/
def setTracestate (d : Defaults) (s : RequestSt) (action : SetAction) (newval : Option CString) :
    RequestSt :=
  { s with tracestate := s.tracestate.assign s.nestLevel action (newval.getD d.tracestate) }

/-- `otel_trace_context_apply_cb`. -/
def otelTraceContextApplyCb (d : Defaults) (s : RequestSt) (traceparent tracestate : CString) :
    RequestSt :=
  let s := s.setTraceparent d .set .header (if traceparent = [] then none else some traceparent)
  let s := s.setTracestate d .set (if tracestate = [] then none else some tracestate)
  if s.root.isSet then { s with otelCtxFromMHeader := true } else s

/-- `otel_trace_context_clear_cb`. -/
def otelTraceContextClearCb (s : RequestSt) : RequestSt :=
  if s.otelCtxFromMHeader then { s with root := {}, otelCtxFromMHeader := false } else s

/-- `AtEOXact_GUC` on the two settings. -/
def atEOXactGuc (s : RequestSt) (isCommit : Bool) : RequestSt :=
  let ended := s.traceparent.endLevel isCommit s.nestLevel
  ended.2.foldl assigned
    { s with traceparent := ended.1, tracestate := (s.tracestate.endLevel isCommit s.nestLevel).1
             nestLevel := s.nestLevel - 1 }

end RequestSt

/-! ## Runs -/

/-- What happens to a backend. -/
inductive RequestAct
  | header (traceparent tracestate : CString)
  | setTraceparent (action : SetAction) (newval : Option CString)
  | setTracestate (action : SetAction) (newval : Option CString)
  | startTransaction
  | commit
  | rollback
  | savepoint
  | release
  | rollbackToSavepoint
  | launchWorker
  | workersExit
  | clear

/-- When it can happen.  The workers of a request have exited before ready-for-query. -/
def RequestAct.Enabled (s : RequestSt) : RequestAct → Prop
  | .header .. => True
  | .setTraceparent .. => 0 < s.nestLevel
  | .setTracestate .. => 0 < s.nestLevel
  | .startTransaction => s.nestLevel = 0
  | .commit => s.nestLevel = 1
  | .rollback => s.nestLevel = 1
  | .savepoint => 0 < s.nestLevel
  | .release => 1 < s.nestLevel
  | .rollbackToSavepoint => 1 < s.nestLevel
  | .launchWorker => 0 < s.nestLevel
  | .workersExit => True
  | .clear => s.workers = []

instance (s : RequestSt) (a : RequestAct) : Decidable (a.Enabled s) := by
  cases a <;> unfold RequestAct.Enabled <;> infer_instance

namespace RequestSt

/-- A header is handled; it installs a context also when it resets the setting. -/
def receive (d : Defaults) (s : RequestSt) (traceparent tracestate : CString) : RequestSt :=
  let handled := s.otelTraceContextApplyCb d traceparent tracestate
  let handled := if traceparent = [] then handled.installed else handled
  { handled with arrivals := ⟨traceparent, s.root.isSet⟩ :: s.arrivals }

/-- The contexts the headers of the request carried. -/
def carried (s : RequestSt) : List OtelSpanContext :=
  s.arrivals.filterMap fun h => otelTraceparentParse h.traceparent

/-- Ready for query: the request is over. -/
def finish (s : RequestSt) : RequestSt :=
  { s.otelTraceContextClearCb with arrivals := [], ended := s.carried ++ s.ended }

/-- The state an action leads to. -/
def next (d : Defaults) (s : RequestSt) : RequestAct → RequestSt
  | .header traceparent tracestate => s.receive d traceparent tracestate
  | .setTraceparent action newval => s.setTraceparent d action .session newval
  | .setTracestate action newval => s.setTracestate d action newval
  | .startTransaction => { s with nestLevel := 1 }
  | .commit => s.atEOXactGuc true
  | .rollback => s.atEOXactGuc false
  | .savepoint => { s with nestLevel := s.nestLevel + 1 }
  | .release => s.atEOXactGuc true
  | .rollbackToSavepoint => s.atEOXactGuc false
  -- a worker derives its root context from the values of the leader's settings
  | .launchWorker => { s with workers := assignTraceparent s.traceparent.value.text :: s.workers }
  | .workersExit => { s with workers := [] }
  | .clear => s.finish

/-- A new backend: both settings have their configured values. -/
def start (d : Defaults) : RequestSt where
  root := assignTraceparent d.traceparent
  traceparent := { value := ⟨d.traceparent, .configuration⟩ }
  tracestate := { value := d.tracestate }

end RequestSt

/-- The runs of a backend whose settings have the given defaults. -/
def requests (d : Defaults) : Machine RequestSt RequestAct where
  init := .start d
  enabled s a := a.Enabled s
  next := RequestSt.next d

instance (d : Defaults) (s : RequestSt) (a : RequestAct) : Decidable ((requests d).enabled s a) :=
  inferInstanceAs (Decidable (a.Enabled s))

/-! ## What the hooks do -/

theorem checkTraceparent_ok {text : CString} (h : (otelTraceparentParse text).isSome) :
    checkTraceparent text = .ok () := by
  unfold checkTraceparent
  split_ifs <;> rfl

theorem checkTraceparent_error {text : CString} (hne : text ≠ [])
    (h : otelTraceparentParse text = none) : ∃ e, checkTraceparent text = .error e := by
  unfold checkTraceparent
  rw [if_neg hne, h]
  exact ⟨_, rfl⟩

theorem assignTraceparent_none {text : CString} (h : otelTraceparentParse text = none) :
    assignTraceparent text = {} := by
  rw [assignTraceparent, h]

theorem assignTraceparent_some {text : CString} {ctx : OtelSpanContext}
    (h : otelTraceparentParse text = some ctx) :
    assignTraceparent text = { isSet := true, ctx := ctx } := by
  rw [assignTraceparent, h]

theorem assignTraceparent_isSet (text : CString) :
    (assignTraceparent text).isSet = (otelTraceparentParse text).isSome := by
  cases h : otelTraceparentParse text with
  | none => rw [assignTraceparent_none h]; rfl
  | some ctx => rw [assignTraceparent_some h]; rfl

namespace RequestSt

variable {d : Defaults} {s : RequestSt}

/-- Of the values handed back one after another, the last one counts. -/
theorem foldl_assigned (vs : List TraceparentValue) (s : RequestSt) :
    vs.foldl assigned s = vs.getLast?.elim s s.assigned := by
  induction vs generalizing s with
  | nil => rfl
  | cons v vs ih =>
    rw [List.foldl_cons, ih, List.getLast?_cons]
    cases vs.getLast? <;> rfl

theorem setTraceparent_some {action : SetAction} {writer : Writer} {text : CString}
    (h : (otelTraceparentParse text).isSome) :
    s.setTraceparent d action writer (some text) =
      ({ s with traceparent := s.traceparent.assign s.nestLevel action ⟨text, writer⟩ }.assigned
        ⟨text, writer⟩).installed := by
  simp only [setTraceparent, checkTraceparent_ok h]

theorem setTraceparent_rejected {action : SetAction} {writer : Writer} {text : CString}
    (hne : text ≠ []) (h : otelTraceparentParse text = none) :
    s.setTraceparent d action writer (some text) = s := by
  obtain ⟨e, he⟩ := checkTraceparent_error hne h
  simp only [setTraceparent, he]

end RequestSt

end PostgresOtel
