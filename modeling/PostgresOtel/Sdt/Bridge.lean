import PostgresOtel.Client.Spans
import PostgresOtel.Lib.Machine

/-!
# The SDT probe bridge

The probe hook of `otel_sdt_bridge.c` with its two stacks, the transaction slot and the probe mask,
and the core it is called from.  Core's phases nest like its call frames: each fires its `START`
probe when it begins and its `DONE` probe when it ends, unless an error skips the end.  A probe
reaches the hook only if the mask has its bit.

Stacks are lists from the top.  What a phase's `START` pushed is kept with the phase, which is how
the specification says which span a `DONE` is for; the hook does not see it.
-/

set_option autoImplicit false

namespace PostgresOtel

/-! ## Probes and families -/

/-- The probe pairs that bracket one bounded operation. -/
inductive SdtPhase
  | query | parse | rewrite | plan | execute | smgrRead | smgrWrite | syncrep | lockWait
  deriving DecidableEq

/-- `PgSdtProbeId`.  Core numbers the `DONE` of a pair one above its `START`. -/
inductive PgSdtProbeId
  | transactionStart
  | transactionCommit
  | transactionAbort
  | phaseStart (phase : SdtPhase)
  | phaseDone (phase : SdtPhase)
  | sortStart
  | sortDone
  | recoveryXactCommit
  deriving DecidableEq

/-- A set of probes: a `uint64` with a bit for each. -/
abbrev ProbeMask := PgSdtProbeId → Bool

/-- Both bits of a pair. -/
def sdtBits (phase : SdtPhase) : List PgSdtProbeId := [.phaseStart phase, .phaseDone phase]

/-- `SDT_BITS_ALL`. -/
def sdtBitsAll : List PgSdtProbeId :=
  [.transactionStart, .transactionCommit, .transactionAbort] ++
    [SdtPhase.query, .parse, .rewrite, .plan, .execute].flatMap sdtBits ++
    [.sortStart, .sortDone] ++
    [SdtPhase.smgrRead, .smgrWrite, .syncrep].flatMap sdtBits ++
    [.recoveryXactCommit] ++ sdtBits .lockWait

/-- `sdt_family_map`. -/
def sdtFamilyMap : List (CString × List PgSdtProbeId) :=
  [(cstr "txn", [.transactionStart, .transactionCommit, .transactionAbort]),
   (cstr "query", sdtBits .query),
   (cstr "parse", sdtBits .parse),
   (cstr "rewrite", sdtBits .rewrite),
   (cstr "plan", sdtBits .plan),
   (cstr "execute", sdtBits .execute),
   (cstr "sort", [.sortStart, .sortDone]),
   (cstr "smgr_read", sdtBits .smgrRead),
   (cstr "smgr_write", sdtBits .smgrWrite),
   (cstr "smgr", sdtBits .smgrRead ++ sdtBits .smgrWrite),
   (cstr "syncrep", sdtBits .syncrep),
   (cstr "replica", [.recoveryXactCommit]),
   (cstr "lock_wait", sdtBits .lockWait),
   (cstr "all", sdtBitsAll),
   (cstr "none", [])]

/-- `pg_tolower` on ASCII. -/
def pgTolower (c : UInt8) : UInt8 := if 65 ≤ c ∧ c ≤ 90 then c + 32 else c

/-- `pg_strcasecmp(a, b) == 0`. -/
def pgStrcaseeq (a b : CString) : Bool := a.map pgTolower == b.map pgTolower

/-- `sdt_probes_parse`, on the tokens `SplitIdentifierString` gives. -/
def sdtProbesParse : List CString → Option (List PgSdtProbeId)
  | [] => some []
  | tok :: rest =>
    match sdtFamilyMap.find? fun family => pgStrcaseeq tok family.1 with
    | none => none
    | some family => (sdtProbesParse rest).map (family.2 ++ ·)

/-! ## The state -/

/-- `SDT_STACK_SIZE`. -/
def sdtStackSize : ℕ := 64

/-- `SORT_STACK_SIZE`. -/
def sortStackSize : ℕ := 16

/-- A phase core is in: whether it runs in a critical section, how many spans the bridge had started
before it, and the handle its `START` pushed, if it did. -/
structure CorePhase where
  phase : SdtPhase
  inCritSection : Bool
  since : ℕ
  pushed : Option OtelSpanRef
  deriving DecidableEq

/-- The static variables of the bridge, `pg_sdt_probe_enabled_mask`, the spans the bridge has
started, and core's phases, innermost first.  `abandoned` are phases an error ended without an
abort of the transaction. -/
structure SdtSt where
  sdtStack : List (OtelSpanRef × SdtPhase) := []
  sortStack : List OtelSpanRef := []
  txnSpan : OtelSpanRef := otelSpanNone
  wantedMask : ProbeMask := fun _ => false
  enabledMask : ProbeMask := fun _ => false
  spans : Spans := {}
  phases : List CorePhase := []
  abandoned : List CorePhase := []

/-- What a call of the hook finds: a client backend or a parallel worker, a critical section, a
context to start spans under, whether a start opens a span, and what the span would belong to; and
for the recovery probe whether its arguments carry a context. -/
structure SdtEnv where
  clientOrWorker : Bool := true
  inCritSection : Bool := false
  hasContext : Bool := true
  opens : Bool := true
  noOwner : Bool := false
  nestLevel : ℕ := 1
  traceparentOk : Bool := true
  deriving DecidableEq

namespace SdtSt

variable (env : SdtEnv)

/-- `sdt_sync_probe_mask`. -/
def sdtSyncProbeMask (s : SdtSt) : SdtSt :=
  { s with
    enabledMask := fun id => s.wantedMask id ||
      (match id with
        | .phaseDone phase => s.sdtStack.any fun e => e.2 = phase
        | .sortDone => !s.sortStack.isEmpty
        | .transactionCommit | .transactionAbort => decide (s.txnSpan.v ≠ 0)
        | _ => false) }

/-- `sdt_probes_assign_hook`. -/
def sdtProbesAssignHook (mask : List PgSdtProbeId) (s : SdtSt) : SdtSt :=
  { s with wantedMask := fun id => id ∈ mask }.sdtSyncProbeMask

/-- `otel_span_start` by the bridge. -/
def startSpan (session detached : Bool) (s : SdtSt) : SdtSt × OtelSpanRef :=
  if env.opens then
    ({ s with spans := s.spans.start session env.nestLevel detached }, spanHandle s.spans.count)
  else
    (s, otelSpanNone)

/-- `sdt_discard_open_spans`. -/
def sdtDiscardOpenSpans (s : SdtSt) : SdtSt :=
  { s with
    spans := (s.sdtStack.map Prod.fst ++ s.sortStack).foldl Spans.discard s.spans
    sdtStack := []
    sortStack := [] }.sdtSyncProbeMask

/-- The `TRANSACTION_COMMIT` and `TRANSACTION_ABORT` probes end the transaction's span. -/
def endTxnSpan (s : SdtSt) : SdtSt :=
  if s.txnSpan.v ≠ 0 then
    { s with spans := s.spans.finish s.txnSpan, txnSpan := otelSpanNone }
  else
    s

/-- The `START` path pushes an entry: there is a context to inherit and room for it. -/
def pushes (s : SdtSt) : Bool := env.hasContext && decide (s.sdtStack.length < sdtStackSize)

/-- The switch of `otel_sdt_hook` and the two paths after it. -/
def dispatch (id : PgSdtProbeId) (s : SdtSt) : SdtSt :=
  match id with
  | .transactionStart =>
    if s.txnSpan.v = 0 then
      let started := s.startSpan env false true
      { started.1 with txnSpan := started.2 }
    else
      s
  | .transactionCommit =>
    { s.endTxnSpan with sdtStack := [], sortStack := [] }.sdtSyncProbeMask
  | .transactionAbort => s.endTxnSpan.sdtDiscardOpenSpans
  | .recoveryXactCommit =>
    if env.traceparentOk then
      let started := s.startSpan env env.noOwner true
      { started.1 with spans := started.1.spans.finish started.2 }
    else
      s
  | .phaseStart phase =>
    if s.pushes env then
      let started := s.startSpan env env.noOwner false
      { started.1 with sdtStack := (started.2, phase) :: s.sdtStack }
    else
      s
  | .sortStart =>
    if env.hasContext ∧ s.sortStack.length < sortStackSize then
      let started := s.startSpan env env.noOwner true
      { started.1 with sortStack := started.2 :: s.sortStack }
    else
      s
  | .phaseDone phase =>
    match s.sdtStack with
    | (ref, started) :: rest =>
      if started = phase then
        let popped := { s with sdtStack := rest }.sdtSyncProbeMask
        { popped with spans := popped.spans.finish ref }
      else
        s
    | [] => s
  | .sortDone =>
    match s.sortStack with
    | ref :: rest =>
      let popped := { s with sortStack := rest }.sdtSyncProbeMask
      { popped with spans := popped.spans.finish ref }
    | [] => s

/-- The gate of `otel_sdt_hook`. -/
def Admits (id : PgSdtProbeId) : Prop :=
  (env.clientOrWorker = true ∨ id = .recoveryXactCommit) ∧ env.inCritSection = false

instance (id : PgSdtProbeId) : Decidable (Admits env id) := inferInstanceAs (Decidable (_ ∧ _))

/-- `otel_sdt_hook`. -/
def otelSdtHook (id : PgSdtProbeId) (s : SdtSt) : SdtSt :=
  if Admits env id then s.dispatch env id else s

/-- A probe at its call site. -/
def fire (id : PgSdtProbeId) (s : SdtSt) : SdtSt :=
  if s.enabledMask id then s.otelSdtHook env id else s

/-- `otel_sdt_xact_cb` on an abort. -/
def otelSdtXactCbAbort (s : SdtSt) : SdtSt := { s with txnSpan := otelSpanNone }.sdtDiscardOpenSpans

end SdtSt

/-! ## Core -/

inductive SdtAct
  | phaseStart (phase : SdtPhase) (env : SdtEnv)
  /-- The innermost phase ends. -/
  | phaseDone (env : SdtEnv)
  | sortStart (env : SdtEnv)
  | sortDone (env : SdtEnv)
  | transactionStart (env : SdtEnv)
  | transactionCommit (env : SdtEnv)
  /-- `AbortTransaction`, for an error that ends all phases or for a `ROLLBACK` that ends none. -/
  | abortTransaction (env : SdtEnv) (unwinds : Bool)
  /-- An error outside a transaction, or in one that has been aborted already. -/
  | errorWithoutAbort
  /-- An error that is caught after it has ended the innermost phases. -/
  | caughtError (ended : ℕ)
  /-- The producer closes spans on its own: their owner is released, or spans below them end. -/
  | lose (lost : List OtelSpanRef) (how : SpanEnd)
  | setProbes (tokens : List CString)
  | recoveryXactCommit (env : SdtEnv)

/-- Phases end in the critical section they began in, and transactions outside of one. -/
def SdtAct.Enabled (clientOrWorker : Bool) (s : SdtSt) : SdtAct → Prop
  | .phaseStart _ env | .sortStart env | .sortDone env | .recoveryXactCommit env =>
    env.clientOrWorker = clientOrWorker
  | .phaseDone env => env.clientOrWorker = clientOrWorker ∧
      ∃ p ps, s.phases = p :: ps ∧ env.inCritSection = p.inCritSection
  | .transactionStart env | .transactionCommit env | .abortTransaction env _ =>
    env.clientOrWorker = clientOrWorker ∧ env.inCritSection = false
  | .errorWithoutAbort | .caughtError _ | .lose _ _ | .setProbes _ => True

/-- The `START` of a phase reaches the hook and pushes an entry. -/
def SdtSt.startPushes (s : SdtSt) (phase : SdtPhase) (env : SdtEnv) : Bool :=
  s.enabledMask (.phaseStart phase) && decide (Admits env (.phaseStart phase)) && s.pushes env

def SdtSt.next (s : SdtSt) : SdtAct → SdtSt
  | .phaseStart phase env =>
    let fired := s.fire env (.phaseStart phase)
    { fired with
      phases := { phase
                  inCritSection := env.inCritSection
                  since := s.spans.count
                  pushed := if s.startPushes phase env then fired.sdtStack.head?.map Prod.fst
                    else none } :: s.phases }
  | .phaseDone env =>
    match s.phases with
    | p :: ps => { s.fire env (.phaseDone p.phase) with phases := ps }
    | [] => s
  | .sortStart env => s.fire env .sortStart
  | .sortDone env => s.fire env .sortDone
  | .transactionStart env => s.fire env .transactionStart
  | .transactionCommit env => s.fire env .transactionCommit
  | .abortTransaction env unwinds =>
    let aborted := (s.fire env .transactionAbort).otelSdtXactCbAbort
    if unwinds then { aborted with phases := [] } else aborted
  | .errorWithoutAbort => { s with phases := [], abandoned := s.phases ++ s.abandoned }
  | .caughtError ended => { s with phases := s.phases.drop ended }
  | .lose lost how => { s with spans := s.spans.close (fun o => o.ref ∈ lost) how }
  | .setProbes tokens =>
    match sdtProbesParse tokens with
    | some mask => s.sdtProbesAssignHook mask
    | none => s
  | .recoveryXactCommit env => s.fire env .recoveryXactCommit

/-- Core with the bridge, in one backend. -/
def sdt (clientOrWorker : Bool) : Machine SdtSt SdtAct where
  init := {}
  enabled s a := a.Enabled clientOrWorker s
  next := SdtSt.next

end PostgresOtel
