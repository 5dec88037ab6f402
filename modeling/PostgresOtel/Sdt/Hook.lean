import PostgresOtel.Context.Traceparent
import PostgresOtel.Lib.Printf
import PostgresOtel.Producer.Scripts
import PostgresOtel.Trace.Requests

/-!
# The probe hook as it calls the producer

`otel_sdt_hook` with everything it passes on: the start arguments and attributes of its spans, the links
between a query and its transaction, and the span for a replayed commit.  It is a script of producer
calls over the static variables of `otel_sdt_bridge.c`, which hold handles of the producer, and ends
with those it leaves if all its calls return.
-/

set_option autoImplicit false

namespace PostgresOtel

open Inline

/-! ## Arguments and variables -/

/-- `PgSdtArg`: the tag, and the member of the union that it stands for. -/
inductive PgSdtArg
  | i (v : BitVec 64)
  | s (v : Option CString)
  | other (tag : UInt8)
  deriving DecidableEq

/-- What the hook finds in its process; `topTransactionId` is zero if the transaction has none. -/
structure SdtHost where
  env : Env := {}
  hasMyProcPort : Bool := true
  otelPgTracer : OtelTracer := { name := some (cstr "otel_postgres_tracing") }
  myProcPid : ℤ := 0
  topTransactionResourceOwner : Option ResourceOwner := none
  topTransactionId : ℕ := 0
  currentTimestamp : TimestampTz := 0

/-- The static variables, and `pg_sdt_probe_enabled_mask`. -/
structure SdtVars where
  sdtStack : List (OtelSpanRef × SdtPhase) := []
  sortStack : List OtelSpanRef := []
  txnSpan : OtelSpanRef := otelSpanNone
  wantedMask : ProbeMask := fun _ => false
  enabledMask : ProbeMask := fun _ => false

namespace SdtVars

/-- `sdt_sync_probe_mask`. -/
def sdtSyncProbeMask (v : SdtVars) : SdtVars :=
  { v with
    enabledMask := fun id => v.wantedMask id ||
      (match id with
        | .phaseDone phase => v.sdtStack.any fun e => e.2 = phase
        | .sortDone => !v.sortStack.isEmpty
        | .transactionCommit | .transactionAbort => decide (v.txnSpan.v ≠ 0)
        | _ => false) }

/-- `sdt_probes_assign_hook`. -/
def sdtProbesAssignHook (mask : List PgSdtProbeId) (v : SdtVars) : SdtVars :=
  { v with wantedMask := fun id => id ∈ mask }.sdtSyncProbeMask

end SdtVars

/-! ## Attributes -/

/-- `otel_span_set_str` or `otel_span_set_int`, with what it is called with. -/
inductive SdtAttr
  | str (key val : CString)
  | int (key : CString) (val : ℤ)
  deriving DecidableEq

def SdtAttr.set (s : OtelSpanRef) : SdtAttr → Api Unit
  | .str key val => otelSpanSetStr s key (some val)
  | .int key val => otelSpanSetInt s key val

def setAttrs (s : OtelSpanRef) : List SdtAttr → Api Unit
  | [] => pure ()
  | a :: rest => do
    a.set s
    setAttrs s rest

/-- `SDT_SPAN_SOURCE_ATTR_VAL`, on every span of the bridge. -/
def spanSourceAttr : SdtAttr := .str (cstr "pg.otel.span_source") (cstr "sdt_probe")

/-- An LSN as `%lX/%08lX`. -/
def lsnText (lsn : BitVec 64) : CString :=
  Printf.upperHex (lsn >>> 32).toNat ++ 0x2F ::
    (Printf.upperHex (lsn &&& 0xFFFFFFFF).toNat).leftpad 8 0x30

/-- `sdt_lockmode_names`. -/
def sdtLockmodeNames : List CString :=
  ["NoLock", "AccessShareLock", "RowShareLock", "RowExclusiveLock", "ShareUpdateExclusiveLock",
    "ShareLock", "ShareRowExclusiveLock", "ExclusiveLock", "AccessExclusiveLock"].map cstr

/-- The names of `sdt_locktag_type_name`, by `LockTagType`. -/
def locktagTypeNames : List CString :=
  ["relation", "extend", "frozenid", "page", "tuple", "transactionid", "virtualxid", "spectoken",
    "object", "userlock", "advisory", "applytransaction"].map cstr

/-- `sdt_locktag_type_name`. -/
def sdtLocktagTypeName (t : ℤ) : Option CString := if 0 ≤ t then locktagTypeNames[t.toNat]? else none

def sdtLockmodeName (mode : ℤ) : Option CString :=
  if 1 ≤ mode then sdtLockmodeNames[mode.toNat]? else none

/-- A name, or the number where there is none. -/
def nameOrNumber (key : CString) (name : Option CString) (n : ℤ) : SdtAttr :=
  match name with
  | some name => .str key name
  | none => .int key n

/-- The arguments of the lock-wait probe. -/
structure LockWait where
  field1 : ℤ
  field2 : ℤ
  field3 : ℤ
  field4 : ℤ
  locktagType : ℤ
  mode : ℤ
  deriving DecidableEq

/-- The fields of the lock tag, as its type names them. -/
def lockFieldAttrs (w : LockWait) : List SdtAttr :=
  let relation : List SdtAttr :=
    [.int (cstr "pg.lock.dboid") w.field1, .int (cstr "pg.lock.relid") w.field2]
  let block : SdtAttr := .int (cstr "pg.lock.block") w.field3
  match w.locktagType with
  | 0 | 1 => relation
  | 3 => relation ++ [block]
  | 4 => relation ++ [block, .int (cstr "pg.lock.offset") w.field4]
  | 5 => [.int (cstr "pg.lock.xid") w.field1]
  | 7 => [.int (cstr "pg.lock.xid") w.field1, .int (cstr "pg.lock.spectoken") w.field2]
  | 6 => [.int (cstr "pg.lock.procno") w.field1, .int (cstr "pg.lock.localxid") w.field2]
  | _ =>
    [.int (cstr "pg.lock.field1") w.field1, .int (cstr "pg.lock.field2") w.field2,
      .int (cstr "pg.lock.field3") w.field3, .int (cstr "pg.lock.field4") w.field4]

def lockWaitAttrs (pid : ℤ) (w : LockWait) : List SdtAttr :=
  [.int (cstr "pg.backend.pid") pid,
    nameOrNumber (cstr "pg.lock.type") (sdtLocktagTypeName w.locktagType) w.locktagType,
    nameOrNumber (cstr "pg.lock.mode") (sdtLockmodeName w.mode) w.mode] ++ lockFieldAttrs w

/-- What the `START` path sets for a phase, from the probe's arguments. -/
def phaseAttrs (host : SdtHost) (phase : SdtPhase) (args : List PgSdtArg) : List SdtAttr :=
  match phase, args with
  | .query, .s (some text) :: _ | .parse, .s (some text) :: _ | .rewrite, .s (some text) :: _ =>
    [.str (cstr "db.query.text") text]
  | .syncrep, .i lsn :: _ => [.str (cstr "pg.commit_lsn") (lsnText lsn)]
  | .lockWait, .i field1 :: .i field2 :: .i field3 :: .i field4 :: .i locktagType :: .i mode :: _ =>
    -- The last two are cast to `int`.
    lockWaitAttrs host.myProcPid
      ⟨field1.toInt, field2.toInt, field3.toInt, field4.toInt, (locktagType.setWidth 32).toInt,
        (mode.setWidth 32).toInt⟩
  | _, _ => []

/-! ## The hook -/

section Hook

variable (host : SdtHost)

/-- `otel_span_start` with the bridge's tracer, and the attributes that follow. -/
def startSdtSpan (args : OtelSpanStartArgs) (attrs : List SdtAttr) : Api OtelSpanRef := do
  let s ← Inline.otelSpanStart host.env { args with tracer := some host.otelPgTracer }
  setAttrs s (spanSourceAttr :: attrs)
  return s

/-- `sdt_set_txn_xid`. -/
def sdtSetTxnXid (span : OtelSpanRef) : Api Unit :=
  if host.topTransactionId ≠ 0 then otelSpanSetInt span (cstr "pg.txn.xid") host.topTransactionId
  else pure ()

/-- The `TRANSACTION_START` probe. -/
def startTxnSpan (v : SdtVars) : Api SdtVars :=
  if v.txnSpan.v = 0 then do
    let s ← startSdtSpan host
      { name := some (cstr "pg.txn")
        parent := .root
        owner := match host.topTransactionResourceOwner with
          | some owner => .owner owner
          | none => .null
        detached := true }
      [.int (cstr "pg.backend.pid") host.myProcPid]
    return { v with txnSpan := s }
  else
    return v

/-- The transaction's span in the `TRANSACTION_COMMIT` and `TRANSACTION_ABORT` probes. -/
def endTxnSpan (aborted : Bool) (v : SdtVars) : Api SdtVars :=
  if v.txnSpan.v ≠ 0 then do
    if aborted then otelSpanSetStatus v.txnSpan .error (some (cstr "transaction aborted")) else pure ()
    sdtSetTxnXid host v.txnSpan
    otelSpanEnd v.txnSpan
    return { v with txnSpan := otelSpanNone }
  else
    return v

def discardAll : List OtelSpanRef → Api Unit
  | [] => pure ()
  | s :: rest => do
    otelSpanDiscard s
    discardAll rest

/-- `sdt_discard_open_spans`. -/
def sdtDiscardOpenSpans (v : SdtVars) : Api SdtVars := do
  discardAll (v.sdtStack.map Prod.fst ++ v.sortStack)
  return { v with sdtStack := [], sortStack := [] }.sdtSyncProbeMask

/-- The `RECOVERY_XACT_COMMIT` probe. -/
def replicaApply (args : List PgSdtArg) : Api Unit :=
  match args with
  | .s traceparent :: .i lsn :: _ =>
    match traceparent.bind otelTraceparentParse with
    | some parentCtx => do
      let s ← startSdtSpan host
        { name := some (cstr "pg.replica.apply")
          kind := .consumer
          parent := .context
          parentCtx := some parentCtx
          detached := true
          startTime := host.currentTimestamp }
        [.str (cstr "pg.commit_lsn") (lsnText lsn)]
      otelSpanEndAt s host.currentTimestamp
    | none => pure ()
  | _ => pure ()

/-- The context of one span becomes a link of another. -/
def linkTo (s target : OtelSpanRef) : Api Unit := do
  let ctx ← otelSpanContextOf target
  match ctx with
  | some ctx => otelSpanAddLink s (some ctx)
  | none => pure ()

/-- The `START` path of a phase. -/
def startPhase (phase : SdtPhase) (args : List PgSdtArg) (v : SdtVars) : Api SdtVars := do
  let ctx ← otelSpanContextOf otelSpanNone
  if ctx.isSome ∧ v.sdtStack.length < sdtStackSize then
    let s ← startSdtSpan host { name := some (sdtSpanName phase) } (phaseAttrs host phase args)
    if phase = .query ∧ v.txnSpan.v ≠ 0 then
      linkTo s v.txnSpan
      linkTo v.txnSpan s
    else
      pure ()
    return { v with sdtStack := (s, phase) :: v.sdtStack }
  else
    return v

/-- The `START` path of a sort. -/
def startSort (v : SdtVars) : Api SdtVars := do
  let ctx ← otelSpanContextOf otelSpanNone
  if ctx.isSome ∧ v.sortStack.length < sortStackSize then
    let s ← startSdtSpan host { name := some (cstr "pg.sort"), detached := true } []
    return { v with sortStack := s :: v.sortStack }
  else
    return v

/-- The `DONE` path of a phase. -/
def donePhase (phase : SdtPhase) (v : SdtVars) : Api SdtVars :=
  match v.sdtStack with
  | (s, started) :: rest =>
    if started = phase then do
      otelSpanEnd s
      return { v with sdtStack := rest }.sdtSyncProbeMask
    else
      return v
  | [] => return v

/-- The `DONE` path of a sort. -/
def doneSort (v : SdtVars) : Api SdtVars :=
  match v.sortStack with
  | s :: rest => do
    otelSpanEnd s
    return { v with sortStack := rest }.sdtSyncProbeMask
  | [] => return v

/-- The switch of `otel_sdt_hook` and the two paths after it. -/
def dispatchProbe (id : PgSdtProbeId) (args : List PgSdtArg) (v : SdtVars) : Api SdtVars :=
  match id with
  | .transactionStart => startTxnSpan host v
  | .transactionCommit => do
    let v ← endTxnSpan host false v
    return { v with sdtStack := [], sortStack := [] }.sdtSyncProbeMask
  | .transactionAbort => do
    let v ← endTxnSpan host true v
    sdtDiscardOpenSpans v
  | .recoveryXactCommit => do
    replicaApply host args
    return v
  | .phaseStart phase => startPhase host phase args v
  | .sortStart => startSort host v
  | .phaseDone phase => donePhase phase v
  | .sortDone => doneSort v

/-- `otel_sdt_hook`. -/
def sdtHook (id : PgSdtProbeId) (args : List PgSdtArg) (v : SdtVars) : Api SdtVars :=
  if host.hasMyProcPort = false ∧ host.env.isParallelWorker = false ∧ id ≠ .recoveryXactCommit then
    return v
  else if 0 < host.env.critSectionCount then
    return v
  else
    dispatchProbe host id args v

/-- A probe at its call site. -/
def fireProbe (id : PgSdtProbeId) (args : List PgSdtArg) (v : SdtVars) : Api SdtVars :=
  if v.enabledMask id then sdtHook host id args v else return v

/-- `otel_sdt_xact_cb` on an abort. -/
def sdtXactCbAbort (v : SdtVars) : Api SdtVars :=
  sdtDiscardOpenSpans { v with txnSpan := otelSpanNone }

end Hook

/-! ## What the statement spans use -/

def otelSdtGetTxnContext (v : SdtVars) : Api (Option OtelSpanContext) :=
  if v.txnSpan.v = 0 then return none else otelSpanContextOf v.txnSpan

def otelSdtLinkStmtToTxn (stmtCtx : OtelSpanContext) (v : SdtVars) : Api Unit :=
  if v.txnSpan.v = 0 then return () else otelSpanAddLink v.txnSpan (some stmtCtx)

/-- The end of `start_stmt_span`. -/
def linkStmtSpan (s : OtelSpanRef) (v : SdtVars) : Api Unit := do
  let txnCtx ← otelSdtGetTxnContext v
  match txnCtx with
  | some txnCtx =>
    otelSpanAddLink s (some txnCtx)
    let myCtx ← otelSpanContextOf s
    match myCtx with
    | some myCtx => otelSdtLinkStmtToTxn myCtx v
    | none => pure ()
  | none => pure ()

end PostgresOtel
