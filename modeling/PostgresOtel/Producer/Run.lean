import PostgresOtel.Lib.Machine
import PostgresOtel.Producer.EndRefinement
import PostgresOtel.Producer.Ledger
import PostgresOtel.Producer.StartRefinement

/-!
# Runs of the producer

The producer as a machine: its labels are the calls and callbacks it gets, each with surroundings of
its own and with core's state as it is at that moment.  A call that raises leaves its state behind
and the run goes on.
-/

set_option autoImplicit false

namespace PostgresOtel

open Exec

/-- What can happen to the producer. -/
inductive ProducerOp
  | spanStart (args : Option OtelSpanStartArgs)
  | spanEnd (ref : OtelSpanRef) (endTime : TimestampTz)
  | spanDiscard (ref : OtelSpanRef)
  | spanActivate (ref : OtelSpanRef)
  | spanDeactivate (tok : OtelActivation)
  | spanSetStr (ref : OtelSpanRef) (key : CString) (val : Option CString)
  | spanSetInt (ref : OtelSpanRef) (key : CString) (val : ℤ)
  | spanSetDouble (ref : OtelSpanRef) (key : CString) (val : BitVec 64)
  | spanSetBool (ref : OtelSpanRef) (key : CString) (val : Bool)
  | spanSetVprintf (ref : OtelSpanRef) (key formatted : CString)
  | spanSetName (ref : OtelSpanRef) (name : Option CString)
  | spanSetStatus (ref : OtelSpanRef) (code : OtelSpanStatus) (description : Option CString)
  | spanAddEvent (ref : OtelSpanRef) (name : Option CString) (ts : TimestampTz)
      (attrs : List AttrArg)
  | spanAddLink (ref : OtelSpanRef) (target : Option OtelSpanContext)
  | spanRecordError (ref : OtelSpanRef) (edata : Option ErrorData)
  | spanCaptureError (ref : OtelSpanRef)
  | spanCurrent
  | spanContextOf (ref : OtelSpanRef)
  /-- A report reaches `emit_log_hook`. -/
  | emitLog (edata : ErrorData)
  /-- A resource owner releases one of its handles. -/
  | ownerRelease (owner : ResourceOwner) (ref : OwnedRef) (isCommit : Bool)
  | xactCallback (event : XactEvent)
  | subxactCallback (event : SubXactEvent)
  | shmemExit

/-- Run a call for its effect. -/
def discardResult {α : Type} (x : M α) : M Unit := do
  let _ ← x
  return ()

def runOp (env : Env) : ProducerOp → M Unit
  | .spanStart args => discardResult (apiSpanStart env args)
  | .spanEnd ref endTime => apiSpanEnd env ref endTime
  | .spanDiscard ref => apiSpanDiscard env ref
  | .spanActivate ref => discardResult (apiSpanActivate env ref)
  | .spanDeactivate tok => apiSpanDeactivate env tok
  | .spanSetStr ref key val => apiSpanSetStr env ref key val
  | .spanSetInt ref key val => apiSpanSetInt env ref key val
  | .spanSetDouble ref key val => apiSpanSetDouble env ref key val
  | .spanSetBool ref key val => apiSpanSetBool env ref key val
  | .spanSetVprintf ref key formatted => apiSpanSetVprintf env ref key formatted
  | .spanSetName ref name => apiSpanSetName env ref name
  | .spanSetStatus ref code description => apiSpanSetStatus env ref code description
  | .spanAddEvent ref name ts attrs => apiSpanAddEvent env ref name ts attrs
  | .spanAddLink ref target => apiSpanAddLink env ref target
  | .spanRecordError ref edata => apiSpanRecordError env ref edata
  | .spanCaptureError ref => apiSpanCaptureError env ref
  | .spanCurrent => discardResult (apiSpanCurrent env)
  | .spanContextOf ref => discardResult (apiSpanContextOf env ref)
  | .emitLog edata => otelEmitLogHook env edata
  | .ownerRelease owner ref isCommit => resourceOwnerRelease env owner ref isCommit
  | .xactCallback event => otelXactCallback event
  | .subxactCallback event => otelSubxactCallback env event
  | .shmemExit => otelProducerShmemExit

/-- What callers and core promise about a call: handles and tokens that are ended, discarded or
activated were given out by the API; an owner releases a handle it holds, and after a `FATAL` it
does so only to abort. -/
def ProducerOp.Valid (s : St) : ProducerOp → Prop
  | .spanEnd ref _ => ref.Issued
  | .spanDiscard ref => ref.Issued
  | .spanActivate ref => ref.Issued
  | .ownerRelease owner ref isCommit =>
    ref ∈ s.owners owner ∧ (isCommit = true → s.dispatchDepth = 0)
  | _ => True

/-- The recording spans a call ends, read off the state before it. -/
def Lifecycle.endedByOp (c : Lifecycle) (env : Env) : ProducerOp → List ℕ
  | .spanEnd ref _ => c.endedByEnd env ref
  | .spanDeactivate tok => c.endedByDeactivate env tok
  | .ownerRelease _ ref isCommit => c.endedByRelease ref.1 isCommit
  | _ => []

/-- A call with its surroundings, and core's state when it is made. -/
structure Call where
  env : Env
  backend : Backend
  op : ProducerOp

/-- The state in which a call starts. -/
def St.enter (s : St) (call : Call) : St := { s with backend := call.backend }

/-- The slots array is not zeroed, so a run may start with anything in it. -/
def initSt (garbage : ℕ → OtelSlot) : St := { slots := garbage }

/-- The producer as a machine. -/
def producer (garbage : ℕ → OtelSlot) : Machine St Call where
  init := initSt garbage
  enabled s call := call.op.Valid s
  next s call := endState (runOp call.env call.op) (s.enter call)

variable (env : Env)

theorem Quiet.follows {α : Type} {x : M α} (h : Quiet x) (s : St) : Follows env s [] x :=
  h.wp fun _ _ hs => ⟨.of_eq (St.core_eq hs).1, (St.core_eq hs).2⟩

theorem Follows.discardResult {α : Type} {x : M α} {s : St} {ended : List ℕ}
    (h : Follows env s ended x) : Follows env s ended (discardResult x) := by
  unfold PostgresOtel.discardResult Follows
  rw [wp_bind]
  exact h

theorem follows_apiSpanCaptureError (ref : OtelSpanRef) (s : St) :
    Follows env s [] (apiSpanCaptureError env ref) := by
  unfold apiSpanCaptureError Follows
  rw [wp_bind]
  refine (quiet_setterSlot env ref).wp fun slot s₁ h₁ => ?_
  obtain ⟨hl₁, he₁⟩ := St.core_eq h₁
  have raises {edata : ErrorData} : Wp (raiseError edata : M Unit)
      (fun _ s' => LifePath env.sink s.life s'.life ∧
        s'.backend.errorStack = env.errorsAfter [] s.backend.errorStack)
      (fun _ s' => LifePath env.sink s.life s'.life) s₁ :=
    wp_raiseError fun _ h => .of_eq (h.trans hl₁)
  have records {x : M Unit} (hx : Quiet x) : Wp x
      (fun _ s' => LifePath env.sink s.life s'.life ∧
        s'.backend.errorStack = env.errorsAfter [] s.backend.errorStack)
      (fun _ s' => LifePath env.sink s.life s'.life) s₁ := by
    refine hx.wp fun _ s₂ h₂ => ?_
    obtain ⟨hl₂, he₂⟩ := St.core_eq h₂
    exact ⟨.of_eq (hl₂.trans hl₁), he₂.trans he₁⟩
  cases slot with
  | none => exact ⟨.of_eq hl₁, he₁⟩
  | some i =>
    dsimp only
    rw [wp_bind, wp_get]
    cases s₁.backend.errorStack with
    | nil => exact raises
    | cons edata _ =>
      dsimp only
      rw [wp_ite]
      refine ⟨fun _ => records (tame_slotRecordError env i _).quiet, fun _ => ?_⟩
      rw [wp_ite]
      refine ⟨fun _ => ?_, fun _ => records (tame_recordCopy env i edata).quiet⟩
      rw [wp_bind]
      refine (tame_request i _ 0).quiet.wp fun _ s₂ h₂ => wp_raiseError fun _ h => .of_eq ?_
      rw [h, (St.core_eq h₂).1, hl₁]

/-- Every call is a path of life cycle steps, and ends the spans that `endedByOp` says. -/
theorem follows_runOp (op : ProducerOp) {s : St} (hinv : PoolInv s.life) (hop : op.Valid s) :
    Follows env s (s.life.endedByOp env op) (runOp env op) := by
  cases op with
  | spanStart args => exact (follows_apiSpanStart env args hinv).discardResult
  | spanEnd ref endTime => exact follows_apiSpanEnd env ref endTime hinv hop
  | spanDiscard ref => exact follows_apiSpanDiscard env ref hinv hop
  | spanActivate ref => exact (follows_apiSpanActivate env ref hop).discardResult
  | spanDeactivate tok => exact follows_apiSpanDeactivate env tok hinv
  | spanSetStr ref key val => exact (setter_apiSpanSetStr env ref key val).quiet.follows env s
  | spanSetInt ref key val => exact (setter_setScalar env ref key _).quiet.follows env s
  | spanSetDouble ref key val => exact (setter_setScalar env ref key _).quiet.follows env s
  | spanSetBool ref key val => exact (setter_setScalar env ref key _).quiet.follows env s
  | spanSetVprintf ref key formatted =>
    exact (setter_apiSpanSetVprintf env ref key formatted).quiet.follows env s
  | spanSetName ref name => exact (setter_apiSpanSetName env ref name).quiet.follows env s
  | spanSetStatus ref code description =>
    exact (setter_apiSpanSetStatus env ref code description).quiet.follows env s
  | spanAddEvent ref name ts attrs =>
    exact (setter_apiSpanAddEvent env ref name ts attrs).quiet.follows env s
  | spanAddLink ref target => exact (setter_apiSpanAddLink env ref target).quiet.follows env s
  | spanRecordError ref edata => exact (setter_apiSpanRecordError env ref edata).quiet.follows env s
  | spanCaptureError ref => exact follows_apiSpanCaptureError env ref s
  | spanCurrent => exact ((tame_apiSpanCurrent env).quiet.follows env s).discardResult
  | spanContextOf ref => exact ((quiet_apiSpanContextOf env ref).follows env s).discardResult
  | emitLog edata => exact (tame_otelEmitLogHook env edata).quiet.follows env s
  | ownerRelease owner ref isCommit =>
    exact follows_resourceOwnerRelease env owner ref isCommit hinv hop.2
  | xactCallback event => exact follows_otelXactCallback env event s
  | subxactCallback event => exact follows_otelSubxactCallback env event s
  | shmemExit => exact ⟨.refl, rfl⟩

/-! ## Calls from an emit hook -/

/-- The call changes something in the producer when it is not refused. -/
def ProducerOp.changes : ProducerOp → Bool
  | .spanCurrent | .spanContextOf _ => false
  | .emitLog _ | .ownerRelease .. | .xactCallback _ | .subxactCallback _ | .shmemExit => false
  | _ => true

section InEmitHook

variable {env : Env} {s : St} (hd : 0 < s.dispatchDepth)
include hd

theorem callRefused_bind {f : Bool → M Unit} (h : f true = pure ()) :
    (callRefused env false >>= f) s = runHookAct env .call s := by
  have hrefused : ∃ s', callRefused env false s = .ok true s' := by
    obtain ⟨a, s', hok, ha⟩ := Wp.exists_ok (x := callRefused env false) (s := s)
      (Q := fun a _ => a = true) (by
        unfold callRefused
        rw [wp_bind, wp_get, wp_ite]
        refine ⟨fun _ => rfl, fun _ => ?_⟩
        rw [wp_ite]
        exact ⟨fun _ => rfl, fun hno => absurd ⟨hd, rfl⟩ hno⟩)
    exact ⟨s', ha ▸ hok⟩
  obtain ⟨s', hok⟩ := hrefused
  have hrun (g : Bool → M Unit) : (callRefused env false >>= g) s = g true s' := by
    change EStateM.bind _ _ s = _
    unfold EStateM.bind
    rw [hok]
  rw [hrun, h]
  exact (hrun fun _ => pure ()).symm

theorem callRefused_discard {α : Type} {f : Bool → M α} {a : α} (h : f true = pure a) :
    discardResult (callRefused env false >>= f) s = runHookAct env .call s := by
  unfold discardResult
  rw [bind_assoc]
  apply callRefused_bind hd
  rw [h, pure_bind]

theorem Setter.inEmitHook {ref : OtelSpanRef} {x : M Unit} (h : Setter env ref x) :
    x s = runHookAct env .call s := by
  obtain ⟨f, rfl, hnone, -⟩ := h
  unfold setterSlot
  rw [bind_assoc]
  apply callRefused_bind hd
  rw [if_pos (.inl rfl), pure_bind, hnone]

/-- Whatever an emit hook asks the producer to change is refused. -/
theorem runOp_inEmitHook {op : ProducerOp} (hop : op.changes = true) :
    runOp env op s = runHookAct env .call s := by
  cases op with
  | spanStart args => exact callRefused_discard hd (a := otelSpanNone) rfl
  | spanEnd ref endTime => exact callRefused_bind hd (if_pos (.inl rfl))
  | spanDiscard ref => exact callRefused_bind hd (if_pos (.inl rfl))
  | spanActivate ref => exact callRefused_discard hd (if_pos (.inl rfl))
  | spanDeactivate tok => exact callRefused_bind hd (if_pos (.inl rfl))
  | spanSetStr ref key val => exact (setter_apiSpanSetStr env ref key val).inEmitHook hd
  | spanSetInt ref key val => exact (setter_setScalar env ref key _).inEmitHook hd
  | spanSetDouble ref key val => exact (setter_setScalar env ref key _).inEmitHook hd
  | spanSetBool ref key val => exact (setter_setScalar env ref key _).inEmitHook hd
  | spanSetVprintf ref key formatted => exact (setter_apiSpanSetVprintf env ref key formatted).inEmitHook hd
  | spanSetName ref name => exact (setter_apiSpanSetName env ref name).inEmitHook hd
  | spanSetStatus ref code description =>
    exact (setter_apiSpanSetStatus env ref code description).inEmitHook hd
  | spanAddEvent ref name ts attrs => exact (setter_apiSpanAddEvent env ref name ts attrs).inEmitHook hd
  | spanAddLink ref target => exact (setter_apiSpanAddLink env ref target).inEmitHook hd
  | spanRecordError ref edata => exact (setter_apiSpanRecordError env ref edata).inEmitHook hd
  | spanCaptureError ref =>
    show apiSpanCaptureError env ref s = _
    unfold apiSpanCaptureError setterSlot
    rw [bind_assoc]
    apply callRefused_bind hd
    rw [if_pos (.inl rfl)]
    rfl
  | spanCurrent | spanContextOf | emitLog | ownerRelease | xactCallback | subxactCallback | shmemExit =>
    cases hop

end InEmitHook

/-! ## Invariants of runs -/

variable {garbage : ℕ → OtelSlot}

theorem poolInv_init : PoolInv (initSt garbage).life where
  slots_valid := (FreeList.threads_empty fun i => (garbage i).nextFree).congr
    (fun _ h => h.elim) fun i => by simp [St.life, initSt]
  slots_used_le := Nat.zero_le _
  not_ready _ := rfl
  nrecs_valid := (FreeList.threads_empty fun _ => 0).congr
    (fun _ h => h.elim) fun i => by simp [St.life, initSt]
  nrecs_used_le := Nat.zero_le _
  stack_live _ h := absurd h List.not_mem_nil
  stack_nodup := List.nodup_nil
  stack_le := Nat.zero_le _
  stack_detached _ h := absurd h List.not_mem_nil
  session_open := rfl
  not_dispatching _ i h := absurd h.1 (Nat.not_lt_zero i)
  unmarked i h := absurd h (Nat.not_lt_zero i)

theorem ledger_init : Ledger (initSt garbage).life where
  serial_lt i h := absurd h.1 (Nat.not_lt_zero i)
  serial_inj i _ h := absurd h.1 (Nat.not_lt_zero i)
  ended_lt _ h := absurd h List.not_mem_nil
  ended_nodup := List.nodup_nil
  open_not_ended i h := absurd h.1 (Nat.not_lt_zero i)
  covered n h := absurd h (Nat.not_lt_zero n)
  dispatched_lt _ h := absurd h List.not_mem_nil
  dispatched_nodup := List.nodup_nil
  open_dispatched i h := absurd h.1 (Nat.not_lt_zero i)
  fate_dispatched _ _ h := absurd h List.not_mem_nil
  leaked_eq := rfl
  dropped_eq := rfl

theorem valid_enter {op : ProducerOp} {s : St} (call : Call) :
    op.Valid (s.enter call) ↔ op.Valid s := by
  cases op <;> rfl

/-- One step of the machine, seen through the life cycle. -/
theorem life_step (garbage : ℕ → OtelSlot) {s : St} {call : Call} (hinv : PoolInv s.life) (he : call.op.Valid s) :
    LifePath call.env.sink s.life ((producer garbage).next s call).life :=
  ((follows_runOp call.env call.op (s := s.enter call) hinv ((valid_enter call).2 he)).mono
    (fun _ _ h => h.1) fun _ _ h => h).endState

theorem reachable_poolInv {s : St} (h : (producer garbage).Reachable s) : PoolInv s.life :=
  Machine.Reachable.invariant (I := fun s => PoolInv s.life) poolInv_init
    (fun _ _ hinv he => hinv.path (life_step garbage hinv he)) h

/-- The ledger holds along paths that keep the pools in order. -/
theorem Ledger.path {sink : Bool} {c c' : Lifecycle} (h : Ledger c) (hinv : PoolInv c)
    (hp : LifePath sink c c') : Ledger c' :=
  (hp.invariant (I := fun c => PoolInv c ∧ Ledger c)
    (fun _ _ hI hs => ⟨hI.1.step hs, hI.2.step hI.1 hs⟩) ⟨hinv, h⟩).2

theorem reachable_ledger {s : St} (h : (producer garbage).Reachable s) : Ledger s.life :=
  (Machine.Reachable.invariant (I := fun s => PoolInv s.life ∧ Ledger s.life)
    ⟨poolInv_init, ledger_init⟩
    (fun _ _ hI he => ⟨hI.1.path (life_step garbage hI.1 he),
      hI.2.path hI.1 (life_step garbage hI.1 he)⟩) h).2

theorem emitted_init : Emitted (initSt garbage).life := rfl

theorem reachable_emitted {s : St}
    (h : (producer garbage).ReachBy (fun _ call => call.env.sink = true) s) : Emitted s.life :=
  (Machine.ReachBy.invariant (I := fun s => PoolInv s.life ∧ Emitted s.life)
    ⟨poolInv_init, emitted_init⟩
    (fun s call hI he hs => by
      have hp := life_step garbage hI.1 he
      rw [hs] at hp
      exact ⟨hI.1.path hp, hp.invariant (fun _ _ hc hst => hc.step hst) hI.2⟩) h).2

end PostgresOtel
