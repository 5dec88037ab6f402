import PostgresOtel.Producer.Run

/-!
# What calls leave in the history

Recording spans are started and dispatched, and the sinks are reached.  Only the end of a start starts a
span, and only `dispatch_span` dispatches one or reaches a sink: a call is within every preorder that
lets the rest of the state change, as soon as these two are.
-/

set_option autoImplicit false

namespace PostgresOtel

open Exec

/-- No recording span is started or dispatched, and no sink is reached. -/
structure SameHistory (s s' : St) : Prop where
  started : s'.counters.spansStarted = s.counters.spansStarted
  dispatches : s'.dispatches = s.dispatches
  delivered : s'.delivered = s.delivered

/-- A preorder that lets everything change but the history. -/
class Historic (R : St → St → Prop) : Prop extends Std.Refl R, IsTrans St R where
  of_same : ∀ {s s' : St}, SameHistory s s' → R s s'

variable {R : St → St → Prop} [Historic R] {α : Type}

/-! ## Steps -/

theorem historic_modify {f : St → St} (h : ∀ s, SameHistory s (f s)) :
    Within R (modify f : M PUnit) := within_modify fun s => Historic.of_same (h s)

theorem Quiet.historic {x : M α} (h : Quiet x) : Within R x := fun _ =>
  h.wp fun _ _ hs => Historic.of_same ⟨congrArg Lifecycle.started (St.core_eq hs).1,
    congrArg (fun c => c.2.2.1) hs, congrArg (fun c => c.2.2.2) hs⟩

theorem historic_runIf {c : Prop} [Decidable c] {x : M Unit} (h : Within R x) :
    Within R (runIf c x) := .ite h (within_pure _)

theorem historic_modifySlot (i : ℕ) (f : OtelSlot → OtelSlot) : Within R (modifySlot i f) :=
  historic_modify fun _ => ⟨rfl, rfl, rfl⟩

theorem historic_count {f : OtelApiCounters → OtelApiCounters}
    (h : ∀ c, (f c).spansStarted = c.spansStarted) : Within R (modifyCounters f) :=
  historic_modify fun s => ⟨h s.counters, rfl, rfl⟩

theorem historic_backend (f : Backend → Backend) : Within R (modifyBackend f) :=
  historic_modify fun _ => ⟨rfl, rfl, rfl⟩

theorem historic_stack (f : St → List StackEntry) :
    Within R (modify fun s => { s with spanStack := f s } : M PUnit) :=
  historic_modify fun _ => ⟨rfl, rfl, rfl⟩

theorem historic_raiseError (edata : ErrorData) : Within R (raiseError edata : M α) :=
  .bind (historic_backend _) fun _ => within_throw _

theorem historic_pgTry {body handler : M α} (hb : Within R body) (hh : Within R handler) :
    Within R (pgTry body handler) := by
  refine .tryCatch hb fun e => ?_
  cases e with
  | error => exact hh
  | fatal => exact within_throw _

theorem historic_freeNrec (i : ℕ) (byOwner : Bool) : Within R (freeNrec i byOwner) :=
  historic_modify fun _ => ⟨rfl, rfl, rfl⟩

theorem historic_stackFind (e : StackRef) : Within R (stackFind e) :=
  .bind within_get fun _ => within_pure _

theorem historic_stackRemove (e : StackRef) : Within R (stackRemove e) := by
  unfold stackRemove
  refine .bind (historic_stackFind e) fun pos => ?_
  cases pos with
  | none => exact within_pure _
  | some pos => exact historic_stack _

variable (env : Env)

theorem historic_forgetSlot (i : ℕ) (slot : OtelSlot) : Within R (forgetSlot env i slot) := by
  unfold forgetSlot resourceOwnerForget
  cases slot.owner with
  | none => exact within_pure _
  | some owner =>
    refine .bind within_get fun s => .ite (historic_raiseError _) (historic_modify fun _ => ?_)
    exact ⟨rfl, rfl, rfl⟩

theorem historic_releaseSlot (i : ℕ) (byOwner : Bool) (fate : Fate) :
    Within R (releaseSlot env i byOwner fate) := by
  unfold releaseSlot
  refine .bind within_get fun s => .bind (historic_runIf (historic_forgetSlot env i _)) fun _ => ?_
  refine .bind (historic_runIf (historic_modify fun _ => ?_)) fun _ => historic_modify fun _ => ?_
  · exact ⟨rfl, rfl, rfl⟩
  · exact ⟨rfl, rfl, rfl⟩

theorem historic_dropFromLevel (level : ℕ) (isLeak : Bool) : Within R (do
    dropNrecsFromLevel level
    dropActivationsFromLevel level isLeak) := by
  have hfree (idxs : List ℕ) : Within R (freeNrecsFromLevel level idxs) := by
    induction idxs with
    | nil => exact within_pure _
    | cons i rest ih =>
      exact .bind within_get fun s => .bind (historic_runIf (historic_freeNrec i true)) fun _ => ih
  unfold dropNrecsFromLevel dropActivationsFromLevel
  refine .bind (.bind (historic_stack _) fun _ => .bind within_get fun s => hfree _) fun _ => ?_
  refine .bind within_get fun s => .bind (historic_stack _) fun _ => historic_runIf ?_
  exact historic_count fun _ => rfl

/-! ## Dispatches -/

theorem historic_runHookActs (acts : List HookAct) : Within R (runHookActs env acts) := by
  induction acts with
  | nil => exact within_pure _
  | cons act rest ih =>
    refine .bind ?_ fun _ => ih
    cases act with
    | report edata => exact (tame_otelEmitLogHook env edata).quiet.historic
    | call => exact .bind (tame_callRefused env false).quiet.historic fun _ => within_pure _
    | contextOf ref => exact .bind (quiet_apiSpanContextOf env ref).historic fun _ => within_pure _
    | catchError =>
      unfold runHookAct
      exact historic_backend _

theorem historic_runEmitHook (run : HookRun) : Within R (runEmitHook env run) := by
  unfold runEmitHook
  refine .bind (historic_runHookActs env _) fun _ => ?_
  cases run.finish with
  | returns => exact within_pure _
  | raisesError edata => exact historic_raiseError edata
  | raisesFatal => exact within_throw _

theorem historic_recoverDispatch (depth : ℕ) (save : Backend) :
    Within R (recoverDispatch depth save) := by
  unfold recoverDispatch flushErrorState
  refine .bind (historic_backend _) fun _ => .bind (historic_modify fun _ => ?_) fun _ => ?_
  · exact ⟨rfl, rfl, rfl⟩
  · exact .bind (historic_backend _) fun _ => .bind (historic_backend _) fun _ =>
      historic_count fun _ => rfl

theorem historic_dispatchSpan (hsend : ∀ (s : St) (d : Dispatch),
      R s { s with dispatches := s.dispatches ++ [d] })
    (hreach : ∀ serial span sink, Within R (reachSink serial span sink)) (serial : ℕ)
    (span : OtelSpan) : Within R (dispatchSpan env serial span) := by
  have hhook : Within R (callEmitHook env serial span) := by
    unfold callEmitHook
    cases env.emitHook with
    | none => exact within_pure _
    | some hook => exact .bind (hreach serial span .emitHook) fun _ => historic_runEmitHook env _
  have hemit : Within R (emitSpan env serial span) := by
    unfold emitSpan otelEmitSpanAsLogLine
    refine .bind (historic_modify fun _ => ⟨rfl, rfl, rfl⟩) fun _ => .bind hhook fun _ => ?_
    refine .bind (historic_runIf (.ite (historic_raiseError _) ?_)) fun _ => ?_
    · exact hreach serial span .serverLog
    · exact historic_modify fun _ => ⟨rfl, rfl, rfl⟩
  unfold dispatchSpan
  refine .bind within_get fun s => .bind (within_modify fun s => hsend s _) fun _ => ?_
  refine .ite (.bind (historic_pgTry hemit (historic_recoverDispatch _ _)) fun _ => ?_) (within_pure _)
  exact historic_count fun _ => rfl

/-! ## Ends -/

section Ends

variable {env} (hdispatch : ∀ serial span, Within R (dispatchSpan env serial span))
include hdispatch

theorem historic_endSlot (i : ℕ) (endTime : TimestampTz) (unwinding : Bool)
    (reason : Option CString) : Within R (endSlot env i endTime unwinding reason) := by
  unfold endSlot forgetOwner markUnwound
  refine .bind (.bind within_get fun s => .bind (historic_forgetSlot env i _) fun _ =>
    historic_modifySlot i _) fun _ => ?_
  refine .bind (historic_runIf (.bind (historic_modifySlot i _) fun _ =>
    historic_count fun _ => rfl)) fun _ => ?_
  refine .bind (tame_finishSpan env i endTime).quiet.historic fun _ => ?_
  refine .bind (historic_modifySlot i _) fun _ => .bind within_get fun s => ?_
  refine .bind (hdispatch _ _) fun _ => .bind (historic_modifySlot i _) fun _ => ?_
  exact historic_releaseSlot env i false .dispatched

theorem historic_unwindTo (keep fuel : ℕ) (reason : CString) :
    Within R (unwindTo env keep reason fuel) := by
  induction fuel with
  | zero => exact within_pure _
  | succ fuel ih =>
    unfold unwindTo unwindEntry
    refine .bind within_get fun s => ?_
    cases s.spanStack with
    | nil => exact within_pure _
    | cons e rest =>
      refine .ite (.bind (historic_stack _) fun _ => .bind ?_ fun _ => ih) (within_pure _)
      refine .ite (historic_count fun _ => rfl) ?_
      cases e.entry with
      | slot i => exact historic_endSlot hdispatch i 0 true _
      | nrec i => exact historic_freeNrec i false

theorem historic_popEntryAt (pos : ℕ) (what reason : String) :
    Within R (popEntryAt env pos what reason) := by
  have hwarn : Within R (nonlifoWarning env what pos) := by
    unfold nonlifoWarning
    refine .bind (historic_count fun _ => rfl) fun _ => .bind within_get fun s => ?_
    refine .ite (within_pure _) (.bind (historic_modify fun _ => ⟨rfl, rfl, rfl⟩) fun _ => ?_)
    exact (tame_reportWarning env _).quiet.historic
  unfold popEntryAt endAbove stackUnwindAbove
  refine .bind (historic_runIf (.bind hwarn fun _ => .bind within_get fun _ => ?_)) fun _ => ?_
  · exact historic_unwindTo hdispatch _ _ _
  · exact historic_stack _

theorem historic_popEnded (e : StackRef) (what : String) : Within R (popEnded env e what) := by
  unfold popEnded
  refine .bind (historic_stackFind e) fun pos => ?_
  cases pos with
  | none => exact within_pure _
  | some pos => exact historic_popEntryAt hdispatch pos what _

theorem historic_apiSpanEnd (ref : OtelSpanRef) (endTime : TimestampTz) :
    Within R (apiSpanEnd env ref endTime) := by
  unfold apiSpanEnd
  refine .bind (tame_callRefused env false).quiet.historic fun _ => .ite (within_pure _) (.ite ?_ ?_)
  · refine .bind (quiet_nrecForRef ref).historic fun n => ?_
    cases n with
    | none => exact within_pure _
    | some i => exact .bind (historic_popEnded hdispatch _ _) fun _ => historic_freeNrec i false
  · refine .bind (quiet_slotForRef ref).historic fun slot => ?_
    cases slot with
    | none => exact within_pure _
    | some i => exact .bind (historic_popEnded hdispatch _ _) fun _ => historic_endSlot hdispatch i _ _ _

theorem historic_apiSpanDeactivate (tok : OtelActivation) :
    Within R (apiSpanDeactivate env tok) := by
  have hentry (ref : OtelSpanRef) : Within R (entryForRef ref) := by
    unfold entryForRef
    refine .ite (.bind (quiet_slotForRef ref).historic fun _ => within_pure _) ?_
    exact .bind (quiet_nrecForRef ref).historic fun _ => within_pure _
  unfold apiSpanDeactivate
  refine .bind (tame_callRefused env false).quiet.historic fun _ => .ite (within_pure _) ?_
  refine .bind (hentry _) fun entry => ?_
  cases entry with
  | none => exact within_pure _
  | some entry =>
    refine .bind (historic_stackFind entry) fun pos => ?_
    cases pos with
    | none => exact historic_count fun _ => rfl
    | some pos => exact historic_popEntryAt hdispatch pos _ _

theorem historic_resourceOwnerRelease (owner : ResourceOwner) (ref : OwnedRef) (isCommit : Bool) :
    Within R (resourceOwnerRelease env owner ref isCommit) := by
  have hreport : Within R (reportLeak env ref.1) := by
    unfold reportLeak otelSpanDebugPrint
    refine .bind (.bind within_get fun s => .ite ?_ (within_pure _)) fun _ =>
      (tame_reportWarning env _).quiet.historic
    exact .bind (historic_modifySlot _ _) fun _ => within_pure _
  have hcount (fate : Fate) {f : OtelApiCounters → OtelApiCounters}
      (h : ∀ c, (f c).spansStarted = c.spansStarted) : Within R (do
        modifyCounters f
        releaseSlot env (refIdx ref.1) true fate) :=
    .bind (historic_count h) fun _ => historic_releaseSlot env _ true fate
  have hrelease : Within R (otelSpanReleaseResource env ref.1) := by
    unfold otelSpanReleaseResource
    refine .bind within_get fun s => .ite (within_pure _) (.bind (historic_modifySlot _ _) fun _ => ?_)
    refine .bind (historic_stackRemove _) fun _ => ?_
    refine .ite (hcount .leaked fun _ => rfl) (.ite (hcount .dropped fun _ => rfl) ?_)
    exact .bind (historic_endSlot hdispatch _ _ _ _) fun _ => historic_modifySlot _ _
  unfold resourceOwnerRelease
  refine .bind (historic_runIf hreport) fun _ => .bind hrelease fun _ => historic_modify fun _ => ?_
  exact ⟨rfl, rfl, rfl⟩

end Ends

/-! ## Other calls -/

theorem historic_apiSpanDiscard (ref : OtelSpanRef) : Within R (apiSpanDiscard env ref) := by
  unfold apiSpanDiscard
  refine .bind (tame_callRefused env false).quiet.historic fun _ => .ite (within_pure _) (.ite ?_ ?_)
  · refine .bind (quiet_nrecForRef ref).historic fun n => ?_
    cases n with
    | none => exact within_pure _
    | some i =>
      refine .bind (historic_stackRemove _) fun _ => .bind (historic_freeNrec i false) fun _ => ?_
      exact historic_count fun _ => rfl
  · refine .bind (quiet_slotForRef ref).historic fun slot => ?_
    cases slot with
    | none => exact within_pure _
    | some i =>
      refine .bind (historic_stackRemove _) fun _ => .bind (historic_releaseSlot env i false _) fun _ => ?_
      exact historic_count fun _ => rfl

theorem historic_apiSpanActivate (ref : OtelSpanRef) : Within R (apiSpanActivate env ref) := by
  have htarget : Within R (activationTarget ref) := by
    unfold activationTarget
    refine .ite (.bind (quiet_slotForRef ref).historic fun slot => ?_)
      (.bind (quiet_nrecForRef ref).historic fun n => ?_)
    · cases slot with
      | none => exact within_pure _
      | some i => exact .bind within_get fun _ => within_pure _
    · cases n with
      | none => exact within_pure _
      | some i => exact .bind within_get fun _ => within_pure _
  have hcount {f : OtelApiCounters → OtelApiCounters} (h : ∀ c, (f c).spansStarted = c.spansStarted) :
      Within R (do
        modifyCounters f
        return otelActivationNone) := .bind (historic_count h) fun _ => within_pure _
  unfold apiSpanActivate
  refine .bind (tame_callRefused env false).quiet.historic fun _ => .ite (within_pure _) ?_
  refine .bind htarget fun target => ?_
  cases target with
  | none => exact within_pure _
  | some target =>
    refine .ite (hcount fun _ => rfl) (.bind (historic_stackFind _) fun _ => ?_)
    refine .bind within_get fun _ => .ite (hcount fun _ => rfl) (.ite (hcount fun _ => rfl) ?_)
    exact .bind (historic_stack _) fun _ => within_pure _

theorem historic_apiSpanCaptureError (ref : OtelSpanRef) :
    Within R (apiSpanCaptureError env ref) := by
  unfold apiSpanCaptureError
  refine .bind (quiet_setterSlot env ref).historic fun slot => ?_
  cases slot with
  | none => exact within_pure _
  | some i =>
    refine .bind within_get fun s => ?_
    cases s.backend.errorStack with
    | nil => exact historic_raiseError _
    | cons edata _ =>
      refine .ite (tame_slotRecordError env i _).quiet.historic (.ite ?_ ?_)
      · exact .bind (tame_request i _ 0).quiet.historic fun _ => historic_raiseError _
      · exact (tame_recordCopy env i edata).quiet.historic

/-! ## Starts -/

theorem historic_nextGen : Within R nextGen :=
  .bind within_get fun _ => .bind (historic_modify fun _ => ⟨rfl, rfl, rfl⟩) fun _ => within_pure _

theorem historic_startNrec (args : OtelSpanStartArgs) (traceId : OtelTraceId) (randomFlag : TraceFlags) :
    Within R (startNrec env args traceId randomFlag) := by
  have hfull : Within R (do
      modifyCounters fun c => { c with startStackFull := c.startStackFull + 1 }
      return otelSpanNone) := .bind (historic_count fun _ => rfl) fun _ => within_pure _
  have htake : Within R takeNrec := by
    unfold takeNrec
    refine .bind within_get fun s => .ite ?_ (.ite ?_ (within_pure _))
    · exact .bind (historic_modify fun _ => ⟨rfl, rfl, rfl⟩) fun _ => within_pure _
    · exact .bind (historic_modify fun _ => ⟨rfl, rfl, rfl⟩) fun _ => within_pure _
  unfold startNrec
  refine .bind within_get fun s => .ite hfull (.bind htake fun taken => ?_)
  cases taken with
  | none => exact hfull
  | some i =>
    refine .bind historic_nextGen fun gen => .bind (historic_modify fun _ => ⟨rfl, rfl, rfl⟩) fun _ => ?_
    refine .bind (historic_runIf (historic_stack _)) fun _ => ?_
    exact .bind (historic_count fun _ => rfl) fun _ => within_pure _

theorem historic_ensurePool : Within R (ensurePool env) := by
  have hcxt : Within R (createPoolContext env) :=
    .ite (historic_raiseError _) (historic_modify fun _ => ⟨rfl, rfl, rfl⟩)
  unfold ensurePool allocNoOom
  refine .bind within_get fun s => .ite (within_pure _) (.bind (historic_runIf hcxt) fun _ => ?_)
  refine .bind (tame_ask _).quiet.historic fun ok => ?_
  exact .bind (historic_modify fun _ => ⟨rfl, rfl, rfl⟩) fun _ => within_pure _

theorem historic_prepareStart (args : OtelSpanStartArgs) (owner : Option ResourceOwner) :
    Within R (prepareStart env args owner) :=
  .bind (historic_runIf (historic_raiseError _)) fun _ => historic_runIf (historic_raiseError _)

theorem historic_takeSlot : Within R (takeSlot env) := by
  have htake : Within R takeFreeSlot := by
    unfold takeFreeSlot
    refine .bind within_get fun s => .ite ?_ (.ite ?_ (within_pure _))
    · exact .bind (historic_modify fun _ => ⟨rfl, rfl, rfl⟩) fun _ => within_pure _
    · exact .bind (historic_modify fun _ => ⟨rfl, rfl, rfl⟩) fun _ => within_pure _
  unfold takeSlot
  refine .bind htake fun taken => ?_
  cases taken with
  | none => exact within_pure _
  | some i =>
    refine .bind within_get fun s => .ite (within_pure _) (.bind (historic_pgTry ?_ ?_) fun _ => within_pure _)
    · exact .ite (historic_raiseError _) (historic_modifySlot i _)
    · exact .bind (historic_modify fun _ => ⟨rfl, rfl, rfl⟩) fun _ => within_throw _

theorem historic_decideStart (args : OtelSpanStartArgs) (p : ResolvedParent) :
    Within R (decideStart env args p) := by
  unfold decideStart newTraceId
  refine .bind within_get fun s => ?_
  cases p with
  | slot i => exact within_pure _
  | nrec i => exact within_pure _
  | remote ctx => exact within_pure _
  | none => exact .bind (tame_ask _).quiet.historic fun _ => within_pure _

/-- The last part of a start changes the history only where it counts the span. -/
theorem historic_apiSpanStart (hcount : Within R (modifyCounters fun c =>
      { c with spansStarted := c.spansStarted + 1 })) (args : Option OtelSpanStartArgs) :
    Within R (apiSpanStart env args) := by
  have hrefuse {f : OtelApiCounters → OtelApiCounters} (h : ∀ c, (f c).spansStarted = c.spansStarted) :
      Within R (do
        modifyCounters f
        return otelSpanNone) := .bind (historic_count h) fun _ => within_pure _
  have hopen (i : ℕ) (args : OtelSpanStartArgs) (name : CString) (p : ResolvedParent)
      (d : StartDecision) (owner : Option ResourceOwner) :
      Within R (openTakenSlot env i args name p d owner) := by
    unfold openTakenSlot
    refine .bind historic_nextGen fun gen => .bind within_get fun s => ?_
    refine .bind (historic_modifySlot i _) fun _ => ?_
    refine .bind (quiet_fillSpan env i args name p d).historic fun _ => ?_
    refine .bind (historic_runIf (historic_stack _)) fun _ => .bind ?_ fun _ => ?_
    · cases owner <;> exact historic_modify fun _ => ⟨rfl, rfl, rfl⟩
    · exact .bind hcount fun _ => within_pure _
  have hrecord (args : OtelSpanStartArgs) (name : CString) (p : ResolvedParent) (d : StartDecision) :
      Within R (startRecording env args name p d) := by
    unfold startRecording
    refine .bind within_get fun s => .ite (hrefuse fun _ => rfl) (.ite (hrefuse fun _ => rfl) ?_)
    refine .bind (historic_ensurePool env) fun ready => .ite (hrefuse fun _ => rfl) ?_
    refine .bind (historic_prepareStart env args _) fun _ => .bind (historic_takeSlot env) fun taken => ?_
    cases taken with
    | none => exact hrefuse fun _ => rfl
    | some i => exact hopen i args name p d _
  unfold apiSpanStart countBadArgs
  refine .bind (tame_callRefused env false).quiet.historic fun _ => .ite (within_pure _) ?_
  cases args with
  | none => exact hrefuse fun _ => rfl
  | some args =>
    dsimp only
    cases (if args.structSizeOk then args.name else none) with
    | none => exact hrefuse fun _ => rfl
    | some name =>
      refine .bind (quiet_seedPrngIfNeeded env).historic fun _ => ?_
      refine .bind (quiet_resolveParent env args).historic fun parent => ?_
      cases parent with
      | none => exact hrefuse fun _ => rfl
      | some p =>
        refine .bind (historic_decideStart env args p) fun d => .ite ?_ (hrecord args name p d)
        exact historic_startNrec env args _ _

/-! ## Runs -/

/-- A call is within the preorder if its dispatches are, and the start, should it be one. -/
theorem historic_runOp (hdispatch : ∀ serial span, Within R (dispatchSpan env serial span))
    (op : ProducerOp) (hstart : ∀ args, op = .spanStart args → Within R (apiSpanStart env args)) :
    Within R (runOp env op) := by
  have discards {α : Type} {x : M α} (h : Within R x) : Within R (discardResult x) :=
    .bind h fun _ => within_pure _
  cases op with
  | spanStart args => exact discards (hstart args rfl)
  | spanEnd ref endTime => exact historic_apiSpanEnd hdispatch ref endTime
  | spanDiscard ref => exact historic_apiSpanDiscard env ref
  | spanActivate ref => exact discards (historic_apiSpanActivate env ref)
  | spanDeactivate tok => exact historic_apiSpanDeactivate hdispatch tok
  | spanSetStr ref key val => exact (setter_apiSpanSetStr env ref key val).quiet.historic
  | spanSetInt ref key val => exact (setter_setScalar env ref key _).quiet.historic
  | spanSetDouble ref key val => exact (setter_setScalar env ref key _).quiet.historic
  | spanSetBool ref key val => exact (setter_setScalar env ref key _).quiet.historic
  | spanSetVprintf ref key formatted =>
    exact (setter_apiSpanSetVprintf env ref key formatted).quiet.historic
  | spanSetName ref name => exact (setter_apiSpanSetName env ref name).quiet.historic
  | spanSetStatus ref code description =>
    exact (setter_apiSpanSetStatus env ref code description).quiet.historic
  | spanAddEvent ref name ts attrs => exact (setter_apiSpanAddEvent env ref name ts attrs).quiet.historic
  | spanAddLink ref target => exact (setter_apiSpanAddLink env ref target).quiet.historic
  | spanRecordError ref edata => exact (setter_apiSpanRecordError env ref edata).quiet.historic
  | spanCaptureError ref => exact historic_apiSpanCaptureError env ref
  | spanCurrent => exact discards (tame_apiSpanCurrent env).quiet.historic
  | spanContextOf ref => exact discards (quiet_apiSpanContextOf env ref).historic
  | emitLog edata => exact (tame_otelEmitLogHook env edata).quiet.historic
  | ownerRelease owner ref isCommit => exact historic_resourceOwnerRelease hdispatch owner ref isCommit
  | xactCallback event =>
    cases event with
    | commit | parallelCommit | prepare => exact historic_dropFromLevel 1 true
    | abort | parallelAbort => exact historic_dropFromLevel 1 false
    | preCommit | parallelPreCommit | prePrepare => exact within_pure _
  | subxactCallback event =>
    cases event with
    | abortSub => exact historic_dropFromLevel env.currentTransactionNestLevel false
    | startSub | commitSub | preCommitSub => exact within_pure _
  | shmemExit => exact .bind within_get fun _ => historic_count fun _ => rfl

end PostgresOtel
