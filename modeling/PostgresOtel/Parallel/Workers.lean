import PostgresOtel.Parallel.Slot
import PostgresOtel.Producer.Contexts

/-!
# Spans in parallel workers

A span started in a worker with an empty active stack is a child of the context that the leader
published.  Its decision is taken anew, from the published flags, and its tracestate is that of the
published context, which has none.
-/

set_option autoImplicit false

namespace PostgresOtel

open Exec

/-! ## Leader and worker -/

/-- `otel_span_recording`. -/
def otelSpanRecording (s : OtelSpanRef) : Bool := decide (0 < s.v)

/-- `otel_recording_possible`. -/
def otelRecordingPossible (env : Env) : Bool :=
  env.sink && decide (env.samplerMode ≠ .alwaysOff)

/-- `otel_span_start`: the gate before `api_span_start`. -/
def otelSpanStart (env : Env) (args : OtelSpanStartArgs) : M OtelSpanRef :=
  if otelRecordingPossible env then apiSpanStart env (some args) else pure otelSpanNone

/-- The leader published the context of its open span: what `otel_span_context_of` says of it. -/
structure Published (s : St) (ref : OtelSpanRef) (e : StackRef) (ctx : OtelSpanContext) : Prop where
  holds : s.life.Holds ref e
  asked : ∃ env s', otelSpanContextOfInternal env ref s = .ok (some ctx) s'
  valid : otelSpanContextIsValid ctx = true

/-- The surroundings of a call in a worker that reads the published context. -/
structure WorkerOf (ctx : OtelSpanContext) (env : Env) : Prop where
  worker : env.isParallelWorker = true
  leader : env.leaderContext =
    otelParallelGetLeaderContext true (otelParallelPublishLeaderContext (some ctx))

section Worker

variable {s sL sW : St} {env : Env} {ref : OtelSpanRef} {e : StackRef} {ctx : OtelSpanContext}
  {garbage garbage' : ℕ → OtelSlot}

theorem Published.context (h : Published s ref e ctx) (hready : s.Ready) :
    ∃ s', Queried (resolveFromEntry e) s s' ∧ (resolveFromEntry e).context s' = some ctx := by
  obtain ⟨env, s', hasked⟩ := h.asked
  rw [otelSpanContextOfInternal, if_neg h.holds.ne_none] at hasked
  obtain ⟨hctx, hq⟩ := (wp_contextOfHandle_holds env hready h.holds).result hasked
  exact ⟨s', hq, hctx.symm⟩

/-- The parent of a span in a worker is the published context without its tracestate. -/
theorem WorkerOf.activeParent_eq (h : WorkerOf ctx env)
    (hvalid : otelSpanContextIsValid ctx = true) (hempty : s.spanStack = []) :
    activeParent env s.life = .remote { ctx with tracestate := none } := by
  have hstack : s.life.spanStack = [] := hempty
  have hremote : remoteContext env = some { ctx with tracestate := none } := by
    simp only [remoteContext, h.worker, h.leader, if_true, get_published hvalid]
  simp only [activeParent, hstack, hremote, Option.elim_some]

/-- A span of a worker is a child of the published context. -/
theorem WorkerOf.starts (h : WorkerOf ctx env) (hvalid : otelSpanContextIsValid ctx = true)
    (hready : s.Ready) (hempty : s.spanStack = []) :
    StartsAgree env (.remote { ctx with tracestate := none }) (some { ctx with tracestate := none })
      s := by
  apply startsAgree hready (h.activeParent_eq hvalid hempty)
  · exact iff_of_true rfl fun heq => by cases heq
  · intro c hc c' hc'
    obtain rfl := Option.some.inj hc
    obtain rfl := Option.some.inj hc'
    exact ⟨rfl, rfl, fun _ => rfl⟩

/-! ## The decision -/

/-- A call in a backend whose sampler is set so; spans are started through the gate. -/
structure Call.SampledBy (mode : OtelApiSampler) (arg : ℚ) (call : Call) : Prop where
  mode : call.env.samplerMode = mode
  arg : call.env.samplerArg = arg
  gate : ∀ args, call.op = .spanStart args → otelRecordingPossible call.env = true

/-- What the kind of an open span says about the sampler that has been in force. -/
structure DecidedBy (mode : OtelApiSampler) (arg : ℚ) (s : St) : Prop where
  slot : ∀ i, s.life.LiveSlot i → mode ≠ .alwaysOff
  nrec : ∀ i, s.life.LiveNrec i → mode ≠ .alwaysOn ∧
    (mode = .traceidratio → otelTraceidratioSample (s.nrecs i).ctx.traceId arg = false)

theorem DecidedBy.evolves {mode : OtelApiSampler} {arg : ℚ} {eff : Effects} {s' : St}
    (h : DecidedBy mode arg s) (hev : Evolves eff s s') : DecidedBy mode arg s' where
  slot i hlive := h.slot i (hev.live (.slot i) hlive).1
  nrec i hlive := by
    rw [(hev.nrec i hlive).traceId]
    exact h.nrec i (hev.live (.nrec i) hlive).1

/-- What the sampler drops without a parent's word. -/
theorem dropped_by_sampler {mode : OtelApiSampler} {arg : ℚ} {traceId : OtelTraceId}
    {newRoot sampled : Bool} (h : otelRunSampler mode arg traceId newRoot sampled = .drop) :
    mode ≠ .alwaysOn ∧ (mode = .traceidratio → otelTraceidratioSample traceId arg = false) := by
  constructor
  · rintro rfl
    cases h
  · rintro rfl
    simpa [otelRunSampler] using h

/-- A start through the gate decides as the sampler does, or as the parent. -/
theorem DecidedBy.opened {mode : OtelApiSampler} {arg : ℚ} {args : OtelSpanStartArgs}
    {p : ResolvedParent} {d : StartDecision} {s' : St} (h : DecidedBy mode arg s)
    (hmode : env.samplerMode = mode) (harg : env.samplerArg = arg) (hgate : mode ≠ .alwaysOff)
    (hopen : p.OpenIn s.life) (hd : Decides env args s p d) (hknown : KnownBy env args s p d s' e) :
    (∀ i, e = .slot i → mode ≠ .alwaysOff) ∧ ∀ i, e = .nrec i → mode ≠ .alwaysOn ∧
      (mode = .traceidratio → otelTraceidratioSample (s'.nrecs i).ctx.traceId arg = false) := by
  refine ⟨fun _ _ => hgate, fun i hi => ?_⟩
  subst hi
  cases hknown with
  | nrec _ hdrop _ hctx _ =>
    rw [hctx]
    subst hmode harg
    cases hd with
    | slot j => split_ifs at hdrop
    | nrec j => exact h.nrec j hopen
    | remote c => exact dropped_by_sampler hdrop
    | none traceId _ =>
      cases hforce : args.forceSample with
      | true => simp [hforce] at hdrop
      | false => exact dropped_by_sampler (by simpa [hforce] using hdrop)

theorem ResolvedParent.Good.openIn {c : Lifecycle} {p : ResolvedParent} (h : p.Good c) :
    p.OpenIn c := by
  cases p with
  | slot i => exact h
  | nrec i => exact h
  | remote ctx => exact trivial
  | none => exact trivial

theorem DecidedBy.step {mode : OtelApiSampler} {arg : ℚ} {call : Call} (h : DecidedBy mode arg s)
    (hinv : PoolInv s.life) (hsound : call.Sound) (hsampled : call.SampledBy mode arg) :
    DecidedBy mode arg ((producer garbage).next s call) := by
  have henter : DecidedBy mode arg (s.enter call) := ⟨h.slot, h.nrec⟩
  have hstep := step_cases call.env call.op (s := s.enter call) hinv
  change DecidedBy mode arg (endState (runOp call.env call.op) (s.enter call))
  generalize endState (runOp call.env call.op) (s.enter call) = s' at hstep
  generalize hop : call.op = op at hstep
  cases hstep with
  | start args ref _ hx hstarted =>
    have hgate : mode ≠ .alwaysOff := by
      have hpossible := hsampled.gate args hop
      simp only [otelRecordingPossible, Bool.and_eq_true, decide_eq_true_eq, hsampled.mode]
        at hpossible
      exact hpossible.2
    cases hstarted with
    | refused _ _ hstays _ => exact henter.evolves hstays
    | opened args p d e s₁ _ hparent hd hstays _ hopens hknown =>
      have hopen := (good_parentOf hsound hop (c := (s.enter call).life) hinv hparent).openIn
      obtain ⟨hslot, hnrec⟩ :=
        henter.opened hsampled.mode hsampled.arg hgate hopen hd hknown
      have hkept := henter.evolves hstays
      constructor
      · intro i hlive
        have hlive : s'.life.Live (.slot i) := hlive
        rcases hopens.live_iff.1 hlive with hbefore | heq
        · exact hkept.slot i hbefore
        · exact hslot i heq.symm
      · intro i hlive
        have hlive : s'.life.Live (.nrec i) := hlive
        rcases hopens.live_iff.1 hlive with hbefore | heq
        · by_cases he : e = .nrec i
          · exact hnrec i he
          · rw [hopens.nrec i he]
            exact hkept.nrec i hbefore
        · exact hnrec i heq.symm
  | startRaised args ex _ hx hstays => exact henter.evolves hstays
  | activate ref e _ hact =>
    rw [hact.push]
    exact ⟨h.slot, h.nrec⟩
  | other _ _ _ hev => exact henter.evolves hev

/-- The calls of a leader whose sampler does not change. -/
structure Call.OfLeader (mode : OtelApiSampler) (arg : ℚ) (call : Call) : Prop where
  sound : call.Sound
  bounded : call.Bounded
  sampled : call.SampledBy mode arg

theorem reachable_decidedBy {mode : OtelApiSampler} {arg : ℚ}
    (h : (producer garbage).ReachBy (fun _ call => call.OfLeader mode arg) s) :
    DecidedBy mode arg s := by
  have hboth : PoolInv s.life ∧ DecidedBy mode arg s := by
    apply h.invariant (I := fun s => PoolInv s.life ∧ DecidedBy mode arg s)
    · refine ⟨poolInv_init, fun i hlive => ?_, fun i hlive => ?_⟩
      · exact absurd hlive.1 (Nat.not_lt_zero i)
      · exact absurd hlive.1 (Nat.not_lt_zero i)
    · intro s call hI hvalid hcall
      exact ⟨hI.1.path (life_step garbage hI.1 hvalid), hI.2.step hI.1 hcall.sound hcall.sampled⟩
  exact hboth.2

/-- The sampler asked about a sampled context of the leader. -/
theorem decision_of_sampled {mode : OtelApiSampler} {arg : ℚ} {traceId : OtelTraceId}
    (hmode : mode ≠ .alwaysOff) : otelRunSampler mode arg traceId false true ≠ .drop ↔
      (mode = .traceidratio → otelTraceidratioSample traceId arg = true) := by
  cases mode <;> simp [otelRunSampler] at hmode ⊢

/-- The sampler asked about a context of the leader that is not sampled. -/
theorem decision_of_unsampled {mode : OtelApiSampler} {arg : ℚ} {traceId : OtelTraceId}
    (hmode : mode ≠ .alwaysOn)
    (hratio : mode = .traceidratio → otelTraceidratioSample traceId arg = false) :
    otelRunSampler mode arg traceId false false = .drop := by
  cases mode <;> simp [otelRunSampler] at hmode hratio ⊢
  exact hratio

/-- A span that a worker starts under the leader's span is recording if and only if the leader's is,
exactly when the sampler is not the plain ratio or accepts the trace. -/
theorem worker_decision_iff {mode : OtelApiSampler} {arg : ℚ}
    (hL : (producer garbage).ReachBy (fun _ call => call.OfLeader mode arg) sL)
    (hpub : Published sL ref e ctx)
    (hW : (producer garbage').ReachBy (fun _ call => call.Bounded) sW) (hempty : sW.spanStack = [])
    (hworker : WorkerOf ctx env) (hmode : env.samplerMode = mode) (harg : env.samplerArg = arg)
    {args : OtelSpanStartArgs} (hargs : args.parent = .active) :
    Wp (otelSpanStart env args) (fun child _ => child ≠ otelSpanNone →
      ((otelSpanRecording child = true ↔ otelSpanRecording ref = true) ↔
        (mode = .traceidratio → otelSpanRecording ref = true →
          otelTraceidratioSample ctx.traceId arg = true))) (fun _ _ => True) sW := by
  have hreadyL : sL.Ready := reachable_ready (hL.mono fun _ _ h => h.bounded)
  have hdecided := reachable_decidedBy hL
  have hsampled := reachable_sampled (hL.mono fun _ _ h => h.sound)
  have hreadyW : sW.Ready := reachable_ready hW
  obtain ⟨s', hq, hctx⟩ := hpub.context hreadyL
  -- What the worker's decision is taken from.
  have hflags : (otelRunSampler mode arg ctx.traceId false (otelSpanContextSampled ctx) ≠ .drop ↔
      otelSpanRecording ref = true) ↔ (mode = .traceidratio → otelSpanRecording ref = true →
        otelTraceidratioSample ctx.traceId arg = true) := by
    have hholds := hpub.holds
    cases e with
    | slot i =>
      have hrec : otelSpanRecording ref = true := decide_eq_true (hholds.pos_iff.2 ⟨i, rfl⟩)
      obtain rfl := Option.some.inj hctx
      rw [hq.slots]
      have hset : otelSpanContextSampled (slotContext (sL.slots i)) = true :=
        bne_iff_ne.2 (hsampled.slot i hholds.live).sampled
      rw [hset, decision_of_sampled (hdecided.slot i hholds.live)]
      simp [hrec]
    | nrec i =>
      have hrec : otelSpanRecording ref = false := by
        have hneg := hholds.neg
        simp only [otelSpanRecording, decide_eq_false_iff_not]
        omega
      obtain rfl := Option.some.inj hctx
      have hlive : s'.life.LiveNrec i := hq.life ▸ hholds.live
      have hkeeps := hq.evolves.nrec i hlive
      have hunset : otelSpanContextSampled (s'.nrecs i).ctx = false := by
        simp only [otelSpanContextSampled, hkeeps.traceFlags,
          (hsampled.nrec i hholds.live).unsampled]
        rfl
      obtain ⟨hon, hratio⟩ := hdecided.nrec i hholds.live
      rw [hunset, hkeeps.traceId, decision_of_unsampled hon hratio]
      simp [hrec]
  unfold otelSpanStart
  rw [wp_ite]
  refine ⟨fun _ => ?_, fun _ hne => absurd rfl hne⟩
  apply (hworker.starts hpub.valid hreadyW hempty args hargs).mono
  · intro child t hchild hne
    obtain ⟨e', hholds', -, hchild⟩ := hchild hne
    have hrecording := (hchild _ rfl).recording
    subst hmode harg
    rw [← hflags, otelSpanRecording, decide_eq_true_iff, hholds'.pos_iff, hrecording]
    rfl
  · exact fun _ _ h => h

end Worker

/-! ### A forced root -/

/-- A backend that exports its spans, with the plain ratio sampler. -/
def ratioEnv (arg : ℚ) : Env :=
  { samplerMode := .traceidratio, samplerArg := arg, emitHook := some fun _ => {} }

/-- The start of a root, forced or not. -/
def ratioRoot (arg : ℚ) (force : Bool) : Call where
  env := ratioEnv arg
  backend := {}
  op := .spanStart (some { name := some (cstr "root"), forceSample := force })

/-- The root is open. -/
def ratioRootOpen (arg : ℚ) (force : Bool) : St :=
  (producer fun _ => {}).next (initSt fun _ => {}) (ratioRoot arg force)

/-- The context published for it. -/
def ratioRootContext : OtelSpanContext :=
  { traceId := 1, spanId := 1, traceFlags := otelTraceFlagSampled ||| otelTraceFlagRandom }

/-- A worker of that leader. -/
def ratioWorker (arg : ℚ) : Env :=
  { ratioEnv arg with
    isParallelWorker := true
    leaderContext :=
      otelParallelGetLeaderContext true (otelParallelPublishLeaderContext (some ratioRootContext)) }

theorem ratioRoot_ofLeader (arg : ℚ) (force : Bool) :
    (ratioRoot arg force).OfLeader .traceidratio arg where
  sound := {
    root := fun h => by cases h
    leader := fun ctx h => by cases h
    parent := fun args h hparent => by
      have heq : some ({ name := some (cstr "root"), forceSample := force } : OtelSpanStartArgs) =
          some args := by
        injection h
      obtain rfl := Option.some.inj heq
      cases hparent }
  bounded := show (64 : ℕ) ≤ maxOpenSpansMax by decide
  sampled := ⟨rfl, rfl, fun _ _ => rfl⟩

theorem ratioRoot_reachable (arg : ℚ) (force : Bool) :
    (producer fun _ => {}).ReachBy (fun _ call => call.OfLeader .traceidratio arg)
      (ratioRootOpen arg force) :=
  Machine.ReachBy.step (ratioRoot arg force) .init trivial (ratioRoot_ofLeader arg force)

/-- A root that the ratio accepts. -/
theorem worker_decision_iff_ratioRoot :
    Wp (otelSpanStart (ratioWorker 1) { name := some (cstr "child") }) (fun child _ =>
      child ≠ otelSpanNone →
        ((otelSpanRecording child = true ↔ otelSpanRecording (makeRef 1 0 true) = true) ↔
          (OtelApiSampler.traceidratio = .traceidratio →
            otelSpanRecording (makeRef 1 0 true) = true →
              otelTraceidratioSample ratioRootContext.traceId 1 = true)))
      (fun _ _ => True) (initSt fun _ => {}) := by
  have hpub : Published (ratioRootOpen 1 false) (makeRef 1 0 true) (.slot 0) ratioRootContext :=
    ⟨⟨by decide +kernel, by decide +kernel⟩, ⟨{}, ratioRootOpen 1 false, rfl⟩, by decide⟩
  exact worker_decision_iff (ratioRoot_reachable 1 false) hpub (.init (m := producer fun _ => {}))
    rfl ⟨rfl, rfl⟩ rfl rfl rfl

/-- A root that the ratio rejects is recorded by force; the worker's span is not. -/
theorem forced_root_splits_decision :
    (producer fun _ => {}).ReachBy (fun _ call => call.OfLeader .traceidratio 0)
      (ratioRootOpen 0 true) ∧
    Published (ratioRootOpen 0 true) (makeRef 1 0 true) (.slot 0) ratioRootContext ∧
    WorkerOf ratioRootContext (ratioWorker 0) ∧
    otelSpanRecording (makeRef 1 0 true) = true ∧
    value (otelSpanStart (ratioWorker 0) { name := some (cstr "child") }) (initSt fun _ => {}) =
      some (makeRef 1 0 false) ∧
    makeRef 1 0 false ≠ otelSpanNone ∧ otelSpanRecording (makeRef 1 0 false) = false :=
  ⟨ratioRoot_reachable 0 true,
    ⟨⟨by decide +kernel, by decide +kernel⟩, ⟨{}, ratioRootOpen 0 true, rfl⟩, by decide⟩,
    ⟨rfl, rfl⟩, by decide, by decide +kernel, by decide, by decide⟩

section Worker

variable {s sL sW : St} {env : Env} {ref : OtelSpanRef} {e : StackRef} {ctx : OtelSpanContext}
  {garbage garbage' : ℕ → OtelSlot}

/-- Without force the ratio accepts the trace of every recording span. -/
theorem accepted_unforced {arg : ℚ}
    (h : (producer garbage).ReachBy (fun _ call => call.OfLeader .traceidratio arg ∧
      ∀ args, call.op = .spanStart (some args) → args.forceSample = false) s) :
    ∀ i, s.life.LiveSlot i → otelTraceidratioSample (s.slots i).span.traceId arg = true := by
  have hboth : PoolInv s.life ∧ ∀ i, s.life.LiveSlot i →
      otelTraceidratioSample (s.slots i).span.traceId arg = true := by
    apply h.invariant (I := fun s => PoolInv s.life ∧ ∀ i, s.life.LiveSlot i →
      otelTraceidratioSample (s.slots i).span.traceId arg = true)
    · exact ⟨poolInv_init, fun i hlive => absurd hlive.1 (Nat.not_lt_zero i)⟩
    · intro s call hI hvalid hcall
      obtain ⟨hinv, hI⟩ := hI
      refine ⟨hinv.path (life_step garbage hinv hvalid), ?_⟩
      change ∀ i, (endState (runOp call.env call.op) (s.enter call)).life.LiveSlot i →
        otelTraceidratioSample ((endState (runOp call.env call.op)
          (s.enter call)).slots i).span.traceId arg = true
      have hstep := step_cases call.env call.op (s := s.enter call) hinv
      generalize endState (runOp call.env call.op) (s.enter call) = s' at hstep
      generalize hop : call.op = op at hstep
      have hkept {eff : Effects} {t : St} (hev : Evolves eff (s.enter call) t) (i : ℕ)
          (hlive : t.life.LiveSlot i) :
          otelTraceidratioSample (t.slots i).span.traceId arg = true := by
        have hid : (t.slots i).span.traceId = (s.slots i).span.traceId :=
          congrArg SpanIdentity.traceId (hev.identity i hlive)
        rw [hid]
        exact hI i (hev.live (.slot i) hlive).1
      intro i hlive
      have hlive' : s'.life.Live (.slot i) := hlive
      cases hstep with
      | start args ref _ hx hstarted =>
        cases hstarted with
        | refused _ _ hstays _ => exact hkept hstays i hlive
        | opened args p d e s₁ _ hparent hd hstays _ hopens hknown =>
          by_cases he : e = .slot i
          · subst he
            cases hknown with
            | slot _ hrec hfills _ =>
              have hopen := (good_parentOf hcall.1.sound hop (c := (s.enter call).life) hinv
                hparent).openIn
              have htrace : (s'.slots i).span.traceId = d.traceId := hfills.traceId
              rw [htrace]
              cases hd with
              | slot j => exact hI j hopen
              | nrec j => exact absurd rfl hrec
              | remote c =>
                simpa [otelRunSampler, hcall.1.sampled.mode, hcall.1.sampled.arg] using hrec
              | none traceId _ =>
                simpa [otelRunSampler, hcall.1.sampled.mode, hcall.1.sampled.arg,
                  hcall.2 args hop] using hrec
          · have hid : (s'.slots i).span.traceId = (s₁.slots i).span.traceId :=
              congrArg SpanIdentity.traceId (hopens.identity i he)
            rw [hid]
            exact hkept hstays i ((hopens.live_iff.1 hlive').resolve_right (Ne.symm he))
      | startRaised args ex _ hx hstays => exact hkept hstays i hlive
      | activate ref e _ hact =>
        rw [hact.push] at hlive ⊢
        exact hI i hlive
      | other _ _ _ hev => exact hkept hev i hlive
  exact hboth.2

/-! ## The tracestate -/

/-- The tracestate that children of the span in `e` inherit; non-recording spans have none. -/
def St.inheritedTracestate (s : St) : StackRef → Option CString
  | .slot i => (s.slots i).span.tracestate
  | .nrec _ => none

/-- The tracestate of the span in a slot or entry. -/
def St.tracestateOf (s : St) : StackRef → Option CString
  | .slot i => (s.slots i).span.tracestate
  | .nrec i => (s.nrecs i).ctx.tracestate

/-- What the children of an open span carry in the leader. -/
def ChildrenCarry (s : St) (ref : OtelSpanRef) (field : Option CString) : Prop :=
  ∀ (env : Env) (args : OtelSpanStartArgs), env.maxOpenSpans ≤ maxOpenSpansMax →
    args.parent = .span → args.parentSpan = ref →
    Wp (apiSpanStart env (some args)) (fun child s' => ∀ e, s'.life.Holds child e →
      ∃ bytes, CopyOf env bytes field (s'.tracestateOf e)) (fun _ _ => True) s

theorem childrenCarry (hready : s.Ready) (href : s.life.Holds ref e) :
    ChildrenCarry s ref (s.inheritedTracestate e) := by
  intro env args hmax hspan hparent
  have hresolved {p : ResolvedParent} (hp : parentOf env args s.life = some p) :
      p = resolveFromEntry e := by
    simp only [parentOf, hspan, hparent, if_neg href.ne_none, hready.entryOf href,
      Option.map_some, Option.some.injEq] at hp
    exact hp.symm
  have hall := ((wp_apiSpanStart_opens env (some args) hready.pool).and
    (wp_apiSpanStart_carries env args hready.pool)).and (wp_apiSpanStart_ready env args hready hmax)
  apply hall.mono
  · rintro child s' ⟨⟨hstarted, hcarries⟩, hready'⟩ e' hholds
    cases hstarted with
    | refused _ _ _ _ => exact absurd rfl hholds.ne_none
    | opened _ p d e'' s₁ _ hp hd hstays hprep hopens hknown =>
      obtain rfl := hresolved hp
      have hholds' : s'.life.Holds (e''.handle (s'.life.gen e'')) e'' :=
        ⟨hopens.live_iff.2 (.inr rfl), rfl⟩
      obtain rfl : e'' = e' :=
        Option.some.inj ((hready'.entryOf hholds').symm.trans (hready'.entryOf hholds))
      have hfree : ¬ s.life.Live e'' := fun hlive => hopens.free ((hprep.live e'').2 hlive)
      cases e with
      | nrec i =>
        cases hd
        cases hknown with
        | slot j hrec _ _ => exact absurd rfl hrec
        | nrec j _ _ hctx _ =>
          refine ⟨0, ?_⟩
          rw [St.tracestateOf, hctx]
          exact .whole none
      | slot i =>
        cases hknown with
        | nrec j hdrop _ _ _ =>
          cases hd
          split_ifs at hdrop
        | slot j _ _ _ =>
          obtain ⟨k, p', hp', hholds'', hcarries⟩ := hcarries (hholds.pos_iff.2 ⟨j, rfl⟩)
          obtain rfl := hresolved hp'
          have hjk : StackRef.slot j = .slot k :=
            Option.some.inj ((hready'.entryOf hholds).symm.trans (hready'.entryOf hholds''))
          injection hjk with hjk
          subst hjk
          refine ⟨_, hcarries _ rfl fun heq => hfree ?_⟩
          injection heq with hij
          subst hij
          exact href.live
  · exact fun _ _ _ => trivial

/-- A worker's context has the ids of the leader's, and the tracestate that the leader's own children
carry just when they carry none. -/
theorem worker_context_iff (hL : (producer garbage).ReachBy (fun _ call => call.Bounded) sL)
    (hpub : Published sL ref e ctx)
    (hW : (producer garbage').ReachBy (fun _ call => call.Bounded) sW) (hempty : sW.spanStack = [])
    (hworker : WorkerOf ctx env) (hmax : env.maxOpenSpans ≤ maxOpenSpansMax) :
    ChildrenCarry sL ref (sL.inheritedTracestate e) ∧
    Wp (otelSpanContextOfInternal env otelSpanNone)
      (fun r _ => r.map OtelSpanContext.ids = some ctx.ids) (fun _ _ => False) sW ∧
    StartsAgree env (.remote { ctx with tracestate := none }) (some ctx) sW ∧
    ((Wp (otelSpanContextOfInternal env otelSpanNone)
        (fun r _ => r.bind OtelSpanContext.tracestate = sL.inheritedTracestate e)
        (fun _ _ => False) sW ∧
      TracestatesAgree env (some { ctx with tracestate := sL.inheritedTracestate e }) sW) ↔
      sL.inheritedTracestate e = none) := by
  have hreadyL : sL.Ready := reachable_ready hL
  have hreadyW : sW.Ready := reachable_ready hW
  have hp := hworker.activeParent_eq hpub.valid hempty
  have hquery : Wp (otelSpanContextOfInternal env otelSpanNone)
      (fun r _ => r = some { ctx with tracestate := none }) (fun _ _ => False) sW := by
    apply (wp_contextOfInternal_active env hreadyW).mono
    · rintro r s' ⟨rfl, -⟩
      rw [hp]
      rfl
    · exact fun _ _ h => h
  refine ⟨childrenCarry hreadyL hpub.holds, ?_, ?_, ?_⟩
  · apply hquery.mono
    · rintro r s' rfl
      rfl
    · exact fun _ _ h => h
  · intro args hargs
    apply (hworker.starts hpub.valid hreadyW hempty args hargs).mono
    · intro child s' hchild hne
      obtain ⟨e', hholds, -, hchild⟩ := hchild hne
      obtain ⟨htrace, hrec, hid, hdecision⟩ := hchild _ rfl
      refine ⟨e', hholds, (fun h => by cases h), fun c hc => ?_⟩
      obtain rfl := Option.some.inj hc
      exact ⟨htrace, hrec, hid, hdecision⟩
    · exact fun _ _ h => h
  · constructor
    · rintro ⟨hsame, -⟩
      have hboth := hquery.and hsame
      unfold Wp at hboth
      cases hx : otelSpanContextOfInternal env otelSpanNone sW with
      | ok r s' =>
        rw [hx] at hboth
        obtain ⟨rfl, hsame⟩ := hboth
        exact hsame.symm
      | error ex s' =>
        rw [hx] at hboth
        exact hboth.1.elim
    · intro hnone
      rw [hnone]
      constructor
      · apply hquery.mono
        · rintro r s' rfl
          rfl
        · exact fun _ _ h => h
      · apply tracestatesAgree hreadyW hmax hp
        · exact iff_of_true rfl fun heq => by cases heq
        · intro c hc field hf
          obtain rfl := Option.some.inj hc
          obtain rfl := Option.some.inj hf
          rfl

end Worker

/-! ### A root with a tracestate -/

/-- A context that came from the client, with a tracestate beside it. -/
def tracestateEnv : Env :=
  { rootCtx := { isSet := true, ctx := { traceId := 7, spanId := 5, traceFlags := 1 } }
    tracestateGuc := some (cstr "v=1") }

def tracestateRoot : Call where
  env := tracestateEnv
  backend := {}
  op := .spanStart (some { name := some (cstr "statement") })

def tracestateRootOpen : St := (producer fun _ => {}).next (initSt fun _ => {}) tracestateRoot

def tracestateRootContext : OtelSpanContext :=
  { traceId := 7, spanId := 1, traceFlags := 1, tracestate := some (cstr "v=1") }

/-- A worker with copies of the leader's settings. -/
def tracestateWorker (ctx : OtelSpanContext) : Env :=
  { tracestateEnv with
    isParallelWorker := true
    leaderContext :=
      otelParallelGetLeaderContext true (otelParallelPublishLeaderContext (some ctx)) }

/-- Below a root without a tracestate. -/
theorem worker_context_iff_ratioRoot :
    ChildrenCarry (ratioRootOpen 1 false) (makeRef 1 0 true)
      ((ratioRootOpen 1 false).inheritedTracestate (.slot 0)) ∧
    Wp (otelSpanContextOfInternal (tracestateWorker ratioRootContext) otelSpanNone)
      (fun r _ => r.map OtelSpanContext.ids = some ratioRootContext.ids) (fun _ _ => False)
      (initSt fun _ => {}) ∧
    StartsAgree (tracestateWorker ratioRootContext)
      (.remote { ratioRootContext with tracestate := none }) (some ratioRootContext)
      (initSt fun _ => {}) ∧
    ((Wp (otelSpanContextOfInternal (tracestateWorker ratioRootContext) otelSpanNone)
        (fun r _ => r.bind OtelSpanContext.tracestate =
          (ratioRootOpen 1 false).inheritedTracestate (.slot 0))
        (fun _ _ => False) (initSt fun _ => {}) ∧
      TracestatesAgree (tracestateWorker ratioRootContext)
        (some { ratioRootContext with
          tracestate := (ratioRootOpen 1 false).inheritedTracestate (.slot 0) })
        (initSt fun _ => {})) ↔
      (ratioRootOpen 1 false).inheritedTracestate (.slot 0) = none) := by
  have hpub : Published (ratioRootOpen 1 false) (makeRef 1 0 true) (.slot 0) ratioRootContext :=
    ⟨⟨by decide +kernel, by decide +kernel⟩, ⟨{}, ratioRootOpen 1 false, rfl⟩, by decide⟩
  have hreach := (ratioRoot_reachable 1 false).mono (k := fun _ call => call.Bounded)
    fun _ _ h => h.bounded
  exact worker_context_iff hreach hpub (.init (m := producer fun _ => {})) rfl ⟨rfl, rfl⟩
    (show (64 : ℕ) ≤ maxOpenSpansMax by decide)

/-- The tracestate of the leader's span does not get to the worker, whose setting has it. -/
theorem worker_loses_tracestate :
    (producer fun _ => {}).ReachBy (fun _ call => call.Bounded) tracestateRootOpen ∧
    Published tracestateRootOpen (makeRef 1 0 true) (.slot 0) tracestateRootContext ∧
    WorkerOf tracestateRootContext (tracestateWorker tracestateRootContext) ∧
    (tracestateWorker tracestateRootContext).tracestateGuc = some (cstr "v=1") ∧
    tracestateRootOpen.inheritedTracestate (.slot 0) = some (cstr "v=1") ∧
    value (otelSpanContextOfInternal (tracestateWorker tracestateRootContext) otelSpanNone)
      (initSt fun _ => {}) = some (some { tracestateRootContext with tracestate := none }) :=
  ⟨Machine.ReachBy.step tracestateRoot .init trivial (show (64 : ℕ) ≤ maxOpenSpansMax by decide),
    ⟨⟨by decide +kernel, by decide +kernel⟩, ⟨{}, tracestateRootOpen, rfl⟩, by decide⟩,
    ⟨rfl, rfl⟩, rfl, by decide +kernel, by decide +kernel⟩

end PostgresOtel
