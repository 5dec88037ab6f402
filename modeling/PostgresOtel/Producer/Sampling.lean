import PostgresOtel.Context.Traceparent
import PostgresOtel.Producer.Steps

/-!
# Recording and non-recording spans

The decision to record a span is taken once for a whole trace in a backend.  `Sampled` is what holds of
the open spans, and `BelowParent` what holds of a new span and its parent; both follow from the
decision of a start, whatever the sampler says.
-/

set_option autoImplicit false

namespace PostgresOtel

open Exec

/-! ## The surroundings of a call -/

/-- What the other parts of the library guarantee about the contexts a call reads, and its caller about
the handle of the parent: the root context was parsed from a `traceparent`, a leader's context is
checked before it is used, and a parent's handle was given out. -/
structure Call.Sound (call : Call) : Prop where
  root : call.env.rootCtx.isSet = true →
    ∃ text, otelTraceparentParse text = some call.env.rootCtx.ctx
  leader : ∀ ctx ∈ call.env.leaderContext, otelSpanContextIsValid ctx = true
  parent : ∀ args, call.op = .spanStart (some args) → args.parent = .span → args.parentSpan.Issued

theorem Call.Sound.remote_valid {call : Call} (h : call.Sound) {ctx : OtelSpanContext}
    (hctx : remoteContext call.env = some ctx) : otelSpanContextIsValid ctx = true := by
  unfold remoteContext at hctx
  split at hctx
  · rename_i leader hleader
    obtain rfl := Option.some.inj hctx
    split_ifs at hleader
    exact h.leader _ hleader
  · split_ifs at hctx with hset
    obtain rfl := Option.some.inj hctx
    obtain ⟨text, htext⟩ := h.root hset
    have hvalid := otelTraceparentParse_valid htext
    exact hvalid

/-! ## Open spans -/

/-- A span that is recorded, and exported when it ends. -/
structure Recorded (x : SpanIdentity) : Prop where
  traceId : x.traceId ≠ 0
  spanId : x.spanId ≠ 0
  sampled : x.traceFlags &&& otelTraceFlagSampled ≠ 0
  decision : x.samplerDecision = .recordAndSample

/-- A span that is not. -/
structure Unrecorded (n : OtelNrec) : Prop where
  traceId : n.ctx.traceId ≠ 0
  unsampled : n.ctx.traceFlags &&& otelTraceFlagSampled = 0
  spanId : n.haveSpanId = true → n.ctx.spanId ≠ 0

structure Sampled (s : St) : Prop where
  slot : ∀ i, s.life.LiveSlot i → Recorded (s.slots i).span.identity
  nrec : ∀ i, s.life.LiveNrec i → Unrecorded (s.nrecs i)

theorem NrecKeeps.unrecorded {n n' : OtelNrec} (h : NrecKeeps n n') (hn : Unrecorded n) :
    Unrecorded n' where
  traceId := h.traceId ▸ hn.traceId
  unsampled := h.traceFlags ▸ hn.unsampled
  spanId hid := by
    rcases h.spanId with ⟨hhave, hsame⟩ | ⟨-, -, hne⟩
    · rw [hsame]
      exact hn.spanId (hhave ▸ hid)
    · exact hne

theorem Sampled.evolves {eff : Effects} {s s' : St} (h : Sampled s) (hev : Evolves eff s s') :
    Sampled s' where
  slot i hi := by
    rw [hev.identity i hi]
    exact h.slot i (hev.live (.slot i) hi).1
  nrec i hi := (hev.nrec i hi).unrecorded (h.nrec i (hev.live (.nrec i) hi).1)

/-! ## Decisions -/

/-- The sampler records and samples, or does neither. -/
theorem otelRunSampler_eq (mode : OtelApiSampler) (arg : ℚ) (traceId : OtelTraceId)
    (newRoot remoteSampled : Bool) :
    otelRunSampler mode arg traceId newRoot remoteSampled = .drop ∨
      otelRunSampler mode arg traceId newRoot remoteSampled = .recordAndSample := by
  have hif (b : Bool) : (if b then OtelSamplerDecision.recordAndSample else .drop) = .drop ∨
      (if b then OtelSamplerDecision.recordAndSample else .drop) = .recordAndSample := by
    cases b
    · exact .inl rfl
    · exact .inr rfl
  unfold otelRunSampler
  cases mode with
  | alwaysOn => exact .inr rfl
  | alwaysOff => exact .inl rfl
  | traceidratio => exact hif _
  | parentbasedAlwaysOn =>
    cases newRoot
    · exact hif _
    · exact .inr rfl
  | parentbasedAlwaysOff =>
    cases newRoot
    · exact hif _
    · exact .inl rfl
  | parentbasedTraceidratio =>
    cases newRoot
    · exact hif _
    · exact hif _

theorem sampled_flags (flags : TraceFlags) :
    ((flags &&& ~~~otelTraceFlagSampled) ||| otelTraceFlagSampled) &&& otelTraceFlagSampled ≠ 0 := by
  revert flags
  decide +kernel

theorem random_flag_unsampled (flags : TraceFlags) :
    (flags &&& otelTraceFlagRandom) &&& otelTraceFlagSampled = 0 := by
  rw [BitVec.and_assoc]
  exact BitVec.and_zero

/-- A parent that is there when its child starts, with a valid context. -/
def ResolvedParent.Good (c : Lifecycle) : ResolvedParent → Prop
  | .none => True
  | .remote ctx => otelSpanContextIsValid ctx = true
  | .slot i => c.LiveSlot i
  | .nrec i => c.LiveNrec i

theorem good_resolveFromEntry {c : Lifecycle} {e : StackRef} (h : c.Live e) :
    (resolveFromEntry e).Good c := by
  cases e <;> exact h

theorem good_parentOf {call : Call} {args : OtelSpanStartArgs} {c : Lifecycle} {p : ResolvedParent}
    (hsound : call.Sound) (hop : call.op = .spanStart (some args)) (hinv : PoolInv c)
    (hp : parentOf call.env args c = some p) : p.Good c := by
  unfold parentOf at hp
  cases hparent : args.parent with
  | active =>
    rw [hparent] at hp
    obtain rfl := Option.some.inj hp
    unfold activeParent
    cases hstack : c.spanStack with
    | nil =>
      cases hremote : remoteContext call.env with
      | none => exact trivial
      | some ctx => exact hsound.remote_valid hremote
    | cons top rest => exact good_resolveFromEntry (hinv.stack_live top (by rw [hstack]; simp))
  | context =>
    rw [hparent] at hp
    obtain rfl := Option.some.inj hp
    cases hctx : args.parentCtx.filter fun ctx => otelSpanContextIsValid ctx with
    | none => exact trivial
    | some ctx => exact (Option.filter_eq_some_iff.1 hctx).2
  | span =>
    rw [hparent] at hp
    dsimp only at hp
    split_ifs at hp with hv
    · obtain rfl := Option.some.inj hp
      exact trivial
    · obtain ⟨e, he, rfl⟩ := Option.map_eq_some_iff.1 hp
      have hissued := hsound.parent args hop hparent
      exact good_resolveFromEntry (Lifecycle.live_of_entryOf (hissued.gen_pos hv) he)
  | root =>
    rw [hparent] at hp
    obtain rfl := Option.some.inj hp
    exact trivial

/-- The trace of the span in a slot or entry. -/
def St.traceIdOf (s : St) : StackRef → OtelTraceId
  | .slot i => (s.slots i).span.traceId
  | .nrec i => (s.nrecs i).ctx.traceId

/-- How a new span in `e` hangs below its parent, which is looked up in `s`. -/
def BelowParent (s s' : St) (e : StackRef) : ResolvedParent → Prop
  | .slot i => (∃ j, e = .slot j ∧ (s'.slots j).span.parentSpanId = (s.slots i).span.spanId) ∧
    s'.traceIdOf e = (s.slots i).span.traceId
  | .nrec i => (∃ j, e = .nrec j) ∧ s'.traceIdOf e = (s.nrecs i).ctx.traceId
  | .remote ctx => (∀ j, e = .slot j → (s'.slots j).span.parentSpanId = ctx.spanId) ∧
    s'.traceIdOf e = ctx.traceId
  | .none => s'.traceIdOf e ≠ 0

/-- What a decision is worth: a trace id, and recording only with sampling. -/
structure StartDecision.Good (d : StartDecision) : Prop where
  traceId : d.traceId ≠ 0
  decision : d.decision = .drop ∨ d.decision = .recordAndSample

theorem Decides.good {env : Env} {args : OtelSpanStartArgs} {s : St} {p : ResolvedParent}
    {d : StartDecision} (h : Decides env args s p d) (hs : Sampled s) (hp : p.Good s.life) :
    d.Good := by
  cases h with
  | slot i =>
    have hrec := hs.slot i hp
    exact ⟨hrec.traceId, .inr (if_pos hrec.sampled)⟩
  | nrec i => exact ⟨(hs.nrec i hp).traceId, .inl rfl⟩
  | remote ctx =>
    have hvalid : otelSpanContextIsValid ctx = true := hp
    simp only [otelSpanContextIsValid, Bool.and_eq_true, bne_iff_ne] at hvalid
    exact ⟨hvalid.1, otelRunSampler_eq ..⟩
  | none traceId hne =>
    refine ⟨hne, ?_⟩
    cases args.forceSample with
    | true => exact .inr rfl
    | false => exact otelRunSampler_eq ..

/-- A new span is recorded, or not, like all of its trace in this backend. -/
theorem opened_good {env : Env} {args : OtelSpanStartArgs} {s s' : St} {p : ResolvedParent}
    {d : StartDecision} {e : StackRef} (hs : Sampled s) (hp : p.Good s.life)
    (hd : Decides env args s p d) (hknown : KnownBy env args s p d s' e)
    (hfresh : ¬ s.life.Live e) : BelowParent s s' e p ∧
      (∀ i, e = .slot i → Recorded (s'.slots i).span.identity) ∧
      (∀ i, e = .nrec i → Unrecorded (s'.nrecs i)) := by
  have hgood := hd.good hs hp
  cases hknown with
  | slot i hrec hfills _ =>
    have hdec := hgood.decision.resolve_left hrec
    have hrecorded : Recorded (s'.slots i).span.identity := by
      refine ⟨hfills.traceId ▸ hgood.traceId, hfills.spanId, ?_, hfills.samplerDecision.trans hdec⟩
      rw [hfills.traceFlags, StartDecision.flags, if_pos hdec]
      exact sampled_flags _
    refine ⟨?_, fun j hj => ?_, fun j hj => by cases hj⟩
    · cases hd with
      | slot j =>
        have hne : resolveFromEntry (.slot i) ≠ .slot j := by
          rintro ⟨⟩
          exact hfresh hp
        exact ⟨⟨i, rfl, hfills.parentSpanId _ rfl hne⟩, hfills.traceId⟩
      | nrec j => exact absurd rfl hrec
      | remote ctx =>
        refine ⟨fun j hj => ?_, hfills.traceId⟩
        obtain rfl : i = j := by
          injection hj
        exact hfills.parentSpanId _ rfl (by simp [resolveFromEntry])
      | none traceId hne => exact fun h0 => hne (hfills.traceId.symm.trans h0)
    · obtain rfl : i = j := by
        injection hj
      exact hrecorded
  | nrec i hdrop hid hctx hlevel =>
    have htrace : (s'.nrecs i).ctx.traceId = d.traceId := by rw [hctx]
    refine ⟨?_, (fun j hj => by cases hj), fun j hj => ?_⟩
    · cases hd with
      | slot j =>
        have hsampled := (hs.slot j hp).sampled
        rw [if_pos hsampled] at hdrop
        cases hdrop
      | nrec j => exact ⟨⟨i, rfl⟩, htrace⟩
      | remote ctx => exact ⟨(fun j hj => by cases hj), htrace⟩
      | none traceId hne => exact fun h0 => hne (htrace.symm.trans h0)
    · obtain rfl : i = j := by
        injection hj
      refine ⟨htrace ▸ hgood.traceId, ?_, fun hhave => ?_⟩
      · rw [hctx]
        exact random_flag_unsampled _
      · rw [hid] at hhave
        cases hhave

/-! ## Runs -/

theorem Sampled.step (garbage : ℕ → OtelSlot) {s : St} {call : Call} (h : Sampled s)
    (hinv : PoolInv s.life) (hsound : call.Sound) : Sampled ((producer garbage).next s call) := by
  have henter : Sampled (s.enter call) := ⟨h.slot, h.nrec⟩
  have hstep : Step call.env (s.enter call) call.op ((producer garbage).next s call) :=
    step_cases call.env call.op hinv
  revert hstep
  generalize (producer garbage).next s call = s'
  generalize hop : call.op = op
  intro hstep
  cases hstep with
  | start args ref _ hx hstarted =>
    cases hstarted with
    | refused _ _ hev _ => exact henter.evolves hev
    | opened args p d e s₁ _ hparent hd hev hprep hopens hknown =>
      have hfresh : ¬ (s.enter call).life.Live e := fun hl => hopens.free ((hprep.live e).2 hl)
      have hgood := good_parentOf hsound hop (c := (s.enter call).life) hinv hparent
      obtain ⟨-, hslot, hnrec⟩ := opened_good henter hgood hd hknown hfresh
      have h₁ := henter.evolves hev
      refine ⟨fun i hi => ?_, fun i hi => ?_⟩
      · by_cases he : e = .slot i
        · exact hslot i he
        · rw [hopens.identity i he]
          have hi' : s'.life.Live (.slot i) := hi
          have hl : s₁.life.Live (.slot i) :=
            (hopens.live_iff.1 hi').resolve_right fun heq => he heq.symm
          exact h₁.slot i hl
      · by_cases he : e = .nrec i
        · exact hnrec i he
        · rw [hopens.nrec i he]
          have hi' : s'.life.Live (.nrec i) := hi
          have hl : s₁.life.Live (.nrec i) :=
            (hopens.live_iff.1 hi').resolve_right fun heq => he heq.symm
          exact h₁.nrec i hl
  | startRaised args e _ hx hev => exact henter.evolves hev
  | activate ref e _ hact =>
    rw [hact.push]
    exact ⟨h.slot, h.nrec⟩
  | other _ _ _ hev => exact henter.evolves hev

variable {garbage : ℕ → OtelSlot} {s : St}

theorem Sampled.init : Sampled (initSt garbage) where
  slot i hi := absurd hi.1 (Nat.not_lt_zero i)
  nrec i hi := absurd hi.1 (Nat.not_lt_zero i)

theorem reachable_sampled (h : (producer garbage).ReachBy (fun _ call => call.Sound) s) :
    Sampled s := by
  have hboth : PoolInv s.life ∧ Sampled s :=
    Machine.ReachBy.invariant (I := fun s => PoolInv s.life ∧ Sampled s)
      ⟨poolInv_init, .init⟩
      (fun _ _ hI hen hsound => ⟨hI.1.path (life_step garbage hI.1 hen),
        hI.2.step garbage hI.1 hsound⟩) h
  exact hboth.2

/-! ## Reported contexts -/

/-- A context that says that its span is not recorded. -/
def Unsampled (ctx : OtelSpanContext) : Prop :=
  otelSpanContextIsValid ctx = true ∧ otelSpanContextSampled ctx = false

theorem unsampled_of_unrecorded {n : OtelNrec} (h : Unrecorded n) (hid : n.ctx.spanId ≠ 0) :
    Unsampled n.ctx := by
  refine ⟨?_, ?_⟩
  · simp only [otelSpanContextIsValid, Bool.and_eq_true, bne_iff_ne]
    exact ⟨h.traceId, hid⟩
  · simp only [otelSpanContextSampled, bne_eq_false_iff_eq]
    exact h.unsampled

theorem wp_nrecContext_unsampled (env : Env) {i : ℕ} (h : Unrecorded (s.nrecs i)) :
    Wp (nrecContext env i) (fun ctx _ => Unsampled ctx) (fun _ _ => False) s := by
  unfold nrecContext
  rw [wp_bind, wp_get, wp_ite]
  refine ⟨fun hid => unsampled_of_unrecorded h (h.spanId hid), fun _ => ?_⟩
  rw [wp_bind]
  refine (wp_seedPrngIfNeeded env .none s).mono (fun _ s₁ h₁ => ?_) fun _ _ hf => hf.elim
  obtain ⟨-, -, -, -, hnrecs, -⟩ := h₁
  rw [wp_bind]
  refine wp_newSpanId env fun id hne => ?_
  rw [wp_bind]
  change Unsampled (Function.update s₁.nrecs i _ i).ctx
  rw [Function.update_self, hnrecs]
  exact unsampled_of_unrecorded
    (n := { s.nrecs i with haveSpanId := true, ctx := { (s.nrecs i).ctx with spanId := id } })
    ⟨h.traceId, h.unsampled, fun _ => hne⟩ hne

/-- What `otel_span_context_of` is asked about: the span of a handle, or the active one. -/
def Lifecycle.asked (c : Lifecycle) (env : Env) (ref : OtelSpanRef) : Option ResolvedParent :=
  if ref.v = 0 then some (activeParent env c) else (c.entryOf ref).map resolveFromEntry

theorem wp_apiSpanContextOf_unsampled (env : Env) {ref : OtelSpanRef} {i : ℕ}
    (hasked : s.life.asked env ref = some (.nrec i)) (h : Unrecorded (s.nrecs i)) :
    Wp (apiSpanContextOf env ref) (fun r _ => ∀ ctx ∈ r, Unsampled ctx) (fun _ _ => False) s := by
  have hreport : Wp (nrecContext env i >>= fun ctx => pure (some ctx))
      (fun r _ => ∀ ctx ∈ r, Unsampled ctx) (fun _ _ => False) s := by
    rw [wp_bind]
    refine (wp_nrecContext_unsampled env h).mono (fun ctx _ hctx x hx => ?_) fun _ _ hf => hf
    obtain rfl := Option.some.inj hx
    exact hctx
  unfold Lifecycle.asked at hasked
  unfold apiSpanContextOf otelSpanContextOfInternal
  rw [wp_bind]
  refine wp_callRefused_cases env (fun c _ => ?_) ?_
  · simp only [if_true]
    exact fun ctx hctx => by cases hctx
  simp only [Bool.false_eq_true, if_false]
  rw [wp_ite]
  refine ⟨fun hv => ?_, fun hv => ?_⟩
  · rw [if_pos hv] at hasked
    rw [wp_bind]
    refine (wp_resolveActiveParent env s).mono (fun p s₁ h₁ => ?_) fun _ _ hf => hf
    obtain ⟨rfl, rfl⟩ := h₁
    rw [Option.some.inj hasked]
    exact hreport
  · rw [if_neg hv] at hasked
    obtain ⟨e, he, hnrec⟩ := Option.map_eq_some_iff.1 hasked
    cases e with
    | slot j => cases hnrec
    | nrec j =>
      obtain rfl : j = i := by
        injection hnrec
      unfold Lifecycle.entryOf at he
      unfold contextOfHandle
      split_ifs at he with hpos
      · obtain ⟨k, -, hk⟩ := Option.map_eq_some_iff.1 he
        cases hk
      · obtain ⟨k, hk, hkj⟩ := Option.map_eq_some_iff.1 he
        obtain rfl : k = j := by
          injection hkj
        rw [if_neg hpos, wp_bind]
        refine wp_nrecForRef_cases hpos (fun l hl => ?_) fun hno => ?_
        · rw [hk] at hl
          obtain rfl := Option.some.inj hl
          exact hreport
        · rw [hk] at hno
          cases hno

/-! ## The contract -/

theorem live_asked {env : Env} {ref : OtelSpanRef} {i : ℕ} (hinv : PoolInv s.life)
    (hissued : ref.v ≠ 0 → ref.Issued) (hasked : s.life.asked env ref = some (.nrec i)) :
    s.life.LiveNrec i := by
  unfold Lifecycle.asked at hasked
  have htop {e : StackRef} (he : s.life.Live e) (heq : resolveFromEntry e = .nrec i) :
      s.life.LiveNrec i := by
    cases e with
    | slot j => cases heq
    | nrec j =>
      obtain rfl : j = i := by
        injection heq
      exact he
  split_ifs at hasked with hv
  · have hactive := Option.some.inj hasked
    unfold activeParent at hactive
    split at hactive
    · rename_i top rest hstack
      exact htop (hinv.stack_live top (by rw [hstack]; simp)) hactive
    · cases hremote : remoteContext env <;> rw [hremote] at hactive <;> cases hactive
  · obtain ⟨e, he, hnrec⟩ := Option.map_eq_some_iff.1 hasked
    exact htop (Lifecycle.live_of_entryOf ((hissued hv).gen_pos hv) he) hnrec

/-- What holds of the open spans, of a span started now, and of a context reported now. -/
structure NoOrphans (s : St) : Prop where
  recorded : ∀ i, s.life.LiveSlot i → Recorded (s.slots i).span.identity
  unrecorded : ∀ i, s.life.LiveNrec i → Unrecorded (s.nrecs i)
  started : ∀ (call : Call) (args : OtelSpanStartArgs) (ref : OtelSpanRef) (s' : St), call.Sound →
    call.op = .spanStart (some args) →
    apiSpanStart call.env (some args) (s.enter call) = .ok ref s' → ref ≠ otelSpanNone →
    ∃ p e, parentOf call.env args s.life = some p ∧ BelowParent s s' e p ∧
      ref = e.handle (s'.life.gen e) ∧ s'.life.Live e
  reported : ∀ (env : Env) (ref : OtelSpanRef) (i : ℕ) (r : Option OtelSpanContext) (s' : St),
    (ref.v ≠ 0 → ref.Issued) → s.life.asked env ref = some (.nrec i) →
    apiSpanContextOf env ref s = .ok r s' → ∀ ctx ∈ r, Unsampled ctx

/-- No recording span is an orphan: whatever samples and however starts name their parents, a span is
recorded if its parent in this backend is, and only then, and carries on the parent's trace. -/
theorem no_orphaned_spans (h : (producer garbage).ReachBy (fun _ call => call.Sound) s) :
    NoOrphans s := by
  have hs := reachable_sampled h
  have hinv : PoolInv s.life := reachable_poolInv h.reachable
  refine ⟨hs.slot, hs.nrec, fun call args ref s' hsound hop hx hne => ?_,
    fun env ref i r s' hissued hasked hx => ?_⟩
  · have henter : Sampled (s.enter call) := ⟨hs.slot, hs.nrec⟩
    have hstart := (wp_apiSpanStart_opens call.env (some args) (s := s.enter call) hinv).result hx
    cases hstart with
    | refused _ _ _ _ => exact absurd rfl hne
    | opened _ p d e s₁ _ hparent hd _ hprep hopens hknown =>
      have hfresh : ¬ (s.enter call).life.Live e := fun hl => hopens.free ((hprep.live e).2 hl)
      have hgood := good_parentOf hsound hop (c := (s.enter call).life) hinv hparent
      obtain ⟨hbelow, -, -⟩ := opened_good henter hgood hd hknown hfresh
      exact ⟨p, e, hparent, hbelow, rfl, hopens.live_iff.2 (.inr rfl)⟩
  · have hlive := live_asked hinv hissued hasked
    exact (wp_apiSpanContextOf_unsampled env hasked (hs.nrec i hlive)).result hx

/-- A root that is not sampled. -/
def unsampledRoot : Call where
  env := { samplerMode := .parentbasedAlwaysOff }
  backend := {}
  op := .spanStart (some { name := some (cstr "root") })

def unsampledRootState : St := (producer fun _ => {}).next ((producer fun _ => {}).init) unsampledRoot

/-- A span below it. -/
def childOfUnsampled (mode : OtelApiSampler) (force : Bool) : Call where
  env := { samplerMode := mode }
  backend := {}
  op := .spanStart (some { name := some (cstr "child"), forceSample := force })

theorem unsampledRoot_sound : unsampledRoot.Sound where
  root h := by cases h
  leader ctx h := by cases h
  parent args h hparent := by
    have heq : some ({ name := some (cstr "root") } : OtelSpanStartArgs) = some args := by
      injection h
    obtain rfl := Option.some.inj heq
    cases hparent

theorem childOfUnsampled_sound (mode : OtelApiSampler) (force : Bool) :
    (childOfUnsampled mode force).Sound where
  root h := by cases h
  leader ctx h := by cases h
  parent args h hparent := by
    have heq : some ({ name := some (cstr "child"), forceSample := force } : OtelSpanStartArgs) =
        some args := by
      injection h
    obtain rfl := Option.some.inj heq
    cases hparent

/-- Whatever samples, and forced or not, a span below it is not recorded. -/
theorem no_orphaned_spans_unsampledRoot :
    unsampledRootState.life.LiveNrec 0 ∧
    ∀ (mode : OtelApiSampler) (force : Bool) (ref : OtelSpanRef) (s' : St),
      apiSpanStart (childOfUnsampled mode force).env
        (some { name := some (cstr "child"), forceSample := force })
        (unsampledRootState.enter (childOfUnsampled mode force)) = .ok ref s' →
      ref ≠ otelSpanNone → ∃ i gen, ref = StackRef.handle gen (.nrec i) := by
  have hreach : (producer fun _ => {}).ReachBy (fun _ call => call.Sound) unsampledRootState :=
    Machine.ReachBy.step unsampledRoot .init trivial unsampledRoot_sound
  have hlive : 0 < unsampledRootState.life.nrecs.used ∧
      ¬ (unsampledRootState.life.nrecs.cell 0).Free := by decide +kernel
  refine ⟨hlive, fun mode force ref s' hx hne => ?_⟩
  obtain ⟨p, e, hp, hbelow, href, -⟩ := (no_orphaned_spans hreach).started
    (childOfUnsampled mode force) _ ref s' (childOfUnsampled_sound mode force) rfl hx hne
  obtain rfl : .nrec 0 = p := Option.some.inj hp
  obtain ⟨⟨i, rfl⟩, -⟩ := hbelow
  exact ⟨i, _, href⟩

end PostgresOtel
