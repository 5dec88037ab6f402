import PostgresOtel.Producer.AccountRuns
import PostgresOtel.Producer.Contexts
import PostgresOtel.Producer.Departures
import PostgresOtel.Producer.History

/-!
# Where exported spans come from

Every recording span has a birth: the call that started it, with the parent that this call found and what
the span is known by from then on.  The births of a run form a forest: a span is born below a span of
this backend that was born before it, below a context from outside, or as a root, and its ids say which.
What is exported of a span is what it was born with.
-/

set_option autoImplicit false

namespace PostgresOtel

open Exec

/-! ## Calls that start nothing -/

/-- No recording span is started. -/
def StartsNone (s s' : St) : Prop := s'.counters.spansStarted = s.counters.spansStarted

instance : Historic StartsNone where
  refl _ := rfl
  trans _ _ _ h h' := Eq.trans h' h
  of_same h := h.started

/-- Only a start starts a span. -/
theorem startsNone_runOp (env : Env) (op : ProducerOp) (hop : op.isStart = false) :
    Within StartsNone (runOp env op) := by
  refine historic_runOp env (historic_dispatchSpan env (fun _ _ => rfl) fun _ _ _ =>
    within_modify fun _ => rfl) op fun args hstart => ?_
  subst hstart
  cases hop

/-! ## Starts that raise -/

/-- When it raises, no span has been started. -/
def RaisesEarly {α : Type} (x : M α) : Prop :=
  ∀ s, Wp x (fun _ _ => True) (fun _ s' => StartsNone s s') s

section RaisesEarly

variable (env : Env) {α β : Type}

theorem Within.raisesEarly {x : M α} (h : Within StartsNone x) : RaisesEarly x := fun s =>
  (h s).mono (fun _ _ _ => trivial) fun _ _ hs => hs

theorem RaisesEarly.after {x : M β} {f : β → M α} (hx : Within StartsNone x) (hf : ∀ b, RaisesEarly (f b)) :
    RaisesEarly (x >>= f) := by
  intro s
  rw [wp_bind]
  refine (hx s).mono (fun b s₁ h₁ => ?_) fun _ _ h => h
  exact (hf b s₁).mono (fun _ _ h => h) fun _ _ h => IsTrans.trans _ _ _ h₁ h

theorem RaisesEarly.ite {c : Prop} [Decidable c] {x y : M α} (hx : RaisesEarly x) (hy : RaisesEarly y) :
    RaisesEarly (if c then x else y) := by
  split
  · exact hx
  · exact hy

/-- The last thing that can raise in a start is the taking of a slot. -/
theorem raisesEarly_startRecording (args : OtelSpanStartArgs) (name : CString) (p : ResolvedParent)
    (d : StartDecision) : RaisesEarly (startRecording env args name p d) := by
  have hrefuse {f : OtelApiCounters → OtelApiCounters} (h : ∀ c, (f c).spansStarted = c.spansStarted) :
      RaisesEarly (do
        modifyCounters f
        return otelSpanNone) :=
    Within.raisesEarly (.bind (historic_count h) fun _ => within_pure _)
  unfold startRecording
  refine .after within_get fun s => .ite (hrefuse fun _ => rfl) (.ite (hrefuse fun _ => rfl) ?_)
  refine .after (historic_ensurePool env) fun ready => ?_
  refine .ite (hrefuse fun _ => rfl) ?_
  refine .after (historic_prepareStart env args _) fun _ => ?_
  refine .after (historic_takeSlot env) fun taken => ?_
  cases taken with
  | none => exact hrefuse fun _ => rfl
  | some i =>
    intro s
    exact (wp_openTakenSlot env i args name p d _ (c := s.life) (t := s.life.slots) rfl).mono
      (fun _ _ _ => trivial) fun _ _ h => h.elim

theorem raisesEarly_apiSpanStart (args : Option OtelSpanStartArgs) : RaisesEarly (apiSpanStart env args) := by
  have hbad : RaisesEarly countBadArgs :=
    Within.raisesEarly (.bind (historic_count fun _ => rfl) fun _ => within_pure _)
  unfold apiSpanStart
  refine .after (tame_callRefused env false).quiet.historic fun refused => ?_
  refine .ite (Within.raisesEarly (within_pure _)) ?_
  cases args with
  | none => exact hbad
  | some args =>
    dsimp only
    cases (if args.structSizeOk then args.name else none) with
    | none => exact hbad
    | some name =>
      refine .after (quiet_seedPrngIfNeeded env).historic fun _ => ?_
      refine .after (quiet_resolveParent env args).historic fun parent => ?_
      cases parent with
      | none => exact hbad
      | some p =>
        refine .after (historic_decideStart env args p) fun d => ?_
        refine .ite (Within.raisesEarly ?_) (raisesEarly_startRecording env args name p d)
        exact historic_startNrec env args _ _

end RaisesEarly

/-! ## Spans that stay the same -/

/-- A span of this number is open and known by this, or the number is still to come. -/
def St.Has (s : St) (serial : ℕ) (x : SpanIdentity) : Prop :=
  (∃ i, s.life.LiveSlot i ∧ (s.slots i).serial = serial ∧ (s.slots i).span.identity = x) ∨
    s.counters.spansStarted ≤ serial

/-- What is open or exported later was open before, or has been started since. -/
structure Continues (s s' : St) : Prop where
  started : s.counters.spansStarted ≤ s'.counters.spansStarted
  live : ∀ i, s'.life.LiveSlot i → s.Has (s'.slots i).serial (s'.slots i).span.identity
  dispatches : ∃ new, s'.dispatches = s.dispatches ++ new ∧ ∀ d ∈ new, s.Has d.serial d.span.identity

section Continues

variable {s s' s'' : St}

theorem Continues.refl (s : St) : Continues s s where
  started := Nat.le_refl _
  live i hi := .inl ⟨i, hi, rfl, rfl⟩
  dispatches := ⟨[], (List.append_nil _).symm, fun _ hd => absurd hd List.not_mem_nil⟩

theorem St.Has.before {serial : ℕ} {x : SpanIdentity} (h : s'.Has serial x) (hs : Continues s s') :
    s.Has serial x := by
  rcases h with ⟨i, hi, rfl, rfl⟩ | hle
  · exact hs.live i hi
  · exact .inr (Nat.le_trans hs.started hle)

theorem Continues.trans (h : Continues s s') (h' : Continues s' s'') : Continues s s'' where
  started := Nat.le_trans h.started h'.started
  live i hi := (h'.live i hi).before h
  dispatches := by
    obtain ⟨new, hnew, hhas⟩ := h.dispatches
    obtain ⟨new', hnew', hhas'⟩ := h'.dispatches
    refine ⟨new ++ new', by rw [hnew', hnew, List.append_assoc], fun d hd => ?_⟩
    rcases List.mem_append.1 hd with hd | hd
    · exact hhas d hd
    · exact (hhas' d hd).before h

/-- A step with no export. -/
theorem Continues.of_slots (hstarted : s'.counters.spansStarted = s.counters.spansStarted)
    (hdispatches : s'.dispatches = s.dispatches)
    (hlive : ∀ i, s'.life.LiveSlot i → s.life.LiveSlot i ∧ (s'.slots i).serial = (s.slots i).serial ∧
      (s'.slots i).span.identity = (s.slots i).span.identity) : Continues s s' where
  started := Nat.le_of_eq hstarted.symm
  live i hi := by
    obtain ⟨hs, hserial, hid⟩ := hlive i hi
    exact .inl ⟨i, hs, hserial.symm, hid.symm⟩
  dispatches := ⟨[], by rw [hdispatches, List.append_nil], fun _ hd => absurd hd List.not_mem_nil⟩

theorem evolves_finishSlot (env : Env) (i : ℕ) (endTime : TimestampTz) (unwinding : Bool)
    (reason : Option CString) : Within (Evolves .none) (finishSlot env i endTime unwinding reason) := by
  unfold finishSlot markUnwound
  refine .bind (evolves_runIf (.bind ?_ fun _ => evolves_counters _)) fun _ =>
    (tame_finishSpan env i endTime).evolves
  exact evolves_modifySlot (fun _ => ⟨rfl, rfl, rfl⟩) (.inr fun _ => rfl)

theorem evolves_spanOp (env : Env) (ref : OtelSpanRef) (op : SpanOp) :
    Within (Evolves .none) (op.run env ref) := by
  cases op with
  | setStr key val => exact (setter_apiSpanSetStr env ref key val).evolves
  | setVprintf key formatted => exact (setter_apiSpanSetVprintf env ref key formatted).evolves
  | setInt key val => exact (setter_setScalar env ref key _).evolves
  | setDouble key val => exact (setter_setScalar env ref key _).evolves
  | setBool key val => exact (setter_setScalar env ref key _).evolves
  | setName name => exact (setter_apiSpanSetName env ref name).evolves
  | setStatus code description => exact (setter_apiSpanSetStatus env ref code description).evolves
  | addEvent name ts attrs => exact (setter_apiSpanAddEvent env ref name ts attrs).evolves
  | addLink target => exact (setter_apiSpanAddLink env ref target).evolves
  | recordError edata => exact (setter_apiSpanRecordError env ref edata).evolves
  | captureError => exact evolves_apiSpanCaptureError env ref
  | capture edata recorded =>
    refine Within.ite (tame_slotRecordError env _ edata).evolves ?_
    exact (tame_markSpanError env _ edata).evolves
  | finish endTime unwinding reason => exact evolves_finishSlot env _ endTime unwinding reason

/-- An end changes nothing that a span is known by. -/
theorem Finishes.identity {env : Env} {tick : ℕ} {slot slot' : OtelSlot} {unwinding : Bool}
    {reason : Option CString} (h : Finishes env tick (slot.closing unwinding reason) slot') :
    slot'.serial = slot.serial ∧ slot'.span.identity = slot.span.identity := by
  have hclosing : (slot.closing unwinding reason).serial = slot.serial ∧
      (slot.closing unwinding reason).span.identity = slot.span.identity := by
    cases unwinding <;> exact ⟨rfl, rfl⟩
  obtain ⟨time, hspan⟩ := h.span
  refine ⟨(congrArg SlotLife.serial h.life).trans hclosing.1, ?_⟩
  rw [hspan]
  exact hclosing.2

/-- The end of a span, up to the export. -/
theorem Continues.finish (env : Env) {i : ℕ} {endTime : TimestampTz} {unwinding : Bool}
    {reason : Option CString} (hlive : s.life.LiveSlot i) :
    Continues s ((DataStep.finish env i endTime unwinding reason).next s) := by
  have hfinishes : Wp (finishSlot env i endTime unwinding reason)
      (fun _ s' => OnSlot i (fun slot slot' => Finishes env (tickAfterTime endTime s.tick)
          (slot.closing unwinding reason) slot') s s' ∧
        s'.counters.spansStarted = s.counters.spansStarted)
      (fun _ _ => False) s := by
    apply wp_finishSlot_cases
    intro s' hslot hcounters
    rw [hcounters]
    exact ⟨hslot, rfl⟩
  obtain ⟨hslot, hstarted⟩ := (hfinishes.mono (fun _ _ h => h) fun _ _ h => h.elim).endState
  have hev := (evolves_finishSlot env i endTime unwinding reason s).endState
  change Continues s ((endState (finishSlot env i endTime unwinding reason) s).handOver i env.sinks)
  generalize endState (finishSlot env i endTime unwinding reason) s = s₁ at hslot hstarted hev ⊢
  have hself := hslot.slot.identity
  have hsame (j : ℕ) : ((s₁.handOver i env.sinks).slots j).gen = (s₁.slots j).gen ∧
      ((s₁.handOver i env.sinks).slots j).serial = (s.slots j).serial ∧
      ((s₁.handOver i env.sinks).slots j).span.identity = (s.slots j).span.identity := by
    by_cases hne : j = i
    · have hi : (s₁.handOver i env.sinks).slots i = { s₁.slots i with dispatching := true } :=
        Function.update_self ..
      rw [hne, hi]
      exact ⟨rfl, hself⟩
    · have hj : (s₁.handOver i env.sinks).slots j = s₁.slots j := Function.update_of_ne hne ..
      rw [hj, hslot.others j hne]
      exact ⟨rfl, rfl, rfl⟩
  refine ⟨Nat.le_of_eq hstarted.symm, fun j hj => ?_,
    [⟨(s₁.slots i).serial, (s₁.slots i).span, env.sinks⟩], ?_, fun d hd => ?_⟩
  · obtain ⟨hgen, hserial, hid⟩ := hsame j
    have hj₁ : s₁.life.LiveSlot j := ⟨hj.1, fun hfree => hj.2 (hgen.trans hfree)⟩
    exact .inl ⟨j, (hev.live (.slot j) hj₁).1, hserial.symm, hid.symm⟩
  · rw [← hslot.dispatches]
    rfl
  · rw [List.mem_singleton.1 hd]
    exact .inl ⟨i, hlive, hself.1.symm, hself.2.symm⟩

theorem DataStep.continues (step : DataStep) (henabled : step.Enabled s) : Continues s (step.next s) := by
  cases step with
  | start env i args name p d owner =>
    have hstarts := starts_openTakenSlot env i args name p d owner s
    refine ⟨hstarts.started ▸ Nat.le_succ _, fun j hj => ?_,
      [], by rw [List.append_nil]; exact hstarts.dispatches, fun _ hd => absurd hd List.not_mem_nil⟩
    by_cases hne : j = i
    · rw [hne]
      exact .inr (Nat.le_of_eq hstarts.serial.symm)
    · obtain ⟨hlive, hsame⟩ := hstarts.others j hj hne
      exact .inl ⟨j, hlive, congrArg (fun slot : OtelSlot => slot.serial) hsame.symm,
        congrArg (fun slot : OtelSlot => slot.span.identity) hsame.symm⟩
  | operate env ref op =>
    have hop : OpTallies env ref op s (endState (op.run env ref) s) := SpanOp.tallies env henabled.1
    have hev := (evolves_spanOp env ref op s).endState
    refine .of_slots hop.tallies.started hop.tallies.slot.dispatches fun i hi =>
      ⟨(hev.live (.slot i) hi).1, ?_, hev.identity i hi⟩
    by_cases hne : i = refIdx ref
    · rw [hne]
      exact congrArg SlotLife.serial hop.tallies.slot.slot
    · exact congrArg (fun slot : OtelSlot => slot.serial) (hop.tallies.slot.others i hne)
  | finish env i endTime unwinding reason => exact .finish env henabled.1
  | other s' =>
    exact .of_slots henabled.counts.2 henabled.dispatches fun i hi =>
      ⟨(henabled.slots i hi).1, (henabled.slots i hi).2.serial,
        congrArg OtelSpan.identity (henabled.slots i hi).2.span⟩

theorem Onward.continues (h : Onward s s') : Continues s s' := by
  have hpath := h.path
  clear h
  induction hpath with
  | refl => exact .refl s
  | tail _ hstep ih =>
    obtain ⟨step, henabled, rfl⟩ := hstep
    exact ih.trans (step.continues henabled)

end Continues

/-! ## Births -/

/-- What a recording span is born below. -/
inductive SpanOrigin
  /-- The span of this backend that was started as number `serial`. -/
  | span (serial : ℕ)
  /-- A context from outside the backend. -/
  | context (ctx : OtelSpanContext)
  | root
  deriving DecidableEq

/-- The start of a recording span. -/
structure SpanBirth where
  serial : ℕ
  origin : SpanOrigin
  identity : SpanIdentity
  deriving DecidableEq

/-- What a start finds for a parent; nothing recorded is started below a non-recording span. -/
def ResolvedParent.origin (s : St) : ResolvedParent → SpanOrigin
  | .slot i => .span (s.slots i).serial
  | .remote ctx => .context ctx
  | .nrec _ => .root
  | .none => .root

/-- The recording span that a call from `s` to `s'` starts, if any. -/
def Call.birth (call : Call) (s s' : St) : Option SpanBirth :=
  match call.op with
  | .spanStart (some args) => do
    let ref ← call.gives s
    let p ← parentOf call.env args s.life
    if 0 < ref.v then
      some ⟨s.counters.spansStarted, p.origin s, (s'.slots (refIdx ref)).span.identity⟩
    else
      none
  | _ => none

/-- The producer with the births of its spans beside it. -/
def spanBirths (garbage : ℕ → OtelSlot) : Machine (St × List SpanBirth) Call :=
  (producer garbage).extend [] some (fun _ _ => True) fun p call =>
    p.2 ++ (call.birth p.1 ((producer garbage).next p.1 call)).toList

/-- The span has the ids that its origin asks for. -/
def SpanBirth.Below (births : List SpanBirth) (x : SpanBirth) : Prop :=
  match x.origin with
  | .span n => ∃ y ∈ births, y.serial = n ∧ n < x.serial ∧
      x.identity.traceId = y.identity.traceId ∧ x.identity.parentSpanId = y.identity.spanId
  | .context ctx => x.identity.traceId = ctx.traceId ∧ x.identity.parentSpanId = ctx.spanId
  | .root => x.identity.parentSpanId = 0

/-- The births so far. -/
structure Born (births : List SpanBirth) (s : St) : Prop where
  serials : births.map SpanBirth.serial = List.range s.counters.spansStarted
  opened : ∀ i, s.life.LiveSlot i →
    ∃ x ∈ births, x.serial = (s.slots i).serial ∧ x.identity = (s.slots i).span.identity
  exported : ∀ d ∈ s.dispatches, ∃ x ∈ births, x.serial = d.serial ∧ x.identity = d.span.identity
  below : ∀ x ∈ births, x.Below births
  recorded : ∀ x ∈ births, Recorded x.identity

section Births

variable {births : List SpanBirth} {s s' : St} {call : Call}

theorem SpanBirth.Below.append {x : SpanBirth} (h : x.Below births) (new : List SpanBirth) :
    x.Below (births ++ new) := by
  unfold SpanBirth.Below at h ⊢
  cases horigin : x.origin with
  | span n =>
    simp only [horigin] at h ⊢
    obtain ⟨y, hy, hrest⟩ := h
    exact ⟨y, List.mem_append_left _ hy, hrest⟩
  | context ctx =>
    simp only [horigin] at h ⊢
    exact h
  | root =>
    simp only [horigin] at h ⊢
    exact h

/-- A known span has a birth if no span has been started since. -/
theorem Born.has (h : Born births s) {serial : ℕ} {x : SpanIdentity} (hhas : s.Has serial x)
    (hlt : serial < s.counters.spansStarted) : ∃ y ∈ births, y.serial = serial ∧ y.identity = x := by
  rcases hhas with ⟨i, hi, rfl, rfl⟩ | hle
  · exact h.opened i hi
  · exact absurd hlt (Nat.not_lt.2 hle)

/-- A call that starts nothing. -/
theorem Born.same (h : Born births s) (hcontinues : Continues s s') (hnone : StartsNone s s')
    (hledger : Ledger s'.life) : Born births s' where
  serials := by rw [h.serials, hnone]
  opened i hi := h.has (hcontinues.live i hi) (hnone ▸ hledger.serial_lt i hi)
  exported d hd := by
    obtain ⟨new, hnew, hhas⟩ := hcontinues.dispatches
    have hlt : d.serial < s.counters.spansStarted :=
      hnone ▸ hledger.dispatched_lt _ (List.mem_map_of_mem hd)
    rw [hnew] at hd
    rcases List.mem_append.1 hd with hd | hd
    · exact h.exported d hd
    · exact h.has (hhas d hd) hlt
  below := h.below
  recorded := h.recorded

theorem StartOutcome.dispatched {c c' : Lifecycle} {detached : Bool} {ref : OtelSpanRef}
    (h : StartOutcome c detached ref c') : c'.dispatched = c.dispatched := by
  have hprepared {c c' : Lifecycle} (hp : c.Prepared c') : c'.dispatched = c.dispatched := by
    rcases hp with rfl | ⟨-, n, ok, rfl⟩ <;> rfl
  have hpush (c : Lifecycle) (e : StackRef) : (c.pushUnless detached e).dispatched = c.dispatched := by
    cases detached <;> rfl
  cases h with
  | refused _ hp => exact hprepared hp
  | nrec i t n => exact hpush _ _
  | slot c₀ i t l hp =>
    have h₀ : c₀.dispatched = c.dispatched := hprepared hp
    exact (hpush _ _).trans h₀

/-- What a call does that starts a recording span in slot `i`. -/
structure Bears (call : Call) (i : ℕ) (p : ResolvedParent) (s s' : St) : Prop where
  birth : call.birth s s' = some ⟨s.counters.spansStarted, p.origin s, (s'.slots i).span.identity⟩
  arrives : Arrives (.slot i) s.life s'.life
  good : p.Good s.life
  below : BelowParent s s' (.slot i) p
  root : p = .none → (s'.slots i).span.parentSpanId = 0
  recorded : Recorded (s'.slots i).span.identity
  dispatches : s'.life.dispatched = s.life.dispatched

section Starts

variable {ref : OtelSpanRef}

theorem birth_eq_none (h : call.gives s = none) : call.birth s s' = none := by
  unfold Call.birth
  rw [h]
  cases call.op with
  | spanStart args => cases args <;> rfl
  | _ => rfl

theorem birth_of_gives {args : OtelSpanStartArgs} {p : ResolvedParent} (hop : call.op = .spanStart (some args))
    (hgives : call.gives s = some ref) (hp : parentOf call.env args s.life = some p) :
    call.birth s s' =
      if 0 < ref.v then some ⟨s.counters.spansStarted, p.origin s, (s'.slots (refIdx ref)).span.identity⟩
      else none := by
  unfold Call.birth
  rw [hop, hgives]
  simp only [hp]
  rfl

/-- A start that returns bears a span, or none has been started. -/
theorem bears_of_ok {args : Option OtelSpanStartArgs} (hready : s.Ready) (hready' : s'.Ready)
    (hsampled : Sampled s) (hsound : call.Sound) (hop : call.op = .spanStart args)
    (hx : apiSpanStart call.env args (s.enter call) = .ok ref s') :
    (call.birth s s' = none ∧ StartsNone s s') ∨ ∃ i p, Bears call i p s s' := by
  have hinv : PoolInv (s.enter call).life := hready.pool
  have henter : Sampled (s.enter call) := ⟨hsampled.slot, hsampled.nrec⟩
  have hgives : call.gives s = if ref = otelSpanNone then none else some ref := by
    unfold Call.gives
    rw [hop]
    simp only [hx]
  have houtcome := ((wp_apiSpanStart call.env args hinv).result hx).2
  have harrival := houtcome.arrives hinv
  cases (wp_apiSpanStart_opens call.env args hinv).result hx with
  | refused _ _ _ hprep =>
    refine .inl ⟨birth_eq_none (by rw [hgives, if_pos rfl]), ?_⟩
    rcases hprep with heq | ⟨-, n, ok, heq⟩ <;> exact congrArg Lifecycle.started heq
  | opened args p d e s₁ _ hparent hd _ hprep hopens hknown =>
    have hfresh : ¬ (s.enter call).life.Live e := fun hl => hopens.free ((hprep.live e).2 hl)
    have hgood := good_parentOf hsound hop (c := (s.enter call).life) hinv hparent
    obtain ⟨hbelow, hrecorded, -⟩ := opened_good henter hgood hd hknown hfresh
    have hlive : s'.life.Live e := hopens.live_iff.2 (.inr rfl)
    have hpos : 0 < s'.life.gen e := Nat.pos_of_ne_zero (Lifecycle.live_iff.1 hlive).2
    rw [if_neg (handle_ne_none hpos)] at hgives
    -- the span that has come to be open is the one that arrives
    obtain ⟨e', harrives⟩ := harrival.resolve_left fun h => handle_ne_none hpos h.1
    obtain rfl : e' = e := (hopens.live_iff.1 harrives.live).resolve_left fun hl =>
      harrives.free ((hprep.live e').1 hl)
    have hbirth : call.birth s s' = _ := birth_of_gives hop hgives hparent
    cases e' with
    | nrec i =>
      refine .inl ⟨hbirth.trans (if_neg fun hv => ?_), harrives.started⟩
      obtain ⟨j, hj⟩ := (handle_pos_iff hpos).1 hv
      cases hj
    | slot i =>
      rw [if_pos ((handle_pos_iff hpos).2 ⟨i, rfl⟩), refIdx_handle (hready'.index_lt hlive)] at hbirth
      refine .inr ⟨i, p, hbirth, harrives, hgood, hbelow, ?_, hrecorded i rfl, houtcome.dispatched⟩
      rintro rfl
      exact newRoot_opened hknown hready.blank i rfl

/-- A start bears a span, or none has been started. -/
theorem bears_start {garbage : ℕ → OtelSlot} {args : Option OtelSpanStartArgs} (hready : s.Ready)
    (hready' : ((producer garbage).next s call).Ready) (hsampled : Sampled s) (hsound : call.Sound)
    (hop : call.op = .spanStart args) :
    (call.birth s ((producer garbage).next s call) = none ∧
        StartsNone s ((producer garbage).next s call)) ∨
      ∃ i p, Bears call i p s ((producer garbage).next s call) := by
  have hnext : (producer garbage).next s call = endState (apiSpanStart call.env args) (s.enter call) := by
    change endState (runOp call.env call.op) (s.enter call) = _
    rw [hop]
    exact endState_discardResult _ _
  rw [hnext] at hready' ⊢
  have hraises := raisesEarly_apiSpanStart call.env args (s.enter call)
  unfold Wp at hraises
  cases hx : apiSpanStart call.env args (s.enter call) with
  | ok ref s' =>
    rw [endState_ok hx] at hready' ⊢
    exact bears_of_ok hready hready' hsampled hsound hop hx
  | error e s' =>
    have hend : endState (apiSpanStart call.env args) (s.enter call) = s' := by
      unfold endState
      rw [hx]
    rw [hx] at hraises
    rw [hend]
    refine .inl ⟨birth_eq_none ?_, hraises⟩
    unfold Call.gives
    rw [hop]
    simp only [hx]

end Starts

/-- The span that is born has the ids its origin asks for. -/
theorem Bears.below_origin {i : ℕ} {p : ResolvedParent} (hbears : Bears call i p s s') (h : Born births s)
    (hledger : Ledger s.life) :
    SpanBirth.Below births ⟨s.counters.spansStarted, p.origin s, (s'.slots i).span.identity⟩ := by
  have hgood := hbears.good
  have hbelow := hbears.below
  cases p with
  | slot j =>
    obtain ⟨⟨k, hk, hparent⟩, htrace⟩ := hbelow
    obtain rfl : i = k := by
      injection hk
    obtain ⟨y, hy, hserial, hid⟩ := h.opened j hgood
    refine ⟨y, hy, hserial, hledger.serial_lt j hgood, ?_, ?_⟩
    · rw [hid]
      exact htrace
    · rw [hid]
      exact hparent
  | nrec j =>
    obtain ⟨⟨k, hk⟩, -⟩ := hbelow
    cases hk
  | remote ctx => exact ⟨hbelow.2, hbelow.1 i rfl⟩
  | none => exact hbears.root rfl

/-- A span is born. -/
theorem Born.bear {i : ℕ} {p : ResolvedParent} (h : Born births s) (hbears : Bears call i p s s')
    (hcontinues : Continues s s') (hledger : Ledger s.life) (hledger' : Ledger s'.life) :
    Born (births ++ (call.birth s s').toList) s' := by
  rw [hbears.birth, Option.toList_some]
  have hstarted : s'.counters.spansStarted = s.counters.spansStarted + 1 := hbears.arrives.started
  have hserial : (s'.slots i).serial = s.counters.spansStarted := hbears.arrives.serial i rfl
  constructor
  case serials => rw [List.map_append, h.serials, hstarted, List.range_succ, List.map_singleton]
  case opened =>
    intro j hj
    have hlt : (s'.slots j).serial < s.counters.spansStarted + 1 := hstarted ▸ hledger'.serial_lt j hj
    by_cases hnew : (s'.slots j).serial = s.counters.spansStarted
    · obtain rfl : j = i := hledger'.serial_inj j i hj hbears.arrives.live (hnew.trans hserial.symm)
      exact ⟨_, List.mem_append_right _ (List.mem_singleton_self _), hnew.symm, rfl⟩
    · obtain ⟨y, hy, hsame⟩ := h.has (hcontinues.live j hj) (by omega)
      exact ⟨y, List.mem_append_left _ hy, hsame⟩
  case exported =>
    have hsame : s'.dispatches = s.dispatches := by
      obtain ⟨new, hnew, -⟩ := hcontinues.dispatches
      have hlength := congrArg List.length hbears.dispatches
      have hempty : new = [] := by
        apply List.eq_nil_of_length_eq_zero
        have hmap : s'.life.dispatched = s'.dispatches.map Dispatch.serial := rfl
        rw [hmap, hnew, List.length_map, List.length_append] at hlength
        have hold : s.life.dispatched.length = s.dispatches.length := List.length_map _
        omega
      rw [hnew, hempty, List.append_nil]
    intro d hd
    rw [hsame] at hd
    obtain ⟨y, hy, heq⟩ := h.exported d hd
    exact ⟨y, List.mem_append_left _ hy, heq⟩
  case below =>
    intro x hx
    rcases List.mem_append.1 hx with hx | hx
    · exact (h.below x hx).append _
    · rw [List.mem_singleton.1 hx]
      exact (hbears.below_origin h hledger).append _
  case recorded =>
    intro x hx
    rcases List.mem_append.1 hx with hx | hx
    · exact h.recorded x hx
    · rw [List.mem_singleton.1 hx]
      exact hbears.recorded

end Births

/-! ## Runs -/

section Runs

variable {garbage : ℕ → OtelSlot} {p : St × List SpanBirth}

/-- The calls that are considered: with the pool in its bounds, handles given out by the API, and sound
contexts. -/
structure Call.Proper (call : Call) : Prop where
  bounded : call.Bounded
  issued : call.op.Issued
  sound : call.Sound

theorem born_init : Born [] (initSt garbage) where
  serials := rfl
  opened i hi := absurd hi.1 (Nat.not_lt_zero i)
  exported _ hd := absurd hd List.not_mem_nil
  below _ hx := absurd hx List.not_mem_nil
  recorded _ hx := absurd hx List.not_mem_nil

theorem Born.step {births : List SpanBirth} {s : St} {call : Call} (h : Born births s)
    (hs : (producer garbage).ReachBy (fun _ call => call.Proper) s) (hvalid : call.op.Valid s)
    (hproper : call.Proper) :
    Born (births ++ (call.birth s ((producer garbage).next s call)).toList)
      ((producer garbage).next s call) := by
  have hs' := hs.step call hvalid hproper
  have hready : s.Ready := reachable_ready (hs.mono fun _ _ h => h.bounded)
  have hready' : ((producer garbage).next s call).Ready :=
    reachable_ready (hs'.mono fun _ _ h => h.bounded)
  have hledger : Ledger s.life := reachable_ledger hs.reachable
  have hledger' : Ledger ((producer garbage).next s call).life := reachable_ledger hs'.reachable
  have hcontinues : Continues s ((producer garbage).next s call) := by
    have hblank := (reachable_freeBlank_accounts (hs.mono fun _ _ h => ⟨h.bounded, h.issued⟩)).1
    have htidy : s.Tidy := ⟨hready.pool, hledger, hready.nslots_le⟩
    have henter : Onward s (s.enter call) := KeepsSlots.onward ⟨rfl, rfl, rfl, rfl, rfl⟩
    have hrun := onward_runOp call.env call.op (s := s.enter call) (htidy.congr rfl) (henter.blank hblank)
      ((valid_enter call).2 hvalid) hproper.issued
    exact (henter.trans hrun.endState).continues
  have hsame (hnone : call.birth s ((producer garbage).next s call) = none)
      (hstarts : StartsNone s ((producer garbage).next s call)) :
      Born (births ++ (call.birth s ((producer garbage).next s call)).toList)
        ((producer garbage).next s call) := by
    rw [hnone, Option.toList_none, List.append_nil]
    exact h.same hcontinues hstarts hledger'
  have hother (hop : call.op.isStart = false) : StartsNone s ((producer garbage).next s call) := by
    exact (startsNone_runOp call.env call.op hop (s.enter call)).endState
  cases hop : call.op with
  | spanStart args =>
    have hsampled := reachable_sampled (hs.mono fun _ _ h => h.sound)
    rcases bears_start hready hready' hsampled hproper.sound hop with ⟨hnone, hstarts⟩ | ⟨i, p, hbears⟩
    · exact hsame hnone hstarts
    · exact h.bear hbears hcontinues hledger hledger'
  | _ =>
    refine hsame ?_ (hother (by rw [hop]; rfl))
    unfold Call.birth
    rw [hop]

/-- The births of a run. -/
theorem reachable_born (h : (spanBirths garbage).ReachBy (fun _ call => call.Proper) p) : Born p.2 p.1 := by
  apply Machine.ReachBy.invariantOver (k := fun _ call => call.Proper) (I := fun p => Born p.2 p.1) _
    born_init _ h
  · exact fun p call a hproper ha => Option.some.inj ha ▸ hproper
  · exact fun p call hs hborn hen hproper => hborn.step hs (hen.1 call rfl) hproper

/-! ## Trees -/

/-- `y` is the span that `x` was started below. -/
def SpanBirth.ParentOf (births : List SpanBirth) (y x : SpanBirth) : Prop :=
  y ∈ births ∧ x.origin = .span y.serial ∧ x.identity.parentSpanId = y.identity.spanId

/-- The span is the first of its trace in this backend. -/
def SpanBirth.First (x : SpanBirth) : Prop := ∀ n, x.origin ≠ .span n

/-- The births are a forest, each tree of which has one trace id, and they say what was exported and
with what the sinks were reached. -/
structure Forest (births : List SpanBirth) (s : St) : Prop extends Born births s where
  once : (s.dispatches.map Dispatch.serial).Nodup
  hooked : s.reached .emitHook = s.sentTo .emitHook
  delivered : ∀ d ∈ s.delivered, ∃ x ∈ births, x.serial = d.serial ∧ x.identity = d.span.identity
  rooted : ∀ x ∈ births, ∃ top ∈ births, top.First ∧
    Relation.ReflTransGen (SpanBirth.ParentOf births) top x ∧ x.identity.traceId = top.identity.traceId

/-- Parents are born earlier, so every line of parents ends. -/
theorem Born.rooted {births : List SpanBirth} {s : St} (h : Born births s) {x : SpanBirth}
    (hx : x ∈ births) : ∃ top ∈ births, top.First ∧
      Relation.ReflTransGen (SpanBirth.ParentOf births) top x ∧
      x.identity.traceId = top.identity.traceId := by
  induction hn : x.serial using Nat.strong_induction_on generalizing x with
  | _ n ih =>
    have hbelow := h.below x hx
    unfold SpanBirth.Below at hbelow
    cases horigin : x.origin with
    | span k =>
      simp only [horigin] at hbelow
      obtain ⟨y, hy, rfl, hlt, htrace, hparent⟩ := hbelow
      obtain ⟨top, htop, hfirst, hline, hsame⟩ := ih y.serial (hn ▸ hlt) hy rfl
      exact ⟨top, htop, hfirst, hline.tail ⟨hy, horigin, hparent⟩, htrace.trans hsame⟩
    | context ctx =>
      have hfirst : x.First := fun n hspan => nomatch horigin.symm.trans hspan
      exact ⟨x, hx, hfirst, .refl, rfl⟩
    | root =>
      have hfirst : x.First := fun n hspan => nomatch horigin.symm.trans hspan
      exact ⟨x, hx, hfirst, .refl, rfl⟩

/-- What a run exports are spans of a forest: each is exported once, with the ids it was born with, below
the span or the context that was its parent when it started. -/
theorem exports_form_forest (h : (spanBirths garbage).ReachBy (fun _ call => call.Proper) p) :
    Forest p.2 p.1 := by
  have hborn := reachable_born h
  have hreach : (producer garbage).ReachBy (fun _ call => call.Proper) p.1 :=
    h.base fun p call a hproper ha => Option.some.inj ha ▸ hproper
  refine ⟨hborn, (reachable_ledger hreach.reachable).dispatched_nodup,
    reachable_reached_emitHook hreach.reachable, fun d hd => ?_, fun x hx => hborn.rooted hx⟩
  have hreached : (d.serial, d.span) ∈ p.1.reached d.sink :=
    List.mem_map.2 ⟨d, List.mem_filter.2 ⟨hd, by simp⟩, rfl⟩
  obtain ⟨e, he, hsame⟩ :=
    List.mem_map.1 ((reachable_reached_sublist hreach.reachable d.sink).subset hreached)
  obtain ⟨hserial, hspan⟩ := Prod.mk.inj hsame
  rw [← hserial, ← hspan]
  exact hborn.exported e (List.mem_filter.1 he).1

/-- A request from outside, a query in it and a span of its own, which end. -/
def requestEnded : List Call :=
  let env : Env := { emitSpansToLog := true }
  let outside : OtelSpanContext := { traceId := 7, spanId := 9, traceFlags := 1 }
  let request : OtelSpanStartArgs :=
    { name := some (cstr "request"), parent := .context, parentCtx := some outside }
  [{ env := env, backend := {}, op := .spanStart (some request) },
    { env := env, backend := {}, op := .spanStart (some { name := some (cstr "query") }) },
    { env := env, backend := {}, op := .spanStart (some { name := some (cstr "job"), parent := .root }) },
    { env := env, backend := {}, op := .spanEnd (makeRef 3 2 true) 0 },
    { env := env, backend := {}, op := .spanEnd (makeRef 1 0 true) 0 }]

def requestEndedState : St × List SpanBirth :=
  requestEnded.foldl (spanBirths fun _ => {}).next (spanBirths fun _ => {}).init

theorem requestEnded_proper {call : Call} (h : call ∈ requestEnded) : call.Proper := by
  unfold requestEnded at h
  simp only [List.mem_cons, List.not_mem_nil, or_false] at h
  rcases h with rfl | rfl | rfl | rfl | rfl
  all_goals refine ⟨by unfold Call.Bounded; decide, nofun, nofun, nofun, fun args hop hparent => ?_⟩
  all_goals cases hop
  all_goals cases hparent

theorem reachable_requestEndedState :
    (spanBirths fun _ => {}).ReachBy (fun _ call => call.Proper) requestEndedState := by
  have hproper (i : ℕ) (hi : i < 5) : (requestEnded.get ⟨i, hi⟩).Proper :=
    requestEnded_proper (List.get_mem requestEnded ⟨i, hi⟩)
  have hen {call : Call} {s : St} (hvalid : call.op.Valid s) : ∀ a ∈ some call, a.op.Valid s :=
    fun a ha => Option.some.inj ha ▸ hvalid
  have hquery : (makeRef 3 2 true).Issued := by decide
  have hrequest : (makeRef 1 0 true).Issued := by decide
  exact Machine.ReachBy.run .init ⟨⟨hen trivial, trivial⟩, hproper 0 (by decide),
    ⟨hen trivial, trivial⟩, hproper 1 (by decide), ⟨hen trivial, trivial⟩, hproper 2 (by decide),
    ⟨hen hquery, trivial⟩, hproper 3 (by decide), ⟨hen hrequest, trivial⟩, hproper 4 (by decide), trivial⟩

/-- The query is exported below the request, and the job in a trace of its own. -/
theorem exports_form_forest_requestEnded :
    requestEndedState.2.map SpanBirth.origin =
        [.context { traceId := 7, spanId := 9, traceFlags := 1 }, .span 0, .root] ∧
      requestEndedState.1.dispatches.map Dispatch.serial = [2, 1, 0] ∧
      (requestEndedState.1.reached .serverLog).map Prod.fst = [2, 1, 0] ∧
      Forest requestEndedState.2 requestEndedState.1 :=
  ⟨by decide +kernel, by decide +kernel, by decide +kernel, exports_form_forest reachable_requestEndedState⟩

end Runs

end PostgresOtel
