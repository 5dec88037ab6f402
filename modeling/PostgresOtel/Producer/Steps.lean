import PostgresOtel.Producer.Opening
import PostgresOtel.Producer.Run

/-!
# What each call does to the spans that are open

One step of the producer in terms of handles: a start may open a span, an activation may push one,
and every other call at most ends some.  `Step` lists these, and `step_cases` says that there are no
others.
-/

set_option autoImplicit false

namespace PostgresOtel

open Exec

variable (env : Env)

instance (c : Lifecycle) : DecidablePred c.Live
  | .slot i => inferInstanceAs (Decidable (i < c.slots.used ∧ ¬ (c.slots.cell i).Free))
  | .nrec i => inferInstanceAs (Decidable (i < c.nrecs.used ∧ ¬ (c.nrecs.cell i).Free))

instance (c : Lifecycle) : DecidablePred c.OnStack := fun e =>
  inferInstanceAs (Decidable (e ∈ c.spanStack.map StackEntry.entry))

/-! ## Lookups -/

/-- A handle that is not null names a span its owner ended, and none since in the same place. -/
def Lifecycle.Marked (c : Lifecycle) (ref : OtelSpanRef) : Prop :=
  if 0 < ref.v then
    refIdx ref < c.slots.used ∧ (c.slots.cell (refIdx ref)).ownerReleasedGen = refGen ref
  else
    refIdx ref < c.nrecs.used ∧ (c.nrecs.cell (refIdx ref)).ownerReleasedGen = refGen ref

/-- The state with some count of stale handles. -/
def St.withStale (s : St) (n : ℕ) : St :=
  { s with counters := { s.counters with staleHandle := n } }

theorem Evolves.withStale {eff : Effects} (s : St) (n : ℕ) : Evolves eff s (s.withStale n) :=
  .of_same ⟨rfl, rfl, rfl, rfl, rfl, rfl, rfl⟩ (.inl rfl)

/-- A lookup either finds the span, or notes the handle as stale unless the owner ended its span. -/
theorem wp_slotForRef_cases {ref : OtelSpanRef} {Q : Option ℕ → St → Prop} {E : Exn → St → Prop}
    {s : St} (hv : 0 < ref.v) (hsome : ∀ i, s.life.slotOf ref = some i → Q (some i) s)
    (hnone : s.life.slotOf ref = none → ∀ n, (s.life.Marked ref → n = s.counters.staleHandle) →
      Q none (s.withStale n)) : Wp (slotForRef ref) Q E s := by
  unfold Lifecycle.Marked at hnone
  rw [if_pos hv] at hnone
  unfold slotForRef
  rw [wp_bind, wp_get, wp_ite]
  refine ⟨fun hc => hsome _ (if_pos hc), fun hc => ?_⟩
  have hno : s.life.slotOf ref = none := if_neg hc
  rw [wp_ite]
  exact ⟨fun _ => hnone hno _ fun _ => rfl, fun hm => hnone hno _ fun h => absurd h hm⟩

theorem wp_nrecForRef_cases {ref : OtelSpanRef} {Q : Option ℕ → St → Prop} {E : Exn → St → Prop}
    {s : St} (hv : ¬ 0 < ref.v) (hsome : ∀ i, s.life.nrecOf ref = some i → Q (some i) s)
    (hnone : s.life.nrecOf ref = none → ∀ n, (s.life.Marked ref → n = s.counters.staleHandle) →
      Q none (s.withStale n)) : Wp (nrecForRef ref) Q E s := by
  unfold Lifecycle.Marked at hnone
  rw [if_neg hv] at hnone
  unfold nrecForRef
  rw [wp_bind, wp_get, wp_ite]
  refine ⟨fun hc => hsome _ (if_pos hc), fun hc => ?_⟩
  have hno : s.life.nrecOf ref = none := if_neg hc
  rw [wp_ite]
  exact ⟨fun _ => hnone hno _ fun _ => rfl, fun hm => hnone hno _ fun h => absurd h hm⟩

theorem wp_entryForRef_cases {ref : OtelSpanRef} {Q : Option StackRef → St → Prop}
    {E : Exn → St → Prop} {s : St} (hsome : ∀ e, s.life.entryOf ref = some e → Q (some e) s)
    (hnone : s.life.entryOf ref = none → ∀ n, (s.life.Marked ref → n = s.counters.staleHandle) →
      Q none (s.withStale n)) : Wp (entryForRef ref) Q E s := by
  unfold Lifecycle.entryOf at hsome hnone
  unfold entryForRef
  rw [wp_ite]
  refine ⟨fun hv => ?_, fun hv => ?_⟩
  · rw [if_pos hv] at hsome hnone
    rw [wp_bind]
    refine wp_slotForRef_cases hv (fun i hi => ?_) fun hno => hnone (by rw [hno]; rfl)
    exact hsome (.slot i) (by rw [hi]; rfl)
  · rw [if_neg hv] at hsome hnone
    rw [wp_bind]
    refine wp_nrecForRef_cases hv (fun i hi => ?_) fun hno => hnone (by rw [hno]; rfl)
    exact hsome (.nrec i) (by rw [hi]; rfl)

/-- A refused call is counted; nothing changes if it is not refused. -/
theorem wp_callRefused_cases {readOnly : Bool} {Q : Bool → St → Prop} {E : Exn → St → Prop} {s : St}
    (hrefused : ∀ c : OtelApiCounters, ({ s with counters := c } : St).shape = s.shape →
      Q true { s with counters := c }) (hpass : Q false s) :
    Wp (callRefused env readOnly) Q E s := by
  unfold callRefused
  rw [wp_bind, wp_get, wp_ite]
  refine ⟨fun _ => hrefused _ rfl, fun _ => ?_⟩
  rw [wp_ite]
  exact ⟨fun _ => hrefused _ rfl, fun _ => hpass⟩

/-! ## Activations -/

/-- The token of an activation. -/
def StackRef.token (gen : ℕ) (e : StackRef) : OtelActivation := ⟨(e.handle gen).v⟩

theorem wp_activationTarget_cases {ref : OtelSpanRef} {Q : Option ActivationTarget → St → Prop}
    {E : Exn → St → Prop} {s : St}
    (hsome : ∀ e, s.life.entryOf ref = some e →
      Q (some ⟨e, s.life.detached e, e.token (s.life.gen e)⟩) s)
    (hnone : s.life.entryOf ref = none → ∀ n, (s.life.Marked ref → n = s.counters.staleHandle) →
      Q none (s.withStale n)) : Wp (activationTarget ref) Q E s := by
  unfold Lifecycle.entryOf at hsome hnone
  unfold activationTarget
  rw [wp_ite]
  refine ⟨fun hv => ?_, fun hv => ?_⟩
  · rw [if_pos hv] at hsome hnone
    rw [wp_bind]
    refine wp_slotForRef_cases hv (fun i hi => ?_) fun hno => hnone (by rw [hno]; rfl)
    exact hsome (.slot i) (by rw [hi]; rfl)
  · rw [if_neg hv] at hsome hnone
    rw [wp_bind]
    refine wp_nrecForRef_cases hv (fun i hi => ?_) fun hno => hnone (by rw [hno]; rfl)
    exact hsome (.nrec i) (by rw [hi]; rfl)

/-- An activation that is not refused pushes the span. -/
structure Activates (ref : OtelSpanRef) (e : StackRef) (s s' : St) : Prop where
  names : s.life.entryOf ref = some e
  detached : s.life.detached e = true
  off : ¬ s.life.OnStack e
  room : s.spanStack.length < otelMaxStackDepth
  push : s' = { s with spanStack := ⟨e, true, env.currentTransactionNestLevel⟩ :: s.spanStack }

theorem not_onStack_of_findIdx {s : St} {e : StackRef}
    (h : ¬ (s.spanStack.findIdx? fun x => x.entry = e).isSome = true) : ¬ s.life.OnStack e := by
  have hnone := findIdx_stack s.spanStack e
  rw [Option.not_isSome_iff_eq_none.1 h] at hnone
  exact hnone

theorem wp_apiSpanActivate (ref : OtelSpanRef) (s : St) :
    Wp (apiSpanActivate env ref)
      (fun tok s' => (tok = otelActivationNone ∧ Evolves .none s s' ∧ s'.spanStack = s.spanStack) ∨
        ∃ e, tok = e.token (s.life.gen e) ∧ Activates env ref e s s')
      (fun _ _ => False) s := by
  have hsame (f : OtelApiCounters) : Evolves .none s { s with counters := f } :=
    .of_same ⟨rfl, rfl, rfl, rfl, rfl, rfl, rfl⟩ (.inl rfl)
  unfold apiSpanActivate
  rw [wp_bind]
  refine wp_callRefused_cases env (fun c _ => ?_) ?_
  · rw [wp_ite]
    exact ⟨fun _ => .inl ⟨rfl, hsame c, rfl⟩, fun hr => absurd (.inl rfl) hr⟩
  · rw [wp_ite]
    refine ⟨fun _ => .inl ⟨rfl, .refl s, rfl⟩, fun _ => ?_⟩
    rw [wp_bind]
    refine wp_activationTarget_cases (fun e he => ?_) fun _ n _ => .inl ⟨rfl, .withStale s n, rfl⟩
    dsimp only
    rw [wp_ite]
    refine ⟨fun _ => .inl ⟨rfl, hsame _, rfl⟩, fun hd => ?_⟩
    unfold stackFind
    rw [wp_bind, wp_bind, wp_get, wp_pure, wp_bind, wp_get, wp_ite]
    refine ⟨fun _ => .inl ⟨rfl, hsame _, rfl⟩, fun hfind => ?_⟩
    rw [wp_ite]
    refine ⟨fun _ => .inl ⟨rfl, hsame _, rfl⟩, fun hlt => .inr ⟨e, rfl, he, ?_, ?_, ?_, rfl⟩⟩
    · simpa using hd
    · exact not_onStack_of_findIdx hfind
    · exact Nat.lt_of_not_le hlt

/-! ## Steps -/

/-- The entries a call may leave the mark of their owner on. -/
def ProducerOp.effects : ProducerOp → Effects
  | .ownerRelease _ ref _ => ⟨fun e => e = .slot (refIdx ref.1), fun _ => False⟩
  | .xactCallback _ => ⟨fun e => ∃ i, e = .nrec i, fun _ => False⟩
  | .subxactCallback _ => ⟨fun e => ∃ i, e = .nrec i, fun _ => False⟩
  | _ => .none

/-- What a call does to the spans that are open. -/
inductive Step (env : Env) (s : St) : ProducerOp → St → Prop
  | start (args : Option OtelSpanStartArgs) (ref : OtelSpanRef) (s' : St) :
      apiSpanStart env args s = .ok ref s' → Started env s args ref s' →
      Step env s (.spanStart args) s'
  | startRaised (args : Option OtelSpanStartArgs) (e : Exn) (s' : St) :
      apiSpanStart env args s = .error e s' → Stays env s s' → Step env s (.spanStart args) s'
  | activate (ref : OtelSpanRef) (e : StackRef) (s' : St) : Activates env ref e s s' →
      Step env s (.spanActivate ref) s'
  | other (op : ProducerOp) (s' : St) : (∀ args, op ≠ .spanStart args) → Evolves op.effects s s' →
      Step env s op s'

theorem endState_discardResult {α : Type} (x : M α) (s : St) :
    endState (discardResult x) s = endState x s := by
  change endState (EStateM.bind x fun _ => pure ()) s = endState x s
  unfold endState EStateM.bind
  cases x s <;> rfl

theorem evolves_otelXactCallback (event : XactEvent) :
    Within (Evolves (ProducerOp.xactCallback event).effects) (otelXactCallback event) := by
  cases event <;> first
    | exact evolves_dropFromLevel _ _ fun i => ⟨i, rfl⟩
    | exact within_pure _

theorem evolves_otelSubxactCallback (event : SubXactEvent) :
    Within (Evolves (ProducerOp.subxactCallback event).effects) (otelSubxactCallback env event) := by
  cases event <;> first
    | exact evolves_dropFromLevel _ _ fun i => ⟨i, rfl⟩
    | exact within_pure _

/-- Every call but a start and an activation ends spans at most. -/
theorem evolves_runOp (op : ProducerOp) (hs : ∀ args, op ≠ .spanStart args)
    (ha : ∀ ref, op ≠ .spanActivate ref) : Within (Evolves op.effects) (runOp env op) := by
  have discards {α : Type} {x : M α} (h : Within (Evolves .none) x) :
      Within (Evolves .none) (discardResult x) := .bind h fun _ => within_pure _
  cases op with
  | spanStart args => exact absurd rfl (hs args)
  | spanActivate ref => exact absurd rfl (ha ref)
  | spanEnd ref endTime => exact evolves_apiSpanEnd env ref endTime
  | spanDiscard ref => exact evolves_apiSpanDiscard env ref
  | spanDeactivate tok => exact evolves_apiSpanDeactivate env tok
  | spanSetStr ref key val => exact (setter_apiSpanSetStr env ref key val).evolves
  | spanSetInt ref key val => exact (setter_setScalar env ref key _).evolves
  | spanSetDouble ref key val => exact (setter_setScalar env ref key _).evolves
  | spanSetBool ref key val => exact (setter_setScalar env ref key _).evolves
  | spanSetVprintf ref key formatted => exact (setter_apiSpanSetVprintf env ref key formatted).evolves
  | spanSetName ref name => exact (setter_apiSpanSetName env ref name).evolves
  | spanSetStatus ref code description =>
    exact (setter_apiSpanSetStatus env ref code description).evolves
  | spanAddEvent ref name ts attrs => exact (setter_apiSpanAddEvent env ref name ts attrs).evolves
  | spanAddLink ref target => exact (setter_apiSpanAddLink env ref target).evolves
  | spanRecordError ref edata => exact (setter_apiSpanRecordError env ref edata).evolves
  | spanCaptureError ref => exact evolves_apiSpanCaptureError env ref
  | spanCurrent => exact discards (tame_apiSpanCurrent env).evolves
  | spanContextOf ref => exact discards (evolves_apiSpanContextOf env ref)
  | emitLog edata => exact (tame_otelEmitLogHook env edata).evolves
  | ownerRelease owner ref isCommit => exact evolves_resourceOwnerRelease env owner ref isCommit rfl
  | xactCallback event => exact evolves_otelXactCallback event
  | subxactCallback event => exact evolves_otelSubxactCallback env event
  | shmemExit => exact .bind within_get fun _ => evolves_counters _

/-- There are no other steps. -/
theorem step_cases (op : ProducerOp) {s : St} (hinv : PoolInv s.life) :
    Step env s op (endState (runOp env op) s) := by
  by_cases hs : ∃ args, op = .spanStart args
  · obtain ⟨args, rfl⟩ := hs
    have hstart := wp_apiSpanStart_opens env args hinv
    have hend : endState (runOp env (.spanStart args)) s = endState (apiSpanStart env args) s :=
      endState_discardResult _ s
    rw [hend]
    unfold Wp at hstart
    unfold endState
    cases hx : apiSpanStart env args s with
    | ok ref s' =>
      rw [hx] at hstart
      exact .start args ref s' hx hstart
    | error e s' =>
      rw [hx] at hstart
      exact .startRaised args e s' hx hstart
  · by_cases ha : ∃ ref, op = .spanActivate ref
    · obtain ⟨ref, rfl⟩ := ha
      have hact := wp_apiSpanActivate env ref s
      have hend : endState (runOp env (.spanActivate ref)) s = endState (apiSpanActivate env ref) s :=
        endState_discardResult _ s
      rw [hend]
      unfold Wp at hact
      unfold endState
      cases hx : apiSpanActivate env ref s with
      | ok tok s' =>
        rw [hx] at hact
        rcases hact with ⟨-, hev, -⟩ | ⟨e, -, hactivates⟩
        · exact .other _ s' (fun _ h => by cases h) hev
        · exact .activate ref e s' hactivates
      | error e s' =>
        rw [hx] at hact
        exact hact.elim
    · refine .other _ _ (fun args h => hs ⟨args, h⟩) ?_
      exact (evolves_runOp env op (fun args h => hs ⟨args, h⟩) (fun ref h => ha ⟨ref, h⟩) s).endState

end PostgresOtel
