import PostgresOtel.Producer.Steps

/-!
# Activation tokens

A run of the producer with a log of the activations it gave out.  An activation is over once the span
it was made for is off the active stack, however it went.  Its token is made of the span's generation
and index, so that a later activation of the same span has the same token: the old token is refused
until the span is active again, and then it ends the new activation.
-/

set_option autoImplicit false

namespace PostgresOtel

open Exec

/-! ## Refusals -/

instance (c : Lifecycle) : DecidablePred c.Marked := fun ref =>
  inferInstanceAs (Decidable (if 0 < ref.v then _ else _))

/-- The calls counted as misuse of a handle or a token. -/
def St.misuses (s : St) : ℕ :=
  s.counters.inCritSection + s.counters.inEmitHook + s.counters.staleHandle +
    s.counters.deactivateNotActive

/-- A token is refused: the active stack stays as it was, and the call is counted, unless the span's
owner has ended it, which makes its handles and tokens quiet. -/
def TokenRefused (tok : OtelActivation) (s s' : St) : Prop :=
  s'.spanStack = s.spanStack ∧ (s.life.Marked ⟨tok.v⟩ ∨ s'.misuses = s.misuses + 1)

instance (tok : OtelActivation) (s s' : St) : Decidable (TokenRefused tok s s') :=
  inferInstanceAs (Decidable (_ ∧ _))

/-- The token names a span on the active stack. -/
def Lifecycle.NamesActive (c : Lifecycle) (tok : OtelActivation) : Prop :=
  ∃ e ∈ c.entryOf ⟨tok.v⟩, c.OnStack e

instance (c : Lifecycle) : DecidablePred c.NamesActive := fun tok =>
  inferInstanceAs (Decidable (∃ e ∈ c.entryOf ⟨tok.v⟩, c.OnStack e))

section Deactivate

variable (env : Env) {tok : OtelActivation} {s : St}

/-- A refused call is counted. -/
theorem wp_callRefused_counted {Q : Bool → St → Prop} {E : Exn → St → Prop}
    (hrefused : ∀ s', s'.spanStack = s.spanStack → s'.misuses = s.misuses + 1 →
      s.life.refuses env = true → Q true s')
    (hpass : s.life.refuses env = false → Q false s) : Wp (callRefused env false) Q E s := by
  have hdepth : s.life.dispatchDepth = s.dispatchDepth := rfl
  unfold callRefused
  rw [wp_bind, wp_get, wp_ite]
  refine ⟨fun hcrit => ?_, fun hcrit => ?_⟩
  · refine hrefused _ rfl ?_ (by simp [Lifecycle.refuses, hcrit])
    unfold St.misuses
    dsimp only
    omega
  · rw [wp_ite]
    refine ⟨fun hhook => ?_, fun hhook => ?_⟩
    · refine hrefused _ rfl ?_ (by simp [Lifecycle.refuses, hdepth, hhook.1])
      unfold St.misuses
      dsimp only
      omega
    · have hidle : ¬ 0 < s.dispatchDepth := fun hpos => hhook ⟨hpos, rfl⟩
      exact hpass (by simpa [Lifecycle.refuses, hdepth, hcrit] using hidle)

/-- A lookup finds the span, or is counted unless the owner has ended it. -/
theorem wp_slotForRef_counted {ref : OtelSpanRef} {Q : Option ℕ → St → Prop} {E : Exn → St → Prop}
    (hv : 0 < ref.v) (hsome : ∀ i, s.life.slotOf ref = some i → Q (some i) s)
    (hnone : s.life.slotOf ref = none → ∀ s', s'.spanStack = s.spanStack →
      (s.life.Marked ref ∨ s'.misuses = s.misuses + 1) → Q none s') : Wp (slotForRef ref) Q E s := by
  unfold Lifecycle.Marked at hnone
  rw [if_pos hv] at hnone
  unfold slotForRef
  rw [wp_bind, wp_get, wp_ite]
  refine ⟨fun hfound => hsome _ (if_pos hfound), fun hlost => ?_⟩
  rw [wp_ite]
  refine ⟨fun hmarked => hnone (if_neg hlost) _ rfl (.inl hmarked), fun _ => ?_⟩
  refine hnone (if_neg hlost) _ rfl (.inr ?_)
  unfold St.misuses
  dsimp only
  omega

theorem wp_nrecForRef_counted {ref : OtelSpanRef} {Q : Option ℕ → St → Prop} {E : Exn → St → Prop}
    (hv : ¬ 0 < ref.v) (hsome : ∀ i, s.life.nrecOf ref = some i → Q (some i) s)
    (hnone : s.life.nrecOf ref = none → ∀ s', s'.spanStack = s.spanStack →
      (s.life.Marked ref ∨ s'.misuses = s.misuses + 1) → Q none s') : Wp (nrecForRef ref) Q E s := by
  unfold Lifecycle.Marked at hnone
  rw [if_neg hv] at hnone
  unfold nrecForRef
  rw [wp_bind, wp_get, wp_ite]
  refine ⟨fun hfound => hsome _ (if_pos hfound), fun hlost => ?_⟩
  rw [wp_ite]
  refine ⟨fun hmarked => hnone (if_neg hlost) _ rfl (.inl hmarked), fun _ => ?_⟩
  refine hnone (if_neg hlost) _ rfl (.inr ?_)
  unfold St.misuses
  dsimp only
  omega

theorem wp_entryForRef_counted {ref : OtelSpanRef} {Q : Option StackRef → St → Prop}
    {E : Exn → St → Prop} (hsome : ∀ e, s.life.entryOf ref = some e → Q (some e) s)
    (hnone : s.life.entryOf ref = none → ∀ s', s'.spanStack = s.spanStack →
      (s.life.Marked ref ∨ s'.misuses = s.misuses + 1) → Q none s') : Wp (entryForRef ref) Q E s := by
  unfold Lifecycle.entryOf at hsome hnone
  unfold entryForRef
  rw [wp_ite]
  refine ⟨fun hv => ?_, fun hv => ?_⟩
  · rw [if_pos hv] at hsome hnone
    rw [wp_bind]
    refine wp_slotForRef_counted hv (fun i hi => ?_) fun hno => hnone (by rw [hno]; rfl)
    exact hsome (.slot i) (by rw [hi]; rfl)
  · rw [if_neg hv] at hsome hnone
    rw [wp_bind]
    refine wp_nrecForRef_counted hv (fun i hi => ?_) fun hno => hnone (by rw [hno]; rfl)
    exact hsome (.nrec i) (by rw [hi]; rfl)

/-- A token that names nothing on the active stack is refused. -/
theorem wp_apiSpanDeactivate_refused (hne : tok.v ≠ 0)
    (h : s.life.refuses env = true ∨ ¬ s.life.NamesActive tok) :
    Wp (apiSpanDeactivate env tok) (fun _ s' => TokenRefused tok s s') (fun _ _ => False) s := by
  unfold apiSpanDeactivate
  rw [wp_bind]
  refine wp_callRefused_counted env (fun s' hstack hcount hrefuses => ?_) fun hpass => ?_
  · rw [wp_ite]
    exact ⟨fun _ => ⟨hstack, .inr hcount⟩, fun hno => absurd (.inl rfl) hno⟩
  · rw [wp_ite]
    refine ⟨fun hr => absurd hr (by simp [hne]), fun _ => ?_⟩
    have hoff : ¬ s.life.NamesActive tok := h.resolve_left (by rw [hpass]; decide)
    rw [wp_bind]
    refine wp_entryForRef_counted (fun e he => ?_) fun _ s' hstack hcount => ⟨hstack, hcount⟩
    have hnot : e ∉ s.spanStack.map StackEntry.entry := fun hmem => hoff ⟨e, he, hmem⟩
    have hfind := findIdx_stack s.spanStack e
    dsimp only
    unfold stackFind
    rw [wp_bind, wp_bind, wp_get, wp_pure]
    cases hf : s.spanStack.findIdx? fun x => x.entry = e with
    | none =>
      refine ⟨rfl, .inr ?_⟩
      unfold St.misuses
      dsimp only
      omega
    | some pos =>
      rw [hf] at hfind
      obtain ⟨_, _, _, _, _, _, hmem, _⟩ := hfind
      exact absurd hmem hnot

/-! ## Deactivations that are not refused -/

/-- The active stack has become shorter. -/
def Pops (s s' : St) : Prop := s'.spanStack.length < s.spanStack.length

/-- A loop that has anything to unwind pops it. -/
theorem wp_unwindTo_pops (keep fuel : ℕ) (reason : CString) (hkeep : keep < s.spanStack.length) :
    Wp (unwindTo env keep reason (fuel + 1)) (fun _ s' => Pops s s') (fun _ s' => Pops s s') s := by
  cases hstack : s.spanStack with
  | nil =>
    rw [hstack] at hkeep
    exact absurd hkeep (Nat.not_lt_zero _)
  | cons e rest =>
    rw [hstack, List.length_cons] at hkeep
    unfold unwindTo
    rw [wp_bind, wp_get, hstack]
    dsimp only
    rw [wp_ite]
    refine ⟨fun _ => ?_, fun hno => absurd hkeep hno⟩
    have hrest : Within (Evolves .none)
        (unwindEntry env e reason >>= fun _ => unwindTo env keep reason fuel) :=
      .bind (evolves_unwindEntry env e reason) fun _ => evolves_unwindTo env keep reason fuel
    unfold stackPop
    rw [wp_bind, wp_modify]
    have shorter (s' : St) (h : Evolves .none { s with spanStack := s.spanStack.tail } s') :
        Pops s s' := by
      have hle := h.stack.length_le
      simp only [hstack, List.tail_cons] at hle
      unfold Pops
      rw [hstack, List.length_cons]
      omega
    exact (hrest _).mono (fun _ s' h => shorter s' h) fun _ s' h => shorter s' h

/-- Taking an entry off the stack makes it shorter. -/
theorem wp_popEntryAt_pops {pos : ℕ} (hpos : pos < s.spanStack.length) (what reason : String) :
    Wp (popEntryAt env pos what reason) (fun _ s' => Pops s s') (fun _ s' => Pops s s') s := by
  unfold popEntryAt
  rw [wp_bind, wp_runIf]
  refine ⟨fun hne => ?_, fun _ => ?_⟩
  · unfold endAbove stackUnwindAbove
    rw [wp_bind]
    refine (wp_nonlifoWarning env what pos s).mono (fun _ s₁ h₁ => ?_) fun _ _ hf => hf.elim
    have hstack : s₁.spanStack = s.spanStack := congrArg Lifecycle.spanStack h₁.1
    rw [wp_bind, wp_get]
    obtain ⟨n, hn⟩ : ∃ n, s₁.spanStack.length = n + 1 := ⟨s.spanStack.length - 1, by rw [hstack]; omega⟩
    have hpop := wp_unwindTo_pops env (s := s₁) (s₁.spanStack.length - pos) n (cstr reason)
      (by rw [hstack]; omega)
    rw [← hn] at hpop
    unfold Pops at hpop ⊢
    rw [hstack] at hpop ⊢
    refine hpop.mono (fun _ s₂ h₂ => ?_) fun _ _ he => he
    change (s₂.spanStack.tail).length < _
    rw [List.length_tail]
    omega
  · change (s.spanStack.tail).length < _
    rw [List.length_tail]
    omega

/-- A token that names a span on the active stack takes it off. -/
theorem wp_apiSpanDeactivate_pops (hne : tok.v ≠ 0) (hpass : s.life.refuses env = false)
    (hactive : s.life.NamesActive tok) :
    Wp (apiSpanDeactivate env tok) (fun _ s' => Pops s s') (fun _ s' => Pops s s') s := by
  obtain ⟨e, he, hmem⟩ := hactive
  unfold apiSpanDeactivate
  rw [wp_bind]
  refine wp_callRefused_counted env (fun _ _ _ hrefuses => ?_) fun _ => ?_
  · rw [hpass] at hrefuses
    cases hrefuses
  · rw [wp_ite]
    refine ⟨fun hr => absurd hr (by simp [hne]), fun _ => ?_⟩
    rw [wp_bind]
    refine wp_entryForRef_counted (fun e' he' => ?_) fun hno => ?_
    · obtain rfl := Option.some.inj (he'.symm.trans he)
      have hfind := findIdx_stack s.spanStack e'
      dsimp only
      unfold stackFind
      rw [wp_bind, wp_bind, wp_get, wp_pure]
      cases hf : s.spanStack.findIdx? fun x => x.entry = e' with
      | none =>
        rw [hf] at hfind
        exact absurd hmem hfind
      | some pos =>
        rw [hf] at hfind
        obtain ⟨above, x, rest, hstack, hlen, -⟩ := hfind
        refine wp_popEntryAt_pops env ?_ _ _
        rw [hstack, List.length_append, List.length_cons]
        omega
    · rw [hno] at he
      cases he

/-- What a deactivation with the token does, read off the state before it. -/
theorem tokenRefused_iff (hne : tok.v ≠ 0) :
    TokenRefused tok s (endState (apiSpanDeactivate env tok) s) ↔
      (s.life.refuses env = true ∨ ¬ s.life.NamesActive tok) := by
  constructor
  · intro hrefused
    by_contra hgoes
    rw [not_or, Bool.not_eq_true, not_not] at hgoes
    have hpops := (wp_apiSpanDeactivate_pops env hne hgoes.1 hgoes.2).endState
    unfold Pops at hpops
    rw [hrefused.1] at hpops
    exact Nat.lt_irrefl _ hpops
  · intro h
    exact ((wp_apiSpanDeactivate_refused env hne h).mono (fun _ _ hr => hr)
      fun _ _ hf => hf.elim).endState

end Deactivate

/-! ## Runs -/

/-- An activation that was given out. -/
structure ActivationRecord where
  token : OtelActivation
  entry : StackRef
  /-- The span has been off the active stack since. -/
  ended : Bool

/-- What a run is remembered by: the activations given out, oldest first, and how many deactivations
with the token of an activation that was over were not refused. -/
structure ActivationLog where
  given : List ActivationRecord := []
  taken : ℕ := 0

/-- The token is that of an activation that is over. -/
def ActivationLog.Spent (log : ActivationLog) (tok : OtelActivation) : Prop :=
  ∃ a ∈ log.given, a.token = tok ∧ a.ended = true

instance (log : ActivationLog) : DecidablePred log.Spent := fun tok =>
  inferInstanceAs (Decidable (∃ a ∈ log.given, a.token = tok ∧ a.ended = true))

/-- The activation a call gives out. -/
def Call.activates (call : Call) (s : St) : Option ActivationRecord :=
  match call.op with
  | .spanActivate ref =>
    match s.life.entryOf ref, apiSpanActivate call.env ref (s.enter call) with
    | some e, .ok tok _ => if tok.v = 0 then none else some ⟨tok, e, false⟩
    | _, _ => none
  | _ => none

/-- The token the call deactivates, if its activation is over. -/
def Call.spentToken (call : Call) (log : ActivationLog) : Option OtelActivation :=
  match call.op with
  | .spanDeactivate tok => if log.Spent tok then some tok else none
  | _ => none

/-- The call is a deactivation with the token of an activation that is over, and is not refused. -/
def Call.TakesOff (call : Call) (s s' : St) (log : ActivationLog) : Prop :=
  ∃ tok ∈ call.spentToken log, ¬ TokenRefused tok s s'

instance (call : Call) (s s' : St) (log : ActivationLog) : Decidable (call.TakesOff s s' log) :=
  inferInstanceAs (Decidable (∃ tok ∈ call.spentToken log, _))

/-- An activation is over once its span is found off the stack. -/
def ActivationRecord.seen (a : ActivationRecord) (s : St) : ActivationRecord :=
  { a with ended := a.ended || decide (¬ s.life.OnStack a.entry) }

def ActivationLog.after (log : ActivationLog) (call : Call) (s s' : St) : ActivationLog where
  given := (log.given ++ (call.activates s).toList).map fun a => a.seen s'
  taken := if call.TakesOff s s' log then log.taken + 1 else log.taken

/-- The producer with the log of its activations. -/
def activationRuns (garbage : ℕ → OtelSlot) : Machine (St × ActivationLog) Call :=
  (producer garbage).extend {} some (fun _ _ => True) fun p call =>
    p.2.after call p.1 ((producer garbage).next p.1 call)

variable {garbage : ℕ → OtelSlot} {p : St × ActivationLog}

theorem Call.activates_ne {call : Call} {s : St} {a : ActivationRecord}
    (h : call.activates s = some a) : a.token.v ≠ 0 := by
  unfold Call.activates at h
  split at h
  · split at h
    · split_ifs at h with hzero
      obtain rfl := Option.some.inj h
      exact hzero
    · cases h
  · cases h

/-- No token that was given out is null. -/
def ActivationLog.Issued (log : ActivationLog) : Prop := ∀ a ∈ log.given, a.token.v ≠ 0

theorem ActivationLog.Issued.step {call : Call} {s s' : St} {log : ActivationLog} (h : log.Issued) :
    (log.after call s s').Issued := by
  intro a ha
  obtain ⟨b, hb, rfl⟩ := List.mem_map.1 ha
  change b.token.v ≠ 0
  rcases List.mem_append.1 hb with hb | hb
  · exact h b hb
  · exact Call.activates_ne (Option.mem_toList.1 hb)

theorem reachable_issued (h : (activationRuns garbage).Reachable p) : p.2.Issued :=
  Machine.Reachable.invariant (I := fun p => p.2.Issued) (fun _ ha => absurd ha List.not_mem_nil)
    (fun _ _ hI _ => hI.step) h

/-- A call with the token of an activation that is over is refused exactly if every call is, or the
token names nothing on the active stack. -/
theorem refused_iff (garbage : ℕ → OtelSlot) {call : Call} {s : St} {log : ActivationLog} {tok : OtelActivation}
    (h : log.Issued) (hspent : log.Spent tok) (hop : call.op = .spanDeactivate tok) :
    TokenRefused tok s ((producer garbage).next s call) ↔
      (s.life.refuses call.env = true ∨ ¬ s.life.NamesActive tok) := by
  obtain ⟨a, ha, rfl, -⟩ := hspent
  have hnext : (producer garbage).next s call =
      endState (apiSpanDeactivate call.env a.token) (s.enter call) := by
    change endState (runOp call.env call.op) (s.enter call) = _
    rw [hop]
    rfl
  rw [hnext]
  exact tokenRefused_iff call.env (s := s.enter call) (h a ha)

/-- The call is no deactivation of something active with the token of an activation that is over. -/
def Call.UsesOnce (call : Call) (s : St) (log : ActivationLog) : Prop :=
  ∀ tok ∈ call.spentToken log, s.life.refuses call.env = true ∨ ¬ s.life.NamesActive tok

instance (call : Call) (s : St) (log : ActivationLog) : Decidable (call.UsesOnce s log) :=
  inferInstanceAs (Decidable (∀ tok ∈ call.spentToken log, _ ∨ _))

theorem not_takesOff (garbage : ℕ → OtelSlot) {call : Call} {s : St} {log : ActivationLog} (h : log.Issued)
    (hok : call.UsesOnce s log) : ¬ call.TakesOff s ((producer garbage).next s call) log := by
  rintro ⟨tok, htok, hnot⟩
  have hcond := hok tok htok
  unfold Call.spentToken at htok
  split at htok
  · rename_i t hop
    split_ifs at htok with hspent
    · obtain rfl := Option.some.inj htok
      exact hnot ((refused_iff garbage h hspent hop).2 hcond)
    · cases htok
  · cases htok

/-- In every run, a deactivation with the token of an activation that is over is refused exactly when
the token names nothing on the active stack, or all calls are refused; in a run in which every such
deactivation is of this kind, none is ever carried out. -/
theorem tokens_single_use (garbage : ℕ → OtelSlot) :
    (∀ p, (activationRuns garbage).Reachable p → ∀ (tok : OtelActivation) (call : Call),
      p.2.Spent tok → call.op = .spanDeactivate tok →
      (TokenRefused tok p.1 ((activationRuns garbage).next p call).1 ↔
        (p.1.life.refuses call.env = true ∨ ¬ p.1.life.NamesActive tok))) ∧
    ∀ p, (activationRuns garbage).ReachBy (fun p call => call.UsesOnce p.1 p.2) p →
      p.2.taken = 0 := by
  constructor
  · intro p h tok call hspent hop
    exact refused_iff garbage (reachable_issued h) hspent hop
  · intro p h
    have hnone : p.2.Issued ∧ p.2.taken = 0 := by
      refine Machine.ReachBy.invariant (I := fun p => p.2.Issued ∧ p.2.taken = 0)
        ⟨fun _ ha => absurd ha List.not_mem_nil, rfl⟩ (fun p call hI _ hok => ⟨hI.1.step, ?_⟩) h
      change (if _ then p.2.taken + 1 else p.2.taken) = 0
      rw [if_neg (not_takesOff garbage hI.1 hok)]
      exact hI.2
    exact hnone.2

/-- A detached span is activated and deactivated, which spends the token. -/
def deactivatedOnce : List Call :=
  [{ env := {}, backend := {}, op := .spanStart (some { name := some (cstr "cursor"), detached := true }) },
    { env := {}, backend := {}, op := .spanActivate (makeRef 1 0 true) },
    { env := {}, backend := {}, op := .spanDeactivate ⟨(makeRef 1 0 true).v⟩ }]

def spentTokenState : St × ActivationLog :=
  deactivatedOnce.foldl (activationRuns fun _ => {}).next ((activationRuns fun _ => {}).init)

def deactivateAgain : Call := { env := {}, backend := {}, op := .spanDeactivate ⟨(makeRef 1 0 true).v⟩ }

theorem reachable_spentTokenState :
    (activationRuns fun _ => {}).ReachBy (fun p call => call.UsesOnce p.1 p.2) spentTokenState := by
  refine Machine.ReachBy.run .init ⟨⟨fun a ha => ?_, trivial⟩, by decide +kernel, ⟨fun a ha => ?_, trivial⟩,
    by decide +kernel, ⟨fun a ha => ?_, trivial⟩, by decide +kernel, trivial⟩ <;>
    obtain rfl := Option.some.inj ha
  · exact trivial
  · exact (by decide : (makeRef 1 0 true).Issued)
  · exact trivial

/-- The second time the token is refused. -/
theorem tokens_single_use_spent :
    spentTokenState.2.Spent ⟨(makeRef 1 0 true).v⟩ ∧
      TokenRefused ⟨(makeRef 1 0 true).v⟩ spentTokenState.1
        ((activationRuns fun _ => {}).next spentTokenState deactivateAgain).1 ∧
      ((activationRuns fun _ => {}).next spentTokenState deactivateAgain).2.taken = 0 := by
  have hspent : spentTokenState.2.Spent ⟨(makeRef 1 0 true).v⟩ := by decide +kernel
  have honce : deactivateAgain.UsesOnce spentTokenState.1 spentTokenState.2 := by decide +kernel
  obtain ⟨hrefused, hrun⟩ := tokens_single_use fun _ => {}
  refine ⟨hspent, ?_, hrun _ (reachable_spentTokenState.step deactivateAgain ⟨?_, trivial⟩ honce)⟩
  · exact (hrefused spentTokenState (reachable_spentTokenState.mono fun _ _ _ => trivial) _ deactivateAgain
      hspent rfl).2 (.inr (by decide +kernel))
  · intro a ha
    obtain rfl := Option.some.inj ha
    exact trivial

/-! ## A token that is used again -/

/-- A detached span is activated, deactivated and activated once more. -/
def activatedTwice : List Call :=
  [{ env := {}, backend := {}, op := .spanStart (some { name := some (cstr "cursor"), detached := true }) },
    { env := {}, backend := {}, op := .spanActivate (makeRef 1 0 true) },
    { env := {}, backend := {}, op := .spanDeactivate ⟨(makeRef 1 0 true).v⟩ },
    { env := {}, backend := {}, op := .spanActivate (makeRef 1 0 true) }]

def activatedTwiceState : St × ActivationLog :=
  activatedTwice.foldl (activationRuns fun _ => {}).next ((activationRuns fun _ => {}).init)

theorem reachable_activatedTwiceState :
    (activationRuns fun _ => {}).Reachable activatedTwiceState := by
  refine Machine.ReachBy.run .init ⟨⟨fun a ha => ?_, trivial⟩, trivial, ⟨fun a ha => ?_, trivial⟩,
    trivial, ⟨fun a ha => ?_, trivial⟩, trivial, ⟨fun a ha => ?_, trivial⟩, trivial, trivial⟩ <;>
    obtain rfl := Option.some.inj ha
  · exact trivial
  · exact (by decide : (makeRef 1 0 true).Issued)
  · exact trivial
  · exact (by decide : (makeRef 1 0 true).Issued)

/-- The token of the first activation ends the second one. -/
theorem spent_token_deactivates :
    ¬ ∀ p, (activationRuns fun _ => {}).Reachable p → ∀ (tok : OtelActivation) (call : Call),
      p.2.Spent tok → call.op = .spanDeactivate tok →
      TokenRefused tok p.1 ((activationRuns fun _ => {}).next p call).1 := by
  intro h
  have hrefused := h activatedTwiceState reachable_activatedTwiceState ⟨(makeRef 1 0 true).v⟩
    { env := {}, backend := {}, op := .spanDeactivate ⟨(makeRef 1 0 true).v⟩ }
    (by decide +kernel) rfl
  exact absurd hrefused.1 (by decide +kernel)

end PostgresOtel
