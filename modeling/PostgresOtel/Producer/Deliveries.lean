import PostgresOtel.Producer.History

/-!
# What reaches the sinks

`dispatch_span` runs the emit hook with the span and then writes the span to the server log, each if it
is configured.  The hook gets the span before it can raise; the log line gets lost when the hook does
not return, or when there is no memory for it.  Nothing else reaches a sink, so that over a whole run
the hook has been run with exactly the spans dispatched while there was one, once each and in order.
-/

set_option autoImplicit false

namespace PostgresOtel

open Exec

/-! ## One dispatch -/

/-- The emit hook, if there is one, returns from its run with this span. -/
def Env.hookReturns (env : Env) (serial : ℕ) : Bool :=
  env.emitHook.all fun hook => (hook serial).finish = .returns

/-- Whether a span that is sent to a sink reaches it. -/
def Env.reaches (env : Env) (serial : ℕ) : Sink → Bool
  | .emitHook => true
  | .serverLog => env.hookReturns serial && !env.logLineRaises serial

/-- What reaches the sinks in a dispatch. -/
def Env.deliveries (env : Env) (d : Dispatch) : List Delivery :=
  (d.sinks.filter (env.reaches d.serial)).map fun sink => ⟨d.serial, d.span, sink⟩

/-- What was dispatched and what reached a sink stays. -/
structure SameDeliveries (s s' : St) : Prop where
  dispatches : s'.dispatches = s.dispatches
  delivered : s'.delivered = s.delivered

instance : Historic SameDeliveries where
  refl _ := ⟨rfl, rfl⟩
  trans _ _ _ h h' := ⟨h'.dispatches.trans h.dispatches, h'.delivered.trans h.delivered⟩
  of_same h := ⟨h.dispatches, h.delivered⟩

/-- These have reached a sink besides. -/
def St.deliver (s : St) (new : List Delivery) : St := { s with delivered := s.delivered ++ new }

section Dispatch

variable {env : Env} {serial : ℕ} {span : OtelSpan}

theorem isEmpty_sinks (env : Env) : env.sinks.isEmpty = !env.sink := by
  unfold Env.sinks Env.sink
  cases env.emitHook.isSome <;> cases env.emitSpansToLog <;> rfl

theorem deliveries_sinks : env.deliveries ⟨serial, span, env.sinks⟩ =
    (if env.emitHook.isSome then [⟨serial, span, .emitHook⟩] else []) ++
      if env.emitSpansToLog ∧ env.hookReturns serial ∧ env.logLineRaises serial = false then
        [⟨serial, span, .serverLog⟩]
      else [] := by
  unfold Env.deliveries Env.sinks
  cases env.emitHook.isSome <;> cases env.emitSpansToLog <;> cases hh : env.hookReturns serial <;>
    cases hl : env.logLineRaises serial <;> simp [List.filter_cons, Env.reaches, hh, hl]

/-- The hook has been run with the span however it ends. -/
theorem wp_callEmitHook_delivers (s : St) :
    Wp (callEmitHook env serial span)
      (fun _ s' => SameDeliveries
        (s.deliver (if env.emitHook.isSome then [⟨serial, span, .emitHook⟩] else [])) s' ∧
        env.hookReturns serial = true)
      (fun _ s' => SameDeliveries
        (s.deliver (if env.emitHook.isSome then [⟨serial, span, .emitHook⟩] else [])) s' ∧
        env.hookReturns serial = false) s := by
  unfold callEmitHook runEmitHook Env.hookReturns
  cases env.emitHook with
  | none => exact ⟨⟨rfl, (List.append_nil _).symm⟩, rfl⟩
  | some hook =>
    rw [wp_bind, reachSink, wp_modify, wp_bind]
    have hacts := historic_runHookActs (R := SameDeliveries) env (hook serial).acts
      (s.deliver [⟨serial, span, .emitHook⟩])
    refine (hacts.and (wp_runHookActs env _ _)).mono (fun _ s' h => ?_) fun _ _ h => h.2.elim
    cases hf : (hook serial).finish with
    | returns => exact ⟨h.1, by simp [hf]⟩
    | raisesError edata => exact ⟨⟨h.1.dispatches, h.1.delivered⟩, by simp [hf]⟩
    | raisesFatal => exact ⟨h.1, by simp [hf]⟩

theorem wp_emitSpan_delivers (s : St) :
    Wp (emitSpan env serial span)
      (fun _ s' => SameDeliveries (s.deliver (env.deliveries ⟨serial, span, env.sinks⟩)) s')
      (fun _ s' => SameDeliveries (s.deliver (env.deliveries ⟨serial, span, env.sinks⟩)) s') s := by
  -- What the hook gets is the first part of what is delivered; the log line is the second.
  have hline (logged : Bool) (s₁ s₂ : St) (h : SameDeliveries
      (s.deliver (if env.emitHook.isSome then [⟨serial, span, .emitHook⟩] else [])) s₁)
      (hlogged : logged = (env.emitSpansToLog && (env.hookReturns serial &&
        !env.logLineRaises serial)))
      (h₂ : SameDeliveries (s₁.deliver (if logged then [⟨serial, span, .serverLog⟩] else [])) s₂) :
      SameDeliveries (s.deliver (env.deliveries ⟨serial, span, env.sinks⟩)) s₂ := by
    refine ⟨h₂.dispatches.trans h.dispatches, ?_⟩
    rw [h₂.delivered, St.deliver, h.delivered, St.deliver, St.deliver, deliveries_sinks,
      List.append_assoc]
    simp [hlogged]
  unfold emitSpan
  rw [wp_bind, wp_modify, wp_bind]
  refine (wp_callEmitHook_delivers _).mono (fun _ s₁ h₁ => ?_) fun _ s₁ h₁ => ?_
  · rw [wp_bind, wp_runIf]
    refine ⟨fun hlog => ?_, fun hlog => ?_⟩
    · unfold otelEmitSpanAsLogLine
      rw [wp_ite]
      refine ⟨fun hraise => ?_, fun hraise => ?_⟩
      · refine hline false s₁ _ ⟨h₁.1.dispatches, h₁.1.delivered⟩ (by simp [hraise]) ⟨rfl, ?_⟩
        exact (List.append_nil _).symm
      · exact hline true s₁ _ ⟨h₁.1.dispatches, h₁.1.delivered⟩ (by simp [hlog, h₁.2, hraise]) ⟨rfl, rfl⟩
    · refine hline false s₁ _ ⟨h₁.1.dispatches, h₁.1.delivered⟩ (by simp [hlog]) ⟨rfl, ?_⟩
      exact (List.append_nil _).symm
  · refine hline false s₁ _ ⟨h₁.1.dispatches, h₁.1.delivered⟩ (by simp [h₁.2]) ⟨rfl, ?_⟩
    exact (List.append_nil _).symm

/-- The spans `ds` are dispatched, and what becomes of each of them is what the surroundings say. -/
structure DeliversAll (env : Env) (ds : List Dispatch) (s s' : St) : Prop where
  sinks : ∀ d ∈ ds, d.sinks = env.sinks
  dispatches : s'.dispatches = s.dispatches ++ ds
  delivered : s'.delivered = s.delivered ++ ds.flatMap env.deliveries

theorem DeliversAll.same {s s' : St} (h : SameDeliveries s s') : DeliversAll env [] s s' where
  sinks _ hd := absurd hd List.not_mem_nil
  dispatches := h.dispatches.trans (List.append_nil _).symm
  delivered := h.delivered.trans (List.append_nil _).symm

theorem DeliversAll.trans {ds ds' : List Dispatch} {s s' s'' : St} (h : DeliversAll env ds s s')
    (h' : DeliversAll env ds' s' s'') : DeliversAll env (ds ++ ds') s s'' where
  sinks d hd := (List.mem_append.1 hd).elim (h.sinks d) (h'.sinks d)
  dispatches := by rw [h'.dispatches, h.dispatches, List.append_assoc]
  delivered := by rw [h'.delivered, h.delivered, List.flatMap_append, List.append_assoc]

/-- However a dispatch ends, the span is on its way to the sinks once. -/
theorem wp_dispatchSpan_delivers (s : St) :
    Wp (dispatchSpan env serial span)
      (fun _ s' => DeliversAll env [⟨serial, span, env.sinks⟩] s s')
      (fun _ s' => DeliversAll env [⟨serial, span, env.sinks⟩] s s') s := by
  have hsent (s' : St) (h : SameDeliveries (({ s with
      dispatches := s.dispatches ++ [⟨serial, span, env.sinks⟩] } : St).deliver
        (env.deliveries ⟨serial, span, env.sinks⟩)) s') :
      DeliversAll env [⟨serial, span, env.sinks⟩] s s' :=
    ⟨by simp, h.dispatches, h.delivered.trans (by simp [St.deliver])⟩
  have hcount : Within SameDeliveries (modifyCounters fun c =>
      { c with spansEmitted := c.spansEmitted + 1 }) := historic_count fun _ => rfl
  have hrest : Within SameDeliveries (recoverDispatch s.dispatchDepth s.backend >>= fun _ =>
      modifyCounters fun c => { c with spansEmitted := c.spansEmitted + 1 }) :=
    .bind (historic_recoverDispatch _ _) fun _ => hcount
  unfold dispatchSpan
  rw [wp_bind, wp_get, wp_bind, wp_modify, wp_ite]
  refine ⟨fun _ => ?_, fun hsink => hsent _ ⟨rfl, ?_⟩⟩
  · rw [wp_bind]
    refine wp_pgTry ((wp_emitSpan_delivers _).mono (fun _ s₁ h₁ => ?_) fun _ s₁ h₁ =>
      ⟨fun _ => ?_, fun _ => hsent s₁ h₁⟩)
    · exact (hcount s₁).mono (fun _ s' h => hsent s' (IsTrans.trans _ _ _ h₁ h))
        fun _ s' h => hsent s' (IsTrans.trans _ _ _ h₁ h)
    · rw [← wp_bind]
      exact (hrest s₁).mono (fun _ s' h => hsent s' (IsTrans.trans _ _ _ h₁ h))
        fun _ s' h => hsent s' (IsTrans.trans _ _ _ h₁ h)
  · have hnone : env.sinks = [] := List.isEmpty_iff.1 ((isEmpty_sinks env).trans (by simp [hsink]))
    simp [St.deliver, Env.deliveries, hnone]

end Dispatch

/-! ## One call -/

/-- What is dispatched reaches the sinks as far as the surroundings say. -/
def Delivers (env : Env) (s s' : St) : Prop := ∃ ds, DeliversAll env ds s s'

instance (env : Env) : Historic (Delivers env) where
  refl s := ⟨[], .same (Std.Refl.refl s)⟩
  trans _ _ _ := fun ⟨_, h⟩ ⟨_, h'⟩ => ⟨_, h.trans h'⟩
  of_same h := ⟨[], .same (Historic.of_same h)⟩

theorem delivers_runOp (env : Env) (op : ProducerOp) : Within (Delivers env) (runOp env op) := by
  have hcount : Within (Delivers env) (modifyCounters fun c =>
      { c with spansStarted := c.spansStarted + 1 }) :=
    within_modify fun _ => ⟨[], .same ⟨rfl, rfl⟩⟩
  refine historic_runOp env (fun serial span s => ?_) op fun args _ => historic_apiSpanStart env hcount args
  exact (wp_dispatchSpan_delivers s).mono (fun _ _ h => ⟨_, h⟩) fun _ _ h => ⟨_, h⟩
/-! ## Runs -/

/-- The spans that have reached a sink, each with the number of its start. -/
def St.reached (s : St) (sink : Sink) : List (ℕ × OtelSpan) :=
  (s.delivered.filter fun d => d.sink = sink).map fun d => (d.serial, d.span)

/-- The spans that were dispatched while there was such a sink. -/
def St.sentTo (s : St) (sink : Sink) : List (ℕ × OtelSpan) :=
  (s.dispatches.filter fun d => sink ∈ d.sinks).map fun d => (d.serial, d.span)

/-- The sink is there, and every span that is sent to it reaches it. -/
def Env.Feeds (env : Env) (sink : Sink) : Prop :=
  sink ∈ env.sinks ∧ ∀ serial, env.reaches serial sink = true

section Runs

variable {env : Env} {garbage : ℕ → OtelSlot} {s s' : St} {sink : Sink}

theorem filter_deliveries {d : Dispatch} (h : d.sinks = env.sinks) (sink : Sink) :
    (env.deliveries d).filter (fun e => e.sink = sink) =
      if sink ∈ d.sinks ∧ env.reaches d.serial sink = true then [⟨d.serial, d.span, sink⟩] else [] := by
  obtain ⟨serial, span, sinks⟩ := d
  have h : sinks = env.sinks := h
  subst h
  rw [deliveries_sinks]
  unfold Env.sinks
  cases sink <;> cases env.emitHook.isSome <;> cases env.emitSpansToLog <;>
    cases hh : env.hookReturns serial <;> cases hl : env.logLineRaises serial <;>
    simp [Env.reaches, hh, hl]

/-- Of the dispatched spans a sink gets, in order, those that were sent to it and reach it. -/
theorem DeliversAll.reached {ds : List Dispatch} (h : DeliversAll env ds s s') (sink : Sink) :
    s'.reached sink = s.reached sink ++
      (ds.filter fun d => sink ∈ d.sinks ∧ env.reaches d.serial sink = true).map
        fun d => (d.serial, d.span) := by
  have hnew : ∀ ds : List Dispatch, (∀ d ∈ ds, d.sinks = env.sinks) →
      ((ds.flatMap env.deliveries).filter fun e => e.sink = sink).map (fun e => (e.serial, e.span)) =
        (ds.filter fun d => sink ∈ d.sinks ∧ env.reaches d.serial sink = true).map
          fun d => (d.serial, d.span) := by
    intro ds hsinks
    induction ds with
    | nil => rfl
    | cons d rest ih =>
      rw [List.flatMap_cons, List.filter_append, List.map_append,
        filter_deliveries (hsinks d List.mem_cons_self), List.filter_cons,
        ih fun e he => hsinks e (List.mem_cons_of_mem _ he)]
      by_cases hd : sink ∈ d.sinks ∧ env.reaches d.serial sink = true <;> simp [hd]
  unfold St.reached
  rw [h.delivered, List.filter_append, List.map_append, hnew ds h.sinks]

theorem DeliversAll.sentTo {ds : List Dispatch} (h : DeliversAll env ds s s') (sink : Sink) :
    s'.sentTo sink = s.sentTo sink ++
      (ds.filter fun d => sink ∈ d.sinks).map fun d => (d.serial, d.span) := by
  unfold St.sentTo
  rw [h.dispatches, List.filter_append, List.map_append]

theorem delivers_next (garbage : ℕ → OtelSlot) (s : St) (call : Call) :
    ∃ ds, DeliversAll call.env ds s ((producer garbage).next s call) := by
  obtain ⟨ds, h⟩ := (delivers_runOp call.env call.op (s.enter call)).endState
  exact ⟨ds, h.sinks, h.dispatches, h.delivered⟩

/-- The hook is run with exactly the spans dispatched while there was one, in this order. -/
theorem reachable_reached_emitHook (h : (producer garbage).Reachable s) :
    s.reached .emitHook = s.sentTo .emitHook := by
  refine Machine.Reachable.invariant (I := fun s => s.reached .emitHook = s.sentTo .emitHook) rfl
    (fun s call hs _ => ?_) h
  obtain ⟨ds, hds⟩ := delivers_next garbage s call
  rw [hds.reached, hds.sentTo, hs]
  simp [Env.reaches]

/-- The log gets no other spans than those that were sent to it, and these in order. -/
theorem reachable_reached_sublist (h : (producer garbage).Reachable s) (sink : Sink) :
    (s.reached sink).Sublist (s.sentTo sink) := by
  refine Machine.Reachable.invariant (I := fun s => (s.reached sink).Sublist (s.sentTo sink))
    (List.Sublist.refl _) (fun s call hs _ => ?_) h
  obtain ⟨ds, hds⟩ := delivers_next garbage s call
  rw [hds.reached, hds.sentTo]
  refine hs.append (List.Sublist.map _ (List.monotone_filter_right _ fun d hd => ?_))
  simp only [decide_eq_true_eq] at hd ⊢
  exact hd.1

/-- A sink that is always there, and that every span reaches, gets all that is dispatched. -/
theorem reachBy_reached (h : (producer garbage).ReachBy (fun _ call => call.env.Feeds sink) s) :
    s.reached sink = s.dispatches.map fun d => (d.serial, d.span) := by
  refine Machine.ReachBy.invariant
    (I := fun s => s.reached sink = s.dispatches.map fun d => (d.serial, d.span)) rfl
    (fun s call hs _ hfeeds => ?_) h
  obtain ⟨ds, hds⟩ := delivers_next garbage s call
  have hall : (ds.filter fun d => sink ∈ d.sinks ∧ call.env.reaches d.serial sink = true) = ds := by
    rw [List.filter_eq_self]
    intro d hd
    rw [hds.sinks d hd]
    simp [hfeeds.1, hfeeds.2]
  rw [hds.reached, hall, hds.dispatches, List.map_append, hs]

theorem feeds_emitHook : env.Feeds .emitHook ↔ env.emitHook.isSome = true := by
  unfold Env.Feeds Env.sinks
  cases env.emitHook.isSome <;> cases env.emitSpansToLog <;> simp [Env.reaches]

end Runs

end PostgresOtel
