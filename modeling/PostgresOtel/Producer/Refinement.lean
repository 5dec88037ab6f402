import PostgresOtel.Producer.Frame

/-!
# The producer's functions are paths of life cycle steps

For each function that touches the life cycle: what it leaves behind, and that it got there by steps
of `LifeStep`, whether it returned or was left by an exception.
-/

set_option autoImplicit false

namespace PostgresOtel

open Exec

variable (env : Env) {α : Type}

/-- What a quiet computation leaves behind is all that a caller needs to know of it. -/
theorem Quiet.wp {x : M α} (h : Quiet x) {Q : α → St → Prop} {E : Exn → St → Prop} {s : St}
    (hQ : ∀ a s', s'.core = s.core → Q a s') : Wp x Q E s :=
  (h s).mono hQ fun _ _ hf => hf.elim

theorem St.core_eq {s s' : St} (h : s'.core = s.core) :
    s'.life = s.life ∧ s'.backend.errorStack = s.backend.errorStack :=
  ⟨congrArg Prod.fst h, congrArg (fun c => c.2.1) h⟩

theorem wp_runIf {c : Prop} [Decidable c] {x : M Unit} {Q : Unit → St → Prop}
    {E : Exn → St → Prop} {s : St} :
    Wp (runIf c x) Q E s ↔ (c → Wp x Q E s) ∧ (¬ c → Q () s) := by
  rw [runIf, wp_ite]
  exact Iff.rfl

theorem wp_raiseError {edata : ErrorData} {Q : α → St → Prop} {E : Exn → St → Prop} {s : St}
    (h : ∀ s', s'.life = s.life → E .error s') : Wp (raiseError edata) Q E s := by
  unfold raiseError modifyBackend
  rw [wp_bind]
  exact h _ rfl

theorem wp_pgTry {body handler : M α} {Q : α → St → Prop} {E : Exn → St → Prop} {s : St}
    (h : Wp body Q (fun e s' => (e = .error → Wp handler Q E s') ∧ (e = .fatal → E .fatal s')) s) :
    Wp (pgTry body handler) Q E s := by
  unfold pgTry
  rw [wp_tryCatch]
  refine h.mono (fun _ _ hq => hq) fun e s' he => ?_
  cases e with
  | error => exact he.1 rfl
  | fatal => exact he.2 rfl

/-! ## Resource owners -/

theorem wp_resourceOwnerForget (owner : ResourceOwner) (ref : OtelSpanRef) (s : St) :
    Wp (resourceOwnerForget env owner ref) (fun _ s' => s'.core = s.core)
      (fun e s' => e = .error ∧ s'.life = s.life) s := by
  unfold resourceOwnerForget
  rw [wp_bind, wp_get, wp_ite]
  exact ⟨fun _ => wp_raiseError fun s' h => ⟨rfl, h⟩, fun _ => rfl⟩

theorem wp_forgetSlot (i : ℕ) (slot : OtelSlot) (s : St) :
    Wp (forgetSlot env i slot) (fun _ s' => s'.core = s.core)
      (fun e s' => e = .error ∧ s'.life = s.life) s := by
  unfold forgetSlot
  cases slot.owner with
  | none => exact rfl
  | some owner => exact wp_resourceOwnerForget env owner _ s

/-! ## Dispatching -/

def HookRun.flushes (run : HookRun) : Bool := run.acts.any fun act => act = .catchError

def HookRun.raises (run : HookRun) : Bool :=
  match run.finish with
  | .raisesError _ => true
  | .returns | .raisesFatal => false

/-- Dispatching the span with this serial ends in a `FlushErrorState`: the hook raises an `ERROR` or
flushes one of its own, or the log line cannot be built. -/
def Env.disturbs (env : Env) (serial : ℕ) : Bool :=
  (env.emitHook.any fun hook => (hook serial).flushes || (hook serial).raises) ||
    (env.emitSpansToLog && env.logLineRaises serial)

/-- The error stack after dispatches of the spans with these serials. -/
def Env.errorsAfter (env : Env) (serials : List ℕ) (errors : List ErrorData) : List ErrorData :=
  if serials.any env.disturbs then [] else errors

theorem wp_runHookAct (act : HookAct) (s : St) :
    Wp (runHookAct env act)
      (fun _ s' => s'.life = s.life ∧ s'.backend.errorStack =
        if act = .catchError then [] else s.backend.errorStack)
      (fun _ _ => False) s := by
  have keeps {x : M Unit} (hx : Quiet x) (hact : act ≠ .catchError) : Wp x
      (fun _ s' => s'.life = s.life ∧ s'.backend.errorStack =
        if act = .catchError then [] else s.backend.errorStack)
      (fun _ _ => False) s := by
    rw [if_neg hact]
    exact hx.wp fun _ _ h => St.core_eq h
  cases act with
  | report edata => exact keeps (tame_otelEmitLogHook env edata).quiet (by simp)
  | call => exact keeps (.bind (tame_callRefused env false).quiet fun _ => quiet_pure _) (by simp)
  | contextOf ref =>
    exact keeps (.bind (quiet_apiSpanContextOf env ref) fun _ => quiet_pure _) (by simp)
  | catchError => exact ⟨rfl, rfl⟩

theorem wp_runHookActs (acts : List HookAct) (s : St) :
    Wp (runHookActs env acts)
      (fun _ s' => s'.life = s.life ∧ s'.backend.errorStack =
        if acts.any (fun act => act = .catchError) then [] else s.backend.errorStack)
      (fun _ _ => False) s := by
  induction acts generalizing s with
  | nil => exact ⟨rfl, rfl⟩
  | cons act rest ih =>
    rw [runHookActs, wp_bind]
    refine (wp_runHookAct env act s).mono (fun _ s' h => ?_) fun _ _ h => h
    refine (ih s').mono (fun _ s'' h' => ⟨h'.1.trans h.1, ?_⟩) fun _ _ h => h
    rw [h'.2, h.2]
    by_cases hact : act = .catchError <;> simp [hact]

theorem wp_callEmitHook (serial : ℕ) (span : OtelSpan) (s : St) :
    Wp (callEmitHook env serial span)
      (fun _ s' => s'.life = s.life ∧ s'.backend.errorStack =
        if env.emitHook.any (fun hook => (hook serial).flushes || (hook serial).raises) then []
        else s.backend.errorStack)
      (fun e s' => s'.life = s.life ∧ (e = .error →
        env.emitHook.any (fun hook => (hook serial).flushes || (hook serial).raises) = true)) s := by
  unfold callEmitHook runEmitHook
  cases env.emitHook with
  | none => exact ⟨rfl, rfl⟩
  | some hook =>
    rw [wp_bind, reachSink, wp_modify, wp_bind]
    refine (wp_runHookActs env _ _).mono (fun _ s' h => ?_) fun _ _ h => h.elim
    cases hf : (hook serial).finish with
    | returns =>
      refine ⟨h.1, h.2.trans ?_⟩
      simp [HookRun.flushes, HookRun.raises, hf]
    | raisesError edata =>
      refine wp_raiseError fun s'' h' => ⟨h'.trans h.1, fun _ => ?_⟩
      simp [HookRun.raises, hf]
    | raisesFatal => exact ⟨h.1, fun he => by cases he⟩

theorem wp_emitSpan (serial : ℕ) (span : OtelSpan) (s : St) :
    Wp (emitSpan env serial span)
      (fun _ s' => s'.life = s.life ∧ s'.backend.errorStack =
        if env.disturbs serial then [] else s.backend.errorStack)
      (fun e s' => s'.life = { s.life with dispatchDepth := s.life.dispatchDepth + 1 } ∧
        (e = .error → env.disturbs serial = true)) s := by
  unfold emitSpan
  rw [wp_bind, wp_modify, wp_bind]
  refine (wp_callEmitHook env serial span _).mono (fun _ s' h => ?_) fun e s' h => ?_
  · rw [wp_bind, wp_runIf]
    constructor
    · intro hlog
      unfold otelEmitSpanAsLogLine
      rw [wp_ite]
      refine ⟨fun hraise => ?_, fun hraise => ?_⟩
      · refine wp_raiseError fun s'' h' => ⟨h'.trans h.1, fun _ => ?_⟩
        simp [Env.disturbs, hlog, hraise]
      · rw [reachSink, wp_modify]
        refine ⟨?_, h.2.trans ?_⟩
        · exact congrArg (fun c => { c with dispatchDepth := c.dispatchDepth - 1 }) h.1
        · simp [Env.disturbs, hraise]
    · intro hlog
      refine ⟨?_, h.2.trans ?_⟩
      · exact congrArg (fun c => { c with dispatchDepth := c.dispatchDepth - 1 }) h.1
      · simp [Env.disturbs, hlog]
  · refine ⟨h.1, fun he => ?_⟩
    simp only [Env.disturbs, h.2 he, Bool.true_or]

/-- `dispatch_span` puts the span in the log; all else it leaves as it was, but for the error stack
if the dispatch is disturbed.  Only a `FATAL` leaves it early. -/
theorem wp_dispatchSpan (serial : ℕ) (span : OtelSpan) (s : St) :
    Wp (dispatchSpan env serial span)
      (fun _ s' => s'.life =
          { s.life with
            emitted := if env.sink then s.life.emitted + 1 else s.life.emitted
            dispatched := s.life.dispatched ++ [serial] } ∧
        s'.backend.errorStack = env.errorsAfter [serial] s.backend.errorStack)
      (fun e s' => e = .fatal ∧ s'.life =
        { s.life with
          dispatchDepth := s.life.dispatchDepth + 1
          dispatched := s.life.dispatched ++ [serial] }) s := by
  have hlog (s : St) : ({ s with
      dispatches := s.dispatches ++ [⟨serial, span, env.sinks⟩] } : St).life =
      { s.life with dispatched := s.life.dispatched ++ [serial] } := by
    simp [St.life]
  have hquiet (h : env.sink = false) : env.disturbs serial = false := by
    simp only [Env.sink, Bool.or_eq_false_iff, Option.isSome_eq_false_iff,
      Option.isNone_iff_eq_none] at h
    simp [Env.disturbs, h.1, h.2]
  unfold dispatchSpan
  rw [wp_bind, wp_get, wp_bind, wp_modify, wp_ite]
  constructor
  · intro hsink
    rw [wp_bind]
    refine wp_pgTry ((wp_emitSpan env serial span _).mono (fun _ s' h => ?_) fun e s' h => ?_)
    · refine ⟨?_, h.2.trans ?_⟩
      · rw [if_pos hsink]
        exact congrArg (fun c => { c with emitted := c.emitted + 1 }) (h.1.trans (hlog s))
      · simp [Env.errorsAfter]
    · refine ⟨fun he => ⟨?_, ?_⟩, fun he => ⟨rfl, ?_⟩⟩
      · rw [if_pos hsink]
        have := h.1.trans (congrArg (fun c => { c with
          dispatchDepth := c.dispatchDepth + 1 }) (hlog s))
        exact congrArg (fun c => { c with
          dispatchDepth := s.life.dispatchDepth, emitted := c.emitted + 1 }) this
      · simp [Env.errorsAfter, h.2 he]
      · exact h.1.trans (congrArg (fun c => { c with
          dispatchDepth := c.dispatchDepth + 1 }) (hlog s))
  · intro hsink
    have hsink' : env.sink = false := by simpa using hsink
    refine ⟨?_, ?_⟩
    · rw [if_neg hsink]
      exact hlog s
    · simp [Env.errorsAfter, hquiet hsink']

/-! ## Ending a span -/

theorem wp_modifySlot {i : ℕ} {f : OtelSlot → OtelSlot} {Q : Unit → St → Prop}
    {E : Exn → St → Prop} {s : St}
    (h : ∀ s', s'.life = { s.life with
        slots := s.life.slots.set i (f (s.slots i)).toSlotLife } →
      s'.backend.errorStack = s.backend.errorStack → Q () s') : Wp (modifySlot i f) Q E s :=
  h _ (life_updateSlot s i _) rfl

/-- `release_slot` frees the slot; it may raise before that if the span still has its owner. -/
theorem wp_releaseSlot (i : ℕ) (byOwner : Bool) (fate : Fate) (s : St) :
    Wp (releaseSlot env i byOwner fate)
      (fun _ s' => s'.life =
          { s.life.freeSlot i
              (if byOwner then (s.slots i).gen else (s.slots i).ownerReleasedGen) fate with
            leaked := s.life.leaked, dropped := s.life.dropped } ∧
        s'.backend.errorStack = s.backend.errorStack)
      (fun e s' => e = .error ∧ byOwner = false ∧ (s.slots i).owner ≠ none ∧
        s'.life = s.life) s := by
  have hput (s : St) (l : OtelSlot) (x : ℕ × Fate) : ({ s with
      slots := Function.update s.slots i l, slotFreeHead := i, fates := s.fates ++ [x] } : St).life =
      { s.life with slots := s.life.slots.put i l.toSlotLife, fates := s.life.fates ++ [x] } :=
    congrArg (fun c : Lifecycle => { c with
      slots := ⟨c.slots.cell, c.slots.used, i⟩, fates := c.fates ++ [x] }) (life_updateSlot s i l)
  have hrest (s' : St) (h : s'.core = s.core) : Wp (do
      runIf ((s.slots i).session = true)
        (modify fun s => { s with sessionSpansOpen := s.sessionSpansOpen - 1 })
      modify fun s' =>
        { s' with
          slots := Function.update s'.slots i
            { cxt := (s.slots i).cxt
              ownerReleasedGen :=
                if byOwner then (s.slots i).gen else (s.slots i).ownerReleasedGen
              nextFree := s'.slotFreeHead }
          slotFreeHead := i
          fates := s'.fates ++ [((s.slots i).serial, fate)] })
      (fun _ s' => s'.life =
          { s.life.freeSlot i
              (if byOwner then (s.slots i).gen else (s.slots i).ownerReleasedGen) fate with
            leaked := s.life.leaked, dropped := s.life.dropped } ∧
        s'.backend.errorStack = s.backend.errorStack)
      (fun e s' => e = .error ∧ byOwner = false ∧ (s.slots i).owner ≠ none ∧
        s'.life = s.life) s' := by
    obtain ⟨hlife, herr⟩ := St.core_eq h
    have hserial : (s.slots i).serial = (s.life.slots.cell i).serial := rfl
    rw [wp_bind, wp_runIf]
    refine ⟨fun hses => ⟨?_, herr⟩, fun hses => ⟨?_, herr⟩⟩
    · refine (hput _ _ _).trans ?_
      have hses' : (s.life.slots.cell i).session = true := hses
      rw [hserial, Lifecycle.freeSlot, if_pos hses', ← hlife]
      rfl
    · refine (hput _ _ _).trans ?_
      have hses' : ¬ (s.life.slots.cell i).session = true := hses
      rw [hserial, Lifecycle.freeSlot, if_neg hses', ← hlife]
      rfl
  unfold releaseSlot
  rw [wp_bind, wp_get, wp_bind, wp_runIf]
  refine ⟨fun hby => ?_, fun _ => hrest s rfl⟩
  cases howner : (s.slots i).owner with
  | none =>
    unfold forgetSlot
    rw [howner]
    rw [howner] at hrest
    exact hrest s rfl
  | some owner =>
    rw [howner] at hrest
    refine (wp_forgetSlot env i _ s).mono (fun _ s' h => hrest s' h) fun e s' h => ?_
    exact ⟨h.1, hby, by simp, h.2⟩

/-- One more span ended without reaching its own end, if `unwinding`. -/
def Lifecycle.countUnwound (c : Lifecycle) (unwinding : Bool) : Lifecycle :=
  { c with unwound := if unwinding then c.unwound + 1 else c.unwound }

/-- `end_slot` dispatches the span and frees its slot.  An `ERROR` leaves it before anything has
happened, a `FATAL` in the middle of the dispatch. -/
theorem wp_endSlot (i : ℕ) (endTime : TimestampTz) (unwinding : Bool) (reason : Option CString)
    (s : St) :
    Wp (endSlot env i endTime unwinding reason)
      (fun _ s' => s'.life = (s.life.countUnwound unwinding).dispatchSlot env.sink i ∧
        s'.backend.errorStack =
          env.errorsAfter [(s.life.slots.cell i).serial] s.backend.errorStack)
      (fun e s' => (e = .error ∧ s'.life = s.life) ∨
        (e = .fatal ∧ s'.life = (s.life.countUnwound unwinding).cutShort i)) s := by
  unfold endSlot forgetOwner
  rw [wp_bind, wp_bind, wp_get, wp_bind]
  refine (wp_forgetSlot env i _ s).mono (fun _ s₁ h₁ => ?_) fun e s' h => .inl h
  obtain ⟨hl₁, he₁⟩ := St.core_eq h₁
  refine wp_modifySlot fun s₂ hl₂ he₂ => ?_
  -- From here on the owner has forgotten the span.
  have hmark : Wp (runIf (unwinding = true) (markUnwound i reason))
      (fun _ s₃ => s₃.life = s₂.life.countUnwound unwinding ∧
        s₃.backend.errorStack = s₂.backend.errorStack) (fun _ _ => False) s₂ := by
    rw [wp_runIf]
    refine ⟨fun hu => ?_, fun hu => ⟨?_, rfl⟩⟩
    · unfold markUnwound
      rw [wp_bind]
      refine Quiet.wp (quiet_modifySlot ?_) fun _ s' h => ?_
      · exact fun _ => rfl
      · obtain ⟨hl, he⟩ := St.core_eq h
        refine ⟨?_, he⟩
        rw [Lifecycle.countUnwound, if_pos hu, ← hl]
        rfl
    · rw [Lifecycle.countUnwound, if_neg hu]
  rw [wp_bind]
  refine hmark.mono (fun _ s₃ h₃ => ?_) fun _ _ h => h.elim
  rw [wp_bind]
  refine (tame_finishSpan env i endTime).quiet.wp fun _ s₄ h₄ => ?_
  obtain ⟨hl₄, he₄⟩ := St.core_eq h₄
  rw [wp_bind]
  refine wp_modifySlot fun s₅ hl₅ he₅ => ?_
  have hlife₅ : s₅.life = { (s.life.countUnwound unwinding) with
      slots := s.life.slots.set i
        { s.life.slots.cell i with owner := none, dispatching := true } } := by
    have hcell : (s₄.slots i).toSlotLife = s₄.life.slots.cell i := rfl
    have hcell₁ : (s₁.slots i).toSlotLife = s₁.life.slots.cell i := rfl
    rw [hl₅]
    simp only [hcell, hl₄, h₃.1, hl₂, hcell₁, hl₁]
    simp [Lifecycle.countUnwound, Pool.set]
  have herr₅ : s₅.backend.errorStack = s.backend.errorStack := by
    rw [he₅, he₄, h₃.2, he₂, he₁]
  have hserial : (s₅.slots i).serial = (s.life.slots.cell i).serial := by
    change (s₅.life.slots.cell i).serial = _
    rw [hlife₅]
    simp
  rw [wp_bind, wp_get, wp_bind]
  refine (wp_dispatchSpan env _ _ s₅).mono (fun _ s₆ h₆ => ?_) fun e s₆ h₆ => .inr ⟨h₆.1, ?_⟩
  · rw [wp_bind]
    refine wp_modifySlot fun s₇ hl₇ he₇ => ?_
    have hlife₇ : s₇.life = { (s.life.countUnwound unwinding) with
        slots := s.life.slots.set i
          { s.life.slots.cell i with owner := none, dispatching := false }
        emitted := if env.sink then s.life.emitted + 1 else s.life.emitted
        dispatched := s.life.dispatched ++ [(s.life.slots.cell i).serial] } := by
      have hcell : (s₆.slots i).toSlotLife = s₆.life.slots.cell i := rfl
      rw [hl₇]
      simp only [hcell, h₆.1, hlife₅, hserial]
      simp [Lifecycle.countUnwound, Pool.set]
    have hself : s₇.life.slots.cell i =
        { s.life.slots.cell i with owner := none, dispatching := false } := by
      rw [hlife₇]
      simp
    refine (wp_releaseSlot env i false .dispatched s₇).mono (fun _ s₈ h₈ => ⟨?_, ?_⟩) ?_
    · have hreleased : (s₇.slots i).ownerReleasedGen = (s.life.slots.cell i).ownerReleasedGen := by
        change (s₇.life.slots.cell i).ownerReleasedGen = _
        rw [hself]
      rw [h₈.1, hreleased, hlife₇]
      simp [Lifecycle.dispatchSlot, Lifecycle.freeSlot, Lifecycle.countUnwound, Pool.set, Pool.put]
      rfl
    · rw [h₈.2, he₇, h₆.2, herr₅, hserial]
    · intro e s₈ h₈
      exact absurd (congrArg SlotLife.owner hself) h₈.2.2.1
  · rw [h₆.2, hlife₅, hserial]
    simp [Lifecycle.cutShort, Lifecycle.countUnwound]

/-! ## Paths -/

/-- `x` is a path of life cycle steps however it ends.  If it returns, the error stack is what the
dispatches of the spans with the serials `ended` leave of it. -/
def Follows (s : St) (ended : List ℕ) (x : M α) : Prop :=
  Wp x
    (fun _ s' => LifePath env.sink s.life s'.life ∧
      s'.backend.errorStack = env.errorsAfter ended s.backend.errorStack)
    (fun _ s' => LifePath env.sink s.life s'.life) s

theorem Env.errorsAfter_nil (errors : List ErrorData) : env.errorsAfter [] errors = errors := rfl

theorem Env.errorsAfter_append (xs ys : List ℕ) (errors : List ErrorData) :
    env.errorsAfter ys (env.errorsAfter xs errors) = env.errorsAfter (xs ++ ys) errors := by
  unfold Env.errorsAfter
  rw [List.any_append]
  cases xs.any env.disturbs <;> cases ys.any env.disturbs <;> rfl

theorem LifePath.of_eq {sink : Bool} {c c' : Lifecycle} (h : c' = c) : LifePath sink c c' :=
  h ▸ Relation.ReflTransGen.refl

/-- Ending an open span that is off the stack. -/
theorem path_endSlot {c : Lifecycle} {i : ℕ} (hl : c.LiveSlot i) (ho : ¬ c.OnStack (.slot i))
    (hd : (c.slots.cell i).dispatching = false) (unwinding : Bool) :
    LifePath env.sink c ((c.countUnwound unwinding).dispatchSlot env.sink i) :=
  .tail (.single (.tally c c.nonLifoEnd _ c.activationUnwound))
    (.dispatch (c.countUnwound unwinding) i hl ho hd)

theorem path_cutShort {c : Lifecycle} {i : ℕ} (hl : c.LiveSlot i) (ho : ¬ c.OnStack (.slot i))
    (hd : (c.slots.cell i).dispatching = false) (unwinding : Bool) :
    LifePath env.sink c ((c.countUnwound unwinding).cutShort i) :=
  .tail (.single (.tally c c.nonLifoEnd _ c.activationUnwound))
    (.cutShort (c.countUnwound unwinding) i hl ho hd)

theorem follows_endSlot (i : ℕ) (endTime : TimestampTz) (unwinding : Bool)
    (reason : Option CString) {s : St} (hl : s.life.LiveSlot i)
    (ho : ¬ s.life.OnStack (.slot i)) (hd : (s.life.slots.cell i).dispatching = false) :
    Follows env s [(s.life.slots.cell i).serial] (endSlot env i endTime unwinding reason) := by
  refine (wp_endSlot env i endTime unwinding reason s).mono (fun _ s' h => ⟨?_, h.2⟩) fun e s' h => ?_
  · rw [h.1]
    exact path_endSlot env hl ho hd unwinding
  · rcases h with ⟨-, h⟩ | ⟨-, h⟩
    · exact .of_eq h
    · rw [h]
      exact path_cutShort env hl ho hd unwinding

/-! ## Unwinding -/

/-- The span that unwinding past a stack entry ends. -/
def Lifecycle.endedBy (c : Lifecycle) (e : StackEntry) : List ℕ :=
  match e.isActivation, e.entry with
  | false, .slot i => [(c.slots.cell i).serial]
  | _, _ => []

/-- The spans that unwinding past stack entries ends. -/
def Lifecycle.endedSerials (c : Lifecycle) (above : List StackEntry) : List ℕ :=
  above.flatMap c.endedBy

theorem Lifecycle.endedSerials_congr {c c' : Lifecycle} {above : List StackEntry}
    (h : ∀ i, StackRef.slot i ∈ above.map StackEntry.entry →
      (c'.slots.cell i).serial = (c.slots.cell i).serial) :
    c'.endedSerials above = c.endedSerials above := by
  refine List.flatMap_congr fun e he => ?_
  unfold Lifecycle.endedBy
  split
  · rename_i i _ hi
    rw [h i (List.mem_map.2 ⟨e, he, hi⟩)]
  · rfl

theorem wp_freeNrec (i : ℕ) (byOwner : Bool) {Q : Unit → St → Prop} {E : Exn → St → Prop} {s : St}
    (h : ∀ s', s'.life = s.life.freeNrec i
        (if byOwner then (s.life.nrecs.cell i).gen else (s.life.nrecs.cell i).ownerReleasedGen) →
      s'.backend.errorStack = s.backend.errorStack → Q () s') : Wp (freeNrec i byOwner) Q E s := by
  refine h _ ?_ rfl
  exact congrArg (fun c : Lifecycle => { c with nrecs := ⟨c.nrecs.cell, c.nrecs.used, i⟩ })
    (life_updateNrec s i _)

/-- What one turn of `stack_unwind_above` does with the entry it has popped. -/
theorem wp_unwindEntry (e : StackEntry) (reason : CString) {s : St} (hinv : PoolInv s.life)
    (hd : s.life.dispatchDepth = 0) (hl : s.life.Live e.entry) (ho : ¬ s.life.OnStack e.entry) :
    Wp (unwindEntry env e reason)
      (fun _ s' => LifePath env.sink s.life s'.life ∧ s'.life.spanStack = s.life.spanStack ∧
        s'.life.dispatchDepth = 0 ∧
        s'.backend.errorStack = env.errorsAfter (s.life.endedBy e) s.backend.errorStack ∧
        ∀ i, e.entry ≠ .slot i → s'.life.slots.cell i = s.life.slots.cell i)
      (fun _ s' => LifePath env.sink s.life s'.life) s := by
  unfold unwindEntry Lifecycle.endedBy
  rw [wp_ite]
  constructor
  · intro hact
    rw [hact]
    exact ⟨.single (.tally s.life _ _ _), rfl, hd, rfl, fun _ _ => rfl⟩
  · intro hact
    rw [Bool.not_eq_true] at hact
    rw [hact]
    cases he : e.entry with
    | slot i =>
      rw [he] at hl ho
      have hnd := hinv.not_dispatching hd i hl
      refine (wp_endSlot env i 0 true (some reason) s).mono (fun _ s' h => ?_) fun x s' h => ?_
      · rw [h.1]
        refine ⟨path_endSlot env hl ho hnd true, rfl, hd, h.2, fun j hj => ?_⟩
        exact Pool.put_cell_of_ne fun hji => hj (hji ▸ rfl)
      · rcases h with ⟨-, h⟩ | ⟨-, h⟩
        · exact .of_eq h
        · rw [h]
          exact path_cutShort env hl ho hnd true
    | nrec i =>
      rw [he] at hl ho
      refine wp_freeNrec i false fun s' hs' he' => ?_
      rw [hs']
      exact ⟨.single (.freeNrec s.life i _ hl ho), rfl, hd, he', fun _ _ => rfl⟩

/-- The loop of `stack_unwind_above` turn by turn: `I rest` holds whenever the entries `rest` are
still to be popped. -/
theorem wp_unwindTo_turns {I : List StackEntry → St → Prop} {E : Exn → St → Prop} (reason : CString)
    (below : List StackEntry)
    (hturn : ∀ e above s, s.spanStack = e :: (above ++ below) → I (e :: above) s →
      Wp (unwindEntry env e reason) (fun _ s' => s'.spanStack = above ++ below ∧ I above s') E
        { s with spanStack := above ++ below })
    (above : List StackEntry) {fuel : ℕ} {s : St} (hstack : s.spanStack = above ++ below)
    (hfuel : above.length ≤ fuel) (hI : I above s) :
    Wp (unwindTo env below.length reason fuel) (fun _ s' => s'.spanStack = below ∧ I [] s') E s := by
  induction above generalizing fuel s with
  | nil =>
    cases fuel with
    | zero => exact ⟨hstack, hI⟩
    | succ fuel =>
      unfold unwindTo
      rw [wp_bind, wp_get, hstack, List.nil_append]
      cases below with
      | nil => exact ⟨hstack, hI⟩
      | cons e rest =>
        simp only [List.length_cons, Nat.lt_irrefl, if_false]
        exact ⟨hstack, hI⟩
  | cons e above ih =>
    obtain ⟨fuel, rfl⟩ : ∃ n, fuel = n + 1 := ⟨fuel - 1, by simp at hfuel; omega⟩
    have hkeep : below.length < (above ++ below).length + 1 := by
      rw [List.length_append]
      omega
    have hpop : ({ s with spanStack := s.spanStack.tail } : St) =
        { s with spanStack := above ++ below } := by
      rw [hstack]
      rfl
    unfold unwindTo
    rw [wp_bind, wp_get, hstack, List.cons_append]
    simp only [hkeep, if_true]
    rw [wp_bind]
    change Wp _ _ _ { s with spanStack := s.spanStack.tail }
    rw [hpop, wp_bind]
    refine (hturn e above s hstack hI).mono (fun _ s₁ h₁ => ?_) fun _ _ h => h
    exact ih h₁.1 (by simp at hfuel; omega) h₁.2

/-- `stack_unwind_above` pops every entry in `above` and ends the spans started there.  Each turn
leaves the rest of them live and on the stack. -/
theorem wp_unwindTo (reason : CString) (below above : List StackEntry) {fuel : ℕ} {s : St}
    (hstack : s.life.spanStack = above ++ below) (hfuel : above.length ≤ fuel)
    (hinv : PoolInv s.life) (hd : s.life.dispatchDepth = 0) :
    Wp (unwindTo env below.length reason fuel)
      (fun _ s' => LifePath env.sink s.life s'.life ∧ s'.life.spanStack = below ∧
        s'.life.dispatchDepth = 0 ∧
        s'.backend.errorStack =
          env.errorsAfter (s.life.endedSerials above) s.backend.errorStack ∧
        ∀ i, StackRef.slot i ∉ above.map StackEntry.entry →
          s'.life.slots.cell i = s.life.slots.cell i)
      (fun _ s' => LifePath env.sink s.life s'.life) s := by
  have hnodup := hinv.stack_nodup
  rw [hstack] at hnodup
  refine (wp_unwindTo_turns env (I := fun rest s' => LifePath env.sink s.life s'.life ∧
      s'.life.dispatchDepth = 0 ∧ ∃ done, above = done ++ rest ∧
        s'.backend.errorStack = env.errorsAfter (s.life.endedSerials done) s.backend.errorStack ∧
        ∀ i, StackRef.slot i ∉ done.map StackEntry.entry →
          s'.life.slots.cell i = s.life.slots.cell i)
    (E := fun _ s' => LifePath env.sink s.life s'.life) reason below ?_ above hstack hfuel
    ⟨.refl, hd, [], rfl, rfl, fun _ _ => rfl⟩).mono (fun _ s' h => ?_) fun _ _ h => h
  · rintro e rest s₁ hs₁ ⟨hp₁, hd₁, done, rfl, he₁, hc₁⟩
    have hoff : e.entry ∉ done.map StackEntry.entry := fun hmem => by
      rw [List.append_assoc, List.map_append, List.cons_append, List.map_cons] at hnodup
      exact (List.nodup_append.1 hnodup).2.2 _ hmem _ List.mem_cons_self rfl
    -- The popped state.
    have hstack₁ : s₁.life.spanStack = e :: (rest ++ below) := hs₁
    have hpop : LifePath env.sink s₁.life { s₁.life with spanStack := rest ++ below } :=
      .single (.unstack s₁.life _ (by rw [hstack₁]; exact List.sublist_cons_self _ _))
    have hinv₁ := hinv.path hp₁
    have hnd₁ := hinv₁.stack_nodup
    rw [hstack₁, List.map_cons, List.nodup_cons] at hnd₁
    have hlive : s₁.life.Live e.entry := hinv₁.stack_live e (by rw [hstack₁]; simp)
    refine (wp_unwindEntry env e reason (s := { s₁ with spanStack := rest ++ below })
      (hinv₁.path hpop) hd₁ hlive hnd₁.1).mono (fun _ s₂ h₂ => ?_)
      fun _ _ h => (hp₁.trans hpop).trans h
    obtain ⟨hp₂, hs₂, hd₂, he₂, hc₂⟩ := h₂
    refine ⟨hs₂, (hp₁.trans hpop).trans hp₂, hd₂, done ++ [e], by simp, ?_, fun i hi => ?_⟩
    · have hsame : s₁.life.endedBy e = s.life.endedBy e := by
        unfold Lifecycle.endedBy
        split
        · rename_i i _ hentry
          rw [hc₁ i]
          exact hentry ▸ hoff
        · rfl
      rw [he₂, he₁, show ({ s₁ with spanStack := rest ++ below } : St).life.endedBy e =
        s₁.life.endedBy e from rfl, hsame, Env.errorsAfter_append]
      simp [Lifecycle.endedSerials]
    · rw [List.map_append, List.mem_append, not_or] at hi
      rw [hc₂ i fun heq => hi.2 (by simp [heq])]
      exact hc₁ i hi.1
  · obtain ⟨hs, hp, hd', done, habove, he, hc⟩ := h
    rw [List.append_nil] at habove
    subst habove
    exact ⟨hp, hs, hd', he, hc⟩

end PostgresOtel
