import PostgresOtel.Producer.Handles

/-!
# Calls with handles of open spans

What a call does exactly when its handle names an open span, its span is on top of the active stack or
off it, and it is not refused: it counts no misuse, and an end dispatches the one span it is for.
-/

set_option autoImplicit false

namespace PostgresOtel

open Exec

variable (env : Env) {α β : Type}

/-! ## The counts of misuse -/

/-- The counters that only a mistake of a caller moves. -/
structure Misuse where
  staleHandle : ℕ
  nonLifoEnd : ℕ
  unwound : ℕ
  activateNotDetached : ℕ
  activateAlreadyActive : ℕ
  deactivateNotActive : ℕ
  activationUnwound : ℕ
  deriving DecidableEq

def St.misuse (s : St) : Misuse where
  staleHandle := s.counters.staleHandle
  nonLifoEnd := s.counters.nonLifoEnd
  unwound := s.counters.unwound
  activateNotDetached := s.counters.activateNotDetached
  activateAlreadyActive := s.counters.activateAlreadyActive
  deactivateNotActive := s.counters.deactivateNotActive
  activationUnwound := s.counters.activationUnwound

/-- The counts that are no part of the life cycle state. -/
def St.lookups (s : St) : ℕ × ℕ × ℕ × ℕ :=
  (s.counters.staleHandle, s.counters.activateNotDetached, s.counters.activateAlreadyActive,
    s.counters.deactivateNotActive)

/-- Those in the life cycle state. -/
def Lifecycle.unwinds (c : Lifecycle) : ℕ × ℕ × ℕ := (c.nonLifoEnd, c.unwound, c.activationUnwound)

theorem misuse_eq {s s' : St} (hlookups : s'.lookups = s.lookups)
    (hunwinds : s'.life.unwinds = s.life.unwinds) : s'.misuse = s.misuse := by
  simp only [St.lookups, Prod.mk.injEq] at hlookups
  simp only [Lifecycle.unwinds, St.life, Prod.mk.injEq] at hunwinds
  simp only [St.misuse, hlookups, hunwinds]

/-! ## Calls that look nothing up -/

/-- No lookup is counted and no span dispatched. -/
structure Silent (s s' : St) : Prop where
  lookups : s'.lookups = s.lookups
  dispatches : s'.dispatches = s.dispatches

instance : Std.Refl Silent := ⟨fun _ => ⟨rfl, rfl⟩⟩

instance : IsTrans St Silent :=
  ⟨fun _ _ _ h h' => ⟨h'.lookups.trans h.lookups, h'.dispatches.trans h.dispatches⟩⟩

theorem Silent.of_shape {s s' : St} (h : s'.shape = s.shape) : Silent s s' where
  lookups := by
    refine Prod.ext (congrArg Shape.staleHandle h) (Prod.ext (congrArg Shape.activateNotDetached h)
      (Prod.ext (congrArg Shape.activateAlreadyActive h) (congrArg Shape.deactivateNotActive h)))
  dispatches := congrArg (fun sh : Shape => sh.core.2.2.1) h

theorem Tame.silent {x : M α} (h : Tame x) : Within Silent x := fun s =>
  (h s).mono (fun _ _ hs => .of_shape hs) fun _ _ hf => hf.elim

theorem silent_modify {f : St → St}
    (h : ∀ s, (f s).lookups = s.lookups ∧ (f s).dispatches = s.dispatches) :
    Within Silent (modify f : M PUnit) := within_modify fun s => ⟨(h s).1, (h s).2⟩

theorem silent_count {f : OtelApiCounters → OtelApiCounters}
    (h : ∀ c, (f c).staleHandle = c.staleHandle ∧ (f c).activateNotDetached = c.activateNotDetached ∧
      (f c).activateAlreadyActive = c.activateAlreadyActive ∧
      (f c).deactivateNotActive = c.deactivateNotActive) :
    Within Silent (modifyCounters f) := silent_modify fun s => by
  obtain ⟨h₁, h₂, h₃, h₄⟩ := h s.counters
  exact ⟨by simp [St.lookups, h₁, h₂, h₃, h₄], rfl⟩

theorem silent_runIf {c : Prop} [Decidable c] {x : M Unit} (h : Within Silent x) :
    Within Silent (runIf c x) := .ite h (within_pure _)

theorem silent_raiseError (edata : ErrorData) : Within Silent (raiseError edata : M α) :=
  .bind (silent_modify fun _ => ⟨rfl, rfl⟩) fun _ => within_throw _

theorem silent_pgTry {body handler : M α} (hb : Within Silent body) (hh : Within Silent handler) :
    Within Silent (pgTry body handler) := by
  refine .tryCatch hb fun e => ?_
  cases e with
  | error => exact hh
  | fatal => exact within_throw _

theorem silent_modifySlot (i : ℕ) (f : OtelSlot → OtelSlot) : Within Silent (modifySlot i f) :=
  silent_modify fun _ => ⟨rfl, rfl⟩

theorem silent_forgetSlot (i : ℕ) (slot : OtelSlot) : Within Silent (forgetSlot env i slot) := by
  unfold forgetSlot resourceOwnerForget
  cases slot.owner with
  | none => exact within_pure _
  | some owner =>
    exact .bind within_get fun _ => .ite (silent_raiseError _) (silent_modify fun _ => ⟨rfl, rfl⟩)

theorem silent_releaseSlot (i : ℕ) (byOwner : Bool) (fate : Fate) :
    Within Silent (releaseSlot env i byOwner fate) := by
  unfold releaseSlot
  refine .bind within_get fun s => .bind (silent_runIf (silent_forgetSlot env i _)) fun _ => ?_
  exact .bind (silent_runIf (silent_modify fun _ => ⟨rfl, rfl⟩)) fun _ =>
    silent_modify fun _ => ⟨rfl, rfl⟩

/-! ### Starts -/

theorem silent_seedPrngIfNeeded : Within Silent (seedPrngIfNeeded env) :=
  .bind within_get fun _ => .ite (within_pure _) (silent_modify fun _ => ⟨rfl, rfl⟩)

theorem silent_takeSlot : Within Silent (takeSlot env) := by
  have hfree : Within Silent takeFreeSlot := by
    unfold takeFreeSlot
    refine .bind within_get fun s => .ite ?_ (.ite ?_ (within_pure _))
    · exact .bind (silent_modify fun _ => ⟨rfl, rfl⟩) fun _ => within_pure _
    · exact .bind (silent_modify fun _ => ⟨rfl, rfl⟩) fun _ => within_pure _
  unfold takeSlot
  refine .bind hfree fun taken => ?_
  cases taken with
  | none => exact within_pure _
  | some i =>
    refine .bind within_get fun s => .ite (within_pure _) (.bind (silent_pgTry ?_ ?_) fun _ =>
      within_pure _)
    · exact .ite (silent_raiseError _) (silent_modifySlot _ _)
    · exact .bind (silent_modify fun _ => ⟨rfl, rfl⟩) fun _ => within_throw _

theorem silent_fillSpan (i : ℕ) (args : OtelSpanStartArgs) (name : CString) (p : ResolvedParent)
    (d : StartDecision) : Within Silent (fillSpan env i args name p d) := by
  have hinherit (id : OtelSpanId) (tracestate : Option CString) :
      Within Silent (inheritFrom env i id tracestate) :=
    .bind (silent_modifySlot _ _) fun _ => .bind (tame_copyField env i _ _).silent fun _ =>
      silent_modifySlot _ _
  have hparent : Within Silent (fillParent env i p) := by
    unfold fillParent
    refine .bind within_get fun s => ?_
    cases p with
    | slot j => exact hinherit _ _
    | remote ctx => exact hinherit _ _
    | nrec j => exact within_pure _
    | none => exact within_pure _
  unfold fillSpan
  refine .bind (silent_modifySlot _ _) fun _ => .bind (tame_ask _).silent fun _ => ?_
  refine .bind (silent_modifySlot _ _) fun _ => .bind hparent fun _ => ?_
  refine .bind (silent_modifySlot _ _) fun _ => .bind (tame_slotStrdup env i _ _).silent fun _ => ?_
  exact .bind (tame_timeOrNow env _).silent fun _ => silent_modifySlot _ _

theorem silent_ensurePool : Within Silent (ensurePool env) := by
  have hcxt : Within Silent (createPoolContext env) :=
    .ite (silent_raiseError _) (silent_modify fun _ => ⟨rfl, rfl⟩)
  unfold ensurePool allocNoOom
  refine .bind within_get fun _ => .ite (within_pure _) (.bind (silent_runIf hcxt) fun _ => ?_)
  refine .bind (tame_ask _).silent fun _ => .bind (silent_modify fun _ => ⟨rfl, rfl⟩) fun _ => ?_
  exact within_pure _

theorem silent_startRecording (args : OtelSpanStartArgs) (name : CString) (p : ResolvedParent)
    (d : StartDecision) : Within Silent (startRecording env args name p d) := by
  have hcount {f : OtelApiCounters → OtelApiCounters} {ref : OtelSpanRef}
      (h : Within Silent (modifyCounters f)) :
      Within Silent (modifyCounters f >>= fun _ => pure ref) := .bind h fun _ => within_pure _
  have hopen (i : ℕ) (owner : Option ResourceOwner) :
      Within Silent (openTakenSlot env i args name p d owner) := by
    unfold openTakenSlot nextGen
    refine .bind (.bind within_get fun _ => .bind (silent_modify fun _ => ⟨rfl, rfl⟩) fun _ =>
      within_pure _) fun _ => ?_
    refine .bind within_get fun _ => .bind (silent_modifySlot _ _) fun _ => ?_
    refine .bind (silent_fillSpan env i args name p d) fun _ => ?_
    refine .bind (silent_runIf (silent_modify fun _ => ⟨rfl, rfl⟩)) fun _ => .bind ?_ fun _ =>
      hcount (silent_count fun _ => ⟨rfl, rfl, rfl, rfl⟩)
    cases owner <;> exact silent_modify fun _ => ⟨rfl, rfl⟩
  unfold startRecording
  refine .bind within_get fun s => .ite (hcount (silent_count fun _ => ⟨rfl, rfl, rfl, rfl⟩)) ?_
  refine .ite (hcount (silent_count fun _ => ⟨rfl, rfl, rfl, rfl⟩)) ?_
  refine .bind (silent_ensurePool env) fun _ => ?_
  refine .ite (hcount (silent_count fun _ => ⟨rfl, rfl, rfl, rfl⟩)) ?_
  refine .bind (.bind (silent_runIf (silent_raiseError _)) fun _ =>
    silent_runIf (silent_raiseError _)) fun _ => .bind (silent_takeSlot env) fun taken => ?_
  cases taken with
  | none => exact hcount (silent_count fun _ => ⟨rfl, rfl, rfl, rfl⟩)
  | some i => exact hopen i _

theorem silent_startNrec (args : OtelSpanStartArgs) (traceId : OtelTraceId) (flags : TraceFlags) :
    Within Silent (startNrec env args traceId flags) := by
  have hfull : Within Silent (modifyCounters (fun c : OtelApiCounters =>
      { c with startStackFull := c.startStackFull + 1 }) >>= fun _ => pure otelSpanNone) :=
    .bind (silent_count fun _ => ⟨rfl, rfl, rfl, rfl⟩) fun _ => within_pure _
  have htake : Within Silent takeNrec := by
    unfold takeNrec
    refine .bind within_get fun s => .ite ?_ (.ite ?_ (within_pure _))
    · exact .bind (silent_modify fun _ => ⟨rfl, rfl⟩) fun _ => within_pure _
    · exact .bind (silent_modify fun _ => ⟨rfl, rfl⟩) fun _ => within_pure _
  unfold startNrec nextGen
  refine .bind within_get fun s => .ite hfull (.bind htake fun taken => ?_)
  cases taken with
  | none => exact hfull
  | some i =>
    refine .bind (.bind within_get fun _ => .bind (silent_modify fun _ => ⟨rfl, rfl⟩) fun _ =>
      within_pure _) fun _ => ?_
    refine .bind (silent_modify fun _ => ⟨rfl, rfl⟩) fun _ => ?_
    refine .bind (silent_runIf (silent_modify fun _ => ⟨rfl, rfl⟩)) fun _ => ?_
    exact .bind (silent_count fun _ => ⟨rfl, rfl, rfl, rfl⟩) fun _ => within_pure _

/-- The handle is null or names a place. -/
def Lifecycle.Names (c : Lifecycle) (ref : OtelSpanRef) : Prop :=
  ref.v = 0 ∨ ∃ e, c.entryOf ref = some e

theorem Lifecycle.Names.slot {c : Lifecycle} {ref : OtelSpanRef} (h : c.Names ref) (hv : 0 < ref.v) :
    ∃ i, c.slotOf ref = some i := by
  obtain ⟨e, he⟩ := h.resolve_left (by omega)
  rw [Lifecycle.entryOf, if_pos hv] at he
  obtain ⟨i, hi, -⟩ := Option.map_eq_some_iff.1 he
  exact ⟨i, hi⟩

theorem Lifecycle.Names.nrec {c : Lifecycle} {ref : OtelSpanRef} (h : c.Names ref) (hv : ref.v < 0) :
    ∃ i, c.nrecOf ref = some i := by
  obtain ⟨e, he⟩ := h.resolve_left (by omega)
  rw [Lifecycle.entryOf, if_neg (by omega)] at he
  obtain ⟨i, hi, -⟩ := Option.map_eq_some_iff.1 he
  exact ⟨i, hi⟩

theorem wp_slotForRef_names {ref : OtelSpanRef} {Q : Option ℕ → St → Prop} {E : Exn → St → Prop}
    {s : St} (h : s.life.Names ref) (hv : 0 < ref.v)
    (hQ : ∀ i, s.life.slotOf ref = some i → Q (some i) s) : Wp (slotForRef ref) Q E s := by
  obtain ⟨i, hi⟩ := h.slot hv
  refine wp_slotForRef_cases hv hQ fun hno => ?_
  rw [hi] at hno
  cases hno

theorem wp_nrecForRef_names {ref : OtelSpanRef} {Q : Option ℕ → St → Prop} {E : Exn → St → Prop}
    {s : St} (h : s.life.Names ref) (hv : ref.v < 0)
    (hQ : ∀ i, s.life.nrecOf ref = some i → Q (some i) s) : Wp (nrecForRef ref) Q E s := by
  obtain ⟨i, hi⟩ := h.nrec hv
  refine wp_nrecForRef_cases (by omega) hQ fun hno => ?_
  rw [hi] at hno
  cases hno

theorem wp_silent {x : M α} (h : Within Silent x) {s₀ s : St} (hs : Silent s₀ s) :
    Wp x (fun _ s' => Silent s₀ s') (fun _ s' => Silent s₀ s') s :=
  (h s).mono (fun _ _ h' => IsTrans.trans _ _ _ hs h') fun _ _ h' => IsTrans.trans _ _ _ hs h'

/-- A start whose explicit parent is null or open. -/
theorem silent_apiSpanStart {args : OtelSpanStartArgs} {s : St}
    (hparent : args.parent = .span → s.life.Names args.parentSpan) :
    Wp (apiSpanStart env (some args)) (fun _ s' => Silent s s') (fun _ s' => Silent s s') s := by
  have hbad : Within Silent countBadArgs :=
    .bind (silent_count fun _ => ⟨rfl, rfl, rfl, rfl⟩) fun _ => within_pure _
  have hresolve {s₁ : St} (hlife : s₁.life = s.life) :
      Wp (resolveParent env args) (fun _ s' => Silent s₁ s') (fun _ s' => Silent s₁ s') s₁ := by
    unfold resolveParent
    cases hmode : args.parent with
    | active =>
      exact Within.bind (tame_resolveActiveParent env).silent (fun _ => within_pure _) s₁
    | root => exact within_pure _ s₁
    | context =>
      cases args.parentCtx with
      | none => exact within_pure _ s₁
      | some ctx => exact Within.ite (within_pure _) (within_pure _) s₁
    | span =>
      have hnames : s₁.life.Names args.parentSpan := hlife ▸ hparent hmode
      dsimp only
      rw [wp_ite]
      refine ⟨fun hv => ?_, fun _ => ?_⟩
      · rw [wp_bind]
        exact wp_slotForRef_names hnames hv fun _ _ => Std.Refl.refl s₁
      · rw [wp_ite]
        refine ⟨fun hv => ?_, fun _ => Std.Refl.refl s₁⟩
        rw [wp_bind]
        exact wp_nrecForRef_names hnames hv fun _ _ => Std.Refl.refl s₁
  unfold apiSpanStart
  rw [wp_bind]
  refine (tame_callRefused env false s).mono (fun r s₁ h₁ => ?_) fun _ _ hf => hf.elim
  have hs₁ : Silent s s₁ := .of_shape h₁
  have hlife₁ : s₁.life = s.life := congrArg (fun sh : Shape => sh.core.1) h₁
  rw [wp_ite]
  refine ⟨fun _ => hs₁, fun _ => ?_⟩
  dsimp only
  cases (if args.structSizeOk then args.name else none) with
  | none => exact wp_silent hbad hs₁
  | some name =>
    dsimp only
    rw [wp_bind]
    refine ((silent_seedPrngIfNeeded env s₁).and (quiet_seedPrngIfNeeded env s₁)).mono
      (fun _ s₂ h₂ => ?_) fun _ _ hf => hf.2.elim
    have hs₂ : Silent s s₂ := IsTrans.trans _ _ _ hs₁ h₂.1
    rw [wp_bind]
    refine (hresolve ((St.core_eq h₂.2).1.trans hlife₁)).mono (fun parent s₃ h₃ => ?_)
      fun _ _ h₃ => IsTrans.trans _ _ _ hs₂ h₃
    have hs₃ : Silent s s₃ := IsTrans.trans _ _ _ hs₂ h₃
    cases parent with
    | none => exact wp_silent hbad hs₃
    | some p =>
      refine wp_silent (.bind ?_ fun d => .ite ?_ ?_) hs₃
      · exact (tame_decideStart env args p).silent
      · exact silent_startNrec env args _ _
      · exact silent_startRecording env args name p d

/-! ### Contexts and hooks -/

/-- Every entry of the active stack is the one of some handle. -/
def Lifecycle.StackNamed (c : Lifecycle) : Prop :=
  ∀ x ∈ c.spanStack, ∃ ref, 0 < refGen ref ∧ c.entryOf ref = some x.entry

theorem Lifecycle.slotOf_makeRef {c : Lifecycle} {ref : OtelSpanRef} {i : ℕ}
    (h : c.entryOf ref = some (.slot i)) :
    c.slotOf (makeRef (c.slots.cell i).gen i true) = some i := by
  unfold Lifecycle.entryOf at h
  split_ifs at h with hv
  · obtain ⟨j, hj, heq⟩ := Option.map_eq_some_iff.1 h
    obtain rfl : j = i := by
      injection heq
    unfold Lifecycle.slotOf at hj
    split_ifs at hj with hc
    obtain rfl := Option.some.inj hj
    have hlt : refIdx ref < 2 ^ 32 := Nat.mod_lt _ (by decide)
    unfold Lifecycle.slotOf
    rw [refIdx_makeRef hlt, refGen_makeRef hlt, if_pos ⟨hc.1, rfl⟩]
  · obtain ⟨j, -, heq⟩ := Option.map_eq_some_iff.1 h
    cases heq

theorem silent_nrecContext (i : ℕ) : Within Silent (nrecContext env i) := by
  unfold nrecContext
  refine .bind within_get fun s => .ite (within_pure _) ?_
  refine .bind (silent_seedPrngIfNeeded env) fun _ => .bind (tame_ask _).silent fun _ => ?_
  exact .bind (silent_modify fun _ => ⟨rfl, rfl⟩) fun _ => .bind within_get fun _ => within_pure _

theorem silent_contextOfHandle {ref : OtelSpanRef} {s : St} (h : s.life.Names ref)
    (hv : ref.v ≠ 0) : Wp (contextOfHandle env ref) (fun _ s' => Silent s s')
      (fun _ s' => Silent s s') s := by
  unfold contextOfHandle
  rw [wp_ite]
  refine ⟨fun hpos => ?_, fun hpos => ?_⟩
  · rw [wp_bind]
    exact wp_slotForRef_names h hpos fun i _ =>
      Within.bind within_get (fun _ => within_pure _) s
  · rw [wp_bind]
    exact wp_nrecForRef_names h (by omega) fun i _ =>
      Within.bind (silent_nrecContext env i) (fun _ => within_pure _) s

theorem silent_apiSpanContextOf {ref : OtelSpanRef} {s : St} (h : s.life.Names ref)
    (hstack : s.life.StackNamed) :
    Wp (apiSpanContextOf env ref) (fun _ s' => Silent s s') (fun _ s' => Silent s s') s := by
  unfold apiSpanContextOf otelSpanContextOfInternal
  rw [wp_bind]
  refine wp_callRefused_cases env (fun c hc => ?_) ?_
  · exact .of_shape hc
  simp only [Bool.false_eq_true, if_false]
  rw [wp_ite]
  refine ⟨fun _ => ?_, fun hv => silent_contextOfHandle env h hv⟩
  rw [wp_bind]
  refine (wp_resolveActiveParent env s).mono (fun p s₁ h₁ => ?_) fun _ _ hf => hf.elim
  obtain ⟨hp, rfl⟩ := h₁
  unfold activeParent at hp
  split at hp
  · rename_i top rest htop
    obtain ⟨ref', hgen, hentry⟩ := hstack top (by rw [htop]; exact List.mem_cons_self)
    subst hp
    cases he : top.entry with
    | slot i =>
      rw [he] at hentry
      have hslot := Lifecycle.slotOf_makeRef hentry
      have hlive := Lifecycle.live_of_entryOf hgen hentry
      have hgen : 0 < (s₁.slots i).gen := Nat.pos_of_ne_zero hlive.2
      have hpos : 0 < (StackRef.handle (s₁.slots i).gen (.slot i)).v :=
        (handle_pos_iff hgen).2 ⟨i, rfl⟩
      simp only [resolveFromEntry]
      rw [wp_bind, wp_get]
      refine silent_contextOfHandle env (.inr ⟨.slot i, ?_⟩) hpos.ne'
      refine (if_pos hpos).trans ?_
      exact congrArg (Option.map StackRef.slot) hslot
    | nrec i => exact Within.bind (silent_nrecContext env i) (fun _ => within_pure _) s₁
  · subst hp
    cases remoteContext env with
    | none => exact within_pure _ s₁
    | some ctx => exact within_pure _ s₁

/-- The emit hooks ask for no context but the active one and those of open spans. -/
def Env.AsksOpen (env : Env) (c : Lifecycle) : Prop :=
  ∀ hook ∈ env.emitHook, ∀ n ref, .contextOf ref ∈ (hook n).acts → c.Names ref

theorem silent_runHookActs {acts : List HookAct} {s : St}
    (h : ∀ ref, .contextOf ref ∈ acts → s.life.Names ref) (hstack : s.life.StackNamed) :
    Wp (runHookActs env acts) (fun _ s' => Silent s s') (fun _ s' => Silent s s') s := by
  induction acts generalizing s with
  | nil => exact within_pure _ s
  | cons act rest ih =>
    have hact : Wp (runHookAct env act) (fun _ s' => Silent s s') (fun _ s' => Silent s s') s := by
      cases act with
      | report edata => exact (tame_otelEmitLogHook env edata).silent s
      | call => exact Within.bind (tame_callRefused env false).silent (fun _ => within_pure _) s
      | contextOf ref =>
        exact Within.bind_at (silent_apiSpanContextOf env (h ref List.mem_cons_self) hstack)
          fun _ => within_pure _
      | catchError => exact ⟨rfl, rfl⟩
    rw [runHookActs, wp_bind]
    refine (hact.and (wp_runHookAct env act s)).mono (fun _ s₁ h₁ => ?_) fun _ _ hf => hf.2.elim
    obtain ⟨hs₁, hlife₁, -⟩ := h₁
    rw [← hlife₁] at h hstack
    exact (ih (fun ref href => h ref (List.mem_cons_of_mem _ href)) hstack).mono
      (fun _ _ h' => IsTrans.trans _ _ _ hs₁ h') fun _ _ h' => IsTrans.trans _ _ _ hs₁ h'

/-! ### Dispatches -/

/-- Besides, every handle names what it did, and spans keep what they are known by. -/
structure Steady (s s' : St) : Prop extends Silent s s' where
  named : s'.life.entryOf = s.life.entryOf
  stack : s'.spanStack = s.spanStack
  identity : ∀ i, (s'.slots i).span.identity = (s.slots i).span.identity

instance : Std.Refl Steady := ⟨fun _ => ⟨⟨rfl, rfl⟩, rfl, rfl, fun _ => rfl⟩⟩

instance : IsTrans St Steady := ⟨fun _ _ _ h h' =>
  ⟨IsTrans.trans _ _ _ h.toSilent h'.toSilent, h'.named.trans h.named, h'.stack.trans h.stack,
    fun i => (h'.identity i).trans (h.identity i)⟩⟩

theorem Tame.steady {x : M α} (h : Tame x) : Within Steady x := fun s =>
  (h s).mono (fun _ _ hs => by
    have hlife := congrArg (fun sh : Shape => sh.core.1) hs
    exact ⟨.of_shape hs, congrArg Lifecycle.entryOf hlife, congrArg Lifecycle.spanStack hlife,
      fun i => congrFun (congrArg Shape.identity hs) i⟩) fun _ _ hf => hf.elim

theorem steady_modifySlot {i : ℕ} {f : OtelSlot → OtelSlot}
    (h : ∀ slot, (f slot).gen = slot.gen ∧ (f slot).span.identity = slot.span.identity) :
    Within Steady (modifySlot i f) := within_modify fun s => by
  have hcell (j : ℕ) : (Function.update s.slots i (f (s.slots i)) j).gen = (s.slots j).gen ∧
      (Function.update s.slots i (f (s.slots i)) j).span.identity =
        (s.slots j).span.identity := by
    by_cases hj : j = i
    · subst hj
      rw [Function.update_self]
      exact h _
    · rw [Function.update_of_ne hj]
      exact ⟨rfl, rfl⟩
  refine ⟨⟨rfl, rfl⟩, funext fun ref => if_congr Iff.rfl ?_ rfl, rfl, fun j => (hcell j).2⟩
  refine congrArg (Option.map StackRef.slot) (if_congr (and_congr_right fun _ => ?_) rfl rfl)
  exact iff_of_eq (congrArg (fun g => g = refGen ref) (hcell _).1)

theorem Steady.asks {env : Env} {s s' : St} (h : Steady s s') (hasks : env.AsksOpen s.life) :
    env.AsksOpen s'.life := fun hook hhook n ref href => by
  have hnames := hasks hook hhook n ref href
  unfold Lifecycle.Names at hnames ⊢
  rw [h.named]
  exact hnames

theorem Steady.stackNamed {s s' : St} (h : Steady s s') (hstack : s.life.StackNamed) :
    s'.life.StackNamed := fun x hx => by
  rw [h.named]
  have hmem : x ∈ s'.spanStack := hx
  rw [h.stack] at hmem
  exact hstack x hmem

/-- A dispatch logs the span, and no hook counts a stale handle. -/
theorem wp_dispatchSpan_log (serial : ℕ) (span : OtelSpan) {s : St} (hasks : env.AsksOpen s.life)
    (hstack : s.life.StackNamed) :
    Wp (dispatchSpan env serial span)
      (fun _ s' => s'.lookups = s.lookups ∧
        s'.dispatches = s.dispatches ++ [⟨serial, span, env.sinks⟩]) (fun _ _ => True) s := by
  have hlog (s' : St) (h : Silent { s with
      dispatches := s.dispatches ++ [⟨serial, span, env.sinks⟩] } s') : s'.lookups = s.lookups ∧
      s'.dispatches = s.dispatches ++ [⟨serial, span, env.sinks⟩] := ⟨h.lookups, h.dispatches⟩
  have hcall (s₁ : St) (h₁ : s₁.life.entryOf = s.life.entryOf) (hst : s₁.spanStack = s.spanStack) :
      Wp (callEmitHook env serial span) (fun _ s' => Silent s₁ s') (fun _ s' => Silent s₁ s') s₁ := by
    unfold callEmitHook runEmitHook
    cases hhook : env.emitHook with
    | none => exact within_pure _ s₁
    | some hook =>
      rw [wp_bind, reachSink, wp_modify]
      refine Wp.mono (Within.bind_at (silent_runHookActs env (fun ref href => ?_) fun x hx => ?_)
        fun _ => ?_) (fun _ s' h' => ⟨h'.lookups, h'.dispatches⟩)
        fun _ s' h' => ⟨h'.lookups, h'.dispatches⟩
      · have hnames := hasks hook hhook serial ref href
        unfold Lifecycle.Names at hnames ⊢
        rw [← h₁] at hnames
        exact hnames
      · have hmem : x ∈ s₁.spanStack := hx
        rw [hst] at hmem
        have hnamed := hstack x hmem
        rw [← h₁] at hnamed
        exact hnamed
      · cases (hook serial).finish with
        | returns => exact within_pure _
        | raisesError edata => exact silent_raiseError edata
        | raisesFatal => exact within_throw _
  have hline : Within Silent (otelEmitSpanAsLogLine env serial span) :=
    .ite (silent_raiseError _) (silent_modify fun _ => ⟨rfl, rfl⟩)
  have hrest : Within Silent (do
      runIf (env.emitSpansToLog = true) (otelEmitSpanAsLogLine env serial span)
      modify fun s => { s with dispatchDepth := s.dispatchDepth - 1 }) :=
    .bind (silent_runIf hline) fun _ => silent_modify fun _ => ⟨rfl, rfl⟩
  have hemit (s₁ : St) (h₁ : s₁.life.entryOf = s.life.entryOf) (hst : s₁.spanStack = s.spanStack) :
      Wp (emitSpan env serial span) (fun _ s' => Silent s₁ s') (fun _ s' => Silent s₁ s') s₁ := by
    unfold emitSpan
    rw [wp_bind, wp_modify]
    refine (Within.bind_at (hcall { s₁ with dispatchDepth := s₁.dispatchDepth + 1 } h₁ hst)
      fun _ => hrest).mono (fun _ s' h' => ?_) fun _ s' h' => ?_
    · exact ⟨h'.lookups, h'.dispatches⟩
    · exact ⟨h'.lookups, h'.dispatches⟩
  have hrecover (depth : ℕ) (save : Backend) : Within Silent (recoverDispatch depth save) := by
    unfold recoverDispatch flushErrorState
    refine .bind (silent_modify fun _ => ⟨rfl, rfl⟩) fun _ => ?_
    refine .bind (silent_modify fun _ => ⟨rfl, rfl⟩) fun _ => ?_
    refine .bind (silent_modify fun _ => ⟨rfl, rfl⟩) fun _ => ?_
    exact .bind (silent_modify fun _ => ⟨rfl, rfl⟩) fun _ =>
      silent_count fun _ => ⟨rfl, rfl, rfl, rfl⟩
  have hcount : Within Silent (modifyCounters fun c => { c with spansEmitted := c.spansEmitted + 1 }) :=
    silent_count fun _ => ⟨rfl, rfl, rfl, rfl⟩
  unfold dispatchSpan
  rw [wp_bind, wp_get, wp_bind, wp_modify, wp_ite]
  refine ⟨fun hsink => ?_, fun _ => ⟨rfl, rfl⟩⟩
  rw [wp_bind]
  refine wp_pgTry ((hemit { s with dispatches := s.dispatches ++ [⟨serial, span, env.sinks⟩] } rfl
    rfl).mono (fun _ s₁ h₁ => ?_) fun e s₁ h₁ => ⟨fun _ => ?_, ?_⟩)
  · exact (wp_silent hcount h₁).mono (fun _ s' h' => hlog s' h') fun _ _ _ => trivial
  · refine (wp_silent (hrecover _ _) h₁).mono (fun _ s₂ h₂ => ?_) fun _ _ _ => trivial
    exact (wp_silent hcount h₂).mono (fun _ s' h' => hlog s' h') fun _ _ _ => trivial
  · exact fun _ => trivial

/-- The end of a span that is off the stack dispatches that span, as it is known. -/
theorem wp_endSlot_log (i : ℕ) (endTime : TimestampTz) {s : St} (hasks : env.AsksOpen s.life)
    (hstack : s.life.StackNamed) :
    Wp (endSlot env i endTime false none)
      (fun _ s' => s'.lookups = s.lookups ∧ ∃ d : Dispatch, s'.dispatches = s.dispatches ++ [d] ∧
        d.span.identity = (s.slots i).span.identity ∧ d.sinks = env.sinks) (fun _ _ => True) s := by
  have hforget : Within Steady (forgetOwner env i) := by
    unfold forgetOwner forgetSlot resourceOwnerForget
    refine .bind within_get fun s => .bind ?_ fun _ => steady_modifySlot fun _ => ⟨rfl, rfl⟩
    cases (s.slots i).owner with
    | none => exact within_pure _
    | some owner =>
      refine .bind within_get fun _ => .ite (.bind (within_modify fun s => ?_) fun _ =>
        within_throw _) (within_modify fun s => ?_)
      · exact ⟨⟨rfl, rfl⟩, rfl, rfl, fun _ => rfl⟩
      · exact ⟨⟨rfl, rfl⟩, rfl, rfl, fun _ => rfl⟩
  have hmark : Within Steady (modifySlot i fun slot => { slot with dispatching := true }) :=
    steady_modifySlot fun _ => ⟨rfl, rfl⟩
  have hrelease : Within Silent (do
      modifySlot i fun slot => { slot with dispatching := false }
      releaseSlot env i false .dispatched) :=
    .bind (silent_modifySlot _ _) fun _ => silent_releaseSlot env i false _
  unfold endSlot
  rw [wp_bind]
  refine (hforget s).mono (fun _ s₁ h₁ => ?_) fun _ _ _ => trivial
  rw [wp_bind, wp_runIf]
  refine ⟨(fun hu => by cases hu), fun _ => ?_⟩
  rw [wp_bind]
  refine ((tame_finishSpan env i endTime).steady s₁).mono (fun _ s₂ h₂ => ?_) fun _ _ _ => trivial
  rw [wp_bind]
  refine (hmark s₂).mono (fun _ s₃ h₃ => ?_) fun _ _ _ => trivial
  have hs : Steady s s₃ := IsTrans.trans _ _ _ (IsTrans.trans _ _ _ h₁ h₂) h₃
  rw [wp_bind, wp_get, wp_bind]
  refine (wp_dispatchSpan_log env _ _ (hs.asks hasks) (hs.stackNamed hstack)).mono
    (fun _ s₄ h₄ => ?_) fun _ _ _ => trivial
  refine (hrelease s₄).mono (fun _ s₅ h₅ => ?_) fun _ _ _ => trivial
  refine ⟨h₅.lookups.trans (h₄.1.trans hs.lookups),
    ⟨(s₃.slots i).serial, (s₃.slots i).span, env.sinks⟩, ?_, hs.identity i, rfl⟩
  rw [h₅.dispatches, h₄.2, hs.dispatches]

/-! ## Closing a span -/

/-- Taking the entry of `e`, if it is on top, or not there at all, leaves the rest of the stack. -/
inductive Uncovers (e : StackRef) : List StackEntry → List StackEntry → Prop
  | off (l : List StackEntry) : e ∉ l.map StackEntry.entry → Uncovers e l l
  | top (x : StackEntry) (l : List StackEntry) : x.entry = e → Uncovers e (x :: l) l

/-- One place is freed, and its entry taken off the stack; the rest is as it was. -/
structure Lifecycle.Closes (e : StackRef) (l : List StackEntry) (c c' : Lifecycle) : Prop where
  live : ∀ e', c'.Live e' ↔ c.Live e' ∧ e' ≠ e
  others : ∀ e', e' ≠ e → c'.gen e' = c.gen e' ∧ c'.detached e' = c.detached e'
  stack : c'.spanStack = l
  unwinds : c'.unwinds = c.unwinds
  depth : c'.dispatchDepth = c.dispatchDepth

section Closes

variable {c c' : Lifecycle} {i : ℕ} {l : List StackEntry}

theorem closes_slot {x : SlotLife} (hslots : c'.slots = c.slots.put i x) (hfree : x.Free)
    (hnrecs : c'.nrecs = c.nrecs) (hstack : c'.spanStack = l) (hunwinds : c'.unwinds = c.unwinds)
    (hdepth : c'.dispatchDepth = c.dispatchDepth) : c.Closes (.slot i) l c' where
  live e' := by
    cases e' with
    | slot j =>
      rw [Lifecycle.Live, Lifecycle.LiveSlot, hslots, Pool.live_put_iff hfree]
      simp [Lifecycle.Live, Lifecycle.LiveSlot, and_comm]
    | nrec j => simp [Lifecycle.Live, Lifecycle.LiveNrec, hnrecs]
  others e' he := by
    cases e' with
    | slot j =>
      have hj : j ≠ i := fun heq => he (heq ▸ rfl)
      simp [Lifecycle.gen, Lifecycle.detached, hslots, Pool.put_cell_of_ne hj]
    | nrec j => simp [Lifecycle.gen, Lifecycle.detached, hnrecs]
  stack := hstack
  unwinds := hunwinds
  depth := hdepth

theorem closes_nrec {x : NrecLife} (hnrecs : c'.nrecs = c.nrecs.put i x) (hfree : x.Free)
    (hslots : c'.slots = c.slots) (hstack : c'.spanStack = l) (hunwinds : c'.unwinds = c.unwinds)
    (hdepth : c'.dispatchDepth = c.dispatchDepth) : c.Closes (.nrec i) l c' where
  live e' := by
    cases e' with
    | nrec j =>
      rw [Lifecycle.Live, Lifecycle.LiveNrec, hnrecs, Pool.live_put_iff hfree]
      simp [Lifecycle.Live, Lifecycle.LiveNrec, and_comm]
    | slot j => simp [Lifecycle.Live, Lifecycle.LiveSlot, hslots]
  others e' he := by
    cases e' with
    | nrec j =>
      have hj : j ≠ i := fun heq => he (heq ▸ rfl)
      simp [Lifecycle.gen, Lifecycle.detached, hnrecs, Pool.put_cell_of_ne hj]
    | slot j => simp [Lifecycle.gen, Lifecycle.detached, hslots]
  stack := hstack
  unwinds := hunwinds
  depth := hdepth

end Closes

section

variable {e : StackRef} {l : List StackEntry} {s : St}

theorem Uncovers.find (h : Uncovers e s.spanStack l) :
    (s.spanStack.findIdx? (fun x => x.entry = e) = none ∧ l = s.spanStack) ∨
      (s.spanStack.findIdx? (fun x => x.entry = e) = some 0 ∧ l = s.spanStack.tail) := by
  generalize s.spanStack = stack at h
  cases h with
  | off _ hoff =>
    refine .inl ⟨?_, rfl⟩
    rw [List.findIdx?_eq_none_iff]
    intro x hx
    simp only [decide_eq_false_iff_not]
    rintro rfl
    exact hoff (List.mem_map_of_mem hx)
  | top x _ hx => exact .inr ⟨by simp [List.findIdx?_cons, hx], rfl⟩

theorem wp_popEnded_uncovers (what : String) {Q : Unit → St → Prop} {E : Exn → St → Prop}
    (h : Uncovers e s.spanStack l) (hQ : Q () { s with spanStack := l }) :
    Wp (popEnded env e what) Q E s := by
  unfold popEnded stackFind
  rw [wp_bind, wp_bind, wp_get, wp_pure]
  rcases h.find with ⟨hf, rfl⟩ | ⟨hf, rfl⟩
  · rw [hf]
    exact hQ
  · rw [hf]
    unfold popEntryAt stackPop
    rw [wp_bind, wp_runIf]
    exact ⟨fun hne => absurd rfl hne, fun _ => hQ⟩

theorem wp_stackRemove_uncovers {Q : Unit → St → Prop} {E : Exn → St → Prop}
    (h : Uncovers e s.spanStack l) (hQ : Q () { s with spanStack := l }) :
    Wp (stackRemove e) Q E s := by
  unfold stackRemove stackFind
  rw [wp_bind, wp_bind, wp_get, wp_pure]
  rcases h.find with ⟨hf, rfl⟩ | ⟨hf, rfl⟩
  · rw [hf]
    exact hQ
  · rw [hf]
    unfold stackRemoveAt
    rw [wp_modify, List.eraseIdx_zero]
    exact hQ

/-- A call is not refused outside of critical sections and emit hooks. -/
theorem wp_callRefused_calm {readOnly : Bool} {Q : Bool → St → Prop} {E : Exn → St → Prop}
    (hcrit : env.critSectionCount = 0) (hdepth : s.dispatchDepth = 0) (hQ : Q false s) :
    Wp (callRefused env readOnly) Q E s := by
  unfold callRefused
  rw [wp_bind, wp_get, wp_ite]
  refine ⟨fun hc => absurd hcrit hc, fun _ => ?_⟩
  rw [wp_ite]
  exact ⟨fun hd => absurd hd.1 (by omega), fun _ => hQ⟩

/-- A call that is not refused is made outside of emit hooks. -/
theorem wp_callRefused_depth {Q : Bool → St → Prop} {E : Exn → St → Prop}
    (hrefused : ∀ c : OtelApiCounters, ({ s with counters := c } : St).shape = s.shape →
      Q true { s with counters := c }) (hpass : s.dispatchDepth = 0 → Q false s) :
    Wp (callRefused env false) Q E s := by
  unfold callRefused
  rw [wp_bind, wp_get, wp_ite]
  refine ⟨fun _ => hrefused _ rfl, fun _ => ?_⟩
  rw [wp_ite]
  refine ⟨fun _ => hrefused _ rfl, fun hd => hpass ?_⟩
  simpa using hd

end

/-! ## Handles of open spans -/

/-- The handle is the one of the open span at `e`. -/
structure Lifecycle.Holds (c : Lifecycle) (ref : OtelSpanRef) (e : StackRef) : Prop where
  live : c.Live e
  handle : ref = e.handle (c.gen e)

/-- The pools, the stack and the free slots are in order. -/
structure St.Ready (s : St) : Prop where
  pool : PoolInv s.life
  nslots_le : s.nslots ≤ maxOpenSpansMax
  blank : s.Blank

section Holds

variable {ref : OtelSpanRef} {e e' : StackRef} {s : St}

theorem Lifecycle.Holds.gen_pos {c : Lifecycle} (h : c.Holds ref e) : 0 < c.gen e :=
  Nat.pos_of_ne_zero (Lifecycle.live_iff.1 h.live).2

theorem Lifecycle.Holds.ne_none {c : Lifecycle} (h : c.Holds ref e) : ref.v ≠ 0 := fun hv =>
  handle_ne_none (e := e) h.gen_pos (h.handle.symm.trans (congrArg OtelSpanRef.mk hv))

theorem Lifecycle.Holds.pos_iff {c : Lifecycle} (h : c.Holds ref e) :
    0 < ref.v ↔ ∃ i, e = .slot i := by
  rw [h.handle]
  exact handle_pos_iff h.gen_pos

theorem Lifecycle.Holds.neg {c : Lifecycle} {i : ℕ} (h : c.Holds ref (.nrec i)) : ref.v < 0 := by
  have hne := h.ne_none
  have hpos : ¬ 0 < ref.v := fun hv => by
    obtain ⟨j, hj⟩ := h.pos_iff.1 hv
    cases hj
  omega

theorem St.Ready.index_lt (h : s.Ready) (he : s.life.Live e) : e.index < 2 ^ 32 :=
  index_lt_word (h.pool.index_lt h.nslots_le he)

theorem St.Ready.entryOf (h : s.Ready) (he : s.life.Holds ref e) : s.life.entryOf ref = some e := by
  rw [he.handle]
  refine (entryOf_handle (h.index_lt he.live) he.gen_pos).2 ⟨rfl, ?_, rfl⟩
  exact (Lifecycle.live_iff.1 he.live).1

theorem St.Ready.issued (h : s.Ready) (he : s.life.Holds ref e) : ref.Issued := by
  refine .inr ?_
  rw [he.handle, refGen_handle (h.index_lt he.live)]
  exact he.gen_pos

theorem St.Ready.refIdx (h : s.Ready) (he : s.life.Holds ref e) : PostgresOtel.refIdx ref = e.index := by
  rw [he.handle, refIdx_handle (h.index_lt he.live)]

theorem St.Ready.slotOf {i : ℕ} (h : s.Ready) (he : s.life.Holds ref (.slot i)) :
    s.life.slotOf ref = some i := by
  have hentry := h.entryOf he
  rw [Lifecycle.entryOf, if_pos (he.pos_iff.2 ⟨i, rfl⟩)] at hentry
  obtain ⟨j, hj, heq⟩ := Option.map_eq_some_iff.1 hentry
  injection heq with hij
  rw [hj, hij]

theorem St.Ready.nrecOf {i : ℕ} (h : s.Ready) (he : s.life.Holds ref (.nrec i)) :
    s.life.nrecOf ref = some i := by
  have hentry := h.entryOf he
  have hneg := he.neg
  rw [Lifecycle.entryOf, if_neg (by omega)] at hentry
  obtain ⟨j, hj, heq⟩ := Option.map_eq_some_iff.1 hentry
  injection heq with hij
  rw [hj, hij]

theorem St.Ready.stackNamed (h : s.Ready) : s.life.StackNamed := fun x hx => by
  have hlive := h.pool.stack_live x hx
  have hholds : s.life.Holds (x.entry.handle (s.life.gen x.entry)) x.entry := ⟨hlive, rfl⟩
  refine ⟨_, ?_, h.entryOf hholds⟩
  rw [refGen_handle (h.index_lt hlive)]
  exact hholds.gen_pos

end Holds

/-! ## Ends and discards -/

/-- A span is closed: it leaves the stack, and only it is dispatched. -/
structure ClosesSpan (e : StackRef) (l : List StackEntry) (s s' : St) (ds : List Dispatch) : Prop where
  life : s.life.Closes e l s'.life
  lookups : s'.lookups = s.lookups
  dispatches : s'.dispatches = s.dispatches ++ ds
  own : ∀ d ∈ ds, ∃ i, e = .slot i ∧ d.span.identity = (s.slots i).span.identity

section

variable {ref : OtelSpanRef} {e : StackRef} {l : List StackEntry} {s : St}

/-- The entry of a span that is off the stack is freed. -/
theorem wp_freeNrec_closes (i : ℕ) :
    Wp (freeNrec i false) (fun _ s' => ClosesSpan (.nrec i) l s s' []) (fun _ _ => False)
      { s with spanStack := l } := by
  have hsilent : Within Silent (freeNrec i false) := silent_modify fun _ => ⟨rfl, rfl⟩
  have hlife : Wp (freeNrec i false)
      (fun _ s' => s'.life = { s.life with spanStack := l }.freeNrec i (s.nrecs i).ownerReleasedGen)
      (fun _ _ => False) { s with spanStack := l } := wp_freeNrec i false fun _ h _ => h
  refine ((hsilent _).and hlife).mono (fun _ s' h => ?_) fun _ _ h => h.2
  obtain ⟨hsil, hlife⟩ := h
  refine ⟨?_, hsil.lookups, ?_, fun d hd => absurd hd List.not_mem_nil⟩
  · rw [hlife]
    exact closes_nrec rfl rfl rfl rfl rfl rfl
  · rw [hsil.dispatches, List.append_nil]

/-- The slot of a span that is off the stack is freed. -/
theorem wp_releaseSlot_closes (i : ℕ) (fate : Fate) :
    Wp (releaseSlot env i false fate) (fun _ s' => ClosesSpan (.slot i) l s s' [])
      (fun _ _ => True) { s with spanStack := l } := by
  refine ((silent_releaseSlot env i false fate _).and (wp_releaseSlot env i false fate _)).mono
    (fun _ s' h => ?_) fun _ _ _ => trivial
  obtain ⟨hsil, hlife, -⟩ := h
  refine ⟨?_, hsil.lookups, ?_, fun d hd => absurd hd List.not_mem_nil⟩
  · rw [hlife]
    exact closes_slot rfl rfl rfl rfl rfl rfl
  · rw [hsil.dispatches, List.append_nil]

/-- The span is off the stack, and dispatched. -/
theorem wp_endSlot_closes (i : ℕ) (endTime : TimestampTz) (hasks : env.AsksOpen s.life)
    (hstack : ({ s with spanStack := l } : St).life.StackNamed) :
    Wp (endSlot env i endTime false none) (fun _ s' => ∃ ds, ClosesSpan (.slot i) l s s' ds)
      (fun _ _ => True) { s with spanStack := l } := by
  have hasks' : env.AsksOpen ({ s with spanStack := l } : St).life := hasks
  refine ((wp_endSlot_log env i endTime hasks' hstack).and
    (wp_endSlot env i endTime false none _)).mono (fun _ s' h => ?_) fun _ _ _ => trivial
  obtain ⟨⟨hlookups, d, hd, hid, -⟩, hlife, -⟩ := h
  refine ⟨[d], ?_, hlookups, hd, fun d' hd' => ?_⟩
  · rw [hlife]
    exact closes_slot rfl rfl rfl rfl rfl rfl
  · obtain rfl := List.mem_singleton.1 hd'
    exact ⟨i, rfl, hid⟩

/-- A discard is counted. -/
theorem ClosesSpan.discarded {s' : St} {ds : List Dispatch} (h : ClosesSpan e l s s' ds) :
    ClosesSpan e l s { s' with
      counters := { s'.counters with spansDiscarded := s'.counters.spansDiscarded + 1 } } ds :=
  ⟨h.life, h.lookups, h.dispatches, h.own⟩

/-- A call that is not refused, with the handle of an open span. -/
theorem wp_not_refused {α : Type} {x y : M α} {Q : α → St → Prop} {E : Exn → St → Prop}
    (hcrit : env.critSectionCount = 0) (hdepth : s.dispatchDepth = 0) (hv : ref.v ≠ 0)
    (hy : Wp y Q E s) :
    Wp (callRefused env false >>= fun refused =>
      if refused = true ∨ ref.v = 0 then x else y) Q E s := by
  rw [wp_bind]
  refine wp_callRefused_calm env hcrit hdepth ?_
  rw [wp_ite]
  exact ⟨fun h => h.elim (fun hr => by cases hr) fun hr => absurd hr hv, fun _ => hy⟩

/-- What is left of the stack is named as before. -/
theorem Uncovers.stackNamed (hu : Uncovers e s.spanStack l) (h : s.life.StackNamed) :
    ({ s with spanStack := l } : St).life.StackNamed := fun x hx => by
  have hmem : x ∈ s.spanStack := by
    have hx : x ∈ l := hx
    rcases hu.find with ⟨-, rfl⟩ | ⟨-, rfl⟩
    · exact hx
    · exact List.mem_of_mem_tail hx
  exact h x hmem

theorem wp_apiSpanEnd_closes (endTime : TimestampTz) (hready : s.Ready)
    (hcrit : env.critSectionCount = 0) (hdepth : s.dispatchDepth = 0)
    (hasks : env.AsksOpen s.life) (href : s.life.Holds ref e) (hu : Uncovers e s.spanStack l) :
    Wp (apiSpanEnd env ref endTime) (fun _ s' => ∃ ds, ClosesSpan e l s s' ds)
      (fun _ _ => True) s := by
  have hnames : s.life.Names ref := .inr ⟨_, hready.entryOf href⟩
  unfold apiSpanEnd
  refine wp_not_refused env hcrit hdepth href.ne_none ?_
  rw [wp_ite]
  cases e with
  | nrec i =>
    refine ⟨fun hneg => ?_, fun hv => absurd href.neg hv⟩
    rw [wp_bind]
    refine wp_nrecForRef_names hnames hneg fun j hj => ?_
    obtain rfl := Option.some.inj ((hready.nrecOf href).symm.trans hj)
    rw [wp_bind]
    refine wp_popEnded_uncovers env _ hu ?_
    exact (wp_freeNrec_closes i).mono (fun _ _ h => ⟨[], h⟩) fun _ _ h => h.elim
  | slot i =>
    have hpos := href.pos_iff.2 ⟨i, rfl⟩
    refine ⟨fun hneg => absurd hpos (by omega), fun _ => ?_⟩
    rw [wp_bind]
    refine wp_slotForRef_names hnames hpos fun j hj => ?_
    obtain rfl := Option.some.inj ((hready.slotOf href).symm.trans hj)
    rw [wp_bind]
    refine wp_popEnded_uncovers env _ hu ?_
    exact wp_endSlot_closes env i endTime hasks (hu.stackNamed hready.stackNamed)

theorem wp_apiSpanDiscard_closes (hready : s.Ready) (hcrit : env.critSectionCount = 0)
    (hdepth : s.dispatchDepth = 0) (href : s.life.Holds ref e) (hu : Uncovers e s.spanStack l) :
    Wp (apiSpanDiscard env ref) (fun _ s' => ClosesSpan e l s s' []) (fun _ _ => True) s := by
  have hnames : s.life.Names ref := .inr ⟨_, hready.entryOf href⟩
  unfold apiSpanDiscard
  refine wp_not_refused env hcrit hdepth href.ne_none ?_
  rw [wp_ite]
  cases e with
  | nrec i =>
    refine ⟨fun hneg => ?_, fun hv => absurd href.neg hv⟩
    rw [wp_bind]
    refine wp_nrecForRef_names hnames hneg fun j hj => ?_
    obtain rfl := Option.some.inj ((hready.nrecOf href).symm.trans hj)
    rw [wp_bind]
    refine wp_stackRemove_uncovers hu ?_
    rw [wp_bind]
    exact (wp_freeNrec_closes i).mono (fun _ _ h => h.discarded) fun _ _ h => h.elim
  | slot i =>
    have hpos := href.pos_iff.2 ⟨i, rfl⟩
    refine ⟨fun hneg => absurd hpos (by omega), fun _ => ?_⟩
    rw [wp_bind]
    refine wp_slotForRef_names hnames hpos fun j hj => ?_
    obtain rfl := Option.some.inj ((hready.slotOf href).symm.trans hj)
    rw [wp_bind]
    refine wp_stackRemove_uncovers hu ?_
    rw [wp_bind]
    exact (wp_releaseSlot_closes env i .discarded).mono (fun _ _ h => h.discarded) fun _ _ h => h

end

/-! ## Starts -/

theorem StartOutcome.unwinds {c c' : Lifecycle} {detached : Bool} {ref : OtelSpanRef}
    (h : StartOutcome c detached ref c') :
    c'.unwinds = c.unwinds ∧ c'.dispatchDepth = c.dispatchDepth := by
  have hprepared {c c' : Lifecycle} (hp : c.Prepared c') :
      c'.unwinds = c.unwinds ∧ c'.dispatchDepth = c.dispatchDepth := by
    rcases hp with rfl | ⟨-, n, ok, rfl⟩ <;> exact ⟨rfl, rfl⟩
  have hpush (c : Lifecycle) (e : StackRef) : (c.pushUnless detached e).unwinds = c.unwinds ∧
      (c.pushUnless detached e).dispatchDepth = c.dispatchDepth := by
    unfold Lifecycle.pushUnless
    split_ifs <;> exact ⟨rfl, rfl⟩
  cases h with
  | refused c' hp => exact hprepared hp
  | nrec i t n => exact hpush _ _
  | slot c₀ i t l hp =>
    obtain ⟨hu, hd⟩ := hpush (c₀.openSlot t i l) (.slot i)
    exact ⟨hu.trans (hprepared hp).1, hd.trans (hprepared hp).2⟩

/-- Only a start outside of emit hooks opens a span. -/
theorem wp_apiSpanStart_depth (args : Option OtelSpanStartArgs) (s : St) :
    Wp (apiSpanStart env args) (fun ref _ => ref ≠ otelSpanNone → s.dispatchDepth = 0)
      (fun _ _ => True) s := by
  unfold apiSpanStart
  rw [wp_bind]
  refine wp_callRefused_depth env (fun _ _ => ?_) fun hdepth => ?_
  · rw [wp_ite]
    exact ⟨fun _ => fun hne => absurd rfl hne, fun hr => absurd rfl hr⟩
  · exact Wp.of_forall (fun _ _ _ => hdepth) fun _ _ => trivial

/-! ## Calls that neither open nor close a span -/

/-- The handle that a call works on that neither opens nor closes anything. -/
def ProducerOp.worksOn : ProducerOp → Option OtelSpanRef
  | .spanSetStr ref .. | .spanSetInt ref .. | .spanSetDouble ref .. | .spanSetBool ref ..
  | .spanSetVprintf ref .. | .spanSetName ref _ | .spanSetStatus ref .. | .spanAddEvent ref ..
  | .spanAddLink ref _ | .spanRecordError ref _ | .spanCaptureError ref | .spanContextOf ref =>
    some ref
  | .spanCurrent | .emitLog _ => some otelSpanNone
  | _ => none

/-- Open spans change in their data at most. -/
structure Idle (s s' : St) : Prop extends Silent s s' where
  life : s'.life = s.life
  evolves : Evolves .none s s'

section Idle

variable {ref : OtelSpanRef} {s : St}

theorem Tame.idle {x : M α} (h : Tame x) : Wp x (fun _ s' => Idle s s') (fun _ _ => False) s :=
  (h s).mono (fun _ _ hs =>
    ⟨.of_shape hs, congrArg (fun sh : Shape => sh.core.1) hs, .of_shape hs⟩) fun _ _ h => h

theorem Idle.trans {s' s'' : St} (h : Idle s s') (h' : Idle s' s'') : Idle s s'' :=
  ⟨IsTrans.trans _ _ _ h.toSilent h'.toSilent, h'.life.trans h.life, h.evolves.trans h'.evolves⟩

/-- A setter looks its handle up, and finds it. -/
theorem idle_setterSlot (href : s.life.Names ref) :
    Wp (setterSlot env ref) (fun _ s' => Idle s s') (fun _ _ => False) s := by
  unfold setterSlot
  rw [wp_bind]
  refine ((tame_callRefused env false).idle).mono (fun _ s₁ h₁ => ?_) fun _ _ h => h
  rw [wp_ite]
  refine ⟨fun _ => h₁, fun hv => ?_⟩
  rw [not_or] at hv
  exact wp_slotForRef_names (h₁.life ▸ href) (by omega) fun _ _ => h₁

theorem Setter.idle {x : M Unit} (h : Setter env ref x) (href : s.life.Names ref) :
    Wp x (fun _ s' => Idle s s') (fun _ _ => False) s := by
  obtain ⟨f, rfl, hnone, hsome⟩ := h
  rw [wp_bind]
  refine (idle_setterSlot env href).mono (fun slot s₁ h₁ => ?_) fun _ _ h => h
  cases slot with
  | none =>
    rw [hnone]
    exact h₁
  | some i => exact ((hsome i).idle).mono (fun _ _ h₂ => h₁.trans h₂) fun _ _ h => h

theorem idle_apiSpanCaptureError (href : s.life.Names ref) :
    Wp (apiSpanCaptureError env ref) (fun _ s' => Idle s s') (fun _ _ => True) s := by
  unfold apiSpanCaptureError
  rw [wp_bind]
  refine (idle_setterSlot env href).mono (fun slot s₁ h₁ => ?_) fun _ _ _ => trivial
  have hrecord {x : M Unit} (hx : Tame x) : Wp x (fun _ s' => Idle s s') (fun _ _ => True) s₁ :=
    hx.idle.mono (fun _ _ h₂ => h₁.trans h₂) fun _ _ _ => trivial
  cases slot with
  | none => exact h₁
  | some i =>
    dsimp only
    rw [wp_bind, wp_get]
    cases s₁.backend.errorStack with
    | nil => exact trivial
    | cons edata _ =>
      dsimp only
      rw [wp_ite]
      refine ⟨fun _ => hrecord (tame_slotRecordError env i _), fun _ => ?_⟩
      rw [wp_ite]
      exact ⟨fun _ => trivial, fun _ => hrecord (tame_recordCopy env i edata)⟩

theorem idle_apiSpanContextOf (href : s.life.Names ref) (hstack : s.life.StackNamed) :
    Wp (apiSpanContextOf env ref) (fun _ s' => Idle s s') (fun _ _ => True) s := by
  have hev : Within (Evolves .none) (apiSpanContextOf env ref) := evolves_apiSpanContextOf env ref
  refine (((silent_apiSpanContextOf env href hstack).and (quiet_apiSpanContextOf env ref s)).and
    (hev s)).mono (fun _ s' h => ?_) fun _ _ _ => trivial
  exact ⟨h.1.1, (St.core_eq h.1.2).1, h.2⟩

theorem idle_discardResult {x : M α} {E : Exn → St → Prop}
    (h : Wp x (fun _ s' => Idle s s') E s) :
    Wp (discardResult x) (fun _ s' => Idle s s') E s := by
  unfold discardResult
  rw [wp_bind]
  exact h

/-- Such a call, on a handle that is null or open. -/
theorem idle_runOp {op : ProducerOp} (hop : op.worksOn = some ref) (href : s.life.Names ref)
    (hstack : s.life.StackNamed) :
    Wp (runOp env op) (fun _ s' => Idle s s') (fun _ _ => True) s := by
  have hset {x : M Unit} (h : Setter env ref x) :
      Wp x (fun _ s' => Idle s s') (fun _ _ => True) s :=
    (h.idle env href).mono (fun _ _ h => h) fun _ _ _ => trivial
  have htame {x : M Unit} (h : Tame x) : Wp x (fun _ s' => Idle s s') (fun _ _ => True) s :=
    h.idle.mono (fun _ _ h => h) fun _ _ _ => trivial
  cases op <;> simp only [ProducerOp.worksOn, Option.some.injEq, reduceCtorEq] at hop <;> subst hop
  case spanSetStr key val => exact hset (setter_apiSpanSetStr env _ key val)
  case spanSetInt key val => exact hset (setter_setScalar env _ key _)
  case spanSetDouble key val => exact hset (setter_setScalar env _ key _)
  case spanSetBool key val => exact hset (setter_setScalar env _ key _)
  case spanSetVprintf key formatted => exact hset (setter_apiSpanSetVprintf env _ key formatted)
  case spanSetName name => exact hset (setter_apiSpanSetName env _ name)
  case spanSetStatus code text => exact hset (setter_apiSpanSetStatus env _ code text)
  case spanAddEvent name ts attrs => exact hset (setter_apiSpanAddEvent env _ name ts attrs)
  case spanAddLink target => exact hset (setter_apiSpanAddLink env _ target)
  case spanRecordError edata => exact hset (setter_apiSpanRecordError env _ edata)
  case spanCaptureError => exact idle_apiSpanCaptureError env href
  case spanCurrent => exact htame (.bind (tame_apiSpanCurrent env) fun _ => tame_pure _)
  case spanContextOf => exact idle_discardResult (idle_apiSpanContextOf env href hstack)
  case emitLog edata => exact htame (tame_otelEmitLogHook env edata)

end Idle

/-! ## Activations of open spans -/

section Activation

variable {ref : OtelSpanRef} {e : StackRef} {s : St}

/-- The activation of a detached span that is not active is refused, or pushes it. -/
theorem wp_apiSpanActivate_holds (hready : s.Ready) (href : s.life.Holds ref e)
    (hdetached : s.life.detached e = true) (hoff : ¬ s.life.OnStack e) :
    Wp (apiSpanActivate env ref)
      (fun tok s' => (tok = otelActivationNone ∧ Idle s s') ∨
        (tok = e.token (s.life.gen e) ∧ s.dispatchDepth = 0 ∧ Activates env ref e s s'))
      (fun _ _ => False) s := by
  have hentry := hready.entryOf href
  unfold apiSpanActivate
  rw [wp_bind]
  refine wp_callRefused_depth env (fun c hc => ?_) fun hdepth => ?_
  · rw [wp_ite]
    refine ⟨fun _ => .inl ⟨rfl, ?_⟩, fun hr => absurd (.inl rfl) hr⟩
    exact ⟨.of_shape hc, congrArg (fun sh : Shape => sh.core.1) hc, .of_shape hc⟩
  rw [wp_ite]
  refine ⟨fun h => h.elim (fun hr => by cases hr) fun hr => absurd hr href.ne_none, fun _ => ?_⟩
  rw [wp_bind]
  refine wp_activationTarget_cases (fun e' he' => ?_) fun hno => ?_
  · obtain rfl := Option.some.inj (hentry.symm.trans he')
    dsimp only
    rw [wp_ite]
    refine ⟨fun hd => ?_, fun _ => ?_⟩
    · rw [hdetached] at hd
      cases hd
    unfold stackFind
    rw [wp_bind, wp_bind, wp_get, wp_pure, wp_bind, wp_get, wp_ite]
    refine ⟨fun hfind => ?_, fun _ => ?_⟩
    · obtain ⟨pos, hpos⟩ := Option.isSome_iff_exists.1 hfind
      have hon := findIdx_stack s.spanStack e
      rw [hpos] at hon
      obtain ⟨_, _, _, _, _, _, hmem, _⟩ := hon
      exact absurd hmem hoff
    rw [wp_ite]
    refine ⟨fun _ => .inl ⟨rfl, ?_⟩, fun hlt => .inr ⟨rfl, hdepth, ?_⟩⟩
    · exact ⟨⟨rfl, rfl⟩, rfl, .of_same ⟨rfl, rfl, rfl, rfl, rfl, rfl, rfl⟩ (.inl rfl)⟩
    · exact ⟨hentry, hdetached, hoff, Nat.lt_of_not_le hlt, rfl⟩
  · rw [hentry] at hno
    cases hno

/-- A null handle cannot be activated. -/
theorem wp_apiSpanActivate_null (hv : ref.v = 0) :
    Wp (apiSpanActivate env ref) (fun tok s' => tok = otelActivationNone ∧ Idle s s')
      (fun _ _ => False) s := by
  unfold apiSpanActivate
  rw [wp_bind]
  refine ((tame_callRefused env false).idle).mono (fun _ s₁ h₁ => ?_) fun _ _ h => h
  rw [wp_ite]
  exact ⟨fun _ => ⟨rfl, h₁⟩, fun hr => absurd (.inr hv) hr⟩

theorem wp_apiSpanDeactivate_none :
    Wp (apiSpanDeactivate env otelActivationNone) (fun _ s' => Idle s s') (fun _ _ => False) s := by
  unfold apiSpanDeactivate
  rw [wp_bind]
  refine ((tame_callRefused env false).idle).mono (fun _ s₁ h₁ => ?_) fun _ _ h => h
  rw [wp_ite]
  exact ⟨fun _ => h₁, fun hr => absurd (.inr rfl) hr⟩

/-- The deactivation of the span on top pops it. -/
theorem wp_apiSpanDeactivate_top {x : StackEntry} {l : List StackEntry} (hready : s.Ready)
    (hcrit : env.critSectionCount = 0) (hdepth : s.dispatchDepth = 0)
    (href : s.life.Holds ref e) (hstack : s.spanStack = x :: l) (hx : x.entry = e) :
    Wp (apiSpanDeactivate env ⟨ref.v⟩) (fun _ s' => s' = { s with spanStack := l })
      (fun _ _ => False) s := by
  have hentry := hready.entryOf href
  have hfind : s.spanStack.findIdx? (fun x => x.entry = e) = some 0 := by
    simp [hstack, List.findIdx?_cons, hx]
  unfold apiSpanDeactivate
  refine wp_not_refused env hcrit hdepth href.ne_none ?_
  rw [wp_bind]
  refine wp_entryForRef_cases (fun e' he' => ?_) fun hno => ?_
  · obtain rfl := Option.some.inj (hentry.symm.trans he')
    dsimp only
    unfold stackFind
    rw [wp_bind, wp_bind, wp_get, wp_pure, hfind]
    unfold popEntryAt stackPop
    rw [wp_bind, wp_runIf]
    refine ⟨fun hne => absurd rfl hne, fun _ => ?_⟩
    rw [wp_modify, hstack, List.tail_cons]
  · have hno : s.life.entryOf ref = none := hno
    rw [hentry] at hno
    cases hno

end Activation

end PostgresOtel
