import PostgresOtel.Producer.Calls

/-!
# Well-bracketed programs

Programs of producer calls in which every start has its own end or discard and every activation its
own deactivation, one inside the other.  `Bracketed` builds their runs, and says of each span what is
active where it is started, by the brackets alone.  `well_bracketed` says that the active stack agrees
with the brackets, although starts may be refused half way through.
-/

set_option autoImplicit false

namespace PostgresOtel

open Exec

/-! ## What is active -/

/-- What a span started with `OTEL_PARENT_ACTIVE` is started under. -/
inductive Active
  | span (id : SpanIdentity)
  | nonRecording
  | nothing

/-- What the stack says. -/
def St.active (s : St) : Active :=
  match s.spanStack with
  | [] => .nothing
  | top :: _ =>
    match top.entry with
    | .slot i => .span (s.slots i).span.identity
    | .nrec _ => .nonRecording

/-- What the brackets say: the span of the innermost bracket is active, unless its handle is null. -/
def St.activeIn (s : St) (ref : OtelSpanRef) (outer : Active) : Active :=
  if ref.v = 0 then outer
  else if 0 < ref.v then .span (s.slots (refIdx ref)).span.identity
  else .nonRecording

/-- The place of a span started under `a`: below it, or below the remote context if nothing is
active.  Nothing recorded is started under a non-recording span. -/
def Active.Parents (env : Env) (id : SpanIdentity) : Active → Prop
  | .span parent => id.traceId = parent.traceId ∧ id.parentSpanId = parent.spanId
  | .nonRecording => False
  | .nothing =>
    match remoteContext env with
    | some ctx => id.traceId = ctx.traceId ∧ id.parentSpanId = ctx.spanId
    | none => id.parentSpanId = 0

/-! ## Programs -/

/-- How the span of an open bracket stands to the active stack. -/
inductive SpanMode
  | attached
  | detached
  | active
  deriving DecidableEq

/-- The handles of the brackets that are open, innermost first. -/
abbrev Scope := List (OtelSpanRef × SpanMode)

/-- The handle is null, or one of an open bracket. -/
def Scope.Has (scope : Scope) (ref : OtelSpanRef) : Prop := ref.v = 0 ∨ ∃ mode, (ref, mode) ∈ scope

/-- The surroundings of a call, and core's state when it is made. -/
structure Moment where
  env : Env
  backend : Backend
  slots_le : env.maxOpenSpans ≤ maxOpenSpansMax

def St.at (s : St) (m : Moment) : St := { s with backend := m.backend }

/-- The emit hooks ask for the contexts of open brackets only. -/
def Moment.Asks (m : Moment) (scope : Scope) : Prop :=
  ∀ hook ∈ m.env.emitHook, ∀ n ref, .contextOf ref ∈ (hook n).acts → scope.Has ref

/-- The call that closes the bracket of a start. -/
inductive Closing
  | ends (endTime : TimestampTz)
  | discards

def Closing.run (env : Env) (ref : OtelSpanRef) : Closing → M Unit
  | .ends endTime => apiSpanEnd env ref endTime
  | .discards => apiSpanDiscard env ref

def startMode (args : OtelSpanStartArgs) : SpanMode := if args.detached then .detached else .attached

/-- A span dispatched by the call that closes its bracket: the start it belongs to, and what is active
there by the brackets. -/
structure Export where
  dispatch : Dispatch
  args : OtelSpanStartArgs
  env : Env
  active : Active

/-- The dispatches that a call has added. -/
def newDispatches (s s' : St) : List Dispatch := s'.dispatches.drop s.dispatches.length

/-- Runs of properly nested programs, with the spans dispatched in them.  The calls that close a
bracket are made outside of critical sections, where they would be refused. -/
inductive Bracketed : Scope → Active → St → List Export → St → Prop
  | done {scope : Scope} {a : Active} {s : St} : Bracketed scope a s [] s
  | andThen {scope : Scope} {a : Active} {s s₁ s₂ : St} {xs ys : List Export} :
      Bracketed scope a s xs s₁ → Bracketed scope a s₁ ys s₂ → Bracketed scope a s (xs ++ ys) s₂
  | call {scope : Scope} {a : Active} {s s₁ : St} (m : Moment) (op : ProducerOp) {ref : OtelSpanRef} :
      op.worksOn = some ref → scope.Has ref → runOp m.env op (s.at m) = .ok () s₁ →
      Bracketed scope a s [] s₁
  | span {scope : Scope} {a : Active} {s s₁ s₂ s₃ : St} {xs : List Export} (m m' : Moment)
      (args : OtelSpanStartArgs) (closing : Closing) {ref : OtelSpanRef} :
      (args.parent = .span → scope.Has args.parentSpan) →
      apiSpanStart m.env (some args) (s.at m) = .ok ref s₁ →
      Bracketed ((ref, startMode args) :: scope) (if args.detached then a else s₁.activeIn ref a) s₁
        xs s₂ →
      m'.Asks ((ref, startMode args) :: scope) → m'.env.critSectionCount = 0 →
      closing.run m'.env ref (s₂.at m') = .ok () s₃ →
      Bracketed scope a s
        (xs ++ (newDispatches s₂ s₃).map fun d => ⟨d, args, m.env, a⟩) s₃
  | activation {scope outer inner : Scope} {a : Active} {s s₁ s₂ s₃ : St} {xs : List Export}
      (m m' : Moment) {ref : OtelSpanRef} {tok : OtelActivation} :
      scope = inner ++ (ref, .detached) :: outer →
      apiSpanActivate m.env ref (s.at m) = .ok tok s₁ →
      Bracketed (inner ++ (ref, .active) :: outer) (s₁.activeIn ⟨tok.v⟩ a) s₁ xs s₂ →
      m'.env.critSectionCount = 0 → apiSpanDeactivate m'.env tok (s₂.at m') = .ok () s₃ →
      Bracketed scope a s xs s₃

/-! ## What a program leaves alone -/

/-- The counts of misuse and the open spans are as they were. -/
structure Keeps (s s' : St) : Prop where
  misuse : s'.misuse = s.misuse
  depth : s'.dispatchDepth = s.dispatchDepth
  live : ∀ e, s.life.Live e →
    s'.life.Live e ∧ s'.life.gen e = s.life.gen e ∧ s'.life.detached e = s.life.detached e
  identity : ∀ i, s.life.LiveSlot i → (s'.slots i).span.identity = (s.slots i).span.identity

/-- So is the stack. -/
structure Preserves (s s' : St) : Prop extends Keeps s s' where
  stack : s'.spanStack = s.spanStack

theorem Keeps.trans {s s' s'' : St} (h : Keeps s s') (h' : Keeps s' s'') : Keeps s s'' where
  misuse := h'.misuse.trans h.misuse
  depth := h'.depth.trans h.depth
  live e he := by
    obtain ⟨hl, hg, hd⟩ := h.live e he
    obtain ⟨hl', hg', hd'⟩ := h'.live e hl
    exact ⟨hl', hg'.trans hg, hd'.trans hd⟩
  identity i hi := (h'.identity i (h.live (.slot i) hi).1).trans (h.identity i hi)

theorem Preserves.refl (s : St) : Preserves s s :=
  ⟨⟨rfl, rfl, fun _ h => ⟨h, rfl, rfl⟩, fun _ _ => rfl⟩, rfl⟩

theorem Preserves.trans {s s' s'' : St} (h : Preserves s s') (h' : Preserves s' s'') :
    Preserves s s'' := ⟨h.toKeeps.trans h'.toKeeps, h'.stack.trans h.stack⟩

theorem Idle.preserves {s s' : St} (h : Idle s s') : Preserves s s' where
  stack := congrArg Lifecycle.spanStack h.life
  misuse := misuse_eq h.lookups (congrArg Lifecycle.unwinds h.life)
  depth := congrArg Lifecycle.dispatchDepth h.life
  live e he := by
    rw [h.life]
    exact ⟨he, rfl, rfl⟩
  identity i hi := h.evolves.identity i (h.life ▸ hi)

/-- What the stack says only depends on what is left alone. -/
theorem Preserves.active {s s' : St} (h : Preserves s s') (hpool : PoolInv s.life) :
    s'.active = s.active := by
  unfold St.active
  rw [h.stack]
  have hlive := hpool.stack_live
  change ∀ e ∈ s.spanStack, _ at hlive
  cases hs : s.spanStack with
  | nil => rfl
  | cons top rest =>
    have htop := hlive top (by rw [hs]; exact List.mem_cons_self)
    dsimp only
    cases he : top.entry with
    | nrec i => rfl
    | slot i =>
      rw [he] at htop
      exact congrArg Active.span (h.identity i htop)

/-! ## States a program runs in -/

section Ready

variable {env : Env} {s s' : St}

theorem St.Ready.evolves {eff : Effects} (h : s.Ready) (hev : Evolves eff s s')
    (hpool : PoolInv s'.life) (hresized : ∀ n, eff.resized n → n ≤ maxOpenSpansMax) : s'.Ready where
  pool := hpool
  nslots_le := by
    rcases hev.nslots with hn | hn
    · exact hn ▸ h.nslots_le
    · exact hresized _ hn
  blank := hev.blank h.blank

theorem St.Ready.stays (h : s.Ready) (hmax : env.maxOpenSpans ≤ maxOpenSpansMax)
    (hstays : Stays env s s') (hpool : PoolInv s'.life) : s'.Ready :=
  h.evolves hstays hpool fun _ hn => (Nat.le_of_eq hn).trans hmax

/-- Every call keeps the state in order. -/
theorem St.Ready.after (op : ProducerOp) (h : s.Ready) (hvalid : op.Valid s)
    (hmax : env.maxOpenSpans ≤ maxOpenSpansMax) :
    (endState (runOp env op) s).Ready := by
  have hpool : PoolInv (endState (runOp env op) s).life :=
    h.pool.path (((follows_runOp env op h.pool hvalid).mono (fun _ _ h => h.1) fun _ _ h => h).endState)
  have hstep := step_cases env op h.pool
  revert hpool hstep
  generalize endState (runOp env op) s = s'
  intro hpool hstep
  cases hstep with
  | start args ref _ hx hstarted =>
    cases hstarted with
    | refused _ _ hstays _ => exact h.stays hmax hstays hpool
    | opened args p d e s₁ _ _ _ hstays hp hop hknown =>
      have hnslots : s₁.nslots ≤ maxOpenSpansMax := by
        rcases hstays.nslots with hn | hn
        · exact hn ▸ h.nslots_le
        · exact (Nat.le_of_eq hn).trans hmax
      refine ⟨hpool, hop.nslots ▸ hnslots, fun i hu hl => ?_⟩
      -- The slot just opened is not free; the others are as they were.
      have hne : e ≠ .slot i := fun heq => hl (hop.live_iff.2 (.inr heq.symm))
      have hu₁ := ((hop.used _).1 hu).resolve_right hne.symm
      have hopened : s'.life.Live (.slot i) ↔ _ := hop.live_iff
      have hl₁ : ¬ s₁.life.LiveSlot i := fun hlive => hl (hopened.2 (.inl hlive))
      rw [hop.identity i hne]
      exact hstays.blank h.blank i hu₁ hl₁
  | startRaised args e _ hx hstays => exact h.stays hmax hstays hpool
  | activate ref e _ hact =>
    rw [hact.push] at hpool ⊢
    exact ⟨hpool, h.nslots_le, h.blank⟩
  | other _ _ hno hev => exact h.evolves hev hpool fun n hn => by cases op <;> exact hn.elim

theorem ready_init (garbage : ℕ → OtelSlot) : (initSt garbage).Ready :=
  ⟨poolInv_init, Nat.zero_le _, fun _ hu => absurd hu (Nat.not_lt_zero _)⟩

/-- The settings of every call are within their bounds. -/
def Call.Bounded (call : Call) : Prop := call.env.maxOpenSpans ≤ maxOpenSpansMax

theorem reachable_ready {garbage : ℕ → OtelSlot}
    (h : (producer garbage).ReachBy (fun _ call => call.Bounded) s) : s.Ready :=
  h.invariant (ready_init garbage) fun s call hs hvalid hmax => by
    have henter : (s.enter call).Ready := ⟨hs.pool, hs.nslots_le, hs.blank⟩
    exact henter.after call.op ((valid_enter call).2 hvalid) hmax

end Ready

/-! ## Starts -/

/-- A span is opened, and pushed unless it is detached. -/
structure OpensSpan (args : OtelSpanStartArgs) (ref : OtelSpanRef) (e : StackRef) (s s' : St) :
    Prop extends Keeps s s' where
  holds : s'.life.Holds ref e
  free : ¬ s.life.Live e
  calm : s.dispatchDepth = 0
  detached : s'.life.detached e = args.detached
  stack : s'.spanStack = if args.detached then s.spanStack else ⟨e, false, 0⟩ :: s.spanStack

section Start

variable {env : Env} {args : OtelSpanStartArgs} {ref : OtelSpanRef} {s s₁ : St}

theorem Lifecycle.Prepared.place {c c' : Lifecycle} (h : c.Prepared c') (e : StackRef) :
    c'.gen e = c.gen e ∧ c'.detached e = c.detached e := by
  rcases h with rfl | ⟨-, n, ok, rfl⟩
  · exact ⟨rfl, rfl⟩
  · cases e <;> exact ⟨rfl, rfl⟩

theorem keeps_prepared (hstays : Stays env s s₁) (hp : s.life.Prepared s₁.life)
    (hmisuse : s₁.misuse = s.misuse) (hdepth : s₁.dispatchDepth = s.dispatchDepth) :
    Keeps s s₁ where
  misuse := hmisuse
  depth := hdepth
  live e he := ⟨(hp.live e).2 he, (hp.place e).1, (hp.place e).2⟩
  identity i hi := hstays.identity i ((hp.live (.slot i)).2 hi)

theorem keeps_opened {e : StackRef} {s' : St} (hstays : Stays env s s') (hp : s.life.Prepared s'.life)
    (hop : Opens args e s' s₁) (hmisuse : s₁.misuse = s.misuse)
    (hdepth : s₁.dispatchDepth = s.dispatchDepth) : Keeps s s₁ where
  misuse := hmisuse
  depth := hdepth
  live e' he := by
    have hlive := (hp.live e').2 he
    have hne : e' ≠ e := fun heq => hop.free (heq ▸ hlive)
    obtain ⟨hg, hd⟩ := hop.others e' hne
    exact ⟨hop.live_iff.2 (.inl hlive), hg.trans (hp.place e').1, hd.trans (hp.place e').2⟩
  identity i hi := by
    have hlive := (hp.live (.slot i)).2 hi
    have hne : e ≠ .slot i := fun heq => hop.free (heq ▸ hlive)
    exact (hop.identity i hne).trans (hstays.identity i hlive)

/-- A recording span started with the active parent is below what the stack says is active. -/
theorem parents_of_knownBy {p : ResolvedParent} {d : StartDecision} {i : ℕ}
    (hactive : args.parent = .active) (hparent : parentOf env args s.life = some p)
    (hd : Decides env args s p d) (hknown : KnownBy env args s p d s₁ (.slot i)) (hblank : s.Blank)
    (hnew : ¬ s.life.LiveSlot i) (hpool : PoolInv s.life) :
    s.active.Parents env (s₁.slots i).span.identity := by
  have hp : activeParent env s.life = p := by
    unfold parentOf at hparent
    rw [hactive] at hparent
    exact Option.some.inj hparent
  cases hknown with
  | slot _ hrec hfills hroot =>
    have hstack : s.life.spanStack = s.spanStack := rfl
    have hlive := hpool.stack_live
    unfold St.active Active.Parents
    unfold activeParent at hp
    rw [hstack] at hp hlive
    cases hs : s.spanStack with
    | nil =>
      rw [hs] at hp
      dsimp only at hp ⊢
      cases hremote : remoteContext env with
      | none =>
        rw [hremote] at hp
        subst hp
        exact hroot rfl hblank
      | some ctx =>
        rw [hremote] at hp
        subst hp
        cases hd
        exact ⟨hfills.traceId, hfills.parentSpanId ctx.spanId rfl fun h => by cases h⟩
    | cons top rest =>
      have htop := hlive top (by rw [hs]; exact List.mem_cons_self)
      rw [hs] at hp
      dsimp only at hp ⊢
      cases he : top.entry with
      | nrec j =>
        rw [he] at hp
        subst hp
        cases hd
        exact absurd rfl hrec
      | slot j =>
        rw [he] at hp htop
        subst hp
        cases hd
        refine ⟨hfills.traceId, hfills.parentSpanId _ rfl fun heq => hnew ?_⟩
        injection heq with hij
        rw [hij]
        exact htop

/-- How a start that returns ends. -/
theorem start_cases (hready : s.Ready)
    (hnames : args.parent = .span → s.life.Names args.parentSpan)
    (hx : apiSpanStart env (some args) s = .ok ref s₁) :
    s₁.dispatches = s.dispatches ∧
      ((ref = otelSpanNone ∧ Preserves s s₁) ∨ ∃ e, OpensSpan args ref e s s₁ ∧
        (args.parent = .active → ∀ i, e = .slot i →
          s.active.Parents env (s₁.slots i).span.identity)) := by
  have hstarted := (wp_apiSpanStart_opens env (some args) hready.pool).result hx
  have hsilent := (silent_apiSpanStart env hnames).result hx
  have houtcome := ((wp_apiSpanStart env (some args) hready.pool).result hx).2.unwinds
  have hcalm := (wp_apiSpanStart_depth env (some args) s).result hx
  have hmisuse : s₁.misuse = s.misuse := misuse_eq hsilent.lookups houtcome.1
  have hdepth : s₁.dispatchDepth = s.dispatchDepth := houtcome.2
  refine ⟨hsilent.dispatches, ?_⟩
  cases hstarted with
  | refused _ _ hstays hp =>
    exact .inl ⟨rfl, keeps_prepared hstays hp hmisuse hdepth, hp.spanStack⟩
  | opened _ p d e s' _ hparent hd hstays hp hop hknown =>
    have hlive : s₁.life.Live e := hop.live_iff.2 (.inr rfl)
    have hfree : ¬ s.life.Live e := fun he => hop.free ((hp.live e).2 he)
    have hne : e.handle (s₁.life.gen e) ≠ otelSpanNone :=
      handle_ne_none (Nat.pos_of_ne_zero (Lifecycle.live_iff.1 hlive).2)
    refine .inr ⟨e, ⟨keeps_opened hstays hp hop hmisuse hdepth, ⟨hlive, rfl⟩, hfree, hcalm hne,
      hop.detached, ?_⟩, fun hactive i he => ?_⟩
    · have hstack : s'.spanStack = s.spanStack := hp.spanStack
      rw [hop.stack, hstack]
    · subst he
      exact parents_of_knownBy hactive hparent hd hknown hready.blank hfree hready.pool

end Start

/-! ## Scopes -/

/-- The handle stands for an open span in the given mode, or is null. -/
def St.Offers (s : St) (x : OtelSpanRef × SpanMode) : Prop :=
  x.1.v = 0 ∨ ∃ e, s.life.Holds x.1 e ∧ (x.2 ≠ .attached → s.life.detached e = true) ∧
    (x.2 = .detached → ¬ s.life.OnStack e)

/-- A span that may be activated may be active. -/
theorem St.Offers.activated {s : St} {ref : OtelSpanRef} (h : s.Offers (ref, .detached)) :
    s.Offers (ref, .active) :=
  h.imp_right fun ⟨e, he, hd, _⟩ =>
    ⟨e, he, (fun _ => hd (fun hm => by cases hm)), (fun hm => by cases hm)⟩

/-- The scope fits the state; no two brackets are of the same span. -/
structure St.Scopes (s : St) (scope : Scope) : Prop where
  offers : ∀ x ∈ scope, s.Offers x
  distinct : (scope.map Prod.fst).Pairwise fun ref ref' => ref.v ≠ 0 → ref ≠ ref'

theorem St.Scopes.nil (s : St) : s.Scopes [] := ⟨fun _ h => absurd h List.not_mem_nil, .nil⟩

theorem Preserves.holds {s s' : St} {ref : OtelSpanRef} {e : StackRef} (h : Preserves s s')
    (he : s.life.Holds ref e) : s'.life.Holds ref e := by
  obtain ⟨hl, hg, -⟩ := h.live e he.live
  refine ⟨hl, ?_⟩
  rw [hg]
  exact he.handle

theorem Preserves.scopes {s s' : St} {scope : Scope} (h : Preserves s s') (hs : s.Scopes scope) :
    s'.Scopes scope where
  offers x hx := by
    refine (hs.offers x hx).imp_right fun ⟨e, he, hd, hoff⟩ => ⟨e, h.holds he, fun hm => ?_, fun hm => ?_⟩
    · rw [(h.live e he.live).2.2]
      exact hd hm
    · have hstack : s'.life.spanStack = s.life.spanStack := h.stack
      rw [Lifecycle.OnStack, hstack]
      exact hoff hm
  distinct := hs.distinct

theorem St.Scopes.names {s : St} {scope : Scope} {ref : OtelSpanRef} (h : s.Scopes scope)
    (hready : s.Ready) (href : scope.Has ref) : s.life.Names ref := by
  rcases href with hv | ⟨mode, hmem⟩
  · exact .inl hv
  · refine (h.offers _ hmem).imp_right fun ⟨e, he, _⟩ => ⟨e, hready.entryOf he⟩

/-! ## Brackets -/

section Bracket

variable {env : Env} {args : OtelSpanStartArgs} {ref : OtelSpanRef} {e : StackRef} {s s₁ s₂ s₃ : St}
  {ds : List Dispatch}

/-- At the end of its bracket a span is on top of the stack, or detached and off it. -/
theorem OpensSpan.uncovers (h : OpensSpan args ref e s s₁) (hpool : PoolInv s.life)
    (hstack : s₂.spanStack = s₁.spanStack) : Uncovers e s₂.spanStack s.spanStack := by
  rw [hstack, h.stack]
  split_ifs
  · refine .off _ fun hmem => h.free ?_
    obtain ⟨x, hx, rfl⟩ := List.mem_map.1 hmem
    exact hpool.stack_live x hx
  · exact .top ⟨e, false, 0⟩ _ rfl

theorem wp_closing (closing : Closing) (hready : s.Ready) (hcrit : env.critSectionCount = 0)
    (hdepth : s.dispatchDepth = 0) (hasks : env.AsksOpen s.life) (href : s.life.Holds ref e)
    {l : List StackEntry} (hu : Uncovers e s.spanStack l) :
    Wp (closing.run env ref) (fun _ s' => ∃ ds, ClosesSpan e l s s' ds) (fun _ _ => True) s := by
  cases closing with
  | ends endTime => exact wp_apiSpanEnd_closes env endTime hready hcrit hdepth hasks href hu
  | discards =>
    exact (wp_apiSpanDiscard_closes env hready hcrit hdepth href hu).mono (fun _ _ h => ⟨[], h⟩)
      fun _ _ h => h

/-- The end or discard of a null handle does nothing. -/
theorem wp_closing_none (closing : Closing) :
    Wp (closing.run env otelSpanNone) (fun _ s' => Idle s s') (fun _ _ => False) s := by
  have hnull {x : M Unit} : Wp (callRefused env false >>= fun refused =>
      if refused = true ∨ otelSpanNone.v = 0 then pure () else x) (fun _ s' => Idle s s')
      (fun _ _ => False) s := by
    rw [wp_bind]
    refine ((tame_callRefused env false).idle).mono (fun _ s₁ h₁ => ?_) fun _ _ h => h
    rw [wp_ite]
    exact ⟨fun _ => h₁, fun hr => absurd (.inr rfl) hr⟩
  cases closing <;> exact hnull

theorem evolves_closing (closing : Closing) : Within (Evolves .none) (closing.run env ref) := by
  cases closing with
  | ends endTime => exact evolves_apiSpanEnd env ref endTime
  | discards => exact evolves_apiSpanDiscard env ref

/-- A whole bracket leaves alone what its body does. -/
theorem OpensSpan.preserves (h : OpensSpan args ref e s s₁) (hbody : Preserves s₁ s₂)
    (hclose : ClosesSpan e s.spanStack s₂ s₃ ds) (hev : Evolves .none s₂ s₃) : Preserves s s₃ := by
  have hkeeps := h.toKeeps.trans hbody.toKeeps
  have hne (e' : StackRef) (he : s.life.Live e') : e' ≠ e := fun heq => h.free (heq ▸ he)
  have hlive (e' : StackRef) (he : s.life.Live e') : s₃.life.Live e' :=
    (hclose.life.live e').2 ⟨(hkeeps.live e' he).1, hne e' he⟩
  refine ⟨⟨?_, ?_, fun e' he => ?_, fun i hi => ?_⟩, hclose.life.stack⟩
  · exact (misuse_eq hclose.lookups hclose.life.unwinds).trans hkeeps.misuse
  · have hdepth : s₃.dispatchDepth = s₂.dispatchDepth := hclose.life.depth
    exact hdepth.trans hkeeps.depth
  · obtain ⟨-, hg, hd⟩ := hkeeps.live e' he
    obtain ⟨hg', hd'⟩ := hclose.life.others e' (hne e' he)
    exact ⟨hlive e' he, hg'.trans hg, hd'.trans hd⟩
  · exact (hev.identity i (hlive (.slot i) hi)).trans (hkeeps.identity i hi)

/-! ### The body of a bracket -/

/-- The body of a span's bracket starts with the span in scope. -/
theorem OpensSpan.scopes {scope : Scope} (h : OpensSpan args ref e s s₁) (hready : s.Ready)
    (hready₁ : s₁.Ready) (hs : s.Scopes scope) :
    s₁.Scopes ((ref, startMode args) :: scope) where
  offers := by
    have hoff (e' : StackRef) (hne : e' ≠ e) (hoff : ¬ s.life.OnStack e') : ¬ s₁.life.OnStack e' := by
      have hstack : s₁.life.spanStack = _ := h.stack
      rw [Lifecycle.OnStack, hstack]
      split_ifs
      · exact hoff
      · rw [List.map_cons, List.mem_cons, not_or]
        exact ⟨hne, hoff⟩
    refine List.forall_mem_cons.2 ⟨.inr ⟨e, h.holds, fun hm => ?_, fun hm => ?_⟩, fun x hx => ?_⟩
    · rw [h.detached]
      unfold startMode at hm
      split_ifs at hm with hd
      · exact hd
      · exact absurd rfl hm
    · have hd : args.detached = true := by
        unfold startMode at hm
        split_ifs at hm with hd
        exact hd
      have hstack : s₁.life.spanStack = _ := h.stack
      rw [Lifecycle.OnStack, hstack, if_pos hd]
      intro hon
      obtain ⟨x, hx, hxe⟩ := List.mem_map.1 hon
      exact h.free (hxe ▸ hready.pool.stack_live x hx)
    · refine (hs.offers x hx).imp_right fun ⟨e', he, hd, hdet⟩ => ?_
      have hne : e' ≠ e := fun heq => h.free (heq ▸ he.live)
      obtain ⟨hl, hg, hd'⟩ := h.live e' he.live
      refine ⟨e', ⟨hl, hg ▸ he.handle⟩, fun hm => hd' ▸ hd hm, fun hm => hoff e' hne (hdet hm)⟩
  distinct := by
    refine List.pairwise_cons.2 ⟨fun ref' hmem hv heq => ?_, hs.distinct⟩
    obtain ⟨x, hx, rfl⟩ := List.mem_map.1 hmem
    -- An older handle names a place that was taken before.
    rcases hs.offers x hx with hx0 | ⟨e', he, -⟩
    · exact hv ((congrArg OtelSpanRef.v heq).trans hx0)
    · obtain ⟨hl, hg, -⟩ := h.live e' he.live
      have hholds : s₁.life.Holds ref e' := by
        have heq : ref = x.1 := heq
        exact ⟨hl, by rw [heq, hg]; exact he.handle⟩
      have hsame := (hready₁.entryOf hholds).symm.trans (hready₁.entryOf h.holds)
      exact h.free (Option.some.inj hsame ▸ he.live)

/-- In the body, the stack says what the bracket does. -/
theorem OpensSpan.active (h : OpensSpan args ref e s s₁) (hready : s.Ready) (hready₁ : s₁.Ready) :
    s₁.active = if args.detached then s.active else s₁.activeIn ref s.active := by
  split_ifs with hd
  · have hstack : s₁.spanStack = s.spanStack := by
      rw [h.stack, if_pos hd]
    exact (⟨h.toKeeps, hstack⟩ : Preserves s s₁).active hready.pool
  · have hstack : s₁.spanStack = ⟨e, false, 0⟩ :: s.spanStack := by
      rw [h.stack, if_neg hd]
    unfold St.active St.activeIn
    rw [hstack, if_neg h.holds.ne_none]
    cases e with
    | slot i =>
      rw [if_pos (h.holds.pos_iff.2 ⟨i, rfl⟩), hready₁.refIdx h.holds]
      rfl
    | nrec i =>
      have hneg := h.holds.neg
      rw [if_neg (by omega)]

/-! ### Activations -/

/-- The state in which a span has been activated. -/
def St.pushed (s : St) (e : StackRef) (level : ℕ) : St :=
  { s with spanStack := ⟨e, true, level⟩ :: s.spanStack }

variable {inner outer : Scope} {level : ℕ}

theorem St.Scopes.activated (h : s.Scopes (inner ++ (ref, .detached) :: outer)) :
    s.Scopes (inner ++ (ref, .active) :: outer) where
  offers x hx := by
    rcases List.mem_append.1 hx with hx | hx
    · exact h.offers x (List.mem_append_left _ hx)
    · rcases List.mem_cons.1 hx with rfl | hx
      · exact (h.offers (ref, .detached) (List.mem_append_right _ List.mem_cons_self)).activated
      · exact h.offers x (List.mem_append_right _ (List.mem_cons_of_mem _ hx))
  distinct := by
    have hdistinct := h.distinct
    rw [List.map_append, List.map_cons] at hdistinct ⊢
    exact hdistinct

/-- While a span is activated, no other of the scope is. -/
theorem St.Scopes.pushed (h : s.Scopes (inner ++ (ref, .detached) :: outer))
    (href : s.life.Holds ref e) :
    (s.pushed e level).Scopes (inner ++ (ref, .active) :: outer) where
  offers x hx := by
    have hdistinct := h.distinct
    rw [List.map_append, List.map_cons, List.pairwise_append, List.pairwise_cons] at hdistinct
    obtain ⟨-, ⟨houter, -⟩, hinner⟩ := hdistinct
    have hother (hne : x.1.v ≠ 0 → x.1 ≠ ref) (hx : s.Offers x) : (s.pushed e level).Offers x := by
      refine hx.imp_right fun ⟨e', he, hd, hoff⟩ =>
        ⟨e', ⟨he.live, he.handle⟩, hd, fun hm hon => ?_⟩
      rcases List.mem_cons.1 hon with heq | hon
      · have heq : e' = e := heq
        subst heq
        exact hne he.ne_none (he.handle.trans href.handle.symm)
      · exact hoff hm hon
    rcases List.mem_append.1 hx with hx | hx
    · refine hother (fun hv => ?_) (h.offers x (List.mem_append_left _ hx))
      exact hinner x.1 (List.mem_map_of_mem hx) ref List.mem_cons_self hv
    · rcases List.mem_cons.1 hx with rfl | hx
      · have hoffers := h.offers (ref, .detached) (List.mem_append_right _ List.mem_cons_self)
        exact hoffers.activated.imp_right fun ⟨e', he, hd, _⟩ =>
          ⟨e', ⟨he.live, he.handle⟩, hd, fun hm => by cases hm⟩
      · refine hother (fun _ heq => ?_)
          (h.offers x (List.mem_append_right _ (List.mem_cons_of_mem _ hx)))
        exact houter x.1 (List.mem_map_of_mem hx) href.ne_none heq.symm
  distinct := by
    have hdistinct := h.distinct
    rw [List.map_append, List.map_cons] at hdistinct ⊢
    exact hdistinct

theorem pushed_active (hready : s.Ready) (href : s.life.Holds ref e) (a : Active) :
    (s.pushed e level).active = (s.pushed e level).activeIn ref a := by
  unfold St.activeIn
  rw [if_neg href.ne_none]
  cases e with
  | slot i =>
    rw [if_pos (href.pos_iff.2 ⟨i, rfl⟩), hready.refIdx href]
    rfl
  | nrec i =>
    have hneg := href.neg
    rw [if_neg (by omega)]
    rfl

/-- A whole activation leaves alone what its body does. -/
theorem preserves_popped (hbody : Preserves (s.pushed e level) s₂) :
    Preserves s { s₂ with spanStack := s.spanStack } :=
  ⟨⟨hbody.misuse, hbody.depth, hbody.live, hbody.identity⟩, rfl⟩

end Bracket

/-! ## Runs -/

/-- What a program has done when it finishes. -/
structure Balanced (s : St) (xs : List Export) (s' : St) : Prop extends Preserves s s' where
  ready : s'.Ready
  dispatches : s'.dispatches = s.dispatches ++ xs.map Export.dispatch
  parents : ∀ x ∈ xs, x.args.parent = .active → x.active.Parents x.env x.dispatch.span.identity

section Run

variable {m m' : Moment} {scope : Scope} {s s₁ s₂ s₃ : St} {xs ys : List Export}

theorem St.preserves_at (s : St) (m : Moment) : Preserves s (s.at m) :=
  ⟨⟨rfl, rfl, fun _ h => ⟨h, rfl, rfl⟩, fun _ _ => rfl⟩, rfl⟩

theorem St.Ready.at (h : s.Ready) (m : Moment) : (s.at m).Ready := ⟨h.pool, h.nslots_le, h.blank⟩

theorem St.Ready.ok (op : ProducerOp) (h : s.Ready) (hvalid : op.Valid (s.at m))
    (hx : runOp m.env op (s.at m) = .ok () s₁) : s₁.Ready :=
  endState_ok hx ▸ (h.at m).after op hvalid m.slots_le

theorem valid_of_worksOn {op : ProducerOp} {ref : OtelSpanRef} (h : op.worksOn = some ref) :
    op.Valid s := by
  cases op <;> trivial

theorem Balanced.andThen (h : Balanced s xs s₁) (h' : Balanced s₁ ys s₂) :
    Balanced s (xs ++ ys) s₂ where
  toPreserves := h.toPreserves.trans h'.toPreserves
  ready := h'.ready
  dispatches := by rw [h'.dispatches, h.dispatches, List.map_append, List.append_assoc]
  parents x hx := (List.mem_append.1 hx).elim (h.parents x) (h'.parents x)

theorem Balanced.idle (h : Balanced s xs s₁) (hidle : Idle (s₁.at m) s₂) (hready : s₂.Ready) :
    Balanced s xs s₂ where
  toPreserves := h.toPreserves.trans ((s₁.preserves_at m).trans hidle.preserves)
  ready := hready
  dispatches := hidle.dispatches.trans h.dispatches
  parents := h.parents

/-- A call that neither opens nor closes anything. -/
theorem balanced_call {op : ProducerOp} {ref : OtelSpanRef} (hready : s.Ready)
    (hscope : s.Scopes scope) (hop : op.worksOn = some ref) (href : scope.Has ref)
    (hx : runOp m.env op (s.at m) = .ok () s₁) : Balanced s [] s₁ := by
  have hnames := hscope.names hready href
  have hidle := (idle_runOp m.env (s := s.at m) hop hnames hready.stackNamed).result hx
  have hrefl : Balanced s [] s :=
    ⟨.refl s, hready, (List.append_nil _).symm, fun x hx => absurd hx List.not_mem_nil⟩
  exact hrefl.idle hidle (hready.ok op (valid_of_worksOn hop) hx)

theorem St.Ready.closing {ref : OtelSpanRef} {closing : Closing} (h : s.Ready) (href : ref.Issued)
    (hx : closing.run m.env ref (s.at m) = .ok () s₁) : s₁.Ready := by
  cases closing with
  | ends endTime => exact h.ok (.spanEnd ref endTime) href hx
  | discards => exact h.ok (.spanDiscard ref) href hx

theorem newDispatches_append {ds : List Dispatch} (h : s₁.dispatches = s.dispatches ++ ds) :
    newDispatches s s₁ = ds := by
  unfold newDispatches
  rw [h, List.drop_left]

theorem St.Scopes.asks {s : St} (h : s.Scopes scope) (hready : s.Ready) (hasks : m.Asks scope) :
    m.env.AsksOpen s.life := fun hook hhook n ref href =>
  h.names hready (hasks hook hhook n ref href)

variable {a : Active} {args : OtelSpanStartArgs} {closing : Closing} {ref : OtelSpanRef}

/-- The bracket of a start that is refused. -/
theorem balanced_refused (hstart : Preserves s s₁)
    (hdispatches : s₁.dispatches = s.dispatches) (hscope : s.Scopes scope) (ha : s.active = a)
    (hpool : PoolInv s.life) (mode : SpanMode)
    (hbody : s₁.Scopes ((otelSpanNone, mode) :: scope) → s₁.active = a → Balanced s₁ xs s₂)
    (hclose : closing.run m'.env otelSpanNone (s₂.at m') = .ok () s₃) :
    Balanced s xs s₃ ∧ newDispatches s₂ s₃ = [] := by
  have hscope₁ : s₁.Scopes ((otelSpanNone, mode) :: scope) := by
    have hkept := hstart.scopes hscope
    refine ⟨List.forall_mem_cons.2 ⟨.inl rfl, hkept.offers⟩, ?_⟩
    exact List.pairwise_cons.2 ⟨fun _ _ hv => absurd rfl hv, hkept.distinct⟩
  have hrun := hbody hscope₁ ((hstart.active hpool).trans ha)
  have hidle := (wp_closing_none closing).result hclose
  have hready₃ : s₃.Ready := hrun.ready.closing (.inl rfl) hclose
  refine ⟨?_, newDispatches_append (hidle.dispatches.trans (List.append_nil _).symm)⟩
  exact {
    toPreserves := hstart.trans (hrun.idle hidle hready₃).toPreserves
    ready := hready₃
    dispatches := by rw [← hdispatches, (hrun.idle hidle hready₃).dispatches]
    parents := hrun.parents }

/-- The bracket of a start that opens a span. -/
theorem balanced_opened {e : StackRef} (hready : s.Ready) (hready₁ : s₁.Ready)
    (hscope : s.Scopes scope) (hopen : OpensSpan args ref e s s₁)
    (hdispatches : s₁.dispatches = s.dispatches)
    (hparents : args.parent = .active → ∀ i, e = .slot i →
      a.Parents m.env (s₁.slots i).span.identity)
    (hrun : Balanced s₁ xs s₂) (hasks : m'.Asks ((ref, startMode args) :: scope))
    (hcrit : m'.env.critSectionCount = 0)
    (hclose : closing.run m'.env ref (s₂.at m') = .ok () s₃) :
    Balanced s (xs ++ (newDispatches s₂ s₃).map fun d => ⟨d, args, m.env, a⟩) s₃ := by
  have hscope₂ : s₂.Scopes ((ref, startMode args) :: scope) :=
    hrun.toPreserves.scopes (hopen.scopes hready hready₁ hscope)
  have hbody : Preserves s₁ (s₂.at m') := hrun.toPreserves.trans (s₂.preserves_at m')
  have href : (s₂.at m').life.Holds ref e := hbody.holds hopen.holds
  have hdepth : (s₂.at m').dispatchDepth = 0 :=
    (hbody.depth.trans hopen.depth).trans hopen.calm
  have hready₂ : (s₂.at m').Ready := hrun.ready.at m'
  obtain ⟨ds, hcloses⟩ := (wp_closing closing hready₂ hcrit hdepth
    (hscope₂.asks hrun.ready hasks) href (hopen.uncovers hready.pool hbody.stack)).result hclose
  have hev := (evolves_closing closing (s₂.at m')).result hclose
  have hnew : newDispatches s₂ s₃ = ds := newDispatches_append hcloses.dispatches
  refine { toPreserves := hopen.preserves hbody hcloses hev, ready := ?_, dispatches := ?_, parents := ?_ }
  · exact hrun.ready.closing (hready₂.issued href) hclose
  · have hlog : s₃.dispatches = s₂.dispatches ++ ds := hcloses.dispatches
    rw [hnew, hlog, hrun.dispatches, hdispatches, List.map_append, List.map_map,
      List.append_assoc]
    exact congrArg _ (congrArg _ (List.map_id ds).symm)
  · intro x hx hactive
    rcases List.mem_append.1 hx with hx | hx
    · exact hrun.parents x hx hactive
    · rw [hnew] at hx
      obtain ⟨d, hd, rfl⟩ := List.mem_map.1 hx
      obtain ⟨i, rfl, hid⟩ := hcloses.own d hd
      have hsame : d.span.identity = (s₁.slots i).span.identity :=
        hid.trans (hbody.identity i hopen.holds.live)
      change a.Parents m.env d.span.identity
      rw [hsame]
      exact hparents hactive i rfl

/-- The bracket of a span, whether its start is refused or not. -/
theorem balanced_span (hready : s.Ready) (hscope : s.Scopes scope) (ha : s.active = a)
    (hparent : args.parent = .span → scope.Has args.parentSpan)
    (hstart : apiSpanStart m.env (some args) (s.at m) = .ok ref s₁)
    (hbody : s₁.Ready → s₁.Scopes ((ref, startMode args) :: scope) →
      (s₁.active = if args.detached then a else s₁.activeIn ref a) → Balanced s₁ xs s₂)
    (hasks : m'.Asks ((ref, startMode args) :: scope)) (hcrit : m'.env.critSectionCount = 0)
    (hclose : closing.run m'.env ref (s₂.at m') = .ok () s₃) :
    Balanced s (xs ++ (newDispatches s₂ s₃).map fun d => ⟨d, args, m.env, a⟩) s₃ := by
  have hat := s.preserves_at m
  have hready₀ : (s.at m).Ready := hready.at m
  have hscope₀ : (s.at m).Scopes scope := hat.scopes hscope
  have ha₀ : (s.at m).active = a := (hat.active hready.pool).trans ha
  have hready₁ : s₁.Ready := by
    have hend := endState_discardResult (apiSpanStart m.env (some args)) (s.at m)
    rw [endState_ok hstart] at hend
    rw [← hend]
    exact hready₀.after (.spanStart (some args)) trivial m.slots_le
  obtain ⟨hdispatches, ⟨rfl, hkept⟩ | ⟨e, hopen, hparents⟩⟩ :=
    start_cases hready₀ (fun hmode => hscope₀.names hready₀ (hparent hmode)) hstart
  · have hnull : (if args.detached then a else s₁.activeIn otelSpanNone a) = a := by
      split_ifs
      · rfl
      · exact if_pos rfl
    obtain ⟨hrun, hnew⟩ := balanced_refused hkept hdispatches hscope₀ ha₀ hready₀.pool _
      (fun hs hactive => hbody hready₁ hs (hactive.trans hnull.symm)) hclose
    rw [hnew, List.map_nil, List.append_nil]
    exact ⟨hat.trans hrun.toPreserves, hrun.ready, hrun.dispatches, hrun.parents⟩
  · have hrun := hbody hready₁ (hopen.scopes hready₀ hready₁ hscope₀)
      (ha₀ ▸ hopen.active hready₀ hready₁)
    have hall := balanced_opened (a := a) hready₀ hready₁ hscope₀ hopen hdispatches
      (fun hactive i he => ha₀ ▸ hparents hactive i he) hrun hasks hcrit hclose
    exact ⟨hat.trans hall.toPreserves, hall.ready, hall.dispatches, hall.parents⟩

/-- An activation that is refused. -/
theorem balanced_notActivated (hidle : Idle (s.at m) s₁) (hrun : Balanced s₁ xs s₂)
    (hclose : apiSpanDeactivate m'.env otelActivationNone (s₂.at m') = .ok () s₃) :
    Balanced s xs s₃ := by
  have hready₃ : s₃.Ready := hrun.ready.ok (.spanDeactivate otelActivationNone) trivial hclose
  have hall := hrun.idle ((wp_apiSpanDeactivate_none m'.env).result hclose) hready₃
  exact {
    toPreserves := ((s.preserves_at m).trans hidle.preserves).trans hall.toPreserves
    ready := hready₃
    dispatches := by
      have hsame : s₁.dispatches = s.dispatches := hidle.dispatches
      rw [← hsame, hall.dispatches]
    parents := hall.parents }

/-- An activation that pushes a span. -/
theorem balanced_activated {e : StackRef} {level : ℕ} (href : s.life.Holds ref e)
    (hdepth : s.dispatchDepth = 0) (hrun : Balanced (s.pushed e level) xs s₂)
    (hcrit : m'.env.critSectionCount = 0)
    (hclose : apiSpanDeactivate m'.env ⟨ref.v⟩ (s₂.at m') = .ok () s₃) : Balanced s xs s₃ := by
  have hbody : Preserves (s.pushed e level) (s₂.at m') :=
    hrun.toPreserves.trans (s₂.preserves_at m')
  have href₂ : (s₂.at m').life.Holds ref e := hbody.holds ⟨href.live, href.handle⟩
  have hpop := (wp_apiSpanDeactivate_top m'.env (hrun.ready.at m') hcrit (hbody.depth.trans hdepth)
    href₂ hbody.stack rfl).result hclose
  have hready₃ : s₃.Ready := hrun.ready.ok (.spanDeactivate ⟨ref.v⟩) trivial hclose
  subst hpop
  exact ⟨preserves_popped hbody, hready₃, hrun.dispatches, hrun.parents⟩

/-- The bracket of an activation. -/
theorem balanced_activation {inner outer : Scope} {tok : OtelActivation} (hready : s.Ready)
    (hscope : s.Scopes (inner ++ (ref, .detached) :: outer)) (ha : s.active = a)
    (hactivate : apiSpanActivate m.env ref (s.at m) = .ok tok s₁)
    (hbody : s₁.Ready → s₁.Scopes (inner ++ (ref, .active) :: outer) →
      s₁.active = s₁.activeIn ⟨tok.v⟩ a → Balanced s₁ xs s₂)
    (hcrit : m'.env.critSectionCount = 0)
    (hclose : apiSpanDeactivate m'.env tok (s₂.at m') = .ok () s₃) : Balanced s xs s₃ := by
  have hat := s.preserves_at m
  have hready₀ : (s.at m).Ready := hready.at m
  have hscope₀ := hat.scopes hscope
  have ha₀ : (s.at m).active = a := (hat.active hready.pool).trans ha
  have hoffers := hscope₀.offers (ref, .detached) (List.mem_append_right _ List.mem_cons_self)
  have hready₁ : s₁.Ready := by
    have hend := endState_discardResult (apiSpanActivate m.env ref) (s.at m)
    rw [endState_ok hactivate] at hend
    rw [← hend]
    refine hready₀.after (.spanActivate ref) ?_ m.slots_le
    exact hoffers.elim .inl fun ⟨e, href, _⟩ => hready₀.issued href
  have hrefused (htok : tok = otelActivationNone) (hidle : Idle (s.at m) s₁) :
      Balanced s xs s₃ := by
    subst htok
    have hkept := hidle.preserves
    refine balanced_notActivated hidle (hbody hready₁ (hkept.scopes hscope₀).activated ?_) hclose
    exact ((hkept.active hready₀.pool).trans ha₀).trans (if_pos rfl).symm
  rcases hoffers with hv | ⟨e, href, hdetached, hoff⟩
  · obtain ⟨htok, hidle⟩ := (wp_apiSpanActivate_null m.env hv).result hactivate
    exact hrefused htok hidle
  · have href : (s.at m).life.Holds ref e := href
    rcases (wp_apiSpanActivate_holds m.env hready₀ href (hdetached fun hm => by cases hm)
      (hoff rfl)).result hactivate with ⟨htok, hidle⟩ | ⟨htok, hdepth, hact⟩
    · exact hrefused htok hidle
    · have hpushed : s₁ = (s.at m).pushed e m.env.currentTransactionNestLevel := hact.push
      have htok' : tok = ⟨ref.v⟩ := by
        rw [htok, href.handle]
        rfl
      subst htok' hpushed
      have hrun := hbody hready₁ (hscope₀.pushed href) (ha₀ ▸ pushed_active hready₀ href _)
      have hall := balanced_activated href hdepth hrun hcrit hclose
      exact ⟨hat.trans hall.toPreserves, hall.ready, hall.dispatches, hall.parents⟩

/-- Brackets of any shape and depth. -/
theorem Bracketed.balanced {s' : St} (h : Bracketed scope a s xs s') (hready : s.Ready)
    (hscope : s.Scopes scope) (ha : s.active = a) : Balanced s xs s' := by
  induction h with
  | done =>
    exact ⟨.refl _, hready, (List.append_nil _).symm, fun x hx => absurd hx List.not_mem_nil⟩
  | andThen _ _ ih ih' =>
    have hfirst := ih hready hscope ha
    have hkept := hfirst.toPreserves
    exact hfirst.andThen (ih' hfirst.ready (hkept.scopes hscope)
      ((hkept.active hready.pool).trans ha))
  | call m op hop href hx => exact balanced_call hready hscope hop href hx
  | span m m' args closing hparent hstart _ hasks hcrit hclose ih =>
    exact balanced_span hready hscope ha hparent hstart ih hasks hcrit hclose
  | activation m m' heq hactivate _ hcrit hclose ih =>
    subst heq
    exact balanced_activation hready hscope ha hactivate ih hcrit hclose

/-- When a properly nested program finishes, the active stack is what it was, no count of misuse has
moved, and the handles in scope are open as they were; each span dispatched that was started with the
active parent is below the innermost bracket whose span is active, or below what was active at the
beginning. -/
theorem well_bracketed {garbage : ℕ → OtelSlot} {s' : St}
    (h : (producer garbage).ReachBy (fun _ call => call.Bounded) s) (hscope : s.Scopes scope)
    (hrun : Bracketed scope s.active s xs s') :
    s'.spanStack = s.spanStack ∧ s'.misuse = s.misuse ∧ s'.Scopes scope ∧
      s'.dispatches = s.dispatches ++ xs.map Export.dispatch ∧
      ∀ x ∈ xs, x.args.parent = .active → x.active.Parents x.env x.dispatch.span.identity := by
  have hall := hrun.balanced (reachable_ready h) hscope rfl
  exact ⟨hall.stack, hall.misuse, hall.toPreserves.scopes hscope, hall.dispatches, hall.parents⟩

end Run

/-! ### A program -/

/-- Two slots, and a hook that takes the spans. -/
def twoSlots : Moment := ⟨{ maxOpenSpans := 2, emitHook := some fun _ => {} }, {}, by decide⟩

def startArgs (name : String) (detached : Bool) : OtelSpanStartArgs :=
  { name := some (cstr name), detached := detached }

def St.startIn (s : St) (args : OtelSpanStartArgs) : St :=
  endState (apiSpanStart twoSlots.env (some args)) (s.at twoSlots)

def St.endIn (s : St) (ref : OtelSpanRef) : St :=
  endState (apiSpanEnd twoSlots.env ref 0) (s.at twoSlots)

/-- A statement, in it a detached cursor that is activated, and in that a child for which no slot is
left. -/
def statementStarted : St := (initSt fun _ => {}).startIn (startArgs "statement" false)

def cursorStarted : St := statementStarted.startIn (startArgs "cursor" true)

def cursorActivated : St :=
  endState (apiSpanActivate twoSlots.env (makeRef 2 1 true)) (cursorStarted.at twoSlots)

def childRefused : St := cursorActivated.startIn (startArgs "child" false)

def childEnded : St := childRefused.endIn otelSpanNone

def cursorDeactivated : St :=
  endState (apiSpanDeactivate twoSlots.env ⟨(makeRef 2 1 true).v⟩) (childEnded.at twoSlots)

def cursorEnded : St := cursorDeactivated.endIn (makeRef 2 1 true)

def statementEnded : St := cursorEnded.endIn (makeRef 1 0 true)

theorem bracketed_statement :
    ∃ xs, Bracketed [] (initSt fun _ => {}).active (initSt fun _ => {}) xs statementEnded := by
  have hasks (scope : Scope) : twoSlots.Asks scope := fun hook hhook n ref href => by
    obtain rfl := Option.some.inj hhook
    exact absurd href List.not_mem_nil
  have hends (s : St) (ref : OtelSpanRef)
      (h : value (apiSpanEnd twoSlots.env ref 0) (s.at twoSlots) = some ()) :
      (Closing.ends 0).run twoSlots.env ref (s.at twoSlots) = .ok () (s.endIn ref) := ok_of_value h
  have hstatement : apiSpanStart twoSlots.env (some (startArgs "statement" false))
      ((initSt fun _ => {}).at twoSlots) = .ok (makeRef 1 0 true) statementStarted :=
    ok_of_value (by decide +kernel)
  have hcursor : apiSpanStart twoSlots.env (some (startArgs "cursor" true))
      (statementStarted.at twoSlots) = .ok (makeRef 2 1 true) cursorStarted :=
    ok_of_value (by decide +kernel)
  have hactivate : apiSpanActivate twoSlots.env (makeRef 2 1 true) (cursorStarted.at twoSlots) =
      .ok ⟨(makeRef 2 1 true).v⟩ cursorActivated := ok_of_value (by decide +kernel)
  have hchild : apiSpanStart twoSlots.env (some (startArgs "child" false))
      (cursorActivated.at twoSlots) = .ok otelSpanNone childRefused :=
    ok_of_value (by decide +kernel)
  have hdeactivate : apiSpanDeactivate twoSlots.env ⟨(makeRef 2 1 true).v⟩
      (childEnded.at twoSlots) = .ok () cursorDeactivated := ok_of_value (by decide +kernel)
  have hinner (scope : Scope) (a : Active) :
      ∃ xs, Bracketed scope a cursorActivated xs childEnded :=
    ⟨_, .span twoSlots twoSlots _ (.ends 0) (fun h => by cases h) hchild .done (hasks _) rfl
      (hends childRefused _ (by decide +kernel))⟩
  have hbody (outer : Scope) (a : Active) :
      ∃ xs, Bracketed ((makeRef 2 1 true, .detached) :: outer) a cursorStarted xs cursorDeactivated := by
    obtain ⟨xs, hinner⟩ := hinner ([] ++ (makeRef 2 1 true, .active) :: outer)
      (cursorActivated.activeIn (makeRef 2 1 true) a)
    exact ⟨xs, .activation twoSlots twoSlots rfl hactivate hinner rfl hdeactivate⟩
  have houter (scope : Scope) (a : Active) : ∃ xs, Bracketed scope a statementStarted xs cursorEnded := by
    obtain ⟨xs, hbody⟩ := hbody scope a
    exact ⟨_, .span twoSlots twoSlots _ (.ends 0) (fun h => by cases h) hcursor hbody (hasks _) rfl
      (hends cursorDeactivated _ (by decide +kernel))⟩
  obtain ⟨xs, houter⟩ := houter [(makeRef 1 0 true, .attached)]
    (statementStarted.activeIn (makeRef 1 0 true) (initSt fun _ => {}).active)
  exact ⟨_, .span twoSlots twoSlots _ (.ends 0) (fun h => by cases h) hstatement houter (hasks _) rfl
    (hends cursorEnded _ (by decide +kernel))⟩

theorem well_bracketed_statement :
    statementEnded.spanStack = [] ∧ statementEnded.misuse = (initSt fun _ => {}).misuse ∧
      statementEnded.dispatches.map (fun d => d.span.name) = [cstr "cursor", cstr "statement"] := by
  obtain ⟨xs, hrun⟩ := bracketed_statement
  obtain ⟨hstack, hmisuse, -⟩ := well_bracketed .init (.nil _) hrun
  exact ⟨hstack, hmisuse, by decide +kernel⟩

end PostgresOtel
