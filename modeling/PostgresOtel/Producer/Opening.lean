import PostgresOtel.Producer.Evolution
import PostgresOtel.Producer.StartRefinement

/-!
# What a start opens

`api_span_start` in terms of what a span is known by: from which parent, with what decision, in which
slot or entry, under which generation.  `Started` lists its outcomes.
-/

set_option autoImplicit false

namespace PostgresOtel

open Exec

/-! ## Parents and decisions -/

/-- The parent a span started with `OTEL_PARENT_ACTIVE` gets. -/
def activeParent (env : Env) (c : Lifecycle) : ResolvedParent :=
  match c.spanStack with
  | top :: _ => resolveFromEntry top.entry
  | [] => (remoteContext env).elim .none .remote

/-- The parent of a start; none if the parent named is stale. -/
def parentOf (env : Env) (args : OtelSpanStartArgs) (c : Lifecycle) : Option ResolvedParent :=
  match args.parent with
  | .active => some (activeParent env c)
  | .context => some ((args.parentCtx.filter fun ctx => otelSpanContextIsValid ctx).elim .none .remote)
  | .span =>
    if args.parentSpan.v = 0 then some .none
    else (c.entryOf args.parentSpan).map resolveFromEntry
  | .root => some .none

/-- The decision for a start under a parent. -/
inductive Decides (env : Env) (args : OtelSpanStartArgs) (s : St) :
    ResolvedParent → StartDecision → Prop
  | slot (i : ℕ) : Decides env args s (.slot i)
      ⟨(s.slots i).span.identity.traceId, (s.slots i).span.identity.traceFlags,
        if (s.slots i).span.identity.traceFlags &&& otelTraceFlagSampled ≠ 0 then .recordAndSample
        else .recordOnly⟩
  | nrec (i : ℕ) : Decides env args s (.nrec i)
      ⟨(s.nrecs i).ctx.traceId, (s.nrecs i).ctx.traceFlags, .drop⟩
  | remote (ctx : OtelSpanContext) : Decides env args s (.remote ctx)
      ⟨ctx.traceId, ctx.traceFlags,
        otelRunSampler env.samplerMode env.samplerArg ctx.traceId false (otelSpanContextSampled ctx)⟩
  | none (traceId : OtelTraceId) : traceId ≠ 0 → Decides env args s .none
      ⟨traceId, otelTraceFlagRandom, if args.forceSample then .recordAndSample
        else otelRunSampler env.samplerMode env.samplerArg traceId true false⟩

/-- The span id that a recording span has for its parent. -/
def ResolvedParent.spanId (s : St) : ResolvedParent → Option OtelSpanId
  | .slot i => some (s.slots i).span.identity.spanId
  | .remote ctx => some ctx.spanId
  | .nrec _ => Option.none
  | .none => Option.none

/-- The flags of a recording span. -/
def StartDecision.flags (d : StartDecision) : TraceFlags :=
  (d.parentFlags &&& ~~~otelTraceFlagSampled) |||
    (if d.decision = .recordAndSample then otelTraceFlagSampled else 0)

/-! ## Opening -/

def StackRef.index : StackRef → ℕ
  | .slot i => i
  | .nrec i => i

/-- The handle of the span in a slot or entry. -/
def StackRef.handle (gen : ℕ) : StackRef → OtelSpanRef
  | .slot i => makeRef gen i true
  | .nrec i => makeRef gen i false

/-- What a span that fills slot `i` is known by. -/
structure Fills (i : ℕ) (p : ResolvedParent) (d : StartDecision) (s : St) (x : SpanIdentity) :
    Prop where
  traceId : x.traceId = d.traceId
  spanId : x.spanId ≠ 0
  parentSpanId : ∀ id ∈ p.spanId s, resolveFromEntry (.slot i) ≠ p → x.parentSpanId = id
  traceFlags : x.traceFlags = d.flags
  samplerDecision : x.samplerDecision = d.decision

/-- What a new span is known by. -/
inductive KnownBy (env : Env) (args : OtelSpanStartArgs) (s : St) (p : ResolvedParent)
    (d : StartDecision) (s' : St) : StackRef → Prop
  | slot (i : ℕ) : d.decision ≠ .drop → Fills i p d s (s'.slots i).span.identity →
      (p.spanId s = none → s.Blank → (s'.slots i).span.identity.parentSpanId = 0) →
      KnownBy env args s p d s' (.slot i)
  | nrec (i : ℕ) : d.decision = .drop → (s'.nrecs i).haveSpanId = false →
      (s'.nrecs i).ctx =
        { traceId := d.traceId, traceFlags := d.parentFlags &&& otelTraceFlagRandom } →
      (s'.nrecs i).nestLevel = nrecNestLevel env args → KnownBy env args s p d s' (.nrec i)

/-- A free slot or entry is opened with the next generation, and all others are left alone. -/
structure Opens (args : OtelSpanStartArgs) (e : StackRef) (s s' : St) : Prop where
  free : ¬ s.life.Live e
  used : ∀ e', s'.life.Used e' ↔ s.life.Used e' ∨ e' = e
  seeded : s.prngSeeded = true ∧ s'.prngSeeded = true
  counter : s'.genCounter = (genAfter s.genCounter).1
  nslots : s'.nslots = s.nslots
  gen : s'.life.gen e = (genAfter s.genCounter).1
  detached : s'.life.detached e = args.detached
  others : ∀ e', e' ≠ e → s'.life.gen e' = s.life.gen e' ∧
    s'.life.detached e' = s.life.detached e'
  released : ∀ e', s.life.Used e' → s'.life.releasedGen e' = s.life.releasedGen e'
  identity : ∀ i, e ≠ .slot i → (s'.slots i).span.identity = (s.slots i).span.identity
  nrec : ∀ i, e ≠ .nrec i → s'.nrecs i = s.nrecs i
  stack : s'.spanStack = if args.detached then s.spanStack else ⟨e, false, 0⟩ :: s.spanStack

/-- A start may set up the pool; no owner releases anything. -/
def startEffects (env : Env) : Effects := ⟨fun _ => False, fun n => n = env.maxOpenSpans⟩

abbrev Stays (env : Env) : St → St → Prop := Evolves (startEffects env)

/-- How a start that returns ends. -/
inductive Started (env : Env) (s : St) : Option OtelSpanStartArgs → OtelSpanRef → St → Prop
  | refused (args : Option OtelSpanStartArgs) (s' : St) : Stays env s s' →
      s.life.Prepared s'.life → Started env s args otelSpanNone s'
  | opened (args : OtelSpanStartArgs) (p : ResolvedParent) (d : StartDecision) (e : StackRef)
      (s₁ s' : St) : parentOf env args s.life = some p → Decides env args s p d →
      Stays env s s₁ → s.life.Prepared s₁.life → Opens args e s₁ s' → KnownBy env args s p d s' e →
      Started env s (some args) (e.handle (s'.life.gen e)) s'

/-- The only place opened is that of the new span. -/
theorem Opens.live_iff {args : OtelSpanStartArgs} {e e' : StackRef} {s s' : St}
    (h : Opens args e s s') : s'.life.Live e' ↔ s.life.Live e' ∨ e' = e := by
  rw [Lifecycle.live_iff, Lifecycle.live_iff, h.used]
  by_cases heq : e' = e
  · subst heq
    simp [h.gen, Nat.ne_of_gt (genAfter s.genCounter).2]
  · simp [heq, (h.others e' heq).1]

variable (env : Env)

/-! ## The decision -/

/-- The parts of the state that a start decides by are the same. -/
structure Alike (s s' : St) : Prop where
  life : s'.life = s.life
  identity : ∀ i, (s'.slots i).span.identity = (s.slots i).span.identity
  nrecs : s'.nrecs = s.nrecs

namespace Alike

variable {s s' s'' : St}

theorem trans (h : Alike s s') (h' : Alike s' s'') : Alike s s'' :=
  ⟨h'.life.trans h.life, fun i => (h'.identity i).trans (h.identity i), h'.nrecs.trans h.nrecs⟩

theorem of_shape (h : s'.shape = s.shape) : Alike s s' :=
  ⟨congrArg (fun p : Shape => p.core.1) h, congrFun (congrArg Shape.identity h),
    congrArg Shape.nrecs h⟩

theorem decides {args : OtelSpanStartArgs} {p : ResolvedParent} {d : StartDecision}
    (h : Alike s s') (hd : Decides env args s' p d) : Decides env args s p d := by
  cases hd with
  | slot i =>
    rw [h.identity i]
    exact .slot i
  | nrec i =>
    rw [h.nrecs]
    exact .nrec i
  | remote ctx => exact .remote ctx
  | none traceId hne => exact .none traceId hne

end Alike

/-- A lookup changes a counter at most. -/
theorem wp_slotForRef_alike (ref : OtelSpanRef) (s : St) :
    Wp (slotForRef ref) (fun r s' => r = s.life.slotOf ref ∧ Alike s s') (fun _ _ => False) s := by
  have hcount (n : ℕ) : Alike s { s with counters := { s.counters with staleHandle := n } } :=
    ⟨rfl, fun _ => rfl, rfl⟩
  unfold slotForRef
  rw [wp_bind, wp_get, wp_ite]
  refine ⟨fun hc => ⟨(if_pos hc).symm, rfl, fun _ => rfl, rfl⟩, fun hc => ?_⟩
  have hnone : s.life.slotOf ref = none := if_neg hc
  rw [wp_ite]
  exact ⟨fun _ => ⟨hnone.symm, rfl, fun _ => rfl, rfl⟩, fun _ => ⟨hnone.symm, hcount _⟩⟩

theorem wp_nrecForRef_alike (ref : OtelSpanRef) (s : St) :
    Wp (nrecForRef ref) (fun r s' => r = s.life.nrecOf ref ∧ Alike s s') (fun _ _ => False) s := by
  have hcount (n : ℕ) : Alike s { s with counters := { s.counters with staleHandle := n } } :=
    ⟨rfl, fun _ => rfl, rfl⟩
  unfold nrecForRef
  rw [wp_bind, wp_get, wp_ite]
  refine ⟨fun hc => ⟨(if_pos hc).symm, rfl, fun _ => rfl, rfl⟩, fun hc => ?_⟩
  have hnone : s.life.nrecOf ref = none := if_neg hc
  rw [wp_ite]
  exact ⟨fun _ => ⟨hnone.symm, rfl, fun _ => rfl, rfl⟩, fun _ => ⟨hnone.symm, hcount _⟩⟩

theorem wp_resolveActiveParent (s : St) :
    Wp (resolveActiveParent env) (fun p s' => p = activeParent env s.life ∧ s' = s)
      (fun _ _ => False) s := by
  have hstack : s.life.spanStack = s.spanStack := rfl
  unfold resolveActiveParent activeParent
  rw [wp_bind, wp_get, hstack]
  cases s.spanStack with
  | cons top rest => exact ⟨rfl, rfl⟩
  | nil => cases remoteContext env <;> exact ⟨rfl, rfl⟩

theorem wp_resolveParent (args : OtelSpanStartArgs) (s : St) :
    Wp (resolveParent env args) (fun p s' => p = parentOf env args s.life ∧ Alike s s')
      (fun _ _ => False) s := by
  have hsame : Alike s s := ⟨rfl, fun _ => rfl, rfl⟩
  unfold resolveParent parentOf
  cases args.parent with
  | active =>
    dsimp only
    rw [wp_bind]
    refine (wp_resolveActiveParent env s).mono (fun p s' h => ?_) fun _ _ h => h
    obtain ⟨rfl, rfl⟩ := h
    exact ⟨rfl, hsame⟩
  | context =>
    cases args.parentCtx with
    | none => exact ⟨rfl, hsame⟩
    | some ctx =>
      dsimp only
      rw [wp_ite]
      exact ⟨fun hv => ⟨by simp [Option.filter, hv], hsame⟩,
        fun hv => ⟨by simp [Option.filter, hv], hsame⟩⟩
  | span =>
    dsimp only
    rw [wp_ite]
    refine ⟨fun hpos => ?_, fun hpos => ?_⟩
    · rw [wp_bind]
      refine (wp_slotForRef_alike _ s).mono (fun r s' h => ⟨?_, h.2⟩) fun _ _ h => h
      rw [if_neg (by omega), Lifecycle.entryOf, if_pos hpos, h.1, Option.map_map]
      rfl
    · rw [wp_ite]
      refine ⟨fun hneg => ?_, fun hneg => ⟨?_, hsame⟩⟩
      · rw [wp_bind]
        refine (wp_nrecForRef_alike _ s).mono (fun r s' h => ⟨?_, h.2⟩) fun _ _ h => h
        rw [if_neg (by omega), Lifecycle.entryOf, if_neg hpos, h.1, Option.map_map]
        rfl
      · rw [if_pos (by omega)]
  | root => exact ⟨rfl, hsame⟩

theorem stays_resolveParent (args : OtelSpanStartArgs) :
    Within (Stays env) (resolveParent env args) := by
  unfold resolveParent
  cases args.parent with
  | active => exact .bind (tame_resolveActiveParent env).evolves fun _ => within_pure _
  | context =>
    cases args.parentCtx with
    | none => exact within_pure _
    | some ctx => exact .ite (within_pure _) (within_pure _)
  | span =>
    refine .ite (.bind (evolves_slotForRef _) fun _ => within_pure _) ?_
    exact .ite (.bind (evolves_nrecForRef _) fun _ => within_pure _) (within_pure _)
  | root => exact within_pure _

theorem wp_decideStart (args : OtelSpanStartArgs) (p : ResolvedParent) (s : St) :
    Wp (decideStart env args p) (fun d s' => Decides env args s p d ∧ s'.shape = s.shape)
      (fun _ _ => False) s := by
  unfold decideStart newTraceId ask
  rw [wp_bind, wp_get]
  cases p with
  | slot i => exact ⟨.slot i, rfl⟩
  | nrec i => exact ⟨.nrec i, rfl⟩
  | remote ctx => exact ⟨.remote ctx, rfl⟩
  | none => exact ⟨.none _ (env.traceIdDraw s.tick).2, rfl⟩

/-! ## Taking a slot -/

/-- What taking slot `i` leaves alone. -/
structure TakesSlot (i : ℕ) (s s' : St) : Prop where
  identity : ∀ j, j ≠ i → (s'.slots j).span.identity = (s.slots j).span.identity
  nrecs : s'.nrecs = s.nrecs
  prngSeeded : s'.prngSeeded = s.prngSeeded
  genCounter : s'.genCounter = s.genCounter

theorem stays_takeFreeSlot : Within (Stays env) takeFreeSlot := by
  unfold takeFreeSlot
  refine fun s => ?_
  rw [wp_bind, wp_get, wp_ite]
  refine ⟨fun _ => .of_same ⟨rfl, rfl, rfl, rfl, rfl, rfl, rfl⟩ (.inl rfl), fun _ => ?_⟩
  rw [wp_ite]
  refine ⟨fun _ => ?_, fun _ => .refl s⟩
  change Stays env s { s with
    slotsUsed := s.slotsUsed + 1, slots := Function.update s.slots s.slotsUsed {} }
  -- The slot never used before is empty; those in use have an index of their own.
  have hcell : ∀ j, j < s.slotsUsed →
      Function.update s.slots s.slotsUsed {} j = s.slots j := fun j hj =>
    Function.update_of_ne (Nat.ne_of_lt hj) ..
  have hlive : ∀ j, j < s.slotsUsed + 1 → ¬ (Function.update s.slots s.slotsUsed {} j).gen = 0 →
      j < s.slotsUsed := by
    intro j hj hne
    rcases Nat.lt_succ_iff_lt_or_eq.1 hj with hlt | rfl
    · exact hlt
    · rw [Function.update_self] at hne
      exact absurd rfl hne
  exact {
    used := fun e he => by
      cases e with
      | slot j => exact Nat.lt_succ_of_lt he
      | nrec j => exact he
    live := fun e he => by
      cases e with
      | nrec j => exact ⟨he, rfl, rfl⟩
      | slot j =>
        have hj := hlive j he.1 he.2
        have hsame := hcell j hj
        refine ⟨⟨hj, fun hf => he.2 ?_⟩, ?_, ?_⟩
        · exact (congrArg (fun slot : OtelSlot => slot.gen) hsame).trans hf
        · exact congrArg (fun slot : OtelSlot => slot.gen) hsame
        · exact congrArg (fun slot : OtelSlot => slot.detached) hsame
    released := fun e he _ => by
      cases e with
      | nrec j => rfl
      | slot j => exact congrArg (fun slot : OtelSlot => slot.ownerReleasedGen) (hcell j he)
    seeded := fun hs => ⟨hs, rfl⟩
    counter := fun hc => hc
    nslots := .inl rfl
    blank := fun hb j hu hl => by
      change (Function.update s.slots s.slotsUsed {} j).span.identity.parentSpanId = 0
      rcases Nat.lt_succ_iff_lt_or_eq.1 hu with hlt | rfl
      · rw [hcell j hlt]
        refine hb j hlt fun hlive => hl ⟨hu, fun hf => hlive.2 ?_⟩
        exact (congrArg (fun slot : OtelSlot => slot.gen) (hcell j hlt)).symm.trans hf
      · rw [Function.update_self]
        rfl
    identity := fun j hj =>
      congrArg (fun slot : OtelSlot => slot.span.identity) (hcell j (hlive j hj.1 hj.2))
    nrec := fun _ _ => .refl _
    stack := List.Sublist.refl _ }

theorem stays_takeSlot : Within (Stays env) (takeSlot env) := by
  have hput (i : ℕ) : Within (Stays env) (pushFreeSlot i) := fun s =>
    .setSlot _ _ (.inr ⟨rfl, rfl, rfl⟩) (.inr rfl)
  unfold takeSlot
  refine .bind (stays_takeFreeSlot env) fun taken => ?_
  cases taken with
  | none => exact within_pure _
  | some i =>
    refine .bind within_get fun s => .ite (within_pure _) (.bind (evolves_pgTry ?_ ?_) fun _ =>
      within_pure _)
    · exact .ite (evolves_raiseError _) (evolves_modifySlot (fun _ => ⟨rfl, rfl, rfl⟩)
        (.inr fun _ => rfl))
    · exact .bind (hput i) fun _ => within_throw _

theorem wp_takeSlot_frame (s : St) :
    Wp (takeSlot env) (fun r s' => ∀ i ∈ r, TakesSlot i s s') (fun _ _ => True) s := by
  have hfree : Wp takeFreeSlot (fun r s' => ∀ i ∈ r, TakesSlot i s s') (fun _ _ => False) s := by
    unfold takeFreeSlot
    rw [wp_bind, wp_get, wp_ite]
    refine ⟨fun _ i _ => ⟨fun _ _ => rfl, rfl, rfl, rfl⟩, fun _ => ?_⟩
    rw [wp_ite]
    refine ⟨fun _ i hi => ?_, fun _ i hi => by cases hi⟩
    obtain rfl := Option.some.inj hi
    exact ⟨fun j hj => congrArg (fun slot : OtelSlot => slot.span.identity)
      (Function.update_of_ne hj ..), rfl, rfl, rfl⟩
  unfold takeSlot
  rw [wp_bind]
  refine hfree.mono (fun r s₁ h₁ => ?_) fun _ _ h => h.elim
  cases r with
  | none => exact fun i hi => by cases hi
  | some i =>
    have hi := h₁ i rfl
    dsimp only
    rw [wp_bind, wp_get, wp_ite]
    refine ⟨fun _ => h₁, fun _ => ?_⟩
    rw [wp_bind]
    refine wp_pgTry ?_
    rw [wp_ite]
    refine ⟨fun _ => wp_raiseError fun _ _ => ⟨fun _ => ?_, fun _ => trivial⟩, fun _ => ?_⟩
    · exact trivial
    · intro j hj
      obtain rfl := Option.some.inj hj
      refine ⟨fun k hk => ?_, hi.nrecs, hi.prngSeeded, hi.genCounter⟩
      exact (congrArg (fun slot : OtelSlot => slot.span.identity)
        (Function.update_of_ne hk ..)).trans (hi.identity k hk)

/-! ## Filling a span -/

/-- The shape with the identity of slot `i` changed. -/
def Shape.setIdentity (sh : Shape) (i : ℕ) (g : SpanIdentity → SpanIdentity) : Shape :=
  { sh with identity := Function.update sh.identity i (g (sh.identity i)) }

theorem Shape.setIdentity_of_ne (sh : Shape) {i j : ℕ} (g : SpanIdentity → SpanIdentity)
    (h : j ≠ i) : (sh.setIdentity i g).identity j = sh.identity j := Function.update_of_ne h ..

theorem Shape.setIdentity_setIdentity (sh : Shape) (i : ℕ) (g g' : SpanIdentity → SpanIdentity) :
    (sh.setIdentity i g).setIdentity i g' = sh.setIdentity i fun x => g' (g x) := by
  simp [Shape.setIdentity]

theorem wp_modifySlot_identity {i : ℕ} {f : OtelSlot → OtelSlot} {g : SpanIdentity → SpanIdentity}
    (hf : ∀ slot, (f slot).toSlotLife = slot.toSlotLife ∧
      (f slot).span.identity = g slot.span.identity)
    {Q : PUnit → St → Prop} {E : Exn → St → Prop} {s : St}
    (h : ∀ s', s'.shape = s.shape.setIdentity i g → Q ⟨⟩ s') : Wp (modifySlot i f) Q E s := by
  refine h _ ?_
  have hl := life_updateSlot_data s i _ (hf (s.slots i)).1
  have hidentity : (fun j => (Function.update s.slots i (f (s.slots i)) j).span.identity) =
      Function.update (fun j => (s.slots j).span.identity) i (g (s.slots i).span.identity) := by
    funext j
    by_cases hj : j = i
    · subst hj
      simp [(hf (s.slots j)).2]
    · simp [hj]
  simp only [St.shape, St.core, Shape.setIdentity, hl, hidentity]

/-- The parent span id is that of the parent, unless the parent is in the slot itself. -/
theorem wp_fillParent (i : ℕ) (p : ResolvedParent) (s : St) :
    Wp (fillParent env i p) (fun _ s' => ∃ g : SpanIdentity → SpanIdentity,
      s'.shape = s.shape.setIdentity i g ∧ ∀ x, g x = { x with parentSpanId := (g x).parentSpanId } ∧
        (p.spanId s = none → (g x).parentSpanId = x.parentSpanId) ∧
        ∀ id ∈ p.spanId s, resolveFromEntry (.slot i) ≠ p → (g x).parentSpanId = id)
      (fun _ _ => False) s := by
  have hinherit (id : OtelSpanId) (tracestate : Option CString) :
      Wp (inheritFrom env i id tracestate)
        (fun _ s' => s'.shape = s.shape.setIdentity i fun x => { x with parentSpanId := id })
        (fun _ _ => False) s := by
    have htame : Tame (copyField env i tracestate none >>= fun copy => modifySlot i fun slot =>
        { slot with span := { slot.span with tracestate := copy } }) :=
      .bind (tame_copyField env i _ _) fun _ => tame_modifySlot fun _ => ⟨rfl, rfl⟩
    unfold inheritFrom
    rw [wp_bind]
    refine wp_modifySlot_identity (g := fun x => { x with parentSpanId := id }) ?_ fun s₁ h₁ => ?_
    · exact fun _ => ⟨rfl, rfl⟩
    · exact (htame s₁).mono (fun _ _ h => h.trans h₁) fun _ _ h => h
  have hkeep : s.shape = s.shape.setIdentity i fun x => x := by simp [Shape.setIdentity]
  unfold fillParent
  rw [wp_bind, wp_get]
  cases p with
  | none => exact ⟨_, hkeep, fun x => ⟨rfl, fun _ => rfl, fun id hid => by cases hid⟩⟩
  | nrec j => exact ⟨_, hkeep, fun x => ⟨rfl, fun _ => rfl, fun id hid => by cases hid⟩⟩
  | remote ctx =>
    refine (hinherit _ _).mono (fun _ s' h => ⟨_, h, fun x => ⟨rfl, (fun h => by cases h),
      fun id hid _ => ?_⟩⟩) fun _ _ h => h
    exact Option.some.inj hid
  | slot j =>
    refine (hinherit _ _).mono (fun _ s' h => ⟨_, h, fun x => ⟨rfl, (fun h => by cases h),
      fun id hid _ => ?_⟩⟩) fun _ _ h => h
    exact Option.some.inj hid

theorem wp_fillSpan (i : ℕ) (args : OtelSpanStartArgs) (name : CString) (p : ResolvedParent)
    (d : StartDecision) (s : St) :
    Wp (fillSpan env i args name p d) (fun _ s' => ∃ x, Fills i p d s x ∧
      (p.spanId s = none → x.parentSpanId = (s.slots i).span.identity.parentSpanId) ∧
      s'.shape = s.shape.setIdentity i fun _ => x) (fun _ _ => False) s := by
  have hend : Tame (slotStrdup env i name (some env.attrValueMax) >>= fun copy =>
      timeOrNow env args.startTime >>= fun time => modifySlot i fun slot =>
        { slot with span := { slot.span with
            name := copy.1.getD (cstr "(out of memory)"), startTime := time } }) :=
    .bind (tame_slotStrdup env i _ _) fun _ => .bind (tame_timeOrNow env _) fun _ =>
      tame_modifySlot fun _ => ⟨rfl, rfl⟩
  unfold fillSpan
  rw [wp_bind]
  refine wp_modifySlot_identity (g := fun x => { x with traceId := d.traceId }) ?_ fun s₁ h₁ => ?_
  · exact fun _ => ⟨rfl, rfl⟩
  rw [wp_bind]
  refine wp_newSpanId env fun spanId hne => ?_
  rw [wp_bind]
  refine wp_modifySlot_identity (g := fun x => { x with spanId := spanId }) ?_ fun s₂ h₂ => ?_
  · exact fun _ => ⟨rfl, rfl⟩
  rw [wp_bind]
  refine (wp_fillParent env i p s₂).mono (fun _ s₃ h₃ => ?_) fun _ _ h => h.elim
  obtain ⟨g, h₃, hg⟩ := h₃
  rw [wp_bind]
  refine wp_modifySlot_identity
    (g := fun x => { x with traceFlags := d.flags, samplerDecision := d.decision }) ?_
    fun s₄ h₄ => ?_
  · exact fun _ => ⟨rfl, rfl⟩
  refine (hend s₄).mono (fun _ s₅ h₅ => ?_) fun _ _ h => h.elim
  -- The updates of the identity, one after another.
  have htick : ({ s₁ with tick := s₁.tick + 1 } : St).shape = s₁.shape := rfl
  have hshape₂ : s₂.shape = s.shape.setIdentity i fun x =>
      { x with traceId := d.traceId, spanId := spanId } := by
    rw [h₂, htick, h₁, Shape.setIdentity_setIdentity]
  have hparent (hp : resolveFromEntry (.slot i) ≠ p) : p.spanId s₂ = p.spanId s := by
    cases p with
    | none => rfl
    | remote ctx => rfl
    | nrec j => rfl
    | slot j =>
      have hj : j ≠ i := fun heq => hp (heq ▸ rfl)
      have hid : s₂.shape.identity j = s.shape.identity j := by
        rw [hshape₂, Shape.setIdentity_of_ne _ _ hj]
      exact congrArg (fun x : SpanIdentity => some x.spanId) hid
  set old := { s.shape.identity i with traceId := d.traceId, spanId := spanId } with hold
  refine ⟨{ g old with traceFlags := d.flags, samplerDecision := d.decision }, ?_, fun hp => ?_, ?_⟩
  · refine ⟨?_, ?_, fun id hid hp => ?_, rfl, rfl⟩
    · rw [(hg old).1]
    · rw [(hg old).1]
      exact hne
    · exact (hg old).2.2 id (hparent hp ▸ hid) hp
  · refine (hg old).2.1 ?_
    cases p with
    | none => rfl
    | nrec j => rfl
    | remote ctx => cases hp
    | slot j => cases hp
  · rw [h₅, h₄, h₃, hshape₂]
    simp only [Shape.setIdentity_setIdentity]
    rfl

/-! ## Opening a slot -/

/-- The state but for the life cycle, the data of spans and statistics. -/
def St.tokens (s : St) : (ℕ → SpanIdentity) × (ℕ → OtelNrec) × Bool × ℕ :=
  (fun i => (s.slots i).span.identity, s.nrecs, s.prngSeeded, s.genCounter)

theorem wp_modifySlot_tokens {i : ℕ} {f : OtelSlot → OtelSlot} {Q : Unit → St → Prop}
    {E : Exn → St → Prop} {s : St} (h : ∀ s', s'.tokens = s.tokens → Q () s')
    (hf : ∀ slot, (f slot).span.identity = slot.span.identity) : Wp (modifySlot i f) Q E s := by
  refine h _ (Prod.ext (funext fun j => ?_) rfl)
  change (Function.update s.slots i (f (s.slots i)) j).span.identity = _
  by_cases hj : j = i
  · subst hj
    rw [Function.update_self]
    exact hf _
  · rw [Function.update_of_ne hj]
    rfl

/-- The parent of the span in slot `i` is looked up in the other slots. -/
theorem Fills.congr {i : ℕ} {p : ResolvedParent} {d : StartDecision} {x : SpanIdentity} {s s' : St}
    (h : ∀ j, j ≠ i → (s'.slots j).span.identity = (s.slots j).span.identity)
    (hx : Fills i p d s' x) : Fills i p d s x := by
  refine { hx with parentSpanId := fun id hid hp => hx.parentSpanId id ?_ hp }
  cases p with
  | none => exact hid
  | remote ctx => exact hid
  | nrec j => exact hid
  | slot j =>
    have hj : j ≠ i := fun heq => hp (heq ▸ rfl)
    exact (congrArg (fun x : SpanIdentity => some x.spanId) (h j hj)).trans hid

theorem wp_openTakenSlot_tokens (i : ℕ) (args : OtelSpanStartArgs) (name : CString)
    (p : ResolvedParent) (d : StartDecision) (owner : Option ResourceOwner) (s : St) :
    Wp (openTakenSlot env i args name p d owner) (fun _ s' => ∃ x, Fills i p d s x ∧
      (p.spanId s = none → x.parentSpanId = (s.slots i).span.identity.parentSpanId) ∧
      s'.tokens = (Function.update s.tokens.1 i x, s.nrecs, s.prngSeeded,
        (genAfter s.genCounter).1)) (fun _ _ => False) s := by
  have hrest (owned : OwnedRef) (s : St) : Wp (do
      runIf (args.detached = false) (stackPush (.slot i) false 0)
      recordOwner owner owned
      modifyCounters fun c => { c with spansStarted := c.spansStarted + 1 }
      return owned.1) (fun _ s' => s'.tokens = s.tokens) (fun _ _ => False) s := by
    rw [wp_bind, wp_runIf]
    refine ⟨fun _ => ?_, fun _ => ?_⟩ <;> cases owner <;> exact rfl
  unfold openTakenSlot nextGen
  rw [wp_bind, wp_bind, wp_get, wp_bind, wp_modify, wp_pure]
  dsimp only
  rw [wp_bind, wp_get, wp_bind]
  refine wp_modifySlot_tokens (fun s₁ h₁ => ?_) fun _ => rfl
  rw [wp_bind]
  refine (wp_fillSpan env i args name p d s₁).mono (fun _ s₂ h₂ => ?_) fun _ _ h => h.elim
  obtain ⟨x, hx, hkeep, h₂⟩ := h₂
  refine (hrest _ s₂).mono (fun _ s₃ h₃ => ?_) fun _ _ h => h
  have hid : (fun j => (s₁.slots j).span.identity) = fun j => (s.slots j).span.identity :=
    congrArg Prod.fst h₁
  have hother := congrArg Prod.snd h₁
  refine ⟨x, hx.congr fun j _ => congrFun hid j, fun hp => ?_, h₃.trans ?_⟩
  · have hp₁ : p.spanId s₁ = none := by cases p <;> first | rfl | cases hp
    exact (hkeep hp₁).trans (congrArg SpanIdentity.parentSpanId (congrFun hid i))
  refine Prod.ext ?_ (Prod.ext ?_ (Prod.ext ?_ ?_))
  · exact (congrArg Shape.identity h₂).trans (congrArg (fun f : ℕ → SpanIdentity => Function.update f i x) hid)
  · exact (congrArg Shape.nrecs h₂).trans (congrArg Prod.fst hother)
  · exact (congrArg Shape.prngSeeded h₂).trans (congrArg (fun t => t.2.1) hother)
  · exact (congrArg Shape.genCounter h₂).trans (congrArg (fun t => t.2.2) hother)

namespace Lifecycle

variable (c : Lifecycle) (detached : Bool) (e : StackRef)

@[simp] theorem pushUnless_slots : (c.pushUnless detached e).slots = c.slots := by
  cases detached <;> rfl

@[simp] theorem pushUnless_nrecs : (c.pushUnless detached e).nrecs = c.nrecs := by
  cases detached <;> rfl

@[simp] theorem pushUnless_nslots : (c.pushUnless detached e).nslots = c.nslots := by
  cases detached <;> rfl

@[simp] theorem pushUnless_spanStack : (c.pushUnless detached e).spanStack =
    if detached then c.spanStack else ⟨e, false, 0⟩ :: c.spanStack := by
  cases detached <;> rfl

end Lifecycle

/-- The slots that are not taken, by what each of them is. -/
theorem opens_slot {args : OtelSpanStartArgs} {i : ℕ} {t : Pool SlotLife} {l : SlotLife}
    {x : SpanIdentity} {s s' : St} (hinv : PoolInv s.life) (hseeded : s.prngSeeded = true)
    (ht : s.life.takeSlot = some (i, t)) (hgen : l.gen = (genAfter s.genCounter).1)
    (hdet : l.detached = args.detached)
    (hreleased : l.ownerReleasedGen = (t.cell i).ownerReleasedGen)
    (hlife : s'.life = (s.life.openSlot t i l).pushUnless args.detached (.slot i))
    (htokens : s'.tokens = (Function.update s.tokens.1 i x, s.nrecs, s.prngSeeded,
      (genAfter s.genCounter).1)) : Opens args (.slot i) s s' := by
  have htk := hinv.taken ht
  have hslots : s'.life.slots = t.set i l := by
    rw [hlife, Lifecycle.pushUnless_slots]
    rfl
  have hnrecs : s'.life.nrecs = s.life.nrecs := by
    rw [hlife, Lifecycle.pushUnless_nrecs]
    rfl
  have hother (j : ℕ) (hj : j ≠ i) : s'.life.slots.cell j = s.life.slots.cell j := by
    rw [hslots, Pool.set_cell_of_ne hj, htk.same j hj]
  have hself : s'.life.slots.cell i = l := by rw [hslots, Pool.set_cell_self]
  exact {
    free := htk.not_live
    used := fun e => by
      cases e with
      | slot j =>
        rw [Lifecycle.Used, hslots, Pool.set_used, htk.used_iff, Lifecycle.Used]
        simp
      | nrec j => simp [Lifecycle.Used, hnrecs]
    seeded := ⟨hseeded, (congrArg (fun t => t.2.2.1) htokens).trans hseeded⟩
    counter := congrArg (fun t => t.2.2.2) htokens
    nslots := by
      have hn : s'.nslots = s'.life.nslots := rfl
      rw [hn, hlife, Lifecycle.pushUnless_nslots]
      rfl
    gen := by rw [Lifecycle.gen, hself, hgen]
    detached := by rw [Lifecycle.detached, hself, hdet]
    others := fun e he => by
      cases e with
      | slot j =>
        have hj : j ≠ i := fun heq => he (heq ▸ rfl)
        simp [Lifecycle.gen, Lifecycle.detached, hother j hj]
      | nrec j => simp [Lifecycle.gen, Lifecycle.detached, hnrecs]
    released := fun e he => by
      cases e with
      | nrec j => simp [Lifecycle.releasedGen, hnrecs]
      | slot j =>
        by_cases hj : j = i
        · subst hj
          rw [Lifecycle.releasedGen, hself, hreleased, Pool.take_cell ht he]
          rfl
        · simp [Lifecycle.releasedGen, hother j hj]
    identity := fun j hj => by
      have hji : j ≠ i := fun heq => hj (heq ▸ rfl)
      exact (congrFun (congrArg Prod.fst htokens) j).trans (Function.update_of_ne hji ..)
    nrec := fun j _ => congrFun (congrArg (fun t => t.2.1) htokens) j
    stack := by
      have hstack : s'.spanStack = s'.life.spanStack := rfl
      rw [hstack, hlife, Lifecycle.pushUnless_spanStack]
      rfl }

/-! ## Recording spans -/

theorem wp_ensurePool_tokens (s : St) :
    Wp (ensurePool env) (fun _ s' => s'.tokens = s.tokens) (fun _ _ => True) s := by
  unfold ensurePool createPoolContext allocNoOom ask
  rw [wp_bind, wp_get, wp_ite]
  refine ⟨fun _ => rfl, fun _ => ?_⟩
  rw [wp_bind, wp_runIf, wp_ite]
  exact ⟨fun _ => ⟨fun _ => trivial, fun _ => rfl⟩, fun _ => rfl⟩

theorem stays_ensurePool : Within (Stays env) (ensurePool env) := by
  unfold ensurePool createPoolContext allocNoOom ask
  refine .bind within_get fun s => .ite (within_pure _) ?_
  refine .bind (evolves_runIf (.ite (evolves_raiseError _) (evolves_modify fun _ => by simp)))
    fun _ => ?_
  refine .bind (.bind within_get fun _ => .bind (evolves_modify fun _ => by simp) fun _ =>
    within_pure _) fun _ => ?_
  refine .bind (within_modify fun s => ?_) fun _ => within_pure _
  exact .of_same ⟨rfl, rfl, rfl, rfl, rfl, rfl, rfl⟩ (.inr rfl)

theorem wp_prepareStart_returns (args : OtelSpanStartArgs) (owner : Option ResourceOwner) (s : St) :
    Wp (prepareStart env args owner) (fun _ s' => s' = s) (fun _ s' => Stays env s s') s := by
  have hraise (edata : ErrorData) : Wp (raiseError edata : M Unit) (fun _ s' => s' = s)
      (fun _ s' => Stays env s s') s := by
    unfold raiseError modifyBackend
    rw [wp_bind, wp_modify, wp_throw]
    exact .of_same ⟨rfl, rfl, rfl, rfl, rfl, rfl, rfl⟩ (.inl rfl)
  unfold prepareStart
  rw [wp_bind, wp_runIf]
  refine ⟨fun _ => (hraise _).mono (fun _ s' h => ?_) fun _ _ h => h, fun _ => ?_⟩
  · subst h
    rw [wp_runIf]
    exact ⟨fun _ => hraise _, fun _ => rfl⟩
  · rw [wp_runIf]
    exact ⟨fun _ => hraise _, fun _ => rfl⟩

theorem wp_startRecording_opens (args : OtelSpanStartArgs) (name : CString) (p : ResolvedParent)
    (d : StartDecision) {s : St} (hinv : PoolInv s.life) (hseeded : s.prngSeeded = true) :
    Wp (startRecording env args name p d)
      (fun ref s' => (ref = otelSpanNone ∧ Stays env s s' ∧ s.life.Prepared s'.life) ∨
        ∃ i s₁, Stays env s s₁ ∧ s.life.Prepared s₁.life ∧ Opens args (.slot i) s₁ s' ∧
        ref = StackRef.handle (s'.life.gen (.slot i)) (.slot i) ∧
        Fills i p d s (s'.slots i).span.identity ∧
        (p.spanId s = none → s.Blank → (s'.slots i).span.identity.parentSpanId = 0))
      (fun _ s' => Stays env s s') s := by
  have hcount (f : OtelApiCounters) : Stays env s { s with counters := f } :=
    .of_same ⟨rfl, rfl, rfl, rfl, rfl, rfl, rfl⟩ (.inl rfl)
  unfold startRecording
  rw [wp_bind, wp_get, wp_ite]
  refine ⟨fun _ => .inl ⟨rfl, hcount _, .inl rfl⟩, fun _ => ?_⟩
  rw [wp_ite]
  refine ⟨fun _ => .inl ⟨rfl, hcount _, .inl rfl⟩, fun _ => ?_⟩
  rw [wp_bind]
  refine (((wp_ensurePool_ready env s).and (wp_ensurePool_tokens env s)).and (stays_ensurePool env s)).mono
    (fun ready s₁ h₁ => ?_) fun _ _ h => h.2
  obtain ⟨⟨⟨hp₁, hready⟩, htok₁⟩, hev₁⟩ := h₁
  rw [wp_ite]
  refine ⟨fun _ => .inl ⟨rfl, hev₁.trans ?_, hp₁⟩, fun hr => ?_⟩
  · exact .of_same ⟨rfl, rfl, rfl, rfl, rfl, rfl, rfl⟩ (.inl rfl)
  have hr₁ : s₁.life.poolReady = true := hready (by simpa using hr)
  have hinv₁ := hinv.path (hp₁.path env)
  have hseeded₁ : s₁.prngSeeded = true := (hev₁.seeded hseeded).1
  rw [wp_bind]
  refine (wp_prepareStart_returns env args _ s₁).mono (fun _ s₂ h₂ => ?_) fun _ _ h => hev₁.trans h
  subst h₂
  rw [wp_bind]
  refine (((wp_takeSlot env hinv₁ hr₁).and (stays_takeSlot env s₂)).and
    (wp_takeSlot_frame env s₂)).mono (fun r s₃ h₃ => ?_) fun _ _ h => hev₁.trans h.1.2
  obtain ⟨⟨⟨-, hlife₃⟩, hev₃⟩, hframe₃⟩ := h₃
  cases r with
  | none =>
    have hlife₃ : s₃.life = s₂.life := hlife₃
    refine .inl ⟨rfl, (hev₁.trans hev₃).trans ?_, ?_⟩
    · exact .of_same ⟨rfl, rfl, rfl, rfl, rfl, rfl, rfl⟩ (.inl rfl)
    · rw [← hlife₃] at hp₁
      exact hp₁
  | some i =>
    obtain ⟨t, ht, hlife₃⟩ := hlife₃
    have hfr := hframe₃ i rfl
    refine ((wp_openTakenSlot env i args name p d _ hlife₃).and
      (wp_openTakenSlot_tokens env i args name p d _ s₃)).mono (fun ref s₄ h₄ => ?_)
      fun _ _ h => h.1.elim
    obtain ⟨⟨-, href, hlife₄⟩, x, hx, hkeep, htok₄⟩ := h₄
    have htok : s₄.tokens = (Function.update s₂.tokens.1 i x, s₂.nrecs, s₂.prngSeeded,
        (genAfter s₂.genCounter).1) := by
      have hid : Function.update s₃.tokens.1 i x = Function.update s₂.tokens.1 i x := by
        funext j
        by_cases hj : j = i
        · subst hj
          rw [Function.update_self, Function.update_self]
        · rw [Function.update_of_ne hj, Function.update_of_ne hj]
          exact hfr.identity j hj
      rw [htok₄, hid, hfr.nrecs, hfr.prngSeeded, hfr.genCounter]
    rw [hfr.genCounter] at href hlife₄
    have hopens : Opens args (.slot i) s₂ s₄ :=
      opens_slot (l := openedAs (t.cell i) args (startOwner env args) _ _) hinv₁ hseeded₁ ht rfl rfl
        rfl hlife₄ htok
    have hself : (s₄.slots i).span.identity = x :=
      (congrFun (congrArg Prod.fst htok) i).trans (Function.update_self ..)
    refine .inr ⟨i, s₂, hev₁, hp₁, hopens, href.trans ?_, ?_, fun hp hblank => ?_⟩
    · rw [hopens.gen]
      rfl
    · rw [hself]
      refine hx.congr fun j hj => (hfr.identity j hj).trans ?_
      exact congrFun (congrArg Prod.fst htok₁) j
    · -- The slot was free, and so empty, when it was taken.
      have hp₃ : p.spanId s₃ = none := by cases p <;> first | rfl | cases hp
      rw [hself, hkeep hp₃]
      refine hev₃.blank (hev₁.blank hblank) i ?_ fun hl => hl.2 ?_
      · rw [hlife₃]
        exact (hinv₁.taken ht).lt
      · rw [hlife₃]
        exact (hinv₁.taken_clean ht).1

/-! ## Non-recording spans -/

/-- The entries that are not taken, by what each of them is. -/
theorem opens_nrec {args : OtelSpanStartArgs} {i : ℕ} {t : Pool NrecLife} {n : OtelNrec} {s s' : St}
    (hinv : PoolInv s.life) (hseeded : s.prngSeeded = true) (ht : s.life.takeNrec = some (i, t))
    (hgen : n.gen = (genAfter s.genCounter).1) (hdet : n.detached = args.detached)
    (hreleased : n.ownerReleasedGen = (t.cell i).ownerReleasedGen)
    (hlife : s'.life = ({ s.life with nrecs := t.set i n.toNrecLife } : Lifecycle).pushUnless
      args.detached (.nrec i))
    (hnrecs : ∀ j, j ≠ i → s'.nrecs j = s.nrecs j)
    (hslots : s'.slots = s.slots) (hseeded' : s'.prngSeeded = s.prngSeeded)
    (hcounter : s'.genCounter = (genAfter s.genCounter).1) : Opens args (.nrec i) s s' := by
  have htk := hinv.nrecs_valid.taken ht
  have hpool : s'.life.nrecs = t.set i n.toNrecLife := by
    rw [hlife, Lifecycle.pushUnless_nrecs]
  have hsame : s'.life.slots = s.life.slots := by
    rw [hlife, Lifecycle.pushUnless_slots]
  have hother (j : ℕ) (hj : j ≠ i) : s'.life.nrecs.cell j = s.life.nrecs.cell j := by
    rw [hpool, Pool.set_cell_of_ne hj, htk.same j hj]
  have hself : s'.life.nrecs.cell i = n.toNrecLife := by rw [hpool, Pool.set_cell_self]
  exact {
    free := htk.not_live
    used := fun e => by
      cases e with
      | nrec j =>
        rw [Lifecycle.Used, hpool, Pool.set_used, htk.used_iff, Lifecycle.Used]
        simp
      | slot j => simp [Lifecycle.Used, hsame]
    seeded := ⟨hseeded, hseeded'.trans hseeded⟩
    counter := hcounter
    nslots := by
      have hn : s'.nslots = s'.life.nslots := rfl
      rw [hn, hlife, Lifecycle.pushUnless_nslots]
      rfl
    gen := by rw [Lifecycle.gen, hself, hgen]
    detached := by rw [Lifecycle.detached, hself, hdet]
    others := fun e he => by
      cases e with
      | nrec j =>
        have hj : j ≠ i := fun heq => he (heq ▸ rfl)
        simp [Lifecycle.gen, Lifecycle.detached, hother j hj]
      | slot j => simp [Lifecycle.gen, Lifecycle.detached, hsame]
    released := fun e he => by
      cases e with
      | slot j => simp [Lifecycle.releasedGen, hsame]
      | nrec j =>
        by_cases hj : j = i
        · subst hj
          rw [Lifecycle.releasedGen, hself, hreleased, Pool.take_cell ht he]
          rfl
        · simp [Lifecycle.releasedGen, hother j hj]
    identity := fun j _ => by rw [hslots]
    nrec := fun j hj => hnrecs j fun heq => hj (heq ▸ rfl)
    stack := by
      have hstack : s'.spanStack = s'.life.spanStack := rfl
      rw [hstack, hlife, Lifecycle.pushUnless_spanStack]
      rfl }

theorem wp_startNrec_opens (args : OtelSpanStartArgs) (traceId : OtelTraceId) (flags : TraceFlags)
    {s : St} (hinv : PoolInv s.life) (hseeded : s.prngSeeded = true) :
    Wp (startNrec env args traceId flags)
      (fun ref s' => (ref = otelSpanNone ∧ Stays env s s' ∧ s'.life = s.life) ∨ ∃ i, Opens args (.nrec i) s s' ∧
        ref = StackRef.handle (s'.life.gen (.nrec i)) (.nrec i) ∧
        (s'.nrecs i).haveSpanId = false ∧ (s'.nrecs i).nestLevel = nrecNestLevel env args ∧
        (s'.nrecs i).ctx = { traceId := traceId, traceFlags := flags })
      (fun _ _ => False) s := by
  have hcount (f : OtelApiCounters) : Stays env s { s with counters := f } :=
    .of_same ⟨rfl, rfl, rfl, rfl, rfl, rfl, rfl⟩ (.inl rfl)
  unfold startNrec
  rw [wp_bind, wp_get, wp_ite]
  refine ⟨fun _ => .inl ⟨rfl, hcount _, rfl⟩, fun hlt => ?_⟩
  rw [wp_bind]
  refine wp_takeNrec (.inl ⟨rfl, hcount _, rfl⟩) fun i t s₁ ht hl₁ _ hframe => ?_
  obtain ⟨hother, hslots, hseeded₁, hcounter₁⟩ := hframe
  unfold nextGen
  dsimp only
  rw [wp_bind, wp_bind, wp_get, wp_bind, wp_modify, wp_pure, wp_bind]
  unfold modifyNrec
  rw [wp_modify, wp_bind]
  set n : OtelNrec :=
    { s₁.nrecs i with
      gen := (genAfter s₁.genCounter).1
      nestLevel := nrecNestLevel env args
      detached := args.detached
      haveSpanId := false
      ctx := { traceId := traceId, traceFlags := flags } } with hn
  set s₂ : St :=
    { s₁ with
      genCounter := (genAfter s₁.genCounter).1
      nrecs := Function.update s₁.nrecs i n } with hs₂
  have hself : s₂.nrecs i = n := Function.update_self ..
  have hlife₂ : s₂.life = { s.life with nrecs := t.set i n.toNrecLife } := by
    have hupdate : s₂.life = { s₁.life with nrecs := s₁.life.nrecs.set i n.toNrecLife } :=
      life_updateNrec s₁ i n
    rw [hupdate, hl₁]
  have hnrecs₂ (j : ℕ) (hj : j ≠ i) : s₂.nrecs j = s.nrecs j :=
    (Function.update_of_ne hj ..).trans (hother j hj)
  have hn_released : n.ownerReleasedGen = (t.cell i).ownerReleasedGen :=
    congrArg (fun c : Lifecycle => (c.nrecs.cell i).ownerReleasedGen) hl₁
  -- What is still to come is the push and a counter.
  have hdone (s' : St) (hlife : s'.life = s₂.life.pushUnless args.detached (.nrec i))
      (htokens : s'.slots = s₂.slots ∧ s'.nrecs = s₂.nrecs ∧ s'.prngSeeded = s₂.prngSeeded ∧
        s'.genCounter = s₂.genCounter) :
      Opens args (.nrec i) s s' ∧
        makeRef (genAfter s₁.genCounter).1 i false =
          StackRef.handle (s'.life.gen (.nrec i)) (.nrec i) ∧
        (s'.nrecs i).haveSpanId = false ∧ (s'.nrecs i).nestLevel = nrecNestLevel env args ∧
        (s'.nrecs i).ctx = { traceId := traceId, traceFlags := flags } := by
    obtain ⟨hslots', hnrecs', hseeded', hcounter'⟩ := htokens
    have hopens : Opens args (.nrec i) s s' := by
      refine opens_nrec (n := n) hinv hseeded ht ?_ rfl hn_released (hlife₂ ▸ hlife)
        (fun j hj => ?_) (hslots'.trans hslots) (hseeded'.trans hseeded₁) ?_
      · rw [hn, hcounter₁]
      · rw [hnrecs', hnrecs₂ j hj]
      · rw [hcounter', hs₂, hcounter₁]
    refine ⟨hopens, ?_, ?_, ?_, ?_⟩
    · rw [hopens.gen, hcounter₁]
      rfl
    all_goals rw [hnrecs', hself]
  rw [wp_runIf]
  refine ⟨fun hd => .inr ⟨i, hdone _ ?_ ?_⟩, fun hd => .inr ⟨i, hdone _ ?_ ?_⟩⟩
  · rw [hd]
    rfl
  · exact ⟨rfl, rfl, rfl, rfl⟩
  · rw [Bool.not_eq_false] at hd
    rw [hd]
    rfl
  · exact ⟨rfl, rfl, rfl, rfl⟩

/-! ## Starting -/

/-- `api_span_start`, for every argument. -/
theorem wp_apiSpanStart_opens (args : Option OtelSpanStartArgs) {s : St} (hinv : PoolInv s.life) :
    Wp (apiSpanStart env args) (fun ref s' => Started env s args ref s') (fun _ s' => Stays env s s')
      s := by
  have hbad {s₁ : St} {a : Option OtelSpanStartArgs} (h : Stays env s s₁)
      (hlife : s₁.life = s.life) :
      Wp countBadArgs (fun ref s' => Started env s a ref s') (fun _ s' => Stays env s s') s₁ :=
    .refused _ _ (h.trans (.of_same ⟨rfl, rfl, rfl, rfl, rfl, rfl, rfl⟩ (.inl rfl))) (.inl hlife)
  unfold apiSpanStart
  rw [wp_bind]
  refine (tame_callRefused env false s).mono (fun r s₁ h₁ => ?_) fun _ _ h => h.elim
  have hev₁ : Stays env s s₁ := .of_shape h₁
  have hlife₁ : s₁.life = s.life := (Alike.of_shape h₁).life
  rw [wp_ite]
  refine ⟨fun _ => .refused _ _ hev₁ (.inl hlife₁), fun _ => ?_⟩
  cases args with
  | none => exact hbad hev₁ hlife₁
  | some args =>
    dsimp only
    cases (if args.structSizeOk then args.name else none) with
    | none => exact hbad hev₁ hlife₁
    | some name =>
      dsimp only
      rw [wp_bind]
      refine (wp_seedPrngIfNeeded env (startEffects env) s₁).mono (fun _ s₂ h₂ => ?_)
        fun _ _ h => h.elim
      obtain ⟨hev₂, hseeded, hcore₂, hslots₂, hnrecs₂, -⟩ := h₂
      have hlike₂ : Alike s s₂ := (Alike.of_shape h₁).trans
        ⟨(St.core_eq hcore₂).1, fun i => by rw [hslots₂], hnrecs₂⟩
      rw [wp_bind]
      refine ((wp_resolveParent env args s₂).and (stays_resolveParent env args s₂)).mono
        (fun parent s₃ h₃ => ?_) fun _ _ h => h.1.elim
      obtain ⟨⟨hparent, hlike₃⟩, hev₃⟩ := h₃
      have hev : Stays env s s₃ := (hev₁.trans hev₂).trans hev₃
      have hlike := hlike₂.trans hlike₃
      rw [hlike₂.life] at hparent
      cases parent with
      | none => exact hbad hev hlike.life
      | some p =>
        dsimp only
        rw [wp_bind]
        refine (wp_decideStart env args p s₃).mono (fun d s₄ h₄ => ?_) fun _ _ h => h.elim
        obtain ⟨hd, hshape₄⟩ := h₄
        have hev₄ : Stays env s s₄ := hev.trans (.of_shape hshape₄)
        have hlike₄ := hlike.trans (.of_shape hshape₄)
        have hinv₄ : PoolInv s₄.life := hlike₄.life ▸ hinv
        have hseeded₄ : s₄.prngSeeded = true :=
          (congrArg Shape.prngSeeded hshape₄).trans (hev₃.seeded hseeded).1
        rw [wp_ite]
        refine ⟨fun hdrop => ?_, fun hrec => ?_⟩
        · refine (wp_startNrec_opens env args _ _ hinv₄ hseeded₄).mono (fun ref s₅ h₅ => ?_)
            fun _ _ h => h.elim
          rcases h₅ with ⟨rfl, hev₅, hlife₅⟩ | ⟨i, hopens, rfl, hid, hlevel, hctx⟩
          · exact .refused _ _ (hev₄.trans hev₅) (.inl (hlife₅.trans hlike₄.life))
          · exact .opened args p d _ s₄ s₅ hparent.symm (hlike.decides env hd) hev₄
              (.inl hlike₄.life) hopens (.nrec i hdrop hid hctx hlevel)
        · refine (wp_startRecording_opens env args name p d hinv₄ hseeded₄).mono
            (fun ref s₅ h₅ => ?_) fun _ s₅ h₅ => hev₄.trans h₅
          rw [hlike₄.life] at h₅
          rcases h₅ with ⟨rfl, hev₅, hp₅⟩ | ⟨i, s₅', hev₅, hp₅, hopens, rfl, hfills, hroot⟩
          · exact .refused _ _ (hev₄.trans hev₅) hp₅
          · have hfills := hfills.congr fun j _ => hlike₄.identity j
            have hroot (hp : p.spanId s = none) (hblank : s.Blank) :
                (s₅.slots i).span.identity.parentSpanId = 0 := by
              refine hroot ?_ (hev₄.blank hblank)
              cases p <;> first | rfl | cases hp
            exact .opened args p d _ s₅' s₅ hparent.symm (hlike.decides env hd) (hev₄.trans hev₅)
              hp₅ hopens (.slot i hrec hfills hroot)

end PostgresOtel
