import PostgresOtel.Producer.EndRefinement

/-!
# What open spans keep

Between the start of a span and its end nobody changes what it is known by: its generation, its
identity, the level a non-recording span was started at.  `Evolves` says so of any two states with no
start or activation in between; each function of the producer that neither starts nor activates a
span stays within it.
-/

set_option autoImplicit false

namespace PostgresOtel

open Exec

/-! ## Entries -/

namespace Lifecycle

variable (c : Lifecycle)

/-- The slot or entry has been taken at least once. -/
def Used : StackRef → Prop
  | .slot i => i < c.slots.used
  | .nrec i => i < c.nrecs.used

def gen : StackRef → ℕ
  | .slot i => (c.slots.cell i).gen
  | .nrec i => (c.nrecs.cell i).gen

def releasedGen : StackRef → ℕ
  | .slot i => (c.slots.cell i).ownerReleasedGen
  | .nrec i => (c.nrecs.cell i).ownerReleasedGen

variable {c}

theorem live_iff {e : StackRef} : c.Live e ↔ c.Used e ∧ c.gen e ≠ 0 := by
  cases e <;> exact Iff.rfl

end Lifecycle

/-! ## The relation -/

/-- What happens to an open non-recording span: it may get its span id. -/
structure NrecKeeps (n n' : OtelNrec) : Prop where
  nestLevel : n'.nestLevel = n.nestLevel
  traceId : n'.ctx.traceId = n.ctx.traceId
  traceFlags : n'.ctx.traceFlags = n.ctx.traceFlags
  spanId : (n'.haveSpanId = n.haveSpanId ∧ n'.ctx.spanId = n.ctx.spanId) ∨
    (n.haveSpanId = false ∧ n'.haveSpanId = true ∧ n'.ctx.spanId ≠ 0)

theorem NrecKeeps.refl (n : OtelNrec) : NrecKeeps n n := ⟨rfl, rfl, rfl, .inl ⟨rfl, rfl⟩⟩

theorem NrecKeeps.trans {n n' n'' : OtelNrec} (h : NrecKeeps n n') (h' : NrecKeeps n' n'') :
    NrecKeeps n n'' where
  nestLevel := h'.nestLevel.trans h.nestLevel
  traceId := h'.traceId.trans h.traceId
  traceFlags := h'.traceFlags.trans h.traceFlags
  spanId := by
    rcases h.spanId with ⟨hh, hid⟩ | ⟨hh, hh', hid⟩ <;>
      rcases h'.spanId with ⟨gh, gid⟩ | ⟨gh, gh', gid⟩
    · exact .inl ⟨gh.trans hh, gid.trans hid⟩
    · exact .inr ⟨hh ▸ gh, gh', gid⟩
    · exact .inr ⟨hh, gh.trans hh', gid ▸ hid⟩
    · rw [hh'] at gh
      cases gh

/-- What a call may do besides ending spans: leave the mark of a release by the owner on some entries,
and set up the pool with some size. -/
structure Effects where
  released : StackRef → Prop
  resized : ℕ → Prop

/-- No such effects. -/
def Effects.none : Effects := ⟨fun _ => False, fun _ => False⟩

/-- The slots that are free have no parent left in them. -/
def St.Blank (s : St) : Prop :=
  ∀ i, s.life.Used (.slot i) → ¬ s.life.LiveSlot i → (s.slots i).span.identity.parentSpanId = 0

/-- Spans may end, and nothing happens to those that do not. -/
structure Evolves (eff : Effects) (s s' : St) : Prop where
  used : ∀ e, s.life.Used e → s'.life.Used e
  live : ∀ e, s'.life.Live e → s.life.Live e ∧ s'.life.gen e = s.life.gen e ∧
    s'.life.detached e = s.life.detached e
  released : ∀ e, s.life.Used e → ¬ eff.released e → s'.life.releasedGen e = s.life.releasedGen e
  seeded : s.prngSeeded = true → s'.prngSeeded = true ∧ s'.genCounter = s.genCounter
  counter : s.genCounter < otelGenModulus → s'.genCounter < otelGenModulus
  nslots : s'.nslots = s.nslots ∨ eff.resized s'.nslots
  blank : s.Blank → s'.Blank
  identity : ∀ i, s'.life.LiveSlot i → (s'.slots i).span.identity = (s.slots i).span.identity
  nrec : ∀ i, s'.life.LiveNrec i → NrecKeeps (s.nrecs i) (s'.nrecs i)
  stack : s'.spanStack.Sublist s.spanStack

namespace Evolves

variable {eff : Effects} {s s' s'' : St}

theorem refl (s : St) : Evolves eff s s where
  used _ h := h
  live _ h := ⟨h, rfl, rfl⟩
  released _ _ _ := rfl
  seeded h := ⟨h, rfl⟩
  counter h := h
  nslots := .inl rfl
  blank h := h
  identity _ _ := rfl
  nrec _ _ := .refl _
  stack := List.Sublist.refl _

theorem trans (h : Evolves eff s s') (h' : Evolves eff s' s'') :
    Evolves eff s s'' where
  used e he := h'.used e (h.used e he)
  live e he := by
    obtain ⟨hl', hg', hd'⟩ := h'.live e he
    obtain ⟨hl, hg, hd⟩ := h.live e hl'
    exact ⟨hl, hg'.trans hg, hd'.trans hd⟩
  released e he hne := (h'.released e (h.used e he) hne).trans (h.released e he hne)
  seeded hs := by
    obtain ⟨hs', hc'⟩ := h.seeded hs
    obtain ⟨hs'', hc''⟩ := h'.seeded hs'
    exact ⟨hs'', hc''.trans hc'⟩
  counter hc := h'.counter (h.counter hc)
  nslots := by
    rcases h'.nslots with hn' | hn'
    · rw [hn']
      exact h.nslots
    · exact .inr hn'
  blank hb := h'.blank (h.blank hb)
  identity i hi := (h'.identity i hi).trans (h.identity i (h'.live (.slot i) hi).1)
  nrec i hi := (h.nrec i (h'.live (.nrec i) hi).1).trans (h'.nrec i hi)
  stack := h'.stack.trans h.stack

instance : Std.Refl (Evolves eff) := ⟨refl⟩

instance : IsTrans St (Evolves eff) := ⟨fun _ _ _ => trans⟩

/-- Where the slots and entries have not changed but for the span ids of the latter. -/
theorem of_life (hlife : s'.life = s.life)
    (hseeded : s.prngSeeded = true → s'.prngSeeded = true ∧ s'.genCounter = s.genCounter)
    (hcounter : s.genCounter < otelGenModulus → s'.genCounter < otelGenModulus)
    (hid : ∀ i, (s'.slots i).span.identity = (s.slots i).span.identity)
    (hnrec : ∀ i, NrecKeeps (s.nrecs i) (s'.nrecs i)) : Evolves eff s s' where
  used _ h := hlife ▸ h
  live _ h := ⟨hlife ▸ h, by rw [hlife], by rw [hlife]⟩
  released _ _ _ := by rw [hlife]
  seeded := hseeded
  counter := hcounter
  nslots := .inl (congrArg Lifecycle.nslots hlife)
  blank hb i := by
    rw [hlife, hid]
    exact hb i
  identity i _ := hid i
  nrec i _ := hnrec i
  stack := by
    have hstack : s'.spanStack = s.spanStack := congrArg Lifecycle.spanStack hlife
    rw [hstack]

theorem of_shape (h : s'.shape = s.shape) : Evolves eff s s' := by
  have hcounter : s'.genCounter = s.genCounter := congrArg Shape.genCounter h
  refine of_life (congrArg (fun p : Shape => p.core.1) h) (fun hs => ⟨?_, hcounter⟩)
    (fun hc => hcounter ▸ hc) (fun i => ?_) fun i => ?_
  · exact (congrArg Shape.prngSeeded h).trans hs
  · exact congrFun (congrArg Shape.identity h) i
  · have hn : s'.nrecs i = s.nrecs i := congrFun (congrArg Shape.nrecs h) i
    rw [hn]
    exact .refl _

end Evolves

/-! ## Elementary steps -/

section Elementary

variable {eff : Effects} {α : Type}

theorem Tame.evolves {x : M α} (h : Tame x) : Within (Evolves eff) x := fun s =>
  (h s).mono (fun _ _ hs => .of_shape hs) fun _ _ hf => hf.elim

/-- The relation does not look at counters, core's state, the owners or the log. -/
theorem Evolves.of_same {s s' : St} (h : s'.slots = s.slots ∧ s'.nrecs = s.nrecs ∧
    s'.slotsUsed = s.slotsUsed ∧ s'.nrecsUsed = s.nrecsUsed ∧ s'.spanStack = s.spanStack ∧
    s'.prngSeeded = s.prngSeeded ∧ s'.genCounter = s.genCounter)
    (hsize : s'.nslots = s.nslots ∨ eff.resized s'.nslots) : Evolves eff s s' := by
  obtain ⟨hslots, hnrecs, hused, hnused, hstack, hseeded, hgen⟩ := h
  have hcell : ∀ e, (s'.life.Used e ↔ s.life.Used e) ∧ s'.life.gen e = s.life.gen e ∧
      s'.life.releasedGen e = s.life.releasedGen e ∧ s'.life.detached e = s.life.detached e := by
    intro e
    cases e with
    | slot i =>
      simp [Lifecycle.Used, Lifecycle.gen, Lifecycle.releasedGen, Lifecycle.detached, St.life,
        hslots, hused]
    | nrec i =>
      simp [Lifecycle.Used, Lifecycle.gen, Lifecycle.releasedGen, Lifecycle.detached, St.life,
        hnrecs, hnused]
  exact {
    used := fun e he => (hcell e).1.2 he
    live := fun e he => by
      rw [Lifecycle.live_iff, (hcell e).1, (hcell e).2.1] at he
      exact ⟨Lifecycle.live_iff.2 he, (hcell e).2.1, (hcell e).2.2.2⟩
    released := fun e _ _ => (hcell e).2.2.1
    seeded := fun hs => ⟨hseeded.trans hs, hgen⟩
    counter := fun hc => hgen ▸ hc
    nslots := hsize
    blank := fun hb i hu hl => by
      rw [hslots]
      refine hb i ((hcell (.slot i)).1.1 hu) fun hlive => hl ?_
      have he := Lifecycle.live_iff.1 (show s.life.Live (.slot i) from hlive)
      rw [← (hcell _).1, ← (hcell _).2.1] at he
      exact Lifecycle.live_iff.2 he
    identity := fun i _ => by rw [hslots]
    nrec := fun i _ => by
      rw [hnrecs]
      exact .refl _
    stack := by rw [hstack] }

theorem evolves_modify {f : St → St} (h : ∀ s, (f s).slots = s.slots ∧ (f s).nrecs = s.nrecs ∧
    (f s).slotsUsed = s.slotsUsed ∧ (f s).nrecsUsed = s.nrecsUsed ∧
    (f s).spanStack = s.spanStack ∧ (f s).prngSeeded = s.prngSeeded ∧
    (f s).genCounter = s.genCounter ∧ (f s).nslots = s.nslots) :
    Within (Evolves eff) (modify f : M PUnit) := within_modify fun s => by
  obtain ⟨hslots, hnrecs, hused, hnused, hstack, hseeded, hgen, hsize⟩ := h s
  exact .of_same ⟨hslots, hnrecs, hused, hnused, hstack, hseeded, hgen⟩ (.inl hsize)

theorem evolves_counters (f : OtelApiCounters → OtelApiCounters) :
    Within (Evolves eff) (modifyCounters f) := evolves_modify fun _ => by simp

theorem evolves_backend (f : Backend → Backend) : Within (Evolves eff) (modifyBackend f) :=
  evolves_modify fun _ => by simp

theorem evolves_raiseError (edata : ErrorData) :
    Within (Evolves eff) (raiseError edata : M α) :=
  .bind (evolves_backend _) fun _ => within_throw _

theorem evolves_pgTry {body handler : M α} (hb : Within (Evolves eff) body)
    (hh : Within (Evolves eff) handler) : Within (Evolves eff) (pgTry body handler) := by
  refine .tryCatch hb fun e => ?_
  cases e with
  | error => exact hh
  | fatal => exact within_throw _

theorem evolves_runIf {c : Prop} [Decidable c] {x : M Unit} (h : Within (Evolves eff) x) :
    Within (Evolves eff) (runIf c x) := .ite h (within_pure _)

/-- The stack may shrink. -/
theorem evolves_stack {f : St → List StackEntry} (h : ∀ s, (f s).Sublist s.spanStack) :
    Within (Evolves eff) (modify fun s => { s with spanStack := f s } : M PUnit) :=
  within_modify fun s =>
    { used := fun e he => by cases e <;> exact he
      live := fun e he => by cases e <;> exact ⟨he, rfl, rfl⟩
      released := fun e _ _ => by cases e <;> rfl
      seeded := fun hs => ⟨hs, rfl⟩
      counter := fun hc => hc
      nslots := .inl rfl
      blank := fun hb => hb
      identity := fun _ _ => rfl
      nrec := fun _ _ => .refl _
      stack := h s }

/-- A slot whose span is still there keeps what the span is known by. -/
theorem Evolves.setSlot {s : St} {i : ℕ} {slot : OtelSlot} (head : ℤ) (fates : List (ℕ × Fate))
    (h : (slot.gen = 0 ∧ slot.span.identity.parentSpanId = 0) ∨
      (slot.gen = (s.slots i).gen ∧ slot.detached = (s.slots i).detached ∧
        slot.span.identity = (s.slots i).span.identity))
    (hreleased : eff.released (.slot i) ∨ slot.ownerReleasedGen = (s.slots i).ownerReleasedGen) :
    Evolves eff s { s with
      slots := Function.update s.slots i slot, slotFreeHead := head, fates := fates } := by
  have hself : Function.update s.slots i slot i = slot := Function.update_self ..
  have hother : ∀ j, j ≠ i → Function.update s.slots i slot j = s.slots j :=
    fun j hj => Function.update_of_ne hj ..
  have hkeeps : ∀ j, (Function.update s.slots i slot j).gen ≠ 0 →
      (Function.update s.slots i slot j).gen = (s.slots j).gen ∧
      (Function.update s.slots i slot j).detached = (s.slots j).detached ∧
      (Function.update s.slots i slot j).span.identity = (s.slots j).span.identity := by
    intro j hj
    by_cases hji : j = i
    · subst hji
      rw [hself] at hj ⊢
      exact h.resolve_left fun h => hj h.1
    · rw [hother j hji]
      exact ⟨rfl, rfl, rfl⟩
  exact {
    used := fun e he => by cases e <;> exact he
    live := fun e he => by
      cases e with
      | nrec j => exact ⟨he, rfl, rfl⟩
      | slot j =>
        obtain ⟨hgen, hdet, -⟩ := hkeeps j he.2
        exact ⟨⟨he.1, fun hf => he.2 (hgen.trans hf)⟩, hgen, hdet⟩
    released := fun e _ hne => by
      cases e with
      | nrec j => rfl
      | slot j =>
        change (Function.update s.slots i slot j).ownerReleasedGen = (s.slots j).ownerReleasedGen
        by_cases hji : j = i
        · subst hji
          rw [hself]
          exact hreleased.resolve_left hne
        · rw [hother j hji]
    seeded := fun hs => ⟨hs, rfl⟩
    counter := fun hc => hc
    nslots := .inl rfl
    blank := fun hb j hu hl => by
      change (Function.update s.slots i slot j).span.identity.parentSpanId = 0
      have hfree : (Function.update s.slots i slot j).gen = 0 := by_contra fun hne => hl ⟨hu, hne⟩
      by_cases hji : j = i
      · subst hji
        rw [hself] at hfree ⊢
        rcases h with ⟨-, h⟩ | ⟨hgen, -, hid⟩
        · exact h
        · rw [hid]
          exact hb j hu fun hlive => hlive.2 (hgen.symm.trans hfree)
      · rw [hother j hji] at hfree ⊢
        exact hb j hu fun hlive => hlive.2 hfree
    identity := fun j hj => (hkeeps j hj.2).2.2
    nrec := fun _ _ => .refl _
    stack := List.Sublist.refl _ }

theorem evolves_modifySlot {i : ℕ} {f : OtelSlot → OtelSlot}
    (h : ∀ slot, (f slot).gen = slot.gen ∧ (f slot).detached = slot.detached ∧
      (f slot).span.identity = slot.span.identity)
    (hreleased : eff.released (.slot i) ∨ ∀ slot, (f slot).ownerReleasedGen = slot.ownerReleasedGen) :
    Within (Evolves eff) (modifySlot i f) := fun s =>
  .setSlot s.slotFreeHead s.fates (.inr (h (s.slots i)))
    (hreleased.imp_right fun h => h (s.slots i))

/-- The same for the entries of non-recording spans. -/
theorem Evolves.setNrec {s : St} {i : ℕ} {n : OtelNrec} (head : ℤ)
    (h : n.gen = 0 ∨ (n.gen = (s.nrecs i).gen ∧ n.detached = (s.nrecs i).detached ∧
      NrecKeeps (s.nrecs i) n))
    (hreleased : eff.released (.nrec i) ∨ n.ownerReleasedGen = (s.nrecs i).ownerReleasedGen) :
    Evolves eff s { s with
      nrecs := Function.update s.nrecs i n, nrecFreeHead := head } := by
  have hself : Function.update s.nrecs i n i = n := Function.update_self ..
  have hother : ∀ j, j ≠ i → Function.update s.nrecs i n j = s.nrecs j :=
    fun j hj => Function.update_of_ne hj ..
  have hkeeps : ∀ j, (Function.update s.nrecs i n j).gen ≠ 0 →
      (Function.update s.nrecs i n j).gen = (s.nrecs j).gen ∧
      (Function.update s.nrecs i n j).detached = (s.nrecs j).detached ∧
      NrecKeeps (s.nrecs j) (Function.update s.nrecs i n j) := by
    intro j hj
    by_cases hji : j = i
    · subst hji
      rw [hself] at hj ⊢
      exact h.resolve_left hj
    · rw [hother j hji]
      exact ⟨rfl, rfl, .refl _⟩
  exact {
    used := fun e he => by cases e <;> exact he
    live := fun e he => by
      cases e with
      | slot j => exact ⟨he, rfl, rfl⟩
      | nrec j =>
        obtain ⟨hgen, hdet, -⟩ := hkeeps j he.2
        exact ⟨⟨he.1, fun hf => he.2 (hgen.trans hf)⟩, hgen, hdet⟩
    released := fun e _ hne => by
      cases e with
      | slot j => rfl
      | nrec j =>
        change (Function.update s.nrecs i n j).ownerReleasedGen = (s.nrecs j).ownerReleasedGen
        by_cases hji : j = i
        · subst hji
          rw [hself]
          exact hreleased.resolve_left hne
        · rw [hother j hji]
    seeded := fun hs => ⟨hs, rfl⟩
    counter := fun hc => hc
    nslots := .inl rfl
    blank := fun hb => hb
    identity := fun _ _ => rfl
    nrec := fun j hj => (hkeeps j hj.2).2.2
    stack := List.Sublist.refl _ }

theorem evolves_freeNrec (i : ℕ) (byOwner : Bool) (h : byOwner = true → eff.released (.nrec i)) :
    Within (Evolves eff) (freeNrec i byOwner) := fun s => by
  refine .setNrec _ (.inl rfl) ?_
  cases byOwner with
  | true => exact .inl (h rfl)
  | false => exact .inr rfl

end Elementary

/-! ## Lookups and contexts -/

variable (env : Env) {eff : Effects}

theorem evolves_slotForRef (ref : OtelSpanRef) : Within (Evolves eff) (slotForRef ref) := by
  unfold slotForRef
  refine .bind within_get fun s => .ite (within_pure _) (.ite (within_pure _) ?_)
  exact .bind (evolves_counters _) fun _ => within_pure _

theorem evolves_nrecForRef (ref : OtelSpanRef) : Within (Evolves eff) (nrecForRef ref) := by
  unfold nrecForRef
  refine .bind within_get fun s => .ite (within_pure _) (.ite (within_pure _) ?_)
  exact .bind (evolves_counters _) fun _ => within_pure _

theorem evolves_entryForRef (ref : OtelSpanRef) : Within (Evolves eff) (entryForRef ref) := by
  unfold entryForRef
  refine .ite (.bind (evolves_slotForRef ref) fun _ => within_pure _) ?_
  exact .bind (evolves_nrecForRef ref) fun _ => within_pure _

/-- Seeding happens before there are any generations. -/
theorem wp_seedPrngIfNeeded (eff : Effects) (s : St) :
    Wp (seedPrngIfNeeded env) (fun _ s' => Evolves eff s s' ∧ s'.prngSeeded = true ∧
      s'.core = s.core ∧ s'.slots = s.slots ∧ s'.nrecs = s.nrecs ∧ s'.counters = s.counters)
      (fun _ _ => False) s := by
  unfold seedPrngIfNeeded
  rw [wp_bind, wp_get, wp_ite]
  refine ⟨fun hs => ⟨.refl s, hs, rfl, rfl, rfl, rfl⟩, fun hs => ⟨?_, rfl, rfl, rfl, rfl, rfl⟩⟩
  refine .of_life rfl (fun hs' => absurd hs' hs) (fun _ => ?_) (fun _ => rfl) fun _ => .refl _
  exact Nat.mod_lt _ (by decide)

theorem wp_newSpanId {Q : OtelSpanId → St → Prop} {E : Exn → St → Prop} {s : St}
    (h : ∀ id, id ≠ 0 → Q id { s with tick := s.tick + 1 }) : Wp (newSpanId env) Q E s :=
  h _ (env.spanIdDraw s.tick).2

/-- The one change to an open non-recording span: it gets its id. -/
theorem evolves_nrecContext (i : ℕ) : Within (Evolves eff) (nrecContext env i) := by
  unfold nrecContext
  intro s
  rw [wp_bind, wp_get, wp_ite]
  refine ⟨fun _ => .refl s, fun hid => ?_⟩
  rw [wp_bind]
  refine (wp_seedPrngIfNeeded env eff s).mono (fun _ s₁ h₁ => ?_) fun _ _ h => h.elim
  obtain ⟨hev, -, -, -, hnrecs, -⟩ := h₁
  rw [wp_bind]
  refine wp_newSpanId env fun id hne => ?_
  rw [wp_bind]
  refine hev.trans (.of_life ?_ (fun hs => ⟨hs, rfl⟩) (fun hc => hc) (fun _ => rfl) fun j => ?_)
  · exact life_updateNrec_data { s₁ with tick := s₁.tick + 1 } i _ rfl
  · change NrecKeeps (s₁.nrecs j) (Function.update s₁.nrecs i _ j)
    by_cases hj : j = i
    · subst hj
      rw [Function.update_self, hnrecs]
      exact ⟨rfl, rfl, rfl, .inr ⟨Bool.eq_false_iff.2 hid, rfl, hne⟩⟩
    · rw [Function.update_of_ne hj]
      exact .refl _

theorem evolves_contextOfHandle (ref : OtelSpanRef) :
    Within (Evolves eff) (contextOfHandle env ref) := by
  unfold contextOfHandle
  refine .ite (.bind (evolves_slotForRef ref) fun slot => ?_)
    (.bind (evolves_nrecForRef ref) fun n => ?_)
  · cases slot with
    | none => exact within_pure _
    | some i => exact .bind within_get fun _ => within_pure _
  · cases n with
    | none => exact within_pure _
    | some i => exact .bind (evolves_nrecContext env i) fun _ => within_pure _

theorem evolves_apiSpanContextOf (ref : OtelSpanRef) :
    Within (Evolves eff) (apiSpanContextOf env ref) := by
  unfold apiSpanContextOf otelSpanContextOfInternal
  refine .bind (tame_callRefused env true).evolves fun _ => .ite (within_pure _) ?_
  refine .ite (.bind (tame_resolveActiveParent env).evolves fun p => ?_)
    (evolves_contextOfHandle env _)
  cases p with
  | slot i => exact .bind within_get fun _ => evolves_contextOfHandle env _
  | nrec i => exact .bind (evolves_nrecContext env i) fun _ => within_pure _
  | remote ctx => exact within_pure _
  | none => exact within_pure _

/-! ## Ends -/

theorem evolves_resourceOwnerForget (owner : ResourceOwner) (ref : OtelSpanRef) :
    Within (Evolves eff) (resourceOwnerForget env owner ref) := by
  unfold resourceOwnerForget
  refine .bind within_get fun s => .ite (evolves_raiseError _) ?_
  exact evolves_modify fun _ => by simp

theorem evolves_forgetSlot (i : ℕ) (slot : OtelSlot) :
    Within (Evolves eff) (forgetSlot env i slot) := by
  unfold forgetSlot
  cases slot.owner with
  | none => exact within_pure _
  | some owner => exact evolves_resourceOwnerForget env owner _

theorem evolves_releaseSlot (i : ℕ) (byOwner : Bool) (fate : Fate)
    (h : byOwner = true → eff.released (.slot i)) :
    Within (Evolves eff) (releaseSlot env i byOwner fate) := by
  intro s
  -- The slot is put back with the mark it has in the state the call started in.
  have hput (s₁ : St) (hev : Evolves eff s s₁) (hlife : s₁.core = s.core) : Wp (do
      runIf ((s.slots i).session = true)
        (modify fun s => { s with sessionSpansOpen := s.sessionSpansOpen - 1 })
      modify fun s' =>
        { s' with
          slots := Function.update s'.slots i
            { cxt := (s.slots i).cxt
              ownerReleasedGen :=
                if byOwner then (s.slots i).gen else (s.slots i).ownerReleasedGen
              nextFree := s'.slotFreeHead }
          slotFreeHead := i
          fates := s'.fates ++ [((s.slots i).serial, fate)] })
      (fun _ s' => Evolves eff s s') (fun _ s' => Evolves eff s s') s₁ := by
    have hcell : (s₁.slots i).ownerReleasedGen = (s.slots i).ownerReleasedGen :=
      congrArg (fun c : Lifecycle => (c.slots.cell i).ownerReleasedGen) (St.core_eq hlife).1
    have hmark : eff.released (.slot i) ∨ (if byOwner then (s.slots i).gen
        else (s.slots i).ownerReleasedGen) = (s₁.slots i).ownerReleasedGen := by
      cases byOwner with
      | true => exact .inl (h rfl)
      | false => exact .inr hcell.symm
    have hses : Evolves eff s₁ { s₁ with sessionSpansOpen := s₁.sessionSpansOpen - 1 } :=
      .of_same ⟨rfl, rfl, rfl, rfl, rfl, rfl, rfl⟩ (.inl rfl)
    rw [wp_bind, wp_runIf]
    refine ⟨fun _ => hev.trans (hses.trans ?_), fun _ => hev.trans ?_⟩
    · exact .setSlot _ _ (.inl ⟨rfl, rfl⟩) hmark
    · exact .setSlot _ _ (.inl ⟨rfl, rfl⟩) hmark
  unfold releaseSlot
  rw [wp_bind, wp_get, wp_bind, wp_runIf]
  refine ⟨fun _ => ?_, fun _ => hput s (.refl s) rfl⟩
  refine ((evolves_forgetSlot env i (s.slots i) s).and (wp_forgetSlot env i (s.slots i) s)).mono
    (fun _ s₁ h₁ => hput s₁ h₁.1 h₁.2) fun _ _ h => h.1

theorem evolves_runHookAct (act : HookAct) : Within (Evolves eff) (runHookAct env act) := by
  cases act with
  | report edata => exact (tame_otelEmitLogHook env edata).evolves
  | call => exact .bind (tame_callRefused env false).evolves fun _ => within_pure _
  | contextOf ref => exact .bind (evolves_apiSpanContextOf env ref) fun _ => within_pure _
  | catchError =>
    unfold runHookAct
    exact evolves_backend _

theorem evolves_runHookActs (acts : List HookAct) :
    Within (Evolves eff) (runHookActs env acts) := by
  induction acts with
  | nil => exact within_pure _
  | cons act rest ih => exact .bind (evolves_runHookAct env act) fun _ => ih

theorem evolves_reachSink (serial : ℕ) (span : OtelSpan) (sink : Sink) :
    Within (Evolves eff) (reachSink serial span sink) :=
  evolves_modify fun _ => by simp

theorem evolves_callEmitHook (serial : ℕ) (span : OtelSpan) :
    Within (Evolves eff) (callEmitHook env serial span) := by
  unfold callEmitHook runEmitHook
  cases env.emitHook with
  | none => exact within_pure _
  | some hook =>
    refine .bind (evolves_reachSink serial span .emitHook) fun _ => ?_
    refine .bind (evolves_runHookActs env _) fun _ => ?_
    cases (hook serial).finish with
    | returns => exact within_pure _
    | raisesError edata => exact evolves_raiseError edata
    | raisesFatal => exact within_throw _

theorem evolves_dispatchSpan (serial : ℕ) (span : OtelSpan) :
    Within (Evolves eff) (dispatchSpan env serial span) := by
  have hcatch (depth : ℕ) (save : Backend) :
      Within (Evolves eff) (recoverDispatch depth save) := by
    unfold recoverDispatch flushErrorState
    refine .bind (evolves_backend _) fun _ => .bind (evolves_modify fun _ => by simp) fun _ => ?_
    exact .bind (evolves_backend _) fun _ => .bind (evolves_backend _) fun _ => evolves_counters _
  have hemit : Within (Evolves eff) (emitSpan env serial span) := by
    unfold emitSpan otelEmitSpanAsLogLine
    refine .bind (evolves_modify fun _ => by simp) fun _ => ?_
    refine .bind (evolves_callEmitHook env serial span) fun _ => ?_
    refine .bind (evolves_runIf (.ite (evolves_raiseError _) ?_)) fun _ => ?_
    · exact evolves_reachSink serial span .serverLog
    · exact evolves_modify fun _ => by simp
  unfold dispatchSpan
  refine .bind within_get fun s => .bind (evolves_modify fun _ => by simp) fun _ => ?_
  refine .ite (.bind (evolves_pgTry hemit (hcatch _ _)) fun _ => ?_) (within_pure _)
  exact evolves_counters _

/-- Ending a span leaves it no mark, or the one of its owner. -/
theorem evolves_endSlot (i : ℕ) (endTime : TimestampTz) (unwinding : Bool)
    (reason : Option CString) : Within (Evolves eff) (endSlot env i endTime unwinding reason) := by
  unfold endSlot forgetOwner markUnwound
  have hdata {f : OtelSlot → OtelSlot} (h : ∀ slot, (f slot).gen = slot.gen ∧
      (f slot).detached = slot.detached ∧ (f slot).span.identity = slot.span.identity ∧
      (f slot).ownerReleasedGen = slot.ownerReleasedGen) :
      Within (Evolves eff) (modifySlot i f) :=
    evolves_modifySlot (fun slot => ⟨(h slot).1, (h slot).2.1, (h slot).2.2.1⟩)
      (.inr fun slot => (h slot).2.2.2)
  refine .bind (.bind within_get fun s => .bind (evolves_forgetSlot env i _) fun _ =>
    hdata fun _ => ⟨rfl, rfl, rfl, rfl⟩) fun _ => ?_
  refine .bind (evolves_runIf (.bind (hdata fun _ => ⟨rfl, rfl, rfl, rfl⟩) fun _ =>
    evolves_counters _)) fun _ => ?_
  refine .bind (tame_finishSpan env i endTime).evolves fun _ => ?_
  refine .bind (hdata fun _ => ⟨rfl, rfl, rfl, rfl⟩) fun _ => .bind within_get fun s => ?_
  refine .bind (evolves_dispatchSpan env _ _) fun _ => ?_
  refine .bind (hdata fun _ => ⟨rfl, rfl, rfl, rfl⟩) fun _ => ?_
  exact evolves_releaseSlot env i false .dispatched (fun h => by cases h)

theorem evolves_stackPop : Within (Evolves eff) stackPop :=
  evolves_stack fun _ => List.tail_sublist _

theorem evolves_stackFind (e : StackRef) : Within (Evolves eff) (stackFind e) :=
  .bind within_get fun _ => within_pure _

theorem evolves_stackRemove (e : StackRef) : Within (Evolves eff) (stackRemove e) := by
  unfold stackRemove
  refine .bind (evolves_stackFind e) fun pos => ?_
  cases pos with
  | none => exact within_pure _
  | some pos => exact evolves_stack fun _ => List.eraseIdx_sublist ..

theorem evolves_unwindEntry (e : StackEntry) (reason : CString) :
    Within (Evolves eff) (unwindEntry env e reason) := by
  unfold unwindEntry
  refine .ite (evolves_counters _) ?_
  cases e.entry with
  | slot i => exact evolves_endSlot env i 0 true _
  | nrec i => exact evolves_freeNrec i false (fun h => by cases h)

theorem evolves_unwindTo (keep : ℕ) (reason : CString) (fuel : ℕ) :
    Within (Evolves eff) (unwindTo env keep reason fuel) := by
  induction fuel with
  | zero => exact within_pure _
  | succ fuel ih =>
    unfold unwindTo
    refine .bind within_get fun s => ?_
    cases s.spanStack with
    | nil => exact within_pure _
    | cons e rest =>
      exact .ite (.bind evolves_stackPop fun _ => .bind (evolves_unwindEntry env e reason) fun _ => ih)
        (within_pure _)

theorem evolves_popEntryAt (pos : ℕ) (what reason : String) :
    Within (Evolves eff) (popEntryAt env pos what reason) := by
  have hwarn : Within (Evolves eff) (nonlifoWarning env what pos) := by
    unfold nonlifoWarning
    refine .bind (evolves_counters _) fun _ => .bind within_get fun s => .ite (within_pure _) ?_
    exact .bind (evolves_modify fun _ => by simp) fun _ => (tame_reportWarning env _).evolves
  unfold popEntryAt endAbove stackUnwindAbove
  refine .bind (evolves_runIf (.bind hwarn fun _ => ?_)) fun _ => evolves_stackPop
  exact .bind within_get fun _ => evolves_unwindTo env _ _ _

theorem evolves_popEnded (e : StackRef) (what : String) :
    Within (Evolves eff) (popEnded env e what) := by
  unfold popEnded
  refine .bind (evolves_stackFind e) fun pos => ?_
  cases pos with
  | none => exact within_pure _
  | some pos => exact evolves_popEntryAt env pos what _

theorem evolves_apiSpanEnd (ref : OtelSpanRef) (endTime : TimestampTz) :
    Within (Evolves eff) (apiSpanEnd env ref endTime) := by
  unfold apiSpanEnd
  refine .bind (tame_callRefused env false).evolves fun _ => .ite (within_pure _) (.ite ?_ ?_)
  · refine .bind (evolves_nrecForRef ref) fun n => ?_
    cases n with
    | none => exact within_pure _
    | some i =>
      exact .bind (evolves_popEnded env _ _) fun _ => evolves_freeNrec i false (fun h => by cases h)
  · refine .bind (evolves_slotForRef ref) fun slot => ?_
    cases slot with
    | none => exact within_pure _
    | some i => exact .bind (evolves_popEnded env _ _) fun _ => evolves_endSlot env i _ _ _

theorem evolves_apiSpanDiscard (ref : OtelSpanRef) :
    Within (Evolves eff) (apiSpanDiscard env ref) := by
  unfold apiSpanDiscard
  refine .bind (tame_callRefused env false).evolves fun _ => .ite (within_pure _) (.ite ?_ ?_)
  · refine .bind (evolves_nrecForRef ref) fun n => ?_
    cases n with
    | none => exact within_pure _
    | some i =>
      exact .bind (evolves_stackRemove _) fun _ =>
        .bind (evolves_freeNrec i false (fun h => by cases h)) fun _ => evolves_counters _
  · refine .bind (evolves_slotForRef ref) fun slot => ?_
    cases slot with
    | none => exact within_pure _
    | some i =>
      exact .bind (evolves_stackRemove _) fun _ =>
        .bind (evolves_releaseSlot env i false _ (fun h => by cases h)) fun _ => evolves_counters _

theorem evolves_apiSpanDeactivate (tok : OtelActivation) :
    Within (Evolves eff) (apiSpanDeactivate env tok) := by
  unfold apiSpanDeactivate
  refine .bind (tame_callRefused env false).evolves fun _ => .ite (within_pure _) ?_
  refine .bind (evolves_entryForRef _) fun entry => ?_
  cases entry with
  | none => exact within_pure _
  | some entry =>
    refine .bind (evolves_stackFind entry) fun pos => ?_
    cases pos with
    | none => exact evolves_counters _
    | some pos => exact evolves_popEntryAt env pos _ _

/-! ## Setters -/

theorem evolves_setterSlot (ref : OtelSpanRef) : Within (Evolves eff) (setterSlot env ref) :=
  .bind (tame_callRefused env false).evolves fun _ => .ite (within_pure _) (evolves_slotForRef ref)

theorem Setter.evolves {ref : OtelSpanRef} {x : M Unit} (h : Setter env ref x) :
    Within (Evolves eff) x := by
  obtain ⟨f, rfl, hnone, hsome⟩ := h
  refine .bind (evolves_setterSlot env ref) fun slot => ?_
  cases slot with
  | none => exact hnone ▸ within_pure _
  | some i => exact (hsome i).evolves

theorem evolves_apiSpanCaptureError (ref : OtelSpanRef) :
    Within (Evolves eff) (apiSpanCaptureError env ref) := by
  unfold apiSpanCaptureError
  refine .bind (evolves_setterSlot env ref) fun slot => ?_
  cases slot with
  | none => exact within_pure _
  | some i =>
    refine .bind within_get fun s => ?_
    cases s.backend.errorStack with
    | nil => exact evolves_raiseError _
    | cons edata _ =>
      refine .ite (tame_slotRecordError env i _).evolves ?_
      refine .ite ?_ (tame_recordCopy env i edata).evolves
      exact .bind (tame_request i _ 0).evolves fun _ => evolves_raiseError _

/-! ## Releases and callbacks -/

theorem evolves_resourceOwnerRelease (owner : ResourceOwner) (ref : OwnedRef) (isCommit : Bool)
    (h : eff.released (.slot (refIdx ref.1))) :
    Within (Evolves eff) (resourceOwnerRelease env owner ref isCommit) := by
  have hdata {f : OtelSlot → OtelSlot} (hf : ∀ slot, (f slot).gen = slot.gen ∧
      (f slot).detached = slot.detached ∧ (f slot).span.identity = slot.span.identity) :
      Within (Evolves eff) (modifySlot (refIdx ref.1) f) := evolves_modifySlot hf (.inl h)
  have hreport : Within (Evolves eff) (reportLeak env ref.1) := by
    unfold reportLeak otelSpanDebugPrint
    refine .bind (.bind within_get fun s => .ite ?_ (within_pure _)) fun _ =>
      (tame_reportWarning env _).evolves
    exact .bind (hdata fun _ => ⟨rfl, rfl, rfl⟩) fun _ => within_pure _
  have hrelease : Within (Evolves eff) (otelSpanReleaseResource env ref.1) := by
    unfold otelSpanReleaseResource
    refine .bind within_get fun s => .ite (within_pure _) ?_
    refine .bind (hdata fun _ => ⟨rfl, rfl, rfl⟩) fun _ => .bind (evolves_stackRemove _) fun _ => ?_
    refine .ite (.bind (evolves_counters _) fun _ => evolves_releaseSlot env _ true _ fun _ => h) ?_
    refine .ite (.bind (evolves_counters _) fun _ => evolves_releaseSlot env _ true _ fun _ => h) ?_
    exact .bind (evolves_endSlot env _ _ _ _) fun _ => hdata fun _ => ⟨rfl, rfl, rfl⟩
  unfold resourceOwnerRelease
  refine .bind (evolves_runIf hreport) fun _ => .bind hrelease fun _ => ?_
  exact evolves_modify fun _ => by simp

/-- What the callbacks drop at the end of a transaction or subtransaction. -/
theorem evolves_dropFromLevel (level : ℕ) (isLeak : Bool) (h : ∀ i, eff.released (.nrec i)) :
    Within (Evolves eff) (do
      dropNrecsFromLevel level
      dropActivationsFromLevel level isLeak) := by
  have hfree (idxs : List ℕ) : Within (Evolves eff) (freeNrecsFromLevel level idxs) := by
    induction idxs with
    | nil => exact within_pure _
    | cons i rest ih =>
      refine .bind within_get fun s => .bind (evolves_runIf ?_) fun _ => ih
      exact evolves_freeNrec i true fun _ => h i
  unfold dropNrecsFromLevel dropActivationsFromLevel
  refine .bind (.bind (evolves_stack fun _ => List.filter_sublist) fun _ =>
    .bind within_get fun s => hfree _) fun _ => ?_
  refine .bind within_get fun s => .bind (evolves_stack fun _ => List.filter_sublist) fun _ => ?_
  exact evolves_runIf (evolves_counters _)

end PostgresOtel
