import PostgresOtel.Producer.Refinement

/-!
# Starts as paths

`api_span_start` either refuses, or opens a slot or a non-recording entry and pushes it unless the
span is detached.  `StartOutcome` lists the three; a start that raises has at most set up the pool
or put a fresh slot on the free list.
-/

set_option autoImplicit false

namespace PostgresOtel

open Exec

variable (env : Env)

namespace Lifecycle

/-- The new span goes on the stack unless it is detached. -/
def pushUnless (c : Lifecycle) (detached : Bool) (e : StackRef) : Lifecycle :=
  if detached then c else c.push ⟨e, false, 0⟩

/-- `c'` is `c`, but for the pool, which `ensure_pool` may just have set up. -/
def Prepared (c c' : Lifecycle) : Prop :=
  c' = c ∨ (c.poolReady = false ∧ ∃ n ok, c' = { c with nslots := n, poolReady := ok })

theorem Prepared.path {c c' : Lifecycle} (h : c.Prepared c') : LifePath env.sink c c' := by
  rcases h with rfl | ⟨hr, n, ok, rfl⟩
  · exact .refl
  · exact .single (.initPool c n ok hr)

theorem Prepared.spanStack {c c' : Lifecycle} (h : c.Prepared c') : c'.spanStack = c.spanStack := by
  rcases h with rfl | ⟨-, n, ok, rfl⟩ <;> rfl

theorem Prepared.live {c c' : Lifecycle} (h : c.Prepared c') (e : StackRef) :
    c'.Live e ↔ c.Live e := by
  rcases h with rfl | ⟨-, n, ok, rfl⟩
  · exact Iff.rfl
  · cases e <;> exact Iff.rfl

end Lifecycle

open Lifecycle

/-- How a start that returns changes the life cycle state, and the handle it returns. -/
inductive StartOutcome (c : Lifecycle) (detached : Bool) : OtelSpanRef → Lifecycle → Prop
  | refused (c' : Lifecycle) : c.Prepared c' → StartOutcome c detached otelSpanNone c'
  | nrec (i : ℕ) (t : Pool NrecLife) (n : NrecLife) : c.takeNrec = some (i, t) → ¬ n.Free →
      n.detached = detached → (detached = false → c.spanStack.length < otelMaxStackDepth) →
      StartOutcome c detached (makeRef n.gen i false)
        (({ c with nrecs := t.set i n } : Lifecycle).pushUnless detached (.nrec i))
  | slot (c₀ : Lifecycle) (i : ℕ) (t : Pool SlotLife) (l : SlotLife) : c.Prepared c₀ →
      c₀.poolReady = true → c₀.takeSlot = some (i, t) → ¬ l.Free → l.leaked = false →
      l.dispatching = false → l.serial = c₀.started → l.detached = detached →
      (detached = false → c.spanStack.length < otelMaxStackDepth) →
      StartOutcome c detached (makeRef l.gen i true)
        ((c₀.openSlot t i l).pushUnless detached (.slot i))

/-- A span just opened is pushed, unless it is detached. -/
theorem path_pushUnless {c : Lifecycle} {detached : Bool} {e : StackRef} (hl : c.Live e)
    (ho : ¬ c.OnStack e) (hd : c.detached e = detached)
    (hlt : detached = false → c.spanStack.length < otelMaxStackDepth) :
    LifePath env.sink c (c.pushUnless detached e) := by
  unfold Lifecycle.pushUnless
  cases detached with
  | true => exact .refl
  | false =>
    exact .single (.push c ⟨e, false, 0⟩ hl ho (hlt rfl) hd.symm)

theorem StartOutcome.path {c c' : Lifecycle} {detached : Bool} {ref : OtelSpanRef}
    (h : StartOutcome c detached ref c') (hinv : PoolInv c) : LifePath env.sink c c' := by
  cases h with
  | refused _ hp => exact hp.path env
  | nrec i t n ht hn hd hlt =>
    have htk := hinv.nrecs_valid.taken ht
    have hstep : LifeStep env.sink c { c with nrecs := t.set i n } := .openNrec c i t n ht hn
    have hlive : ({ c with nrecs := t.set i n } : Lifecycle).Live (.nrec i) :=
      (htk.live_set hn).2 (.inl rfl)
    refine (Relation.ReflTransGen.single hstep).trans
      (path_pushUnless env hlive (fun hon => ?_) ?_ hlt)
    · obtain ⟨e, he, hei⟩ := Lifecycle.onStack_iff.1 hon
      have := hinv.stack_live e he
      rw [hei] at this
      exact htk.not_live this
    · exact (congrArg NrecLife.detached Pool.set_cell_self).trans hd
  | slot c₀ i t l hp hr ht hl hk hdisp hser hd hlt =>
    have hinv₀ := hinv.path (hp.path env)
    have htk := hinv₀.taken ht
    have hstep : LifeStep env.sink c₀ (c₀.openSlot t i l) :=
      .openSlot c₀ i t l hr ht hl hk hdisp hser
    have hlive : (c₀.openSlot t i l).Live (.slot i) := (htk.live_set hl).2 (.inl rfl)
    refine ((hp.path env).tail hstep).trans (path_pushUnless env hlive (fun hon => ?_) ?_ ?_)
    · obtain ⟨e, he, hei⟩ := Lifecycle.onStack_iff.1 hon
      have := hinv₀.stack_live e he
      rw [hei] at this
      exact htk.not_live this
    · exact (congrArg SlotLife.detached Pool.set_cell_self).trans hd
    · intro hdf
      rw [← hp.spanStack] at hlt
      exact hlt hdf

/-! ## Taking a slot -/

theorem wp_createPoolContext (s : St) :
    Wp (createPoolContext env) (fun _ s' => s'.core = s.core)
      (fun e s' => e = .error ∧ s'.life = s.life) s := by
  unfold createPoolContext
  rw [wp_ite]
  exact ⟨fun _ => wp_raiseError fun _ h => ⟨rfl, h⟩, fun _ => rfl⟩

theorem wp_ensurePool {Q : Bool → St → Prop} {E : Exn → St → Prop} {s : St}
    (h : ∀ s' b, s.life.Prepared s'.life → s'.backend.errorStack = s.backend.errorStack →
      (b = true → s'.life.poolReady = true) → Q b s')
    (hraise : ∀ s', s'.life = s.life → E .error s') : Wp (ensurePool env) Q E s := by
  unfold ensurePool allocNoOom ask
  rw [wp_bind, wp_get, wp_ite]
  refine ⟨fun hr => h s true (.inl rfl) rfl fun _ => hr, fun hr => ?_⟩
  have hr' : s.life.poolReady = false := Bool.eq_false_iff.2 hr
  have hcxt : Wp (runIf (s.poolCxt = false) (createPoolContext env))
      (fun _ s' => s'.core = s.core) (fun e s' => e = .error ∧ s'.life = s.life) s := by
    rw [wp_runIf]
    exact ⟨fun _ => wp_createPoolContext env s, fun _ => rfl⟩
  rw [wp_bind]
  refine hcxt.mono (fun _ s₁ h₁ => ?_) fun e s₁ h₁ => ?_
  · obtain ⟨hl₁, he₁⟩ := St.core_eq h₁
    rw [wp_bind, wp_bind, wp_get, wp_bind, wp_modify, wp_pure, wp_bind, wp_modify]
    exact h _ _ (.inr ⟨hr', _, _, congrArg (fun c : Lifecycle =>
      { c with nslots := env.maxOpenSpans, poolReady := !env.allocFails s₁.tick }) hl₁⟩) he₁
      fun hb => hb
  · obtain ⟨rfl, hl₁⟩ := h₁
    exact hraise s₁ hl₁

/-- The pool is usable when it is ready. -/
theorem wp_ensurePool_ready (s : St) :
    Wp (ensurePool env) (fun ready s' => s.life.Prepared s'.life ∧
      (ready = true → s'.life.poolReady = true)) (fun _ _ => True) s :=
  wp_ensurePool env (fun _ _ hp _ hready => ⟨hp, hready⟩) fun _ _ => trivial

theorem wp_prepareStart (args : OtelSpanStartArgs) (owner : Option ResourceOwner) (s : St) :
    Wp (prepareStart env args owner) (fun _ s' => s'.core = s.core)
      (fun _ s' => s'.life = s.life) s := by
  unfold prepareStart
  rw [wp_bind, wp_runIf]
  refine ⟨fun _ => wp_raiseError fun _ h => h, fun _ => ?_⟩
  rw [wp_runIf]
  exact ⟨fun _ => wp_raiseError fun _ h => h, fun _ => rfl⟩

theorem wp_takeFreeSlot {Q : Option ℕ → St → Prop} {E : Exn → St → Prop} {s : St}
    (hnone : Q none s)
    (hsome : ∀ i t s', s.life.takeSlot = some (i, t) → s'.life = { s.life with slots := t } →
      s'.backend.errorStack = s.backend.errorStack → Q (some i) s') :
    Wp takeFreeSlot Q E s := by
  have hhead : s.life.slots.head = s.slotFreeHead := rfl
  have hused : s.life.slots.used = s.slotsUsed := rfl
  unfold takeFreeSlot
  rw [wp_bind, wp_get, wp_ite]
  refine ⟨fun hh => ?_, fun hh => ?_⟩
  · exact hsome _ _ _ (if_pos (hhead ▸ hh)) rfl rfl
  · rw [wp_ite]
    refine ⟨fun hu => ?_, fun _ => hnone⟩
    refine hsome s.slotsUsed _ _ ((if_neg (hhead ▸ hh)).trans (if_pos (hused ▸ hu))) ?_ rfl
    exact congrArg (fun c : Lifecycle => { c with
      slots := ⟨c.slots.cell, s.slotsUsed + 1, c.slots.head⟩ }) (life_updateSlot s s.slotsUsed {})

/-- What a start that raises has done: no span has left. -/
def StartRaises (c c' : Lifecycle) : Prop :=
  LifePath env.sink c c' ∧ ∀ e, c.Live e → c'.Live e

theorem StartRaises.of_eq {c c' : Lifecycle} (h : c' = c) : StartRaises env c c' :=
  ⟨.of_eq h, fun _ he => h ▸ he⟩

theorem Lifecycle.Prepared.raises {c c' c'' : Lifecycle} (h : c.Prepared c')
    (h' : StartRaises env c' c'') : StartRaises env c c'' :=
  ⟨(h.path env).trans h'.1, fun e he => h'.2 e ((h.live e).2 he)⟩

/-- A slot that is taken and put back was no span's. -/
theorem PoolInv.live_putBack {c : Lifecycle} (h : PoolInv c) {i : ℕ} {t : Pool SlotLife}
    {l : SlotLife} (ht : c.takeSlot = some (i, t)) (hl : l.Free) (e : StackRef) :
    ({ c with slots := t.put i l } : Lifecycle).Live e ↔ c.Live e := by
  cases e with
  | slot j => exact (h.taken ht).live_put hl
  | nrec j => exact Iff.rfl

/-- `take_slot`: none if the pool is full; an `ERROR` leaves the slot on the free list. -/
theorem wp_takeSlot {s : St} (hinv : PoolInv s.life) (hr : s.life.poolReady = true) :
    Wp (takeSlot env)
      (fun r s' => s'.backend.errorStack = s.backend.errorStack ∧
        match r with
        | none => s'.life = s.life
        | some i => ∃ t, s.life.takeSlot = some (i, t) ∧ s'.life = { s.life with slots := t })
      (fun _ s' => StartRaises env s.life s'.life) s := by
  unfold takeSlot
  rw [wp_bind]
  refine wp_takeFreeSlot ⟨rfl, rfl⟩ fun i t s₁ ht hl₁ he₁ => ?_
  dsimp only
  rw [wp_bind, wp_get, wp_ite]
  refine ⟨fun _ => ⟨he₁, t, ht, hl₁⟩, fun _ => ?_⟩
  rw [wp_bind]
  refine wp_pgTry ?_
  rw [wp_ite]
  refine ⟨fun _ => wp_raiseError fun s₂ hl₂ => ⟨fun _ => ?_, fun he => by cases he⟩, fun _ => ?_⟩
  · rw [wp_bind]
    unfold pushFreeSlot
    rw [wp_modify, wp_throw]
    have hcell : (s₂.slots i).toSlotLife = t.cell i := by
      change s₂.life.slots.cell i = t.cell i
      rw [hl₂, hl₁]
    have hhead : s₂.slotFreeHead = t.head := by
      change s₂.life.slots.head = t.head
      rw [hl₂, hl₁]
    have hlife : ({ s₂ with
        slots := Function.update s₂.slots i { s₂.slots i with nextFree := s₂.slotFreeHead }
        slotFreeHead := i } : St).life =
        { s.life with slots := t.put i { t.cell i with nextFree := t.head } } := by
      refine (congrArg (fun c : Lifecycle => { c with
        slots := ⟨c.slots.cell, c.slots.used, i⟩ }) (life_updateSlot s₂ i _)).trans ?_
      simp only [hcell, hhead, hl₂, hl₁]
      rfl
    rw [hlife]
    obtain ⟨hfree, hk, hd⟩ := hinv.taken_clean ht
    exact ⟨.single (.putBack s.life i t _ hr ht hfree rfl hk hd),
      fun e he => (hinv.live_putBack (l := { t.cell i with nextFree := t.head }) ht hfree e).2 he⟩
  · refine wp_modifySlot fun s₂ hl₂ he₂ => ⟨he₂.trans he₁, t, ht, ?_⟩
    rw [hl₂, hl₁]
    have hcell : (s₁.slots i).toSlotLife = t.cell i := by
      change s₁.life.slots.cell i = t.cell i
      rw [hl₁]
    simp only [hcell]
    exact congrArg (fun p => { s.life with slots := p }) Pool.set_eq_self

/-! ## Opening a slot -/

theorem wp_nextGen {Q : {g : ℕ // 0 < g} → St → Prop} {E : Exn → St → Prop} {s : St}
    (h : ∀ s', s'.core = s.core → Q (genAfter s.genCounter) s') : Wp nextGen Q E s := h _ rfl

theorem wp_stackPush (e : StackRef) (s : St) :
    Wp (stackPush e false 0)
      (fun _ s' => s'.life = s.life.push ⟨e, false, 0⟩ ∧
        s'.backend.errorStack = s.backend.errorStack) (fun _ _ => False) s := ⟨rfl, rfl⟩

theorem wp_pushUnless (detached : Bool) (e : StackRef) (s : St) :
    Wp (runIf (detached = false) (stackPush e false 0))
      (fun _ s' => s'.life = s.life.pushUnless detached e ∧
        s'.backend.errorStack = s.backend.errorStack) (fun _ _ => False) s := by
  rw [wp_runIf]
  refine ⟨fun hd => ?_, fun hd => ?_⟩
  · rw [hd]
    exact wp_stackPush e s
  · rw [Bool.not_eq_false] at hd
    rw [hd]
    exact ⟨rfl, rfl⟩

/-- The life cycle fields of a span that starts in the taken slot. -/
def openedAs (l : SlotLife) (args : OtelSpanStartArgs) (owner : Option ResourceOwner)
    (gen serial : ℕ) : SlotLife :=
  { l with
    gen := gen, detached := args.detached, session := owner.isNone, owner := owner,
    serial := serial }

/-- The last part of `api_span_start` cannot fail. -/
theorem wp_openTakenSlot (i : ℕ) (args : OtelSpanStartArgs) (name : CString) (p : ResolvedParent)
    (d : StartDecision) (owner : Option ResourceOwner) {c : Lifecycle} {t : Pool SlotLife} {s : St}
    (hs : s.life = { c with slots := t }) :
    Wp (openTakenSlot env i args name p d owner)
      (fun ref s' => s'.backend.errorStack = s.backend.errorStack ∧
        ref = makeRef (genAfter s.genCounter).1 i true ∧
        s'.life = (c.openSlot t i (openedAs (t.cell i) args owner (genAfter s.genCounter).1
          c.started)).pushUnless args.detached (.slot i))
      (fun _ _ => False) s := by
  unfold openTakenSlot
  rw [wp_bind]
  refine wp_nextGen fun s₁ h₁ => ?_
  generalize genAfter s.genCounter = g
  obtain ⟨hl₁, he₁⟩ := St.core_eq h₁
  dsimp only
  rw [wp_bind, wp_get, wp_bind]
  refine wp_modifySlot fun s₂ hl₂ he₂ => ?_
  rw [wp_bind]
  refine (quiet_fillSpan env i args name p d).wp fun _ s₃ h₃ => ?_
  obtain ⟨hl₃, he₃⟩ := St.core_eq h₃
  have hlife₃ : s₃.life = { c with
      slots := t.set i (openedAs (t.cell i) args owner g.1 c.started) } := by
    have hcell : (s₁.slots i).toSlotLife = t.cell i := by
      change s₁.life.slots.cell i = t.cell i
      rw [hl₁, hs]
    have hserial : s₁.counters.spansStarted = c.started := by
      change s₁.life.started = c.started
      rw [hl₁, hs]
    rw [hl₃, hl₂]
    simp only [hcell, hserial, hl₁, hs]
    rfl
  have herr₃ : s₃.backend.errorStack = s.backend.errorStack := by rw [he₃, he₂, he₁]
  rw [wp_bind]
  refine (wp_pushUnless args.detached (.slot i) s₃).mono (fun _ s₄ h₄ => ?_) fun _ _ h => h
  rw [wp_bind]
  have hrecord : Wp (recordOwner owner ⟨makeRef g.1 i true, refGen_makeRef_pos g.2 i true⟩)
      (fun _ s₅ => s₅.life = { s₄.life with
          sessionSpansOpen :=
            if owner.isNone then s₄.life.sessionSpansOpen + 1 else s₄.life.sessionSpansOpen } ∧
        s₅.backend.errorStack = s₄.backend.errorStack) (fun _ _ => False) s₄ := by
    cases owner with
    | none => exact ⟨rfl, rfl⟩
    | some o => exact ⟨rfl, rfl⟩
  refine hrecord.mono (fun _ s₅ h₅ => ?_) fun _ _ h => h
  rw [wp_bind]
  change s₅.backend.errorStack = s.backend.errorStack ∧ _
  refine ⟨by rw [h₅.2, h₄.2, herr₃], rfl, ?_⟩
  change ({ s₅.life with started := s₅.life.started + 1 } : Lifecycle) = _
  rw [h₅.1, h₄.1, hlife₃]
  cases args.detached <;> rfl

/-! ## Starting -/

theorem wp_startRecording (args : OtelSpanStartArgs) (name : CString) (p : ResolvedParent)
    (d : StartDecision) {s : St} (hinv : PoolInv s.life) :
    Wp (startRecording env args name p d)
      (fun ref s' => s'.backend.errorStack = s.backend.errorStack ∧
        StartOutcome s.life args.detached ref s'.life)
      (fun _ s' => StartRaises env s.life s'.life) s := by
  unfold startRecording
  rw [wp_bind, wp_get, wp_ite]
  refine ⟨fun _ => ⟨rfl, .refused _ (.inl rfl)⟩, fun _ => ?_⟩
  rw [wp_ite]
  refine ⟨fun _ => ⟨rfl, .refused _ (.inl rfl)⟩, fun hlt => ?_⟩
  rw [wp_bind]
  refine wp_ensurePool env (fun s₁ ready hp₁ he₁ hready => ?_) fun s₁ hl₁ => .of_eq env hl₁
  rw [wp_ite]
  refine ⟨fun _ => ⟨he₁, .refused _ hp₁⟩, fun hr => ?_⟩
  have hr' : s₁.life.poolReady = true := hready (by simpa using hr)
  have hinv₁ := hinv.path (hp₁.path env)
  rw [wp_bind]
  refine (wp_prepareStart env args _ s₁).mono (fun _ s₂ h₂ => ?_) fun _ s₂ h₂ => ?_
  · obtain ⟨hl₂, he₂⟩ := St.core_eq h₂
    rw [← hl₂] at hinv₁ hr' hp₁
    rw [wp_bind]
    refine (wp_takeSlot env hinv₁ hr').mono (fun r s₃ h₃ => ?_) fun _ _ h => hp₁.raises env h
    obtain ⟨he₃, h₃⟩ := h₃
    have herr₃ : s₃.backend.errorStack = s.backend.errorStack := by rw [he₃, he₂, he₁]
    cases r with
    | none =>
      refine ⟨herr₃, .refused _ ?_⟩
      change s.life.Prepared s₃.life
      rw [h₃]
      exact hp₁
    | some i =>
      obtain ⟨t, ht, hl₃⟩ := h₃
      refine (wp_openTakenSlot env i args name p d _ hl₃).mono (fun ref s₄ h₄ => ?_)
        fun _ _ h => h.elim
      obtain ⟨he₄, rfl, hl₄⟩ := h₄
      refine ⟨he₄.trans herr₃, ?_⟩
      rw [hl₄]
      obtain ⟨-, hk, hd⟩ := hinv₁.taken_clean ht
      refine .slot s₂.life i t (openedAs (t.cell i) args (startOwner env args) _ s₂.life.started)
        hp₁ hr' ht (Nat.ne_of_gt (genAfter s₃.genCounter).2) hk hd rfl rfl fun hdf => ?_
      refine Nat.lt_of_not_le fun hle => hlt ⟨?_, hle⟩
      rw [hdf]
      rfl
  · exact hp₁.raises env (.of_eq env h₂)

theorem wp_takeNrec {Q : Option ℕ → St → Prop} {E : Exn → St → Prop} {s : St} (hnone : Q none s)
    (hsome : ∀ i t s', s.life.takeNrec = some (i, t) → s'.life = { s.life with nrecs := t } →
      s'.backend.errorStack = s.backend.errorStack →
      ((∀ j, j ≠ i → s'.nrecs j = s.nrecs j) ∧ s'.slots = s.slots ∧
        s'.prngSeeded = s.prngSeeded ∧ s'.genCounter = s.genCounter) → Q (some i) s') :
    Wp takeNrec Q E s := by
  have hhead : s.life.nrecs.head = s.nrecFreeHead := rfl
  have hused : s.life.nrecs.used = s.nrecsUsed := rfl
  unfold takeNrec
  rw [wp_bind, wp_get, wp_ite]
  refine ⟨fun hh => ?_, fun hh => ?_⟩
  · exact hsome _ _ _ (if_pos (hhead ▸ hh)) rfl rfl ⟨fun _ _ => rfl, rfl, rfl, rfl⟩
  · rw [wp_ite]
    refine ⟨fun hu => ?_, fun _ => hnone⟩
    refine hsome s.nrecsUsed _ _ ((if_neg (hhead ▸ hh)).trans (if_pos (hused ▸ hu))) ?_ rfl
      ⟨fun j hj => Function.update_of_ne hj .., rfl, rfl, rfl⟩
    exact congrArg (fun c : Lifecycle => { c with
      nrecs := ⟨c.nrecs.cell, s.nrecsUsed + 1, c.nrecs.head⟩ }) (life_updateNrec s s.nrecsUsed _)

theorem wp_modifyNrec {i : ℕ} {f : OtelNrec → OtelNrec} {Q : Unit → St → Prop}
    {E : Exn → St → Prop} {s : St}
    (h : ∀ s', s'.life = { s.life with
        nrecs := s.life.nrecs.set i (f (s.nrecs i)).toNrecLife } →
      s'.backend.errorStack = s.backend.errorStack → Q () s') : Wp (modifyNrec i f) Q E s :=
  h _ (life_updateNrec s i _) rfl

theorem wp_startNrec (args : OtelSpanStartArgs) (traceId : OtelTraceId) (flags : TraceFlags)
    (s : St) :
    Wp (startNrec env args traceId flags)
      (fun ref s' => s'.backend.errorStack = s.backend.errorStack ∧
        StartOutcome s.life args.detached ref s'.life)
      (fun _ _ => False) s := by
  unfold startNrec
  rw [wp_bind, wp_get, wp_ite]
  refine ⟨fun _ => ⟨rfl, .refused _ (.inl rfl)⟩, fun hlt => ?_⟩
  rw [wp_bind]
  refine wp_takeNrec ⟨rfl, .refused _ (.inl rfl)⟩ fun i t s₁ ht hl₁ he₁ _ => ?_
  dsimp only
  rw [wp_bind]
  refine wp_nextGen fun s₂ h₂ => ?_
  generalize genAfter s₁.genCounter = g
  obtain ⟨hl₂, he₂⟩ := St.core_eq h₂
  rw [wp_bind]
  refine wp_modifyNrec fun s₃ hl₃ he₃ => ?_
  rw [wp_bind]
  refine (wp_pushUnless args.detached (.nrec i) s₃).mono (fun _ s₄ h₄ => ?_) fun _ _ h => h
  rw [wp_bind]
  change s₄.backend.errorStack = s.backend.errorStack ∧ StartOutcome _ _ _ s₄.life
  refine ⟨by rw [h₄.2, he₃, he₂, he₁], ?_⟩
  have hcell : (s₂.nrecs i).toNrecLife = t.cell i := by
    change s₂.life.nrecs.cell i = t.cell i
    rw [hl₂, hl₁]
  rw [h₄.1, hl₃]
  simp only [hcell, hl₂, hl₁]
  refine .nrec i t { t.cell i with
    gen := g.1, nestLevel := nrecNestLevel env args, detached := args.detached } ht
    (Nat.ne_of_gt g.2) rfl fun hdf => ?_
  refine Nat.lt_of_not_le fun hle => hlt ⟨?_, hle⟩
  rw [hdf]
  rfl

/-- `api_span_start`, for every argument and every outcome. -/
theorem wp_apiSpanStart (args : Option OtelSpanStartArgs) {s : St} (hinv : PoolInv s.life) :
    Wp (apiSpanStart env args)
      (fun ref s' => s'.backend.errorStack = s.backend.errorStack ∧
        StartOutcome s.life ((args.map OtelSpanStartArgs.detached).getD false) ref s'.life)
      (fun _ s' => StartRaises env s.life s'.life) s := by
  have refused {detached : Bool} {s' : St} (h : s'.core = s.core) :
      s'.backend.errorStack = s.backend.errorStack ∧
        StartOutcome s.life detached otelSpanNone s'.life := by
    obtain ⟨hl, he⟩ := St.core_eq h
    exact ⟨he, .refused _ (.inl hl)⟩
  unfold apiSpanStart
  rw [wp_bind]
  refine (tame_callRefused env false).quiet.wp fun r s₁ h₁ => ?_
  rw [wp_ite]
  refine ⟨fun _ => refused h₁, fun _ => ?_⟩
  cases args with
  | none => exact refused h₁
  | some args =>
    dsimp only
    cases (if args.structSizeOk then args.name else none) with
    | none => exact refused h₁
    | some name =>
      dsimp only
      rw [wp_bind]
      refine (quiet_seedPrngIfNeeded env).wp fun _ s₂ h₂ => ?_
      rw [wp_bind]
      refine (quiet_resolveParent env args).wp fun parent s₃ h₃ => ?_
      have h₃' : s₃.core = s.core := h₃.trans (h₂.trans h₁)
      cases parent with
      | none => exact refused h₃'
      | some p =>
        dsimp only
        rw [wp_bind]
        refine (tame_decideStart env args p).quiet.wp fun d s₄ h₄ => ?_
        obtain ⟨hl, he⟩ := St.core_eq (h₄.trans h₃')
        rw [wp_ite, ← hl, ← he]
        refine ⟨fun _ => ?_, fun _ => ?_⟩
        · exact (wp_startNrec env args _ _ s₄).mono (fun _ _ h => h) fun _ _ h => h.elim
        · exact wp_startRecording env args name p d (hl ▸ hinv)

theorem follows_apiSpanStart (args : Option OtelSpanStartArgs) {s : St} (hinv : PoolInv s.life) :
    Follows env s [] (apiSpanStart env args) :=
  (wp_apiSpanStart env args hinv).mono (fun _ _ h => ⟨h.2.path env hinv, h.1⟩) fun _ _ h => h.1

end PostgresOtel
