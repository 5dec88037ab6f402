import PostgresOtel.Producer.Brackets
import PostgresOtel.Producer.DropAccounts

/-!
# Paths of data steps

What the producer's functions do to the data of spans is a path of the steps of `DataStep`.  Most leave
the slots alone.  The log hook, which also the emit hooks reach, records its reports on the open spans
of the active stack.
-/

set_option autoImplicit false

namespace PostgresOtel

open Exec

/-! ## Paths of data steps -/

/-- The slots and the counts of drops are the same, and no span has been started or exported. -/
structure KeepsSlots (s s' : St) : Prop where
  slots : s'.slots = s.slots
  used : s'.slotsUsed = s.slotsUsed
  dispatches : s'.dispatches = s.dispatches
  counts : SameDrops s.counters s'.counters

instance : Std.Refl KeepsSlots := ⟨fun _ => ⟨rfl, rfl, rfl, rfl, rfl⟩⟩

instance : IsTrans St KeepsSlots := ⟨fun _ _ _ h h' => ⟨h'.slots.trans h.slots, h'.used.trans h.used,
  h'.dispatches.trans h.dispatches, h'.counts.1.trans h.counts.1, h'.counts.2.trans h.counts.2⟩⟩

/-- There is nothing left in the slots that are free. -/
def St.FreeBlank (s : St) : Prop := ∀ i < s.slotsUsed, (s.slots i).gen = 0 → (s.slots i).Blank

/-- A path of data steps, along which free slots stay blank. -/
structure Onward (s s' : St) : Prop where
  path : Relation.ReflTransGen (fun s s' => ∃ step : DataStep, step.Enabled s ∧ step.next s = s') s s'
  blank : s.FreeBlank → s'.FreeBlank

instance : Std.Refl Onward := ⟨fun _ => ⟨.refl, id⟩⟩

instance : IsTrans St Onward :=
  ⟨fun _ _ _ h h' => ⟨h.path.trans h'.path, fun hblank => h'.blank (h.blank hblank)⟩⟩

section Onward

variable {s s' s'' : St} {i : ℕ}

theorem Onward.trans (h : Onward s s') (h' : Onward s' s'') : Onward s s'' := IsTrans.trans _ _ _ h h'

theorem Onward.step (step : DataStep) (henabled : step.Enabled s)
    (hblank : s.FreeBlank → (step.next s).FreeBlank) : Onward s (step.next s) where
  path := .single ⟨step, henabled, rfl⟩
  blank := hblank

theorem KeepsSlots.onward (h : KeepsSlots s s') : Onward s s' := by
  apply Onward.step (.other s')
  · constructor
    case slots =>
      intro i hi
      have hlive : s'.life.LiveSlot i ↔ s.life.LiveSlot i := by
        show (i < s'.slotsUsed ∧ (s'.slots i).gen ≠ 0) ↔ (i < s.slotsUsed ∧ (s.slots i).gen ≠ 0)
        rw [h.slots, h.used]
      refine ⟨hlive.1 hi, ?_⟩
      rw [h.slots]
      exact ⟨rfl, rfl, rfl, rfl, rfl⟩
    case counts => exact h.counts
    case dispatches => exact h.dispatches
  · intro hblank i hi
    show (s'.slots i).gen = 0 → (s'.slots i).Blank
    rw [h.slots]
    exact hblank i (h.used ▸ hi)

/-- A slot is changed, in which no span comes to be open. -/
theorem Onward.setSlot {slot : OtelSlot} (hslots : s'.slots = Function.update s.slots i slot)
    (hused : s'.slotsUsed = s.slotsUsed) (hdispatches : s'.dispatches = s.dispatches)
    (hcounts : SameDrops s.counters s'.counters)
    (hslot : (slot.gen = 0 ∧ slot.Blank) ∨ (slot.gen = (s.slots i).gen ∧ SameRecord (s.slots i) slot ∧
      ((s.slots i).Blank → slot.Blank))) : Onward s s' := by
  have hself : s'.slots i = slot := by rw [hslots, Function.update_self]
  have hother (j : ℕ) (hne : j ≠ i) : s'.slots j = s.slots j := by
    rw [hslots, Function.update_of_ne hne]
  apply Onward.step (.other s')
  · constructor
    case slots =>
      rintro j ⟨hlt, hgen⟩
      have hlt : j < s.slotsUsed := hused ▸ hlt
      have hgen : (s'.slots j).gen ≠ 0 := hgen
      by_cases hne : j = i
      · subst hne
        rw [hself] at hgen ⊢
        obtain ⟨hsame, hrecord, -⟩ := hslot.resolve_left fun hfree => hgen hfree.1
        rw [hsame] at hgen
        exact ⟨⟨hlt, hgen⟩, hrecord⟩
      · rw [hother j hne] at hgen ⊢
        exact ⟨⟨hlt, hgen⟩, rfl, rfl, rfl, rfl, rfl⟩
    case counts => exact hcounts
    case dispatches => exact hdispatches
  · intro hblank j hj hgen
    have hj : j < s.slotsUsed := hused ▸ hj
    show (s'.slots j).Blank
    have hgen : (s'.slots j).gen = 0 := hgen
    by_cases hne : j = i
    · subst hne
      rw [hself] at hgen ⊢
      rcases hslot with ⟨-, hnew⟩ | ⟨hsame, -, hkeeps⟩
      · exact hnew
      · exact hkeeps (hblank j hj (hsame ▸ hgen))
    · rw [hother j hne] at hgen ⊢
      exact hblank j hj hgen

end Onward

/-! ## Functions that leave the slots alone -/

section KeepsSlots

variable {α : Type}

theorem keepsSlots_modify {f : St → St} (h : ∀ s, KeepsSlots s (f s)) :
    Within KeepsSlots (modify f : M PUnit) := within_modify h

theorem keepsSlots_counters {f : OtelApiCounters → OtelApiCounters} (h : ∀ c, SameDrops c (f c)) :
    Within KeepsSlots (modifyCounters f) := keepsSlots_modify fun s => ⟨rfl, rfl, rfl, h s.counters⟩

theorem keepsSlots_backend (f : Backend → Backend) : Within KeepsSlots (modifyBackend f) :=
  keepsSlots_modify fun _ => ⟨rfl, rfl, rfl, rfl, rfl⟩

theorem keepsSlots_raiseError (edata : ErrorData) : Within KeepsSlots (raiseError edata : M α) :=
  .bind (keepsSlots_backend _) fun _ => within_throw _

theorem keepsSlots_ask (answer : ℕ → α) : Within KeepsSlots (ask answer) := by
  refine .bind within_get fun s => .bind (keepsSlots_modify fun _ => ?_) fun _ => within_pure _
  exact ⟨rfl, rfl, rfl, rfl, rfl⟩

theorem keepsSlots_runIf {c : Prop} [Decidable c] {x : M Unit} (h : Within KeepsSlots x) :
    Within KeepsSlots (runIf c x) := .ite h (within_pure _)

variable (env : Env)

theorem keepsSlots_callRefused (readOnly : Bool) : Within KeepsSlots (callRefused env readOnly) := by
  unfold callRefused
  refine .bind within_get fun s => .ite (.bind ?_ fun _ => within_pure _) (.ite ?_ (within_pure _))
  · exact keepsSlots_counters fun _ => ⟨rfl, rfl⟩
  · exact .bind (keepsSlots_counters fun _ => ⟨rfl, rfl⟩) fun _ => within_pure _

theorem keepsSlots_slotForRef (ref : OtelSpanRef) : Within KeepsSlots (slotForRef ref) := by
  unfold slotForRef
  refine .bind within_get fun s => .ite (within_pure _) (.ite (within_pure _) (.bind ?_ fun _ => ?_))
  · exact keepsSlots_counters fun _ => ⟨rfl, rfl⟩
  · exact within_pure _

theorem keepsSlots_nrecForRef (ref : OtelSpanRef) : Within KeepsSlots (nrecForRef ref) := by
  unfold nrecForRef
  refine .bind within_get fun s => .ite (within_pure _) (.ite (within_pure _) (.bind ?_ fun _ => ?_))
  · exact keepsSlots_counters fun _ => ⟨rfl, rfl⟩
  · exact within_pure _

theorem keepsSlots_resolveActiveParent : Within KeepsSlots (resolveActiveParent env) := by
  unfold resolveActiveParent
  refine .bind within_get fun s => ?_
  cases s.spanStack with
  | nil => cases remoteContext env <;> exact within_pure _
  | cons top rest => exact within_pure _

theorem keepsSlots_seedPrngIfNeeded : Within KeepsSlots (seedPrngIfNeeded env) := by
  unfold seedPrngIfNeeded
  refine .bind within_get fun s => .ite (within_pure _) (keepsSlots_modify fun _ => ?_)
  exact ⟨rfl, rfl, rfl, rfl, rfl⟩

theorem keepsSlots_modifyNrec (i : ℕ) (f : OtelNrec → OtelNrec) : Within KeepsSlots (modifyNrec i f) :=
  keepsSlots_modify fun _ => ⟨rfl, rfl, rfl, rfl, rfl⟩

theorem keepsSlots_freeNrec (i : ℕ) (byOwner : Bool) : Within KeepsSlots (freeNrec i byOwner) :=
  keepsSlots_modify fun _ => ⟨rfl, rfl, rfl, rfl, rfl⟩

theorem keepsSlots_nrecContext (i : ℕ) : Within KeepsSlots (nrecContext env i) := by
  unfold nrecContext newSpanId
  refine .bind within_get fun s => .ite (within_pure _) (.bind (keepsSlots_seedPrngIfNeeded env) fun _ => ?_)
  refine .bind (keepsSlots_ask _) fun id => .bind (keepsSlots_modifyNrec _ _) fun _ => ?_
  exact .bind within_get fun _ => within_pure _

theorem keepsSlots_contextOfHandle (ref : OtelSpanRef) : Within KeepsSlots (contextOfHandle env ref) := by
  unfold contextOfHandle
  refine .ite (.bind (keepsSlots_slotForRef ref) fun slot => ?_)
    (.bind (keepsSlots_nrecForRef ref) fun n => ?_)
  · cases slot with
    | none => exact within_pure _
    | some i => exact .bind within_get fun _ => within_pure _
  · cases n with
    | none => exact within_pure _
    | some i => exact .bind (keepsSlots_nrecContext env i) fun _ => within_pure _

theorem keepsSlots_apiSpanContextOf (ref : OtelSpanRef) : Within KeepsSlots (apiSpanContextOf env ref) := by
  unfold apiSpanContextOf otelSpanContextOfInternal
  refine .bind (keepsSlots_callRefused env true) fun _ => .ite (within_pure _) ?_
  refine .ite (.bind (keepsSlots_resolveActiveParent env) fun p => ?_) (keepsSlots_contextOfHandle env _)
  cases p with
  | slot i => exact .bind within_get fun _ => keepsSlots_contextOfHandle env _
  | nrec i => exact .bind (keepsSlots_nrecContext env i) fun _ => within_pure _
  | remote ctx => exact within_pure _
  | none => exact within_pure _

theorem keepsSlots_apiSpanCurrent : Within KeepsSlots (apiSpanCurrent env) := by
  unfold apiSpanCurrent
  refine .bind (keepsSlots_callRefused env true) fun _ => .ite (within_pure _) ?_
  refine .bind within_get fun s => ?_
  cases s.spanStack with
  | nil => exact within_pure _
  | cons top rest => cases htop : top.entry <;> simp only [htop] <;> exact within_pure _

theorem keepsSlots_forgetSlot (i : ℕ) (slot : OtelSlot) : Within KeepsSlots (forgetSlot env i slot) := by
  unfold forgetSlot resourceOwnerForget
  cases slot.owner with
  | none => exact within_pure _
  | some owner =>
    refine .bind within_get fun s => .ite (keepsSlots_raiseError _) (keepsSlots_modify fun _ => ?_)
    exact ⟨rfl, rfl, rfl, rfl, rfl⟩

theorem keepsSlots_stack (f : St → List StackEntry) :
    Within KeepsSlots (modify fun s => { s with spanStack := f s } : M PUnit) :=
  keepsSlots_modify fun _ => ⟨rfl, rfl, rfl, rfl, rfl⟩

theorem keepsSlots_stackFind (e : StackRef) : Within KeepsSlots (stackFind e) :=
  .bind within_get fun _ => within_pure _

theorem keepsSlots_stackRemove (e : StackRef) : Within KeepsSlots (stackRemove e) := by
  unfold stackRemove
  refine .bind (keepsSlots_stackFind e) fun pos => ?_
  cases pos with
  | none => exact within_pure _
  | some pos => exact keepsSlots_stack _

theorem keepsSlots_dropFromLevel (level : ℕ) (isLeak : Bool) : Within KeepsSlots (do
    dropNrecsFromLevel level
    dropActivationsFromLevel level isLeak) := by
  have hfree (idxs : List ℕ) : Within KeepsSlots (freeNrecsFromLevel level idxs) := by
    induction idxs with
    | nil => exact within_pure _
    | cons i rest ih =>
      exact .bind within_get fun s => .bind (keepsSlots_runIf (keepsSlots_freeNrec i true)) fun _ => ih
  unfold dropNrecsFromLevel dropActivationsFromLevel
  refine .bind (.bind (keepsSlots_stack _) fun _ => .bind within_get fun s => hfree _) fun _ => ?_
  refine .bind within_get fun s => .bind (keepsSlots_stack _) fun _ => keepsSlots_runIf ?_
  exact keepsSlots_counters fun _ => ⟨rfl, rfl⟩

end KeepsSlots

/-! ## The log hook -/

/-- What the log hook may record on the spans of the active stack. -/
def Lifecycle.StackOpen (c : Lifecycle) : Prop :=
  ∀ i, c.OnStack (.slot i) → (c.slots.cell i).dispatching = false →
    i < 2 ^ 32 ∧ c.LiveSlot i ∧ (c.slots.cell i).serial ∉ c.dispatched

/-- The life cycle stays as it is, and what the log hook records are data steps. -/
structure Calm (s s' : St) : Prop where
  life : s'.life = s.life
  onward : s.life.StackOpen → Onward s s'

instance : Std.Refl Calm := ⟨fun s => ⟨rfl, fun _ => Std.Refl.refl s⟩⟩

instance : IsTrans St Calm := ⟨fun _ _ _ h h' => ⟨h'.life.trans h.life, fun hopen =>
  (h.onward hopen).trans (h'.onward (h.life ▸ hopen))⟩⟩

/-- An operation on an open span, or a part of its end. -/
theorem Onward.openSpan (step : DataStep) {s : St} {i : ℕ} (henabled : step.Enabled s)
    (hlive : s.life.LiveSlot i) (hused : (step.next s).slotsUsed = s.slotsUsed)
    (hothers : ∀ j, j ≠ i → (step.next s).slots j = s.slots j)
    (hgen : ((step.next s).slots i).gen = (s.slots i).gen) : Onward s (step.next s) := by
  apply Onward.step step henabled
  intro hblank j hj hfree
  rw [hused] at hj
  by_cases hne : j = i
  · subst hne
    rw [hgen] at hfree
    exact absurd hfree hlive.2
  · rw [hothers j hne] at hfree ⊢
    exact hblank j hj hfree

section Capture

variable (env : Env) {i : ℕ}

theorem onward_operate (op : SpanOp) {ref : OtelSpanRef} {s : St} (hfinish : op.isFinish = false)
    (hopen : s.OpenSpan (refIdx ref)) : Onward s (endState (op.run env ref) s) := by
  have hop : OpTallies env ref op s (endState (op.run env ref) s) := SpanOp.tallies env hfinish
  have hslot := hop.tallies.slot
  apply Onward.openSpan (.operate env ref op) ⟨hfinish, hopen⟩ hopen.1
  · exact hop.tallies.used
  · exact hslot.others
  · exact congrArg SlotLife.gen hslot.slot

theorem onward_captureTurn (edata : ErrorData) (recorded : Bool) {s : St} (hlt : i < 2 ^ 32)
    (hopen : s.OpenSpan i) :
    Wp (captureTurn env edata recorded i) (fun _ s' => s'.life = s.life ∧ Onward s s')
      (fun _ _ => False) s := by
  have hidx : refIdx (makeRef 0 i true) = i := refIdx_makeRef hlt true
  obtain ⟨ref, rfl⟩ : ∃ ref, refIdx ref = i := ⟨_, hidx⟩
  have hrun := onward_operate env (.capture edata recorded) rfl hopen
  have htame : Tame (captureTurn env edata recorded (refIdx ref)) := by
    unfold captureTurn
    exact .ite (tame_slotRecordError env _ edata) (tame_markSpanError env _ edata)
  refine ((wp_endState _ s).and (htame s)).mono (fun _ s' h => ?_) fun _ _ h => h.2.elim
  obtain ⟨rfl, hshape⟩ := h
  exact ⟨congrArg (fun p : Shape => p.core.1) hshape, hrun⟩

theorem onward_recordOnStack (edata : ErrorData) (l : List StackEntry) (recorded : Bool) (s : St)
    (hstack : ∀ e ∈ l, e ∈ s.spanStack) (hopen : s.life.StackOpen) :
    Wp (recordOnStack env edata l recorded) (fun _ s' => s'.life = s.life ∧ Onward s s')
      (fun _ _ => False) s := by
  induction l generalizing recorded s with
  | nil => exact ⟨rfl, Std.Refl.refl s⟩
  | cons e rest ih =>
    have hrest : ∀ e ∈ rest, e ∈ s.spanStack := fun e he => hstack e (List.mem_cons_of_mem _ he)
    have hnext (recorded : Bool) := ih recorded s hrest hopen
    cases he : e.entry with
    | nrec i =>
      unfold recordOnStack
      rw [he]
      exact hnext recorded
    | slot i =>
      rw [recordOnStack_slot env rest recorded he, wp_bind, wp_get, wp_ite]
      refine ⟨fun _ => hnext recorded, fun hdispatching => ?_⟩
      have hon : s.life.OnStack (.slot i) :=
        Lifecycle.onStack_iff.2 ⟨e, hstack e List.mem_cons_self, he⟩
      have hspan := hopen i hon (Bool.eq_false_iff.2 hdispatching)
      have hturn := onward_captureTurn env edata recorded hspan.1 hspan.2
      rw [wp_ite]
      refine ⟨fun _ => hturn, fun _ => ?_⟩
      rw [wp_ite]
      refine ⟨fun _ => hnext recorded, fun _ => ?_⟩
      rw [wp_bind]
      refine hturn.mono (fun _ s₁ h₁ => ?_) fun _ _ h => h
      have hstack₁ : s₁.spanStack = s.spanStack := congrArg Lifecycle.spanStack h₁.1
      refine (ih true s₁ (hstack₁ ▸ hrest) (h₁.1 ▸ hopen)).mono (fun _ s₂ h₂ => ?_) fun _ _ h => h
      exact ⟨h₂.1.trans h₁.1, h₁.2.trans h₂.2⟩

theorem KeepsSlots.calm {s s' : St} (hlife : s'.life = s.life) (h : KeepsSlots s s') : Calm s s' :=
  ⟨hlife, fun _ => h.onward⟩

theorem calm_otelEmitLogHook (edata : ErrorData) : Within Calm (otelEmitLogHook env edata) := by
  intro s
  have htame := tame_otelEmitLogHook env edata s
  by_cases hopen : s.life.StackOpen
  · unfold otelEmitLogHook
    rw [wp_bind, wp_get, wp_ite]
    refine ⟨fun _ => ?_, fun _ => Std.Refl.refl s⟩
    refine (onward_recordOnStack env edata _ false s (fun _ he => he) hopen).mono (fun _ s' h => ?_)
      fun _ _ h => h.elim
    exact ⟨h.1, fun _ => h.2⟩
  · refine htame.mono (fun _ s' h => ?_) fun _ _ h => h.elim
    exact ⟨congrArg (fun p : Shape => p.core.1) h, fun h => absurd h hopen⟩

theorem calm_reportWarning (edata : ErrorData) : Within Calm (reportWarning env edata) := by
  unfold reportWarning
  exact .ite (calm_otelEmitLogHook env edata) (within_pure _)

end Capture

/-! ## The emit hooks -/

section Hooks

variable (env : Env) {α : Type}

theorem calm_of_quiet {x : M α} (hquiet : Quiet x) (hslots : Within KeepsSlots x) : Within Calm x := by
  intro s
  refine ((hquiet s).and (hslots s)).mono (fun _ s' h => ?_) fun _ _ h => h.1.elim
  exact h.2.calm (St.core_eq h.1).1

theorem calm_backend (f : Backend → Backend) : Within Calm (modifyBackend f) :=
  within_modify fun _ => KeepsSlots.calm rfl ⟨rfl, rfl, rfl, rfl, rfl⟩

theorem calm_raiseError (edata : ErrorData) : Within Calm (raiseError edata : M α) :=
  .bind (calm_backend _) fun _ => within_throw _

theorem calm_runHookAct (act : HookAct) : Within Calm (runHookAct env act) := by
  cases act with
  | report edata => exact calm_otelEmitLogHook env edata
  | call =>
    refine .bind (calm_of_quiet ?_ (keepsSlots_callRefused env false)) fun _ => within_pure _
    exact (tame_callRefused env false).quiet
  | contextOf ref =>
    refine .bind (calm_of_quiet ?_ (keepsSlots_apiSpanContextOf env ref)) fun _ => within_pure _
    exact quiet_apiSpanContextOf env ref
  | catchError =>
    unfold runHookAct
    exact calm_backend _

theorem calm_runHookActs (acts : List HookAct) : Within Calm (runHookActs env acts) := by
  induction acts with
  | nil => exact within_pure _
  | cons act rest ih => exact .bind (calm_runHookAct env act) fun _ => ih

theorem keepsSlots_reachSink (serial : ℕ) (span : OtelSpan) (sink : Sink) :
    Within KeepsSlots (reachSink serial span sink) :=
  keepsSlots_modify fun _ => ⟨rfl, rfl, rfl, rfl, rfl⟩

theorem calm_callEmitHook (serial : ℕ) (span : OtelSpan) :
    Within Calm (callEmitHook env serial span) := by
  unfold callEmitHook runEmitHook
  cases env.emitHook with
  | none => exact within_pure _
  | some hook =>
    refine .bind (within_modify fun _ => KeepsSlots.calm rfl ⟨rfl, rfl, rfl, rfl, rfl⟩) fun _ => ?_
    refine .bind (calm_runHookActs env _) fun _ => ?_
    cases (hook serial).finish with
    | returns => exact within_pure _
    | raisesError edata => exact calm_raiseError edata
    | raisesFatal => exact within_throw _

theorem Onward.wp {x : M α} {s s₁ : St} (h : Onward s s₁)
    (hx : Wp x (fun _ s' => Onward s₁ s') (fun _ s' => Onward s₁ s') s₁) :
    Wp x (fun _ s' => Onward s s') (fun _ s' => Onward s s') s₁ :=
  hx.mono (fun _ _ h₁ => h.trans h₁) fun _ _ h₁ => h.trans h₁

theorem onward_keepsSlots {x : M α} (hx : Within KeepsSlots x) : Within Onward x := fun s =>
  (hx s).mono (fun _ _ h => h.onward) fun _ _ h => h.onward

theorem onward_calm {x : M α} {s : St} (hx : Within Calm x) (hopen : s.life.StackOpen) :
    Wp x (fun _ s' => Onward s s') (fun _ s' => Onward s s') s :=
  (hx s).mono (fun _ _ h => h.onward hopen) fun _ _ h => h.onward hopen

theorem onward_emitSpan (serial : ℕ) (span : OtelSpan) {s : St} (hopen : s.life.StackOpen) :
    Wp (emitSpan env serial span) (fun _ s' => Onward s s') (fun _ s' => Onward s s') s := by
  have hdepth (s : St) (depth : ℕ) : Onward s { s with dispatchDepth := depth } :=
    KeepsSlots.onward ⟨rfl, rfl, rfl, rfl, rfl⟩
  have hrest : Within Onward (do
      runIf (env.emitSpansToLog = true) (otelEmitSpanAsLogLine env serial span)
      modify fun s => { s with dispatchDepth := s.dispatchDepth - 1 }) := by
    unfold otelEmitSpanAsLogLine
    refine .bind (onward_keepsSlots (keepsSlots_runIf ?_)) fun _ => within_modify fun s => hdepth s _
    exact .ite (keepsSlots_raiseError _) (keepsSlots_reachSink serial span .serverLog)
  unfold emitSpan
  rw [wp_bind, wp_modify]
  apply (hdepth s _).wp
  rw [wp_bind]
  have hhook := onward_calm (calm_callEmitHook env serial span)
    (show ({ s with dispatchDepth := s.dispatchDepth + 1 } : St).life.StackOpen from hopen)
  exact hhook.mono (fun _ s₂ h₂ => h₂.wp (hrest s₂)) fun _ _ h => h

theorem onward_recoverDispatch (depth : ℕ) (save : Backend) :
    Within Onward (recoverDispatch depth save) := by
  unfold recoverDispatch flushErrorState
  apply onward_keepsSlots
  refine .bind (keepsSlots_backend _) fun _ => .bind (keepsSlots_modify fun _ => ?_) fun _ => ?_
  · exact ⟨rfl, rfl, rfl, rfl, rfl⟩
  · exact .bind (keepsSlots_backend _) fun _ => .bind (keepsSlots_backend _) fun _ =>
      keepsSlots_counters fun _ => ⟨rfl, rfl⟩

/-- From when the span is on its way out. -/
theorem onward_dispatch (i : ℕ) {s s₁ : St} (h : Onward s (s₁.handOver i env.sinks))
    (hopen : (s₁.handOver i env.sinks).life.StackOpen) :
    Wp (do
        modifySlot i fun slot => { slot with dispatching := true }
        let s ← get
        dispatchSpan env (s.slots i).serial (s.slots i).span)
      (fun _ s' => Onward s s') (fun _ s' => Onward s s') s₁ := by
  have hemit (serial : ℕ) (span : OtelSpan) (depth : ℕ) (save : Backend) : Wp (if env.sink then do
        pgTry (emitSpan env serial span) (recoverDispatch depth save)
        modifyCounters fun c => { c with spansEmitted := c.spansEmitted + 1 }
      else
        return ()) (fun _ s' => Onward s s') (fun _ s' => Onward s s') (s₁.handOver i env.sinks) := by
    apply h.wp
    rw [wp_ite]
    refine ⟨fun _ => ?_, fun _ => Std.Refl.refl _⟩
    rw [wp_bind]
    have hcount (s₂ : St) (h₂ : Onward (s₁.handOver i env.sinks) s₂) :=
      h₂.wp (onward_keepsSlots (keepsSlots_counters (f := fun c =>
        { c with spansEmitted := c.spansEmitted + 1 }) fun _ => ⟨rfl, rfl⟩) s₂)
    apply wp_pgTry
    refine (onward_emitSpan env serial span hopen).mono (fun _ s₂ h₂ => hcount s₂ h₂) fun e s₂ h₂ => ?_
    refine ⟨fun _ => ?_, fun _ => h₂⟩
    exact (h₂.wp (onward_recoverDispatch depth save s₂)).mono (fun _ s₃ h₃ => hcount s₃ h₃)
      fun _ _ h => h
  rw [wp_bind]
  show Wp _ _ _ { s₁ with slots := Function.update s₁.slots i { s₁.slots i with dispatching := true } }
  unfold dispatchSpan
  rw [wp_bind, wp_get, wp_bind, wp_get, wp_bind, wp_modify]
  dsimp only
  rw [Function.update_self]
  exact hemit _ _ _ _

end Hooks

end PostgresOtel
