import Mathlib.Data.Fintype.EquivFin
import PostgresOtel.Producer.AbortMarks
import PostgresOtel.Producer.Evolution
import PostgresOtel.Producer.SpanLowering

/-!
# What a dispatch disturbs

`dispatch_span` restores what an `ERROR` disturbs when the `ERROR` reaches its own `PG_CATCH`.  A hook
that catches its own `ERROR` leaves the error context current and the holdoff counts zero, and what a
hook reports reaches the log hook, which records it on the spans that are still open.
-/

set_option autoImplicit false

namespace PostgresOtel

open Exec

/-! ## Marks that are there already -/

variable {env : Env} {edata : ErrorData}

theorem ErrorMark.sameContents {slot slot' : OtelSlot} (h : ErrorMark env edata slot slot')
    (hbears : slot.BearsMark edata) : SameContents slot slot' where
  life := h.only.life
  span := by
    rw [h.only.span, h.status, ← hbears.1, h.description hbears.2]
  attrs := h.only.attrs
  events := h.only.events
  links := h.only.links
  err := h.err

variable (env)

/-! ## Reports that change nothing -/

/-- The report changes no span: the first span it comes to has a more severe error, and the others bear
the mark already. -/
def Env.Passes (slots : ℕ → OtelSlot) (stack : List StackEntry) (edata : ErrorData) : Prop :=
  match env.reportTargets slots edata stack with
  | [] => True
  | t :: rest => (slots t).Outranks edata ∧ ∀ i ∈ rest, (slots i).BearsMark edata

variable {env}

theorem reportTargets_congr {slots slots' : ℕ → OtelSlot} (h : ∀ i, SameContents (slots i) (slots' i))
    (stack : List StackEntry) :
    env.reportTargets slots' edata stack = env.reportTargets slots edata stack := by
  unfold Env.reportTargets reportTargets
  rw [listening_congr fun i => (h i).life]

theorem Env.Passes.congr {slots slots' : ℕ → OtelSlot} {stack : List StackEntry}
    (hpass : env.Passes slots stack edata) (h : ∀ i, SameContents (slots i) (slots' i)) :
    env.Passes slots' stack edata := by
  unfold Env.Passes at hpass ⊢
  rw [reportTargets_congr h]
  split at hpass
  · trivial
  · obtain ⟨hrank, hbears⟩ := hpass
    unfold OtelSlot.Outranks at hrank ⊢
    unfold OtelSlot.BearsMark at hbears ⊢
    simp only [(h _).err, (h _).span]
    exact ⟨hrank, hbears⟩

theorem Env.Passes.sameContents {slots slots' : ℕ → OtelSlot} {stack : List StackEntry}
    {tick : ℕ} (hpass : env.Passes slots stack edata)
    (h : Reported env edata tick (env.reportTargets slots edata stack) slots slots') (i : ℕ) :
    SameContents (slots i) (slots' i) := by
  unfold Env.Passes at hpass
  unfold Reported at h
  split at hpass
  · rename_i heq
    rw [heq] at h
    dsimp only at h
    rw [h]
    exact .refl _
  · rename_i t rest heq
    rw [heq] at h
    obtain ⟨slot₁, hslot₁, hmarks⟩ := h
    obtain ⟨-, rfl⟩ := hslot₁.resolve_right fun h => h.1 hpass.1
    rw [Function.update_eq_self] at hmarks
    by_cases hmem : i ∈ rest
    · exact (hmarks.marked i hmem).sameContents (hpass.2 i hmem)
    · rw [hmarks.others i hmem]
      exact .refl _

/-! ## Traces that stay

In surroundings whose clock stands still at a time of which no span has an error, whatever a report
changes stays changed. -/

/-- The slot has an error captured at this time. -/
def OtelSlot.CapturedAt (time : TimestampTz) (slot : OtelSlot) : Prop := ∃ err ∈ slot.err, err.time = time

/-- Something is there that no report takes away. -/
structure Lasts (time : TimestampTz) (slot slot' : OtelSlot) : Prop where
  captured : slot.CapturedAt time → slot'.CapturedAt time
  status : slot.span.status = .error → slot'.span.status = .error
  description : slot.span.statusDescription ≠ none → slot'.span.statusDescription ≠ none

/-- Something is there that was not there before. -/
def Touched (time : TimestampTz) (slot slot' : OtelSlot) : Prop :=
  (slot'.CapturedAt time ∧ ¬ slot.CapturedAt time) ∨
    (slot'.span.status = .error ∧ slot.span.status ≠ .error) ∨
    (slot'.span.statusDescription ≠ none ∧ slot.span.statusDescription = none)

variable {time : TimestampTz} {tick : ℕ}

theorem Lasts.of_same {slot slot' : OtelSlot} (herr : slot'.err = slot.err)
    (hspan : slot'.span = slot.span) : Lasts time slot slot' := by
  constructor
  · unfold OtelSlot.CapturedAt
    rw [herr]
    exact id
  · rw [hspan]
    exact id
  · rw [hspan]
    exact id

theorem Lasts.trans {slot slot' slot'' : OtelSlot} (h : Lasts time slot slot')
    (h' : Lasts time slot' slot'') : Lasts time slot slot'' :=
  ⟨h'.captured ∘ h.captured, h'.status ∘ h.status, h'.description ∘ h.description⟩

theorem Touched.lasts {slot slot' slot'' : OtelSlot} (h : Touched time slot slot')
    (h' : Lasts time slot' slot'') : Touched time slot slot'' := by
  rcases h with ⟨hnew, hold⟩ | ⟨hnew, hold⟩ | ⟨hnew, hold⟩
  · exact .inl ⟨h'.captured hnew, hold⟩
  · exact .inr (.inl ⟨h'.status hnew, hold⟩)
  · exact .inr (.inr ⟨h'.description hnew, hold⟩)

theorem Touched.not_same {slot slot' : OtelSlot} (h : Touched time slot slot') :
    ¬ SameContents slot slot' := by
  intro hsame
  unfold Touched OtelSlot.CapturedAt at h
  rw [hsame.err, hsame.span] at h
  rcases h with ⟨hnew, hold⟩ | ⟨hnew, hold⟩ | ⟨hnew, hold⟩
  · exact hold hnew
  · exact hold hnew
  · exact hnew hold

theorem Touched.congr {slot slot₁ slot' : OtelSlot} (h : Touched time slot₁ slot')
    (hsame : SameContents slot slot₁) : Touched time slot slot' := by
  unfold Touched OtelSlot.CapturedAt at h ⊢
  rwa [hsame.err, hsame.span] at h

theorem ErrorMark.lasts {slot slot' : OtelSlot} (h : ErrorMark env edata slot slot') :
    Lasts time slot slot' where
  captured := by
    unfold OtelSlot.CapturedAt
    rw [h.err]
    exact id
  status _ := h.status
  description hne := by
    rw [h.description (.inl hne)]
    exact hne

theorem AllMarked.lasts {targets : List ℕ} {slots slots' : ℕ → OtelSlot}
    (h : AllMarked env edata targets slots slots') (i : ℕ) : Lasts time (slots i) (slots' i) := by
  by_cases hmem : i ∈ targets
  · exact (h.marked i hmem).lasts
  · rw [h.others i hmem]
    exact .of_same rfl rfl

theorem ErrorRecorded.capturedAt {slot slot' : OtelSlot} (h : ErrorRecorded env edata tick slot slot') :
    slot'.CapturedAt (env.clock tick) := ⟨_, h.err, Env.capturedError_time env⟩

theorem ErrorRecorded.lasts {slot slot' : OtelSlot} (h : ErrorRecorded env edata tick slot slot') :
    Lasts (env.clock tick) slot slot' where
  captured _ := h.capturedAt
  status hstatus := by
    rw [h.span]
    dsimp only
    split_ifs
    · rfl
    · exact hstatus
  description hne := by
    rw [h.span]
    exact hne

theorem Reported.lasts {targets : List ℕ} {slots slots' : ℕ → OtelSlot}
    (h : Reported env edata tick targets slots slots') (i : ℕ) :
    Lasts (env.clock tick) (slots i) (slots' i) := by
  unfold Reported at h
  split at h
  · rw [h]
    exact .of_same rfl rfl
  · rename_i t rest
    obtain ⟨slot₁, hslot₁, hmarks⟩ := h
    refine Lasts.trans ?_ (hmarks.lasts i)
    by_cases hi : i = t
    · rw [hi, Function.update_self]
      rcases hslot₁ with ⟨-, rfl⟩ | ⟨-, hrecorded⟩
      · exact .of_same rfl rfl
      · exact hrecorded.lasts
    · rw [Function.update_of_ne hi]
      exact .of_same rfl rfl

theorem mem_reportTargets {slots : ℕ → OtelSlot} {stack : List StackEntry} {i : ℕ}
    (h : i ∈ env.reportTargets slots edata stack) :
    i ∈ stackSlots stack ∧ (slots i).dispatching = false := by
  have hlistening : i ∈ listening slots edata stack := by
    unfold Env.reportTargets reportTargets at h
    split_ifs at h
    · exact List.mem_of_mem_take h
    · exact h
    · cases h
  unfold listening at hlistening
  rw [List.mem_filter, decide_eq_true_eq] at hlistening
  exact ⟨hlistening.1, hlistening.2.1⟩

/-- A report that does not pass leaves a trace. -/
theorem Reported.touches {slots slots' : ℕ → OtelSlot} {stack : List StackEntry}
    (h : Reported env edata tick (env.reportTargets slots edata stack) slots slots')
    (hallocs : ∀ n, env.allocFails n = false)
    (hfresh : ∀ i ∈ stackSlots stack, ¬ (slots i).CapturedAt (env.clock tick))
    (hpass : ¬ env.Passes slots stack edata) :
    ∃ i, (slots i).dispatching = false ∧ Touched (env.clock tick) (slots i) (slots' i) := by
  have htarget (i : ℕ) (hi : i ∈ env.reportTargets slots edata stack) := mem_reportTargets hi
  unfold Env.Passes at hpass
  unfold Reported at h
  cases heq : env.reportTargets slots edata stack with
  | nil =>
    rw [heq] at hpass
    exact absurd trivial hpass
  | cons t rest =>
    rw [heq] at h hpass htarget
    obtain ⟨slot₁, hslot₁, hmarks⟩ := h
    rcases hslot₁ with ⟨hrank, rfl⟩ | ⟨hrank, hrecorded⟩
    · -- nothing is recorded, so that one of the marks is new
      rw [Function.update_eq_self] at hmarks
      obtain ⟨i, hi, hbears⟩ : ∃ i ∈ rest, ¬ (slots i).BearsMark edata := by
        by_contra hall
        push Not at hall
        exact hpass ⟨hrank, hall⟩
      have hmark := hmarks.marked i hi
      refine ⟨i, (htarget i (List.mem_cons_of_mem _ hi)).2, ?_⟩
      by_cases hstatus : (slots i).span.status = .error
      · have hnone : (slots i).span.statusDescription = none ∧
            edata.sqlerrcode ≠ errcodeOutOfMemory := by
          unfold OtelSlot.BearsMark at hbears
          tauto
        exact .inr (.inr ⟨hmark.described hallocs hnone.2, hnone.1⟩)
      · exact .inr (.inl ⟨hmark.status, hstatus⟩)
    · refine ⟨t, (htarget t List.mem_cons_self).2, ?_⟩
      have hlasts : Lasts (env.clock tick) _ (slots' t) := hmarks.lasts t
      rw [Function.update_self] at hlasts
      exact .inl ⟨hlasts.captured hrecorded.capturedAt, hfresh t (htarget t List.mem_cons_self).1⟩

/-! ## What hooks do -/

variable (env)

/-- Core's state after a hook has caught an `ERROR` of its own. -/
def caughtBackend : Backend where
  errorStack := []
  interruptHoldoffCount := 0
  queryCancelHoldoffCount := 0
  currentMemoryContext := .errorContext

/-- Core's state is as before. -/
def SameBackend (s s' : St) : Prop := s'.backend = s.backend

instance : Std.Refl SameBackend := ⟨fun _ => rfl⟩

instance : IsTrans St SameBackend := ⟨fun _ _ _ h h' => h'.trans h⟩

theorem reportFrame_sameBackend : ReportFrame SameBackend :=
  ⟨fun _ _ _ => within_modify fun _ => rfl, within_modify fun _ => rfl, fun _ _ => rfl⟩

/-- The slots and core's state are as before. -/
def SameSlots (s s' : St) : Prop := s'.slots = s.slots ∧ s'.backend = s.backend

instance : Std.Refl SameSlots := ⟨fun _ => ⟨rfl, rfl⟩⟩

instance : IsTrans St SameSlots := ⟨fun _ _ _ h h' => ⟨h'.1.trans h.1, h'.2.trans h.2⟩⟩

theorem sameSlots_callRefused (readOnly : Bool) : Within SameSlots (callRefused env readOnly) := by
  unfold callRefused modifyCounters
  refine .bind within_get fun s => .ite (.bind (within_modify fun _ => ⟨rfl, rfl⟩) fun _ => ?_) ?_
  · exact within_pure _
  · refine .ite (.bind (within_modify fun _ => ⟨rfl, rfl⟩) fun _ => ?_) (within_pure _)
    exact within_pure _

theorem sameSlots_nrecContext (i : ℕ) : Within SameSlots (nrecContext env i) := by
  unfold nrecContext seedPrngIfNeeded newSpanId ask modifyNrec
  refine .bind within_get fun s => .ite (within_pure _) (.bind ?_ fun _ => ?_)
  · refine .bind within_get fun s => .ite (within_pure _) ?_
    exact within_modify fun _ => ⟨rfl, rfl⟩
  · refine .bind (.bind within_get fun s => .bind (within_modify fun _ => ⟨rfl, rfl⟩) fun _ =>
      within_pure _) fun id => ?_
    exact .bind (within_modify fun _ => ⟨rfl, rfl⟩) fun _ => .bind within_get fun _ => within_pure _

theorem sameSlots_contextOfHandle (ref : OtelSpanRef) :
    Within SameSlots (contextOfHandle env ref) := by
  have hcount (f : OtelApiCounters → OtelApiCounters) : Within SameSlots (modifyCounters f) :=
    within_modify fun _ => ⟨rfl, rfl⟩
  unfold contextOfHandle slotForRef nrecForRef
  refine .ite (.bind (.bind within_get fun s => .ite (within_pure _) (.ite (within_pure _) ?_))
    fun slot => ?_) (.bind (.bind within_get fun s => .ite (within_pure _) (.ite (within_pure _) ?_))
    fun n => ?_)
  · exact .bind (hcount _) fun _ => within_pure _
  · cases slot with
    | none => exact within_pure _
    | some i => exact .bind within_get fun _ => within_pure _
  · exact .bind (hcount _) fun _ => within_pure _
  · cases n with
    | none => exact within_pure _
    | some i => exact .bind (sameSlots_nrecContext env i) fun _ => within_pure _

theorem sameSlots_apiSpanContextOf (ref : OtelSpanRef) :
    Within SameSlots (apiSpanContextOf env ref) := by
  unfold apiSpanContextOf otelSpanContextOfInternal resolveActiveParent
  refine .bind (sameSlots_callRefused env true) fun _ => .ite (within_pure _) ?_
  refine .ite (.bind (.bind within_get fun s => ?_) fun p => ?_) (sameSlots_contextOfHandle env ref)
  · cases s.spanStack with
    | cons top rest => exact within_pure _
    | nil => cases remoteContext env <;> exact within_pure _
  · cases p with
    | slot i => exact .bind within_get fun _ => sameSlots_contextOfHandle env _
    | nrec i => exact .bind (sameSlots_nrecContext env i) fun _ => within_pure _
    | remote ctx => exact within_pure _
    | none => exact within_pure _

/-- What one act of a hook does to the slots and to core's state. -/
structure ActStep (act : HookAct) (s s' : St) : Prop where
  stack : s'.spanStack = s.spanStack
  backend : s'.backend = if act = .catchError then caughtBackend else s.backend
  slots : match act with
    | .report edata => Reported env edata s.tick
        (env.reportTargets s.slots edata s.spanStack) s.slots s'.slots
    | _ => s'.slots = s.slots

theorem wp_runHookAct_step (act : HookAct) (s : St) :
    Wp (runHookAct env act) (fun _ s' => ActStep env act s s') (fun _ _ => False) s := by
  have hstack {s' : St} (h : s'.life = s.life) : s'.spanStack = s.spanStack :=
    congrArg Lifecycle.spanStack h
  have hlife := wp_runHookAct env act s
  cases act with
  | report edata =>
    refine ((hlife.and (wp_otelEmitLogHook env edata s)).and
      (reportFrame_sameBackend.otelEmitLogHook env edata s)).mono (fun _ s' h => ?_) fun _ _ h => h.1.1
    exact ⟨hstack h.1.1.1, h.2.trans (if_neg (by simp)).symm, h.1.2⟩
  | call =>
    refine (hlife.and (Within.bind (sameSlots_callRefused env false)
      (fun _ => within_pure _) s)).mono (fun _ s' h => ?_) fun _ _ h => h.1
    exact ⟨hstack h.1.1, h.2.2.trans (if_neg (by simp)).symm, h.2.1⟩
  | contextOf ref =>
    refine (hlife.and (Within.bind (sameSlots_apiSpanContextOf env ref)
      (fun _ => within_pure _) s)).mono (fun _ s' h => ?_) fun _ _ h => h.1
    exact ⟨hstack h.1.1, h.2.2.trans (if_neg (by simp)).symm, h.2.1⟩
  | catchError => exact ⟨rfl, by simp [caughtBackend], rfl⟩

theorem ActStep.sameContents {act : HookAct} {s s' : St} (h : ActStep env act s s')
    (hpass : ∀ edata, act = .report edata → env.Passes s.slots s.spanStack edata) (i : ℕ) :
    SameContents (s.slots i) (s'.slots i) := by
  have hslots := h.slots
  cases act with
  | report edata => exact (hpass edata rfl).sameContents hslots i
  | call | contextOf | catchError =>
    dsimp only at hslots
    rw [hslots]
    exact .refl _

theorem ActStep.lasts {act : HookAct} {s s' : St} (h : ActStep env act s s')
    (hclock : ∀ n, env.clock n = time) (i : ℕ) : Lasts time (s.slots i) (s'.slots i) := by
  have hslots := h.slots
  cases act with
  | report edata =>
    dsimp only at hslots
    rw [← hclock s.tick]
    exact hslots.lasts i
  | call | contextOf | catchError =>
    dsimp only at hslots
    rw [hslots]
    exact .of_same rfl rfl

/-- Every report of the hook passes. -/
def Env.AllPass (acts : List HookAct) (slots : ℕ → OtelSlot) (stack : List StackEntry) : Prop :=
  ∀ edata, .report edata ∈ acts → env.Passes slots stack edata

theorem wp_runHookActs_backend (acts : List HookAct) (s : St) :
    Wp (runHookActs env acts)
      (fun _ s' => s'.backend = if .catchError ∈ acts then caughtBackend else s.backend)
      (fun _ _ => False) s := by
  induction acts generalizing s with
  | nil => rfl
  | cons act rest ih =>
    rw [runHookActs, wp_bind]
    refine (wp_runHookAct_step env act s).mono (fun _ s₁ h₁ => ?_) fun _ _ h => h
    refine (ih s₁).mono (fun _ s' h' => ?_) fun _ _ h => h
    rw [h', h₁.backend]
    by_cases hmem : .catchError ∈ rest
    · simp [hmem]
    · by_cases hact : act = .catchError
      · simp [hact]
      · simp [hmem, hact, Ne.symm hact]

theorem wp_runHookActs_sameContents (acts : List HookAct) (s : St)
    (hpass : env.AllPass acts s.slots s.spanStack) :
    Wp (runHookActs env acts) (fun _ s' => ∀ i, SameContents (s.slots i) (s'.slots i))
      (fun _ _ => False) s := by
  induction acts generalizing s with
  | nil => exact fun i => .refl _
  | cons act rest ih =>
    rw [runHookActs, wp_bind]
    refine (wp_runHookAct_step env act s).mono (fun _ s₁ h₁ => ?_) fun _ _ h => h
    have hsame := h₁.sameContents env fun edata hact => hpass edata (hact ▸ List.mem_cons_self)
    refine (ih s₁ fun edata hmem => ?_).mono (fun _ s' h' i => (hsame i).trans (h' i)) fun _ _ h => h
    rw [h₁.stack]
    exact (hpass edata (List.mem_cons_of_mem _ hmem)).congr hsame

theorem wp_runHookActs_lasts (acts : List HookAct) (hclock : ∀ n, env.clock n = time) (s : St) :
    Wp (runHookActs env acts) (fun _ s' => ∀ i, Lasts time (s.slots i) (s'.slots i))
      (fun _ _ => False) s := by
  induction acts generalizing s with
  | nil => exact fun i => .of_same rfl rfl
  | cons act rest ih =>
    rw [runHookActs, wp_bind]
    refine (wp_runHookAct_step env act s).mono (fun _ s₁ h₁ => ?_) fun _ _ h => h
    exact (ih s₁).mono (fun _ s' h' i => (h₁.lasts env hclock i).trans (h' i)) fun _ _ h => h

/-- A report that does not pass leaves a trace at the end of the hook. -/
theorem wp_runHookActs_touches (acts : List HookAct) (hclock : ∀ n, env.clock n = time)
    (hallocs : ∀ n, env.allocFails n = false) (s : St)
    (hfresh : ∀ i ∈ stackSlots s.spanStack, ¬ (s.slots i).CapturedAt time)
    (hpass : ¬ env.AllPass acts s.slots s.spanStack) :
    Wp (runHookActs env acts)
      (fun _ s' => ∃ i, (s.slots i).dispatching = false ∧ Touched time (s.slots i) (s'.slots i))
      (fun _ _ => False) s := by
  induction acts generalizing s with
  | nil => exact absurd (fun _ hmem => absurd hmem List.not_mem_nil) hpass
  | cons act rest ih =>
    rw [runHookActs, wp_bind]
    refine (wp_runHookAct_step env act s).mono (fun _ s₁ h₁ => ?_) fun _ _ h => h
    by_cases hfirst : ∀ edata, act = .report edata → env.Passes s.slots s.spanStack edata
    · -- the trace is left by one of the later acts
      have hsame := h₁.sameContents env hfirst
      refine (ih s₁ ?_ ?_).mono (fun _ s' h' => ?_) fun _ _ h => h
      · intro i hi
        rw [h₁.stack] at hi
        have hold := hfresh i hi
        unfold OtelSlot.CapturedAt at hold ⊢
        rwa [(hsame i).err]
      · intro hall
        refine hpass fun edata hmem => ?_
        rcases List.mem_cons.1 hmem with heq | hmem
        · exact hfirst edata heq.symm
        · have hlater := hall edata hmem
          rw [h₁.stack] at hlater
          exact hlater.congr fun i => (hsame i).symm
      · obtain ⟨i, hdisp, htouched⟩ := h'
        rw [(hsame i).life] at hdisp
        exact ⟨i, hdisp, htouched.congr (hsame i)⟩
    · push Not at hfirst
      obtain ⟨edata, rfl, hnot⟩ := hfirst
      have hslots := h₁.slots
      dsimp only at hslots
      rw [← hclock s.tick] at hfresh
      obtain ⟨i, hdisp, htouched⟩ := hslots.touches hallocs hfresh hnot
      rw [hclock] at htouched
      exact (wp_runHookActs_lasts env rest hclock s₁).mono
        (fun _ s' h' => ⟨i, hdisp, htouched.lasts (h' i)⟩) fun _ _ h => h

/-! ## The dispatch -/

/-- What the hook does when it is given the span with this serial. -/
def Env.hookActs (serial : ℕ) : List HookAct := env.emitHook.elim [] fun hook => (hook serial).acts

/-- The dispatch ends in the `PG_CATCH` of `dispatch_span`, unless in a `FATAL`. -/
def Env.dispatchRaises (serial : ℕ) : Bool :=
  (env.emitHook.any fun hook => (hook serial).raises) ||
    (env.emitSpansToLog && env.logLineRaises serial)

/-- The memory context and the holdoff counts. -/
def Backend.held (b : Backend) : MemoryContext × ℕ × ℕ :=
  (b.currentMemoryContext, b.interruptHoldoffCount, b.queryCancelHoldoffCount)

variable {J : (ℕ → OtelSlot) → Backend → Prop}

theorem wp_emitSpan_acts (serial : ℕ) (span : OtelSpan) {s : St}
    (hfatal : ∀ hook ∈ env.emitHook, (hook serial).finish ≠ .raisesFatal)
    (h : ∀ s₁ : St, s₁.slots = s.slots → s₁.backend = s.backend → s₁.spanStack = s.spanStack →
      Wp (runHookActs env (env.hookActs serial)) (fun _ s' => J s'.slots s'.backend)
        (fun _ _ => False) s₁) :
    Wp (emitSpan env serial span)
      (fun _ s' => J s'.slots s'.backend ∧ env.dispatchRaises serial = false)
      (fun e s' => e = .error ∧ (∃ b, J s'.slots b) ∧ env.dispatchRaises serial = true) s := by
  have hhook : Wp (callEmitHook env serial span)
      (fun _ s' => J s'.slots s'.backend ∧
        (env.emitHook.any fun hook => (hook serial).raises) = false)
      (fun e s' => e = .error ∧ (∃ b, J s'.slots b) ∧
        (env.emitHook.any fun hook => (hook serial).raises) = true)
      { s with dispatchDepth := s.dispatchDepth + 1 } := by
    unfold Env.hookActs at h
    unfold callEmitHook runEmitHook
    cases hsome : env.emitHook with
    | none =>
      rw [hsome] at h
      exact ⟨h { s with dispatchDepth := s.dispatchDepth + 1 } rfl rfl rfl, rfl⟩
    | some hook =>
      rw [hsome] at h
      have hacts := h { s with
        dispatchDepth := s.dispatchDepth + 1
        delivered := s.delivered ++ [⟨serial, span, .emitHook⟩] } rfl rfl rfl
      rw [wp_bind, reachSink, wp_modify, wp_bind]
      refine hacts.mono (fun _ s' h' => ?_) fun _ _ h => h.elim
      cases hf : (hook serial).finish with
      | returns => exact ⟨h', by simp [HookRun.raises, hf]⟩
      | raisesError edata =>
        exact ⟨rfl, ⟨s'.backend, h'⟩, by simp [HookRun.raises, hf]⟩
      | raisesFatal => exact absurd hf (hfatal hook hsome)
  unfold emitSpan
  rw [wp_bind, wp_modify, wp_bind]
  refine hhook.mono (fun _ s' h' => ?_) fun e s' h' => ?_
  · rw [wp_bind, wp_runIf]
    refine ⟨fun hlog => ?_, fun hlog => ?_⟩
    · unfold otelEmitSpanAsLogLine
      rw [wp_ite]
      refine ⟨fun hraise => ?_, fun hraise => ?_⟩
      · exact ⟨rfl, ⟨s'.backend, h'.1⟩, by simp [Env.dispatchRaises, hlog, hraise]⟩
      · rw [reachSink, wp_modify]
        exact ⟨h'.1, by simp [Env.dispatchRaises, h'.2, hraise]⟩
    · exact ⟨h'.1, by simp [Env.dispatchRaises, h'.2, hlog]⟩
  · exact ⟨h'.1, h'.2.1, by simp [Env.dispatchRaises, h'.2.2]⟩

/-- What the hook leaves behind stays, but for what the `PG_CATCH` restores. -/
theorem wp_dispatchSpan_acts (serial : ℕ) (span : OtelSpan) {s : St}
    (hfatal : ∀ hook ∈ env.emitHook, (hook serial).finish ≠ .raisesFatal)
    (h : ∀ s₁ : St, s₁.slots = s.slots → s₁.backend = s.backend → s₁.spanStack = s.spanStack →
      Wp (runHookActs env (env.hookActs serial)) (fun _ s' => J s'.slots s'.backend)
        (fun _ _ => False) s₁) :
    Wp (dispatchSpan env serial span)
      (fun _ s' => ∃ b, J s'.slots b ∧
        s'.backend.held = (if env.dispatchRaises serial then s.backend else b).held)
      (fun _ _ => False) s := by
  unfold dispatchSpan
  rw [wp_bind, wp_get, wp_bind, wp_modify, wp_ite]
  refine ⟨fun _ => ?_, fun hsink => ?_⟩
  · rw [wp_bind]
    apply wp_pgTry
    have hemit := wp_emitSpan_acts env serial span
      (s := { s with dispatches := s.dispatches ++ [⟨serial, span, env.sinks⟩] }) hfatal h
    refine hemit.mono (fun _ s' h' => ?_) fun e s' h' => ?_
    · exact ⟨s'.backend, h'.1, by rw [h'.2]; rfl⟩
    · obtain ⟨rfl, ⟨b, hb⟩, hraises⟩ := h'
      refine ⟨fun _ => ⟨b, hb, ?_⟩, fun hf => by cases hf⟩
      rw [hraises]
      rfl
  · have hnone : env.emitHook = none ∧ env.emitSpansToLog = false := by
      simpa [Env.sink] using hsink
    have hacts := h s rfl rfl rfl
    unfold Env.hookActs at hacts
    rw [hnone.1] at hacts
    refine ⟨s.backend, hacts, ?_⟩
    rw [Env.dispatchRaises, hnone.1, hnone.2]
    rfl

/-- The dispatch has left alone the contents of the spans that are not being dispatched, the active
stack, the dispatch depth, the memory context and the holdoff counts. -/
structure Isolated (s s' : St) : Prop where
  contents : ∀ i, (s.slots i).dispatching = false → SameContents (s.slots i) (s'.slots i)
  nrecs : ∀ i, s.life.LiveNrec i → NrecKeeps (s.nrecs i) (s'.nrecs i)
  stack : s'.spanStack = s.spanStack
  depth : s'.dispatchDepth = s.dispatchDepth
  held : s'.backend.held = s.backend.held

/-- No report of the hook changes a span; and if it catches an `ERROR` of its own, `dispatch_span`
catches another one, or the error context was current and nothing was held before. -/
def Env.Harmless (serial : ℕ) (s : St) : Prop :=
  env.AllPass (env.hookActs serial) s.slots s.spanStack ∧
    (.catchError ∈ env.hookActs serial →
      env.dispatchRaises serial = true ∨ s.backend.held = caughtBackend.held)

/-- These surroundings, with other answers of the clock and the allocator. -/
def Env.answering (clock : ℕ → TimestampTz) (allocFails : ℕ → Bool) : Env :=
  { env with clock := clock, allocFails := allocFails }

/-- There is a time at which no error on the stack was captured. -/
theorem exists_fresh_time (slots : ℕ → OtelSlot) (stack : List StackEntry) :
    ∃ time, ∀ i ∈ stackSlots stack, ¬ (slots i).CapturedAt time := by
  let times : List TimestampTz :=
    (stackSlots stack).filterMap fun i => (slots i).err.map OtelSlotError.time
  obtain ⟨time, hfresh⟩ := Infinite.exists_notMem_finset times.toFinset
  refine ⟨time, fun i hi hcaptured => hfresh ?_⟩
  obtain ⟨err, herr, htime⟩ := hcaptured
  have herr : (slots i).err = some err := herr
  rw [List.mem_toFinset, List.mem_filterMap]
  exact ⟨i, hi, by rw [herr, ← htime]; rfl⟩

section Dispatch

variable {serial : ℕ} {span : OtelSpan} {s : St}

theorem held_dispatch (hfatal : ∀ hook ∈ env.emitHook, (hook serial).finish ≠ .raisesFatal) :
    (endState (dispatchSpan env serial span) s).backend.held =
      if .catchError ∈ env.hookActs serial ∧ env.dispatchRaises serial = false then caughtBackend.held
      else s.backend.held := by
  have hwp := wp_dispatchSpan_acts env serial span (s := s)
    (J := fun _ b => b = if .catchError ∈ env.hookActs serial then caughtBackend else s.backend) hfatal
    fun s₁ _ hbackend _ => by
      rw [← hbackend]
      exact wp_runHookActs_backend env _ s₁
  obtain ⟨b, rfl, hheld⟩ := (hwp.mono (fun _ _ h => h) fun _ _ h => h.elim).endState
  rw [hheld]
  cases env.dispatchRaises serial <;> by_cases hmem : .catchError ∈ env.hookActs serial <;>
    simp [hmem]

theorem isolated_of_harmless (hfatal : ∀ hook ∈ env.emitHook, (hook serial).finish ≠ .raisesFatal)
    (h : env.Harmless serial s) : Isolated s (endState (dispatchSpan env serial span) s) := by
  have hcontents := wp_dispatchSpan_acts env serial span (s := s)
    (J := fun slots _ => ∀ i, SameContents (s.slots i) (slots i)) hfatal
    fun s₁ hslots _ hstack => by
      rw [← hslots]
      refine wp_runHookActs_sameContents env _ s₁ ?_
      rw [hslots, hstack]
      exact h.1
  have hkeeps : Within (Evolves Effects.none) (dispatchSpan env serial span) :=
    evolves_dispatchSpan env serial span
  have hwp := hcontents.and ((wp_dispatchSpan env serial span s).and (hkeeps s))
  obtain ⟨⟨b, hsame, -⟩, ⟨hlife, -⟩, hevolves⟩ :=
    (hwp.mono (fun _ _ h => h) fun _ _ h => h.1.elim).endState
  constructor
  case contents => exact fun i _ => hsame i
  case nrecs =>
    intro i hi
    refine hevolves.nrec i ?_
    rw [hlife]
    exact hi
  case stack => exact congrArg Lifecycle.spanStack hlife
  case depth => exact congrArg Lifecycle.dispatchDepth hlife
  case held =>
    rw [held_dispatch env hfatal]
    split_ifs with hcaught
    · rcases h.2 hcaught.1 with hraises | hheld
      · rw [hraises] at hcaught
        cases hcaught.2
      · exact hheld.symm
    · rfl

end Dispatch

/-- Whatever the clock and the allocator answer, a dispatch isolates the rest of the backend from the
hook just when the hook is harmless. -/
theorem dispatch_isolated_iff (serial : ℕ) (span : OtelSpan) (s : St)
    (hfatal : ∀ hook ∈ env.emitHook, (hook serial).finish ≠ .raisesFatal) :
    (∀ clock allocFails,
      Isolated s (endState (dispatchSpan (env.answering clock allocFails) serial span) s)) ↔
      env.Harmless serial s := by
  constructor
  · intro h
    constructor
    · by_contra hpass
      obtain ⟨time, hfresh⟩ := exists_fresh_time s.slots s.spanStack
      let env' := env.answering (fun _ => time) fun _ => false
      have hwp := wp_dispatchSpan_acts env' serial span (s := s)
        (J := fun slots _ => ∃ i, (s.slots i).dispatching = false ∧
          Touched time (s.slots i) (slots i)) hfatal
        fun s₁ hslots _ hstack => by
          rw [← hslots]
          refine wp_runHookActs_touches env' _ (fun _ => rfl) (fun _ => rfl) s₁ ?_ ?_
          · rw [hslots, hstack]
            exact hfresh
          · rw [hslots, hstack]
            exact hpass
      obtain ⟨b, ⟨i, hdisp, htouched⟩, -⟩ := (hwp.mono (fun _ _ h => h) fun _ _ h => h.elim).endState
      exact htouched.not_same ((h (fun _ => time) fun _ => false).contents i hdisp)
    · intro hcaught
      cases hraises : env.dispatchRaises serial with
      | true => exact .inl rfl
      | false =>
        right
        have hheld := (h env.clock env.allocFails).held
        rw [held_dispatch (env.answering env.clock env.allocFails) hfatal] at hheld
        rw [← hheld]
        exact if_pos ⟨hcaught, hraises⟩
  · intro h clock allocFails
    exact isolated_of_harmless (env.answering clock allocFails) hfatal h

/-- A hook that reports a warning. -/
def warningHook : HookRun := { acts := [.report { elevel := elevelWarning }] }

/-- A hook that catches its own `ERROR`, as the demo exporter does. -/
def catchingHook : HookRun := { acts := [.catchError] }

/-- An error is reported while a span of the session and two others are open. -/
def failedSpansOpen : St :=
  (producer fun _ => {}).next nestedSpansOpen { env := {}, backend := {}, op := .emitLog zeroDivision }

/-- The warning is passed over by the spans on the stack, the innermost of which has an error already. -/
theorem dispatch_isolated_iff_warning :
    stackSlots failedSpansOpen.spanStack = [2, 1, 0] ∧
    Isolated failedSpansOpen (endState (dispatchSpan
      (Env.answering { emitHook := some fun _ => warningHook } (fun _ => 0) fun _ => false) 3 {})
      failedSpansOpen) := by
  refine ⟨by decide +kernel, (dispatch_isolated_iff { emitHook := some fun _ => warningHook } 3 {}
    failedSpansOpen ?_).2 ?_ _ _⟩
  · intro hook hmem
    obtain rfl := Option.some.inj hmem
    decide
  · constructor
    · intro edata hmem
      have hwarning : HookAct.report edata = .report { elevel := elevelWarning } :=
        List.mem_singleton.1 hmem
      injection hwarning with hwarning
      subst hwarning
      have htargets : Env.reportTargets { emitHook := some fun _ => warningHook } failedSpansOpen.slots
          { elevel := elevelWarning } failedSpansOpen.spanStack = [2] := by
        decide +kernel
      rw [Env.Passes, htargets]
      exact ⟨by decide +kernel, by simp⟩
    · intro hmem
      revert hmem
      decide

/-- What the one hook reports is recorded on an open span, and the other one leaves the error context
current. -/
theorem hooks_disturb :
    (¬ ∀ (garbage : ℕ → OtelSlot) (s : St), (producer garbage).Reachable s →
      ∀ (env : Env) (serial : ℕ) (span : OtelSpan) (i : ℕ), (s.slots i).dispatching = false →
        SameContents (s.slots i) ((endState (dispatchSpan env serial span) s).slots i)) ∧
    ¬ ∀ (garbage : ℕ → OtelSlot) (s : St), (producer garbage).Reachable s →
      ∀ (env : Env) (serial : ℕ) (span : OtelSpan),
        (endState (dispatchSpan env serial span) s).backend.held = s.backend.held := by
  constructor
  · intro h
    have herr := (h _ _ reachable_ownedSpanOpen { emitHook := some fun _ => warningHook } 1 {} 0
      (by decide +kernel)).err
    revert herr
    decide +kernel
  · intro h
    have hheld := h _ _ reachable_ownedSpanOpen { emitHook := some fun _ => catchingHook } 1 {}
    revert hheld
    decide +kernel

end PostgresOtel
