import PostgresOtel.Producer.Api
import PostgresOtel.Producer.Lifecycle

/-!
# What does not touch the life cycle

Most of the producer works on the data of spans: names, attributes, errors, counters.  `Tame x` says
that `x` returns normally and changes only such data; `Quiet x`, that it returns normally, exports nothing
and leaves the life cycle state and the error stack alone, whatever it does to the handles' generations
or the identity of spans.  Both are closed under the constructs of the monad, so that each data function is
tame because its parts are.
-/

set_option autoImplicit false

namespace PostgresOtel

open Exec

/-- The life cycle state, the stack of errors being handled, and what has been exported. -/
def St.core (s : St) : Lifecycle × List ErrorData × List Dispatch × List Delivery :=
  (s.life, s.backend.errorStack, s.dispatches, s.delivered)

/-- `x` returns normally, exports nothing and leaves the life cycle state and the error stack alone. -/
def Quiet {α : Type} (x : M α) : Prop :=
  ∀ s, Wp x (fun _ s' => s'.core = s.core) (fun _ _ => False) s

/-- What a span is known by: its place in a trace, and the decision to record it. -/
structure SpanIdentity where
  traceId : OtelTraceId
  spanId : OtelSpanId
  parentSpanId : OtelSpanId
  traceFlags : TraceFlags
  samplerDecision : OtelSamplerDecision
  deriving DecidableEq

def OtelSpan.identity (span : OtelSpan) : SpanIdentity :=
  ⟨span.traceId, span.spanId, span.parentSpanId, span.traceFlags, span.samplerDecision⟩

/-- All of the state that is not the data of spans, a statistic or core's. -/
structure Shape where
  core : Lifecycle × List ErrorData × List Dispatch × List Delivery
  genCounter : ℕ
  prngSeeded : Bool
  identity : ℕ → SpanIdentity
  nrecs : ℕ → OtelNrec
  staleHandle : ℕ
  activateNotDetached : ℕ
  activateAlreadyActive : ℕ
  deactivateNotActive : ℕ

def St.shape (s : St) : Shape where
  core := s.core
  genCounter := s.genCounter
  prngSeeded := s.prngSeeded
  identity := fun i => (s.slots i).span.identity
  nrecs := s.nrecs
  staleHandle := s.counters.staleHandle
  activateNotDetached := s.counters.activateNotDetached
  activateAlreadyActive := s.counters.activateAlreadyActive
  deactivateNotActive := s.counters.deactivateNotActive

/-- `x` returns normally and changes only data of spans and statistics. -/
def Tame {α : Type} (x : M α) : Prop :=
  ∀ s, Wp x (fun _ s' => s'.shape = s.shape) (fun _ _ => False) s

theorem Tame.quiet {α : Type} {x : M α} (h : Tame x) : Quiet x := fun s =>
  (h s).mono (fun _ _ hs => congrArg Shape.core hs) fun _ _ hf => hf

/-! ## State updates and the life cycle -/

theorem life_updateSlot (s : St) (i : ℕ) (l : OtelSlot) :
    ({ s with slots := Function.update s.slots i l } : St).life =
      { s.life with slots := s.life.slots.set i l.toSlotLife } := by
  have hcell : (fun j => (Function.update s.slots i l j).toSlotLife) =
      Function.update (fun j => (s.slots j).toSlotLife) i l.toSlotLife := by
    funext j
    by_cases h : j = i
    · subst h
      simp
    · simp [h]
  simp only [St.life, Pool.set, hcell]

theorem life_updateNrec (s : St) (i : ℕ) (n : OtelNrec) :
    ({ s with nrecs := Function.update s.nrecs i n } : St).life =
      { s.life with nrecs := s.life.nrecs.set i n.toNrecLife } := by
  have hcell : (fun j => (Function.update s.nrecs i n j).toNrecLife) =
      Function.update (fun j => (s.nrecs j).toNrecLife) i n.toNrecLife := by
    funext j
    by_cases h : j = i
    · subst h
      simp
    · simp [h]
  simp only [St.life, Pool.set, hcell]

theorem life_updateSlot_data (s : St) (i : ℕ) (l : OtelSlot)
    (h : l.toSlotLife = (s.slots i).toSlotLife) :
    ({ s with slots := Function.update s.slots i l } : St).life = s.life := by
  rw [life_updateSlot, h]
  exact congrArg (fun p => { s.life with slots := p }) Pool.set_eq_self

theorem life_updateNrec_data (s : St) (i : ℕ) (n : OtelNrec)
    (h : n.toNrecLife = (s.nrecs i).toNrecLife) :
    ({ s with nrecs := Function.update s.nrecs i n } : St).life = s.life := by
  rw [life_updateNrec, h]
  exact congrArg (fun p => { s.life with nrecs := p }) Pool.set_eq_self

/-! ## Rules -/

variable {α β : Type}

theorem tame_pure (a : α) : Tame (pure a) := fun _ => rfl

theorem tame_get : Tame (get : M St) := fun _ => rfl

theorem Tame.bind {x : M α} {f : α → M β} (hx : Tame x) (hf : ∀ a, Tame (f a)) :
    Tame (x >>= f) := by
  intro s
  rw [wp_bind]
  refine (hx s).mono (fun a s' hs' => ?_) fun _ _ h => h
  exact (hf a s').mono (fun _ _ h => h.trans hs') fun _ _ h => h

theorem Tame.ite {c : Prop} [Decidable c] {x y : M α} (hx : Tame x) (hy : Tame y) :
    Tame (if c then x else y) := by
  by_cases h : c
  · rwa [if_pos h]
  · rwa [if_neg h]

theorem Tame.runIf {c : Prop} [Decidable c] {x : M Unit} (hx : Tame x) : Tame (runIf c x) :=
  hx.ite (tame_pure _)

theorem tame_modify {f : St → St} (h : ∀ s, (f s).shape = s.shape) : Tame (modify f) := h

theorem tame_modifySlot {i : ℕ} {f : OtelSlot → OtelSlot}
    (h : ∀ slot, (f slot).toSlotLife = slot.toSlotLife ∧
      (f slot).span.identity = slot.span.identity) : Tame (modifySlot i f) := by
  refine tame_modify fun s => ?_
  have hlife := life_updateSlot_data s i _ (h (s.slots i)).1
  have hid : (fun j => (Function.update s.slots i (f (s.slots i)) j).span.identity) =
      fun j => (s.slots j).span.identity := by
    funext j
    by_cases hj : j = i
    · subst hj
      simp [(h (s.slots j)).2]
    · simp [hj]
  simp only [St.shape, St.core, hlife, hid]

theorem tame_request (i size charge : ℕ) : Tame (modifySlot i (OtelSlot.request size charge)) :=
  tame_modifySlot fun _ => ⟨rfl, rfl⟩

theorem tame_ask (answer : ℕ → α) : Tame (ask answer) := fun _ => rfl

/-- The shape keeps only some of the counters; the others may change. -/
theorem tame_count {f : OtelApiCounters → OtelApiCounters}
    (h : ∀ s : St, ({ s with counters := f s.counters } : St).shape = s.shape) :
    Tame (modifyCounters f) := tame_modify h

theorem quiet_pure (a : α) : Quiet (pure a) := fun _ => rfl

theorem quiet_get : Quiet (get : M St) := fun _ => rfl

theorem Quiet.bind {x : M α} {f : α → M β} (hx : Quiet x) (hf : ∀ a, Quiet (f a)) :
    Quiet (x >>= f) := by
  intro s
  rw [wp_bind]
  refine (hx s).mono (fun a s' hs' => ?_) fun _ _ h => h
  exact (hf a s').mono (fun _ _ h => h.trans hs') fun _ _ h => h

theorem Quiet.ite {c : Prop} [Decidable c] {x y : M α} (hx : Quiet x) (hy : Quiet y) :
    Quiet (if c then x else y) := by
  by_cases h : c
  · rwa [if_pos h]
  · rwa [if_neg h]

theorem quiet_modify {f : St → St} (h : ∀ s, (f s).core = s.core) : Quiet (modify f) := h

theorem quiet_modifySlot {i : ℕ} {f : OtelSlot → OtelSlot}
    (h : ∀ slot, (f slot).toSlotLife = slot.toSlotLife) : Quiet (modifySlot i f) :=
  quiet_modify fun s => Prod.ext (life_updateSlot_data s i _ (h _)) rfl

theorem quiet_modifyNrec {i : ℕ} {f : OtelNrec → OtelNrec}
    (h : ∀ n, (f n).toNrecLife = n.toNrecLife) : Quiet (modifyNrec i f) :=
  quiet_modify fun s => Prod.ext (life_updateNrec_data s i _ (h _)) rfl

theorem quiet_ask (answer : ℕ → α) : Quiet (ask answer) := fun _ => rfl

/-- The life cycle state keeps only some of the counters; the others may change. -/
theorem quiet_count {f : OtelApiCounters → OtelApiCounters}
    (h : ∀ s : St, ({ s with counters := f s.counters } : St).core = s.core) :
    Quiet (modifyCounters f) := quiet_modify h

/-! ## The data functions -/

variable (env : Env)

theorem tame_timeOrNow (time : TimestampTz) : Tame (timeOrNow env time) :=
  .ite (tame_ask _) (tame_pure _)

theorem tame_slotStrdup (i : ℕ) (str : CString) (maxlen : Option ℕ) :
    Tame (slotStrdup env i str maxlen) := by
  unfold slotStrdup allocNoOom
  refine .bind tame_get fun s => .ite (tame_pure _) ?_
  refine .bind (tame_ask _) fun ok => .ite ?_ (tame_pure _)
  exact .bind (tame_modifySlot fun _ => ⟨rfl, rfl⟩) fun _ => tame_pure _

theorem tame_slotGrow (i : ℕ) (arr : SlotArray) (want : ℕ) : Tame (slotGrow env i arr want) := by
  unfold slotGrow allocNoOom
  refine .bind tame_get fun s => .ite (tame_pure _) (.ite (tame_pure _) ?_)
  refine .bind (tame_ask _) fun ok => .ite ?_ (tame_pure _)
  refine .bind (tame_modifySlot fun slot => ?_) fun _ => tame_pure _
  cases arr <;> exact ⟨rfl, rfl⟩

theorem quiet_seedPrngIfNeeded : Quiet (seedPrngIfNeeded env) := by
  unfold seedPrngIfNeeded
  exact .bind quiet_get fun s => .ite (quiet_pure _) (quiet_modify fun _ => rfl)

theorem quiet_slotForRef (ref : OtelSpanRef) : Quiet (slotForRef ref) := by
  unfold slotForRef
  refine .bind quiet_get fun s => .ite (quiet_pure _) (.ite (quiet_pure _) ?_)
  exact .bind (quiet_count fun _ => rfl) fun _ => quiet_pure _

theorem quiet_nrecForRef (ref : OtelSpanRef) : Quiet (nrecForRef ref) := by
  unfold nrecForRef
  refine .bind quiet_get fun s => .ite (quiet_pure _) (.ite (quiet_pure _) ?_)
  exact .bind (quiet_count fun _ => rfl) fun _ => quiet_pure _

theorem tame_resolveActiveParent : Tame (resolveActiveParent env) := by
  unfold resolveActiveParent
  refine .bind tame_get fun s => ?_
  cases s.spanStack with
  | cons top _ => exact tame_pure _
  | nil => cases remoteContext env <;> exact tame_pure _

theorem quiet_resolveParent (args : OtelSpanStartArgs) : Quiet (resolveParent env args) := by
  unfold resolveParent
  cases args.parent with
  | active => exact .bind (tame_resolveActiveParent env).quiet fun _ => quiet_pure _
  | context =>
    cases args.parentCtx with
    | none => exact quiet_pure _
    | some ctx => exact .ite (quiet_pure _) (quiet_pure _)
  | span =>
    refine .ite (.bind (quiet_slotForRef _) fun _ => quiet_pure _) ?_
    exact .ite (.bind (quiet_nrecForRef _) fun _ => quiet_pure _) (quiet_pure _)
  | root => exact quiet_pure _

theorem tame_callRefused (readOnly : Bool) : Tame (callRefused env readOnly) := by
  unfold callRefused
  refine .bind tame_get fun s => .ite ?_ (.ite ?_ (tame_pure _))
  · exact .bind (tame_count fun _ => rfl) fun _ => tame_pure _
  · exact .bind (tame_count fun _ => rfl) fun _ => tame_pure _

theorem tame_apiSpanCurrent : Tame (apiSpanCurrent env) := by
  unfold apiSpanCurrent
  refine .bind (tame_callRefused env true) fun _ => .ite (tame_pure _) ?_
  refine .bind tame_get fun s => ?_
  cases s.spanStack with
  | nil => exact tame_pure _
  | cons top _ =>
    cases h : top.entry <;> simp only [h] <;> exact tame_pure _

theorem quiet_nrecContext (i : ℕ) : Quiet (nrecContext env i) := by
  unfold nrecContext
  refine .bind quiet_get fun s => .ite (quiet_pure _) ?_
  refine .bind (quiet_seedPrngIfNeeded env) fun _ => .bind (quiet_ask _) fun id => ?_
  exact .bind (quiet_modifyNrec fun _ => rfl) fun _ => .bind quiet_get fun _ => quiet_pure _

theorem quiet_contextOfHandle (ref : OtelSpanRef) : Quiet (contextOfHandle env ref) := by
  unfold contextOfHandle
  refine .ite (.bind (quiet_slotForRef _) fun slot => ?_) (.bind (quiet_nrecForRef _) fun n => ?_)
  · cases slot with
    | none => exact quiet_pure _
    | some i => exact .bind quiet_get fun _ => quiet_pure _
  · cases n with
    | none => exact quiet_pure _
    | some i => exact .bind (quiet_nrecContext env i) fun _ => quiet_pure _

theorem quiet_apiSpanContextOf (ref : OtelSpanRef) : Quiet (apiSpanContextOf env ref) := by
  unfold apiSpanContextOf otelSpanContextOfInternal
  refine .bind (tame_callRefused env true).quiet fun _ => .ite (quiet_pure _) ?_
  refine .ite (.bind (tame_resolveActiveParent env).quiet fun p => ?_) (quiet_contextOfHandle env _)
  cases p with
  | slot i => exact .bind quiet_get fun _ => quiet_contextOfHandle env _
  | nrec i => exact .bind (quiet_nrecContext env i) fun _ => quiet_pure _
  | remote ctx => exact quiet_pure _
  | none => exact quiet_pure _

/-! ## Error reports -/

theorem tame_copyField (i : ℕ) (field : Option CString) (maxlen : Option ℕ) :
    Tame (copyField env i field maxlen) := by
  unfold copyField
  cases field with
  | none => exact tame_pure _
  | some str => exact .bind (tame_slotStrdup env i str maxlen) fun _ => tame_pure _

theorem tame_copyErrorTexts (i : ℕ) (edata : ErrorData) : Tame (copyErrorTexts env i edata) := by
  unfold copyErrorTexts
  refine .bind (tame_copyField env i _ _) fun _ => .bind (tame_copyField env i _ _) fun _ => ?_
  refine .bind (tame_copyField env i _ _) fun _ => .bind (tame_copyField env i _ _) fun _ => ?_
  refine .bind (tame_copyField env i _ _) fun _ => .bind (tame_modifySlot fun _ => ⟨rfl, rfl⟩) fun _ => ?_
  exact .runIf (tame_count fun _ => rfl)

theorem tame_setSpanError (i : ℕ) : Tame (setSpanError i) := tame_modifySlot fun _ => ⟨rfl, rfl⟩

theorem tame_slotRecordError (i : ℕ) (edata : ErrorData) :
    Tame (slotRecordError env i edata) := by
  unfold slotRecordError getCurrentTimestamp
  refine .bind tame_get fun s => .ite (tame_pure _) ?_
  refine .bind (tame_ask _) fun time => .bind (tame_modifySlot fun _ => ⟨rfl, rfl⟩) fun _ => ?_
  refine .bind (.ite (tame_count fun _ => rfl) (tame_copyErrorTexts env i edata)) fun _ => ?_
  exact .runIf (tame_setSpanError i)

theorem tame_errorDescription (i : ℕ) (sqlstate : CString) (message : Option CString) :
    Tame (errorDescription env i sqlstate message) := by
  unfold errorDescription allocNoOom
  refine .bind (tame_ask _) fun _ => .ite ?_ (tame_pure _)
  refine .bind (tame_request i 256 0) fun _ => ?_
  cases message <;> exact tame_pure _

theorem tame_describeError (i : ℕ) (sqlstate : CString) (message : Option CString) :
    Tame (describeError env i sqlstate message) :=
  .bind (tame_errorDescription env i _ _) fun _ => tame_modifySlot fun _ => ⟨rfl, rfl⟩

theorem tame_markSpanError (i : ℕ) (edata : ErrorData) : Tame (markSpanError env i edata) :=
  .bind (tame_setSpanError i) fun _ => .bind tame_get fun _ =>
    .runIf (tame_describeError env i _ _)

theorem tame_recordOnStack (edata : ErrorData) (stack : List StackEntry) (recorded : Bool) :
    Tame (recordOnStack env edata stack recorded) := by
  induction stack generalizing recorded with
  | nil => exact tame_pure _
  | cons e rest ih =>
    unfold recordOnStack
    cases e.entry with
    | nrec i => exact ih recorded
    | slot i =>
      refine .bind tame_get fun s => .ite (ih recorded) ?_
      refine .ite (tame_slotRecordError env i edata) (.ite (ih recorded) (.ite ?_ ?_))
      · exact .bind (tame_slotRecordError env i edata) fun _ => ih true
      · exact .bind (tame_markSpanError env i edata) fun _ => ih recorded

theorem tame_otelEmitLogHook (edata : ErrorData) : Tame (otelEmitLogHook env edata) := by
  unfold otelEmitLogHook
  exact .bind tame_get fun s => .ite (tame_recordOnStack env edata _ _) (tame_pure _)

theorem tame_reportWarning (edata : ErrorData) : Tame (reportWarning env edata) := by
  unfold reportWarning
  exact .ite (tame_otelEmitLogHook env edata) (tame_pure _)

theorem tame_addExceptionEvent (i : ℕ) (err : OtelSlotError) :
    Tame (addExceptionEvent env i err) := by
  unfold addExceptionEvent allocNoOom
  refine .bind tame_get fun s => .bind (tame_slotGrow env i _ _) fun grown => ?_
  refine .ite ?_ (tame_modifySlot fun _ => ⟨rfl, rfl⟩)
  exact .bind (tame_ask _) fun _ => .bind (.runIf (tame_request i _ 0)) fun _ =>
    tame_modifySlot fun _ => ⟨rfl, rfl⟩

theorem tame_lowerErrorEvent (i : ℕ) (err : OtelSlotError) : Tame (lowerErrorEvent env i err) :=
  .bind (tame_addExceptionEvent env i err) fun _ => .bind tame_get fun _ =>
    .runIf (tame_describeError env i _ _)

/-! ## The data of a span that starts -/

theorem tame_decideStart (args : OtelSpanStartArgs) (p : ResolvedParent) :
    Tame (decideStart env args p) := by
  unfold decideStart newTraceId
  refine .bind tame_get fun s => ?_
  cases p with
  | none => exact .bind (tame_ask _) fun _ => tame_pure _
  | remote ctx => exact tame_pure _
  | slot i => exact tame_pure _
  | nrec i => exact tame_pure _

theorem quiet_inheritFrom (i : ℕ) (id : OtelSpanId) (tracestate : Option CString) :
    Quiet (inheritFrom env i id tracestate) :=
  .bind (quiet_modifySlot fun _ => rfl) fun _ => .bind (tame_copyField env i _ _).quiet fun _ =>
    quiet_modifySlot fun _ => rfl

theorem quiet_fillParent (i : ℕ) (p : ResolvedParent) : Quiet (fillParent env i p) := by
  unfold fillParent
  refine .bind quiet_get fun s => ?_
  cases p with
  | none => exact quiet_pure _
  | remote ctx => exact quiet_inheritFrom env i _ _
  | slot j => exact quiet_inheritFrom env i _ _
  | nrec j => exact quiet_pure _

theorem quiet_fillSpan (i : ℕ) (args : OtelSpanStartArgs) (name : CString) (p : ResolvedParent)
    (d : StartDecision) : Quiet (fillSpan env i args name p d) := by
  unfold fillSpan newSpanId
  refine .bind (quiet_modifySlot fun _ => rfl) fun _ => .bind (quiet_ask _) fun id => ?_
  refine .bind (quiet_modifySlot fun _ => rfl) fun _ => .bind (quiet_fillParent env i p) fun _ => ?_
  refine .bind (quiet_modifySlot fun _ => rfl) fun _ => .bind (tame_slotStrdup env i _ _).quiet fun _ => ?_
  exact .bind (tame_timeOrNow env _).quiet fun _ => quiet_modifySlot fun _ => rfl

/-! ## The data of a span that ends -/

theorem tame_lowerCapturedError (i : ℕ) : Tame (lowerCapturedError env i) := by
  unfold lowerCapturedError
  refine .bind tame_get fun s => ?_
  cases (s.slots i).err with
  | none => exact tame_pure _
  | some err => exact tame_lowerErrorEvent env i err

theorem tame_finishSpan (i : ℕ) (endTime : TimestampTz) : Tame (finishSpan env i endTime) := by
  unfold finishSpan
  refine .bind (tame_timeOrNow env _) fun _ => .bind (tame_modifySlot fun _ => ⟨rfl, rfl⟩) fun _ => ?_
  exact .bind (tame_lowerCapturedError env i) fun _ => tame_modifySlot fun _ => ⟨rfl, rfl⟩

/-! ## Setters -/

theorem quiet_setterSlot (ref : OtelSpanRef) : Quiet (setterSlot env ref) := by
  unfold setterSlot
  exact .bind (tame_callRefused env false).quiet fun _ => .ite (quiet_pure _) (quiet_slotForRef ref)

/-- `x` works on the data of the slot of a handle, and does nothing if there is none. -/
def Setter (ref : OtelSpanRef) (x : M Unit) : Prop :=
  ∃ f : Option ℕ → M Unit, x = (setterSlot env ref >>= f) ∧ f none = pure () ∧ ∀ i, Tame (f (some i))

theorem setter_of_slot {f : Option ℕ → M Unit} (ref : OtelSpanRef) (hnone : f none = pure ())
    (hsome : ∀ i, Tame (f (some i))) : Setter env ref (setterSlot env ref >>= f) :=
  ⟨f, rfl, hnone, hsome⟩

theorem Setter.quiet {ref : OtelSpanRef} {x : M Unit} (h : Setter env ref x) : Quiet x := by
  obtain ⟨f, rfl, hnone, hsome⟩ := h
  refine .bind (quiet_setterSlot env ref) fun slot => ?_
  cases slot with
  | none => exact hnone ▸ quiet_pure _
  | some i => exact (hsome i).quiet

theorem tame_dropAttr (i : ℕ) : Tame (dropAttr i) := by
  unfold dropAttr
  exact .bind (tame_modifySlot fun _ => ⟨rfl, rfl⟩) fun _ => tame_count fun _ => rfl

theorem tame_copyIfGrown (grown : Bool) (i : ℕ) (str : CString) (maxlen : Option ℕ) :
    Tame (copyIfGrown env grown i str maxlen) :=
  .ite (tame_copyField env i _ _) (tame_pure _)

theorem tame_slotAttr (i : ℕ) (key : CString) : Tame (slotAttr env i key) := by
  unfold slotAttr
  refine .bind tame_get fun s => ?_
  cases (s.slots i).attrs.findIdx? fun a => a.key = key with
  | some j => exact tame_pure _
  | none =>
    refine .bind (tame_slotGrow env i _ _) fun grown => ?_
    refine .bind (tame_copyIfGrown env grown i _ _) fun copy => ?_
    cases copy with
    | none => exact .bind (tame_dropAttr i) fun _ => tame_pure _
    | some k => exact .bind (tame_modifySlot fun _ => ⟨rfl, rfl⟩) fun _ => tame_pure _

theorem tame_countTruncated : Tame countTruncated := tame_count fun _ => rfl

theorem tame_setAttrValue (i j : ℕ) (v : OtelAttrValue) : Tame (setAttrValue i j v) :=
  tame_modifySlot fun _ => ⟨rfl, rfl⟩

theorem tame_setStrInternal (i : ℕ) (key : CString) (val : Option CString) :
    Tame (setStrInternal env i key val) := by
  unfold setStrInternal
  cases val with
  | none => exact tame_pure _
  | some val =>
    refine .bind (tame_slotAttr env i key) fun a => ?_
    cases a with
    | none => exact tame_pure _
    | some j =>
      refine .bind (tame_slotStrdup env i val _) fun copy => ?_
      cases copy.1 with
      | none => exact .bind (tame_modifySlot fun _ => ⟨rfl, rfl⟩) fun _ => tame_dropAttr i
      | some str =>
        exact .bind (.runIf tame_countTruncated) fun _ => tame_setAttrValue i j _

theorem tame_copyEventValue (i : ℕ) (v : OtelAttrValue) : Tame (copyEventValue env i v) := by
  unfold copyEventValue
  split
  · exact .bind (tame_slotStrdup env i _ _) fun _ => tame_pure _
  · exact tame_pure _

theorem tame_copyEventAttrs (i : ℕ) (attrs : List AttrArg) :
    Tame (copyEventAttrs env i attrs) := by
  induction attrs with
  | nil => exact tame_pure _
  | cons a rest ih =>
    unfold copyEventAttrs
    refine .bind (tame_copyField env i _ _) fun key => ?_
    refine .bind (tame_copyEventValue env i _) fun v => ?_
    split
    · exact .bind ih fun _ => tame_pure _
    · exact tame_pure _

theorem tame_dropEvent (i : ℕ) : Tame (dropEvent i) := by
  unfold dropEvent
  exact .bind (tame_modifySlot fun _ => ⟨rfl, rfl⟩) fun _ => tame_count fun _ => rfl

theorem tame_copyEventArray (i : ℕ) (attrs : List AttrArg) :
    Tame (copyEventArray env i attrs) := by
  unfold copyEventArray allocNoOom
  refine .ite (tame_pure _) (.bind tame_get fun s => .ite (tame_pure _) ?_)
  refine .bind (tame_ask _) fun _ => .ite ?_ (tame_pure _)
  exact .bind (tame_modifySlot fun _ => ⟨rfl, rfl⟩) fun _ => tame_copyEventAttrs env i attrs

/-! ### The setters of the API -/

theorem setter_apiSpanSetStr (ref : OtelSpanRef) (key : CString) (val : Option CString) :
    Setter env ref (apiSpanSetStr env ref key val) :=
  setter_of_slot env ref rfl fun i => tame_setStrInternal env i key val

theorem setter_setScalar (ref : OtelSpanRef) (key : CString) (v : OtelAttrValue) :
    Setter env ref (setScalar env ref key v) := by
  refine setter_of_slot env ref rfl fun i => .bind (tame_slotAttr env i key) fun a => ?_
  cases a with
  | none => exact tame_pure _
  | some j => exact tame_setAttrValue i j v

theorem setter_apiSpanSetVprintf (ref : OtelSpanRef) (key formatted : CString) :
    Setter env ref (apiSpanSetVprintf env ref key formatted) := by
  refine setter_of_slot env ref rfl fun i => ?_
  refine .bind (.ite (tame_ask _) (tame_pure _)) fun big => ?_
  refine .ite (.bind (tame_request i _ 0) fun _ => ?_) ?_
  · exact .bind (tame_setStrInternal env i key _) fun _ => tame_modifySlot fun _ => ⟨rfl, rfl⟩
  · exact .bind (.runIf tame_countTruncated) fun _ => tame_setStrInternal env i key _

theorem setter_apiSpanSetName (ref : OtelSpanRef) (name : Option CString) :
    Setter env ref (apiSpanSetName env ref name) := by
  refine setter_of_slot env ref rfl fun i => .bind (tame_copyField env i _ _) fun copy => ?_
  cases copy with
  | none => exact tame_pure _
  | some copy => exact tame_modifySlot fun _ => ⟨rfl, rfl⟩

theorem setter_apiSpanSetStatus (ref : OtelSpanRef) (code : OtelSpanStatus)
    (description : Option CString) :
    Setter env ref (apiSpanSetStatus env ref code description) :=
  setter_of_slot env ref rfl fun i => .bind (tame_modifySlot fun _ => ⟨rfl, rfl⟩) fun _ =>
    .bind (tame_copyField env i _ _) fun _ => tame_modifySlot fun _ => ⟨rfl, rfl⟩

theorem setter_apiSpanAddEvent (ref : OtelSpanRef) (name : Option CString) (ts : TimestampTz)
    (attrs : List AttrArg) : Setter env ref (apiSpanAddEvent env ref name ts attrs) := by
  refine setter_of_slot env ref rfl fun i => ?_
  cases name with
  | none => exact tame_pure _
  | some name =>
    refine .bind tame_get fun s => .bind (tame_slotGrow env i _ _) fun grown => ?_
    refine .bind (tame_copyIfGrown env grown i _ _) fun ename => ?_
    cases ename with
    | none => exact tame_dropEvent i
    | some ename =>
      refine .bind (tame_copyEventArray env i attrs) fun copied => ?_
      cases copied with
      | none => exact tame_dropEvent i
      | some copied =>
        exact .bind (tame_timeOrNow env _) fun _ => tame_modifySlot fun _ => ⟨rfl, rfl⟩

theorem setter_apiSpanAddLink (ref : OtelSpanRef) (target : Option OtelSpanContext) :
    Setter env ref (apiSpanAddLink env ref target) := by
  refine setter_of_slot env ref rfl fun i => ?_
  cases target.filter otelSpanContextIsValid with
  | none => exact tame_pure _
  | some target =>
    refine .bind tame_get fun s => .bind (tame_slotGrow env i _ _) fun grown => .ite ?_ ?_
    · exact tame_modifySlot fun _ => ⟨rfl, rfl⟩
    · exact .bind (tame_modifySlot fun _ => ⟨rfl, rfl⟩) fun _ => tame_count fun _ => rfl

theorem setter_apiSpanRecordError (ref : OtelSpanRef) (edata : Option ErrorData) :
    Setter env ref (apiSpanRecordError env ref edata) := by
  refine setter_of_slot env ref rfl fun i => ?_
  cases edata with
  | none => exact tame_pure _
  | some edata => exact tame_slotRecordError env i edata

theorem tame_recordCopy (i : ℕ) (edata : ErrorData) : Tame (recordCopy env i edata) :=
  .bind (tame_request i _ 0) fun _ => .bind (tame_slotRecordError env i edata) fun _ =>
    tame_modifySlot fun _ => ⟨rfl, rfl⟩

end PostgresOtel
