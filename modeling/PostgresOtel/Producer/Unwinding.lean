import PostgresOtel.Producer.Calls
import PostgresOtel.Producer.Deliveries
import PostgresOtel.Producer.SlotFrame

/-!
# Ending a span anywhere on the stack

What `api_span_end` does to every span when the one it is called for is not on top: the spans started
above it are exported or freed, activations above it are popped, and what is below is left alone.
The emit hooks log nothing here, so all they can do to the producer's data is to ask for a context,
which gives a non-recording span the id it did not have.
-/

set_option autoImplicit false

namespace PostgresOtel

open Exec

variable (env : Env) {α : Type}

/-! ## Hooks that log nothing -/

/-- No report of an emit hook reaches `emit_log_hook`. -/
def Env.LogsNothing : Prop := ∀ hook ∈ env.emitHook, ∀ n edata, .report edata ∉ (hook n).acts

/-- The entry is as it was, or has been given the span id it did not have. -/
inductive DrawsId (n : OtelNrec) : OtelNrec → Prop
  | same : DrawsId n n
  | drawn (id : OtelSpanId) : n.haveSpanId = false →
      DrawsId n { n with haveSpanId := true, ctx := { n.ctx with spanId := id } }

instance : Std.Refl DrawsId := ⟨fun _ => .same⟩

instance : IsTrans OtelNrec DrawsId := ⟨fun n n' n'' h h' => by
  cases h' with
  | same => exact h
  | drawn id hid =>
    cases h with
    | same => exact .drawn id hid
    | drawn => cases hid⟩

theorem DrawsId.life {n n' : OtelNrec} (h : DrawsId n n') : n'.toNrecLife = n.toNrecLife := by
  cases h <;> rfl

/-- Of the data of spans, only ids of non-recording ones are drawn. -/
structure Drawn (s s' : St) : Prop where
  slots : s'.slots = s.slots
  nrecs : ∀ j, DrawsId (s.nrecs j) (s'.nrecs j)
  dispatches : s'.dispatches = s.dispatches

instance : Std.Refl Drawn := ⟨fun _ => ⟨rfl, fun _ => .same, rfl⟩⟩

instance : IsTrans St Drawn := ⟨fun _ _ _ h h' =>
  ⟨h'.slots.trans h.slots, fun j => IsTrans.trans _ _ _ (h.nrecs j) (h'.nrecs j),
    h'.dispatches.trans h.dispatches⟩⟩

theorem drawn_of_eq {s s' : St} (hslots : s'.slots = s.slots) (hnrecs : s'.nrecs = s.nrecs)
    (hdispatches : s'.dispatches = s.dispatches) : Drawn s s' where
  slots := hslots
  nrecs j := by
    rw [hnrecs]
    exact .same
  dispatches := hdispatches

theorem drawn_modify {f : St → St}
    (h : ∀ s, (f s).slots = s.slots ∧ (f s).nrecs = s.nrecs ∧ (f s).dispatches = s.dispatches) :
    Within Drawn (modify f : M PUnit) := within_modify fun s => by
  obtain ⟨hslots, hnrecs, hdispatches⟩ := h s
  exact drawn_of_eq hslots hnrecs hdispatches

theorem drawn_runIf {c : Prop} [Decidable c] {x : M Unit} (h : Within Drawn x) :
    Within Drawn (runIf c x) := .ite h (within_pure _)

theorem drawn_raiseError (edata : ErrorData) : Within Drawn (raiseError edata : M α) :=
  .bind (drawn_modify fun _ => ⟨rfl, rfl, rfl⟩) fun _ => within_throw _

theorem drawn_callRefused (readOnly : Bool) : Within Drawn (callRefused env readOnly) := by
  have hcount (f : OtelApiCounters → OtelApiCounters) :
      Within Drawn (modifyCounters f) := drawn_modify fun _ => ⟨rfl, rfl, rfl⟩
  unfold callRefused
  refine .bind within_get fun _ => .ite ?_ (.ite ?_ (within_pure _))
  · exact .bind (hcount _) fun _ => within_pure _
  · exact .bind (hcount _) fun _ => within_pure _

/-- The id is drawn only if there is none yet. -/
theorem drawn_nrecContext (i : ℕ) : Within Drawn (nrecContext env i) := by
  intro s
  unfold nrecContext
  rw [wp_bind, wp_get, wp_ite]
  refine ⟨fun _ => Std.Refl.refl s, fun hid => ?_⟩
  have hseed : Wp (seedPrngIfNeeded env)
      (fun _ s' => s'.slots = s.slots ∧ s'.nrecs = s.nrecs ∧ s'.dispatches = s.dispatches)
      (fun _ _ => False) s := by
    unfold seedPrngIfNeeded
    rw [wp_bind, wp_get, wp_ite]
    exact ⟨fun _ => ⟨rfl, rfl, rfl⟩, fun _ => ⟨rfl, rfl, rfl⟩⟩
  rw [wp_bind]
  refine hseed.mono (fun _ s₁ h₁ => ?_) fun _ _ h => h.elim
  obtain ⟨hslots, hnrecs, hdispatches⟩ := h₁
  refine ⟨hslots, fun j => ?_, hdispatches⟩
  change DrawsId (s.nrecs j) (Function.update s₁.nrecs i _ j)
  rw [hnrecs]
  by_cases hj : j = i
  · subst hj
    rw [Function.update_self]
    exact .drawn _ (by simpa using hid)
  · rw [Function.update_of_ne hj]
    exact .same

theorem drawn_slotForRef (ref : OtelSpanRef) : Within Drawn (slotForRef ref) := by
  unfold slotForRef
  refine .bind within_get fun _ => .ite (within_pure _) (.ite (within_pure _) ?_)
  exact .bind (drawn_modify fun _ => ⟨rfl, rfl, rfl⟩) fun _ => within_pure _

theorem drawn_nrecForRef (ref : OtelSpanRef) : Within Drawn (nrecForRef ref) := by
  unfold nrecForRef
  refine .bind within_get fun _ => .ite (within_pure _) (.ite (within_pure _) ?_)
  exact .bind (drawn_modify fun _ => ⟨rfl, rfl, rfl⟩) fun _ => within_pure _

theorem drawn_contextOfHandle (ref : OtelSpanRef) : Within Drawn (contextOfHandle env ref) := by
  unfold contextOfHandle
  refine .ite (.bind (drawn_slotForRef ref) fun slot => ?_)
    (.bind (drawn_nrecForRef ref) fun n => ?_)
  · cases slot with
    | none => exact within_pure _
    | some i => exact .bind within_get fun _ => within_pure _
  · cases n with
    | none => exact within_pure _
    | some i => exact .bind (drawn_nrecContext env i) fun _ => within_pure _

theorem drawn_apiSpanContextOf (ref : OtelSpanRef) : Within Drawn (apiSpanContextOf env ref) := by
  have hparent : Within Drawn (resolveActiveParent env) := by
    unfold resolveActiveParent
    refine .bind within_get fun s => ?_
    cases s.spanStack with
    | cons top _ => exact within_pure _
    | nil => cases remoteContext env <;> exact within_pure _
  unfold apiSpanContextOf otelSpanContextOfInternal
  refine .bind (drawn_callRefused env true) fun _ => .ite (within_pure _) ?_
  refine .ite (.bind hparent fun p => ?_) (drawn_contextOfHandle env ref)
  cases p with
  | slot i => exact .bind within_get fun _ => drawn_contextOfHandle env _
  | nrec i => exact .bind (drawn_nrecContext env i) fun _ => within_pure _
  | remote ctx => exact within_pure _
  | none => exact within_pure _

theorem drawn_runHookActs {acts : List HookAct} (h : ∀ edata, .report edata ∉ acts) :
    Within Drawn (runHookActs env acts) := by
  induction acts with
  | nil => exact within_pure _
  | cons act rest ih =>
    refine .bind ?_ fun _ => ih fun edata hmem => h edata (List.mem_cons_of_mem _ hmem)
    cases act with
    | report edata => exact absurd List.mem_cons_self (h edata)
    | call => exact .bind (drawn_callRefused env false) fun _ => within_pure _
    | contextOf ref => exact .bind (drawn_apiSpanContextOf env ref) fun _ => within_pure _
    | catchError => exact drawn_modify fun _ => ⟨rfl, rfl, rfl⟩

variable {env}

theorem drawn_emitSpan (hlogs : env.LogsNothing) (serial : ℕ) (span : OtelSpan) :
    Within Drawn (emitSpan env serial span) := by
  have hreach (sink : Sink) : Within Drawn (reachSink serial span sink) :=
    drawn_modify fun _ => ⟨rfl, rfl, rfl⟩
  have hhook : Within Drawn (callEmitHook env serial span) := by
    unfold callEmitHook runEmitHook
    cases hh : env.emitHook with
    | none => exact within_pure _
    | some hook =>
      refine .bind (hreach .emitHook) fun _ => ?_
      refine .bind (drawn_runHookActs env fun edata => hlogs hook hh serial edata) fun _ => ?_
      cases (hook serial).finish with
      | returns => exact within_pure _
      | raisesError edata => exact drawn_raiseError edata
      | raisesFatal => exact within_throw _
  have hline : Within Drawn (otelEmitSpanAsLogLine env serial span) :=
    .ite (drawn_raiseError _) (hreach .serverLog)
  unfold emitSpan
  refine .bind (drawn_modify fun _ => ⟨rfl, rfl, rfl⟩) fun _ => .bind hhook fun _ => ?_
  exact .bind (drawn_runIf hline) fun _ => drawn_modify fun _ => ⟨rfl, rfl, rfl⟩

/-- A dispatch adds the span to the log. -/
theorem drawn_dispatchSpan (hlogs : env.LogsNothing) (serial : ℕ) (span : OtelSpan) (s : St) :
    Wp (dispatchSpan env serial span)
      (fun _ s' => Drawn { s with dispatches := s.dispatches ++ [⟨serial, span, env.sinks⟩] } s')
      (fun _ _ => True) s := by
  have hrecover (depth : ℕ) (save : Backend) : Within Drawn (recoverDispatch depth save) := by
    unfold recoverDispatch flushErrorState
    refine .bind (drawn_modify fun _ => ⟨rfl, rfl, rfl⟩) fun _ => ?_
    refine .bind (drawn_modify fun _ => ⟨rfl, rfl, rfl⟩) fun _ => ?_
    refine .bind (drawn_modify fun _ => ⟨rfl, rfl, rfl⟩) fun _ => ?_
    exact .bind (drawn_modify fun _ => ⟨rfl, rfl, rfl⟩) fun _ =>
      drawn_modify fun _ => ⟨rfl, rfl, rfl⟩
  have htry (depth : ℕ) (save : Backend) : Within Drawn (do
      pgTry (emitSpan env serial span) (recoverDispatch depth save)
      modifyCounters fun c => { c with spansEmitted := c.spansEmitted + 1 }) := by
    refine .bind (.tryCatch (drawn_emitSpan hlogs serial span) fun e => ?_) fun _ =>
      drawn_modify fun _ => ⟨rfl, rfl, rfl⟩
    cases e with
    | error => exact hrecover depth save
    | fatal => exact within_throw _
  unfold dispatchSpan
  rw [wp_bind, wp_get, wp_bind, wp_modify, wp_ite]
  refine ⟨fun _ => ?_, fun _ => Std.Refl.refl _⟩
  exact (htry s.dispatchDepth s.backend _).mono (fun _ _ h => h) fun _ _ _ => trivial

/-! ## Ending a span -/

/-- The span in slot `i` is exported and the slot freed; other spans are left alone. -/
structure Exports (env : Env) (i : ℕ) (unwinding : Bool) (s s' : St) : Prop where
  life : s'.life = (s.life.countUnwound unwinding).dispatchSlot env.sink i
  slots : ∀ j, j ≠ i → s'.slots j = s.slots j
  nrecs : ∀ j, DrawsId (s.nrecs j) (s'.nrecs j)
  exported : ∃ d : Dispatch, s'.dispatches = s.dispatches ++ [d] ∧
    d.serial = (s.slots i).serial ∧ d.span.identity = (s.slots i).span.identity ∧
    d.sink = env.sink ∧ (unwinding = true → d.span.status = .error)

/-- Slot `i` still holds the span, and it is marked as failed if it is unwound. -/
def Marked (unwinding : Bool) (slot slot' : OtelSlot) : Prop :=
  slot'.serial = slot.serial ∧ slot'.span.identity = slot.span.identity ∧
    (unwinding = true → slot'.span.status = .error)

theorem wp_endSlot_exports (hlogs : env.LogsNothing) (i : ℕ) (endTime : TimestampTz)
    (unwinding : Bool) (reason : Option CString) (s : St) :
    Wp (endSlot env i endTime unwinding reason) (fun _ s' => Exports env i unwinding s s')
      (fun _ _ => True) s := by
  have hmark (s₁ : St) : Wp (runIf (unwinding = true) (markUnwound i reason))
      (fun _ s₂ => OnSlot i (Marked unwinding) s₁ s₂) (fun _ _ => False) s₁ := by
    unfold markUnwound
    rw [wp_runIf]
    refine ⟨fun _ => ?_, fun hu => ⟨⟨rfl, rfl, fun h => absurd h hu⟩, fun _ _ => rfl, rfl, rfl⟩⟩
    refine ⟨?_, fun j hj => Function.update_of_ne hj .., rfl, rfl⟩
    change Marked unwinding _ (Function.update s₁.slots i _ i)
    rw [Function.update_self]
    exact ⟨rfl, rfl, fun _ => rfl⟩
  have hfinish : Within (OnSlot i SameSpan) (do
      finishSpan env i endTime
      modifySlot i fun slot => { slot with dispatching := true }) :=
    .bind (onSlot_finishSpan env endTime) fun _ => onSlot_modifySlot fun _ => ⟨rfl, rfl, rfl⟩
  have hrelease : Within (OnSlot i AnyChange) (do
      modifySlot i fun slot => { slot with dispatching := false }
      releaseSlot env i false .dispatched) :=
    .bind (onSlot_modifySlot fun _ => trivial) fun _ => onSlot_releaseSlot env false _
  have hdata : Wp (endSlot env i endTime unwinding reason)
      (fun _ s' => (∀ j, j ≠ i → s'.slots j = s.slots j) ∧
        (∀ j, DrawsId (s.nrecs j) (s'.nrecs j)) ∧
        ∃ d : Dispatch, s'.dispatches = s.dispatches ++ [d] ∧ d.serial = (s.slots i).serial ∧
          d.span.identity = (s.slots i).span.identity ∧ d.sink = env.sink ∧
          (unwinding = true → d.span.status = .error)) (fun _ _ => True) s := by
    unfold endSlot
    rw [wp_bind]
    refine (onSlot_forgetOwner env s).mono (fun _ s₁ h₁ => ?_) fun _ _ _ => trivial
    rw [wp_bind]
    refine (hmark s₁).mono (fun _ s₂ h₂ => ?_) fun _ _ h => h.elim
    rw [← bind_assoc, wp_bind]
    refine (hfinish s₂).mono (fun _ s₃ h₃ => ?_) fun _ _ _ => trivial
    rw [wp_bind, wp_get, wp_bind]
    refine (drawn_dispatchSpan hlogs _ _ s₃).mono (fun _ s₄ h₄ => ?_) fun _ _ _ => trivial
    refine (hrelease s₄).mono (fun _ s₅ h₅ => ?_) fun _ _ _ => trivial
    have hothers (j : ℕ) (hj : j ≠ i) : s₅.slots j = s.slots j := by
      rw [h₅.others j hj, h₄.slots, h₃.others j hj, h₂.others j hj, h₁.others j hj]
    have hnrecs : s₃.nrecs = s.nrecs := by rw [h₃.nrecs, h₂.nrecs, h₁.nrecs]
    have hdispatches : s₃.dispatches = s.dispatches := by
      rw [h₃.dispatches, h₂.dispatches, h₁.dispatches]
    refine ⟨hothers, fun j => ?_, ⟨(s₃.slots i).serial, (s₃.slots i).span, env.sinks⟩, ?_, ?_, ?_,
      by simp [Dispatch.sink, isEmpty_sinks], fun hu => h₃.slot.status.trans (h₂.slot.2.2 hu)⟩
    · have hdraws := h₄.nrecs j
      rw [← h₅.nrecs] at hdraws
      rwa [← hnrecs]
    · rw [h₅.dispatches, h₄.dispatches, hdispatches]
    · exact h₃.slot.serial.trans (h₂.slot.1.trans h₁.slot.serial)
    · exact h₃.slot.identity.trans (h₂.slot.2.1.trans h₁.slot.identity)
  refine (hdata.and (wp_endSlot env i endTime unwinding reason s)).mono (fun _ s' h => ?_)
    fun _ _ _ => trivial
  obtain ⟨⟨hslots, hnrecs, hexported⟩, hlife, -⟩ := h
  exact ⟨hlife, hslots, hnrecs, hexported⟩

section Exports

variable {i : ℕ} {unwinding : Bool} {s s' : St}

theorem Exports.used (h : Exports env i unwinding s s') (e : StackRef) :
    s'.life.Used e ↔ s.life.Used e := by
  rw [h.life]
  cases e <;> exact Iff.rfl

theorem Exports.gen (h : Exports env i unwinding s s') {e : StackRef} (he : e ≠ .slot i) :
    s'.life.gen e = s.life.gen e := by
  cases e with
  | slot j => exact congrArg (fun slot : OtelSlot => slot.gen) (h.slots j fun hj => he (hj ▸ rfl))
  | nrec j => exact congrArg NrecLife.gen (h.nrecs j).life

/-- The span is the one that has ended. -/
theorem Exports.live (h : Exports env i unwinding s s') (e : StackRef) :
    s'.life.Live e ↔ s.life.Live e ∧ e ≠ .slot i := by
  rw [Lifecycle.live_iff, h.used]
  by_cases he : e = .slot i
  · rw [he, h.life]
    simp [Lifecycle.gen, Lifecycle.dispatchSlot, Lifecycle.freeSlot]
  · rw [h.gen he, Lifecycle.live_iff]
    simp [he]

end Exports

/-! ## Unwinding -/

/-- The spans started where these entries are; activations start none. -/
def startEntries (above : List StackEntry) : List StackRef :=
  (above.filter fun e => !e.isActivation).map StackEntry.entry

/-- What a recording span is known by. -/
def St.knownAs (s : St) : StackRef → Option (ℕ × SpanIdentity)
  | .slot i => some ((s.slots i).serial, (s.slots i).span.identity)
  | .nrec _ => none

/-- The spans started at the entries `above` have ended, in the order of the list, and other spans
are left alone. -/
structure Unwound (env : Env) (above : List StackEntry) (s s' : St) : Prop where
  slots : ∀ j, StackRef.slot j ∉ startEntries above → s'.slots j = s.slots j
  nrecs : ∀ j, StackRef.nrec j ∉ startEntries above → DrawsId (s.nrecs j) (s'.nrecs j)
  used : ∀ e, s'.life.Used e ↔ s.life.Used e
  ended : ∀ e ∈ startEntries above, ¬ s'.life.Live e
  exported : ∃ ds : List Dispatch, s'.dispatches = s.dispatches ++ ds ∧
    ds.map (fun d => (d.serial, d.span.identity)) = (startEntries above).filterMap s.knownAs ∧
    ∀ d ∈ ds, d.span.status = .error ∧ d.sink = env.sink

theorem startEntries_append (above above' : List StackEntry) :
    startEntries (above ++ above') = startEntries above ++ startEntries above' := by
  simp [startEntries]

theorem mem_startEntries {above : List StackEntry} {r : StackRef} (h : r ∈ startEntries above) :
    r ∈ above.map StackEntry.entry := by
  obtain ⟨e, he, rfl⟩ := List.mem_map.1 h
  exact List.mem_map_of_mem (List.mem_filter.1 he).1

section Unwound

variable {above above' : List StackEntry} {s s' s'' : St}

theorem Unwound.gen (h : Unwound env above s s') {e : StackRef} (he : e ∉ startEntries above) :
    s'.life.gen e = s.life.gen e := by
  cases e with
  | slot j => exact congrArg (fun slot : OtelSlot => slot.gen) (h.slots j he)
  | nrec j => exact congrArg NrecLife.gen (h.nrecs j he).life

/-- Spans started elsewhere are open as before. -/
theorem Unwound.live (h : Unwound env above s s') {e : StackRef} (he : e ∉ startEntries above) :
    s'.life.Live e ↔ s.life.Live e := by
  rw [Lifecycle.live_iff, Lifecycle.live_iff, h.used, h.gen he]

theorem Unwound.knownAs (h : Unwound env above s s') {e : StackRef} (he : e ∉ startEntries above) :
    s'.knownAs e = s.knownAs e := by
  cases e with
  | slot j => simp only [St.knownAs, h.slots j he]
  | nrec j => rfl

theorem unwound_nil (env : Env) (s : St) : Unwound env [] s s where
  slots _ _ := rfl
  nrecs _ _ := .same
  used _ := Iff.rfl
  ended _ he := absurd he List.not_mem_nil
  exported := ⟨[], by simp, rfl, fun _ hd => absurd hd List.not_mem_nil⟩

/-- Unwinding goes on with entries of other spans. -/
theorem Unwound.append (h : Unwound env above s s') (h' : Unwound env above' s' s'')
    (hother : ∀ e ∈ startEntries above, e ∉ startEntries above') :
    Unwound env (above ++ above') s s'' where
  slots j hj := by
    rw [startEntries_append, List.mem_append, not_or] at hj
    rw [h'.slots j hj.2, h.slots j hj.1]
  nrecs j hj := by
    rw [startEntries_append, List.mem_append, not_or] at hj
    exact IsTrans.trans _ _ _ (h.nrecs j hj.1) (h'.nrecs j hj.2)
  used e := (h'.used e).trans (h.used e)
  ended e he := by
    rw [startEntries_append, List.mem_append] at he
    by_cases hlater : e ∈ startEntries above'
    · exact h'.ended e hlater
    · rw [h'.live hlater]
      exact h.ended e (he.resolve_right hlater)
  exported := by
    obtain ⟨ds, hds, hserials, hfailed⟩ := h.exported
    obtain ⟨ds', hds', hserials', hfailed'⟩ := h'.exported
    refine ⟨ds ++ ds', by rw [hds', hds, List.append_assoc], ?_, fun d hd => ?_⟩
    · have hknown : (startEntries above').filterMap s'.knownAs =
          (startEntries above').filterMap s.knownAs :=
        List.filterMap_congr fun e he => h.knownAs fun hmem => hother e hmem he
      rw [List.map_append, hserials, hserials', hknown, startEntries_append, List.filterMap_append]
    · rcases List.mem_append.1 hd with hd | hd
      · exact hfailed d hd
      · exact hfailed' d hd

end Unwound

/-- One turn of `stack_unwind_above`. -/
theorem wp_unwindEntry_unwound (hlogs : env.LogsNothing) (e : StackEntry) (reason : CString) (s : St) :
    Wp (unwindEntry env e reason)
      (fun _ s' => s'.spanStack = s.spanStack ∧ Unwound env [e] s s') (fun _ _ => True) s := by
  unfold unwindEntry
  rw [wp_ite]
  constructor
  · intro hact
    have hnone : startEntries [e] = [] := by simp [startEntries, hact]
    refine ⟨rfl, ⟨fun _ _ => rfl, fun _ _ => .same, fun _ => Iff.rfl, fun _ he => ?_, ?_⟩⟩
    · rw [hnone] at he
      exact absurd he List.not_mem_nil
    · rw [hnone]
      exact ⟨[], by simp, rfl, fun _ hd => absurd hd List.not_mem_nil⟩
  · intro hact
    have hone : startEntries [e] = [e.entry] := by simp [startEntries, hact]
    cases he : e.entry with
    | slot i =>
      rw [he] at hone
      refine (wp_endSlot_exports hlogs i 0 true (some reason) s).mono (fun _ s' h => ?_)
        fun _ _ h => h
      have hnone (j : ℕ) (hj : StackRef.slot j ∉ startEntries [e]) : j ≠ i := by
        rintro rfl
        exact hj (by simp [hone])
      refine ⟨congrArg Lifecycle.spanStack h.life, ⟨fun j hj => h.slots j (hnone j hj),
        fun j _ => h.nrecs j, h.used, fun r hr => ?_, ?_⟩⟩
      · rw [hone, List.mem_singleton] at hr
        rw [hr, h.live]
        exact fun hlive => hlive.2 rfl
      · obtain ⟨d, hds, hserial, hidentity, hsink, hfailed⟩ := h.exported
        refine ⟨[d], hds, by simp [hone, St.knownAs, hserial, hidentity], fun d' hd' => ?_⟩
        rw [List.mem_singleton.1 hd']
        exact ⟨hfailed rfl, hsink⟩
    | nrec i =>
      rw [he] at hone
      refine ⟨rfl, ⟨fun _ _ => rfl, fun j hj => ?_, fun r => ?_, fun r hr => ?_, [], ?_, ?_, ?_⟩⟩
      · have hne : j ≠ i := by
          rintro rfl
          exact hj (by simp [hone])
        change DrawsId (s.nrecs j) (Function.update s.nrecs i _ j)
        rw [Function.update_of_ne hne]
        exact .same
      · cases r <;> exact Iff.rfl
      · rw [hone, List.mem_singleton] at hr
        rw [hr, Lifecycle.live_iff]
        rintro ⟨-, hgen⟩
        exact hgen (by simp [Lifecycle.gen, St.life])
      · exact (List.append_nil _).symm
      · simp [hone, St.knownAs]
      · exact fun _ hd => absurd hd List.not_mem_nil

theorem wp_unwindTo_unwound (hlogs : env.LogsNothing) (reason : CString)
    (below above : List StackEntry) {fuel : ℕ} {s : St} (hstack : s.spanStack = above ++ below)
    (hfuel : above.length ≤ fuel) (hnodup : (above.map StackEntry.entry).Nodup) :
    Wp (unwindTo env below.length reason fuel)
      (fun _ s' => s'.spanStack = below ∧ Unwound env above s s') (fun _ _ => True) s := by
  refine (wp_unwindTo_turns env (I := fun rest s' => ∃ done, above = done ++ rest ∧
    Unwound env done s s') (E := fun _ _ => True) reason below ?_ above hstack hfuel
    ⟨[], rfl, unwound_nil env s⟩).mono (fun _ s' h => ?_) fun _ _ h => h
  · rintro e rest s₁ - ⟨done, rfl, h₁⟩
    refine (wp_unwindEntry_unwound hlogs e reason { s₁ with spanStack := rest ++ below }).mono
      (fun _ s₂ h₂ => ⟨h₂.1, done ++ [e], by simp, ?_⟩) fun _ _ h => h
    have hpop : Unwound env done s { s₁ with spanStack := rest ++ below } := { h₁ with }
    refine hpop.append h₂.2 fun r hr hr' => ?_
    rw [List.map_append, List.map_cons] at hnodup
    have hentry : r = e.entry := by simpa using mem_startEntries hr'
    exact (List.nodup_append.1 hnodup).2.2 _ (mem_startEntries hr) _ List.mem_cons_self hentry
  · obtain ⟨hs, done, habove, hdone⟩ := h
    rw [List.append_nil] at habove
    exact ⟨hs, habove ▸ hdone⟩

/-! ## The warning -/

/-- The recording span nearest to the top, started or activated. -/
def topSlot : List StackEntry → Option ℕ
  | [] => none
  | e :: rest =>
    match e.entry with
    | .slot i => some i
    | .nrec _ => topSlot rest

theorem mem_of_topSlot {above rest : List StackEntry} {x : StackEntry} {i j : ℕ}
    (hx : x.entry = .slot i) (h : topSlot (above ++ x :: rest) = some j) :
    j = i ∨ StackRef.slot j ∈ above.map StackEntry.entry := by
  induction above with
  | nil =>
    simp only [List.nil_append, topSlot, hx] at h
    exact .inl (Option.some.inj h).symm
  | cons e above ih =>
    rw [List.cons_append, topSlot] at h
    cases he : e.entry with
    | slot k =>
      rw [he] at h
      obtain rfl := Option.some.inj h
      exact .inr (by simp [he])
    | nrec k =>
      rw [he] at h
      exact (ih h).imp_right fun hmem => by
        rw [List.map_cons]
        exact List.mem_cons_of_mem _ hmem

/-- A warning is recorded on the span nearest to the top at most; no span is in a dispatch. -/
theorem wp_recordOnStack_warning {edata : ErrorData} (hlevel : edata.elevel < elevelError)
    (recorded : Bool) (stack : List StackEntry) (s : St)
    (hidle : ∀ j, StackRef.slot j ∈ stack.map StackEntry.entry → (s.slots j).dispatching = false) :
    Wp (recordOnStack env edata stack recorded)
      (fun _ s' => ∀ j, topSlot stack ≠ some j → s'.slots j = s.slots j) (fun _ _ => True) s := by
  induction stack with
  | nil => exact fun _ _ => rfl
  | cons e rest ih =>
    unfold recordOnStack topSlot
    cases he : e.entry with
    | nrec k =>
      refine ih fun j hj => hidle j ?_
      rw [List.map_cons]
      exact List.mem_cons_of_mem _ hj
    | slot k =>
      have hk : (s.slots k).dispatching = false := hidle k (by simp [he])
      dsimp only
      rw [wp_bind, wp_get, wp_ite]
      refine ⟨fun hdisp => absurd hdisp (by simp [hk]), fun _ => ?_⟩
      rw [wp_ite]
      refine ⟨fun _ => ?_, fun hnot => absurd hlevel hnot⟩
      refine (onSlot_slotRecordError env edata s).mono (fun _ s' h j hj => ?_) fun _ _ _ => trivial
      exact h.others j fun heq => hj (by rw [heq])

/-- What the warning about a span that ends out of order leaves behind. -/
structure Warned (s s' : St) : Prop where
  life : ∃ n, s'.life = { s.life with nonLifoEnd := n }
  slots : ∀ j, topSlot s.spanStack ≠ some j → s'.slots j = s.slots j
  identity : ∀ j, (s'.slots j).span.identity = (s.slots j).span.identity
  nrecs : s'.nrecs = s.nrecs
  dispatches : s'.dispatches = s.dispatches

theorem warned_refl (s : St) : Warned s s where
  life := ⟨_, rfl⟩
  slots _ _ := rfl
  identity _ := rfl
  nrecs := rfl
  dispatches := rfl

theorem Warned.knownAs {s s' : St} (h : Warned s s') (e : StackRef) : s'.knownAs e = s.knownAs e := by
  cases e with
  | slot j =>
    obtain ⟨n, hn⟩ := h.life
    have hserial : (s'.slots j).serial = (s.slots j).serial := by
      change (s'.life.slots.cell j).serial = _
      rw [hn]
      rfl
    simp only [St.knownAs, hserial, h.identity]
  | nrec j => rfl

theorem wp_nonlifoWarning_warned (what : String) (pos : ℕ) {s : St} (hinv : PoolInv s.life)
    (hd : s.life.dispatchDepth = 0) :
    Wp (nonlifoWarning env what pos) (fun _ s' => Warned s s') (fun _ _ => True) s := by
  have hidle (j : ℕ) (hj : StackRef.slot j ∈ s.spanStack.map StackEntry.entry) :
      (s.slots j).dispatching = false := by
    obtain ⟨e, he, hej⟩ := List.mem_map.1 hj
    have hlive : s.life.Live e.entry := hinv.stack_live e he
    rw [hej] at hlive
    exact hinv.not_dispatching hd j hlive
  have hreport (edata : ErrorData) (hlevel : edata.elevel < elevelError) (s₁ : St)
      (hslots : s₁.slots = s.slots) (hstack : s₁.spanStack = s.spanStack) :
      Wp (reportWarning env edata)
        (fun _ s' => ∀ j, topSlot s.spanStack ≠ some j → s'.slots j = s.slots j)
        (fun _ _ => True) s₁ := by
    unfold reportWarning otelEmitLogHook
    rw [wp_ite]
    refine ⟨fun _ => ?_, fun _ => fun _ _ => by rw [hslots]⟩
    rw [wp_bind, wp_get, wp_ite]
    refine ⟨fun _ => ?_, fun _ => fun _ _ => by rw [hslots]⟩
    rw [hstack, ← hslots]
    exact wp_recordOnStack_warning hlevel false s.spanStack s₁ (by rw [hslots]; exact hidle)
  unfold nonlifoWarning
  rw [wp_bind]
  change Wp _ _ _ { s with counters := { s.counters with nonLifoEnd := s.counters.nonLifoEnd + 1 } }
  rw [wp_bind, wp_get, wp_ite]
  refine ⟨fun _ => ⟨⟨_, rfl⟩, fun _ _ => rfl, fun _ => rfl, rfl, rfl⟩, fun _ => ?_⟩
  rw [wp_bind, wp_modify]
  refine Wp.mono (.and (tame_reportWarning env _ _) (hreport _ ?_ _ ?_ ?_)) (fun _ s' h => ?_)
    fun _ _ _ => trivial
  · show elevelWarning < elevelError
    decide
  · rfl
  · rfl
  obtain ⟨hshape, hslots⟩ := h
  refine ⟨⟨s.counters.nonLifoEnd + 1, ?_⟩, hslots, fun j => ?_, ?_, ?_⟩
  · exact congrArg (fun sh : Shape => sh.core.1) hshape
  · exact congrFun (congrArg Shape.identity hshape) j
  · exact congrArg Shape.nrecs hshape
  · exact congrArg (fun sh : Shape => sh.core.2.2.1) hshape

/-- Taking an entry off the stack, with the end of what was started above it. -/
theorem wp_popEntryAt_unwound (hlogs : env.LogsNothing) (what reason : String)
    (above rest : List StackEntry) (x : StackEntry) {s : St}
    (hstack : s.spanStack = above ++ x :: rest) (hinv : PoolInv s.life)
    (hd : s.life.dispatchDepth = 0) :
    Wp (popEntryAt env above.length what reason)
      (fun _ s' => s'.spanStack = rest ∧ ∃ s₁, Warned s s₁ ∧ Unwound env above s₁ s')
      (fun _ _ => True) s := by
  have hnodup : (above.map StackEntry.entry).Nodup := by
    have hall : (s.spanStack.map StackEntry.entry).Nodup := hinv.stack_nodup
    rw [hstack, List.map_append] at hall
    exact (List.nodup_append.1 hall).1
  unfold popEntryAt endAbove stackUnwindAbove stackPop
  rw [wp_bind, wp_runIf]
  constructor
  · intro _
    rw [wp_bind]
    refine (wp_nonlifoWarning_warned what _ hinv hd).mono (fun _ s₁ h₁ => ?_) fun _ _ h => h
    have hstack₁ : s₁.spanStack = above ++ x :: rest := by
      obtain ⟨n, hn⟩ := h₁.life
      exact (congrArg Lifecycle.spanStack hn).trans hstack
    have hkeep : s₁.spanStack.length - above.length = (x :: rest).length := by
      rw [hstack₁, List.length_append]
      omega
    rw [wp_bind, wp_get, hkeep]
    refine (wp_unwindTo_unwound hlogs _ (x :: rest) above hstack₁ (by simp [hstack₁]) hnodup).mono
      (fun _ s₂ h₂ => ?_) fun _ _ h => h
    obtain ⟨hs₂, hunwound⟩ := h₂
    refine ⟨?_, s₁, h₁, { hunwound with }⟩
    change s₂.spanStack.tail = rest
    rw [hs₂]
    rfl
  · intro hne
    have hnil : above = [] := List.eq_nil_of_length_eq_zero (by simpa using hne)
    subst hnil
    refine ⟨?_, s, warned_refl s, { unwound_nil env s with }⟩
    change s.spanStack.tail = rest
    rw [hstack]
    rfl

/-! ## `api_span_end` anywhere on the stack -/

/-- The span in slot `i` has ended where `above` and `rest` were the stack above and below it.
`keeps` compares a non-recording span below with what it was. -/
structure EndedAt (env : Env) (keeps : OtelNrec → OtelNrec → Prop) (i : ℕ)
    (above rest : List StackEntry) (s s' : St) : Prop where
  stack : s'.spanStack = rest
  ended : ∀ e ∈ .slot i :: startEntries above, ¬ s'.life.Live e
  exported : ∃ (ds : List Dispatch) (d : Dispatch), s'.dispatches = s.dispatches ++ ds ++ [d] ∧
    ds.map (fun d => (d.serial, d.span.identity)) = (startEntries above).filterMap s.knownAs ∧
    (∀ d ∈ ds, d.span.status = .error ∧ d.sink = true) ∧
    some (d.serial, d.span.identity) = s.knownAs (.slot i) ∧ d.sink = true ∧
    DeliversAll env (ds ++ [d]) s s'
  once : (s'.dispatches.map Dispatch.serial).Nodup
  activations : ∀ x ∈ above, x.isActivation = true →
    s'.life.Live x.entry ∧ s'.life.gen x.entry = s.life.gen x.entry
  slots : ∀ x ∈ rest, ∀ j, x.entry = .slot j → s'.slots j = s.slots j
  nrecs : ∀ x ∈ rest, ∀ j, x.entry = .nrec j → keeps (s.nrecs j) (s'.nrecs j)

theorem findIdx_entry {above rest : List StackEntry} {x : StackEntry}
    (hnodup : ((above ++ x :: rest).map StackEntry.entry).Nodup) :
    (above ++ x :: rest).findIdx? (fun e => e.entry = x.entry) = some above.length := by
  have hoff : ∀ e ∈ above, e.entry ≠ x.entry := by
    rw [List.map_append, List.map_cons] at hnodup
    intro e he
    exact (List.nodup_append.1 hnodup).2.2 _ (List.mem_map_of_mem he) _ List.mem_cons_self
  have hnone : above.findIdx? (fun e => e.entry = x.entry) = none := by
    rw [List.findIdx?_eq_none_iff]
    intro e he
    simpa using hoff e he
  rw [List.findIdx?_append, hnone]
  simp [List.findIdx?_cons]

theorem wp_apiSpanEnd_at (hlogs : env.LogsNothing) (hsink : env.sink = true) {ref : OtelSpanRef}
    (endTime : TimestampTz) {i : ℕ} {above rest : List StackEntry} {x : StackEntry} {s : St}
    (hinv : PoolInv s.life) (hcalm : s.life.refuses env = false) (hissued : ref.Issued)
    (href : s.life.entryOf ref = some (.slot i)) (hstack : s.spanStack = above ++ x :: rest)
    (hx : x.entry = .slot i) :
    Wp (apiSpanEnd env ref endTime)
      (fun _ s' => Delivers env s s' → (s'.dispatches.map Dispatch.serial).Nodup →
        EndedAt env DrawsId i above rest s s') (fun _ _ => True) s := by
  simp only [Lifecycle.refuses, Bool.or_eq_false_iff, decide_eq_false_iff_not, not_not] at hcalm
  have hd : s.life.dispatchDepth = 0 := by omega
  obtain ⟨hpos, hslot⟩ : 0 < ref.v ∧ s.life.slotOf ref = some i := by
    unfold Lifecycle.entryOf at href
    split_ifs at href with hv
    · obtain ⟨j, hj, heq⟩ := Option.map_eq_some_iff.1 href
      obtain rfl : j = i := by injection heq
      exact ⟨hv, hj⟩
    · obtain ⟨j, -, heq⟩ := Option.map_eq_some_iff.1 href
      cases heq
  have hlive : s.life.LiveSlot i := Lifecycle.live_of_slotOf (hissued.gen_pos hpos.ne') hslot
  have hnodup : (s.spanStack.map StackEntry.entry).Nodup := hinv.stack_nodup
  rw [hstack] at hnodup
  have hfind := findIdx_entry hnodup
  rw [List.map_append, List.map_cons, hx] at hnodup
  have hoff : StackRef.slot i ∉ above.map StackEntry.entry ∧
      StackRef.slot i ∉ rest.map StackEntry.entry := by
    have hmiddle := (List.nodup_middle.1 hnodup).notMem
    rwa [List.mem_append, not_or] at hmiddle
  unfold apiSpanEnd
  rw [wp_bind]
  refine wp_callRefused_calm env hcalm.1 hd ?_
  rw [wp_ite]
  refine ⟨fun hr => by simp at hr; omega, fun _ => ?_⟩
  rw [wp_ite]
  refine ⟨fun hneg => by omega, fun _ => ?_⟩
  rw [wp_bind]
  refine wp_slotForRef_cases hpos (fun j hj => ?_) fun hno => by rw [hslot] at hno; cases hno
  obtain rfl := Option.some.inj (hj.symm.trans hslot)
  unfold popEnded stackFind
  rw [wp_bind, wp_bind, wp_bind, wp_get, wp_pure, hstack, ← hx, hfind]
  refine (wp_popEntryAt_unwound hlogs _ _ above rest x hstack hinv hd).mono (fun _ s₂ h₂ => ?_)
    fun _ _ h => h
  obtain ⟨hs₂, s₁, h₁, hunwound⟩ := h₂
  refine (wp_endSlot_exports hlogs j endTime false none s₂).mono (fun _ s₃ h₃ hdelivers honce => ?_)
    fun _ _ h => h
  have hstart {e : StackRef} (he : e ∉ above.map StackEntry.entry) : e ∉ startEntries above :=
    fun hmem => he (mem_startEntries hmem)
  obtain ⟨n, hn⟩ := h₁.life
  have hlive₁ (e : StackRef) : s₁.life.Live e ↔ s.life.Live e := by
    rw [hn]
    cases e <;> exact Iff.rfl
  have hgen₁ (e : StackRef) : s₁.life.gen e = s.life.gen e := by
    rw [hn]
    cases e <;> rfl
  -- An activation above is of another span, and none of those started above.
  have hactivation {y : StackEntry} (hy : y ∈ above) (hact : y.isActivation = true) :
      y.entry ≠ .slot j ∧ y.entry ∉ startEntries above := by
    refine ⟨fun heq => hoff.1 (heq ▸ List.mem_map_of_mem hy), fun hmem => ?_⟩
    obtain ⟨z, hz, hzy⟩ := List.mem_map.1 hmem
    obtain ⟨hz, hzact⟩ := List.mem_filter.1 hz
    have heq := List.inj_on_of_nodup_map (List.nodup_append.1 hnodup).1 hz hy hzy
    rw [heq, hact] at hzact
    cases hzact
  -- What is below has entries of its own.
  have hbelow {y : StackEntry} (hy : y ∈ rest) :
      y.entry ≠ .slot j ∧ y.entry ∉ above.map StackEntry.entry := by
    have hmem := List.mem_map_of_mem (f := StackEntry.entry) hy
    refine ⟨fun heq => hoff.2 (heq ▸ hmem), fun habove => ?_⟩
    exact (List.nodup_append.1 hnodup).2.2 _ habove _ (List.mem_cons_of_mem _ hmem) rfl
  obtain ⟨ds, hds, hknown, hfailed⟩ := hunwound.exported
  obtain ⟨d, hd₃, hserial, hidentity, hsink₃, -⟩ := h₃.exported
  have hdispatches : s₃.dispatches = s.dispatches ++ ds ++ [d] := by rw [hd₃, hds, h₁.dispatches]
  refine ⟨?_, fun e he => ?_, ⟨ds, d, hdispatches, ?_, ?_, ?_, ?_, ?_⟩, honce, fun y hy hact => ?_,
    fun y hy k hk => ?_, fun y hy k hk => ?_⟩
  · exact (congrArg Lifecycle.spanStack h₃.life).trans hs₂
  · rw [h₃.live]
    rintro ⟨hl, hne⟩
    exact hunwound.ended e ((List.mem_cons.1 he).resolve_left hne) hl
  · rw [hknown]
    exact List.filterMap_congr fun e _ => h₁.knownAs e
  · intro d' hd'
    rw [← hsink]
    exact hfailed d' hd'
  · rw [hserial, hidentity, ← h₁.knownAs, ← hunwound.knownAs (hstart hoff.1)]
    rfl
  · rw [hsink₃, hsink]
  · obtain ⟨ds', hall⟩ := hdelivers
    have hsame := hall.dispatches.symm.trans hdispatches
    rw [List.append_assoc] at hsame
    exact List.append_cancel_left hsame ▸ hall
  · obtain ⟨hne, hnot⟩ := hactivation hy hact
    rw [h₃.live, h₃.gen hne, hunwound.live hnot, hunwound.gen hnot, hlive₁, hgen₁]
    exact ⟨⟨hinv.stack_live y (by
      rw [show s.life.spanStack = above ++ x :: rest from hstack]
      exact List.mem_append_left _ hy), hne⟩, rfl⟩
  · obtain ⟨hne, hnot⟩ := hbelow hy
    rw [hk] at hne hnot
    have hkj : k ≠ j := fun heq => hne (heq ▸ rfl)
    rw [h₃.slots k hkj, hunwound.slots k (hstart hnot), h₁.slots k]
    rw [hstack]
    intro htop
    exact (mem_of_topSlot hx htop).elim hkj hnot
  · obtain ⟨-, hnot⟩ := hbelow hy
    rw [hk] at hnot
    have hdraws := hunwound.nrecs k (hstart hnot)
    rw [h₁.nrecs] at hdraws
    exact IsTrans.trans _ _ _ hdraws (h₃.nrecs k)

/-- A call of `api_span_end` in a reachable state, for the open recording span in slot `i`, which has
an entry on the active stack between `above` and `rest`.  There is a sink, no hook logs anything, and
the call returns. -/
structure EndCall (garbage : ℕ → OtelSlot) (s : St) (call : Call) (i : ℕ)
    (above rest : List StackEntry) (s' : St) : Prop where
  reachable : (producer garbage).Reachable s
  op : ∃ ref endTime, call.op = .spanEnd ref endTime ∧ ref.Issued ∧
    s.life.entryOf ref = some (.slot i)
  stack : ∃ x, s.spanStack = above ++ x :: rest ∧ x.entry = .slot i
  sink : call.env.sink = true
  logs : call.env.LogsNothing
  returns : runOp call.env call.op (s.enter call) = .ok () s'

/-- When such a call is not refused, the stack is what was below the span's entry; what was started
above it has ended, the recording spans among it exported as failed, each once and before the span
itself; spans activated above it are still open; and what is below it is as before, but for the id of
a non-recording span that a hook asked for. -/
theorem ended_anywhere {garbage : ℕ → OtelSlot} {s s' : St} {call : Call} {i : ℕ}
    {above rest : List StackEntry} (h : EndCall garbage s call i above rest s')
    (hcalm : s.life.refuses call.env = false) : EndedAt call.env DrawsId i above rest s s' := by
  obtain ⟨ref, endTime, hop, hissued, href⟩ := h.op
  obtain ⟨x, hstack, hx⟩ := h.stack
  have hvalid : call.op.Valid s := by
    rw [hop]
    exact hissued
  have hreturns := h.returns
  have hnext : (producer garbage).next s call = s' := endState_ok hreturns
  have honce : (s'.dispatches.map Dispatch.serial).Nodup := by
    have hledger := reachable_ledger (h.reachable.step call hvalid)
    rw [hnext] at hledger
    exact hledger.dispatched_nodup
  have hdelivers : Delivers call.env (s.enter call) s' :=
    (delivers_runOp call.env call.op (s.enter call)).result hreturns
  rw [hop] at hreturns
  have hpool : PoolInv s.life := reachable_poolInv h.reachable
  have hinv : PoolInv (s.enter call).life := hpool
  have hended := (wp_apiSpanEnd_at h.logs h.sink endTime hinv hcalm hissued href hstack hx).result
    hreturns hdelivers honce
  obtain ⟨ds, d, hexported, hknown, hfailed, hlast, hsink, hall⟩ := hended.exported
  exact { hended with
    exported := ⟨ds, d, hexported, hknown, hfailed, hlast, hsink, { hall with }⟩ }

/-- A span that is not recorded, and over it one that is. -/
def recordedOverUnsampled : List Call :=
  [{ env := {}, backend := {}, op := .spanStart (some
      { name := some (cstr "unsampled"), parent := .context,
        parentCtx := some { traceId := 1, spanId := 1 } }) },
    { env := {}, backend := {}, op := .spanStart (some
      { name := some (cstr "recorded"), parent := .root }) }]

def recordedOverUnsampledState : St :=
  recordedOverUnsampled.foldl (producer fun _ => {}).next (producer fun _ => {}).init

/-- The end of the recorded span, with a hook that asks for the active context. -/
def endAskingHook (critSectionCount : ℕ) : Call where
  env :=
    { critSectionCount := critSectionCount
      emitHook := some fun _ => { acts := [.contextOf otelSpanNone] } }
  backend := {}
  op := .spanEnd (makeRef 2 0 true) 0

theorem endCall_recordedOverUnsampled {n : ℕ}
    (h : value (runOp (endAskingHook n).env (endAskingHook n).op)
      (recordedOverUnsampledState.enter (endAskingHook n)) = some ()) :
    EndCall (fun _ => {}) recordedOverUnsampledState (endAskingHook n) 0 [] [⟨.nrec 0, false, 0⟩]
      ((producer fun _ => {}).next recordedOverUnsampledState (endAskingHook n)) where
  reachable := Machine.ReachBy.run .init ⟨trivial, trivial, trivial, trivial, trivial⟩
  op := ⟨makeRef 2 0 true, 0, rfl, by decide, by decide +kernel⟩
  stack := ⟨⟨.slot 0, false, 0⟩, by decide +kernel, rfl⟩
  sink := rfl
  logs := by
    rintro hook hhook n edata hmem
    obtain rfl := Option.some.inj hhook
    simp at hmem
  returns := ok_of_value h

theorem ended_anywhere_asked : EndedAt (endAskingHook 0).env DrawsId 0 [] [⟨.nrec 0, false, 0⟩]
    recordedOverUnsampledState
    ((producer fun _ => {}).next recordedOverUnsampledState (endAskingHook 0)) :=
  ended_anywhere (endCall_recordedOverUnsampled (by decide +kernel)) (by decide +kernel)

/-- What is below does change when the hook asks for an id, and nothing is ended by a call that is
refused. -/
theorem end_draws_or_refused :
    (¬ ∀ (s s' : St) (call : Call) (i : ℕ) (above rest : List StackEntry),
      EndCall (fun _ => {}) s call i above rest s' → s.life.refuses call.env = false →
      EndedAt call.env Eq i above rest s s') ∧
    ¬ ∀ (s s' : St) (call : Call) (i : ℕ) (above rest : List StackEntry),
      EndCall (fun _ => {}) s call i above rest s' → EndedAt call.env DrawsId i above rest s s' := by
  constructor
  · intro h
    have hended := h _ _ _ _ _ _ (endCall_recordedOverUnsampled (n := 0) (by decide +kernel))
      (by decide +kernel)
    exact absurd (hended.nrecs _ List.mem_cons_self 0 rfl) (by decide +kernel)
  · intro h
    have hended := h _ _ _ _ _ _ (endCall_recordedOverUnsampled (n := 1) (by decide +kernel))
    exact absurd hended.stack (by decide +kernel)

end PostgresOtel
