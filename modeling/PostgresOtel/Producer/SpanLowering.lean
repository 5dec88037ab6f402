import PostgresOtel.Producer.ErrorCapture

/-!
# What a span is exported with

The exact outcome of the part of `end_slot` that works on the data of the span: marking it as unwound,
lowering a captured error into an event and a description, and storing its arrays.
-/

set_option autoImplicit false

namespace PostgresOtel

open Exec

variable (env : Env) {i : ℕ}

/-! ## What a span contains -/

/-- The span has the same contents. -/
structure SameContents (slot slot' : OtelSlot) : Prop where
  life : slot'.toSlotLife = slot.toSlotLife
  span : slot'.span = slot.span
  attrs : slot'.attrs = slot.attrs
  events : slot'.events = slot.events
  links : slot'.links = slot.links
  err : slot'.err = slot.err

theorem SameContents.refl (slot : OtelSlot) : SameContents slot slot := ⟨rfl, rfl, rfl, rfl, rfl, rfl⟩

theorem SameContents.trans {slot slot' slot'' : OtelSlot} (h : SameContents slot slot')
    (h' : SameContents slot' slot'') : SameContents slot slot'' where
  life := h'.life.trans h.life
  span := h'.span.trans h.span
  attrs := h'.attrs.trans h.attrs
  events := h'.events.trans h.events
  links := h'.links.trans h.links
  err := h'.err.trans h.err

theorem SameContents.symm {slot slot' : OtelSlot} (h : SameContents slot slot') :
    SameContents slot' slot where
  life := h.life.symm
  span := h.span.symm
  attrs := h.attrs.symm
  events := h.events.symm
  links := h.links.symm
  err := h.err.symm

instance : Std.Refl SameContents := ⟨SameContents.refl⟩

instance : IsTrans OtelSlot SameContents := ⟨fun _ _ _ => SameContents.trans⟩

/-- Slot `i` keeps its contents, and every statistic stays. -/
structure KeepsContents (i : ℕ) (s s' : St) : Prop where
  slot : OnSlot i SameContents s s'
  counters : s'.counters = s.counters

instance : Std.Refl (KeepsContents i) := ⟨fun s => ⟨Std.Refl.refl s, rfl⟩⟩

instance : IsTrans St (KeepsContents i) := ⟨fun _ _ _ h h' =>
  ⟨IsTrans.trans _ _ _ h.slot h'.slot, h'.counters.trans h.counters⟩⟩

theorem keeps_asked (s : St) : KeepsContents i s s.asked := ⟨onSlot_asked s, rfl⟩

theorem keeps_refused (slot : OtelSlot) (size : ℕ) (s : St) :
    KeepsContents i s (env.refused slot size s) :=
  ⟨onSlot_refused env slot size s, counters_refused ..⟩

theorem keeps_setSlot {s : St} {slot : OtelSlot} (h : SameContents (s.slots i) slot) :
    KeepsContents i s (s.setSlot i slot) :=
  ⟨onSlot_set h, rfl⟩

theorem sameContents_request (slot : OtelSlot) (size charge : ℕ) :
    SameContents slot (slot.request size charge) := ⟨rfl, rfl, rfl, rfl, rfl, rfl⟩

theorem sameContents_setCap (slot : OtelSlot) (arr : SlotArray) (cap : ℕ) :
    SameContents slot (arr.setCap cap slot) := by
  cases arr <;> exact ⟨rfl, rfl, rfl, rfl, rfl, rfl⟩

theorem keeps_slotGrow (arr : SlotArray) (want : ℕ) :
    Within (KeepsContents i) (slotGrow env i arr want) := by
  intro s
  apply wp_slotGrow_cases
  · exact fun _ => Std.Refl.refl s
  · exact fun _ _ => keeps_refused env _ _ s
  · exact fun _ _ => ⟨onSlot_setSlot ((sameContents_request _ _ _).trans (sameContents_setCap _ _ _)), rfl⟩

/-! ## The exception event -/

/-- The event that a captured error becomes. -/
def Env.exceptionEvent (slot : OtelSlot) (tick : ℕ) (err : OtelSlotError) : OtelSpanEvent where
  name := cstr "exception"
  time := err.time
  attrs := if env.allocFails (env.tickAfterEvent slot tick) then [] else exceptionAttrs err

/-- The captured error has become an event, or has been counted as a dropped one. -/
structure AddsException (err : OtelSlotError) (tick : ℕ) (slot slot' : OtelSlot) : Prop where
  life : slot'.toSlotLife = slot.toSlotLife
  span : slot'.span =
    { slot.span with
      droppedEvents :=
        if env.AddsEvent slot tick then slot.span.droppedEvents else slot.span.droppedEvents + 1 }
  attrs : slot'.attrs = slot.attrs
  events : slot'.events =
    if env.AddsEvent slot tick then slot.events ++ [env.exceptionEvent slot tick err]
    else slot.events
  links : slot'.links = slot.links
  err : slot'.err = slot.err

theorem wp_addExceptionEvent_cases {err : OtelSlotError} {Q : Unit → St → Prop} {E : Exn → St → Prop}
    {s : St} (h : ∀ s', OnSlot i (AddsException env err s.tick) s s' → s'.counters = s.counters →
      s'.tick = env.tickAfterException (s.slots i) s.tick → Q () s') :
    Wp (addExceptionEvent env i err) Q E s := by
  have hgrow := (wp_slotGrow_event env True True s).and
    (keeps_slotGrow env (i := i) .events ((s.slots i).events.length + 1) s)
  unfold addExceptionEvent
  rw [wp_bind, wp_get, wp_bind]
  refine hgrow.mono (fun grown s₁ h₁ => ?_) fun _ _ h => h.1.elim
  obtain ⟨⟨-, hgrown, htick, -⟩, hkeeps⟩ := h₁
  -- the slot as it stands when the event is written
  have hdone {slot : OtelSlot} (s₂ : St) (h₂ : KeepsContents i s₁ s₂)
      (hslot : AddsException env err s.tick (s.slots i) slot)
      (htick₂ : s₂.tick = env.tickAfterException (s.slots i) s.tick) : Q () (s₂.setSlot i slot) := by
    have hto : KeepsContents i s s₂ := IsTrans.trans _ _ _ hkeeps h₂
    apply h
    · refine ⟨?_, fun j hj => ?_, hto.slot.nrecs, hto.slot.dispatches⟩
      · rw [slots_setSlot]
        exact hslot
      · rw [slots_setSlot_of_ne _ _ hj]
        exact hto.slot.others j hj
    · exact hto.counters
    · exact htick₂
  have hcontents (s₂ : St) (h₂ : KeepsContents i s₁ s₂) : SameContents (s.slots i) (s₂.slots i) :=
    hkeeps.slot.slot.trans h₂.slot.slot
  rw [wp_ite, hgrown]
  constructor
  · intro hadds
    have hafter : env.tickAfterException (s.slots i) s.tick = s₁.tick + 1 := by
      rw [Env.tickAfterException, if_pos hadds, htick]
    have hevent (s₂ : St) (h₂ : KeepsContents i s₁ s₂) (htick₂ : s₂.tick = s₁.tick + 1) (ok : Bool)
        (hok : ok = !env.allocFails s₁.tick) :
        Wp (modifySlot i fun slot =>
          { slot with
            events := slot.events ++
              [{ name := cstr "exception", time := err.time,
                 attrs := if ok then exceptionAttrs err else [] }] }) Q E s₂ := by
      have hsame := hcontents s₂ h₂
      rw [wp_modifySlot_setSlot]
      refine hdone s₂ h₂ ?_ (by rw [htick₂, hafter])
      constructor
      case span => simp [hsame.span, hadds]
      case events =>
        rw [htick] at hok
        cases hfails : env.allocFails (env.tickAfterEvent (s.slots i) s.tick) <;>
          simp [hsame.events, hadds, Env.exceptionEvent, hok, hfails]
      case life => exact hsame.life
      case attrs => exact hsame.attrs
      case links => exact hsame.links
      case err => exact hsame.err
    rw [wp_bind]
    apply wp_allocNoOom
    · intro hok
      rw [wp_bind, wp_runIf]
      refine ⟨fun _ => ?_, fun hno => absurd rfl hno⟩
      rw [wp_modifySlot_setSlot]
      refine hevent _ ?_ rfl true (by rw [hok]; rfl)
      exact IsTrans.trans _ _ _ (keeps_asked s₁) (keeps_setSlot (sameContents_request _ _ _))
    · intro hfails
      rw [wp_bind, wp_runIf]
      refine ⟨fun hyes => absurd hyes (by simp), fun _ => ?_⟩
      exact hevent _ (keeps_asked s₁) rfl false (by rw [hfails]; rfl)
  · intro hnot
    have hsame := hcontents s₁ (Std.Refl.refl s₁)
    rw [wp_modifySlot_setSlot]
    refine hdone s₁ (Std.Refl.refl s₁) ?_ (by rw [htick, Env.tickAfterException, if_neg hnot])
    constructor
    case span => simp [hsame.span, hnot]
    case events => simp [hsame.events, hnot]
    case life => exact hsame.life
    case attrs => exact hsame.attrs
    case links => exact hsame.links
    case err => exact hsame.err

/-! ## Lowering -/

/-- A captured error has been lowered into an event and, where there was none, a description. -/
structure Lowers (err : OtelSlotError) (tick : ℕ) (slot slot' : OtelSlot) : Prop where
  life : slot'.toSlotLife = slot.toSlotLife
  span : slot'.span =
    { slot.span with
      droppedEvents :=
        if env.AddsEvent slot tick then slot.span.droppedEvents else slot.span.droppedEvents + 1
      statusDescription :=
        if slot.span.status = .error ∧ slot.span.statusDescription = none then
          env.describes (env.tickAfterException slot tick) err.sqlstate err.message
        else slot.span.statusDescription }
  attrs : slot'.attrs = slot.attrs
  events : slot'.events =
    if env.AddsEvent slot tick then slot.events ++ [env.exceptionEvent slot tick err]
    else slot.events
  links : slot'.links = slot.links
  err : slot'.err = slot.err

theorem keepsCounters_describeError (sqlstate : CString) (message : Option CString) :
    Within (fun s s' : St => s'.counters = s.counters) (describeError env i sqlstate message) := by
  have hrefl : Std.Refl (fun s s' : St => s'.counters = s.counters) := ⟨fun _ => rfl⟩
  have htrans : IsTrans St (fun s s' : St => s'.counters = s.counters) :=
    ⟨fun _ _ _ h h' => h'.trans h⟩
  unfold describeError errorDescription allocNoOom ask
  refine .bind (.bind (.bind within_get fun _ => .bind (within_modify fun _ => rfl) fun _ =>
    within_pure _) fun ok => .ite (.bind (within_modify fun _ => rfl) fun _ => ?_) (within_pure _))
    fun _ => within_modify fun _ => rfl
  cases message <;> exact within_pure _

theorem wp_lowerErrorEvent_cases {err : OtelSlotError} {Q : Unit → St → Prop} {E : Exn → St → Prop}
    {s : St} (h : ∀ s', OnSlot i (Lowers env err s.tick) s s' → s'.counters = s.counters → Q () s') :
    Wp (lowerErrorEvent env i err) Q E s := by
  unfold lowerErrorEvent
  rw [wp_bind]
  apply wp_addExceptionEvent_cases
  intro s₁ h₁ hcounters₁ htick₁
  have hslot₁ := h₁.slot
  have hstatus : (s₁.slots i).span.status = (s.slots i).span.status := by rw [hslot₁.span]
  have hdescription : (s₁.slots i).span.statusDescription = (s.slots i).span.statusDescription := by
    rw [hslot₁.span]
  rw [wp_bind, wp_get, wp_runIf, hstatus, hdescription]
  constructor
  · intro hdescribe
    have hdescribes := (wp_describeError_cases env (i := i) (Q := fun _ s' =>
        OnSlot i (DescribedAs (env.describes s₁.tick err.sqlstate err.message)) s₁ s')
        (E := fun _ _ => False) fun _ h => h).and
      (keepsCounters_describeError env err.sqlstate err.message s₁)
    refine hdescribes.mono (fun _ s₂ h₂ => ?_) fun _ _ h => h.1.elim
    have hslot₂ := h₂.1.slot
    apply h
    · refine ⟨?_, fun j hj => (h₂.1.others j hj).trans (h₁.others j hj), h₂.1.nrecs.trans h₁.nrecs,
        h₂.1.dispatches.trans h₁.dispatches⟩
      constructor
      case span => rw [hslot₂.span, hslot₁.span, htick₁, if_pos hdescribe]
      case life => exact hslot₂.life.trans hslot₁.life
      case attrs => exact hslot₂.attrs.trans hslot₁.attrs
      case events => exact hslot₂.events.trans hslot₁.events
      case links => exact hslot₂.links.trans hslot₁.links
      case err => exact hslot₂.err.trans hslot₁.err
    · exact h₂.2.trans hcounters₁
  · intro hkeep
    apply h
    · refine ⟨?_, h₁.others, h₁.nrecs, h₁.dispatches⟩
      constructor
      case span => rw [hslot₁.span, if_neg hkeep]
      case life => exact hslot₁.life
      case attrs => exact hslot₁.attrs
      case events => exact hslot₁.events
      case links => exact hslot₁.links
      case err => exact hslot₁.err
    · exact hcounters₁

/-! ## Finishing -/

/-- The slot of a span that is about to be finished. -/
def OtelSlot.closing (slot : OtelSlot) (unwinding : Bool) (reason : Option CString) : OtelSlot :=
  if unwinding then slot.unwound reason else slot

section Closing

variable {slot : OtelSlot} {unwinding : Bool} {reason : Option CString}

@[simp] theorem life_closing : (slot.closing unwinding reason).toSlotLife = slot.toSlotLife := by
  cases unwinding <;> rfl

@[simp] theorem err_closing : (slot.closing unwinding reason).err = slot.err := by
  cases unwinding <;> rfl

@[simp] theorem events_closing : (slot.closing unwinding reason).events = slot.events := by
  cases unwinding <;> rfl

@[simp] theorem links_closing : (slot.closing unwinding reason).links = slot.links := by
  cases unwinding <;> rfl

@[simp] theorem droppedAttrs_closing :
    (slot.closing unwinding reason).span.droppedAttrs = slot.span.droppedAttrs := by
  cases unwinding <;> rfl

@[simp] theorem droppedEvents_closing :
    (slot.closing unwinding reason).span.droppedEvents = slot.span.droppedEvents := by
  cases unwinding <;> rfl

@[simp] theorem droppedLinks_closing :
    (slot.closing unwinding reason).span.droppedLinks = slot.span.droppedLinks := by
  cases unwinding <;> rfl

end Closing

/-- The event of the captured error does not get its place. -/
def Env.DropsException (slot : OtelSlot) (tick : ℕ) : Prop :=
  slot.err.isSome = true ∧ ¬ env.AddsEvent slot tick

instance (slot : OtelSlot) (tick : ℕ) : Decidable (env.DropsException slot tick) :=
  inferInstanceAs (Decidable (_ ∧ _))

/-- The events that a captured error adds. -/
def Env.exceptionEvents (slot : OtelSlot) (tick : ℕ) : List OtelSpanEvent :=
  match slot.err with
  | none => []
  | some err => if env.AddsEvent slot tick then [env.exceptionEvent slot tick err] else []

/-- The event of a captured error is carried or dropped. -/
theorem length_exceptionEvents (slot : OtelSlot) (tick : ℕ) :
    (env.exceptionEvents slot tick).length + (if env.DropsException slot tick then 1 else 0) =
      slot.err.isSome.toNat := by
  cases herr : slot.err with
  | none => simp [Env.exceptionEvents, Env.DropsException, herr]
  | some err =>
    by_cases hadds : env.AddsEvent slot tick <;>
      simp [Env.exceptionEvents, Env.DropsException, herr, hadds]

/-- The description that the span is exported with. -/
def Env.endDescription (slot : OtelSlot) (tick : ℕ) : Option CString :=
  match slot.err with
  | none => slot.span.statusDescription
  | some err =>
    if slot.span.status = .error ∧ slot.span.statusDescription = none then
      env.describes (env.tickAfterException slot tick) err.sqlstate err.message
    else slot.span.statusDescription

/-- The span is as it is exported. -/
structure Finishes (tick : ℕ) (slot slot' : OtelSlot) : Prop where
  life : slot'.toSlotLife = slot.toSlotLife
  events : slot'.events = slot.events ++ env.exceptionEvents slot tick
  span : ∃ time, slot'.span =
    { slot.span with
      endTime := time
      attrs := slot.attrs
      events := slot'.events
      links := slot.links
      droppedEvents :=
        if env.DropsException slot tick then slot.span.droppedEvents + 1 else slot.span.droppedEvents
      statusDescription := env.endDescription slot tick }
  attrs : slot'.attrs = slot.attrs
  links : slot'.links = slot.links
  err : slot'.err = slot.err

/-- What a captured error becomes, without the arrays. -/
theorem wp_lowerCapturedError_cases {Q : Unit → St → Prop} {E : Exn → St → Prop} {s : St}
    (hnone : (s.slots i).err = none → Q () s)
    (hsome : ∀ err, (s.slots i).err = some err → ∀ s', OnSlot i (Lowers env err s.tick) s s' →
      s'.counters = s.counters → Q () s') : Wp (lowerCapturedError env i) Q E s := by
  unfold lowerCapturedError
  rw [wp_bind, wp_get]
  cases herr : (s.slots i).err with
  | none => exact hnone herr
  | some err => exact wp_lowerErrorEvent_cases env (hsome err herr)

theorem wp_finishSpan_cases {endTime : TimestampTz} {Q : Unit → St → Prop} {E : Exn → St → Prop}
    {s : St} (h : ∀ s', OnSlot i (Finishes env (tickAfterTime endTime s.tick)) s s' →
      s'.counters = s.counters → Q () s') : Wp (finishSpan env i endTime) Q E s := by
  obtain ⟨slot, hslot⟩ : ∃ slot, slot = s.slots i := ⟨_, rfl⟩
  have hrest (s₁ : St) (h₁ : KeepsContents i s s₁) (hsame : s₁.slots i = slot)
      (htick : s₁.tick = tickAfterTime endTime s.tick) (time : TimestampTz) : Wp (do
        modifySlot i fun slot => { slot with span := { slot.span with endTime := time } }
        lowerCapturedError env i
        modifySlot i fun slot =>
          { slot with
            span :=
              { slot.span with attrs := slot.attrs, events := slot.events, links := slot.links } })
      Q E s₁ := by
    rw [wp_bind, wp_modifySlot_setSlot, wp_bind, hsame]
    have hset (s₂ : St) (hothers : ∀ j, j ≠ i → s₂.slots j = s₁.slots j) (hnrecs : s₂.nrecs = s₁.nrecs)
        (hdispatches : s₂.dispatches = s₁.dispatches) (hcounters : s₂.counters = s₁.counters)
        (hfinishes : Finishes env (tickAfterTime endTime s.tick) slot
          { s₂.slots i with
            span :=
              { (s₂.slots i).span with
                attrs := (s₂.slots i).attrs
                events := (s₂.slots i).events
                links := (s₂.slots i).links } }) :
        Wp (modifySlot i fun slot =>
          { slot with
            span :=
              { slot.span with attrs := slot.attrs, events := slot.events, links := slot.links } })
          Q E s₂ := by
      rw [wp_modifySlot_setSlot]
      apply h
      · refine ⟨?_, fun j hj => ?_, hnrecs.trans h₁.slot.nrecs, hdispatches.trans h₁.slot.dispatches⟩
        · rw [slots_setSlot, ← hslot]
          exact hfinishes
        · rw [slots_setSlot_of_ne _ _ hj, hothers j hj]
          exact h₁.slot.others j hj
      · exact hcounters.trans h₁.counters
    apply wp_lowerCapturedError_cases
    · intro hnone
      rw [slots_setSlot] at hnone
      have hnone : slot.err = none := hnone
      apply hset
      · exact fun j hj => slots_setSlot_of_ne _ _ hj
      · rfl
      · rfl
      · rfl
      · rw [slots_setSlot]
        constructor
        case span => exact ⟨time, by simp [Env.DropsException, Env.endDescription, hnone]⟩
        case events => simp [Env.exceptionEvents, hnone]
        all_goals rfl
    · intro err hsome s₂ h₂ hcounters
      have hlowers := h₂.slot
      rw [slots_setSlot] at hsome hlowers
      have hsome : slot.err = some err := hsome
      apply hset
      · exact fun j hj => (h₂.others j hj).trans (slots_setSlot_of_ne _ _ hj)
      · exact h₂.nrecs
      · exact h₂.dispatches
      · exact hcounters
      · rw [tick_setSlot, htick] at hlowers
        have hspan : (s₂.slots i).span =
            { slot.span with
              endTime := time
              droppedEvents :=
                if env.AddsEvent slot (tickAfterTime endTime s.tick) then slot.span.droppedEvents
                else slot.span.droppedEvents + 1
              statusDescription :=
                if slot.span.status = .error ∧ slot.span.statusDescription = none then
                  env.describes (env.tickAfterException slot (tickAfterTime endTime s.tick))
                    err.sqlstate err.message
                else slot.span.statusDescription } := hlowers.span
        have hevents : (s₂.slots i).events =
            if env.AddsEvent slot (tickAfterTime endTime s.tick) then
              slot.events ++ [env.exceptionEvent slot (tickAfterTime endTime s.tick) err]
            else slot.events := hlowers.events
        constructor
        case span =>
          refine ⟨time, ?_⟩
          rw [hspan, hlowers.attrs, hlowers.links]
          by_cases hadds : env.AddsEvent slot (tickAfterTime endTime s.tick) <;>
            simp [Env.DropsException, Env.endDescription, hsome, hadds]
        case events =>
          show (s₂.slots i).events = _
          rw [hevents, Env.exceptionEvents, hsome]
          dsimp only
          split_ifs
          · rfl
          · rw [List.append_nil]
        case life => exact hlowers.life
        case attrs => exact hlowers.attrs
        case links => exact hlowers.links
        case err => exact hlowers.err
  unfold finishSpan timeOrNow getCurrentTimestamp
  rw [wp_bind, wp_ite]
  constructor
  · intro hzero
    refine hrest s.asked (keeps_asked s) hslot.symm ?_ _
    rw [tickAfterTime, if_pos hzero]
    rfl
  · intro hset
    refine hrest s (Std.Refl.refl s) hslot.symm ?_ _
    rw [tickAfterTime, if_neg hset]

theorem wp_finishSlot_cases {endTime : TimestampTz} {unwinding : Bool} {reason : Option CString}
    {Q : Unit → St → Prop} {E : Exn → St → Prop} {s : St}
    (h : ∀ s', OnSlot i (fun slot slot' => Finishes env (tickAfterTime endTime s.tick)
        (slot.closing unwinding reason) slot') s s' →
      s'.counters = { s.counters with unwound := s.counters.unwound + unwinding.toNat } → Q () s') :
    Wp (finishSlot env i endTime unwinding reason) Q E s := by
  unfold finishSlot
  rw [wp_bind, wp_runIf]
  constructor
  · rintro rfl
    unfold markUnwound modifyCounters
    rw [wp_bind, wp_modifySlot_setSlot, wp_modify]
    apply wp_finishSpan_cases
    intro s' h' hcounters
    have hslot : Finishes env (tickAfterTime endTime s.tick)
        ((s.setSlot i ((s.slots i).unwound reason)).slots i) (s'.slots i) := h'.slot
    rw [slots_setSlot] at hslot
    apply h
    · exact ⟨hslot, fun j hj => (h'.others j hj).trans (slots_setSlot_of_ne _ _ hj), h'.nrecs,
        h'.dispatches⟩
    · exact hcounters
  · intro hno
    obtain rfl : unwinding = false := by simpa using hno
    apply wp_finishSpan_cases
    intro s' h' hcounters
    exact h s' h' hcounters

end PostgresOtel
