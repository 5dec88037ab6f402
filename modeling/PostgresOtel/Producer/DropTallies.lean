import Mathlib.Algebra.Group.Prod
import Mathlib.Tactic.Abel
import PostgresOtel.Producer.CapturedErrors
import PostgresOtel.Producer.SpanAttrs

/-!
# What an operation adds to the tallies of a span

The events and links of a span are counted with those that were dropped, so that each one asked for is
in the tally whichever way it went.  A drop is counted twice, on the span and in the statistics; the
operations on an open span keep the two counts together.
-/

set_option autoImplicit false

namespace PostgresOtel

open Exec

/-! ## Tallies -/

/-- The events of a span with the dropped ones. -/
def OtelSpan.eventTally (span : OtelSpan) : ℕ := span.events.length + span.droppedEvents

/-- The links of a span with the dropped ones. -/
def OtelSpan.linkTally (span : OtelSpan) : ℕ := span.links.length + span.droppedLinks

/-- The events that a slot has for its span, with the dropped ones. -/
def OtelSlot.eventTally (slot : OtelSlot) : ℕ := slot.events.length + slot.span.droppedEvents

def OtelSlot.linkTally (slot : OtelSlot) : ℕ := slot.links.length + slot.span.droppedLinks

/-- The slot holds the same span as before. -/
def SameLife (slot slot' : OtelSlot) : Prop := slot'.toSlotLife = slot.toSlotLife

instance : Std.Refl SameLife := ⟨fun _ => rfl⟩

instance : IsTrans OtelSlot SameLife := ⟨fun _ _ _ h h' => h'.trans h⟩

/-- This many events and links have come to the span in slot `i`, and what was dropped is counted on the
span as in the statistics. -/
structure Tallies (i events links : ℕ) (s s' : St) : Prop where
  slot : OnSlot i SameLife s s'
  events : (s'.slots i).eventTally = (s.slots i).eventTally + events
  links : (s'.slots i).linkTally = (s.slots i).linkTally + links
  balance : (s'.slots i).span.drops + s.counters.drops = (s.slots i).span.drops + s'.counters.drops
  started : s'.counters.spansStarted = s.counters.spansStarted
  used : s'.slotsUsed = s.slotsUsed

section Tallies

variable {i : ℕ} {events links : ℕ} {s s' s'' : St}

instance : Std.Refl (Tallies i 0 0) := ⟨fun s => ⟨Std.Refl.refl s, rfl, rfl, rfl, rfl, rfl⟩⟩

theorem Tallies.trans (h : Tallies i 0 0 s s') (h' : Tallies i events links s' s'') :
    Tallies i events links s s'' where
  slot := IsTrans.trans _ _ _ h.slot h'.slot
  events := by rw [h'.events, h.events, Nat.add_zero]
  links := by rw [h'.links, h.links, Nat.add_zero]
  balance := by
    have hsum := congrArg₂ (· + ·) h.balance h'.balance
    apply add_right_cancel (b := (s'.slots i).span.drops + s'.counters.drops)
    calc (s''.slots i).span.drops + s.counters.drops +
          ((s'.slots i).span.drops + s'.counters.drops)
        = ((s'.slots i).span.drops + s.counters.drops) +
          ((s''.slots i).span.drops + s'.counters.drops) := by abel
      _ = ((s.slots i).span.drops + s'.counters.drops) +
          ((s'.slots i).span.drops + s''.counters.drops) := hsum
      _ = (s.slots i).span.drops + s''.counters.drops +
          ((s'.slots i).span.drops + s'.counters.drops) := by abel
  started := h'.started.trans h.started
  used := h'.used.trans h.used

instance : IsTrans St (Tallies i 0 0) := ⟨fun _ _ _ h h' => h.trans h'⟩

/-- The slot changes in data that is in no tally. -/
theorem Tallies.of_slot (h : OnSlot i SameLife s s')
    (hevents : (s'.slots i).eventTally = (s.slots i).eventTally + events)
    (hlinks : (s'.slots i).linkTally = (s.slots i).linkTally + links)
    (hdrops : (s'.slots i).span.drops = (s.slots i).span.drops) (hcounters : s'.counters = s.counters)
    (hused : s'.slotsUsed = s.slotsUsed) : Tallies i events links s s' where
  slot := h
  events := hevents
  links := hlinks
  balance := by rw [hdrops, hcounters]
  started := by rw [hcounters]
  used := hused

end Tallies

/-! ## Elementary steps -/

section Elementary

variable {i : ℕ} {events links : ℕ}

/-- A change of the slot that keeps the counts of what was dropped. -/
theorem tallies_modifySlot {f : OtelSlot → OtelSlot} (hlife : ∀ slot, SameLife slot (f slot))
    (hevents : ∀ slot, (f slot).eventTally = slot.eventTally + events)
    (hlinks : ∀ slot, (f slot).linkTally = slot.linkTally + links)
    (hdrops : ∀ slot, (f slot).span.drops = slot.span.drops) :
    Within (Tallies i events links) (modifySlot i f) := by
  intro s
  rw [wp_modifySlot_setSlot]
  apply Tallies.of_slot
  · exact onSlot_set (hlife _)
  · rw [slots_setSlot]
    exact hevents _
  · rw [slots_setSlot]
    exact hlinks _
  · rw [slots_setSlot]
    exact hdrops _
  · exact counters_setSlot ..
  · rfl

/-- A drop that is counted on the span and in the statistics. -/
theorem tallies_drop {f : OtelSlot → OtelSlot} {g : OtelApiCounters → OtelApiCounters}
    (n : ℕ × ℕ × ℕ) (hlife : ∀ slot, SameLife slot (f slot))
    (hevents : ∀ slot, (f slot).eventTally = slot.eventTally + events)
    (hlinks : ∀ slot, (f slot).linkTally = slot.linkTally + links)
    (hdrops : ∀ slot, (f slot).span.drops = slot.span.drops + n)
    (hcounted : ∀ c, (g c).drops = c.drops + n) (hstarted : ∀ c, (g c).spansStarted = c.spansStarted) :
    Within (Tallies i events links) (do
      modifySlot i f
      modifyCounters g) := by
  intro s
  unfold modifyCounters
  rw [wp_bind, wp_modifySlot_setSlot, wp_modify]
  have hslot : (s.setSlot i (f (s.slots i))).slots i = f (s.slots i) := slots_setSlot ..
  have hset : OnSlot i SameLife s (s.setSlot i (f (s.slots i))) := onSlot_set (hlife _)
  constructor
  case slot => exact ⟨hset.slot, hset.others, hset.nrecs, hset.dispatches⟩
  case events =>
    dsimp only
    rw [hslot, hevents]
  case links =>
    dsimp only
    rw [hslot, hlinks]
  case balance =>
    dsimp only
    rw [hslot, hdrops, hcounted, counters_setSlot]
    abel
  case started => exact hstarted _
  case used => rfl

theorem tallies_modifyCounters {f : OtelApiCounters → OtelApiCounters}
    (hdrops : ∀ c, (f c).drops = c.drops) (hstarted : ∀ c, (f c).spansStarted = c.spansStarted) :
    Within (Tallies i 0 0) (modifyCounters f) := by
  refine within_modify fun s => ?_
  constructor
  case slot => exact ⟨rfl, fun _ _ => rfl, rfl, rfl⟩
  case events => rfl
  case links => rfl
  case balance => rw [hdrops]
  case started => exact hstarted _
  case used => rfl

theorem tallies_ask {α : Type} (answer : ℕ → α) : Within (Tallies i 0 0) (ask answer) :=
  fun _ => ⟨⟨rfl, fun _ _ => rfl, rfl, rfl⟩, rfl, rfl, rfl, rfl, rfl⟩

theorem tallies_runIf {c : Prop} [Decidable c] {x : M Unit} (h : Within (Tallies i 0 0) x) :
    Within (Tallies i 0 0) (runIf c x) := .ite h (within_pure _)

/-- A change of the slot in data that is in no tally. -/
theorem tallies_data {f : OtelSlot → OtelSlot}
    (h : ∀ slot, SameLife slot (f slot) ∧ (f slot).events = slot.events ∧
      (f slot).links = slot.links ∧ (f slot).span.drops = slot.span.drops) :
    Within (Tallies i 0 0) (modifySlot i f) := by
  have hdropped (slot : OtelSlot) : (f slot).span.droppedEvents = slot.span.droppedEvents ∧
      (f slot).span.droppedLinks = slot.span.droppedLinks := by
    have hdrops := (h slot).2.2.2
    simp only [OtelSpan.drops, Prod.mk.injEq] at hdrops
    exact ⟨hdrops.2.1, hdrops.2.2⟩
  apply tallies_modifySlot
  · exact fun slot => (h slot).1
  · intro slot
    simp [OtelSlot.eventTally, (h slot).2.1, hdropped slot]
  · intro slot
    simp [OtelSlot.linkTally, (h slot).2.2.1, hdropped slot]
  · exact fun slot => (h slot).2.2.2

end Elementary

/-! ## Functions on the data of a span -/

section Functions

variable (env : Env) {i : ℕ}

theorem tallies_request (size charge : ℕ) :
    Within (Tallies i 0 0) (modifySlot i (OtelSlot.request size charge)) :=
  tallies_data fun _ => ⟨rfl, rfl, rfl, rfl⟩

theorem tallies_slotStrdup (str : CString) (maxlen : Option ℕ) :
    Within (Tallies i 0 0) (slotStrdup env i str maxlen) := by
  unfold slotStrdup allocNoOom
  refine .bind within_get fun s => .ite (within_pure _) (.bind (tallies_ask _) fun _ => ?_)
  exact .ite (.bind (tallies_request _ _) fun _ => within_pure _) (within_pure _)

theorem tallies_copyField (field : Option CString) (maxlen : Option ℕ) :
    Within (Tallies i 0 0) (copyField env i field maxlen) := by
  unfold copyField
  cases field with
  | none => exact within_pure _
  | some str => exact .bind (tallies_slotStrdup env str maxlen) fun _ => within_pure _

theorem tallies_slotGrow (arr : SlotArray) (want : ℕ) :
    Within (Tallies i 0 0) (slotGrow env i arr want) := by
  intro s
  refine ((keeps_slotGrow env arr want s).and (tame_slotGrow env i arr want s)).mono
    (fun _ s' h => ?_) fun _ _ h => h.2.elim
  obtain ⟨hkeeps, hshape⟩ := h
  have hslot := hkeeps.slot.slot
  apply Tallies.of_slot
  · exact hkeeps.slot.mono fun _ _ h => h.life
  · simp [OtelSlot.eventTally, hslot.events, hslot.span]
  · simp [OtelSlot.linkTally, hslot.links, hslot.span]
  · rw [hslot.span]
  · exact hkeeps.counters
  · exact congrArg (fun p : Shape => p.core.1.slots.used) hshape

theorem tallies_copyIfGrown (grown : Bool) (str : CString) (maxlen : Option ℕ) :
    Within (Tallies i 0 0) (copyIfGrown env grown i str maxlen) :=
  .ite (tallies_copyField env _ _) (within_pure _)

theorem tallies_dropAttr : Within (Tallies i 0 0) (dropAttr i) := by
  apply tallies_drop (1, 0, 0) <;> intro _ <;> rfl

theorem tallies_dropEvent : Within (Tallies i 1 0) (dropEvent i) := by
  apply tallies_drop (0, 1, 0) <;> intro _ <;> rfl

theorem tallies_slotAttr (key : CString) : Within (Tallies i 0 0) (slotAttr env i key) := by
  unfold slotAttr
  refine .bind within_get fun s => ?_
  cases (s.slots i).attrs.findIdx? (fun a => a.key = key) with
  | some k => exact within_pure _
  | none =>
    refine .bind (tallies_slotGrow env _ _) fun grown => ?_
    refine .bind (tallies_copyIfGrown env grown _ _) fun copy => ?_
    cases copy with
    | none => exact .bind tallies_dropAttr fun _ => within_pure _
    | some k => exact .bind (tallies_data fun _ => ⟨rfl, rfl, rfl, rfl⟩) fun _ => within_pure _

theorem tallies_setAttrValue (k : ℕ) (v : OtelAttrValue) :
    Within (Tallies i 0 0) (setAttrValue i k v) :=
  tallies_data fun _ => ⟨rfl, rfl, rfl, rfl⟩

theorem tallies_countTruncated : Within (Tallies i 0 0) countTruncated :=
  tallies_modifyCounters (fun _ => rfl) fun _ => rfl

theorem tallies_setValue (key : CString) (v : OtelAttrValue) :
    Within (Tallies i 0 0) (setValue env i key v) := by
  unfold setValue
  refine .bind (tallies_slotAttr env key) fun a => ?_
  cases a with
  | none => exact within_pure _
  | some k => exact tallies_setAttrValue k v

theorem tallies_setStrInternal (key : CString) (val : Option CString) :
    Within (Tallies i 0 0) (setStrInternal env i key val) := by
  unfold setStrInternal
  cases val with
  | none => exact within_pure _
  | some val =>
    refine .bind (tallies_slotAttr env key) fun a => ?_
    cases a with
    | none => exact within_pure _
    | some k =>
      refine .bind (tallies_slotStrdup env _ _) fun copy => ?_
      cases copy.1 with
      | none => exact .bind (tallies_data fun _ => ⟨rfl, rfl, rfl, rfl⟩) fun _ => tallies_dropAttr
      | some str => exact .bind (tallies_runIf tallies_countTruncated) fun _ => tallies_setAttrValue k _

theorem tallies_setFormatted (key formatted : CString) :
    Within (Tallies i 0 0) (setFormatted env i key formatted) := by
  unfold setFormatted allocBigBuffer allocNoOom
  refine .bind (.ite (tallies_ask _) (within_pure _)) fun big => .ite ?_ ?_
  · refine .bind (tallies_request _ _) fun _ => .bind (tallies_setStrInternal env _ _) fun _ => ?_
    exact tallies_data fun _ => ⟨rfl, rfl, rfl, rfl⟩
  · exact .bind (tallies_runIf tallies_countTruncated) fun _ => tallies_setStrInternal env _ _

theorem tallies_setName (name : Option CString) : Within (Tallies i 0 0) (setName env i name) := by
  unfold setName
  refine .bind (tallies_copyField env _ _) fun copy => ?_
  cases copy with
  | none => exact within_pure _
  | some copy => exact tallies_data fun _ => ⟨rfl, rfl, rfl, rfl⟩

theorem tallies_setStatus (code : OtelSpanStatus) (description : Option CString) :
    Within (Tallies i 0 0) (setStatus env i code description) :=
  .bind (tallies_data fun _ => ⟨rfl, rfl, rfl, rfl⟩) fun _ =>
    .bind (tallies_copyField env _ _) fun _ => tallies_data fun _ => ⟨rfl, rfl, rfl, rfl⟩

theorem tallies_copyEventAttrs (attrs : List AttrArg) :
    Within (Tallies i 0 0) (copyEventAttrs env i attrs) := by
  induction attrs with
  | nil => exact within_pure _
  | cons a rest ih =>
    unfold copyEventAttrs copyEventValue
    refine .bind (tallies_copyField env _ _) fun key => .bind ?_ fun v => ?_
    · split
      · exact .bind (tallies_slotStrdup env _ _) fun _ => within_pure _
      · exact within_pure _
    · split
      · exact .bind ih fun _ => within_pure _
      · exact within_pure _

theorem tallies_copyEventArray (attrs : List AttrArg) :
    Within (Tallies i 0 0) (copyEventArray env i attrs) := by
  unfold copyEventArray allocNoOom
  refine .ite (within_pure _) (.bind within_get fun s => .ite (within_pure _) ?_)
  refine .bind (tallies_ask _) fun _ => .ite ?_ (within_pure _)
  exact .bind (tallies_request _ _) fun _ => tallies_copyEventAttrs env attrs

/-- The next step changes no tally and does not raise. -/
theorem wp_tallies_bind {α β : Type} {x : M α} {f : α → M β} {events links : ℕ} {s s₁ : St}
    (h : Tallies i 0 0 s s₁) (hx : Within (Tallies i 0 0) x) (htame : Tame x)
    (hf : ∀ a s₂, Tallies i 0 0 s s₂ → Wp (f a) (fun _ s' => Tallies i events links s s')
      (fun _ s' => Tallies i events links s s') s₂) :
    Wp (x >>= f) (fun _ s' => Tallies i events links s s')
      (fun _ s' => Tallies i events links s s') s₁ := by
  rw [wp_bind]
  exact ((hx s₁).and (htame s₁)).mono (fun a s₂ h₂ => hf a s₂ (h.trans h₂.1)) fun _ _ h => h.2.elim

/-- The last step, which is what comes to the span. -/
theorem wp_tallies_last {x : M Unit} {events links : ℕ} {s s₁ : St} (h : Tallies i 0 0 s s₁)
    (hx : Within (Tallies i events links) x) :
    Wp x (fun _ s' => Tallies i events links s s') (fun _ s' => Tallies i events links s s') s₁ :=
  (hx s₁).mono (fun _ _ h' => h.trans h') fun _ _ h' => h.trans h'

/-- An event that is added is one more in the tally, whether there is room for it or not. -/
theorem tallies_addEvent (name : CString) (ts : TimestampTz) (attrs : List AttrArg) :
    Within (Tallies i 1 0) (addEvent env i name ts attrs) := by
  intro s
  unfold addEvent
  rw [wp_bind, wp_get]
  apply wp_tallies_bind (Std.Refl.refl s) (tallies_slotGrow env _ _) (tame_slotGrow env i _ _)
  intro grown s₁ h₁
  apply wp_tallies_bind h₁ (tallies_copyIfGrown env grown _ _) (tame_copyIfGrown env grown i _ _)
  intro ename s₂ h₂
  cases ename with
  | none => exact wp_tallies_last h₂ tallies_dropEvent
  | some ename =>
    apply wp_tallies_bind h₂ (tallies_copyEventArray env attrs) (tame_copyEventArray env i attrs)
    intro copied s₃ h₃
    cases copied with
    | none => exact wp_tallies_last h₃ tallies_dropEvent
    | some copied =>
      have htime : Within (Tallies i 0 0) (timeOrNow env ts) := .ite (tallies_ask _) (within_pure _)
      apply wp_tallies_bind h₃ htime (tame_timeOrNow env ts)
      intro time s₄ h₄
      apply wp_tallies_last h₄
      apply tallies_modifySlot
      · exact fun _ => rfl
      · intro slot
        simp [OtelSlot.eventTally]
        omega
      · exact fun _ => rfl
      · exact fun _ => rfl

/-- The same for a link. -/
theorem tallies_addLink (target : OtelSpanContext) :
    Within (Tallies i 0 1) (addLink env i target) := by
  intro s
  unfold addLink
  rw [wp_bind, wp_get]
  apply wp_tallies_bind (Std.Refl.refl s) (tallies_slotGrow env _ _) (tame_slotGrow env i _ _)
  intro grown s₁ h₁
  rw [wp_ite]
  constructor
  · intro _
    apply wp_tallies_last h₁
    apply tallies_modifySlot
    · exact fun _ => rfl
    · exact fun _ => rfl
    · intro slot
      simp [OtelSlot.linkTally]
      omega
    · exact fun _ => rfl
  · intro _
    apply wp_tallies_last h₁
    apply tallies_drop (0, 0, 1) <;> intro _ <;> rfl

/-! ## Errors -/

theorem tallies_countCaptureFailed : Within (Tallies i 0 0) countCaptureFailed :=
  tallies_modifyCounters (fun _ => rfl) fun _ => rfl

theorem tallies_copyErrorTexts (edata : ErrorData) :
    Within (Tallies i 0 0) (copyErrorTexts env i edata) := by
  unfold copyErrorTexts
  refine .bind (tallies_copyField env _ _) fun _ => .bind (tallies_copyField env _ _) fun _ => ?_
  refine .bind (tallies_copyField env _ _) fun _ => .bind (tallies_copyField env _ _) fun _ => ?_
  refine .bind (tallies_copyField env _ _) fun _ => .bind ?_ fun _ => ?_
  · exact tallies_data fun _ => ⟨rfl, rfl, rfl, rfl⟩
  · exact tallies_runIf tallies_countCaptureFailed

theorem tallies_setSpanError : Within (Tallies i 0 0) (setSpanError i) :=
  tallies_data fun _ => ⟨rfl, rfl, rfl, rfl⟩

theorem tallies_slotRecordError (edata : ErrorData) :
    Within (Tallies i 0 0) (slotRecordError env i edata) := by
  unfold slotRecordError recordErrorTexts getCurrentTimestamp
  refine .bind within_get fun s => .ite (within_pure _) (.bind (tallies_ask _) fun _ => ?_)
  refine .bind (tallies_data fun _ => ⟨rfl, rfl, rfl, rfl⟩) fun _ => .bind ?_ fun _ => ?_
  · exact .ite tallies_countCaptureFailed (tallies_copyErrorTexts env edata)
  · exact tallies_runIf tallies_setSpanError

theorem tallies_describeError (sqlstate : CString) (message : Option CString) :
    Within (Tallies i 0 0) (describeError env i sqlstate message) := by
  unfold describeError errorDescription allocNoOom
  refine .bind (.bind (tallies_ask _) fun ok => .ite (.bind (tallies_request _ _) fun _ => ?_)
    (within_pure _)) fun _ => tallies_data fun _ => ⟨rfl, rfl, rfl, rfl⟩
  cases message <;> exact within_pure _

theorem tallies_captureTurn (edata : ErrorData) (recorded : Bool) :
    Within (Tallies i 0 0) (captureTurn env edata recorded i) := by
  unfold captureTurn markSpanError
  refine .ite (tallies_slotRecordError env edata) (.bind tallies_setSpanError fun _ => ?_)
  exact .bind within_get fun s => tallies_runIf (tallies_describeError env _ _)

theorem tallies_captureError : Within (Tallies i 0 0) (captureError env i) := by
  have hraise (edata : ErrorData) : Within (Tallies i 0 0) (raiseError edata : M Unit) := by
    refine .bind (within_modify fun s => ?_) fun _ => within_throw _
    exact ⟨⟨rfl, fun _ _ => rfl, rfl, rfl⟩, rfl, rfl, rfl, rfl, rfl⟩
  unfold captureError recordCopy
  refine .bind within_get fun s => ?_
  cases s.backend.errorStack with
  | nil => exact hraise _
  | cons edata rest =>
    refine .ite (tallies_slotRecordError env _) (.ite ?_ ?_)
    · exact .bind (tallies_request _ _) fun _ => hraise _
    · refine .bind (tallies_request _ _) fun _ => .bind (tallies_slotRecordError env edata) fun _ => ?_
      exact tallies_data fun _ => ⟨rfl, rfl, rfl, rfl⟩

end Functions

/-! ## What is asked of a span -/

/-- The note is of a report that came to the span. -/
def SpanNote.isReport : SpanNote → Bool
  | .report _ => true
  | .mark _ | .status _ _ => false

section Asked

variable (env : Env) (ref : OtelSpanRef) (s s' : St)

/-- The operation adds an event to the span: a call that is let through and has a name. -/
def SpanOp.AddsEvent : SpanOp → Prop
  | .addEvent (some _) _ _ => env.Reaches ref s
  | _ => False

instance : DecidablePred (SpanOp.AddsEvent env ref s)
  | .addEvent (some _) _ _ => inferInstanceAs (Decidable (env.Reaches ref s))
  | .addEvent none _ _ | .setStr _ _ | .setVprintf _ _ | .setInt _ _ | .setDouble _ _
  | .setBool _ _ | .setName _ | .setStatus _ _ | .addLink _ | .recordError _ | .captureError
  | .capture _ _ | .finish _ _ _ => .isFalse id

/-- The operation adds a link to the span: a call that is let through with a valid target. -/
def SpanOp.AddsLink : SpanOp → Prop
  | .addLink target => env.Reaches ref s ∧ (target.filter otelSpanContextIsValid).isSome = true
  | _ => False

instance : DecidablePred (SpanOp.AddsLink env ref s)
  | .addLink _ => inferInstanceAs (Decidable (_ ∧ _))
  | .addEvent _ _ _ | .setStr _ _ | .setVprintf _ _ | .setInt _ _ | .setDouble _ _
  | .setBool _ _ | .setName _ | .setStatus _ _ | .recordError _ | .captureError
  | .capture _ _ | .finish _ _ _ => .isFalse id

/-- The operation was to set an attribute, and has not put its value. -/
def SpanOp.RefusedSet (op : SpanOp) : Prop :=
  env.Reaches ref s ∧ ∃ entry ∈ op.written env s.tick,
    (s'.slots (refIdx ref)).entries ≠ Upsert.put entry.1 entry.2 (s.slots (refIdx ref)).entries

instance (op : SpanOp) : Decidable (op.RefusedSet env ref s s') :=
  inferInstanceAs (Decidable (_ ∧ ∃ entry ∈ op.written env s.tick, _))

/-- A report comes to the span to be recorded. -/
def SpanOp.captures (op : SpanOp) : Bool := (op.note env ref s).any SpanNote.isReport

end Asked

/-! ## One operation -/

/-- What an operation on an open span adds to its tallies. -/
structure OpTallies (env : Env) (ref : OtelSpanRef) (op : SpanOp) (s s' : St) : Prop where
  tallies : Tallies (refIdx ref) (if op.AddsEvent env ref s then 1 else 0)
    (if op.AddsLink env ref s then 1 else 0) s s'
  attrs : (s'.slots (refIdx ref)).span.droppedAttrs = (s.slots (refIdx ref)).span.droppedAttrs +
    if op.RefusedSet env ref s s' then 1 else 0
  captured : (s'.slots (refIdx ref)).err.isSome =
    ((s.slots (refIdx ref)).err.isSome || op.captures env ref s)

section Steps

variable (env : Env) {ref : OtelSpanRef} {op : SpanOp} {s s' : St}

/-- The events and links that come to a span are those that are asked for. -/
theorem wp_run_tallies (hfinish : op.isFinish = false) :
    Wp (op.run env ref)
      (fun _ s' => Tallies (refIdx ref) (if op.AddsEvent env ref s then 1 else 0)
        (if op.AddsLink env ref s then 1 else 0) s s')
      (fun _ s' => Tallies (refIdx ref) (if op.AddsEvent env ref s then 1 else 0)
        (if op.AddsLink env ref s then 1 else 0) s s') s := by
  apply SpanOp.wp_run
  · intro hsetter hnot c hc
    have hevent : ¬ op.AddsEvent env ref s := by
      intro hadds
      cases op with
      | addEvent name =>
        cases name with
        | none => exact hadds
        | some name => exact hnot hadds
      | _ => exact hadds
    have hlink : ¬ op.AddsLink env ref s := by
      intro hadds
      cases op with
      | addLink => exact hnot hadds.1
      | _ => exact hadds
    rw [if_neg hevent, if_neg hlink]
    refine ⟨⟨rfl, fun _ _ => rfl, rfl, rfl⟩, rfl, rfl, ?_, hc.2, rfl⟩
    dsimp only
    rw [hc.1]
  · intro hreach
    have hnone : Tallies (refIdx ref) 0 0 s s := Std.Refl.refl s
    cases op with
    | setStr key val => exact tallies_setStrInternal env key val s
    | setVprintf key formatted => exact tallies_setFormatted env key formatted s
    | setInt key val => exact tallies_setValue env key _ s
    | setDouble key val => exact tallies_setValue env key _ s
    | setBool key val => exact tallies_setValue env key _ s
    | setName name => exact tallies_setName env name s
    | setStatus code description => exact tallies_setStatus env code description s
    | addEvent name ts attrs =>
      cases name with
      | none => exact hnone
      | some name =>
        have hadds : (SpanOp.addEvent (some name) ts attrs).AddsEvent env ref s := hreach rfl
        rw [if_pos hadds]
        exact tallies_addEvent env name ts attrs s
    | addLink target =>
      cases hvalid : target.filter otelSpanContextIsValid with
      | none =>
        have hnot : ¬ (SpanOp.addLink target).AddsLink env ref s := by
          rintro ⟨-, hsome⟩
          simp [hvalid] at hsome
        rw [if_neg hnot]
        show Wp ((target.filter otelSpanContextIsValid).elim (pure ()) _) _ _ s
        rw [hvalid]
        exact hnone
      | some target' =>
        have hadds : (SpanOp.addLink target).AddsLink env ref s := ⟨hreach rfl, by rw [hvalid]; rfl⟩
        rw [if_pos hadds]
        show Wp ((target.filter otelSpanContextIsValid).elim (pure ()) _) _ _ s
        rw [hvalid]
        exact tallies_addLink env target' s
    | recordError edata =>
      cases edata with
      | none => exact hnone
      | some edata => exact tallies_slotRecordError env edata s
    | captureError => exact tallies_captureError env s
    | capture edata recorded => exact tallies_captureTurn env edata recorded s
    | finish => cases hfinish

/-- A set has put its value, or it is counted as refused. -/
def SetOutcome (i : ℕ) (key : CString) (v : OtelAttrValue) (s s' : St) : Prop :=
  ((s'.slots i).entries = Upsert.put key v (s.slots i).entries ∧
      (s'.slots i).span.droppedAttrs = (s.slots i).span.droppedAttrs) ∨
    ((s'.slots i).entries ≠ Upsert.put key v (s.slots i).entries ∧
      (s'.slots i).span.droppedAttrs = (s.slots i).span.droppedAttrs + 1)

theorem Puts.outcome {extra : Prop} {i : ℕ} {key : CString} {v : OtelAttrValue}
    (h : Puts env extra i key v s s') : SetOutcome i key v s s' :=
  .inl ⟨h.entries, by rw [h.span]⟩

/-- The attributes are as many as before, or fewer. -/
theorem Drops.outcome {extra : Prop} {i : ℕ} {key : CString} {v : OtelAttrValue}
    {attrs : List OtelAttribute} (h : Drops env extra i attrs s s')
    (hlength : attrs.length < (Upsert.put key v (s.slots i).entries).length) :
    SetOutcome i key v s s' := by
  right
  constructor
  · intro hput
    rw [← hput, OtelSlot.entries, h.attrs, List.length_map] at hlength
    exact lt_irrefl _ hlength
  · rw [h.span]
    rfl

theorem Drops.outcome_refused {extra : Prop} {i : ℕ} {key : CString} (v : OtelAttrValue)
    (h : Drops env extra i (s.slots i).attrs s s') (hnot : ¬ (s.slots i).Holds key) :
    SetOutcome i key v s s' := by
  have hkey : key ∉ (s.slots i).entries.map Prod.fst := by
    rw [keys_entries]
    exact hnot
  apply h.outcome
  rw [Upsert.put_of_not_mem hkey, List.length_append, OtelSlot.entries, List.length_map]
  exact Nat.lt_succ_self _

theorem Drops.outcome_lost {extra : Prop} {i : ℕ} {key : CString} (v : OtelAttrValue)
    (h : Drops env extra i (s.slots i).attrs.dropLast s s') (hholds : (s.slots i).Holds key) :
    SetOutcome i key v s s' := by
  have hpos : 0 < (s.slots i).attrs.length := by
    apply List.length_pos_of_ne_nil
    intro hnil
    simp [OtelSlot.Holds, hnil] at hholds
  have hle := Upsert.length_le_put key v (s.slots i).entries
  rw [OtelSlot.entries, List.length_map] at hle
  apply h.outcome
  rw [List.length_dropLast]
  exact lt_of_lt_of_le (Nat.sub_lt hpos Nat.one_pos) hle

/-- A set that reaches the span puts its value or is refused. -/
theorem wp_body_outcome {key : CString} {v : OtelAttrValue} {i : ℕ}
    (hwritten : op.written env s.tick = some (key, v)) :
    Wp (op.body env i) (fun _ s' => SetOutcome i key v s s') (fun _ s' => SetOutcome i key v s s') s := by
  have hvalue (key : CString) (v : OtelAttrValue) : Wp (setValue env i key v)
      (fun _ s' => SetOutcome i key v s s') (fun _ s' => SetOutcome i key v s s') s := by
    apply wp_setValue_cases env (fun _ => True.intro)
    · exact fun _ h => h.outcome env
    · exact fun hnot _ h => h.outcome_refused env _ hnot
  cases op with
  | setStr key' val =>
    cases val with
    | none => cases hwritten
    | some val =>
      obtain ⟨rfl, rfl⟩ := Prod.mk.inj (Option.some.inj hwritten)
      apply wp_setStrInternal_cases env (fun _ => True.intro)
      · exact fun _ _ _ h _ => h.outcome env
      · exact fun hnot _ _ h _ => h.outcome_refused env _ hnot
      · exact fun hlost _ _ h _ => h.outcome_lost env _ hlost.1
  | setVprintf key' formatted =>
    obtain ⟨rfl, rfl⟩ := Prod.mk.inj (Option.some.inj hwritten)
    apply wp_setFormatted_cases env (fun _ => True.intro)
    · exact fun _ _ h => h.outcome env
    · exact fun hnot _ h => h.outcome_refused env _ hnot
    · exact fun hlost _ h => h.outcome_lost env _ hlost.1
  | setInt | setDouble | setBool =>
    obtain ⟨rfl, rfl⟩ := Prod.mk.inj (Option.some.inj hwritten)
    exact hvalue _ _
  | setName | setStatus | addEvent | addLink | recordError | captureError | capture | finish =>
    cases hwritten

/-- The count of dropped attributes is the number of refused sets. -/
theorem wp_run_attrs :
    Wp (op.run env ref)
      (fun _ s' => (s'.slots (refIdx ref)).span.droppedAttrs =
        (s.slots (refIdx ref)).span.droppedAttrs + if op.RefusedSet env ref s s' then 1 else 0)
      (fun _ s' => (s'.slots (refIdx ref)).span.droppedAttrs =
        (s.slots (refIdx ref)).span.droppedAttrs + if op.RefusedSet env ref s s' then 1 else 0) s := by
  by_cases hsets : env.Reaches ref s ∧ (op.written env s.tick).isSome = true
  · obtain ⟨⟨key, v⟩, hwritten⟩ := Option.isSome_iff_exists.1 hsets.2
    -- a set that is refused is one more
    have houtcome {s' : St} (h : SetOutcome (refIdx ref) key v s s') :
        (s'.slots (refIdx ref)).span.droppedAttrs =
          (s.slots (refIdx ref)).span.droppedAttrs + if op.RefusedSet env ref s s' then 1 else 0 := by
      rcases h with ⟨hput, hcount⟩ | ⟨hnot, hcount⟩
      · have hno : ¬ op.RefusedSet env ref s s' := by
          rintro ⟨-, entry, hentry, hne⟩
          rw [hwritten] at hentry
          obtain rfl := Option.some.inj hentry
          exact hne hput
        rw [if_neg hno, hcount, Nat.add_zero]
      · have hyes : op.RefusedSet env ref s s' := ⟨hsets.1, (key, v), hwritten, hnot⟩
        rw [if_pos hyes, hcount]
    apply SpanOp.wp_run
    · exact fun _ hnot => absurd hsets.1 hnot
    · intro _
      exact (wp_body_outcome env hwritten).mono (fun _ _ h => houtcome h) fun _ _ h => houtcome h
  · have hkept {s' : St} (h : SlotStep env (op.Uncharged env ref s) ref op s s') :
        (s'.slots (refIdx ref)).span.droppedAttrs =
          (s.slots (refIdx ref)).span.droppedAttrs + if op.RefusedSet env ref s s' then 1 else 0 := by
      have hno : ¬ op.RefusedSet env ref s s' := by
        rintro ⟨hreach, entry, hentry, -⟩
        exact hsets ⟨hreach, Option.isSome_iff_exists.2 ⟨entry, hentry⟩⟩
      rw [if_neg hno, Nat.add_zero]
      cases h with
      | other _ hpath => exact hpath.slot.attrs_eq.2
      | puts key v hreach hwritten | refused key v hreach hwritten | lost key v hreach hwritten =>
        exact absurd ⟨hreach, by rw [hwritten]; rfl⟩ hsets
    exact (span_cases env id).mono (fun _ _ h => hkept h) fun _ _ h => hkept h

/-- A span has a captured error once a report has come to it. -/
theorem wp_run_captured (hfinish : op.isFinish = false) :
    Wp (op.run env ref)
      (fun _ s' => (s'.slots (refIdx ref)).err.isSome =
        ((s.slots (refIdx ref)).err.isSome || op.captures env ref s))
      (fun _ s' => (s'.slots (refIdx ref)).err.isSome =
        ((s.slots (refIdx ref)).err.isSome || op.captures env ref s)) s := by
  have hcaptured {s' : St} (h : NoteStep env ref op s s') : (s'.slots (refIdx ref)).err.isSome =
      ((s.slots (refIdx ref)).err.isSome || op.captures env ref s) := by
    unfold SpanOp.captures
    cases hnote : op.note env ref s with
    | none =>
      rw [(h.other hnote).err]
      simp
    | some note =>
      have hleads := h.note note hnote
      cases note with
      | report r =>
        rcases hleads with ⟨⟨err, herr, -⟩, hsame⟩ | ⟨-, -, hrecorded⟩
        · rw [hsame.err, herr]
          rfl
        · simp [hrecorded.err, SpanNote.isReport]
      | mark | status =>
        rw [hleads.1]
        simp [SpanNote.isReport]
  exact (note_cases env hfinish).mono (fun _ _ h => hcaptured h) fun _ _ h => hcaptured h

/-- What every operation on an open span does to the tallies. -/
theorem SpanOp.tallies (hfinish : op.isFinish = false) :
    OpTallies env ref op s (endState (op.run env ref) s) where
  tallies := (wp_run_tallies env hfinish).endState
  attrs := (wp_run_attrs env).endState
  captured := (wp_run_captured env hfinish).endState

end Steps

end PostgresOtel
