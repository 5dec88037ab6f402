import Mathlib.Logic.Relation
import PostgresOtel.Producer.Refinement
import PostgresOtel.Producer.SlotFrame

/-!
# What the operations on a span do to its slot

The exact outcomes of the two functions that copy into a slot, `slot_strdup` and `slot_grow`, and the
elementary changes an operation on a span makes to its slot: `SpanChange` lists them, and every
operation is a path of them.  A change that requests more than it adds to the account, or one to the
attributes, is only there for the operations that are allowed it.
-/

set_option autoImplicit false

namespace PostgresOtel

open Exec

/-! ## States after an answer or a change of one slot -/

/-- The surroundings have answered a question. -/
def St.asked (s : St) : St := { s with tick := s.tick + 1 }

/-- Slot `i` has been set. -/
def St.setSlot (s : St) (i : ℕ) (slot : OtelSlot) : St :=
  { s with slots := Function.update s.slots i slot }

@[simp] theorem slots_asked (s : St) : s.asked.slots = s.slots := rfl

@[simp] theorem counters_asked (s : St) : s.asked.counters = s.counters := rfl

@[simp] theorem tick_asked (s : St) : s.asked.tick = s.tick + 1 := rfl

@[simp] theorem slots_setSlot (s : St) (i : ℕ) (slot : OtelSlot) :
    (s.setSlot i slot).slots i = slot := Function.update_self ..

@[simp] theorem slots_setSlot_of_ne (s : St) {i j : ℕ} (slot : OtelSlot) (h : j ≠ i) :
    (s.setSlot i slot).slots j = s.slots j := Function.update_of_ne h ..

@[simp] theorem counters_setSlot (s : St) (i : ℕ) (slot : OtelSlot) :
    (s.setSlot i slot).counters = s.counters := rfl

@[simp] theorem tick_setSlot (s : St) (i : ℕ) (slot : OtelSlot) :
    (s.setSlot i slot).tick = s.tick := rfl

/-! ## Copies and growth -/

section Outcomes

variable (env : Env) {i : ℕ}

/-- How much of a string `slot_strdup` copies. -/
def Env.clipLen (str : CString) : Option ℕ → ℕ
  | some n => if n < str.length then env.mbcliplen str n else str.length
  | none => str.length

/-- Whether it copies less than all. -/
def clipped (str : CString) : Option ℕ → Bool
  | some n => decide (n < str.length)
  | none => false

/-- A request for `size` bytes is refused: the account has no room for it, or the allocation fails. -/
def Env.Refuses (slot : OtelSlot) (tick size : ℕ) : Prop :=
  env.maxSpanBytes < slot.bytes + size ∨ env.allocFails tick = true

instance (slot : OtelSlot) (tick size : ℕ) : Decidable (env.Refuses slot tick size) :=
  inferInstanceAs (Decidable (_ ∨ _))

/-- Such a request has been refused; the allocator is asked only if there is room. -/
def Env.refused (slot : OtelSlot) (size : ℕ) (s : St) : St :=
  if env.maxSpanBytes < slot.bytes + size then s else s.asked

@[simp] theorem slots_refused (slot : OtelSlot) (size : ℕ) (s : St) :
    (env.refused slot size s).slots = s.slots := by
  unfold Env.refused
  split_ifs <;> rfl

@[simp] theorem counters_refused (slot : OtelSlot) (size : ℕ) (s : St) :
    (env.refused slot size s).counters = s.counters := by
  unfold Env.refused
  split_ifs <;> rfl

theorem tick_refused (slot : OtelSlot) (size : ℕ) (s : St) : (env.refused slot size s).tick =
    if env.maxSpanBytes < slot.bytes + size then s.tick else s.tick + 1 := by
  unfold Env.refused
  split_ifs <;> rfl

theorem wp_modifySlot_setSlot {f : OtelSlot → OtelSlot} {Q : Unit → St → Prop} {E : Exn → St → Prop}
    {s : St} : Wp (modifySlot i f) Q E s ↔ Q () (s.setSlot i (f (s.slots i))) := Iff.rfl

theorem wp_allocNoOom {Q : Bool → St → Prop} {E : Exn → St → Prop} {s : St}
    (hok : env.allocFails s.tick = false → Q true s.asked)
    (hfails : env.allocFails s.tick = true → Q false s.asked) : Wp (allocNoOom env) Q E s := by
  change Q (!env.allocFails s.tick) s.asked
  cases halloc : env.allocFails s.tick with
  | false => exact hok halloc
  | true => exact hfails halloc

/-- The copy is made and charged, or refused. -/
theorem wp_slotStrdup_cases {str : CString} {maxlen : Option ℕ}
    {Q : Option CString × Bool → St → Prop} {E : Exn → St → Prop} {s : St}
    (hrefused : env.Refuses (s.slots i) s.tick (env.clipLen str maxlen + 1) →
      Q (none, clipped str maxlen) (env.refused (s.slots i) (env.clipLen str maxlen + 1) s))
    (hcopied : ¬ env.Refuses (s.slots i) s.tick (env.clipLen str maxlen + 1) →
      Q (some (str.take (env.clipLen str maxlen)), clipped str maxlen)
        (s.asked.setSlot i ((s.slots i).request (env.clipLen str maxlen + 1)
          (env.clipLen str maxlen + 1)))) :
    Wp (slotStrdup env i str maxlen) Q E s := by
  have heq : slotStrdup env i str maxlen = (do
      let s ← get
      if env.maxSpanBytes < (s.slots i).bytes + env.clipLen str maxlen + 1 then
        return (none, clipped str maxlen)
      else
        let ok ← allocNoOom env
        if ok then
          modifySlot i (OtelSlot.request (env.clipLen str maxlen + 1) (env.clipLen str maxlen + 1))
          return (some (str.take (env.clipLen str maxlen)), clipped str maxlen)
        else
          return (none, clipped str maxlen)) := by
    cases maxlen <;> rfl
  rw [heq, wp_bind, wp_get, wp_ite]
  refine ⟨fun hover => ?_, fun hroom => ?_⟩
  · have hq := hrefused (.inl (by omega))
    rwa [Env.refused, if_pos (by omega)] at hq
  rw [wp_bind]
  refine wp_allocNoOom env (fun hok => hcopied ?_) fun hfails => ?_
  · rintro (hover | hfails)
    · omega
    · simp [hfails] at hok
  · have hq := hrefused (.inr hfails)
    rwa [Env.refused, if_neg (by omega)] at hq

/-- The capacity an array grows to. -/
def SlotArray.newCap (arr : SlotArray) (slot : OtelSlot) (want : ℕ) : ℕ :=
  max (max want (arr.cap slot * 2)) 4

/-- What growing an array adds to the account. -/
def SlotArray.growth (arr : SlotArray) (slot : OtelSlot) (want : ℕ) : ℕ :=
  (arr.newCap slot want - arr.cap slot) * arr.elemSize

/-- What it requests. -/
def SlotArray.growSize (arr : SlotArray) (slot : OtelSlot) (want : ℕ) : ℕ :=
  if arr.isInline slot then arr.newCap slot want * arr.elemSize else arr.growth slot want

/-- The array has room already, or is grown, or growing it is refused. -/
theorem wp_slotGrow_cases {arr : SlotArray} {want : ℕ} {Q : Bool → St → Prop}
    {E : Exn → St → Prop} {s : St} (hroom : want ≤ arr.cap (s.slots i) → Q true s)
    (hrefused : arr.cap (s.slots i) < want →
      env.Refuses (s.slots i) s.tick (arr.growth (s.slots i) want) →
      Q false (env.refused (s.slots i) (arr.growth (s.slots i) want) s))
    (hgrown : arr.cap (s.slots i) < want →
      ¬ env.Refuses (s.slots i) s.tick (arr.growth (s.slots i) want) →
      Q true (s.asked.setSlot i (arr.setCap (arr.newCap (s.slots i) want)
        ((s.slots i).request (arr.growSize (s.slots i) want) (arr.growth (s.slots i) want))))) :
    Wp (slotGrow env i arr want) Q E s := by
  have heq : slotGrow env i arr want = (do
      let s ← get
      if want ≤ arr.cap (s.slots i) then
        return true
      else if env.maxSpanBytes < (s.slots i).bytes + arr.growth (s.slots i) want then
        return false
      else
        let ok ← allocNoOom env
        if ok then
          modifySlot i fun slot => arr.setCap (arr.newCap (s.slots i) want)
            (slot.request (arr.growSize (s.slots i) want) (arr.growth (s.slots i) want))
          return true
        else
          return false) := rfl
  rw [heq, wp_bind, wp_get, wp_ite]
  refine ⟨hroom, fun hwant => ?_⟩
  have hlt : arr.cap (s.slots i) < want := Nat.lt_of_not_le hwant
  rw [wp_ite]
  refine ⟨fun hover => ?_, fun hle => ?_⟩
  · have hq := hrefused hlt (.inl hover)
    rwa [Env.refused, if_pos hover] at hq
  rw [wp_bind]
  refine wp_allocNoOom env (fun hok => hgrown hlt ?_) fun hfails => ?_
  · rintro (hover | hfails)
    · exact hle hover
    · simp [hfails] at hok
  · have hq := hrefused hlt (.inr hfails)
    rwa [Env.refused, if_neg hle] at hq

end Outcomes

/-! ## Elementary changes -/

/-- An elementary change of a slot by an operation on its span.  `extra` allows it to request more
than it adds to the account, `sets` to change the attributes. -/
inductive SpanChange (limit : ℕ) (extra sets : Prop) : OtelSlot → OtelSlot → Prop
  | request (slot : OtelSlot) (size charge : ℕ) : (charge = 0 ∨ slot.bytes + charge ≤ limit) →
      (size = charge ∨ extra) → SpanChange limit extra sets slot (slot.request size charge)
  | release (slot : OtelSlot) (size : ℕ) : SpanChange limit extra sets slot (slot.release size)
  | setCap (slot : OtelSlot) (arr : SlotArray) (cap : ℕ) :
      SpanChange limit extra sets slot (arr.setCap cap slot)
  | attrs (slot : OtelSlot) (attrs : List OtelAttribute) : sets →
      SpanChange limit extra sets slot { slot with attrs := attrs }
  | dropAttr (slot : OtelSlot) : sets →
      SpanChange limit extra sets slot
        { slot with span := { slot.span with droppedAttrs := slot.span.droppedAttrs + 1 } }
  | span (slot : OtelSlot) (span : OtelSpan) : span.droppedAttrs = slot.span.droppedAttrs →
      SpanChange limit extra sets slot { slot with span := span }
  | life (slot : OtelSlot) (life : SlotLife) :
      SpanChange limit extra sets slot { slot with toSlotLife := life }
  | err (slot : OtelSlot) (err : Option OtelSlotError) :
      SpanChange limit extra sets slot { slot with err := err }
  | events (slot : OtelSlot) (events : List OtelSpanEvent) :
      SpanChange limit extra sets slot { slot with events := events }
  | links (slot : OtelSlot) (links : List OtelSpanContext) :
      SpanChange limit extra sets slot { slot with links := links }

/-- A path of such changes. -/
abbrev SpanPath (limit : ℕ) (extra sets : Prop) : OtelSlot → OtelSlot → Prop :=
  Relation.ReflTransGen (SpanChange limit extra sets)

section Paths

variable {limit : ℕ} {extra sets : Prop}

instance : Std.Refl (SpanPath limit extra sets) := ⟨fun _ => .refl⟩

instance : IsTrans OtelSlot (SpanPath limit extra sets) := ⟨fun _ _ _ h h' => h.trans h'⟩

/-- What every change preserves, a path does. -/
theorem SpanPath.invariant {I : OtelSlot → Prop}
    (hI : ∀ slot slot', I slot → SpanChange limit extra sets slot slot' → I slot')
    {slot slot' : OtelSlot} (h : SpanPath limit extra sets slot slot') (hslot : I slot) : I slot' := by
  induction h with
  | refl => exact hslot
  | tail _ hchange ih => exact hI _ _ ih hchange

variable {i : ℕ} {R : OtelSlot → OtelSlot → Prop}

theorem onSlot_asked [Std.Refl R] (s : St) : OnSlot i R s s.asked :=
  ⟨Std.Refl.refl _, fun _ _ => rfl, rfl, rfl⟩

theorem onSlot_refused [Std.Refl R] (env : Env) (slot : OtelSlot) (size : ℕ) (s : St) :
    OnSlot i R s (env.refused slot size s) := by
  unfold Env.refused
  split_ifs
  · exact Std.Refl.refl s
  · exact onSlot_asked s

theorem onSlot_set {s : St} {slot : OtelSlot} (h : R (s.slots i) slot) :
    OnSlot i R s (s.setSlot i slot) :=
  ⟨(slots_setSlot s i slot).symm ▸ h, fun _ hj => slots_setSlot_of_ne s slot hj, rfl, rfl⟩

theorem onSlot_setSlot {s : St} {slot : OtelSlot} (h : R (s.slots i) slot) :
    OnSlot i R s (s.asked.setSlot i slot) :=
  ⟨(slots_setSlot s.asked i slot).symm ▸ h, fun _ hj => slots_setSlot_of_ne s.asked slot hj, rfl, rfl⟩

variable (env : Env)

/-- An operation changes the slot within paths, from the state it is started in. -/
abbrev Changes (extra sets : Prop) (i : ℕ) {α : Type} (x : M α) (s : St) : Prop :=
  Wp x (fun _ s' => OnSlot i (SpanPath env.maxSpanBytes extra sets) s s')
    (fun _ s' => OnSlot i (SpanPath env.maxSpanBytes extra sets) s s') s

variable {env}

/-- Changes go on from where others have got to. -/
theorem Changes.trans {α : Type} {x : M α} {s s₁ : St}
    (h : OnSlot i (SpanPath env.maxSpanBytes extra sets) s s₁) (h₁ : Changes env extra sets i x s₁) :
    Wp x (fun _ s' => OnSlot i (SpanPath env.maxSpanBytes extra sets) s s')
      (fun _ s' => OnSlot i (SpanPath env.maxSpanBytes extra sets) s s') s₁ :=
  h₁.mono (fun _ _ h' => IsTrans.trans _ _ _ h h') fun _ _ h' => IsTrans.trans _ _ _ h h'

variable (env)

theorem changes_slotStrdup (str : CString) (maxlen : Option ℕ) :
    Within (OnSlot i (SpanPath env.maxSpanBytes extra sets)) (slotStrdup env i str maxlen) := by
  intro s
  refine wp_slotStrdup_cases env (fun _ => onSlot_refused env _ _ s) fun hok => onSlot_setSlot ?_
  refine .single (.request _ _ _ (.inr ?_) (.inl rfl))
  unfold Env.Refuses at hok
  omega

theorem changes_slotGrow {arr : SlotArray} {want : ℕ} {s : St}
    (hextra : arr.isInline (s.slots i) = true → arr.cap (s.slots i) < want →
      ¬ env.Refuses (s.slots i) s.tick (arr.growth (s.slots i) want) → extra) :
    Changes env extra sets i (slotGrow env i arr want) s := by
  refine wp_slotGrow_cases env (fun _ => Std.Refl.refl s) (fun _ _ => onSlot_refused env _ _ s)
    fun hlt hok => onSlot_setSlot (.tail (.single (.request _ _ _ (.inr ?_) ?_)) (.setCap _ _ _))
  · unfold Env.Refuses at hok
    omega
  · unfold SlotArray.growSize
    split_ifs with hinline
    · exact .inr (hextra hinline hlt hok)
    · exact .inl rfl

/-- Arrays that start on the heap are charged in full. -/
theorem changes_slotGrow_heap {arr : SlotArray} (want : ℕ) (harr : arr ≠ .attrs) :
    Within (OnSlot i (SpanPath env.maxSpanBytes extra sets)) (slotGrow env i arr want) := fun s =>
  changes_slotGrow env fun hinline => by
    cases arr with
    | attrs => exact absurd rfl harr
    | events => cases hinline
    | links => cases hinline

theorem changes_copyField (field : Option CString) (maxlen : Option ℕ) :
    Within (OnSlot i (SpanPath env.maxSpanBytes extra sets)) (copyField env i field maxlen) := by
  unfold copyField
  cases field with
  | none => exact within_pure _
  | some str => exact .bind (changes_slotStrdup env str maxlen) fun _ => within_pure _

/-! ### Errors -/

theorem changes_slotRecordError (edata : ErrorData) :
    Within (OnSlot i (SpanPath env.maxSpanBytes extra sets)) (slotRecordError env i edata) := by
  have hcopy (field : Option CString) (maxlen : Option ℕ) :
      Within (OnSlot i (SpanPath env.maxSpanBytes extra sets)) (copyField env i field maxlen) :=
    changes_copyField env field maxlen
  have htexts : Within (OnSlot i (SpanPath env.maxSpanBytes extra sets))
      (copyErrorTexts env i edata) := by
    unfold copyErrorTexts
    refine .bind (hcopy _ _) fun _ => .bind (hcopy _ _) fun _ => .bind (hcopy _ _) fun _ => ?_
    refine .bind (hcopy _ _) fun _ => .bind (hcopy _ _) fun _ => ?_
    refine .bind (onSlot_modifySlot fun slot => .single (.err slot _)) fun _ => ?_
    exact onSlot_runIf (onSlot_modify fun _ => ⟨rfl, rfl, rfl⟩)
  unfold slotRecordError recordErrorTexts getCurrentTimestamp setSpanError
  refine .bind within_get fun s => .ite (within_pure _) (.bind (onSlot_ask _) fun _ => ?_)
  refine .bind (onSlot_modifySlot fun slot => .single (.err slot _)) fun _ => ?_
  refine .bind (.ite (onSlot_modify fun _ => ⟨rfl, rfl, rfl⟩) htexts) fun _ => ?_
  exact onSlot_runIf (onSlot_modifySlot fun slot => .single (.span slot _ rfl))

theorem changes_describeError {sqlstate : CString} {message : Option CString} {s : St}
    (hextra : env.allocFails s.tick = false → extra) :
    Changes env extra sets i (describeError env i sqlstate message) s := by
  have hset (description : Option CString) : Within (OnSlot i (SpanPath env.maxSpanBytes extra sets))
      (modifySlot i fun slot =>
        { slot with span := { slot.span with statusDescription := description } }) :=
    onSlot_modifySlot fun slot => .single (.span slot _ rfl)
  unfold describeError errorDescription
  refine Within.bind_at ?_ hset
  rw [wp_bind]
  refine wp_allocNoOom env (fun hok => ?_) fun _ => onSlot_asked s
  have hrequest : SpanPath env.maxSpanBytes extra sets (s.slots i) ((s.slots i).request 256 0) :=
    .single (.request _ _ _ (.inl rfl) (.inr (hextra hok)))
  cases message <;> exact onSlot_setSlot hrequest

theorem changes_markSpanError {edata : ErrorData} {s : St}
    (hextra : (s.slots i).span.statusDescription = none → edata.sqlerrcode ≠ errcodeOutOfMemory →
      env.allocFails s.tick = false → extra) :
    Changes env extra sets i (markSpanError env i edata) s := by
  have hstatus : SpanPath env.maxSpanBytes extra sets (s.slots i)
      { s.slots i with span := { (s.slots i).span with status := .error } } :=
    .single (.span _ _ rfl)
  unfold Changes markSpanError setSpanError
  rw [wp_bind, wp_modifySlot_setSlot, wp_bind, wp_get, wp_runIf, slots_setSlot]
  refine ⟨fun hdescribe => ?_, fun _ => onSlot_set hstatus⟩
  exact Changes.trans (onSlot_set hstatus) (changes_describeError env (hextra hdescribe.1 hdescribe.2))

/-! ### The end of a span -/

/-- There is room for one more event, or it can be made. -/
def Env.AddsEvent (slot : OtelSlot) (tick : ℕ) : Prop :=
  slot.events.length + 1 ≤ slot.eventsCap ∨
    ¬ env.Refuses slot tick (SlotArray.events.growth slot (slot.events.length + 1))

instance (slot : OtelSlot) (tick : ℕ) : Decidable (env.AddsEvent slot tick) :=
  inferInstanceAs (Decidable (_ ∨ _))

/-- The number of the question that follows the one for room, if that was put at all. -/
def Env.tickAfterEvent (slot : OtelSlot) (tick : ℕ) : ℕ :=
  if slot.events.length + 1 ≤ slot.eventsCap ∨
      env.maxSpanBytes < slot.bytes + SlotArray.events.growth slot (slot.events.length + 1) then tick
  else tick + 1

/-- An exception event gets its attributes. -/
def Env.ExceptionAttrs (slot : OtelSlot) (tick : ℕ) : Prop :=
  env.AddsEvent slot tick ∧ env.allocFails (env.tickAfterEvent slot tick) = false

/-- The number of the question that follows those for an exception event. -/
def Env.tickAfterException (slot : OtelSlot) (tick : ℕ) : ℕ :=
  if env.AddsEvent slot tick then env.tickAfterEvent slot tick + 1 else env.tickAfterEvent slot tick

theorem wp_slotGrow_event (extra sets : Prop) (s : St) :
    Wp (slotGrow env i .events ((s.slots i).events.length + 1))
      (fun grown s' => OnSlot i (SpanPath env.maxSpanBytes extra sets) s s' ∧
        (grown = true ↔ env.AddsEvent (s.slots i) s.tick) ∧
        s'.tick = env.tickAfterEvent (s.slots i) s.tick ∧ (s'.slots i).span = (s.slots i).span)
      (fun _ _ => False) s := by
  unfold Env.AddsEvent Env.tickAfterEvent
  refine wp_slotGrow_cases env (fun hroom => ?_) (fun hlt href => ?_) fun hlt hok => ?_
  · have hroom : (s.slots i).events.length + 1 ≤ (s.slots i).eventsCap := hroom
    exact ⟨Std.Refl.refl s, by simp [hroom], by simp [hroom], rfl⟩
  · have hlt : (s.slots i).eventsCap < (s.slots i).events.length + 1 := hlt
    have hnot : ¬ (s.slots i).events.length + 1 ≤ (s.slots i).eventsCap := by omega
    refine ⟨onSlot_refused env _ _ s, ?_, ?_, by rw [slots_refused]⟩
    · simp [hnot, href]
    · rw [tick_refused]
      simp [hnot]
  · have hlt : (s.slots i).eventsCap < (s.slots i).events.length + 1 := hlt
    have hnot : ¬ (s.slots i).events.length + 1 ≤ (s.slots i).eventsCap := by omega
    have hroom : ¬ env.maxSpanBytes < (s.slots i).bytes +
        SlotArray.events.growth (s.slots i) ((s.slots i).events.length + 1) :=
      fun hover => hok (.inl hover)
    refine ⟨onSlot_setSlot (.tail (.single (.request _ _ _ (.inr ?_) (.inl ?_)))
      (.setCap _ _ _)), by simp [hok], ?_, ?_⟩
    · omega
    · rfl
    · simp [hnot, hroom]
    · rw [slots_setSlot]
      rfl

/-- The attributes of the event are requested but not charged. -/
theorem wp_addExceptionEvent_changes (sets : Prop) {err : OtelSlotError} {s : St}
    (hextra : env.ExceptionAttrs (s.slots i) s.tick → extra) :
    Wp (addExceptionEvent env i err)
      (fun _ s' => OnSlot i (SpanPath env.maxSpanBytes extra sets) s s' ∧
        s'.tick = env.tickAfterException (s.slots i) s.tick ∧
        (s'.slots i).span.status = (s.slots i).span.status ∧
        (s'.slots i).span.statusDescription = (s.slots i).span.statusDescription)
      (fun _ _ => False) s := by
  unfold addExceptionEvent Env.tickAfterException
  rw [wp_bind, wp_get, wp_bind]
  refine (wp_slotGrow_event env extra sets s).mono (fun grown s₁ h₁ => ?_) fun _ _ h => h
  obtain ⟨hpath, hgrown, htick, hspan⟩ := h₁
  rw [wp_ite, hgrown]
  refine ⟨fun hadds => ?_, fun hnot => ?_⟩
  · rw [wp_bind, if_pos hadds]
    have hevent (events : List OtelSpanEvent) (slot : OtelSlot) :
        SpanPath env.maxSpanBytes extra sets slot { slot with events := events } :=
      .single (.events slot _)
    refine wp_allocNoOom env (fun hok => ?_) fun _ => ?_
    · have hrequest (size : ℕ) : SpanPath env.maxSpanBytes extra sets (s₁.slots i)
          ((s₁.slots i).request size 0) :=
        .single (.request _ _ _ (.inl rfl) (.inr (hextra ⟨hadds, htick ▸ hok⟩)))
      rw [wp_bind, wp_runIf]
      refine ⟨fun _ => ?_, fun hno => absurd rfl hno⟩
      rw [wp_modifySlot_setSlot, wp_modifySlot_setSlot]
      refine ⟨?_, by simp [htick], by simp [hspan, OtelSlot.request],
        by simp [hspan, OtelSlot.request]⟩
      exact IsTrans.trans _ _ _ hpath (IsTrans.trans _ _ _ (onSlot_setSlot (hrequest _))
        (onSlot_set (hevent _ _)))
    · rw [wp_bind, wp_runIf]
      refine ⟨fun hyes => absurd hyes (by simp), fun _ => ?_⟩
      rw [wp_modifySlot_setSlot]
      refine ⟨?_, by simp [htick], by simp [hspan], by simp [hspan]⟩
      exact IsTrans.trans _ _ _ hpath (onSlot_setSlot (hevent _ _))
  · rw [wp_modifySlot_setSlot, if_neg hnot]
    refine ⟨?_, by simp [htick], by simp [hspan], by simp [hspan]⟩
    exact IsTrans.trans _ _ _ hpath (onSlot_set (.single (.span _ _ rfl)))

/-- Ending the span would request something without charging it. -/
def Env.LowersUncharged (slot : OtelSlot) (tick : ℕ) : Prop :=
  slot.err.isSome = true ∧
    (env.ExceptionAttrs slot tick ∨
      slot.span.status = .error ∧ slot.span.statusDescription = none ∧
        env.allocFails (env.tickAfterException slot tick) = false)

instance (slot : OtelSlot) (tick : ℕ) : Decidable (env.LowersUncharged slot tick) :=
  inferInstanceAs (Decidable (_ ∧ ((_ ∧ _) ∨ _)))

theorem changes_lowerCapturedError {s : St} (hextra : env.LowersUncharged (s.slots i) s.tick → extra) :
    Changes env extra sets i (lowerCapturedError env i) s := by
  unfold Env.LowersUncharged at hextra
  unfold Changes lowerCapturedError
  rw [wp_bind, wp_get]
  cases herr : (s.slots i).err with
  | none => exact Std.Refl.refl s
  | some err =>
    simp only [herr, Option.isSome_some, true_and] at hextra
    unfold lowerErrorEvent
    rw [wp_bind]
    refine (wp_addExceptionEvent_changes env sets fun h => hextra (.inl h)).mono (fun _ s₁ h₁ => ?_)
      fun _ _ h => h.elim
    obtain ⟨hpath, htick, hstatus, hdescription⟩ := h₁
    rw [wp_bind, wp_get, wp_runIf]
    refine ⟨fun hdescribe => ?_, fun _ => hpath⟩
    refine Changes.trans hpath (changes_describeError env fun hok => hextra (.inr ?_))
    exact ⟨hstatus ▸ hdescribe.1, hdescription ▸ hdescribe.2, htick ▸ hok⟩

/-- What `end_slot` does to the data of the span. -/
def finishSlot (i : ℕ) (endTime : TimestampTz) (unwinding : Bool) (reason : Option CString) :
    M Unit := do
  runIf (unwinding = true) (markUnwound i reason)
  finishSpan env i endTime

/-- The slot of a span that did not reach its own end, marked as such. -/
def OtelSlot.unwound (slot : OtelSlot) (reason : Option CString) : OtelSlot :=
  { slot with
    span :=
      { slot.span with
        status := .error
        statusDescription :=
          if slot.err = none ∧ slot.span.statusDescription = none then reason
          else slot.span.statusDescription } }

/-- The number of the question that follows the one for the time, if that was put. -/
def tickAfterTime (time : TimestampTz) (tick : ℕ) : ℕ := if time = 0 then tick + 1 else tick

theorem endSlot_eq (endTime : TimestampTz) (unwinding : Bool) (reason : Option CString) :
    endSlot env i endTime unwinding reason = (do
      forgetOwner env i
      finishSlot env i endTime unwinding reason
      modifySlot i fun slot => { slot with dispatching := true }
      let s ← get
      dispatchSpan env (s.slots i).serial (s.slots i).span
      modifySlot i fun slot => { slot with dispatching := false }
      releaseSlot env i false .dispatched) := by
  unfold endSlot finishSlot
  simp only [bind_assoc]

theorem changes_finishSpan {endTime : TimestampTz} {s : St}
    (hextra : env.LowersUncharged (s.slots i) (tickAfterTime endTime s.tick) → extra) :
    Changes env extra sets i (finishSpan env i endTime) s := by
  have hspan (s : St) (span : OtelSpan) (h : span.droppedAttrs = (s.slots i).span.droppedAttrs) :
      OnSlot i (SpanPath env.maxSpanBytes extra sets) s
        (s.setSlot i { s.slots i with span := span }) := onSlot_set (.single (.span _ _ h))
  have hrest (s₁ : St) (h : OnSlot i (SpanPath env.maxSpanBytes extra sets) s s₁)
      (hextra : env.LowersUncharged (s₁.slots i) s₁.tick → extra) (time : TimestampTz) : Wp (do
        modifySlot i fun slot => { slot with span := { slot.span with endTime := time } }
        lowerCapturedError env i
        modifySlot i fun slot =>
          { slot with
            span :=
              { slot.span with attrs := slot.attrs, events := slot.events, links := slot.links } })
      (fun _ s' => OnSlot i (SpanPath env.maxSpanBytes extra sets) s s')
      (fun _ s' => OnSlot i (SpanPath env.maxSpanBytes extra sets) s s') s₁ := by
    rw [wp_bind, wp_modifySlot_setSlot]
    refine Changes.trans (IsTrans.trans _ _ _ h (hspan s₁ { (s₁.slots i).span with endTime := time } rfl))
      (Within.bind_at (changes_lowerCapturedError env ?_) fun _ => ?_)
    · rw [slots_setSlot]
      exact hextra
    · exact onSlot_modifySlot fun slot => .single (.span slot _ rfl)
  unfold tickAfterTime at hextra
  unfold Changes finishSpan timeOrNow getCurrentTimestamp
  rw [wp_bind, wp_ite]
  refine ⟨fun hzero => hrest s.asked (onSlot_asked s) ?_ _, fun hset => hrest s (Std.Refl.refl s) ?_ _⟩
  · rw [if_pos hzero] at hextra
    exact hextra
  · rw [if_neg hset] at hextra
    exact hextra

theorem changes_finishSlot {endTime : TimestampTz} {unwinding : Bool} {reason : Option CString}
    {s : St}
    (hextra : env.LowersUncharged (if unwinding then (s.slots i).unwound reason else s.slots i)
      (tickAfterTime endTime s.tick) → extra) :
    Changes env extra sets i (finishSlot env i endTime unwinding reason) s := by
  unfold Changes finishSlot
  rw [wp_bind, wp_runIf]
  refine ⟨fun hu => ?_, fun hu => changes_finishSpan env (by rwa [if_neg hu] at hextra)⟩
  rw [if_pos hu] at hextra
  unfold markUnwound modifyCounters
  rw [wp_bind, wp_modifySlot_setSlot, wp_modify]
  have hunwound : OnSlot i (SpanPath env.maxSpanBytes extra sets) s
      (s.setSlot i ((s.slots i).unwound reason)) := onSlot_set (.single (.span _ _ rfl))
  have hcounted (c : OtelApiCounters) : OnSlot i (SpanPath env.maxSpanBytes extra sets) s
      { s.setSlot i ((s.slots i).unwound reason) with counters := c } :=
    ⟨hunwound.slot, hunwound.others, hunwound.nrecs, hunwound.dispatches⟩
  refine Changes.trans (hcounted _) (changes_finishSpan env ?_)
  change env.LowersUncharged ((s.setSlot i ((s.slots i).unwound reason)).slots i) _ → extra
  rw [slots_setSlot]
  exact hextra

end Paths

end PostgresOtel
