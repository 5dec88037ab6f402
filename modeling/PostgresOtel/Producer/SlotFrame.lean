import PostgresOtel.Producer.Frame

/-!
# The data of one slot

Most functions on span data work on one slot: they change it, count, and ask the surroundings.
`OnSlot i R` says that slot `i` is changed within the relation `R`, no other span is changed and none
exported; like `R` it is closed under the constructs of the monad.
-/

set_option autoImplicit false

namespace PostgresOtel

open Exec

/-- Slot `i` changes within `R`, no other span changes, and none is exported. -/
structure OnSlot (i : ℕ) (R : OtelSlot → OtelSlot → Prop) (s s' : St) : Prop where
  slot : R (s.slots i) (s'.slots i)
  others : ∀ j, j ≠ i → s'.slots j = s.slots j
  nrecs : s'.nrecs = s.nrecs
  dispatches : s'.dispatches = s.dispatches

/-- It is the same span, with the same status. -/
structure SameSpan (slot slot' : OtelSlot) : Prop where
  serial : slot'.serial = slot.serial
  identity : slot'.span.identity = slot.span.identity
  status : slot'.span.status = slot.span.status

/-- Anything may have changed. -/
def AnyChange (_ _ : OtelSlot) : Prop := True

instance : Std.Refl SameSpan := ⟨fun _ => ⟨rfl, rfl, rfl⟩⟩

instance : IsTrans OtelSlot SameSpan := ⟨fun _ _ _ h h' =>
  ⟨h'.serial.trans h.serial, h'.identity.trans h.identity, h'.status.trans h.status⟩⟩

instance : Std.Refl AnyChange := ⟨fun _ => trivial⟩

instance : IsTrans OtelSlot AnyChange := ⟨fun _ _ _ _ _ => trivial⟩

section Rules

variable {i : ℕ} {R : OtelSlot → OtelSlot → Prop} {α : Type}

instance [Std.Refl R] : Std.Refl (OnSlot i R) :=
  ⟨fun _ => ⟨Std.Refl.refl _, fun _ _ => rfl, rfl, rfl⟩⟩

instance [IsTrans OtelSlot R] : IsTrans St (OnSlot i R) :=
  ⟨fun _ _ _ h h' => ⟨IsTrans.trans _ _ _ h.slot h'.slot,
    fun j hj => (h'.others j hj).trans (h.others j hj), h'.nrecs.trans h.nrecs,
    h'.dispatches.trans h.dispatches⟩⟩

theorem onSlot_modifySlot {f : OtelSlot → OtelSlot} (h : ∀ slot, R slot (f slot)) :
    Within (OnSlot i R) (modifySlot i f) := by
  refine within_modify fun s => ⟨?_, fun j hj => Function.update_of_ne hj .., rfl, rfl⟩
  change R (s.slots i) (Function.update s.slots i (f (s.slots i)) i)
  rw [Function.update_self]
  exact h _

variable [Std.Refl R]

theorem onSlot_modify {f : St → St}
    (h : ∀ s, (f s).slots = s.slots ∧ (f s).nrecs = s.nrecs ∧ (f s).dispatches = s.dispatches) :
    Within (OnSlot i R) (modify f : M PUnit) := by
  refine within_modify fun s => ?_
  obtain ⟨hslots, hnrecs, hdispatches⟩ := h s
  refine ⟨?_, fun j _ => ?_, hnrecs, hdispatches⟩
  · rw [hslots]
    exact Std.Refl.refl _
  · rw [hslots]

theorem onSlot_ask (answer : ℕ → α) : Within (OnSlot i R) (ask answer) :=
  fun _ => ⟨Std.Refl.refl _, fun _ _ => rfl, rfl, rfl⟩

theorem onSlot_runIf {c : Prop} [Decidable c] {x : M Unit} (h : Within (OnSlot i R) x) :
    Within (OnSlot i R) (runIf c x) := .ite h (within_pure _)

variable [IsTrans OtelSlot R] (env : Env)

theorem onSlot_slotStrdup (str : CString) (maxlen : Option ℕ)
    (h : ∀ slot size charge, R slot (slot.request size charge)) :
    Within (OnSlot i R) (slotStrdup env i str maxlen) := by
  unfold slotStrdup allocNoOom
  refine .bind within_get fun s => .ite (within_pure _) (.bind (onSlot_ask _) fun _ => ?_)
  exact .ite (.bind (onSlot_modifySlot fun _ => h _ _ _) fun _ => within_pure _) (within_pure _)

theorem onSlot_slotGrow (arr : SlotArray) (want : ℕ)
    (h : ∀ slot size charge cap, R slot (arr.setCap cap (slot.request size charge))) :
    Within (OnSlot i R) (slotGrow env i arr want) := by
  unfold slotGrow allocNoOom
  refine .bind within_get fun s => .ite (within_pure _) (.ite (within_pure _) ?_)
  refine .bind (onSlot_ask _) fun _ => .ite ?_ (within_pure _)
  exact .bind (onSlot_modifySlot fun _ => h _ _ _ _) fun _ => within_pure _

theorem onSlot_copyField (field : Option CString) (maxlen : Option ℕ)
    (h : ∀ slot size charge, R slot (slot.request size charge)) :
    Within (OnSlot i R) (copyField env i field maxlen) := by
  unfold copyField
  cases field with
  | none => exact within_pure _
  | some str => exact .bind (onSlot_slotStrdup env str maxlen h) fun _ => within_pure _

theorem onSlot_forgetSlot (j : ℕ) (slot : OtelSlot) :
    Within (OnSlot i R) (forgetSlot env j slot) := by
  unfold forgetSlot resourceOwnerForget raiseError modifyBackend
  cases slot.owner with
  | none => exact within_pure _
  | some owner =>
    refine .bind within_get fun s => .ite (.bind ?_ fun _ => within_throw _) ?_
    · exact onSlot_modify fun _ => ⟨rfl, rfl, rfl⟩
    · exact onSlot_modify fun _ => ⟨rfl, rfl, rfl⟩

end Rules

/-! ## Recording an error -/

section Errors

variable (env : Env) {i : ℕ}

theorem onSlot_slotRecordError (edata : ErrorData) :
    Within (OnSlot i AnyChange) (slotRecordError env i edata) := by
  have hcopy (field : Option CString) (maxlen : Option ℕ) :
      Within (OnSlot i AnyChange) (copyField env i field maxlen) :=
    onSlot_copyField env field maxlen fun _ _ _ => trivial
  have htexts : Within (OnSlot i AnyChange) (copyErrorTexts env i edata) := by
    unfold copyErrorTexts
    refine .bind (hcopy _ _) fun _ => .bind (hcopy _ _) fun _ => .bind (hcopy _ _) fun _ => ?_
    refine .bind (hcopy _ _) fun _ => .bind (hcopy _ _) fun _ => ?_
    exact .bind (onSlot_modifySlot fun _ => trivial) fun _ =>
      onSlot_runIf (onSlot_modify fun _ => ⟨rfl, rfl, rfl⟩)
  unfold slotRecordError recordErrorTexts getCurrentTimestamp
  refine .bind within_get fun s => .ite (within_pure _) (.bind (onSlot_ask _) fun _ => ?_)
  refine .bind (onSlot_modifySlot fun _ => trivial) fun _ => ?_
  refine .bind (.ite (onSlot_modify fun _ => ⟨rfl, rfl, rfl⟩) htexts) fun _ => ?_
  exact onSlot_runIf (onSlot_modifySlot fun _ => trivial)

/-! ## The data of a span that ends -/

theorem onSlot_finishSpan (endTime : TimestampTz) :
    Within (OnSlot i SameSpan) (finishSpan env i endTime) := by
  have hdescribe (sqlstate : CString) (message : Option CString) :
      Within (OnSlot i SameSpan) (describeError env i sqlstate message) := by
    unfold describeError errorDescription allocNoOom
    refine .bind (.bind (onSlot_ask _) fun _ => .ite (.bind ?_ fun _ => ?_) (within_pure _)) fun _ =>
      onSlot_modifySlot fun _ => ⟨rfl, rfl, rfl⟩
    · exact onSlot_modifySlot fun _ => ⟨rfl, rfl, rfl⟩
    · cases message <;> exact within_pure _
  have hevent (err : OtelSlotError) : Within (OnSlot i SameSpan) (addExceptionEvent env i err) := by
    unfold addExceptionEvent allocNoOom
    refine .bind within_get fun s => .bind (onSlot_slotGrow env _ _ fun _ _ _ _ => ⟨rfl, rfl, rfl⟩) fun _ => ?_
    refine .ite (.bind (onSlot_ask _) fun _ => .bind (onSlot_runIf ?_) fun _ => ?_) ?_
    · exact onSlot_modifySlot fun _ => ⟨rfl, rfl, rfl⟩
    · exact onSlot_modifySlot fun _ => ⟨rfl, rfl, rfl⟩
    · exact onSlot_modifySlot fun _ => ⟨rfl, rfl, rfl⟩
  have hlower : Within (OnSlot i SameSpan) (lowerCapturedError env i) := by
    unfold lowerCapturedError lowerErrorEvent
    refine .bind within_get fun s => ?_
    cases (s.slots i).err with
    | none => exact within_pure _
    | some err =>
      exact .bind (hevent err) fun _ => .bind within_get fun _ => onSlot_runIf (hdescribe _ _)
  unfold finishSpan timeOrNow getCurrentTimestamp
  refine .bind (.ite (onSlot_ask _) (within_pure _)) fun _ => ?_
  refine .bind (onSlot_modifySlot fun _ => ⟨rfl, rfl, rfl⟩) fun _ => .bind hlower fun _ => ?_
  exact onSlot_modifySlot fun _ => ⟨rfl, rfl, rfl⟩

theorem onSlot_forgetOwner : Within (OnSlot i SameSpan) (forgetOwner env i) := by
  unfold forgetOwner
  refine .bind within_get fun s => .bind (onSlot_forgetSlot env i _) fun _ => ?_
  exact onSlot_modifySlot fun _ => ⟨rfl, rfl, rfl⟩

theorem onSlot_releaseSlot (byOwner : Bool) (fate : Fate) :
    Within (OnSlot i AnyChange) (releaseSlot env i byOwner fate) := by
  unfold releaseSlot
  refine .bind within_get fun s => .bind (onSlot_runIf (onSlot_forgetSlot env i _)) fun _ => ?_
  refine .bind (onSlot_runIf (onSlot_modify fun _ => ⟨rfl, rfl, rfl⟩)) fun _ => ?_
  refine within_modify fun s => ⟨trivial, fun j hj => ?_, rfl, rfl⟩
  exact Function.update_of_ne hj ..

end Errors

end PostgresOtel
