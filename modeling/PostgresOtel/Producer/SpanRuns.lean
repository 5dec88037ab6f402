import PostgresOtel.Lib.Machine
import PostgresOtel.Producer.AttrSets

/-!
# Runs of operations on one span

The slot of a span as a machine of its own: its labels are the producer's operations on the span, each
with the surroundings and the rest of the producer's state as they are at that moment.  `span_cases`
says what one operation can do to the slot.
-/

set_option autoImplicit false

namespace PostgresOtel

open Exec

variable (env : Env) {i : ℕ} {extra sets : Prop}

/-! ## The operations that set no attribute -/

theorem changes_copyEventAttrs (attrs : List AttrArg) :
    Within (OnSlot i (SpanPath env.maxSpanBytes extra sets)) (copyEventAttrs env i attrs) := by
  induction attrs with
  | nil => exact within_pure _
  | cons a rest ih =>
    unfold copyEventAttrs copyEventValue
    refine .bind (changes_copyField env _ _) fun key => .bind ?_ fun v => ?_
    · split
      · exact .bind (changes_slotStrdup env _ _) fun _ => within_pure _
      · exact within_pure _
    · split
      · exact .bind ih fun _ => within_pure _
      · exact within_pure _

theorem changes_copyEventArray (attrs : List AttrArg) :
    Within (OnSlot i (SpanPath env.maxSpanBytes extra sets)) (copyEventArray env i attrs) := by
  intro s
  unfold copyEventArray
  rw [wp_ite]
  refine ⟨fun _ => Std.Refl.refl s, fun _ => ?_⟩
  rw [wp_bind, wp_get, wp_ite]
  refine ⟨fun _ => Std.Refl.refl s, fun hroom => ?_⟩
  rw [wp_bind]
  refine wp_allocNoOom env (fun _ => ?_) fun _ => onSlot_asked s
  rw [if_pos rfl, wp_bind, wp_modifySlot_setSlot]
  refine Changes.trans (onSlot_setSlot (.single (.request _ _ _ (.inr ?_) (.inl rfl))))
    (changes_copyEventAttrs env attrs _)
  omega

theorem changes_dropEvent :
    Within (OnSlot i (SpanPath env.maxSpanBytes extra sets)) (dropEvent i) :=
  .bind (onSlot_modifySlot fun slot => .single (.span slot _ rfl)) fun _ =>
    onSlot_modify fun _ => ⟨rfl, rfl, rfl⟩

/-- `api_span_add_event` once the span is known. -/
def addEvent (i : ℕ) (name : CString) (ts : TimestampTz) (attrs : List AttrArg) : M Unit := do
  let st ← get
  let grown ← slotGrow env i .events ((st.slots i).events.length + 1)
  let ename ← copyIfGrown env grown i name (some env.attrValueMax)
  match ename with
  | none => dropEvent i
  | some ename =>
    let copied ← copyEventArray env i attrs
    match copied with
    | none => dropEvent i
    | some copied =>
      let time ← timeOrNow env ts
      modifySlot i fun slot => { slot with events := slot.events ++ [⟨ename, time, copied⟩] }

theorem changes_addEvent (name : CString) (ts : TimestampTz) (attrs : List AttrArg) :
    Within (OnSlot i (SpanPath env.maxSpanBytes extra sets)) (addEvent env i name ts attrs) := by
  unfold addEvent copyIfGrown timeOrNow getCurrentTimestamp
  refine .bind within_get fun s => .bind (changes_slotGrow_heap env _ (by decide)) fun _ => ?_
  refine .bind (.ite (changes_copyField env _ _) (within_pure _)) fun ename => ?_
  cases ename with
  | none => exact changes_dropEvent env
  | some ename =>
    refine .bind (changes_copyEventArray env attrs) fun copied => ?_
    cases copied with
    | none => exact changes_dropEvent env
    | some copied =>
      exact .bind (.ite (onSlot_ask _) (within_pure _)) fun _ =>
        onSlot_modifySlot fun slot => .single (.events slot _)

/-- `api_span_add_link` once the span is known. -/
def addLink (i : ℕ) (target : OtelSpanContext) : M Unit := do
  let st ← get
  let grown ← slotGrow env i .links ((st.slots i).links.length + 1)
  if grown then
    modifySlot i fun slot => { slot with links := slot.links ++ [{ target with tracestate := none }] }
  else
    modifySlot i fun slot =>
      { slot with span := { slot.span with droppedLinks := slot.span.droppedLinks + 1 } }
    modifyCounters fun c => { c with linkDropped := c.linkDropped + 1 }

theorem changes_addLink (target : OtelSpanContext) :
    Within (OnSlot i (SpanPath env.maxSpanBytes extra sets)) (addLink env i target) := by
  unfold addLink
  refine .bind within_get fun s => .bind (changes_slotGrow_heap env _ (by decide)) fun _ => ?_
  refine .ite (onSlot_modifySlot fun slot => .single (.links slot _)) (.bind ?_ fun _ => ?_)
  · exact onSlot_modifySlot fun slot => .single (.span slot _ rfl)
  · exact onSlot_modify fun _ => ⟨rfl, rfl, rfl⟩

/-- `api_span_set_name` once the span is known. -/
def setName (i : ℕ) (name : Option CString) : M Unit := do
  let copy ← copyField env i name (some env.attrValueMax)
  match copy with
  | none => return ()
  | some copy => modifySlot i fun slot => { slot with span := { slot.span with name := copy } }

theorem changes_setName (name : Option CString) :
    Within (OnSlot i (SpanPath env.maxSpanBytes extra sets)) (setName env i name) := by
  unfold setName
  refine .bind (changes_copyField env _ _) fun copy => ?_
  cases copy with
  | none => exact within_pure _
  | some copy => exact onSlot_modifySlot fun slot => .single (.span slot _ rfl)

/-- `api_span_set_status` once the span is known. -/
def setStatus (i : ℕ) (code : OtelSpanStatus) (description : Option CString) : M Unit := do
  modifySlot i fun slot => { slot with span := { slot.span with status := code } }
  let copy ← copyField env i description (some env.attrValueMax)
  modifySlot i fun slot => { slot with span := { slot.span with statusDescription := copy } }

theorem changes_setStatus (code : OtelSpanStatus) (description : Option CString) :
    Within (OnSlot i (SpanPath env.maxSpanBytes extra sets)) (setStatus env i code description) :=
  .bind (onSlot_modifySlot fun slot => .single (.span slot _ rfl)) fun _ =>
    .bind (changes_copyField env _ _) fun _ =>
      onSlot_modifySlot fun slot => .single (.span slot _ rfl)

/-- Capturing the innermost error would request something without charging it. -/
def Env.CapturesUncharged (errors : List ErrorData) : Prop :=
  ∃ edata ∈ errors.head?, edata.sqlerrcode ≠ errcodeOutOfMemory ∧ env.errorDataSize edata ≠ 0

instance (errors : List ErrorData) : Decidable (env.CapturesUncharged errors) :=
  inferInstanceAs (Decidable (∃ edata ∈ errors.head?, _ ∧ _))

/-- `api_span_capture_error` once the span is known. -/
def captureError (i : ℕ) : M Unit := do
  let st ← get
  match st.backend.errorStack with
  | [] => raiseError { elevel := elevelError }
  | edata :: _ =>
    if edata.sqlerrcode = errcodeOutOfMemory then
      slotRecordError env i { elevel := elevelError, sqlerrcode := errcodeOutOfMemory }
    else if env.copyErrorDataRaises then
      modifySlot i (OtelSlot.request (env.errorDataSize edata) 0)
      raiseError { elevel := elevelError, sqlerrcode := errcodeOutOfMemory }
    else
      recordCopy env i edata

theorem changes_captureError {s : St} (hextra : env.CapturesUncharged s.backend.errorStack → extra) :
    Changes env extra sets i (captureError env i) s := by
  have hraise (edata : ErrorData) :
      Within (OnSlot i (SpanPath env.maxSpanBytes extra sets)) (raiseError edata : M Unit) :=
    .bind (onSlot_modify fun _ => ⟨rfl, rfl, rfl⟩) fun _ => within_throw _
  unfold Changes captureError recordCopy
  rw [wp_bind, wp_get]
  cases herrors : s.backend.errorStack with
  | nil => exact hraise _ s
  | cons edata rest =>
    dsimp only
    rw [wp_ite]
    refine ⟨fun _ => changes_slotRecordError env _ s, fun hoom => ?_⟩
    have hrequest (slot : OtelSlot) : SpanPath env.maxSpanBytes extra sets slot
        (slot.request (env.errorDataSize edata) 0) := by
      refine .single (.request _ _ _ (.inl rfl) ?_)
      by_cases hsize : env.errorDataSize edata = 0
      · exact .inl hsize
      · exact .inr (hextra ⟨edata, by simp [herrors], hoom, hsize⟩)
    rw [wp_ite]
    refine ⟨fun _ => ?_, fun _ => ?_⟩
    · exact Within.bind (onSlot_modifySlot hrequest) (fun _ => hraise _) s
    · refine Within.bind (onSlot_modifySlot hrequest) (fun _ => ?_) s
      exact .bind (changes_slotRecordError env edata) fun _ =>
        onSlot_modifySlot fun slot => .single (.release slot _)

/-! ## Captures by the log hook -/

/-- What a turn of the log hook's loop does with a span it comes to. -/
def captureTurn (edata : ErrorData) (recorded : Bool) (i : ℕ) : M Unit :=
  if edata.elevel < elevelError ∨ recorded = false then slotRecordError env i edata
  else markSpanError env i edata

/-- The loop is made of such turns. -/
theorem recordOnStack_slot {edata : ErrorData} {e : StackEntry} (rest : List StackEntry)
    (recorded : Bool) (he : e.entry = .slot i) :
    recordOnStack env edata (e :: rest) recorded = (do
      let s ← get
      if (s.slots i).dispatching then
        recordOnStack env edata rest recorded
      else if edata.elevel < elevelError then
        captureTurn env edata recorded i
      else if (s.slots i).session then
        recordOnStack env edata rest recorded
      else
        captureTurn env edata recorded i
        recordOnStack env edata rest true) := by
  rw [recordOnStack, he]
  unfold captureTurn
  funext s
  by_cases hlevel : edata.elevel < elevelError <;> cases recorded <;> simp [hlevel]

/-- The turn would request something without charging it. -/
def Env.TurnUncharged (slot : OtelSlot) (tick : ℕ) (edata : ErrorData) (recorded : Bool) : Prop :=
  (elevelError ≤ edata.elevel ∧ recorded = true) ∧ slot.span.statusDescription = none ∧
    edata.sqlerrcode ≠ errcodeOutOfMemory ∧ env.allocFails tick = false

instance (slot : OtelSlot) (tick : ℕ) (edata : ErrorData) (recorded : Bool) :
    Decidable (env.TurnUncharged slot tick edata recorded) :=
  inferInstanceAs (Decidable (_ ∧ _ ∧ _ ∧ _))

theorem changes_captureTurn {edata : ErrorData} {recorded : Bool} {s : St}
    (hextra : env.TurnUncharged (s.slots i) s.tick edata recorded → extra) :
    Changes env extra sets i (captureTurn env edata recorded i) s := by
  unfold Changes captureTurn
  rw [wp_ite]
  refine ⟨fun _ => changes_slotRecordError env edata s, fun hmark => ?_⟩
  rw [not_or, Bool.not_eq_false, Nat.not_lt] at hmark
  exact changes_markSpanError env fun hdesc hoom hok => hextra ⟨hmark, hdesc, hoom, hok⟩

/-! ## Operations -/

/-- The operations on a span: the setters of the producer API, a turn of the log hook's loop, and the
part of the span's end that touches its data. -/
inductive SpanOp
  | setStr (key : CString) (val : Option CString)
  | setVprintf (key formatted : CString)
  | setInt (key : CString) (val : ℤ)
  | setDouble (key : CString) (val : BitVec 64)
  | setBool (key : CString) (val : Bool)
  | setName (name : Option CString)
  | setStatus (code : OtelSpanStatus) (description : Option CString)
  | addEvent (name : Option CString) (ts : TimestampTz) (attrs : List AttrArg)
  | addLink (target : Option OtelSpanContext)
  | recordError (edata : Option ErrorData)
  | captureError
  | capture (edata : ErrorData) (recorded : Bool)
  | finish (endTime : TimestampTz) (unwinding : Bool) (reason : Option CString)

def SpanOp.run (env : Env) (ref : OtelSpanRef) : SpanOp → M Unit
  | .setStr key val => apiSpanSetStr env ref key val
  | .setVprintf key formatted => apiSpanSetVprintf env ref key formatted
  | .setInt key val => apiSpanSetInt env ref key val
  | .setDouble key val => apiSpanSetDouble env ref key val
  | .setBool key val => apiSpanSetBool env ref key val
  | .setName name => apiSpanSetName env ref name
  | .setStatus code description => apiSpanSetStatus env ref code description
  | .addEvent name ts attrs => apiSpanAddEvent env ref name ts attrs
  | .addLink target => apiSpanAddLink env ref target
  | .recordError edata => apiSpanRecordError env ref edata
  | .captureError => apiSpanCaptureError env ref
  | .capture edata recorded => captureTurn env edata recorded (refIdx ref)
  | .finish endTime unwinding reason => finishSlot env (refIdx ref) endTime unwinding reason

/-- A setter is let through and its handle names the span. -/
def Env.Reaches (ref : OtelSpanRef) (s : St) : Prop :=
  (env.critSectionCount = 0 ∧ s.dispatchDepth = 0) ∧ 0 < ref.v ∧ refIdx ref < s.slotsUsed ∧
    (s.slots (refIdx ref)).gen = refGen ref

instance (ref : OtelSpanRef) (s : St) : Decidable (env.Reaches ref s) :=
  inferInstanceAs (Decidable ((_ ∧ _) ∧ _ ∧ _ ∧ _))

theorem wp_setterSlot_cases {ref : OtelSpanRef} {Q : Option ℕ → St → Prop} {E : Exn → St → Prop}
    {s : St} (hsome : env.Reaches ref s → Q (some (refIdx ref)) s)
    (hnone : ¬ env.Reaches ref s → ∀ c, Q none { s with counters := c }) :
    Wp (setterSlot env ref) Q E s := by
  unfold Env.Reaches at hsome hnone
  unfold setterSlot callRefused
  rw [wp_bind, wp_bind, wp_get, wp_ite]
  refine ⟨fun hcrit => ?_, fun hcrit => ?_⟩
  · exact hnone (fun h => hcrit h.1.1) _
  rw [wp_ite]
  refine ⟨fun hdepth => ?_, fun hdepth => ?_⟩
  · have hpos : 0 < s.dispatchDepth := hdepth.1
    exact hnone (fun h => by omega) _
  have hnodepth : s.dispatchDepth = 0 := by simpa using hdepth
  rw [wp_pure, wp_ite]
  refine ⟨fun hv => ?_, fun hv => ?_⟩
  · have hv : ref.v ≤ 0 := by simpa using hv
    exact hnone (fun h => by omega) s.counters
  have hpos : 0 < ref.v := by simpa using hv
  unfold slotForRef
  rw [wp_bind, wp_get, wp_ite]
  refine ⟨fun hnames => hsome ⟨⟨not_not.1 hcrit, hnodepth⟩, hpos, hnames⟩, fun hnames => ?_⟩
  rw [wp_ite]
  exact ⟨fun _ => hnone (fun h => hnames h.2.2) s.counters, fun _ => hnone (fun h => hnames h.2.2) _⟩

/-- The key an operation sets, and the value it then has; the text of a formatted string depends on
whether it gets a buffer. -/
def SpanOp.written (env : Env) (tick : ℕ) : SpanOp → Option (CString × OtelAttrValue)
  | .setStr key (some val) => some (key, .string (some (env.clip val)))
  | .setVprintf key formatted =>
    some (key, .string (some (env.clip (env.formattedText formatted tick))))
  | .setInt key val => some (key, .int val)
  | .setDouble key val => some (key, .double val)
  | .setBool key val => some (key, .bool val)
  | _ => none

/-- The operation is a set of a key that is there already, and the new value is refused. -/
def SpanOp.LosesAttr (env : Env) (ref : OtelSpanRef) (s : St) : SpanOp → Prop
  | .setStr key (some val) =>
    env.Reaches ref s ∧ env.LosesAttr (s.slots (refIdx ref)) s.tick key val
  | .setVprintf key formatted =>
    env.Reaches ref s ∧ env.LosesAttr (s.slots (refIdx ref))
      (env.tickAfterBuffer formatted.length s.tick) key (env.formattedText formatted s.tick)
  | _ => False

instance (ref : OtelSpanRef) (s : St) : DecidablePred (SpanOp.LosesAttr env ref s)
  | .setStr _ (some _) => inferInstanceAs (Decidable (_ ∧ _))
  | .setVprintf _ _ => inferInstanceAs (Decidable (_ ∧ _))
  | .setStr _ none | .setInt _ _ | .setDouble _ _ | .setBool _ _ | .setName _ | .setStatus _ _
  | .addEvent _ _ _ | .addLink _ | .recordError _ | .captureError | .capture _ _ | .finish _ _ _ =>
    .isFalse id

/-- The operation requests more in the span's memory context than it adds to its account. -/
def SpanOp.Uncharged (env : Env) (ref : OtelSpanRef) (s : St) : SpanOp → Prop
  | .setStr key (some _) => env.Reaches ref s ∧ env.Spills (s.slots (refIdx ref)) s.tick key
  | .setVprintf key formatted =>
    env.Reaches ref s ∧ (env.BigBuffer formatted.length s.tick ∨
      env.Spills (s.slots (refIdx ref)) (env.tickAfterBuffer formatted.length s.tick) key)
  | .setInt key _ | .setDouble key _ | .setBool key _ =>
    env.Reaches ref s ∧ env.Spills (s.slots (refIdx ref)) s.tick key
  | .captureError => env.Reaches ref s ∧ env.CapturesUncharged s.backend.errorStack
  | .capture edata recorded => env.TurnUncharged (s.slots (refIdx ref)) s.tick edata recorded
  | .finish endTime unwinding reason =>
    env.LowersUncharged
      (if unwinding then (s.slots (refIdx ref)).unwound reason else s.slots (refIdx ref))
      (tickAfterTime endTime s.tick)
  | _ => False

instance (ref : OtelSpanRef) (s : St) : DecidablePred (SpanOp.Uncharged env ref s)
  | .setStr _ (some _) => inferInstanceAs (Decidable (_ ∧ _))
  | .setVprintf _ _ => inferInstanceAs (Decidable (_ ∧ (_ ∨ _)))
  | .setInt _ _ | .setDouble _ _ | .setBool _ _ => inferInstanceAs (Decidable (_ ∧ _))
  | .captureError => inferInstanceAs (Decidable (_ ∧ _))
  | .capture _ _ => inferInstanceAs (Decidable (env.TurnUncharged _ _ _ _))
  | .finish _ _ _ => inferInstanceAs (Decidable (env.LowersUncharged _ _))
  | .setStr _ none | .setName _ | .setStatus _ _ | .addEvent _ _ _ | .addLink _ | .recordError _ =>
    .isFalse id

/-- What an operation has done to the span. -/
inductive SlotStep (extra : Prop) (ref : OtelSpanRef) (op : SpanOp) (s s' : St) : Prop
  | other : ¬ (env.Reaches ref s ∧ (op.written env s.tick).isSome = true) →
      OnSlot (refIdx ref) (SpanPath env.maxSpanBytes extra False) s s' → SlotStep extra ref op s s'
  | puts (key : CString) (v : OtelAttrValue) : env.Reaches ref s →
      op.written env s.tick = some (key, v) → ¬ op.LosesAttr env ref s →
      Puts env extra (refIdx ref) key v s s' → SlotStep extra ref op s s'
  | refused (key : CString) (v : OtelAttrValue) : env.Reaches ref s →
      op.written env s.tick = some (key, v) → ¬ op.LosesAttr env ref s →
      Drops env extra (refIdx ref) (s.slots (refIdx ref)).attrs s s' → SlotStep extra ref op s s'
  | lost (key : CString) (v : OtelAttrValue) : env.Reaches ref s →
      op.written env s.tick = some (key, v) → op.LosesAttr env ref s →
      Drops env extra (refIdx ref) (s.slots (refIdx ref)).attrs.dropLast s s' →
      SlotStep extra ref op s s'

/-! ## What the operations do to the slot -/

/-- The operation is a call of a setter. -/
def SpanOp.isSetter : SpanOp → Bool
  | .capture _ _ | .finish _ _ _ => false
  | _ => true

/-- What the operation does once the slot is known. -/
def SpanOp.body (i : ℕ) : SpanOp → M Unit
  | .setStr key val => setStrInternal env i key val
  | .setVprintf key formatted => setFormatted env i key formatted
  | .setInt key val => setValue env i key (.int val)
  | .setDouble key val => setValue env i key (.double val)
  | .setBool key val => setValue env i key (.bool val)
  | .setName name => PostgresOtel.setName env i name
  | .setStatus code description => PostgresOtel.setStatus env i code description
  | .addEvent name ts attrs => name.elim (pure ()) fun name => PostgresOtel.addEvent env i name ts attrs
  | .addLink target => (target.filter otelSpanContextIsValid).elim (pure ()) (PostgresOtel.addLink env i)
  | .recordError edata => edata.elim (pure ()) (slotRecordError env i)
  | .captureError => PostgresOtel.captureError env i
  | .capture edata recorded => captureTurn env edata recorded i
  | .finish endTime unwinding reason => finishSlot env i endTime unwinding reason

theorem SpanOp.run_setter {op : SpanOp} (ref : OtelSpanRef) (h : op.isSetter = true) :
    op.run env ref = (do
      let slot ← setterSlot env ref
      match slot with
      | none => return ()
      | some i => op.body env i) := by
  cases op with
  | setStr | setVprintf | setInt | setDouble | setBool | setName | setStatus | captureError => rfl
  | addEvent name ts attrs =>
    show apiSpanAddEvent env ref name ts attrs = _
    unfold apiSpanAddEvent
    congr
    funext slot
    cases slot <;> cases name <;> rfl
  | addLink target =>
    show apiSpanAddLink env ref target = (do
      let slot ← setterSlot env ref
      match slot with
      | none => return ()
      | some i => (target.filter otelSpanContextIsValid).elim (pure ()) (PostgresOtel.addLink env i))
    unfold apiSpanAddLink
    congr
    funext slot
    cases slot <;> cases target.filter otelSpanContextIsValid <;> rfl
  | recordError edata =>
    show apiSpanRecordError env ref edata = _
    unfold apiSpanRecordError
    congr
    funext slot
    cases slot <;> cases edata <;> rfl
  | capture | finish => cases h

section Steps

variable {ref : OtelSpanRef} {op : SpanOp} {s : St}

/-- A setter that sets no attribute. -/
theorem wp_setter_other {x : ℕ → M Unit} (hwritten : op.written env s.tick = none)
    (hx : env.Reaches ref s →
      Changes env extra False (refIdx ref) (x (refIdx ref)) s) :
    Wp (do
      let slot ← setterSlot env ref
      match slot with
      | none => return ()
      | some i => x i) (fun _ s' => SlotStep env extra ref op s s')
      (fun _ s' => SlotStep env extra ref op s s') s := by
  have hother {s' : St} (h : OnSlot (refIdx ref) (SpanPath env.maxSpanBytes extra False) s s') :
      SlotStep env extra ref op s s' := .other (fun h => by simp [hwritten] at h) h
  rw [wp_bind]
  refine wp_setterSlot_cases env (fun hreach => ?_) fun _ c => ?_
  · exact (hx hreach).mono (fun _ _ h => hother h) fun _ _ h => hother h
  · exact hother ⟨Std.Refl.refl (s.slots (refIdx ref)), fun _ _ => rfl, rfl, rfl⟩

/-- A setter of an attribute. -/
theorem wp_setter_written {x : ℕ → M Unit}
    (hx : env.Reaches ref s → Wp (x (refIdx ref)) (fun _ s' => SlotStep env extra ref op s s')
      (fun _ s' => SlotStep env extra ref op s s') s) :
    Wp (do
      let slot ← setterSlot env ref
      match slot with
      | none => return ()
      | some i => x i) (fun _ s' => SlotStep env extra ref op s s')
      (fun _ s' => SlotStep env extra ref op s s') s := by
  rw [wp_bind]
  refine wp_setterSlot_cases env hx fun hnot c => .other (fun h => hnot h.1) ?_
  exact ⟨Std.Refl.refl (s.slots (refIdx ref)), fun _ _ => rfl, rfl, rfl⟩

/-- There are no other steps. -/
theorem span_cases (hextra : op.Uncharged env ref s → extra) :
    Wp (op.run env ref) (fun _ s' => SlotStep env extra ref op s s')
      (fun _ s' => SlotStep env extra ref op s s') s := by
  have hother {x : M Unit} (hwritten : op.written env s.tick = none)
      (hx : Changes env extra False (refIdx ref) x s) :
      Wp x (fun _ s' => SlotStep env extra ref op s s')
        (fun _ s' => SlotStep env extra ref op s s') s :=
    hx.mono (fun _ _ h => .other (fun h => by simp [hwritten] at h) h)
      fun _ _ h => .other (fun h => by simp [hwritten] at h) h
  have hvalue {key : CString} {v : OtelAttrValue} (hwritten : op.written env s.tick = some (key, v))
      (hlose : ¬ op.LosesAttr env ref s)
      (hextra : env.Reaches ref s ∧ env.Spills (s.slots (refIdx ref)) s.tick key → extra) :
      Wp (setScalar env ref key v) (fun _ s' => SlotStep env extra ref op s s')
        (fun _ s' => SlotStep env extra ref op s s') s :=
    wp_setter_written env (x := fun i => setValue env i key v) fun hreach =>
      wp_setValue_cases env (fun h => hextra ⟨hreach, h⟩)
        (fun _ h => .puts key v hreach hwritten hlose h)
        fun _ _ h => .refused key v hreach hwritten hlose h
  cases op with
  | setStr key val =>
    cases val with
    | none =>
      exact wp_setter_other env (x := fun i => setStrInternal env i key none) rfl
        fun _ => Std.Refl.refl s
    | some val =>
      refine wp_setter_written env (x := fun i => setStrInternal env i key (some val)) fun hreach => ?_
      exact wp_setStrInternal_cases env (fun h => hextra ⟨hreach, h⟩)
        (fun hnot _ _ h _ => .puts key _ hreach rfl (fun hl => hnot hl.2) h)
        (fun hnot _ _ h _ => .refused key _ hreach rfl (fun hl => hnot hl.2.1) h)
        fun hlost _ _ h _ => .lost key _ hreach rfl ⟨hreach, hlost⟩ h
  | setVprintf key formatted =>
    refine wp_setter_written env (x := fun i => setFormatted env i key formatted) fun hreach => ?_
    exact wp_setFormatted_cases env (fun h => hextra ⟨hreach, h⟩)
      (fun hnot _ h => .puts key _ hreach rfl (fun hl => hnot hl.2) h)
      (fun hnot _ h => .refused key _ hreach rfl (fun hl => hnot hl.2.1) h)
      fun hlost _ h => .lost key _ hreach rfl ⟨hreach, hlost⟩ h
  | setInt key val => exact hvalue rfl id hextra
  | setDouble key val => exact hvalue rfl id hextra
  | setBool key val => exact hvalue rfl id hextra
  | setName name =>
    exact wp_setter_other env (x := fun i => setName env i name) rfl fun _ =>
      changes_setName env name s
  | setStatus code description =>
    exact wp_setter_other env (x := fun i => setStatus env i code description) rfl fun _ =>
      changes_setStatus env code description s
  | addEvent name ts attrs =>
    rw [SpanOp.run_setter env ref rfl]
    refine wp_setter_other env rfl fun _ => ?_
    cases name with
    | none => exact Std.Refl.refl s
    | some name => exact changes_addEvent env name ts attrs s
  | addLink target =>
    rw [SpanOp.run_setter env ref rfl]
    refine wp_setter_other env rfl fun _ => ?_
    show Changes env extra False (refIdx ref)
      ((target.filter otelSpanContextIsValid).elim (pure ()) (addLink env (refIdx ref))) s
    cases target.filter otelSpanContextIsValid with
    | none => exact Std.Refl.refl s
    | some target => exact changes_addLink env target s
  | recordError edata =>
    rw [SpanOp.run_setter env ref rfl]
    refine wp_setter_other env rfl fun _ => ?_
    cases edata with
    | none => exact Std.Refl.refl s
    | some edata => exact changes_slotRecordError env edata s
  | captureError =>
    exact wp_setter_other env (x := captureError env) rfl fun hreach =>
      changes_captureError env fun h => hextra ⟨hreach, h⟩
  | capture edata recorded => exact hother rfl (changes_captureTurn env hextra)
  | finish endTime unwinding reason => exact hother rfl (changes_finishSlot env hextra)

end Steps

/-! ## A new span -/

/-- The slot has no data of a span in it. -/
def OtelSlot.Blank (slot : OtelSlot) : Prop :=
  slot = { toSlotLife := slot.toSlotLife, cxt := slot.cxt }

instance (slot : OtelSlot) : Decidable slot.Blank := inferInstanceAs (Decidable (_ = _))

theorem changes_openTakenSlot (args : OtelSpanStartArgs) (name : CString) (p : ResolvedParent)
    (d : StartDecision) (owner : Option ResourceOwner) :
    Within (OnSlot i (SpanPath env.maxSpanBytes extra sets))
      (openTakenSlot env i args name p d owner) := by
  have hmodify {f : St → St} (h : ∀ s, (f s).slots = s.slots ∧ (f s).nrecs = s.nrecs ∧
      (f s).dispatches = s.dispatches) :
      Within (OnSlot i (SpanPath env.maxSpanBytes extra sets)) (modify f : M PUnit) := onSlot_modify h
  have hspan (f : OtelSlot → OtelSpan) (h : ∀ slot, (f slot).droppedAttrs = slot.span.droppedAttrs) :
      Within (OnSlot i (SpanPath env.maxSpanBytes extra sets))
        (modifySlot i fun slot => { slot with span := f slot }) :=
    onSlot_modifySlot fun slot => .single (.span slot _ (h slot))
  have hinherit (id : OtelSpanId) (tracestate : Option CString) :
      Within (OnSlot i (SpanPath env.maxSpanBytes extra sets)) (inheritFrom env i id tracestate) :=
    .bind (hspan _ fun _ => rfl) fun _ => .bind (changes_copyField env _ _) fun _ =>
      hspan _ fun _ => rfl
  have hparent : Within (OnSlot i (SpanPath env.maxSpanBytes extra sets)) (fillParent env i p) := by
    unfold fillParent
    refine .bind within_get fun s => ?_
    cases p with
    | slot pidx => exact hinherit _ _
    | nrec pidx => exact within_pure _
    | remote ctx => exact hinherit _ _
    | none => exact within_pure _
  have hfill : Within (OnSlot i (SpanPath env.maxSpanBytes extra sets))
      (fillSpan env i args name p d) := by
    unfold fillSpan newSpanId timeOrNow getCurrentTimestamp
    refine .bind (onSlot_modifySlot fun slot => ?_) fun _ => .bind (onSlot_ask _) fun _ => ?_
    · exact .tail (.single (.setCap slot .attrs otelSlotInlineAttrs)) (.span _ _ rfl)
    refine .bind (hspan _ fun _ => rfl) fun _ => .bind hparent fun _ => ?_
    refine .bind (hspan _ fun _ => rfl) fun _ => .bind (changes_slotStrdup env _ _) fun _ => ?_
    exact .bind (.ite (onSlot_ask _) (within_pure _)) fun _ => hspan _ fun _ => rfl
  unfold openTakenSlot
  refine .bind (.bind within_get fun _ => .bind (hmodify fun _ => ⟨rfl, rfl, rfl⟩) fun _ =>
    within_pure _) fun g => ?_
  refine .bind within_get fun s => .bind (onSlot_modifySlot fun slot => .single (.life slot _)) fun _ => ?_
  refine .bind hfill fun _ => .bind (onSlot_runIf (hmodify fun _ => ⟨rfl, rfl, rfl⟩)) fun _ => ?_
  refine .bind ?_ fun _ => .bind (hmodify fun _ => ⟨rfl, rfl, rfl⟩) fun _ => within_pure _
  cases owner with
  | none => exact hmodify fun _ => ⟨rfl, rfl, rfl⟩
  | some owner => exact hmodify fun _ => ⟨rfl, rfl, rfl⟩

/-- The slot of a recording span that has just been started in a blank slot, under this limit of
`otel_api.max_span_bytes`. -/
def OpenedSlot (limit : ℕ) (slot : OtelSlot) : Prop :=
  ∃ (env : Env) (i : ℕ) (args : OtelSpanStartArgs) (name : CString) (p : ResolvedParent)
    (d : StartDecision) (owner : Option ResourceOwner) (s : St),
    env.maxSpanBytes = limit ∧ (s.slots i).Blank ∧
      (endState (openTakenSlot env i args name p d owner) s).slots i = slot

/-- Starting a span requests what it adds to the account, and sets no attribute. -/
theorem OpenedSlot.path {limit : ℕ} {slot : OtelSlot} (h : OpenedSlot limit slot) :
    ∃ slot₀ : OtelSlot, slot₀.Blank ∧ SpanPath limit False False slot₀ slot := by
  obtain ⟨env, i, args, name, p, d, owner, s, rfl, hblank, rfl⟩ := h
  exact ⟨s.slots i, hblank, (changes_openTakenSlot env args name p d owner s).endState.slot⟩

/-! ## The machine -/

/-- An operation on the span in its surroundings.  `around` is the producer's state at that moment, but
for the span's own slot. -/
structure SpanCall where
  env : Env
  around : St
  ref : OtelSpanRef
  op : SpanOp

namespace SpanCall

/-- The state in which the operation starts. -/
def before (call : SpanCall) (slot : OtelSlot) : St :=
  call.around.setSlot (refIdx call.ref) slot

def after (call : SpanCall) (slot : OtelSlot) : St :=
  endState (call.op.run call.env call.ref) (call.before slot)

/-- What becomes of the slot. -/
def next (call : SpanCall) (slot : OtelSlot) : OtelSlot := (call.after slot).slots (refIdx call.ref)

@[simp] theorem slots_before (call : SpanCall) (slot : OtelSlot) :
    (call.before slot).slots (refIdx call.ref) = slot := slots_setSlot ..

/-- The operation requests more in the span's memory context than it adds to its account. -/
def Uncharged (call : SpanCall) (slot : OtelSlot) : Prop :=
  call.op.Uncharged call.env call.ref (call.before slot)

/-- The operation is a set of a key that is there already, and the new value is refused. -/
def LosesAttr (call : SpanCall) (slot : OtelSlot) : Prop :=
  call.op.LosesAttr call.env call.ref (call.before slot)

instance (call : SpanCall) : DecidablePred call.Uncharged := fun _ =>
  inferInstanceAs (Decidable (call.op.Uncharged _ _ _))

instance (call : SpanCall) : DecidablePred call.LosesAttr := fun _ =>
  inferInstanceAs (Decidable (call.op.LosesAttr _ _ _))

theorem step (call : SpanCall) (slot : OtelSlot) :
    SlotStep call.env (call.Uncharged slot) call.ref call.op (call.before slot) (call.after slot) :=
  (span_cases call.env id).endState

end SpanCall

/-- The life of a span's slot under a limit, from a slot it was started in. -/
def spanRuns (limit : ℕ) (slot₀ : OtelSlot) : Machine OtelSlot SpanCall where
  init := slot₀
  enabled _ call := call.env.maxSpanBytes = limit
  next slot call := call.next slot

instance (limit : ℕ) (slot₀ slot : OtelSlot) (call : SpanCall) :
    Decidable ((spanRuns limit slot₀).enabled slot call) :=
  inferInstanceAs (Decidable (call.env.maxSpanBytes = limit))

/-- The slot of a span named "s" that has been started under the smallest limit. -/
def smallSpan : OtelSlot :=
  (endState (openTakenSlot { maxSpanBytes := 1024 } 0 { name := some (cstr "s") } (cstr "s") .none
    ⟨0, 0, .recordAndSample⟩ (some 0)) { slots := fun _ => {} }).slots 0

theorem smallSpan_opened : OpenedSlot 1024 smallSpan :=
  ⟨{ maxSpanBytes := 1024 }, 0, { name := some (cstr "s") }, cstr "s", .none, ⟨0, 0, .recordAndSample⟩,
    some 0, { slots := fun _ => {} }, rfl, rfl, rfl⟩

/-- An operation on that span; `fails` says which allocations fail. -/
def smallCall (op : SpanOp) (fails : ℕ → Bool) : SpanCall where
  env := { maxSpanBytes := 1024, allocFails := fails }
  around := { slots := fun _ => {}, slotsUsed := 1 }
  ref := makeRef 1 0 true
  op := op

end PostgresOtel
