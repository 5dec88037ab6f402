import Mathlib.Data.List.TakeWhile
import PostgresOtel.Client.Spans

/-!
# The active stack as clients see it

The open spans together with the producer's active stack, whose items are spans that were started on
it and activations of detached spans.  A span that leaves the stack below others takes them along:
`stack_unwind_above` ends the spans and pops the activations.  `misused` lists the handles that a
call named although the span was not open and had not been released in an abort.
-/

set_option autoImplicit false

namespace PostgresOtel

/-- An entry of `span_stack` with its `span_stack_meta`. -/
structure ActiveItem where
  ref : OtelSpanRef
  isActivation : Bool
  nestLevel : ℕ
  deriving DecidableEq

/-- The spans of a backend, the active stack from the top, and the counters of what left it from
below others. -/
structure ActiveSpans where
  spans : Spans := {}
  active : List ActiveItem := []
  nonLifoEnd : ℕ := 0
  activationUnwound : ℕ := 0
  misused : List OtelSpanRef := []
  deriving DecidableEq

namespace ActiveSpans

variable (a : ActiveSpans)

/-- `otel_span_start`, when it opens a span that a resource owner gets. -/
def start (nestLevel : ℕ) (detached : Bool) : ActiveSpans :=
  { a with
    spans := a.spans.start false nestLevel detached
    active := if detached then a.active
      else ⟨spanHandle a.spans.count, false, nestLevel⟩ :: a.active }

/-- `stack_find`. -/
def OnStack (ref : OtelSpanRef) : Prop := ref ∈ a.active.map ActiveItem.ref

instance (ref : OtelSpanRef) : Decidable (a.OnStack ref) := inferInstanceAs (Decidable (_ ∈ _))

/-- What is above the span, if it is on the stack. -/
def above (ref : OtelSpanRef) : List ActiveItem :=
  if a.OnStack ref then a.active.takeWhile fun i => i.ref ≠ ref else []

/-- `stack_unwind_above` ends this span. -/
def unwinds (ref x : OtelSpanRef) : Bool :=
  (a.above ref).any fun i => decide (i.ref = x) && !i.isActivation

/-- `stack_unwind_above`, and the item itself is popped. -/
def popItem (ref : OtelSpanRef) : ActiveSpans :=
  if a.OnStack ref then
    { a with
      spans := a.spans.close (fun o => a.unwinds ref o.ref) .unwound
      active := (a.active.dropWhile fun i => i.ref ≠ ref).tail
      nonLifoEnd := a.nonLifoEnd + if a.above ref = [] then 0 else 1
      activationUnwound := a.activationUnwound + (a.above ref).countP ActiveItem.isActivation }
  else a

/-- The handle is fit for a call: null, or of a span that is open or was released in an abort. -/
def Usable (ref : OtelSpanRef) : Prop :=
  ref.v = 0 ∨ a.spans.IsOpen ref ∨ (ref, SpanEnd.released) ∈ a.spans.log

instance (ref : OtelSpanRef) : Decidable (a.Usable ref) := inferInstanceAs (Decidable (_ ∨ _))

/-- A call names the span. -/
def touch (ref : OtelSpanRef) : ActiveSpans :=
  if a.Usable ref then a else { a with misused := ref :: a.misused }

/-- `end_slot` or `free_nrec`, once the span is off the stack. -/
def endSpan (ref : OtelSpanRef) : ActiveSpans :=
  { a with spans := a.spans.close (fun o => decide (o.ref = ref)) .ended }

/-- `otel_span_end`. -/
def finish (ref : OtelSpanRef) : ActiveSpans :=
  if a.spans.IsOpen ref then ((a.touch ref).popItem ref).endSpan ref else a.touch ref

/-- `otel_span_activate` of a detached span; `room` says that the stack is not full. -/
def activate (ref : OtelSpanRef) (nestLevel : ℕ) (room : Bool) : ActiveSpans × OtelSpanRef :=
  if a.spans.IsOpen ref ∧ ¬a.OnStack ref ∧ room then
    ({ a.touch ref with active := ⟨ref, true, nestLevel⟩ :: a.active }, ref)
  else (a.touch ref, ⟨0⟩)

/-- `otel_span_deactivate`. -/
def deactivate (act : OtelSpanRef) : ActiveSpans :=
  if a.spans.IsOpen act then a.popItem act else a

/-- The resource owners of these spans are released. -/
def release (owned : OtelSpanRef → Bool) (how : SpanEnd) : ActiveSpans :=
  { a with
    spans := a.spans.close (fun o => owned o.ref) how
    active := a.active.filter fun i => !owned i.ref }

/-- `drop_activations_from_level`. -/
def dropActivations (nestLevel : ℕ) : ActiveSpans :=
  { a with active := a.active.filter fun i => !(i.isActivation && decide (nestLevel ≤ i.nestLevel)) }

end ActiveSpans

/-! ## Closing spans by their handles -/

namespace Spans

variable {s : Spans} {q : OtelSpanRef → Bool} {how : SpanEnd} {ref : OtelSpanRef}

theorem isOpen_close : (s.close (fun o => q o.ref) how).IsOpen ref ↔ s.IsOpen ref ∧ q ref = false := by
  simp only [IsOpen, close, List.mem_map, List.mem_filter, Bool.not_eq_true']
  constructor
  · rintro ⟨o, ⟨ho, hq⟩, rfl⟩
    exact ⟨⟨o, ho, rfl⟩, hq⟩
  · rintro ⟨⟨o, ho, rfl⟩, hq⟩
    exact ⟨o, ⟨ho, hq⟩, rfl⟩

theorem mem_log_close {x : OtelSpanRef × SpanEnd} : x ∈ (s.close (fun o => q o.ref) how).log ↔
    x ∈ s.log ∨ (s.IsOpen x.1 ∧ q x.1 = true ∧ x.2 = how) := by
  simp only [IsOpen, close, List.mem_append, List.mem_map, List.mem_filter]
  apply or_congr_right
  constructor
  · rintro ⟨o, ⟨ho, hq⟩, rfl⟩
    exact ⟨⟨o, ho, rfl⟩, hq, rfl⟩
  · rintro ⟨⟨o, ho, hoq⟩, hq, rfl⟩
    exact ⟨o, ⟨ho, hoq ▸ hq⟩, by rw [hoq]⟩

theorem isOpen_start {level : ℕ} {detached : Bool} :
    (s.start false level detached).IsOpen ref ↔ ref = spanHandle s.count ∨ s.IsOpen ref := by
  simp [IsOpen, start]

/-- A handle that was given out. -/
def Started (s : Spans) (ref : OtelSpanRef) : Prop := ∃ n < s.count, ref = spanHandle n

theorem Started.mono {s' : Spans} (h : s.Started ref) (hle : s.count ≤ s'.count) : s'.Started ref := by
  obtain ⟨n, hn, rfl⟩ := h
  exact ⟨n, Nat.lt_of_lt_of_le hn hle, rfl⟩

theorem Tally.started (h : s.Tally) (ho : s.IsOpen ref) : s.Started ref := by
  obtain ⟨n, hn, rfl⟩ := List.mem_map.1 (h.mem_iff.1 (List.mem_append_left _ ho))
  exact ⟨n, List.mem_range.1 hn, rfl⟩

theorem Tally.started_of_log (h : s.Tally) {x : OtelSpanRef × SpanEnd} (hx : x ∈ s.log) :
    s.Started x.1 := by
  obtain ⟨n, hn, heq⟩ :=
    List.mem_map.1 (h.mem_iff.1 (List.mem_append_right _ (List.mem_map_of_mem hx)))
  exact ⟨n, List.mem_range.1 hn, heq.symm⟩

theorem Started.ne_zero (h : s.Started ref) : ref.v ≠ 0 := by
  obtain ⟨n, -, rfl⟩ := h
  exact spanHandle_ne_zero n

/-- The next handle has not been given out. -/
theorem not_started_next : ¬s.Started (spanHandle s.count) := by
  rintro ⟨n, hn, heq⟩
  rw [spanHandle_injective heq] at hn
  exact absurd hn (Nat.lt_irrefl _)

end Spans

namespace ActiveSpans

variable {a : ActiveSpans} {ref : OtelSpanRef}

/-! ## Calls that name a span -/

@[simp] theorem touch_spans : (a.touch ref).spans = a.spans := by
  unfold touch
  split_ifs <;> rfl

@[simp] theorem touch_active : (a.touch ref).active = a.active := by
  unfold touch
  split_ifs <;> rfl

@[simp] theorem touch_nonLifoEnd : (a.touch ref).nonLifoEnd = a.nonLifoEnd := by
  unfold touch
  split_ifs <;> rfl

@[simp] theorem touch_activationUnwound : (a.touch ref).activationUnwound = a.activationUnwound := by
  unfold touch
  split_ifs <;> rfl

theorem touch_usable (h : a.Usable ref) : a.touch ref = a := if_pos h

/-! ## What is above a span -/

theorem above_congr {a' : ActiveSpans} (h : a'.active = a.active) : a'.above ref = a.above ref := by
  cases a
  cases a'
  subst h
  rfl

theorem above_of_not_onStack (h : ¬a.OnStack ref) : a.above ref = [] := if_neg h

/-- Nothing is above the top, nor above what is not on the stack. -/
theorem above_eq_nil_iff : a.above ref = [] ↔ ∀ i ∈ a.active.head?, a.OnStack ref → i.ref = ref := by
  by_cases hon : a.OnStack ref
  · rw [above, if_pos hon]
    simp only [hon, true_imp_iff]
    cases hactive : a.active with
    | nil => simp
    | cons i rest => by_cases hi : i.ref = ref <;> simp [hi]
  · simp [above, hon]

/-- A span on the stack parts it. -/
theorem split_onStack (h : a.OnStack ref) : ∃ i rest, a.active = a.above ref ++ i :: rest ∧
    i.ref = ref ∧ (a.active.dropWhile fun i => i.ref ≠ ref).tail = rest := by
  rw [above, if_pos h]
  obtain ⟨i, hi, href⟩ := List.mem_map.1 h
  have hne : (a.active.dropWhile fun i => i.ref ≠ ref) ≠ [] := by
    intro hnil
    have hall := List.dropWhile_eq_nil_iff.1 hnil i hi
    exact of_decide_eq_true hall href
  obtain ⟨j, rest, hdrop⟩ := List.exists_cons_of_ne_nil hne
  have hhead := List.head?_dropWhile_not (fun i : ActiveItem => decide (i.ref ≠ ref)) a.active
  refine ⟨j, rest, ?_, ?_, by rw [hdrop]; rfl⟩
  · rw [← hdrop, List.takeWhile_append_dropWhile]
  · rw [hdrop] at hhead
    simpa using hhead

theorem above_subset (ref : OtelSpanRef) : a.above ref ⊆ a.active := by
  unfold above
  split_ifs
  · exact (List.takeWhile_prefix _).subset
  · exact List.nil_subset _

/-- A pop ends what it unwinds. -/
theorem popItem_spans : (a.popItem ref).spans =
    a.spans.close (fun o => a.unwinds ref o.ref) .unwound := by
  by_cases hon : a.OnStack ref
  · rw [popItem, if_pos hon]
  · rw [popItem, if_neg hon, Spans.close_none fun o _ => ?_]
    rw [unwinds, above_of_not_onStack hon]
    rfl

@[simp] theorem popItem_count : (a.popItem ref).spans.count = a.spans.count := by
  rw [popItem_spans]
  rfl

@[simp] theorem popItem_misused : (a.popItem ref).misused = a.misused := by
  unfold popItem
  split_ifs <;> rfl

/-! ## The active stack lists open spans -/

/-- Every span left or is open, and the active stack has open spans, each once. -/
structure Ok (a : ActiveSpans) : Prop where
  tally : a.spans.Tally
  once : (a.active.map ActiveItem.ref).Nodup
  opened : ∀ i ∈ a.active, a.spans.IsOpen i.ref

namespace Ok

theorem init : Ok {} := ⟨Spans.tally_init, List.nodup_nil, fun _ h => absurd h List.not_mem_nil⟩

theorem start (h : a.Ok) (nestLevel : ℕ) (detached : Bool) : (a.start nestLevel detached).Ok := by
  refine ⟨h.tally.start _ _ _, ?_, ?_⟩
  · cases detached with
    | true => exact h.once
    | false =>
      refine List.nodup_cons.2 ⟨fun hm => ?_, h.once⟩
      obtain ⟨i, hi, href⟩ := List.mem_map.1 hm
      exact Spans.not_started_next (href ▸ h.tally.started (h.opened i hi))
  · cases detached with
    | true => exact fun i hi => Spans.isOpen_start.2 (.inr (h.opened i hi))
    | false =>
      exact List.forall_mem_cons.2 ⟨Spans.isOpen_start.2 (.inl rfl),
        fun i hi => Spans.isOpen_start.2 (.inr (h.opened i hi))⟩

theorem touch (h : a.Ok) (ref : OtelSpanRef) : (a.touch ref).Ok := by
  refine ⟨?_, ?_, ?_⟩
  · rw [touch_spans]
    exact h.tally
  · rw [touch_active]
    exact h.once
  · rw [touch_spans, touch_active]
    exact h.opened

/-- What stays on the stack below a span that leaves. -/
theorem popItem_below (h : a.Ok) {i : ActiveItem} (hon : a.OnStack ref)
    (hi : i ∈ (a.popItem ref).active) :
    i ∈ a.active ∧ i.ref ≠ ref ∧ ∀ j ∈ a.above ref, j.ref ≠ i.ref := by
  obtain ⟨k, rest, hsplit, href, htail⟩ := split_onStack hon
  have hrest : i ∈ rest := by
    rw [popItem, if_pos hon] at hi
    exact htail ▸ hi
  have hnd := h.once
  rw [hsplit, List.map_append, List.map_cons, href] at hnd
  obtain ⟨-, hbelow, hdisj⟩ := List.nodup_append.1 hnd
  refine ⟨?_, fun heq => ?_, fun j hj heq => ?_⟩
  · rw [hsplit]
    exact List.mem_append_right _ (List.mem_cons_of_mem _ hrest)
  · exact (List.nodup_cons.1 hbelow).1 (heq ▸ List.mem_map_of_mem hrest)
  · refine hdisj _ (List.mem_map_of_mem hj) _ (List.mem_cons_of_mem _ ?_) heq
    exact List.mem_map_of_mem hrest

theorem popItem (h : a.Ok) (ref : OtelSpanRef) : (a.popItem ref).Ok := by
  by_cases hon : a.OnStack ref
  · refine ⟨popItem_spans ▸ h.tally.close _ _, ?_, fun i hi => ?_⟩
    · rw [ActiveSpans.popItem, if_pos hon]
      refine h.once.sublist (List.Sublist.map _ ?_)
      exact (List.tail_sublist _).trans (List.dropWhile_sublist _)
    · obtain ⟨hin, -, hne⟩ := h.popItem_below hon hi
      rw [popItem_spans]
      apply Spans.isOpen_close.2
      refine ⟨h.opened i hin, List.any_eq_false.2 fun j hj => ?_⟩
      simp [hne j hj]
  · rwa [ActiveSpans.popItem, if_neg hon]

theorem finish (h : a.Ok) (ref : OtelSpanRef) : (a.finish ref).Ok := by
  have ht := h.touch ref
  unfold ActiveSpans.finish
  split_ifs with ho
  · have hp := ht.popItem ref
    refine ⟨hp.tally.close _ _, hp.once, fun i hi => ?_⟩
    change i ∈ ((a.touch ref).popItem ref).active at hi
    apply (Spans.isOpen_close (q := fun x => decide (x = ref))).2
    refine ⟨hp.opened i hi, decide_eq_false ?_⟩
    by_cases hon : (a.touch ref).OnStack ref
    · exact (ht.popItem_below hon hi).2.1
    · rw [ActiveSpans.popItem, if_neg hon] at hi
      exact fun heq => hon (List.mem_map.2 ⟨i, hi, heq⟩)
  · exact ht

theorem activate (h : a.Ok) (ref : OtelSpanRef) (nestLevel : ℕ) (room : Bool) :
    (a.activate ref nestLevel room).1.Ok := by
  have ht := h.touch ref
  unfold ActiveSpans.activate
  split_ifs with ho
  · refine ⟨ht.tally, List.nodup_cons.2 ⟨ho.2.1, h.once⟩, ?_⟩
    simpa using And.intro ho.1 h.opened
  · exact ht

theorem deactivate (h : a.Ok) (act : OtelSpanRef) : (a.deactivate act).Ok := by
  unfold ActiveSpans.deactivate
  split_ifs
  · exact h.popItem act
  · exact h

theorem release (h : a.Ok) (owned : OtelSpanRef → Bool) (how : SpanEnd) :
    (a.release owned how).Ok := by
  refine ⟨h.tally.close _ _, h.once.sublist (List.filter_sublist.map _), fun i hi => ?_⟩
  obtain ⟨hin, hkeep⟩ := List.mem_filter.1 hi
  exact Spans.isOpen_close.2 ⟨h.opened i hin, by simpa using hkeep⟩

theorem dropActivations (h : a.Ok) (nestLevel : ℕ) : (a.dropActivations nestLevel).Ok :=
  ⟨h.tally, h.once.sublist (List.filter_sublist.map _),
    fun i hi => h.opened i (List.mem_of_mem_filter hi)⟩

end Ok

/-! ## Steps that put nothing on the active stack -/

structure Settles (a a' : ActiveSpans) : Prop where
  ok : a.Ok → a'.Ok
  count : a.spans.count ≤ a'.spans.count
  active : a'.active.Sublist a.active

namespace Settles

variable {a' b : ActiveSpans}

theorem refl : Settles a a := ⟨id, Nat.le_refl _, List.Sublist.refl _⟩

theorem trans (h : Settles a a') (h' : Settles a' b) : Settles a b :=
  ⟨fun hok => h'.ok (h.ok hok), h.count.trans h'.count, h'.active.trans h.active⟩

theorem touch (ref : OtelSpanRef) : Settles a (a.touch ref) :=
  ⟨fun h => h.touch ref, by rw [touch_spans], by rw [touch_active]⟩

theorem startDetached (nestLevel : ℕ) : Settles a (a.start nestLevel true) :=
  ⟨fun h => h.start nestLevel true, Nat.le_succ _, List.Sublist.refl _⟩

theorem popItem (ref : OtelSpanRef) : Settles a (a.popItem ref) := by
  by_cases hon : a.OnStack ref
  · refine ⟨fun h => h.popItem ref, ?_, ?_⟩
    · rw [ActiveSpans.popItem, if_pos hon]
      exact Nat.le_refl _
    · rw [ActiveSpans.popItem, if_pos hon]
      exact (List.tail_sublist _).trans (List.dropWhile_sublist _)
  · rw [ActiveSpans.popItem, if_neg hon]
    exact refl

theorem finish (ref : OtelSpanRef) : Settles a (a.finish ref) := by
  have hpop := (touch ref).trans (popItem (a := a.touch ref) ref)
  refine ⟨fun h => h.finish ref, ?_, ?_⟩
  · unfold ActiveSpans.finish
    split_ifs
    · exact hpop.count
    · exact (touch ref).count
  · unfold ActiveSpans.finish
    split_ifs
    · exact hpop.active
    · exact (touch ref).active

theorem deactivate (act : OtelSpanRef) : Settles a (a.deactivate act) := by
  unfold ActiveSpans.deactivate
  split_ifs
  · exact popItem act
  · exact refl

theorem release (owned : OtelSpanRef → Bool) (how : SpanEnd) : Settles a (a.release owned how) :=
  ⟨fun h => h.release owned how, Nat.le_refl _, List.filter_sublist⟩

theorem dropActivations (nestLevel : ℕ) : Settles a (a.dropActivations nestLevel) :=
  ⟨fun h => h.dropActivations nestLevel, Nat.le_refl _, List.filter_sublist⟩

theorem foldl {f : ActiveSpans → OtelSpanRef → ActiveSpans} (hf : ∀ a ref, Settles a (f a ref))
    (refs : List OtelSpanRef) : Settles a (refs.foldl f a) := by
  induction refs generalizing a with
  | nil => exact refl
  | cons ref refs ih => exact (hf a ref).trans ih

end Settles

/-! ## Ends in order -/

/-- Of the spans there were, those with these handles end, and nothing else happens to them or to the
active stack. -/
structure Ends (a a' : ActiveSpans) (refs : List OtelSpanRef) : Prop where
  ok : a'.Ok
  count : a.spans.count ≤ a'.spans.count
  isOpen : ∀ ref, a.spans.Started ref →
    (a'.spans.IsOpen ref ↔ a.spans.IsOpen ref ∧ ref ∉ refs)
  log : ∀ x : OtelSpanRef × SpanEnd, a.spans.Started x.1 →
    (x ∈ a'.spans.log ↔ x ∈ a.spans.log ∨ (a.spans.IsOpen x.1 ∧ x.1 ∈ refs ∧ x.2 = .ended))
  others : ∀ x ∈ a'.spans.log, x ∈ a.spans.log ∨ x.2 = .ended
  active : a'.active = a.active.filter fun i => decide (i.ref ∉ refs)
  nonLifoEnd : a'.nonLifoEnd = a.nonLifoEnd
  activationUnwound : a'.activationUnwound = a.activationUnwound

namespace Ends

variable {a' b : ActiveSpans} {refs refs' : List OtelSpanRef}

theorem touch (h : a.Ok) (ref : OtelSpanRef) : Ends a (a.touch ref) [] where
  ok := h.touch ref
  count := by rw [touch_spans]
  isOpen := by simp
  log := by simp
  others x hx := .inl (touch_spans (a := a) ▸ hx)
  active := by simp
  nonLifoEnd := touch_nonLifoEnd
  activationUnwound := touch_activationUnwound

theorem trans (h : Ends a a' refs) (h' : Ends a' b refs') : Ends a b (refs ++ refs') where
  ok := h'.ok
  count := h.count.trans h'.count
  isOpen ref hs := by
    rw [h'.isOpen ref (hs.mono h.count), h.isOpen ref hs, List.mem_append]
    tauto
  log x hs := by
    rw [h'.log x (hs.mono h.count), h.log x hs, h.isOpen x.1 hs, List.mem_append]
    tauto
  others x hx := (h'.others x hx).elim (h.others x) .inr
  active := by
    rw [h'.active, h.active, List.filter_filter]
    refine List.filter_congr fun i _ => ?_
    simp [Bool.and_comm]
  nonLifoEnd := h'.nonLifoEnd.trans h.nonLifoEnd
  activationUnwound := h'.activationUnwound.trans h.activationUnwound

/-- Handles that had not been given out do not matter. -/
theorem forget {ref : OtelSpanRef} (h : Ends a a' [ref]) (hok : a.Ok) (hnew : ¬a.spans.Started ref) :
    Ends a a' [] := by
  have hne : ∀ x, a.spans.Started x → x ≠ ref := fun x hs heq => hnew (heq ▸ hs)
  refine ⟨h.ok, h.count, fun x hs => ?_, fun x hs => ?_, h.others, ?_, h.nonLifoEnd,
    h.activationUnwound⟩
  · simp [h.isOpen x hs, hne x hs]
  · simp [h.log x hs, hne x.1 hs]
  · rw [h.active]
    refine List.filter_congr fun i hi => ?_
    simp [hne _ (hok.tally.started (hok.opened i hi))]

/-- A detached span is started. -/
theorem startDetached (h : a.Ok) (nestLevel : ℕ) : Ends a (a.start nestLevel true) [] where
  ok := h.start nestLevel true
  count := Nat.le_succ _
  isOpen ref hs := by
    have hne : ref ≠ spanHandle a.spans.count := fun heq => Spans.not_started_next (heq ▸ hs)
    simp [ActiveSpans.start, Spans.isOpen_start, hne]
  log x _ := by simp [ActiveSpans.start, Spans.start]
  others x hx := .inl hx
  active := by simp [ActiveSpans.start]
  nonLifoEnd := rfl
  activationUnwound := rfl

/-- Other handles stay fit for a call. -/
theorem usable (h : Ends a a' refs) (hok : a.Ok) {ref : OtelSpanRef} (hu : a.Usable ref)
    (hnot : ref ∉ refs) : a'.Usable ref := by
  rcases hu with hnull | hopen | hlog
  · exact .inl hnull
  · exact .inr (.inl ((h.isOpen ref (hok.tally.started hopen)).2 ⟨hopen, hnot⟩))
  · exact .inr (.inr ((h.log _ (hok.tally.started_of_log hlog)).2 (.inl hlog)))

end Ends

/-- With nothing above it, a span leaves the stack alone. -/
theorem popItem_alone (hok : a.Ok) (h : a.above ref = []) : a.popItem ref =
    { a with active := a.active.filter fun i => decide (i.ref ∉ [ref]) } := by
  by_cases hon : a.OnStack ref
  · obtain ⟨i, rest, hsplit, href, htail⟩ := split_onStack hon
    rw [h, List.nil_append] at hsplit
    have hnone : a.spans.close (fun o => a.unwinds ref o.ref) .unwound = a.spans := by
      refine Spans.close_none fun o _ => ?_
      rw [unwinds, h]
      rfl
    have hrest : rest = a.active.filter fun i => decide (i.ref ∉ [ref]) := by
      have hnd := hok.once
      rw [hsplit, List.map_cons, href] at hnd
      rw [hsplit, List.filter_cons_of_neg (by simp [href])]
      refine (List.filter_eq_self.2 fun j hj => ?_).symm
      simpa using fun heq => (List.nodup_cons.1 hnd).1 (List.mem_map.2 ⟨j, hj, heq⟩)
    rw [popItem, if_pos hon, hnone, htail, h, hrest]
    rfl
  · have hall : (a.active.filter fun i => decide (i.ref ∉ [ref])) = a.active := by
      refine List.filter_eq_self.2 fun j hj => ?_
      simpa using fun heq => hon (List.mem_map.2 ⟨j, hj, heq⟩)
    rw [popItem, if_neg hon, hall]

/-- A span that is ended with nothing above it ends, if it is open, and no other. -/
theorem finish_alone (hok : a.Ok) (h : a.above ref = []) : Ends a (a.finish ref) [ref] := by
  by_cases ho : a.spans.IsOpen ref
  · have htouch : (a.touch ref).above ref = [] := (above_congr touch_active).trans h
    have hfinish : a.finish ref = { a.touch ref with
        spans := a.spans.close (fun o => decide (o.ref = ref)) .ended
        active := a.active.filter fun i => decide (i.ref ∉ [ref]) } := by
      rw [finish, if_pos ho, popItem_alone (hok.touch ref) htouch, endSpan, touch_spans, touch_active]
    have hlog := fun x => @Spans.mem_log_close a.spans (fun y => decide (y = ref)) .ended x
    refine ⟨hok.finish ref, ?_, fun y _ => ?_, fun x _ => ?_, fun x hx => ?_, ?_, ?_, ?_⟩
    · rw [hfinish]
      exact Nat.le_refl _
    · rw [hfinish]
      refine (Spans.isOpen_close (q := fun y => decide (y = ref))).trans ?_
      simp
    · rw [hfinish]
      refine (hlog x).trans ?_
      simp
    · rw [hfinish] at hx
      exact ((hlog x).1 hx).imp_right fun h => h.2.2
    · rw [hfinish]
    · rw [hfinish]
      exact touch_nonLifoEnd
    · rw [hfinish]
      exact touch_activationUnwound
  · have hends := Ends.touch hok ref
    rw [finish, if_neg ho]
    refine ⟨hends.ok, hends.count, fun y hs => ?_, fun x hs => ?_, hends.others, ?_, hends.nonLifoEnd,
      hends.activationUnwound⟩
    · rw [touch_spans, List.mem_singleton]
      exact ⟨fun hy => ⟨hy, fun heq => ho (heq ▸ hy)⟩, And.left⟩
    · rw [touch_spans, List.mem_singleton]
      exact ⟨.inl, fun hx => hx.elim id fun ⟨hopen, heq, _⟩ => absurd (heq ▸ hopen) ho⟩
    · rw [touch_active]
      refine (List.filter_eq_self.2 fun i hi => ?_).symm
      simpa using fun heq : i.ref = ref => ho (heq ▸ hok.opened i hi)

/-- So is an activation popped. -/
theorem deactivate_alone {act : OtelSpanRef} (hok : a.Ok) (h : a.above act = []) :
    a.deactivate act = { a with active := a.active.filter fun i => decide (i.ref ∉ [act]) } := by
  unfold deactivate
  split_ifs with ho
  · exact popItem_alone hok h
  · have hall : (a.active.filter fun i => decide (i.ref ∉ [act])) = a.active := by
      refine List.filter_eq_self.2 fun i hi => ?_
      simpa using fun heq : i.ref = act => ho (heq ▸ hok.opened i hi)
    rw [hall]

end ActiveSpans

end PostgresOtel
