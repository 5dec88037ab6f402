import PostgresOtel.Producer.SpanRuns

/-!
# The attributes of a span

A record of the sets that went through, beside a run of operations on a span: for each key, the value
of the last one.  The attributes of the span are those of the record until a set of a key that is there
already has its new value refused; the attribute it then takes off is the last one, whatever its key.
-/

set_option autoImplicit false

namespace PostgresOtel

open Exec

/-- The value of the last accepted set of each key. -/
abbrev AttrLog := CString → Option OtelAttrValue

/-- No key is there twice, and every key has the value on record. -/
def OtelSlot.Attrs (slot : OtelSlot) (log : AttrLog) : Prop :=
  (slot.attrs.map OtelAttribute.key).Nodup ∧ ∀ key, slot.entries.lookup key = log key

namespace SpanCall

/-- The operation is a set that reaches the span. -/
def Sets (call : SpanCall) (slot : OtelSlot) : Prop :=
  call.env.Reaches call.ref (call.before slot) ∧
    (call.op.written call.env (call.before slot).tick).isSome = true

instance (call : SpanCall) (slot : OtelSlot) : Decidable (call.Sets slot) :=
  inferInstanceAs (Decidable (_ ∧ _))

/-- The operation is a set that reaches the span and is refused: it counts a dropped attribute. -/
def Refused (call : SpanCall) (slot : OtelSlot) : Prop :=
  call.Sets slot ∧ (call.next slot).span.droppedAttrs ≠ slot.span.droppedAttrs

instance (call : SpanCall) (slot : OtelSlot) : Decidable (call.Refused slot) :=
  inferInstanceAs (Decidable (_ ∧ _))

/-- The record after the operation. -/
def note (call : SpanCall) (slot : OtelSlot) (log : AttrLog) : AttrLog :=
  if call.Sets slot ∧ ¬ call.Refused slot then
    (call.op.written call.env (call.before slot).tick).elim log fun entry =>
      Function.update log entry.1 (some entry.2)
  else log

end SpanCall

/-- A run of operations on a span, with the record of accepted sets beside it. -/
def attrRuns (limit : ℕ) (slot₀ : OtelSlot) : Machine (OtelSlot × AttrLog) SpanCall :=
  (spanRuns limit slot₀).extend (fun _ => none) some (fun _ _ => True) fun p call => call.note p.1 p.2

instance (limit : ℕ) (slot₀ : OtelSlot) (p : OtelSlot × AttrLog) (call : SpanCall) :
    Decidable ((attrRuns limit slot₀).enabled p call) :=
  decidable_of_iff (call.env.maxSpanBytes = limit) (by simp [attrRuns, Machine.extend, spanRuns])

/-! ## One operation -/

theorem SpanChange.attrs_eq {limit : ℕ} {extra : Prop} {slot slot' : OtelSlot}
    (h : SpanChange limit extra False slot slot') : slot'.attrs = slot.attrs ∧
      slot'.span.droppedAttrs = slot.span.droppedAttrs := by
  cases h with
  | setCap arr cap => cases arr <;> exact ⟨rfl, rfl⟩
  | attrs _ h => exact h.elim
  | dropAttr h => exact h.elim
  | span span h => exact ⟨rfl, h⟩
  | request | release | life | err | events | links => exact ⟨rfl, rfl⟩

theorem SpanPath.attrs_eq {limit : ℕ} {extra : Prop} {slot slot' : OtelSlot}
    (h : SpanPath limit extra False slot slot') : slot'.attrs = slot.attrs ∧
      slot'.span.droppedAttrs = slot.span.droppedAttrs :=
  h.invariant (I := fun slot' => slot'.attrs = slot.attrs ∧
      slot'.span.droppedAttrs = slot.span.droppedAttrs)
    (fun _ _ hsame hchange => ⟨hchange.attrs_eq.1.trans hsame.1, hchange.attrs_eq.2.trans hsame.2⟩)
    ⟨rfl, rfl⟩

/-- What an operation does to the attributes, and to the count of dropped ones. -/
inductive AttrStep (call : SpanCall) (slot slot' : OtelSlot) : Prop
  | other : ¬ call.Sets slot → ¬ call.LosesAttr slot → slot'.attrs = slot.attrs →
      AttrStep call slot slot'
  | puts (key : CString) (v : OtelAttrValue) : call.Sets slot → ¬ call.Refused slot →
      ¬ call.LosesAttr slot → call.op.written call.env (call.before slot).tick = some (key, v) →
      slot'.entries = Upsert.put key v slot.entries → AttrStep call slot slot'
  | refused : call.Refused slot → ¬ call.LosesAttr slot → slot'.attrs = slot.attrs →
      AttrStep call slot slot'
  | lost (key : CString) : call.Refused slot → call.LosesAttr slot → slot.Holds key →
      slot'.attrs = slot.attrs.dropLast → AttrStep call slot slot'

theorem SpanCall.LosesAttr.sets {call : SpanCall} {slot : OtelSlot} (h : call.LosesAttr slot) :
    call.Sets slot ∧ ∃ key, slot.Holds key := by
  have hbefore := slots_before call slot
  obtain ⟨env, around, ref, op⟩ := call
  cases op with
  | setStr key val =>
    cases val with
    | none => exact h.elim
    | some val => exact ⟨⟨h.1, rfl⟩, key, hbefore ▸ h.2.1⟩
  | setVprintf key formatted => exact ⟨⟨h.1, rfl⟩, key, hbefore ▸ h.2.1⟩
  | setInt | setDouble | setBool | setName | setStatus | addEvent | addLink | recordError
  | captureError | capture | finish => exact h.elim

theorem SpanCall.attrStep (call : SpanCall) (slot : OtelSlot) :
    AttrStep call slot (call.next slot) := by
  have hbefore := slots_before call slot
  have hdropped {attrs : List OtelAttribute} (h : Drops call.env (call.Uncharged slot) (refIdx call.ref)
      attrs (call.before slot) (call.after slot)) :
      (call.next slot).span.droppedAttrs ≠ slot.span.droppedAttrs := by
    have hcount := congrArg OtelSpan.droppedAttrs h.span
    rw [hbefore] at hcount
    exact fun hsame => absurd (hcount.symm.trans hsame) (Nat.succ_ne_self _)
  cases call.step slot with
  | other hnot hpath =>
    obtain ⟨hattrs, -⟩ := hpath.slot.attrs_eq
    rw [hbefore] at hattrs
    exact .other hnot (fun hlose => hnot hlose.sets.1) hattrs
  | puts key v hreach hwritten hlose h =>
    have hentries := h.entries
    have hkept := congrArg OtelSpan.droppedAttrs h.span
    rw [hbefore] at hentries hkept
    exact .puts key v ⟨hreach, by rw [hwritten]; rfl⟩ (fun hr => hr.2 hkept) hlose hwritten hentries
  | refused key v hreach hwritten hlose h =>
    have hattrs := h.attrs
    rw [hbefore] at hattrs
    exact .refused ⟨⟨hreach, by rw [hwritten]; rfl⟩, hdropped h⟩ hlose hattrs
  | lost key v hreach hwritten hlose h =>
    have hlose' : call.LosesAttr slot := hlose
    have hattrs := h.attrs
    rw [hbefore] at hattrs
    obtain ⟨hsets, key, hholds⟩ := hlose'.sets
    exact .lost key ⟨hsets, hdropped h⟩ hlose hholds hattrs

/-! ## Runs -/

variable {slot : OtelSlot} {log : AttrLog}

theorem SpanCall.note_of_not_sets {call : SpanCall} (h : ¬ call.Sets slot) :
    call.note slot log = log := if_neg fun hs => h hs.1

theorem SpanCall.note_of_refused {call : SpanCall} (h : call.Refused slot) :
    call.note slot log = log := if_neg fun hs => hs.2 h

theorem SpanCall.note_of_written {call : SpanCall} {key : CString} {v : OtelAttrValue}
    (hsets : call.Sets slot) (hnot : ¬ call.Refused slot)
    (h : call.op.written call.env (call.before slot).tick = some (key, v)) :
    call.note slot log = Function.update log key (some v) := by
  rw [SpanCall.note, if_pos ⟨hsets, hnot⟩, h]
  rfl

theorem OtelSlot.Attrs.congr {slot' : OtelSlot} (h : slot.Attrs log) (hattrs : slot'.attrs = slot.attrs) :
    slot'.Attrs log := by
  unfold OtelSlot.Attrs OtelSlot.entries at h ⊢
  rwa [hattrs]

theorem OtelSlot.Attrs.put {slot' : OtelSlot} {key : CString} {v : OtelAttrValue} (h : slot.Attrs log)
    (hentries : slot'.entries = Upsert.put key v slot.entries) :
    slot'.Attrs (Function.update log key (some v)) := by
  refine ⟨?_, fun k => ?_⟩
  · rw [← keys_entries, hentries]
    exact Upsert.nodup_put (by rw [keys_entries]; exact h.1)
  · rw [hentries, Upsert.lookup_put]
    by_cases hk : k = key
    · subst hk
      simp
    · simp [hk, h.2 k]

/-- Without its last attribute the span no longer has what is on record. -/
theorem OtelSlot.Attrs.not_dropLast {slot' : OtelSlot} {key : CString} (h : slot.Attrs log)
    (hholds : slot.Holds key) (hattrs : slot'.attrs = slot.attrs.dropLast) : ¬ slot'.Attrs log := by
  intro h'
  obtain ⟨rest, a, hlast⟩ : ∃ rest a, slot.attrs = rest ++ [a] := by
    refine (List.eq_nil_or_concat' slot.attrs).resolve_left fun hnil => ?_
    simp [OtelSlot.Holds, hnil] at hholds
  have hrest : slot'.entries = rest.map OtelAttribute.entry := by
    rw [OtelSlot.entries, hattrs, hlast, List.dropLast_concat]
  have hnot : a.key ∉ (rest.map OtelAttribute.entry).map Prod.fst := by
    have hnodup := h.1
    rw [hlast, List.map_append, List.nodup_append] at hnodup
    intro hmem
    refine hnodup.2.2 a.key ?_ a.key (by simp) rfl
    simpa [Function.comp_def, OtelAttribute.entry] using hmem
  have hput : slot.entries = Upsert.put a.key a.v (rest.map OtelAttribute.entry) := by
    rw [Upsert.put_of_not_mem hnot, OtelSlot.entries, hlast, List.map_append]
    rfl
  have hbefore := h.2 a.key
  rw [hput, Upsert.lookup_put, if_pos (beq_self_eq_true _)] at hbefore
  have hafter := h'.2 a.key
  rw [← hbefore, hrest] at hafter
  obtain ⟨l₁, l₂, hsplit, -⟩ := List.lookup_eq_some_iff.1 hafter
  exact hnot (by simp [hsplit])

/-- Only a refused new value for a key that is there already makes a difference. -/
theorem SpanCall.attrs_iff (call : SpanCall) (h : slot.Attrs log) :
    (call.next slot).Attrs (call.note slot log) ↔ ¬ call.LosesAttr slot := by
  cases call.attrStep slot with
  | other hnot hlose hattrs =>
    rw [SpanCall.note_of_not_sets hnot]
    exact ⟨fun _ => hlose, fun _ => h.congr hattrs⟩
  | puts key v hsets hnot hlose hwritten hentries =>
    rw [SpanCall.note_of_written hsets hnot hwritten]
    exact ⟨fun _ => hlose, fun _ => h.put hentries⟩
  | refused hrefused hlose hattrs =>
    rw [SpanCall.note_of_refused hrefused]
    exact ⟨fun _ => hlose, fun _ => h.congr hattrs⟩
  | lost key hrefused hlose hholds hattrs =>
    rw [SpanCall.note_of_refused hrefused]
    exact ⟨fun h' => absurd h' (h.not_dropLast hholds hattrs), fun hnot => absurd hlose hnot⟩

theorem OpenedSlot.attrs {limit : ℕ} (h : OpenedSlot limit slot) : slot.Attrs fun _ => none := by
  obtain ⟨slot₀, hblank, hpath⟩ := h.path
  have hnil : slot.attrs = [] := by
    rw [hpath.attrs_eq.1, hblank]
  simp [OtelSlot.Attrs, OtelSlot.entries, hnil]

/-- In every run without such a set, the span has the record's attributes, the next operation keeps it
so exactly if it is none either, and a refused set changes no attribute. -/
theorem attrs_last_accepted {limit : ℕ} {slot₀ : OtelSlot} (hopen : OpenedSlot limit slot₀)
    {p : OtelSlot × AttrLog}
    (hp : (attrRuns limit slot₀).ReachBy (fun p call => ¬ call.LosesAttr p.1) p) :
    p.1.Attrs p.2 ∧
      (∀ call : SpanCall, (call.next p.1).Attrs (call.note p.1 p.2) ↔ ¬ call.LosesAttr p.1) ∧
      ∀ call : SpanCall, call.Refused p.1 → ¬ call.LosesAttr p.1 →
        (call.next p.1).attrs = p.1.attrs := by
  have hattrs : p.1.Attrs p.2 :=
    hp.invariant (I := fun p => p.1.Attrs p.2) hopen.attrs fun p call hI _ hok =>
      (call.attrs_iff hI).2 hok
  refine ⟨hattrs, fun call => call.attrs_iff hattrs, fun call hrefused hnot => ?_⟩
  cases call.attrStep p.1 with
  | other hno => exact absurd hrefused.1 hno
  | puts _ _ _ hno => exact absurd hrefused hno
  | refused _ _ h => exact h
  | lost _ _ hlose => exact absurd hlose hnot

/-- An attribute is set twice, and another one once where there is no memory for its key. -/
def repeatedSets : List SpanCall :=
  [smallCall (.setInt (cstr "a") 1) fun _ => false,
    smallCall (.setStr (cstr "b") (some (cstr "text"))) fun _ => true,
    smallCall (.setBool (cstr "a") true) fun _ => false]

theorem attrs_last_accepted_repeated :
    (repeatedSets.foldl (attrRuns 1024 smallSpan).next (smallSpan, fun _ => none)).1.Attrs
      (repeatedSets.foldl (attrRuns 1024 smallSpan).next (smallSpan, fun _ => none)).2 :=
  (attrs_last_accepted smallSpan_opened (Machine.ReachBy.run .init (by decide +kernel))).1

/-- Two attributes are set, and then the first again, where there is no memory for its new value. -/
def refusedOverwrite : List SpanCall :=
  [smallCall (.setStr (cstr "a") (some (cstr "1"))) fun _ => false,
    smallCall (.setStr (cstr "b") (some (cstr "2"))) fun _ => false,
    smallCall (.setStr (cstr "a") (some (cstr "3"))) fun _ => true]

/-- It is the second attribute that is gone. -/
theorem refused_overwrite_drops_last : ¬ (∀ limit slot₀ p, OpenedSlot limit slot₀ →
    (attrRuns limit slot₀).Reachable p → p.1.Attrs p.2) := by
  intro hclaim
  have hrun : (attrRuns 1024 smallSpan).Reachable
      (refusedOverwrite.foldl (attrRuns 1024 smallSpan).next (smallSpan, fun _ => none)) :=
    Machine.ReachBy.run .init (by decide +kernel)
  have hgone : (refusedOverwrite.foldl (attrRuns 1024 smallSpan).next
      (smallSpan, fun _ => none)).1.entries.lookup (cstr "b") = none := by decide +kernel
  have hset : (refusedOverwrite.foldl (attrRuns 1024 smallSpan).next
      (smallSpan, fun _ => none)).2 (cstr "b") = some (.string (some (cstr "2"))) := by decide +kernel
  have hlast := (hclaim 1024 smallSpan _ smallSpan_opened hrun).2 (cstr "b")
  rw [hgone, hset] at hlast
  cases hlast

end PostgresOtel
