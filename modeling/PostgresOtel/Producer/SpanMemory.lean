import PostgresOtel.Producer.SpanRuns

/-!
# The memory of a span

The account of a span against `otel_api.max_span_bytes` and against what has been requested in its
memory context.
-/

set_option autoImplicit false

namespace PostgresOtel

open Exec

/-- The account covers what has been requested, and always has. -/
structure OtelSlot.Covered (slot : OtelSlot) : Prop where
  requested_le : slot.requested ≤ slot.bytes
  not_overdrawn : slot.overdrawn = false

instance (slot : OtelSlot) : Decidable slot.Covered :=
  decidable_of_iff (slot.requested ≤ slot.bytes ∧ slot.overdrawn = false)
    ⟨fun h => ⟨h.1, h.2⟩, fun h => ⟨h.1, h.2⟩⟩

variable {limit : ℕ} {extra sets : Prop} {slot slot' : OtelSlot}

/-! ## One change -/

theorem SpanChange.bytes_le (h : SpanChange limit extra sets slot slot') (hle : slot.bytes ≤ limit) :
    slot'.bytes ≤ limit := by
  cases h with
  | request size charge hcharge _ =>
    show slot.bytes + charge ≤ limit
    omega
  | setCap arr cap => cases arr <;> exact hle
  | release | life | attrs | dropAttr | span | err | events | links => exact hle

theorem SpanChange.covered (h : SpanChange limit False sets slot slot') (hslot : slot.Covered) :
    slot'.Covered := by
  obtain ⟨hle, hover⟩ := hslot
  cases h with
  | request size charge _ hsize =>
    have hsame : size = charge := hsize.resolve_right id
    refine ⟨?_, ?_⟩
    · show slot.requested + size ≤ slot.bytes + charge
      omega
    · show (slot.overdrawn || decide (slot.bytes + charge < slot.requested + size)) = false
      rw [hover, Bool.false_or, decide_eq_false_iff_not]
      omega
  | release size =>
    refine ⟨?_, hover⟩
    show slot.requested - size ≤ slot.bytes
    omega
  | setCap arr cap => cases arr <;> exact ⟨hle, hover⟩
  | life | attrs | dropAttr | span | err | events | links => exact ⟨hle, hover⟩

/-! ## Paths of changes -/

theorem SpanPath.bytes_le (h : SpanPath limit extra sets slot slot') (hle : slot.bytes ≤ limit) :
    slot'.bytes ≤ limit :=
  h.invariant (I := fun slot => slot.bytes ≤ limit) (fun _ _ hle hchange => hchange.bytes_le hle) hle

theorem SpanPath.covered (h : SpanPath limit False sets slot slot') (hslot : slot.Covered) :
    slot'.Covered :=
  h.invariant (fun _ _ hslot hchange => hchange.covered hslot) hslot

theorem SpanChange.allow (h : SpanChange limit extra False slot slot') :
    SpanChange limit extra sets slot slot' := by
  cases h with
  | request size charge hcharge hsize => exact .request slot size charge hcharge hsize
  | release size => exact .release slot size
  | setCap arr cap => exact .setCap slot arr cap
  | attrs _ h => exact h.elim
  | dropAttr h => exact h.elim
  | span span h => exact .span slot span h
  | life life => exact .life slot life
  | err err => exact .err slot err
  | events events => exact .events slot events
  | links links => exact .links slot links

/-- Every operation is a path of changes. -/
theorem SlotStep.path {env : Env} {ref : OtelSpanRef} {op : SpanOp} {s s' : St}
    (h : SlotStep env extra ref op s s') :
    SpanPath env.maxSpanBytes extra True (s.slots (refIdx ref)) (s'.slots (refIdx ref)) := by
  cases h with
  | other _ hpath => exact hpath.slot.lift id fun _ _ h => h.allow
  | puts _ _ _ _ _ h => exact h.path.slot
  | refused _ _ _ _ _ h => exact h.path.slot
  | lost _ _ _ _ _ h => exact h.path.slot

theorem SpanCall.path (call : SpanCall) (slot : OtelSlot) :
    SpanPath call.env.maxSpanBytes (call.Uncharged slot) True slot (call.next slot) := by
  have hpath := (call.step slot).path
  rwa [slots_before] at hpath

/-! ## Runs -/

theorem OpenedSlot.bytes_le (h : OpenedSlot limit slot) : slot.bytes ≤ limit := by
  obtain ⟨slot₀, hblank, hpath⟩ := h.path
  refine hpath.bytes_le ?_
  rw [hblank]
  exact Nat.zero_le limit

theorem OpenedSlot.covered (h : OpenedSlot limit slot) : slot.Covered := by
  obtain ⟨slot₀, hblank, hpath⟩ := h.path
  refine hpath.covered ?_
  rw [hblank]
  exact ⟨Nat.le_refl 0, rfl⟩

/-- The account never exceeds the limit.  It covers what has been requested, so that this does not
exceed the limit either, so long as no operation requests more than it adds to the account. -/
theorem span_memory {slot₀ : OtelSlot} (hopen : OpenedSlot limit slot₀) :
    (∀ slot, (spanRuns limit slot₀).Reachable slot → slot.bytes ≤ limit) ∧
      ∀ slot, (spanRuns limit slot₀).ReachBy (fun slot call => ¬ call.Uncharged slot) slot →
        slot.Covered ∧ slot.requested ≤ limit := by
  have hbytes (slot : OtelSlot) (h : (spanRuns limit slot₀).Reachable slot) : slot.bytes ≤ limit := by
    refine h.invariant (I := fun slot => slot.bytes ≤ limit) hopen.bytes_le
      fun slot call hle hlimit => ?_
    obtain rfl : call.env.maxSpanBytes = limit := hlimit
    exact (call.path slot).bytes_le hle
  refine ⟨hbytes, fun slot hslot => ?_⟩
  have hcovered : slot.Covered := by
    refine hslot.invariant hopen.covered fun slot call hcovered _ hok => ?_
    have hpath := call.path slot
    rw [eq_false hok] at hpath
    exact hpath.covered hcovered
  exact ⟨hcovered, hcovered.requested_le.trans (hbytes slot hslot.reachable)⟩

/-- A span that has attributes of every kind and an event, and is ended. -/
def modestCalls : List SpanCall :=
  [.setStr (cstr "k") (some (cstr "v")), .setVprintf (cstr "f") (cstr "text"), .setInt (cstr "k") 1,
    .addEvent (some (cstr "e")) 0 [⟨cstr "a", .bool true⟩], .setStatus .ok none,
    .finish 5 false none].map fun op => smallCall op fun _ => false

theorem span_memory_modest :
    (modestCalls.foldl (spanRuns 1024 smallSpan).next smallSpan).bytes ≤ 1024 ∧
      (modestCalls.foldl (spanRuns 1024 smallSpan).next smallSpan).Covered ∧
        (modestCalls.foldl (spanRuns 1024 smallSpan).next smallSpan).requested ≤ 1024 := by
  have hrun : (spanRuns 1024 smallSpan).ReachBy (fun slot call => ¬ call.Uncharged slot)
      (modestCalls.foldl (spanRuns 1024 smallSpan).next smallSpan) :=
    Machine.ReachBy.run .init (by decide +kernel)
  exact ⟨(span_memory smallSpan_opened).1 _ hrun.reachable, (span_memory smallSpan_opened).2 _ hrun⟩

/-- One long value and twelve numbers: the thirteenth attribute takes the array out of the slot. -/
def spillingCalls : List SpanCall :=
  (.setStr (cstr "a") (some (List.replicate 600 97)) ::
    (List.range 12).map fun n => .setInt [UInt8.ofNat (98 + n)] 0).map fun op =>
      smallCall op fun _ => false

/-- The account then covers only half of the new array, and more than the limit has been requested. -/
theorem spilled_array_undercharged : ¬ (∀ limit slot₀ slot, OpenedSlot limit slot₀ →
    (spanRuns limit slot₀).Reachable slot →
      slot.bytes ≤ limit ∧ slot.requested ≤ slot.bytes ∧ slot.requested ≤ limit) := by
  intro hclaim
  have hrun : (spanRuns 1024 smallSpan).Reachable
      (spillingCalls.foldl (spanRuns 1024 smallSpan).next smallSpan) :=
    Machine.ReachBy.run .init (by decide +kernel)
  have hbytes : (spillingCalls.foldl (spanRuns 1024 smallSpan).next smallSpan).bytes = 917 := by
    decide +kernel
  have hrequested :
      (spillingCalls.foldl (spanRuns 1024 smallSpan).next smallSpan).requested = 1205 := by
    decide +kernel
  have hle := (hclaim 1024 smallSpan _ smallSpan_opened hrun).2.1
  omega

end PostgresOtel
