import PostgresOtel.Producer.SpanLowering

/-!
# Operations that reach a span

A setter of the producer API that is let through works on the slot its handle names; the other
operations on a span are given the slot.  `SpanOp.wp_run` reduces all of them to what they do there.
-/

set_option autoImplicit false

namespace PostgresOtel

open Exec

variable (env : Env) {i : ℕ}

/-- The counts of attributes, events and links that were dropped. -/
def OtelApiCounters.drops (c : OtelApiCounters) : ℕ × ℕ × ℕ :=
  (c.attrDropped, c.eventDropped, c.linkDropped)

/-- Those of a span. -/
def OtelSpan.drops (span : OtelSpan) : ℕ × ℕ × ℕ :=
  (span.droppedAttrs, span.droppedEvents, span.droppedLinks)

/-- No drop has been counted, and no span that was started. -/
def SameDrops (c c' : OtelApiCounters) : Prop := c'.drops = c.drops ∧ c'.spansStarted = c.spansStarted

/-- A lookup counts no drops. -/
theorem wp_setterSlot_drops {ref : OtelSpanRef} {Q : Option ℕ → St → Prop} {E : Exn → St → Prop}
    {s : St} (hsome : env.Reaches ref s → Q (some (refIdx ref)) s)
    (hnone : ¬ env.Reaches ref s → ∀ c, SameDrops s.counters c → Q none { s with counters := c }) :
    Wp (setterSlot env ref) Q E s := by
  have hrefl : Std.Refl (fun s s' : St => SameDrops s.counters s'.counters) := ⟨fun _ => ⟨rfl, rfl⟩⟩
  have htrans : IsTrans St (fun s s' : St => SameDrops s.counters s'.counters) :=
    ⟨fun _ _ _ h h' => ⟨h'.1.trans h.1, h'.2.trans h.2⟩⟩
  have hcounter {f : St → St} (h : ∀ s, SameDrops s.counters (f s).counters) :
      Within (fun s s' : St => SameDrops s.counters s'.counters) (modify f : M PUnit) :=
    within_modify h
  have hdrops : Within (fun s s' : St => SameDrops s.counters s'.counters) (setterSlot env ref) := by
    unfold setterSlot callRefused slotForRef modifyCounters
    refine .bind (.bind within_get fun s => .ite (.bind (hcounter fun _ => ⟨rfl, rfl⟩) fun _ => ?_) ?_)
      fun _ => .ite (within_pure _) (.bind within_get fun s => .ite (within_pure _) ?_)
    · exact within_pure _
    · exact .ite (.bind (hcounter fun _ => ⟨rfl, rfl⟩) fun _ => within_pure _) (within_pure _)
    · exact .ite (within_pure _) (.bind (hcounter fun _ => ⟨rfl, rfl⟩) fun _ => within_pure _)
  have hcases : Wp (setterSlot env ref) (fun r s' => (env.Reaches ref s ∧ r = some (refIdx ref) ∧ s' = s) ∨
      (¬ env.Reaches ref s ∧ r = none ∧ ∃ c, s' = { s with counters := c })) (fun _ _ => False) s := by
    apply wp_setterSlot_cases
    · exact fun hreach => .inl ⟨hreach, rfl, rfl⟩
    · exact fun hnot c => .inr ⟨hnot, rfl, c, rfl⟩
  refine (hcases.and (hdrops s)).mono (fun r s' h => ?_) fun _ _ h => h.1.elim
  obtain ⟨⟨hreach, rfl, rfl⟩ | ⟨hnot, rfl, c, rfl⟩, hsame⟩ := h
  · exact hsome hreach
  · exact hnone hnot c hsame

/-- An operation that does not reach the span changes only statistics. -/
theorem SpanOp.wp_run {op : SpanOp} {ref : OtelSpanRef} {Q : Unit → St → Prop} {E : Exn → St → Prop}
    {s : St} (hskip : op.isSetter = true → ¬ env.Reaches ref s → ∀ c, SameDrops s.counters c →
      Q () { s with counters := c })
    (hbody : (op.isSetter = true → env.Reaches ref s) → Wp (op.body env (refIdx ref)) Q E s) :
    Wp (op.run env ref) Q E s := by
  cases hsetter : op.isSetter with
  | true =>
    rw [op.run_setter env ref hsetter, wp_bind]
    apply wp_setterSlot_drops
    · exact fun hreach => hbody fun _ => hreach
    · exact fun hnot c hc => hskip hsetter hnot c hc
  | false =>
    have hrun : op.run env ref = op.body env (refIdx ref) := by
      cases op with
      | capture | finish => rfl
      | _ => cases hsetter
    rw [hrun]
    exact hbody fun h => by simp [hsetter] at h

/-! ## A new span -/

/-- The span has the same data, but for what `api_span_start` fills in. -/
structure SameData (slot slot' : OtelSlot) : Prop where
  err : slot'.err = slot.err
  status : slot'.span.status = slot.span.status
  description : slot'.span.statusDescription = slot.span.statusDescription
  attrs : slot'.attrs = slot.attrs
  events : slot'.events = slot.events
  links : slot'.links = slot.links
  drops : slot'.span.drops = slot.span.drops

instance : Std.Refl SameData := ⟨fun _ => ⟨rfl, rfl, rfl, rfl, rfl, rfl, rfl⟩⟩

instance : IsTrans OtelSlot SameData := ⟨fun _ _ _ h h' =>
  ⟨h'.err.trans h.err, h'.status.trans h.status, h'.description.trans h.description,
    h'.attrs.trans h.attrs, h'.events.trans h.events, h'.links.trans h.links,
    h'.drops.trans h.drops⟩⟩

theorem sameData_openTakenSlot (args : OtelSpanStartArgs) (name : CString) (p : ResolvedParent)
    (d : StartDecision) (owner : Option ResourceOwner) :
    Within (OnSlot i SameData) (openTakenSlot env i args name p d owner) := by
  have hother {f : St → St} (h : ∀ s, (f s).slots = s.slots ∧ (f s).nrecs = s.nrecs ∧
      (f s).dispatches = s.dispatches) : Within (OnSlot i SameData) (modify f : M PUnit) :=
    onSlot_modify h
  have hslot {f : OtelSlot → OtelSlot} (h : ∀ slot, SameData slot (f slot)) :
      Within (OnSlot i SameData) (modifySlot i f) := onSlot_modifySlot h
  have hcopy (field : Option CString) (maxlen : Option ℕ) :
      Within (OnSlot i SameData) (copyField env i field maxlen) :=
    onSlot_copyField env field maxlen fun _ _ _ => ⟨rfl, rfl, rfl, rfl, rfl, rfl, rfl⟩
  have hinherit (id : OtelSpanId) (tracestate : Option CString) :
      Within (OnSlot i SameData) (inheritFrom env i id tracestate) :=
    .bind (hslot fun _ => ⟨rfl, rfl, rfl, rfl, rfl, rfl, rfl⟩) fun _ => .bind (hcopy _ _) fun _ =>
      hslot fun _ => ⟨rfl, rfl, rfl, rfl, rfl, rfl, rfl⟩
  have hparent : Within (OnSlot i SameData) (fillParent env i p) := by
    unfold fillParent
    refine .bind within_get fun s => ?_
    cases p with
    | slot pidx => exact hinherit _ _
    | nrec pidx => exact within_pure _
    | remote ctx => exact hinherit _ _
    | none => exact within_pure _
  have hfill : Within (OnSlot i SameData) (fillSpan env i args name p d) := by
    unfold fillSpan newSpanId timeOrNow getCurrentTimestamp
    refine .bind (hslot fun _ => ⟨rfl, rfl, rfl, rfl, rfl, rfl, rfl⟩) fun _ =>
      .bind (onSlot_ask _) fun _ => ?_
    refine .bind (hslot fun _ => ⟨rfl, rfl, rfl, rfl, rfl, rfl, rfl⟩) fun _ => .bind hparent fun _ => ?_
    refine .bind (hslot fun _ => ⟨rfl, rfl, rfl, rfl, rfl, rfl, rfl⟩) fun _ => .bind ?_ fun _ => ?_
    · exact onSlot_slotStrdup env _ _ fun _ _ _ => ⟨rfl, rfl, rfl, rfl, rfl, rfl, rfl⟩
    · exact .bind (.ite (onSlot_ask _) (within_pure _)) fun _ =>
        hslot fun _ => ⟨rfl, rfl, rfl, rfl, rfl, rfl, rfl⟩
  unfold openTakenSlot
  refine .bind (.bind within_get fun _ => .bind (hother fun _ => ⟨rfl, rfl, rfl⟩) fun _ =>
    within_pure _) fun g => .bind within_get fun s => ?_
  refine .bind (hslot fun _ => ⟨rfl, rfl, rfl, rfl, rfl, rfl, rfl⟩) fun _ => .bind hfill fun _ => ?_
  refine .bind (onSlot_runIf (hother fun _ => ⟨rfl, rfl, rfl⟩)) fun _ => .bind ?_ fun _ => ?_
  · cases owner with
    | none => exact hother fun _ => ⟨rfl, rfl, rfl⟩
    | some owner => exact hother fun _ => ⟨rfl, rfl, rfl⟩
  · exact .bind (hother fun _ => ⟨rfl, rfl, rfl⟩) fun _ => within_pure _

/-- Starting a span counts no drop. -/
theorem drops_openTakenSlot (args : OtelSpanStartArgs) (name : CString) (p : ResolvedParent)
    (d : StartDecision) (owner : Option ResourceOwner) :
    Within (fun s s' : St => s'.counters.drops = s.counters.drops)
      (openTakenSlot env i args name p d owner) := by
  have hrefl : Std.Refl (fun s s' : St => s'.counters.drops = s.counters.drops) := ⟨fun _ => rfl⟩
  have htrans : IsTrans St (fun s s' : St => s'.counters.drops = s.counters.drops) :=
    ⟨fun _ _ _ h h' => h'.trans h⟩
  have hmodify {f : St → St} (h : ∀ s, (f s).counters.drops = s.counters.drops) :
      Within (fun s s' : St => s'.counters.drops = s.counters.drops) (modify f : M PUnit) :=
    within_modify h
  have hslot (f : OtelSlot → OtelSlot) :
      Within (fun s s' : St => s'.counters.drops = s.counters.drops) (modifySlot i f) :=
    hmodify fun _ => rfl
  have hask {α : Type} (answer : ℕ → α) :
      Within (fun s s' : St => s'.counters.drops = s.counters.drops) (ask answer) :=
    .bind within_get fun _ => .bind (hmodify fun _ => rfl) fun _ => within_pure _
  have hstrdup (str : CString) (maxlen : Option ℕ) :
      Within (fun s s' : St => s'.counters.drops = s.counters.drops) (slotStrdup env i str maxlen) := by
    unfold slotStrdup allocNoOom
    refine .bind within_get fun _ => .ite (within_pure _) (.bind (hask _) fun _ => ?_)
    exact .ite (.bind (hslot _) fun _ => within_pure _) (within_pure _)
  have hcopy (field : Option CString) (maxlen : Option ℕ) :
      Within (fun s s' : St => s'.counters.drops = s.counters.drops) (copyField env i field maxlen) := by
    unfold copyField
    cases field with
    | none => exact within_pure _
    | some str => exact .bind (hstrdup _ _) fun _ => within_pure _
  have hinherit (id : OtelSpanId) (tracestate : Option CString) :
      Within (fun s s' : St => s'.counters.drops = s.counters.drops) (inheritFrom env i id tracestate) :=
    .bind (hslot _) fun _ => .bind (hcopy _ _) fun _ => hslot _
  have hparent : Within (fun s s' : St => s'.counters.drops = s.counters.drops) (fillParent env i p) := by
    unfold fillParent
    refine .bind within_get fun s => ?_
    cases p with
    | slot pidx => exact hinherit _ _
    | nrec pidx => exact within_pure _
    | remote ctx => exact hinherit _ _
    | none => exact within_pure _
  unfold openTakenSlot fillSpan newSpanId timeOrNow getCurrentTimestamp
  refine .bind (.bind within_get fun _ => .bind (hmodify fun _ => rfl) fun _ => within_pure _) fun g => ?_
  refine .bind within_get fun s => .bind (hslot _) fun _ => .bind ?_ fun _ => ?_
  · refine .bind (hslot _) fun _ => .bind (hask _) fun _ => .bind (hslot _) fun _ => ?_
    refine .bind hparent fun _ => .bind (hslot _) fun _ => .bind (hstrdup _ _) fun _ => ?_
    exact .bind (.ite (hask _) (within_pure _)) fun _ => hslot _
  · refine .bind (.ite (hmodify fun _ => rfl) (within_pure _)) fun _ => .bind ?_ fun _ => ?_
    · cases owner with
      | none => exact hmodify fun _ => rfl
      | some owner => exact hmodify fun _ => rfl
    · exact .bind (hmodify fun _ => rfl) fun _ => within_pure _

/-- A span that has just been started has no data. -/
theorem OpenedSlot.data {limit : ℕ} {slot : OtelSlot} (h : OpenedSlot limit slot) :
    SameData { slot with
      err := none, attrs := [], events := [], links := [], span := {} } slot := by
  obtain ⟨env, i, args, name, p, d, owner, s, -, hblank, rfl⟩ := h
  have hsame := (sameData_openTakenSlot env (i := i) args name p d owner s).endState.slot
  unfold OtelSlot.Blank at hblank
  rw [hblank] at hsame
  exact ⟨hsame.err, hsame.status, hsame.description, hsame.attrs, hsame.events, hsame.links, hsame.drops⟩

end PostgresOtel
