import PostgresOtel.Parallel.Slot
import PostgresOtel.Trace.Comment

/-!
# The context published for parallel workers

`start_stmt_span` publishes the context of the new span; `finalize_stmt_span` publishes the statement
now on top of the statement stack again, or clears the slot.  The callbacks at the end of a
transaction or subtransaction and the error path of `otel_ProcessUtility` drop entries too, but leave
the slot as it is.
-/

set_option autoImplicit false

namespace PostgresOtel

open KeyedStack TracingSt TraceSt

/-! ## The slot -/

/-- The backend's slot in shared memory, if it is set, and the statement spans: those that are open,
with their contexts, and all handles given out for them. -/
structure LeaderSt where
  slot : Option OtelSpanContext := none
  spans : List (OtelSpanRef × OtelSpanContext) := []
  given : List OtelSpanRef := []

namespace LeaderSt

variable (l : LeaderSt)

/-- `otel_span_context_of` for the handle of a statement span. -/
def contextOf (ref : OtelSpanRef) : Option OtelSpanContext :=
  (l.spans.find? fun span => span.1 = ref).map Prod.snd

/-- `otel_span_end`. -/
def spanEnd (ref : OtelSpanRef) : LeaderSt :=
  if ref.v = 0 then l else { l with spans := l.spans.filter fun span => span.1 ≠ ref }

/-- `publish_leader_context`. -/
def publishLeaderContext (ref : OtelSpanRef) : LeaderSt :=
  if ref.v = 0 then l
  else (l.contextOf ref).elim l fun ctx =>
    { l with slot := otelParallelPublishLeaderContext (some ctx) }

/-- `restore_leader_context`. -/
def restoreLeaderContext (stmtStack : List StmtSpanEntry) : LeaderSt :=
  stmtStack.head?.elim { l with slot := otelParallelPublishLeaderContext none } fun e =>
    l.publishLeaderContext e.ref

/-- `start_stmt_span`, with the handle and the context of the span that was started. -/
def startStmtSpan (ref : OtelSpanRef) (ctx : OtelSpanContext) : LeaderSt :=
  if ref.v = 0 then l
  else { l with spans := (ref, ctx) :: l.spans, given := ref :: l.given }.publishLeaderContext ref

/-- `finalize_stmt_span`. -/
def finalizeStmtSpan (ref : OtelSpanRef) (stmtStack : List StmtSpanEntry) : LeaderSt :=
  if ref.v = 0 then l else (l.spanEnd ref).restoreLeaderContext stmtStack

end LeaderSt

/-! ## Runs -/

/-- A step of the backend, with the context of the span it starts, or the producer ends spans on its
own: their resource owner was released, or they were unwound. -/
inductive LeaderAct
  | hook (a : TracingAct) (ctx : OtelSpanContext)
  | producerEnds (refs : List OtelSpanRef)

def LeaderAct.hook? : LeaderAct → Option TracingAct
  | .hook a _ => some a
  | .producerEnds _ => none

/-- The handle of the span that a step starts for a statement. -/
def TracingAct.startRef : TracingAct → OtelSpanRef
  | .executorStart _ _ ref => ref
  | .utilityBegin _ true ref => ref
  | _ => otelSpanNone

/-- The handle of a new span is new, and its context is valid. -/
def LeaderAct.NewSpan (s : TracingSt × LeaderSt) : LeaderAct → Prop
  | .hook a ctx => a.startRef.v ≠ 0 → a.startRef ∉ s.2.given ∧ otelSpanContextIsValid ctx = true
  | .producerEnds _ => True

/-- What the hooks do to the slot in a step. -/
def LeaderSt.hook (s : TracingSt) (l : LeaderSt) (a : TracingAct) (ctx : OtelSpanContext) :
    LeaderSt :=
  match s.starts a with
  | some p =>
    -- a full statement stack ends the span at once
    let full := (s.trace.pushStmtSpan p a.startRef false s.currentLevel).2
    (l.startStmtSpan a.startRef ctx).spanEnd full
  | none => l.finalizeStmtSpan (s.popped a) (s.next a).trace.stmtStack

def LeaderAct.update (s : TracingSt × LeaderSt) : LeaderAct → LeaderSt
  | .hook a ctx => s.2.hook s.1 a ctx
  | .producerEnds refs => { s.2 with spans := s.2.spans.filter fun span => span.1 ∉ refs }

/-- The backend with its slot. -/
def leader : Machine (TracingSt × LeaderSt) LeaderAct :=
  tracing.extend {} LeaderAct.hook? LeaderAct.NewSpan LeaderAct.update

/-! ## The published context -/

/-- The statement was started most recently of those on the statement stack whose span is open. -/
def LeaderSt.current (l : LeaderSt) (stmtStack : List StmtSpanEntry) : Option StmtSpanEntry :=
  stmtStack.find? fun e => (l.contextOf e.ref).isSome

/-- The slot has the context of that statement's span, and is clear if there is none. -/
def LeaderSt.Publishes (l : LeaderSt) (stmtStack : List StmtSpanEntry) : Prop :=
  l.slot = ((l.current stmtStack).bind fun e => l.contextOf e.ref).map fun ctx =>
    { ctx with tracestate := none }

/-- The error ends no call that has the entry, and the level that is aborted, if any, is that of a
subtransaction begun after the entry's. -/
def TracingSt.Spares (s : TracingSt) (e : StmtSpanEntry) : TracingAct → Prop
  | .abort unwound _ => e ∈ (s.caught unwound).stmtStack ∧ 1 < s.levels.length ∧
      e.subxactLevel.level < s.levels.length
  | .errorWhenAborted unwound => e ∈ (s.caught unwound).stmtStack
  | _ => True

/-- The steps after which the slot is right.  A statement with a span starts while there is room on
the statement stack.  An error and an abort spare the entry of the published span, and nobody else
ends this span.  When its statement ends, the span of the entry below it is open. -/
def KeepsPublished (s : TracingSt × LeaderSt) : LeaderAct → Prop
  | .hook a _ =>
    (a.startRef.v ≠ 0 → s.1.trace.stmtStack.length < otelStmtStackMax) ∧
    ∀ e ∈ s.2.current s.1.trace.stmtStack, s.1.Spares e a ∧
      ∀ p ∈ s.1.completes a, KeyedStack.find StmtSpanEntry.key p s.1.trace.stmtStack = some e →
        ∀ e' ∈ (KeyedStack.remove StmtSpanEntry.key p s.1.trace.stmtStack).head?,
          (s.2.contextOf e'.ref).isSome = true
  | .producerEnds refs => ∀ e ∈ s.2.current s.1.trace.stmtStack, e.ref ∉ refs

/-! ## Statements and their spans -/

/-- What is found stays found while other entries go. -/
theorem find?_of_sublist {α : Type} {p : α → Bool} {l l' : List α} (hs : l'.Sublist l)
    (hnd : l.Nodup) {x : α} (hfind : l.find? p = some x) (hx : x ∈ l') : l'.find? p = some x := by
  obtain ⟨hpx, before, after, rfl, hbefore⟩ := List.find?_eq_some_iff_append.1 hfind
  obtain ⟨l₁, l₂, rfl, h₁, h₂⟩ := List.sublist_append_iff.1 hs
  obtain ⟨-, hnd, hdisj⟩ := List.nodup_append.1 hnd
  have hx₂ : x ∈ l₂ := by
    refine (List.mem_append.1 hx).resolve_left fun hx₁ => ?_
    exact hdisj x (h₁.subset hx₁) x List.mem_cons_self rfl
  rcases List.sublist_cons_iff.1 h₂ with h₂ | ⟨l₃, rfl, -⟩
  · exact absurd (h₂.subset hx₂) (List.nodup_cons.1 hnd).1
  · refine List.find?_eq_some_iff_append.2 ⟨hpx, l₁, l₃, rfl, fun a ha => hbefore a (h₁.subset ha)⟩

/-- The spans of the entries on the statement stack are different, and those that are open have valid
contexts. -/
structure SpansOk (s : TracingSt × LeaderSt) : Prop where
  once : (s.1.trace.stmtStack.map StmtSpanEntry.ref).Nodup
  entries : ∀ e ∈ s.1.trace.stmtStack, e.ref.v ≠ 0 ∧ e.ref ∈ s.2.given
  spans : ∀ span ∈ s.2.spans, span.1 ∈ s.2.given ∧ otelSpanContextIsValid span.2 = true

/-- The statement stack after a statement has started. -/
theorem stmtStack_starts {s : TracingSt} {a : TracingAct} {p : Ptr} (h : s.starts a = some p) :
    ∃ detached, (s.next a).trace.stmtStack = if s.trace.pushesStmt a.startRef then
      ⟨p, a.startRef, s.currentLevel, detached⟩ :: s.trace.stmtStack else s.trace.stmtStack := by
  cases a with
  | executorStart addr isCursor ref =>
    obtain rfl := Option.some.inj h
    exact ⟨isCursor, pushStmtSpan_stack _ _ _ _ _⟩
  | utilityBegin addr toplevel ref =>
    cases toplevel with
    | true =>
      obtain rfl := Option.some.inj h
      exact ⟨false, pushStmtSpan_stack _ _ _ _ _⟩
    | false => cases h
  | _ => cases h

/-- The statement stack after a statement has ended normally. -/
theorem stmtStack_completes {s : TracingSt} {a : TracingAct} {p : Ptr}
    (h : s.completes a = some p) : (s.next a).trace.stmtStack =
      KeyedStack.remove StmtSpanEntry.key p s.trace.stmtStack := by
  cases a with
  | executorEnd query planspans =>
    obtain rfl := Option.some.inj h
    exact nodeEnds_stmtStack planspans _ _
  | utilityEnd =>
    cases hframes : s.frames with
    | nil => simp [completes, hframes] at h
    | cons f rest =>
      have htoken : f.token = some p := by simpa [completes, hframes] using h
      simp only [next, hframes, catchError_stmtStack, htoken]
      rfl
  | _ => cases h

/-- Other steps take entries from the statement stack, and leave those they spare. -/
theorem stmtStack_other {s : TracingSt} {a : TracingAct} (hen : a.Enabled s)
    (hstart : s.starts a = none) (hcomp : s.completes a = none) :
    (s.next a).trace.stmtStack.Sublist s.trace.stmtStack ∧
      ∀ e ∈ s.trace.stmtStack, s.Spares e a → e ∈ (s.next a).trace.stmtStack := by
  have hsame (h : (s.next a).trace.stmtStack = s.trace.stmtStack) :
      (s.next a).trace.stmtStack.Sublist s.trace.stmtStack ∧
        ∀ e ∈ s.trace.stmtStack, s.Spares e a → e ∈ (s.next a).trace.stmtStack :=
    ⟨h ▸ List.Sublist.refl _, fun e he _ => h ▸ he⟩
  cases a with
  | begin => exact hsame rfl
  | savepoint => exact hsame rfl
  | release =>
    obtain ⟨top, parent, rest, hlevels, -⟩ := hen
    refine hsame ?_
    simp only [next, hlevels]
    rw [otelPgtracingSubxactCallback_other _ (by decide)]
  | commit prepare => cases prepare <;> exact hsame rfl
  | abort unwound dead =>
    obtain ⟨⟨top, rest, hlevels, -⟩, -⟩ := hen
    have hsub : (s.caught unwound).stmtStack.Sublist s.trace.stmtStack := caught_sublist _ _
    simp only [next, hlevels]
    split_ifs with hrest
    · refine ⟨List.nil_sublist _, fun e _ hspares => ?_⟩
      have hlen := hspares.2.1
      simp only [hlevels, List.isEmpty_iff.1 hrest, List.length_singleton] at hlen
      omega
    · rw [otelPgtracingSubxactCallback_abortSub]
      refine ⟨List.filter_sublist.trans hsub, fun e _ hspares => ?_⟩
      exact List.mem_filter.2 ⟨hspares.1, decide_eq_true hspares.2.2⟩
  | cleanup => exact hsame rfl
  | executorStart addr isCursor ref => cases hstart
  | nodeBegin query addr tag planspans fdw => exact hsame (nodeBegin_stmtStack _ _ _ _ _)
  | nodeEnd query node => exact hsame rfl
  | executorEnd query planspans => cases hcomp
  | runBegin query => exact hsame rfl
  | runEnd => exact hsame rfl
  | utilityBegin addr toplevel ref =>
    cases toplevel with
    | true => cases hstart
    | false => exact hsame rfl
  | utilityEnd =>
    obtain ⟨token, toplevel, sub, rest, hframes⟩ := hen
    refine hsame ?_
    have htoken : (CallFrame.utility token toplevel sub).token = none := by
      simpa [completes, hframes] using hcomp
    simp only [next, hframes, catchError_stmtStack, htoken]
    rfl
  | errorWhenAborted unwound => exact ⟨caught_sublist _ _, fun e _ hspares => hspares⟩

/-! ## What the functions do to the slot -/

namespace LeaderSt

variable {l : LeaderSt}

/-- Some spans end. -/
theorem contextOf_filter (l : LeaderSt) (keep : OtelSpanRef → Bool) (ref : OtelSpanRef) :
    ({ l with spans := l.spans.filter fun span => keep span.1 } : LeaderSt).contextOf ref =
      if keep ref then l.contextOf ref else none := by
  have hfind : (l.spans.filter fun span => keep span.1).find? (fun span => span.1 = ref) =
      if keep ref then l.spans.find? fun span => span.1 = ref else none := by
    rw [List.find?_filter]
    split_ifs with hkeep
    · congr 1
      funext span
      by_cases h : span.1 = ref <;> simp [h, hkeep]
    · refine List.find?_eq_none.2 fun span _ h => hkeep ?_
      obtain ⟨hk, hr⟩ := of_decide_eq_true h
      rwa [of_decide_eq_true hr] at hk
  simp only [contextOf, hfind]
  split_ifs <;> rfl

theorem contextOf_spanEnd {ref : OtelSpanRef} (hv : ref.v ≠ 0) (ref' : OtelSpanRef) :
    (l.spanEnd ref).contextOf ref' = if ref' = ref then none else l.contextOf ref' := by
  rw [spanEnd, if_neg hv, contextOf_filter l (fun r => decide (r ≠ ref))]
  by_cases h : ref' = ref <;> simp [h]

theorem spanEnd_spans (l : LeaderSt) (ref : OtelSpanRef) :
    (l.spanEnd ref).spans.Sublist l.spans ∧ (l.spanEnd ref).given = l.given := by
  unfold spanEnd
  split_ifs
  · exact ⟨List.Sublist.refl _, rfl⟩
  · exact ⟨List.filter_sublist, rfl⟩

theorem publishLeaderContext_spans (l : LeaderSt) (ref : OtelSpanRef) :
    (l.publishLeaderContext ref).spans = l.spans ∧
      (l.publishLeaderContext ref).given = l.given := by
  unfold publishLeaderContext
  split_ifs
  · exact ⟨rfl, rfl⟩
  · cases l.contextOf ref <;> exact ⟨rfl, rfl⟩

theorem restoreLeaderContext_spans (l : LeaderSt) (stack : List StmtSpanEntry) :
    (l.restoreLeaderContext stack).spans = l.spans ∧
      (l.restoreLeaderContext stack).given = l.given := by
  cases stack with
  | nil => exact ⟨rfl, rfl⟩
  | cons e stack => exact l.publishLeaderContext_spans e.ref

theorem finalizeStmtSpan_spans (l : LeaderSt) (ref : OtelSpanRef) (stack : List StmtSpanEntry) :
    (l.finalizeStmtSpan ref stack).spans.Sublist l.spans ∧
      (l.finalizeStmtSpan ref stack).given = l.given := by
  unfold finalizeStmtSpan
  split_ifs
  · exact ⟨List.Sublist.refl _, rfl⟩
  · obtain ⟨hspans, hgiven⟩ := (l.spanEnd ref).restoreLeaderContext_spans stack
    rw [hspans, hgiven]
    exact l.spanEnd_spans ref

theorem startStmtSpan_spans {ref : OtelSpanRef} (hv : ref.v ≠ 0) (ctx : OtelSpanContext) :
    (l.startStmtSpan ref ctx).spans = (ref, ctx) :: l.spans ∧
      (l.startStmtSpan ref ctx).given = ref :: l.given := by
  rw [startStmtSpan, if_neg hv]
  exact publishLeaderContext_spans _ ref

/-- Whether the slot is right depends on the slot and the open spans only. -/
theorem publishes_congr {l' : LeaderSt} (hspans : l'.spans = l.spans) (stack : List StmtSpanEntry) :
    l'.Publishes stack ↔ l'.slot = ((l.current stack).bind fun e => l.contextOf e.ref).map
      fun ctx => { ctx with tracestate := none } := by
  unfold Publishes current contextOf
  rw [hspans]

/-- The statement on top whose span is open is the one to publish. -/
theorem current_of_head {e : StmtSpanEntry} {stack : List StmtSpanEntry} {ctx : OtelSpanContext}
    (h : l.contextOf e.ref = some ctx) : l.current (e :: stack) = some e :=
  List.find?_cons_of_pos (by rw [h]; rfl)

theorem current_isSome {stack : List StmtSpanEntry} {e : StmtSpanEntry}
    (h : e ∈ l.current stack) : e ∈ stack ∧ (l.contextOf e.ref).isSome = true :=
  ⟨List.mem_of_find?_eq_some h,
    List.find?_some (p := fun e : StmtSpanEntry => (l.contextOf e.ref).isSome) h⟩

/-- The contexts of open spans are valid. -/
theorem contextOf_valid (hvalid : ∀ span ∈ l.spans, otelSpanContextIsValid span.2 = true)
    {ref : OtelSpanRef} {ctx : OtelSpanContext} (h : l.contextOf ref = some ctx) :
    otelSpanContextIsValid ctx = true := by
  obtain ⟨span, hspan, rfl⟩ := Option.map_eq_some_iff.1 h
  exact hvalid span (List.mem_of_find?_eq_some hspan)

/-- Publishing the open span of the entry on top makes the slot right. -/
theorem publishLeaderContext_publishes
    (hvalid : ∀ span ∈ l.spans, otelSpanContextIsValid span.2 = true) {e : StmtSpanEntry}
    (hv : e.ref.v ≠ 0) (stack : List StmtSpanEntry)
    (hopen : (l.contextOf e.ref).isSome = true) :
    (l.publishLeaderContext e.ref).Publishes (e :: stack) := by
  obtain ⟨ctx, hctx⟩ := Option.isSome_iff_exists.1 hopen
  refine (publishes_congr (l.publishLeaderContext_spans e.ref).1 _).2 ?_
  rw [current_of_head hctx, publishLeaderContext, if_neg hv, hctx]
  simp [hctx, otelParallelPublishLeaderContext, contextOf_valid hvalid hctx]

/-- `restore_leader_context` makes the slot right if the span on top is open, and keeps it right. -/
theorem restoreLeaderContext_publishes {stack : List StmtSpanEntry}
    (hvalid : ∀ span ∈ l.spans, otelSpanContextIsValid span.2 = true)
    (hv : ∀ e ∈ stack, e.ref.v ≠ 0)
    (h : l.Publishes stack ∨ ∀ e ∈ stack.head?, (l.contextOf e.ref).isSome = true) :
    (l.restoreLeaderContext stack).Publishes stack := by
  cases stack with
  | nil => rfl
  | cons e stack =>
    have hv : e.ref.v ≠ 0 := hv e List.mem_cons_self
    change (l.publishLeaderContext e.ref).Publishes (e :: stack)
    by_cases hopen : (l.contextOf e.ref).isSome = true
    · exact publishLeaderContext_publishes hvalid hv stack hopen
    · have hnone : l.contextOf e.ref = none := Option.not_isSome_iff_eq_none.1 hopen
      have hsame : l.publishLeaderContext e.ref = l := by
        rw [publishLeaderContext, if_neg hv, hnone]
        rfl
      rw [hsame]
      exact h.resolve_right fun hhead => hopen (hhead e rfl)

/-- Spans other than the published one may end, and their entries may go. -/
theorem Publishes.keep {l' : LeaderSt} {stack stack' : List StmtSpanEntry} (h : l.Publishes stack)
    (hslot : l'.slot = l.slot) (hsub : stack'.Sublist stack)
    (hnd : (stack.map StmtSpanEntry.ref).Nodup)
    (hctx : ∀ ref, l'.contextOf ref = none ∨ l'.contextOf ref = l.contextOf ref)
    (hcurrent : ∀ e ∈ l.current stack, e ∈ stack' ∧ (l'.contextOf e.ref).isSome = true) :
    l'.Publishes stack' := by
  have hopen : ∀ ref, (l'.contextOf ref).isSome = true → l'.contextOf ref = l.contextOf ref := by
    intro ref hsome
    refine (hctx ref).resolve_left fun hnone => ?_
    rw [hnone] at hsome
    cases hsome
  unfold Publishes
  rw [hslot, h]
  cases hc : l.current stack with
  | none =>
    have hc' : l'.current stack' = none := by
      refine List.find?_eq_none.2 fun e he hsome => List.find?_eq_none.1 hc e (hsub.subset he) ?_
      exact hopen e.ref hsome ▸ hsome
    rw [hc']
    rfl
  | some e =>
    obtain ⟨hmem, hsome⟩ := hcurrent e hc
    -- the first entry on the remaining stack whose span was open, and this span still is
    have hfirst := find?_of_sublist hsub (List.Nodup.of_map _ hnd) hc hmem
    obtain ⟨-, before, after, hstack, hbefore⟩ := List.find?_eq_some_iff_append.1 hfirst
    have hc' : l'.current stack' = some e := by
      refine List.find?_eq_some_iff_append.2 ⟨hsome, before, after, hstack, fun x hx => ?_⟩
      rcases hctx x.ref with hnone | hsame
      · rw [hnone]
        rfl
      · rw [hsame]
        exact hbefore x hx
    rw [hc', Option.bind_some, Option.bind_some, hopen e.ref hsome]

/-- The span of a statement that starts is published. -/
theorem startStmtSpan_publishes
    (hvalid : ∀ span ∈ l.spans, otelSpanContextIsValid span.2 = true) {e : StmtSpanEntry}
    (hv : e.ref.v ≠ 0) {ctx : OtelSpanContext} (hctx : otelSpanContextIsValid ctx = true)
    (stack : List StmtSpanEntry) : (l.startStmtSpan e.ref ctx).Publishes (e :: stack) := by
  rw [startStmtSpan, if_neg hv]
  refine publishLeaderContext_publishes (fun span hspan => ?_) hv stack (by simp [contextOf])
  rcases List.mem_cons.1 hspan with rfl | hspan
  · exact hctx
  · exact hvalid span hspan

/-- When a statement that has an entry ends, the slot stays right, if the span below is open in case
it was the published one. -/
theorem Publishes.finalizeStmtSpan {stack : List StmtSpanEntry} (h : l.Publishes stack)
    (hvalid : ∀ span ∈ l.spans, otelSpanContextIsValid span.2 = true)
    (hnd : (stack.map StmtSpanEntry.ref).Nodup) (hv : ∀ e ∈ stack, e.ref.v ≠ 0) {p : Ptr}
    {ended : StmtSpanEntry} (hfind : KeyedStack.find StmtSpanEntry.key p stack = some ended)
    (hbelow : l.current stack = some ended →
      ∀ e ∈ (KeyedStack.remove StmtSpanEntry.key p stack).head?,
        (l.contextOf e.ref).isSome = true) :
    (l.finalizeStmtSpan ended.ref (KeyedStack.remove StmtSpanEntry.key p stack)).Publishes
      (KeyedStack.remove StmtSpanEntry.key p stack) := by
  obtain ⟨l₁, l₂, hsplit, hrest⟩ := remove_of_find hfind
  have hended : ended.ref.v ≠ 0 := hv ended (mem_of_find hfind)
  have hothers : ∀ e ∈ l₁ ++ l₂, (l.spanEnd ended.ref).contextOf e.ref = l.contextOf e.ref := by
    intro e he
    rw [contextOf_spanEnd hended, if_neg]
    intro href
    rw [hsplit, List.map_append, List.map_cons] at hnd
    refine (List.nodup_middle.1 hnd).notMem ?_
    rw [← List.map_append, ← href]
    exact List.mem_map_of_mem he
  rw [LeaderSt.finalizeStmtSpan, if_neg hended]
  refine restoreLeaderContext_publishes (fun span hspan => ?_)
    (fun e he => hv e ((remove_sublist p).subset he)) ?_
  · exact hvalid span ((l.spanEnd_spans ended.ref).1.subset hspan)
  by_cases hcur : l.current stack = some ended
  · refine .inr fun e he => ?_
    rw [hothers e (hrest ▸ List.mem_of_head? he)]
    exact hbelow hcur e he
  · refine .inl (h.keep ?_ (remove_sublist p) hnd (fun ref => ?_) fun e he => ?_)
    · rw [spanEnd, if_neg hended]
    · rw [contextOf_spanEnd hended]
      split_ifs
      · exact .inl rfl
      · exact .inr rfl
    · obtain ⟨hmem, hopen⟩ := current_isSome he
      have hne : e ≠ ended := fun heq => hcur (heq ▸ he)
      have hstays : e ∈ l₁ ++ l₂ := by
        rw [hsplit] at hmem
        exact (List.mem_cons.1 (List.perm_middle.mem_iff.1 hmem)).resolve_left hne
      exact ⟨hrest ▸ hstays, (hothers e hstays).symm ▸ hopen⟩

end LeaderSt

/-! ## Runs publish the current statement -/

theorem pushesStmt_of_room {t : TraceSt} {ref : OtelSpanRef}
    (hroom : ref.v ≠ 0 → t.stmtStack.length < otelStmtStackMax) :
    t.pushesStmt ref = decide (ref.v ≠ 0) := by
  unfold pushesStmt
  by_cases hv : ref.v = 0
  · simp [hv]
  · simp [hv, hroom hv]

/-- With room on the stack no span is ended at once. -/
theorem pushStmtSpan_room {t : TraceSt} {ref : OtelSpanRef}
    (hroom : ref.v ≠ 0 → t.stmtStack.length < otelStmtStackMax) (p : Ptr) (detached : Bool)
    (nest : NestLevel) : (t.pushStmtSpan p ref detached nest).2 = otelSpanNone := by
  unfold pushStmtSpan
  by_cases hv : ref.v = 0
  · rw [if_pos hv]
  · rw [if_neg hv, if_neg (Nat.not_le.2 (hroom hv))]

/-- What a step other than a start takes from the statement stack. -/
theorem stmtStack_sublist {s : TracingSt} {a : TracingAct} (hen : a.Enabled s)
    (hstart : s.starts a = none) : (s.next a).trace.stmtStack.Sublist s.trace.stmtStack := by
  cases hcomp : s.completes a with
  | none => exact (stmtStack_other hen hstart hcomp).1
  | some p => exact stmtStack_completes hcomp ▸ remove_sublist p

/-- The open spans and the entries stay in order. -/
theorem SpansOk.step {s : TracingSt × LeaderSt} (h : SpansOk s) {a : LeaderAct}
    (hen : leader.enabled s a) : SpansOk (leader.next s a) := by
  cases a with
  | producerEnds refs =>
    exact ⟨h.once, h.entries, fun span hspan => h.spans span (List.mem_filter.1 hspan).1⟩
  | hook a ctx =>
    have hnext : leader.next s (.hook a ctx) = (s.1.next a, s.2.hook s.1 a ctx) := rfl
    rw [hnext]
    cases hstart : s.1.starts a with
    | none =>
      have hhook : s.2.hook s.1 a ctx =
          s.2.finalizeStmtSpan (s.1.popped a) (s.1.next a).trace.stmtStack := by
        simp only [LeaderSt.hook, hstart]
      obtain ⟨hspans, hgiven⟩ := s.2.finalizeStmtSpan_spans (s.1.popped a) (s.1.next a).trace.stmtStack
      have hstack := stmtStack_sublist (hen.1 a rfl) hstart
      rw [hhook]
      refine ⟨h.once.sublist (hstack.map _), ?_, ?_⟩
      · rw [hgiven]
        exact fun e he => h.entries e (hstack.subset he)
      · rw [hgiven]
        exact fun span hspan => h.spans span (hspans.subset hspan)
    | some p =>
      have hhook : s.2.hook s.1 a ctx = (s.2.startStmtSpan a.startRef ctx).spanEnd
          (s.1.trace.pushStmtSpan p a.startRef false s.1.currentLevel).2 := by
        simp only [LeaderSt.hook, hstart]
      obtain ⟨hended, hsame⟩ := (s.2.startStmtSpan a.startRef ctx).spanEnd_spans
        (s.1.trace.pushStmtSpan p a.startRef false s.1.currentLevel).2
      obtain ⟨detached, hstack⟩ := stmtStack_starts hstart
      rw [hhook]
      by_cases hv : a.startRef.v = 0
      · have hstart : s.2.startStmtSpan a.startRef ctx = s.2 := if_pos hv
        have hno : s.1.trace.pushesStmt a.startRef = false := by simp [pushesStmt, hv]
        rw [hno, if_neg Bool.false_ne_true] at hstack
        rw [hstart] at hended hsame ⊢
        refine ⟨hstack ▸ h.once, ?_, ?_⟩
        · rw [hsame, hstack]
          exact h.entries
        · rw [hsame]
          exact fun span hspan => h.spans span (hended.subset hspan)
      · obtain ⟨hnew, hvalid⟩ := hen.2 hv
        obtain ⟨hspans, hgiven⟩ := s.2.startStmtSpan_spans hv ctx
        rw [hspans] at hended
        rw [hgiven] at hsame
        have hentries : ∀ e ∈ s.1.trace.stmtStack, e.ref.v ≠ 0 ∧ e.ref ∈ a.startRef :: s.2.given :=
          fun e he => ⟨(h.entries e he).1, List.mem_cons_of_mem _ (h.entries e he).2⟩
        refine ⟨?_, ?_, ?_⟩
        · rw [hstack]
          split_ifs
          · refine List.nodup_cons.2 ⟨fun hm => ?_, h.once⟩
            obtain ⟨e, he, href⟩ := List.mem_map.1 hm
            have href : e.ref = a.startRef := href
            exact hnew (href ▸ (h.entries e he).2)
          · exact h.once
        · rw [hsame, hstack]
          split_ifs
          · exact List.forall_mem_cons.2 ⟨⟨hv, List.mem_cons_self⟩, hentries⟩
          · exact hentries
        · rw [hsame]
          intro span hspan
          rcases List.mem_cons.1 (hended.subset hspan) with rfl | hspan
          · exact ⟨List.mem_cons_self, hvalid⟩
          · exact ⟨List.mem_cons_of_mem _ (h.spans span hspan).1, (h.spans span hspan).2⟩

/-- A step that meets the condition leaves the slot right. -/
theorem publishes_step {s : TracingSt × LeaderSt} (h : SpansOk s)
    (hpub : s.2.Publishes s.1.trace.stmtStack) {a : LeaderAct} (hen : leader.enabled s a)
    (hok : KeepsPublished s a) :
    (leader.next s a).2.Publishes (leader.next s a).1.trace.stmtStack := by
  have hvalid : ∀ span ∈ s.2.spans, otelSpanContextIsValid span.2 = true :=
    fun span hspan => (h.spans span hspan).2
  cases a with
  | producerEnds refs =>
    have hctx := s.2.contextOf_filter fun ref => decide (ref ∉ refs)
    refine hpub.keep rfl (List.Sublist.refl _) h.once (fun ref => ?_) fun e he => ?_
    · refine (hctx ref).symm ▸ ?_
      split_ifs
      · exact .inr rfl
      · exact .inl rfl
    · obtain ⟨hmem, hopen⟩ := LeaderSt.current_isSome he
      refine ⟨hmem, (hctx e.ref).symm ▸ ?_⟩
      rw [if_pos (decide_eq_true (hok e he))]
      exact hopen
  | hook a ctx =>
    have hnext : leader.next s (.hook a ctx) = (s.1.next a, s.2.hook s.1 a ctx) := rfl
    rw [hnext]
    obtain ⟨hroom, hcurrent⟩ := hok
    cases hstart : s.1.starts a with
    | none =>
      have hhook : s.2.hook s.1 a ctx =
          s.2.finalizeStmtSpan (s.1.popped a) (s.1.next a).trace.stmtStack := by
        simp only [LeaderSt.hook, hstart]
      have hnothing (hpop : s.1.popped a = otelSpanNone)
          (hstays : ∀ e ∈ s.2.current s.1.trace.stmtStack, e ∈ (s.1.next a).trace.stmtStack) :
          (s.2.hook s.1 a ctx).Publishes (s.1.next a).trace.stmtStack := by
        have hsame : s.2.finalizeStmtSpan otelSpanNone (s.1.next a).trace.stmtStack = s.2 := if_pos rfl
        rw [hhook, hpop, hsame]
        exact hpub.keep rfl (stmtStack_sublist (hen.1 a rfl) hstart) h.once (fun _ => .inr rfl)
          fun e he => ⟨hstays e he, (LeaderSt.current_isSome he).2⟩
      cases hcomp : s.1.completes a with
      | none =>
        refine hnothing (by rw [popped, hcomp]; rfl) fun e he => ?_
        have hmem := (LeaderSt.current_isSome he).1
        exact (stmtStack_other (hen.1 a rfl) hstart hcomp).2 e hmem (hcurrent e he).1
      | some p =>
        have hstack := stmtStack_completes hcomp
        have hpop := popped_of_completes hcomp
        cases hfind : KeyedStack.find StmtSpanEntry.key p s.1.trace.stmtStack with
        | none =>
          refine hnothing (by rw [hpop, popStmtSpan, hfind]; rfl) fun e he => ?_
          have hmem := (LeaderSt.current_isSome he).1
          have hne := List.find?_eq_none.1 hfind e hmem
          exact hstack ▸ mem_remove hmem fun haddr => hne (decide_eq_true haddr)
        | some ended =>
          have hpop : s.1.popped a = ended.ref := by
            rw [hpop, popStmtSpan, hfind]
            rfl
          rw [hhook, hpop, hstack]
          exact hpub.finalizeStmtSpan hvalid h.once (fun e he => (h.entries e he).1) hfind
            fun hcur => (hcurrent ended hcur).2 p hcomp hfind
    | some p =>
      obtain ⟨detached, hstack⟩ := stmtStack_starts hstart
      have hhook : s.2.hook s.1 a ctx = s.2.startStmtSpan a.startRef ctx := by
        simp only [LeaderSt.hook, hstart, pushStmtSpan_room hroom]
        exact if_pos rfl
      rw [pushesStmt_of_room hroom] at hstack
      rw [hhook, hstack]
      by_cases hv : a.startRef.v = 0
      · have hsame : s.2.startStmtSpan a.startRef ctx = s.2 := if_pos hv
        rw [hsame, if_neg (by simpa using hv)]
        exact hpub
      · rw [if_pos (by simpa using hv)]
        exact LeaderSt.startStmtSpan_publishes (e := ⟨p, a.startRef, s.1.currentLevel, detached⟩)
          hvalid hv (hen.2 hv).2 _

/-- In runs whose steps meet the condition, after each of them the published context is that of the
statement span started most recently among those that are open and on the statement stack, and none
is published if there is no such span. -/
theorem published_context_is_current {s : TracingSt × LeaderSt}
    (h : leader.ReachBy KeepsPublished s) : s.2.Publishes s.1.trace.stmtStack := by
  have hboth : SpansOk s ∧ s.2.Publishes s.1.trace.stmtStack := by
    induction h with
    | init =>
      exact ⟨⟨List.nodup_nil, fun _ h => absurd h List.not_mem_nil,
        fun _ h => absurd h List.not_mem_nil⟩, rfl⟩
    | step a _ hen hok ih => exact ⟨ih.1.step hen, publishes_step ih.1 ih.2 hen hok⟩
  exact hboth.2

/-- The context of a statement span. -/
def stmtCtx (spanId : ℕ) : OtelSpanContext :=
  { traceId := 1, spanId := spanId, traceFlags := otelTraceFlagSampled }

/-- A query is running. -/
def leaderRunning : TracingSt × LeaderSt :=
  [LeaderAct.hook .begin (stmtCtx 1), .hook (.executorStart 1 false ⟨1⟩) (stmtCtx 1)].foldl
    leader.next ({}, {})

/-- A query that it runs has ended. -/
def nestedEnded : TracingSt × LeaderSt :=
  [LeaderAct.hook (.executorStart 2 false ⟨2⟩) (stmtCtx 2),
    .hook (.executorEnd ⟨2, 1⟩ true) (stmtCtx 1)].foldl leader.next leaderRunning

theorem enabled_leader {s : TracingSt × LeaderSt} {a : TracingAct} {ctx : OtelSpanContext}
    (h : a.Enabled s.1) (hnew : LeaderAct.NewSpan s (.hook a ctx)) :
    leader.enabled s (.hook a ctx) :=
  ⟨fun _ hb => by cases hb; exact h, hnew⟩

theorem reachBy_leaderRunning : leader.ReachBy KeepsPublished leaderRunning :=
  Machine.ReachBy.run (m := leader) .init
    ⟨enabled_leader rfl fun h => absurd rfl h,
      ⟨fun h => absurd rfl h, fun _ he => by cases he⟩,
      enabled_leader ⟨⟨_, _, rfl, rfl⟩, by decide⟩ (fun _ => ⟨by decide, by decide⟩),
      ⟨by decide, fun _ he => by cases he⟩, trivial⟩

theorem published_context_is_current_nestedEnded :
    nestedEnded.2.Publishes nestedEnded.1.trace.stmtStack ∧
      nestedEnded.2.slot = some (stmtCtx 1) := by
  refine ⟨published_context_is_current (Machine.ReachBy.run (m := leader) reachBy_leaderRunning ?_),
    by decide⟩
  refine ⟨enabled_leader ⟨⟨_, _, rfl, rfl⟩, by decide⟩ (fun _ => ⟨by decide, by decide⟩),
    ⟨by decide, fun _ _ => ⟨trivial, fun _ hp => by cases hp⟩⟩,
    enabled_leader ⟨⟨_, _, rfl, rfl⟩, ⟨_, List.mem_cons_self, rfl⟩,
      fun _ hf => absurd hf List.not_mem_nil⟩ (fun h => absurd rfl h),
    ⟨fun h => absurd rfl h, fun _ _ => ⟨trivial, fun p hp _ e he => ?_⟩⟩, trivial⟩
  obtain rfl : (⟨2, 1⟩ : Ptr) = p := Option.some.inj hp
  obtain rfl := Option.some.inj he
  decide

/-- The query fails. -/
def leaderFailed : TracingSt × LeaderSt :=
  [LeaderAct.hook (.abort 0 []) (stmtCtx 1), .producerEnds [⟨1⟩], .hook .cleanup (stmtCtx 1)].foldl
    leader.next leaderRunning

/-- The context of a query that has failed stays published. -/
theorem failed_query_stays_published :
    leader.Reachable leaderFailed ∧ leaderFailed.2.slot = some (stmtCtx 1) ∧
      leaderFailed.2.spans = [] ∧ leaderFailed.1.trace.stmtStack = [] ∧
      ¬ leaderFailed.2.Publishes leaderFailed.1.trace.stmtStack := by
  refine ⟨Machine.ReachBy.run (m := leader) reachBy_leaderRunning.reachable ?_, by decide, rfl, rfl,
    fun h => ?_⟩
  · exact ⟨enabled_leader ⟨⟨_, _, rfl, rfl⟩, fun _ => rfl, fun _ h => absurd h List.not_mem_nil,
      fun _ h => absurd h List.not_mem_nil⟩ (fun h => absurd rfl h), trivial,
      ⟨fun _ ha => (by cases ha), trivial⟩, trivial,
      enabled_leader ⟨_, _, rfl, rfl⟩ (fun h => absurd rfl h), trivial, trivial⟩
  · exact absurd (show some (stmtCtx 1) = none from h) (by decide)

end PostgresOtel
