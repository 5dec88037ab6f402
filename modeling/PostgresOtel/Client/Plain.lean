import PostgresOtel.Client.ProducerRuns
import PostgresOtel.Lib.Descending

/-!
# Spans that are never activated

Where no call activates a span, the active stack has the open spans that are not detached, the newest
on top, and what an end unwinds are those that were started later.  Then `Spans` alone, the view of
modules that do not activate, is a view of the producer.
-/

set_option autoImplicit false

namespace PostgresOtel

open Exec

/-! ## The machine -/

inductive SpansAct
  | start (nestLevel : ℕ) (detached : Bool)
  | finish (ref : OtelSpanRef)
  | close (owned : OtelSpanRef → Bool) (how : SpanEnd)

def Spans.act (s : Spans) : SpansAct → Spans
  | .start nestLevel detached => s.start false nestLevel detached
  | .finish ref => s.finish ref
  | .close owned how => s.close (fun o => owned o.ref) how

/-- The spans of modules that activate nothing, as a machine. -/
def plainSpans : Machine Spans SpansAct where
  init := {}
  enabled _ _ := True
  next := Spans.act

/-- The call neither activates a span nor gives an activation back. -/
def ProducerOp.plain : ProducerOp → Bool
  | .spanActivate _ | .spanDeactivate _ => false
  | _ => true

/-- An act without activations. -/
def ClientAct.Plain : ClientAct → Prop
  | .activate .. | .deactivate _ => False
  | _ => True

/-- What such an act is for the spans alone. -/
def ClientAct.spansActs : ClientAct → List SpansAct
  | .start nestLevel detached => [.start nestLevel detached]
  | .finish ref => [.finish ref]
  | .release owned how => [.close owned how]
  | _ => []

/-- The spans agree, and the active stack is the open spans that are not detached. -/
structure ActiveSpans.Shows (a : ActiveSpans) (t : Spans) : Prop where
  opened : a.spans.opened = t.opened
  count : a.spans.count = t.count
  log : a.spans.log = t.log
  active : a.active.map ActiveItem.ref = (t.opened.filter fun o => !o.detached).map OpenSpan.ref
  starts : ∀ i ∈ a.active, i.isActivation = false

theorem plainSpans_admits (t : Spans) (ys : List SpansAct) :
    plainSpans.Admits (fun _ _ => True) t ys := by
  induction ys generalizing t with
  | nil => exact trivial
  | cons y ys ih => exact ⟨trivial, trivial, ih (t.act y)⟩

/-! ## One act -/

theorem Spans.Ordered.acts {t : Spans} (h : t.Ordered) (ys : List SpansAct) :
    (ys.foldl Spans.act t).Ordered := by
  induction ys generalizing t with
  | nil => exact h
  | cons y ys ih =>
    refine ih ?_
    cases y with
    | start nestLevel detached => exact h.start false detached nestLevel
    | finish ref => exact h.finish ref
    | close owned how => exact h.close _ how

namespace ActiveSpans.Shows

variable {a : ActiveSpans} {t : Spans} {ref : OtelSpanRef}

theorem isOpen (h : a.Shows t) : a.spans.IsOpen ref ↔ t.IsOpen ref := by
  rw [Spans.IsOpen, Spans.IsOpen, h.opened]

theorem onStack (h : a.Shows t) :
    a.OnStack ref ↔ ∃ o ∈ t.opened, o.ref = ref ∧ o.detached = false := by
  rw [ActiveSpans.OnStack, h.active, List.mem_map]
  simp only [List.mem_filter, Bool.not_eq_true']
  exact ⟨fun ⟨o, ⟨ho, hd⟩, hr⟩ => ⟨o, ho, hr, hd⟩, fun ⟨o, ho, hr, hd⟩ => ⟨o, ⟨ho, hd⟩, hr⟩⟩

theorem descending (h : a.Shows t) (hord : t.Ordered) :
    a.active.Pairwise fun i j => j.ref.v < i.ref.v := by
  have hopen : ((t.opened.filter fun o => !o.detached).map OpenSpan.ref).Pairwise
      fun r r' => r'.v < r.v := List.pairwise_map.2 (hord.1.filter _)
  rw [← h.active, List.pairwise_map] at hopen
  exact hopen

/-- The test by which the active stack is cut. -/
theorem ne_iff (r r' : OtelSpanRef) : decide (r ≠ r') = true ↔ r.v ≠ r'.v := by
  rw [decide_eq_true_iff, not_iff_not]
  exact ⟨congrArg OtelSpanRef.v, fun h => by cases r; cases r'; exact congrArg OtelSpanRef.mk h⟩

/-- What is unwound by an end is what was started later, unless it is detached. -/
theorem unwinds_eq (h : a.Shows t) (hord : t.Ordered) {o : OpenSpan} (ho : o ∈ t.opened) :
    a.unwinds ref o.ref = t.above ref o := by
  have hany : (t.opened.any fun x => x.ref = ref ∧ x.detached = false) = decide (a.OnStack ref) := by
    rw [Bool.eq_iff_iff, List.any_eq_true, decide_eq_true_iff, h.onStack]
    simp only [decide_eq_true_eq]
  unfold ActiveSpans.unwinds Spans.above
  rw [hany]
  by_cases hon : a.OnStack ref
  · obtain ⟨i, hi, rfl⟩ := List.mem_map.1 hon
    have hcut : a.above i.ref = a.active.filter fun j => decide (i.ref.v < j.ref.v) := by
      rw [ActiveSpans.above, if_pos hon]
      exact Descending.takeWhile_eq_filter (h.descending hord) hi fun j _ => ne_iff j.ref i.ref
    rw [hcut, decide_eq_true hon, Bool.and_true, Bool.eq_iff_iff, List.any_eq_true, Bool.and_eq_true,
      Bool.not_eq_true', decide_eq_true_iff]
    constructor
    · rintro ⟨j, hj, hmatch⟩
      obtain ⟨hj, hlt⟩ := List.mem_filter.1 hj
      rw [Bool.and_eq_true, decide_eq_true_iff] at hmatch
      obtain ⟨o', ho', hr, hd⟩ := h.onStack.1 (List.mem_map_of_mem hj : a.OnStack j.ref)
      obtain rfl := Descending.eq_of_key hord.1 ho' ho (congrArg OtelSpanRef.v (hr.trans hmatch.1))
      rw [← hr] at hlt
      exact ⟨hd, of_decide_eq_true hlt⟩
    · rintro ⟨hd, hlt⟩
      obtain ⟨j, hj, hr⟩ := List.mem_map.1 (h.onStack.2 ⟨o, ho, rfl, hd⟩)
      refine ⟨j, List.mem_filter.2 ⟨hj, decide_eq_true (hr ▸ hlt)⟩, ?_⟩
      rw [Bool.and_eq_true, decide_eq_true_iff, h.starts j hj]
      exact ⟨hr, rfl⟩
  · rw [ActiveSpans.above, if_neg hon, decide_eq_false hon, Bool.and_false]
    rfl

theorem start (h : a.Shows t) (nestLevel : ℕ) (detached : Bool) :
    (a.start nestLevel detached).Shows (t.start false nestLevel detached) where
  opened := by
    change _ :: a.spans.opened = _ :: t.opened
    rw [h.opened, h.count]
  count := congrArg (· + 1) h.count
  log := h.log
  active := by
    unfold ActiveSpans.start Spans.start
    cases detached with
    | true => exact h.active
    | false =>
      change spanHandle a.spans.count :: a.active.map ActiveItem.ref = spanHandle t.count :: _
      rw [h.active, h.count]
  starts i hi := by
    cases detached with
    | true => exact h.starts i hi
    | false =>
      rcases List.mem_cons.1 hi with rfl | hi
      · rfl
      · exact h.starts i hi

theorem close (h : a.Shows t) (owned : OtelSpanRef → Bool) (how : SpanEnd) :
    (a.release owned how).Shows (t.close (fun o => owned o.ref) how) where
  opened := by
    change a.spans.opened.filter _ = t.opened.filter _
    rw [h.opened]
  count := h.count
  log := by
    change a.spans.log ++ _ = t.log ++ _
    rw [h.opened, h.log]
  active := by
    change (a.active.filter fun i => !owned i.ref).map ActiveItem.ref =
      ((t.opened.filter fun o => !owned o.ref).filter fun o => !o.detached).map OpenSpan.ref
    have hitems : (a.active.filter fun i => !owned i.ref).map ActiveItem.ref =
        (a.active.map ActiveItem.ref).filter fun r => !owned r := by
      rw [List.filter_map]
      rfl
    have hspans : ((t.opened.filter fun o => !o.detached).map OpenSpan.ref).filter (fun r => !owned r) =
        ((t.opened.filter fun o => !o.detached).filter fun o => !owned o.ref).map OpenSpan.ref :=
      List.filter_map
    rw [hitems, h.active, hspans, List.filter_filter, List.filter_filter]
    exact congrArg _ (List.filter_congr fun o _ => Bool.and_comm _ _)
  starts i hi := h.starts i (List.mem_of_mem_filter hi)

theorem popItem_subset (ref : OtelSpanRef) : (a.popItem ref).active ⊆ a.active := by
  by_cases hon : a.OnStack ref
  · rw [ActiveSpans.popItem, if_pos hon]
    exact fun i hi => (List.dropWhile_sublist _).subset (List.mem_of_mem_tail hi)
  · rw [ActiveSpans.popItem, if_neg hon]
    exact List.Subset.refl _

/-- What an end leaves on the stack. -/
theorem popItem_active (h : a.Shows t) (hord : t.Ordered) (ref : OtelSpanRef) :
    (a.popItem ref).active.map ActiveItem.ref =
      (((t.close (t.above ref) .unwound).close (fun o => o.ref = ref) .ended).opened.filter
        fun o => !o.detached).map OpenSpan.ref := by
  have hfilters : (((t.close (t.above ref) .unwound).close (fun o => o.ref = ref) .ended).opened.filter
      fun o => !o.detached) = (t.opened.filter fun o => !o.detached).filter
        fun o => !t.above ref o && !decide (o.ref = ref) := by
    simp only [Spans.close, List.filter_filter]
    exact List.filter_congr fun o _ => by
      simp only [Bool.and_comm]
  rw [hfilters]
  by_cases hon : a.OnStack ref
  · obtain ⟨i, hi, rfl⟩ := List.mem_map.1 hon
    have hcut : (a.active.dropWhile fun j => decide (j.ref ≠ i.ref)).tail =
        a.active.filter fun j => decide (j.ref.v < i.ref.v) :=
      Descending.dropWhile_tail_eq_filter (h.descending hord) hi fun j _ => ne_iff j.ref i.ref
    have hitems : (a.active.filter fun j => decide (j.ref.v < i.ref.v)).map ActiveItem.ref =
        (a.active.map ActiveItem.ref).filter fun r => decide (r.v < i.ref.v) := by
      rw [List.filter_map]
      rfl
    rw [ActiveSpans.popItem, if_pos hon]
    change ((a.active.dropWhile fun j => decide (j.ref ≠ i.ref)).tail).map ActiveItem.ref = _
    rw [hcut, hitems, h.active, List.filter_map]
    refine congrArg _ (List.filter_congr fun o ho => ?_)
    obtain ⟨o', ho', hr', hd'⟩ := h.onStack.1 hon
    have hany : (t.opened.any fun x => x.ref = i.ref ∧ x.detached = false) = true :=
      List.any_eq_true.2 ⟨o', ho', decide_eq_true ⟨hr', hd'⟩⟩
    have hne := ne_iff o.ref i.ref
    have hd := (List.mem_filter.1 ho).2
    rw [decide_eq_true_iff] at hne
    rw [Spans.above, hany, hd, Bool.true_and, Bool.and_true, Bool.eq_iff_iff, Bool.and_eq_true,
      Bool.not_eq_true', Bool.not_eq_true', decide_eq_false_iff_not, decide_eq_false_iff_not, ← ne_eq,
      hne, Function.comp_apply, decide_eq_true_iff]
    omega
  · rw [ActiveSpans.popItem, if_neg hon, h.active]
    refine congrArg _ (List.filter_eq_self.2 fun o ho => ?_).symm
    obtain ⟨ho, hd⟩ := List.mem_filter.1 ho
    have hoff (x : OpenSpan) (hx : x ∈ t.opened) (hr : x.ref = ref) : x.detached ≠ false :=
      fun hdx => hon (h.onStack.2 ⟨x, hx, hr, hdx⟩)
    have hany : (t.opened.any fun x => x.ref = ref ∧ x.detached = false) = false :=
      List.any_eq_false.2 fun x hx hmatch => hoff x hx (of_decide_eq_true hmatch).1
        (of_decide_eq_true hmatch).2
    rw [Spans.above, hany, Bool.and_false, Bool.not_false, Bool.true_and, Bool.not_eq_true',
      decide_eq_false_iff_not]
    exact fun hr => hoff o ho hr (Bool.not_eq_true' _ ▸ hd)

theorem finish (h : a.Shows t) (hord : t.Ordered) (ref : OtelSpanRef) :
    (a.finish ref).Shows (t.finish ref) := by
  by_cases hopen : a.spans.IsOpen ref
  · have hopen' := h.isOpen.1 hopen
    have hv : ref.v ≠ 0 := by
      obtain ⟨o, ho, rfl⟩ := List.mem_map.1 hopen'
      have := (hord.2 o ho).1
      omega
    have hunwound : a.spans.opened.filter (fun o => !a.unwinds ref o.ref) =
        t.opened.filter fun o => !t.above ref o := by
      rw [h.opened]
      exact List.filter_congr fun o ho => congrArg _ (h.unwinds_eq hord ho)
    have hgone : a.spans.opened.filter (fun o => a.unwinds ref o.ref) = t.opened.filter (t.above ref) := by
      rw [h.opened]
      exact List.filter_congr fun o ho => h.unwinds_eq hord ho
    rw [ActiveSpans.finish, if_pos hopen, ActiveSpans.touch_usable (.inr (.inl hopen)), Spans.finish,
      if_neg hv, if_pos hopen']
    refine ⟨?_, ?_, ?_, h.popItem_active hord ref, fun i hi => ?_⟩
    · simp only [ActiveSpans.endSpan, ActiveSpans.popItem_spans, Spans.close, hunwound]
    · simp only [ActiveSpans.endSpan, ActiveSpans.popItem_spans, Spans.close, h.count]
    · simp only [ActiveSpans.endSpan, ActiveSpans.popItem_spans, Spans.close, hunwound, hgone, h.log]
    · exact h.starts i (popItem_subset ref hi)
  · have hclosed : ¬t.IsOpen ref := fun ho => hopen (h.isOpen.2 ho)
    rw [ActiveSpans.finish, if_neg hopen, Spans.finish, if_neg hclosed]
    have htouch : (a.touch ref).Shows t := by
      constructor
      · rw [ActiveSpans.touch_spans, h.opened]
      · rw [ActiveSpans.touch_spans, h.count]
      · rw [ActiveSpans.touch_spans, h.log]
      · rw [ActiveSpans.touch_active, h.active]
      · rw [ActiveSpans.touch_active]
        exact h.starts
    split_ifs
    · exact htouch
    · exact ⟨htouch.opened, htouch.count, htouch.log, htouch.active, htouch.starts⟩

/-- One act without activations. -/
theorem act (h : a.Shows t) (hord : t.Ordered) {x : ClientAct} (hx : x.Plain) :
    (a.act x).Shows (x.spansActs.foldl Spans.act t) := by
  cases x with
  | start nestLevel detached => exact h.start nestLevel detached
  | finish ref => exact h.finish hord ref
  | activate ref nestLevel room => exact hx.elim
  | deactivate act => exact hx.elim
  | release owned how => exact h.close owned how
  | dropActivations nestLevel =>
    have hkept : (a.dropActivations nestLevel).active = a.active :=
      List.filter_eq_self.2 fun i hi => by rw [h.starts i hi, Bool.false_and, Bool.not_false]
    exact ⟨h.opened, h.count, h.log, hkept ▸ h.active, hkept ▸ h.starts⟩

theorem acts (h : a.Shows t) (hord : t.Ordered) {xs : List ClientAct} (hxs : ∀ x ∈ xs, x.Plain) :
    (xs.foldl ActiveSpans.act a).Shows ((xs.flatMap ClientAct.spansActs).foldl Spans.act t) := by
  induction xs generalizing a t with
  | nil => exact h
  | cons x xs ih =>
    obtain ⟨hx, hxs⟩ := List.forall_mem_cons.1 hxs
    rw [List.flatMap_cons, List.foldl_append]
    exact ih (h.act hord hx) (hord.acts x.spansActs) hxs

end ActiveSpans.Shows

/-- `t'` is `t` with the span `ref` ended: the spans above it on the stack, those started later, are
unwound first, and no other leaves. -/
structure Spans.EndedBelow (t : Spans) (ref : OtelSpanRef) (t' : Spans) : Prop where
  opened : t'.opened = t.opened.filter fun o => !t.above ref o && decide (o.ref ≠ ref)
  log : t'.log = t.log ++ (t.opened.filter (t.above ref)).map (fun o => (o.ref, SpanEnd.unwound)) ++
    [(ref, .ended)]

/-! ## Runs -/

/-- A call that is no activation is only such acts. -/
theorem clientActs_plain (s : St) (log : HandleLog) {call : Call} (h : call.op.plain = true) :
    ∀ x ∈ clientActs s log call, x.Plain := by
  unfold clientActs
  cases hop : call.op with
  | spanActivate ref | spanDeactivate tok =>
    rw [hop] at h
    cases h
  | spanStart args | spanEnd ref endTime | spanDiscard ref =>
    dsimp only
    split_ifs <;> simp [ClientAct.Plain]
  | ownerRelease owner ref isCommit => simp [ClientAct.Plain]
  | xactCallback event => cases event <;> simp [ClientAct.Plain]
  | subxactCallback event => cases event <;> simp [ClientAct.Plain]
  | _ => simp

/-- The view of the producer without activations. -/
structure SpansView (s : St) (log : HandleLog) (t : Spans) : Prop where
  count : t.count = log.given.length
  opened : ∀ n, t.IsOpen (spanHandle n) ↔ ∃ e, log.At n e
  stack : List.Forall₂ (fun o x => ∃ n, o.ref = spanHandle n ∧ log.At n x.entry ∧ x.isActivation = false)
    (t.opened.filter fun o => !o.detached) s.spanStack
  fates : ∀ n ref, log.given[n]? = some ref → 0 < ref.v → ∀ fate,
    (log.serialOf n, fate) ∈ s.fates ↔ ∃ how, (spanHandle n, how) ∈ t.log ∧ how.fate = fate

/-- What a call that activates nothing is for the spans alone. -/
def plainActs (s : St) (log : HandleLog) (call : Call) : List SpansAct :=
  (clientActs s log call).flatMap ClientAct.spansActs

/-- The producer with its handles and the spans as the calls open and close them, where no call
activates a span. -/
def plainRuns (garbage : ℕ → OtelSlot) : Machine ((St × HandleLog) × Spans) Call :=
  (handleRuns garbage).extend {} some
    (fun p call => ClientCall p.1.1 p.1.2 call ∧ call.op.plain = true)
    fun p call => (plainActs p.1.1 p.1.2 call).foldl Spans.act p.2

variable {garbage : ℕ → OtelSlot} {p : (St × HandleLog) × Spans}

/-- The calls make a run of the client's machine too, and its spans are these. -/
theorem reachable_shows (h : (plainRuns garbage).Reachable p) :
    plainSpans.Reachable p.2 ∧ p.2.Ordered ∧
      ∃ a, (clientRuns garbage).Reachable (p.1, a) ∧ a.Shows p.2 := by
  induction h with
  | init => exact ⟨.init, Spans.ordered_init, {}, .init, rfl, rfl, rfl, rfl, nofun⟩
  | @step p call _ hen _ ih =>
    obtain ⟨hreach, hord, a, hclient, hshows⟩ := ih
    obtain ⟨hbase, hcall, hplain⟩ := hen
    have hacts := clientActs_plain p.1.1 p.1.2 hplain
    refine ⟨Machine.ReachBy.run hreach (plainSpans_admits p.2 _), hord.acts _, _,
      hclient.step call ⟨hbase, hcall⟩, ?_⟩
    exact hshows.acts hord hacts

theorem ClientView.spansView {s : St} {log : HandleLog} {a : ActiveSpans} {t : Spans}
    (h : ClientView s log a) (hok : a.Ok) (hinv : HandleInv s log) (hledger : Ledger s.life)
    (hshows : a.Shows t) : SpansView s log t where
  count := hshows.count ▸ h.count
  opened n := by rw [← hshows.isOpen, h.opened]
  stack := by
    have hitems := (List.forall₂_and_left _ _).2 ⟨hshows.starts, h.active⟩
    have hrefs : List.Forall₂ (fun r x => ∃ n, r = spanHandle n ∧ log.At n x.entry ∧
        x.isActivation = false) (a.active.map ActiveItem.ref) s.spanStack := by
      rw [List.forall₂_map_left_iff]
      refine hitems.imp ?_
      rintro i x ⟨hstart, n, href, hat, hact, -⟩
      exact ⟨n, href, hat, hact ▸ hstart⟩
    rwa [hshows.active, List.forall₂_map_left_iff] at hrefs
  fates n ref hget hv fate := by
    rw [h.fate_iff hok hinv hledger hget hv fate, hshows.log]

/-- In a list without repetitions a member stands once. -/
theorem Spans.Ordered.only {t : Spans} {ref : OtelSpanRef} (hord : t.Ordered) (hopen : t.IsOpen ref)
    (how : SpanEnd) : (t.opened.filter fun o => o.ref = ref).map (fun o => (o.ref, how)) = [(ref, how)] := by
  obtain ⟨o, ho, rfl⟩ := List.mem_map.1 hopen
  have hone : (t.opened.filter fun x => x.ref = o.ref) = [o] := by
    obtain ⟨l₁, l₂, hsplit⟩ := List.append_of_mem ho
    have hother (x : OpenSpan) (hx : x ∈ l₁ ++ l₂) : x.ref ≠ o.ref := by
      have hnodup := List.pairwise_append.1 (hsplit ▸ hord.1)
      have hlt := List.pairwise_cons.1 hnodup.2.1
      intro heq
      rcases List.mem_append.1 hx with hx | hx
      · exact absurd (hnodup.2.2 x hx o List.mem_cons_self) (by simp [heq])
      · exact absurd (hlt.1 x hx) (by simp [heq])
    have hnone : ∀ l ⊆ l₁ ++ l₂, (l.filter fun x => x.ref = o.ref) = [] := fun l hl =>
      List.filter_eq_nil_iff.2 fun x hx => by simp [hother x (hl hx)]
    rw [hsplit, List.filter_append, List.filter_cons_of_pos (by simp),
      hnone l₁ (List.subset_append_left _ _), hnone l₂ (List.subset_append_right _ _), List.nil_append]
  rw [hone]
  rfl

/-- An open span is ended below the spans on the stack that were started later. -/
theorem Spans.finish_open {t : Spans} {ref : OtelSpanRef} (hord : t.Ordered) (hopen : t.IsOpen ref) :
    t.EndedBelow ref (t.finish ref) := by
  have hv : ref.v ≠ 0 := by
    obtain ⟨o, ho, rfl⟩ := List.mem_map.1 hopen
    have := (hord.2 o ho).1
    omega
  have hstays : (t.close (t.above ref) .unwound).IsOpen ref := by
    obtain ⟨o, ho, rfl⟩ := List.mem_map.1 hopen
    refine List.mem_map_of_mem (List.mem_filter.2 ⟨ho, ?_⟩)
    simp [Spans.above]
  rw [Spans.finish, if_neg hv, if_pos hopen]
  constructor
  · simp only [Spans.close, List.filter_filter]
    exact List.filter_congr fun o _ => by simp [Bool.and_comm]
  · have honly := (hord.close (t.above ref) .unwound).only hstays .ended
    conv_lhs => rw [Spans.close]
    rw [honly]
    rfl

theorem reachable_spansView (h : (plainRuns garbage).Reachable p)
    (hn : p.1.2.starts < otelGenModulus - 1) : SpansView p.1.1 p.1.2 p.2 := by
  obtain ⟨-, -, a, hclient, hshows⟩ := reachable_shows h
  have hhandles : (handleRuns garbage).Reachable p.1 := hclient.base fun _ _ _ _ _ => trivial
  exact (reachable_clientView hclient hn).spansView (clientSpans_ok (reachable_clientSpans hclient))
    (reachable_handleInv hhandles) (reachable_ledger (reachable_of_handleRuns hhandles)) hshows

/-- The call that ends an open span. -/
theorem plainRuns_spanEnd (hord : p.2.Ordered) {call : Call} {ref : OtelSpanRef} {endTime : TimestampTz}
    (hop : call.op = .spanEnd ref endTime) (hcalm : p.1.1.life.refuses call.env = false)
    (hopen : p.2.IsOpen (p.1.2.clientRef ref)) :
    p.2.EndedBelow (p.1.2.clientRef ref) ((plainRuns garbage).next p call).2 := by
  have hacts : plainActs p.1.1 p.1.2 call = [.finish (p.1.2.clientRef ref)] := by
    simp [plainActs, clientActs, hop, hcalm, ClientAct.spansActs]
  change p.2.EndedBelow _ ((plainActs p.1.1 p.1.2 call).foldl Spans.act p.2)
  rw [hacts]
  exact Spans.finish_open hord hopen

/-- Without activations the spans alone are a view of the producer.  After any calls that returned and
that activate nothing, while fewer than `2 ^ 31 - 1` spans have been started since the counter was
seeded, the spans as these calls open and close them are a run of the machine of spans: the same spans
are open, those that are not detached are the active stack from the top, and each that left did so the
way its fate says.  The call that ends an open span unwinds just the spans on the stack that were
started later, in the producer as in the machine. -/
theorem producer_refines_spans (h : (plainRuns garbage).Reachable p)
    (hn : p.1.2.starts < 2 ^ 31 - 1) :
    plainSpans.Reachable p.2 ∧ SpansView p.1.1 p.1.2 p.2 ∧
      ∀ call ref endTime, call.op = .spanEnd ref endTime → (plainRuns garbage).enabled p call →
        p.1.1.life.refuses call.env = false → p.2.IsOpen (p.1.2.clientRef ref) →
          p.2.EndedBelow (p.1.2.clientRef ref) ((plainRuns garbage).next p call).2 ∧
          SpansView ((plainRuns garbage).next p call).1.1 ((plainRuns garbage).next p call).1.2
            ((plainRuns garbage).next p call).2 := by
  obtain ⟨hreach, hord, -⟩ := reachable_shows h
  refine ⟨hreach, reachable_spansView h hn, fun call ref endTime hop hen hcalm hopen =>
    ⟨plainRuns_spanEnd hord hop hcalm hopen, reachable_spansView (h.step call hen) ?_⟩⟩
  have hstarts : ((plainRuns garbage).next p call).1.2.starts = p.1.2.starts :=
    if_neg fun hstart => by simp [hop, ProducerOp.isStart] at hstart
  rw [hstarts]
  exact hn

/-- Two spans are started on the stack and one beside it. -/
def startedPlainState : (St × HandleLog) × Spans :=
  (endedBelow.take 3).foldl (plainRuns fun _ => {}).next ((plainRuns fun _ => {}).init)

def endOldest : Call := { env := {}, backend := {}, op := .spanEnd (makeRef 1 0 true) 0 }

theorem plainRuns_enabled {call : Call} (hplain : call.op.plain = true) (hvalid : call.op.Valid p.1.1)
    (hmax : call.env.maxOpenSpans ≤ maxOpenSpansMax)
    (hgiven : ∀ ref ∈ call.op.handle, ref.v = 0 ∨ ref ∈ p.1.2.given)
    (hreturns : returns (runOp call.env call.op) (p.1.1.enter call) = true) :
    (plainRuns garbage).enabled p call :=
  ⟨fun _ h => Option.some.inj h ▸ ⟨fun _ h => Option.some.inj h ▸ hvalid, hmax⟩, ⟨hgiven, hreturns⟩,
    hplain⟩

theorem reachable_startedPlainState : (plainRuns fun _ => {}).Reachable startedPlainState :=
  Machine.ReachBy.run .init
    ⟨plainRuns_enabled rfl trivial (by decide) nofun (by decide +kernel), trivial,
      plainRuns_enabled rfl trivial (by decide) nofun (by decide +kernel), trivial,
      plainRuns_enabled rfl trivial (by decide) nofun (by decide +kernel), trivial, trivial⟩

theorem endOldest_enabled : (plainRuns fun _ => {}).enabled startedPlainState endOldest :=
  plainRuns_enabled rfl (by decide : (makeRef 1 0 true).Issued) (by decide)
    (by rintro ref ⟨⟩; exact .inr (by decide +kernel)) (by decide +kernel)

theorem producer_refines_spans_endedBelowPlain :
    startedPlainState.2.opened.map OpenSpan.ref = [spanHandle 2, spanHandle 1, spanHandle 0] ∧
      startedPlainState.2.EndedBelow (spanHandle 0)
        ((plainRuns fun _ => {}).next startedPlainState endOldest).2 ∧
      SpansView ((plainRuns fun _ => {}).next startedPlainState endOldest).1.1
        ((plainRuns fun _ => {}).next startedPlainState endOldest).1.2
        ((plainRuns fun _ => {}).next startedPlainState endOldest).2 ∧
      ((plainRuns fun _ => {}).next startedPlainState endOldest).2.log =
        [(spanHandle 1, .unwound), (spanHandle 0, .ended)] ∧
      ((plainRuns fun _ => {}).next startedPlainState endOldest).1.1.fates =
        [(1, .dispatched), (0, .dispatched)] := by
  obtain ⟨-, -, hend⟩ := producer_refines_spans reachable_startedPlainState (by decide +kernel)
  obtain ⟨hbelow, hview⟩ := hend endOldest (makeRef 1 0 true) 0 rfl endOldest_enabled
    (by decide +kernel) (by decide +kernel)
  exact ⟨by decide +kernel, hbelow, hview, by decide +kernel, by decide +kernel⟩

end PostgresOtel
