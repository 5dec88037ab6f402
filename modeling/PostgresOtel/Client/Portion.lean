import PostgresOtel.Client.Plain

/-!
# The spans of one module

A module starts its spans among those of others.  `Portion` compares the spans of a backend with the
spans the module knows about, which it numbers by its own starts: what the module does to them happens
to both, and whatever else happens in the backend is, for the module, that some of its spans leave.
-/

set_option autoImplicit false

namespace PostgresOtel

/-- The module's own number for one of its spans. -/
def numbered (mine : List OtelSpanRef) (ref : OtelSpanRef) : OtelSpanRef :=
  if ref ∈ mine then spanHandle (mine.idxOf ref) else ⟨0⟩

def OpenSpan.numbered (mine : List OtelSpanRef) (o : OpenSpan) : OpenSpan :=
  { o with ref := PostgresOtel.numbered mine o.ref }

/-- The spans with these handles, numbered. -/
structure Spans.Portion (mine : List OtelSpanRef) (s t : Spans) : Prop where
  count : t.count = mine.length
  opened : t.opened = (s.opened.filter fun o => decide (o.ref ∈ mine)).map (OpenSpan.numbered mine)
  log : t.log = (s.log.filter fun x => decide (x.1 ∈ mine)).map fun x => (numbered mine x.1, x.2)

/-- The spans with these handles are on the active stack unless they are detached, and are not
activated. -/
structure ActiveSpans.Unactivated (mine : List OtelSpanRef) (a : ActiveSpans) : Prop where
  active : (a.active.filter fun i => decide (i.ref ∈ mine)).map ActiveItem.ref =
    ((a.spans.opened.filter fun o => decide (o.ref ∈ mine)).filter fun o => !o.detached).map OpenSpan.ref
  starts : ∀ i ∈ a.active, i.ref ∈ mine → i.isActivation = false

/-- A module with these handles, in the order of its starts, sees its spans as `t`. -/
structure Portion (mine : List OtelSpanRef) (a : ActiveSpans) (t : Spans) : Prop where
  ascending : mine.Pairwise fun r r' => r.v < r'.v
  started : ∀ ref ∈ mine, a.spans.Started ref
  spans : Spans.Portion mine a.spans t
  stack : a.Unactivated mine

/-- The act names no span of the module. -/
def ClientAct.Spares (mine : List OtelSpanRef) : ClientAct → Prop
  | .finish ref | .activate ref _ _ | .deactivate ref => ref ∉ mine
  | _ => True

/-! ## Numbers -/

section Numbers

variable {mine : List OtelSpanRef} {ref ref' : OtelSpanRef}

theorem numbered_of_mem (h : ref ∈ mine) : numbered mine ref = spanHandle (mine.idxOf ref) := if_pos h

theorem numbered_of_not_mem (h : ref ∉ mine) : numbered mine ref = ⟨0⟩ := if_neg h

theorem numbered_eq_zero_iff : (numbered mine ref).v = 0 ↔ ref ∉ mine := by
  by_cases h : ref ∈ mine
  · rw [numbered_of_mem h]
    exact iff_of_false (Spans.spanHandle_ne_zero _) (not_not_intro h)
  · rw [numbered_of_not_mem h]
    exact iff_of_true rfl h

theorem numbered_inj (h : ref ∈ mine) (h' : ref' ∈ mine) :
    numbered mine ref = numbered mine ref' ↔ ref = ref' := by
  rw [numbered_of_mem h, numbered_of_mem h', Spans.spanHandle_injective.eq_iff, List.idxOf_inj h]

/-- Numbers are in the order of the handles. -/
theorem numbered_lt_iff (hasc : mine.Pairwise fun r r' => r.v < r'.v) (h : ref ∈ mine)
    (h' : ref' ∈ mine) : (numbered mine ref).v < (numbered mine ref').v ↔ ref.v < ref'.v := by
  have hlt {r r' : OtelSpanRef} (hr : r ∈ mine) (hr' : r' ∈ mine) (hidx : mine.idxOf r < mine.idxOf r') :
      r.v < r'.v := by
    have hpair := List.pairwise_iff_getElem.1 hasc _ _ (List.idxOf_lt_length_of_mem hr)
      (List.idxOf_lt_length_of_mem hr') hidx
    rwa [List.getElem_idxOf, List.getElem_idxOf] at hpair
  have hiff : (numbered mine ref).v < (numbered mine ref').v ↔ mine.idxOf ref < mine.idxOf ref' := by
    rw [numbered_of_mem h, numbered_of_mem h']
    change (mine.idxOf ref : ℤ) + 1 < (mine.idxOf ref' : ℤ) + 1 ↔ _
    omega
  rw [hiff]
  refine ⟨hlt h h', fun hv => ?_⟩
  rcases Nat.lt_trichotomy (mine.idxOf ref) (mine.idxOf ref') with hidx | hidx | hidx
  · exact hidx
  · rw [(List.idxOf_inj h).1 hidx] at hv
    omega
  · have := hlt h' h hidx
    omega

theorem numbered_concat_of_mem (h : ref ∈ mine) : numbered (mine ++ [ref']) ref = numbered mine ref := by
  rw [numbered_of_mem h, numbered_of_mem (List.mem_append_left _ h), List.idxOf_append_of_mem h]

theorem numbered_concat_self (h : ref ∉ mine) :
    numbered (mine ++ [ref]) ref = spanHandle mine.length := by
  rw [numbered_of_mem (List.mem_append_right _ (List.mem_singleton_self _)),
    List.idxOf_append_of_notMem h, List.idxOf_cons_self, Nat.add_zero]

end Numbers

/-! ## What leaves the active stack -/

namespace ActiveSpans

variable {a a' : ActiveSpans} {mine : List OtelSpanRef} {ref : OtelSpanRef}

/-- An end unwinds what is above, unless it is an activation. -/
theorem unwinds_iff (hok : a.Ok) {i : ActiveItem} (hi : i ∈ a.active) (hstart : i.isActivation = false) :
    a.unwinds ref i.ref = true ↔ i ∈ a.above ref := by
  unfold unwinds
  rw [List.any_eq_true]
  constructor
  · rintro ⟨j, hj, hmatch⟩
    rw [Bool.and_eq_true, decide_eq_true_iff] at hmatch
    rwa [List.inj_on_of_nodup_map hok.once hi (above_subset ref hj) hmatch.1.symm]
  · intro h
    exact ⟨i, h, by rw [hstart, decide_eq_true rfl]; rfl⟩

/-- A pop takes the item away and what is above it. -/
theorem popItem_active_eq (hok : a.Ok) (ref : OtelSpanRef) : (a.popItem ref).active =
    a.active.filter fun i => !decide (i ∈ a.above ref) && decide (i.ref ≠ ref) := by
  by_cases hon : a.OnStack ref
  · obtain ⟨i, rest, hactive, hi, hrest⟩ := a.split_onStack hon
    have hnodup := hok.once
    rw [hactive, List.map_append, List.map_cons, List.nodup_append, List.nodup_cons] at hnodup
    obtain ⟨-, ⟨hout, -⟩, hdisjoint⟩ := hnodup
    have habove : (a.above ref).filter (fun j => !decide (j ∈ a.above ref) && decide (j.ref ≠ ref)) = [] :=
      List.filter_eq_nil_iff.2 fun j hj => by simp [hj]
    have hkept : rest.filter (fun j => !decide (j ∈ a.above ref) && decide (j.ref ≠ ref)) = rest := by
      refine List.filter_eq_self.2 fun j hj => ?_
      have hmem : j.ref ∈ rest.map ActiveItem.ref := List.mem_map_of_mem hj
      have hnot : j ∉ a.above ref := fun hj' =>
        hdisjoint j.ref (List.mem_map_of_mem hj') j.ref (List.mem_cons_of_mem _ hmem) rfl
      have hne : j.ref ≠ ref := fun heq => hout (by rw [hi, ← heq]; exact hmem)
      simp [hnot, hne]
    have hfilter : a.active.filter (fun j => !decide (j ∈ a.above ref) && decide (j.ref ≠ ref)) = rest := by
      conv_lhs => rw [hactive]
      rw [List.filter_append, habove, List.filter_cons_of_neg (by simp [hi]), hkept, List.nil_append]
    rw [hfilter, popItem, if_pos hon]
    exact hrest
  · rw [popItem, if_neg hon, above_of_not_onStack hon]
    refine (List.filter_eq_self.2 fun i hi => ?_).symm
    have hne : i.ref ≠ ref := fun heq => hon (heq ▸ List.mem_map_of_mem hi)
    simp [hne]

theorem popItem_mine (hok : a.Ok) (h : a.Unactivated mine) (ref : OtelSpanRef) :
    ((a.popItem ref).active.filter fun i => decide (i.ref ∈ mine)) =
      (a.active.filter fun i => decide (i.ref ∈ mine)).filter
        fun i => !a.unwinds ref i.ref && decide (i.ref ≠ ref) := by
  rw [popItem_active_eq hok, List.filter_filter, List.filter_filter]
  refine List.filter_congr fun i hi => ?_
  by_cases hmem : i.ref ∈ mine
  · have hunwinds : a.unwinds ref i.ref = decide (i ∈ a.above ref) := by
      rw [Bool.eq_iff_iff, decide_eq_true_iff]
      exact unwinds_iff hok hi (h.starts i hi hmem)
    simp [hmem, hunwinds]
  · simp [hmem]

/-- Spans leave the stack when they leave. -/
theorem Unactivated.keep (h : a.Unactivated mine) (keep : OtelSpanRef → Bool)
    (hopened : (a'.spans.opened.filter fun o => decide (o.ref ∈ mine)) =
      (a.spans.opened.filter fun o => decide (o.ref ∈ mine)).filter fun o => keep o.ref)
    (hactive : (a'.active.filter fun i => decide (i.ref ∈ mine)) =
      (a.active.filter fun i => decide (i.ref ∈ mine)).filter fun i => keep i.ref) :
    a'.Unactivated mine where
  active := by
    have hitems (l : List ActiveItem) : (l.filter fun i => keep i.ref).map ActiveItem.ref =
        (l.map ActiveItem.ref).filter keep := by
      rw [List.filter_map]
      rfl
    have hspans (l : List OpenSpan) : (l.filter fun o => keep o.ref).map OpenSpan.ref =
        (l.map OpenSpan.ref).filter keep := by
      rw [List.filter_map]
      rfl
    rw [hactive, hopened, hitems, h.active,
      List.filter_comm (fun o : OpenSpan => !o.detached) (fun o => keep o.ref), hspans]
  starts i hi hmem := by
    have hin : i ∈ a'.active.filter fun i => decide (i.ref ∈ mine) :=
      List.mem_filter.2 ⟨hi, decide_eq_true hmem⟩
    rw [hactive] at hin
    exact h.starts i (List.mem_filter.1 (List.mem_filter.1 hin).1).1 hmem

end ActiveSpans

namespace Spans.Portion

variable {mine : List OtelSpanRef} {s t : Spans} {how : SpanEnd}

theorem close (h : Spans.Portion mine s t) (owned : OtelSpanRef → Bool) {p : OpenSpan → Bool}
    (hp : ∀ o ∈ s.opened, o.ref ∈ mine → p (o.numbered mine) = owned o.ref) (how : SpanEnd) :
    Spans.Portion mine (s.close (fun o => owned o.ref) how) (t.close p how) where
  count := h.count
  opened := by
    change t.opened.filter _ = (((s.opened.filter fun o => !owned o.ref).filter _).map _)
    rw [h.opened, List.filter_map,
      List.filter_comm (fun o : OpenSpan => decide (o.ref ∈ mine)) (fun o => !owned o.ref)]
    refine congrArg _ (List.filter_congr fun o ho => ?_)
    obtain ⟨ho, hmem⟩ := List.mem_filter.1 ho
    exact congrArg _ (hp o ho (of_decide_eq_true hmem))
  log := by
    change t.log ++ _ = List.map _ ((s.log ++ _).filter _)
    rw [List.filter_append, List.map_append, ← h.log, h.opened, List.filter_map, List.map_map,
      List.filter_map, List.map_map]
    refine congrArg _ ?_
    have hsame : (s.opened.filter fun o => decide (o.ref ∈ mine)).filter (p ∘ OpenSpan.numbered mine) =
        (s.opened.filter fun o => owned o.ref).filter fun o => decide (o.ref ∈ mine) := by
      rw [List.filter_comm, List.filter_filter, List.filter_filter]
      refine List.filter_congr fun o ho => ?_
      by_cases hmem : o.ref ∈ mine
      · simp [hmem, hp o ho hmem]
      · simp [hmem]
    rw [hsame]
    rfl

end Spans.Portion

/-! ## What the module does -/

namespace Portion

variable {mine : List OtelSpanRef} {a : ActiveSpans} {t : Spans} {ref : OtelSpanRef}

theorem new_not_mem (h : Portion mine a t) : spanHandle a.spans.count ∉ mine := fun hmem =>
  Spans.not_started_next (h.started _ hmem)

theorem isOpen_iff (h : Portion mine a t) (hmem : ref ∈ mine) :
    t.IsOpen (numbered mine ref) ↔ a.spans.IsOpen ref := by
  unfold Spans.IsOpen
  rw [h.spans.opened, List.map_map, List.mem_map, List.mem_map]
  constructor
  · rintro ⟨o, ho, heq⟩
    obtain ⟨ho, hin⟩ := List.mem_filter.1 ho
    exact ⟨o, ho, (numbered_inj (of_decide_eq_true hin) hmem).1 heq⟩
  · rintro ⟨o, ho, rfl⟩
    exact ⟨o, List.mem_filter.2 ⟨ho, decide_eq_true hmem⟩, rfl⟩

/-- What was there before a start is no news. -/
theorem mem_concat_iff (hr : a.spans.Started ref) :
    ref ∈ mine ++ [spanHandle a.spans.count] ↔ ref ∈ mine := by
  rw [List.mem_append, List.mem_singleton]
  exact or_iff_left fun heq => Spans.not_started_next (heq ▸ hr)

theorem start (h : Portion mine a t) (hok : a.Ok) (nestLevel : ℕ) (detached : Bool) :
    Portion (mine ++ [spanHandle a.spans.count]) (a.start nestLevel detached)
      (t.start false nestLevel detached) := by
  have hopen {o : OpenSpan} (ho : o ∈ a.spans.opened) : a.spans.Started o.ref :=
    hok.tally.started (List.mem_map_of_mem ho)
  have hopened : (a.spans.opened.filter fun o => decide (o.ref ∈ mine ++ [spanHandle a.spans.count])) =
      a.spans.opened.filter fun o => decide (o.ref ∈ mine) :=
    List.filter_congr fun o ho => decide_eq_decide.2 (mem_concat_iff (hopen ho))
  have hlog : (a.spans.log.filter fun x => decide (x.1 ∈ mine ++ [spanHandle a.spans.count])) =
      a.spans.log.filter fun x => decide (x.1 ∈ mine) :=
    List.filter_congr fun x hx => decide_eq_decide.2 (mem_concat_iff (hok.tally.started_of_log hx))
  have hactive : (a.active.filter fun i => decide (i.ref ∈ mine ++ [spanHandle a.spans.count])) =
      a.active.filter fun i => decide (i.ref ∈ mine) :=
    List.filter_congr fun i hi =>
      decide_eq_decide.2 (mem_concat_iff (hok.tally.started (hok.opened i hi)))
  have hself : spanHandle a.spans.count ∈ mine ++ [spanHandle a.spans.count] :=
    List.mem_append_right _ (List.mem_singleton_self _)
  have hnew (o : OpenSpan) (ho : o.ref = spanHandle a.spans.count) (rest : List OpenSpan) :
      ((o :: rest).filter fun o => decide (o.ref ∈ mine ++ [spanHandle a.spans.count])) =
        o :: rest.filter fun o => decide (o.ref ∈ mine ++ [spanHandle a.spans.count]) :=
    List.filter_cons_of_pos (decide_eq_true (ho ▸ hself))
  refine ⟨?_, fun ref hmem => ?_, ⟨?_, ?_, ?_⟩, ?_, fun i hi hmem => ?_⟩
  · refine List.pairwise_append.2 ⟨h.ascending, List.pairwise_singleton _ _, fun ref hmem new hnew => ?_⟩
    obtain ⟨n, hn, rfl⟩ := h.started ref hmem
    rw [List.mem_singleton.1 hnew]
    change (n : ℤ) + 1 < (a.spans.count : ℤ) + 1
    omega
  · rcases List.mem_append.1 hmem with hmem | hmem
    · exact (h.started ref hmem).mono (Nat.le_succ _)
    · exact ⟨a.spans.count, Nat.lt_succ_self _, List.mem_singleton.1 hmem⟩
  · rw [List.length_append, List.length_singleton, ← h.spans.count]
    rfl
  · change _ :: t.opened = List.map _ (List.filter _ (_ :: a.spans.opened))
    rw [hnew _ rfl, List.map_cons, hopened, h.spans.opened, h.spans.count]
    unfold OpenSpan.numbered
    rw [numbered_concat_self h.new_not_mem]
    refine congrArg _ (List.map_congr_left fun o ho => ?_)
    rw [numbered_concat_of_mem (of_decide_eq_true (List.mem_filter.1 ho).2)]
  · change t.log = List.map _ (List.filter _ a.spans.log)
    rw [hlog, h.spans.log]
    refine List.map_congr_left fun x hx => ?_
    rw [numbered_concat_of_mem (of_decide_eq_true (List.mem_filter.1 hx).2)]
  · change _ = List.map _ (List.filter _ (List.filter _ (_ :: a.spans.opened)))
    rw [hnew _ rfl, hopened]
    unfold ActiveSpans.start
    cases detached with
    | true =>
      change List.map _ (List.filter _ a.active) = _
      rw [hactive, h.stack.active, List.filter_cons_of_neg (by simp)]
    | false =>
      change List.map _ (List.filter _ (_ :: a.active)) = _
      have hitem (i : ActiveItem) (hi : i.ref = spanHandle a.spans.count) (rest : List ActiveItem) :
          ((i :: rest).filter fun i => decide (i.ref ∈ mine ++ [spanHandle a.spans.count])) =
            i :: rest.filter fun i => decide (i.ref ∈ mine ++ [spanHandle a.spans.count]) :=
        List.filter_cons_of_pos (decide_eq_true (hi ▸ hself))
      rw [hitem _ rfl, hactive, List.map_cons, h.stack.active, List.filter_cons_of_pos (by simp),
        List.map_cons]
  · unfold ActiveSpans.start at hi
    cases detached with
    | true =>
      have hi : i ∈ a.active := hi
      exact h.stack.starts i hi ((mem_concat_iff (hok.tally.started (hok.opened i hi))).1 hmem)
    | false =>
      rcases List.mem_cons.1 hi with rfl | hi
      · rfl
      · exact h.stack.starts i hi ((mem_concat_iff (hok.tally.started (hok.opened i hi))).1 hmem)

theorem mem_opened_mine {o : OpenSpan} :
    o ∈ (a.spans.opened.filter fun o => decide (o.ref ∈ mine)) ↔ o ∈ a.spans.opened ∧ o.ref ∈ mine := by
  rw [List.mem_filter, decide_eq_true_iff]

theorem onStack_iff (h : Portion mine a t) (hmem : ref ∈ mine) :
    a.OnStack ref ↔ ∃ o ∈ a.spans.opened, o.ref = ref ∧ o.detached = false := by
  have hfilter : a.OnStack ref ↔
      ref ∈ (a.active.filter fun i => decide (i.ref ∈ mine)).map ActiveItem.ref := by
    unfold ActiveSpans.OnStack
    rw [List.mem_map, List.mem_map]
    constructor
    · rintro ⟨i, hi, rfl⟩
      exact ⟨i, List.mem_filter.2 ⟨hi, decide_eq_true hmem⟩, rfl⟩
    · rintro ⟨i, hi, rfl⟩
      exact ⟨i, (List.mem_filter.1 hi).1, rfl⟩
  rw [hfilter, h.stack.active, List.mem_map]
  constructor
  · rintro ⟨o, ho, rfl⟩
    obtain ⟨ho, hd⟩ := List.mem_filter.1 ho
    exact ⟨o, (mem_opened_mine.1 ho).1, rfl, by simpa using hd⟩
  · rintro ⟨o, ho, rfl, hd⟩
    exact ⟨o, List.mem_filter.2 ⟨mem_opened_mine.2 ⟨ho, hmem⟩, by simp [hd]⟩, rfl⟩

theorem any_onStack (h : Portion mine a t) (hmem : ref ∈ mine) :
    (t.opened.any fun x => decide (x.ref = numbered mine ref ∧ x.detached = false)) =
      decide (a.OnStack ref) := by
  rw [Bool.eq_iff_iff, List.any_eq_true, decide_eq_true_iff, h.onStack_iff hmem, h.spans.opened]
  constructor
  · rintro ⟨y, hy, hmatch⟩
    obtain ⟨x, hx, rfl⟩ := List.mem_map.1 hy
    obtain ⟨href, hd⟩ := of_decide_eq_true hmatch
    obtain ⟨hx, hin⟩ := mem_opened_mine.1 hx
    exact ⟨x, hx, (numbered_inj hin hmem).1 href, hd⟩
  · rintro ⟨x, hx, rfl, hd⟩
    exact ⟨_, List.mem_map_of_mem (mem_opened_mine.2 ⟨hx, hmem⟩), decide_eq_true ⟨rfl, hd⟩⟩

/-- What stands above a span of the module is what the module started later. -/
theorem mem_above_iff (h : Portion mine a t) (hord : a.spans.Ordered) (hmem : ref ∈ mine)
    (hstack : a.OnStack ref) {j : ActiveItem} (hj : j ∈ a.active) (hj' : j.ref ∈ mine) :
    j ∈ a.above ref ↔ ref.v < j.ref.v := by
  obtain ⟨i, hi, rfl⟩ := List.mem_map.1 hstack
  have hdescending : (a.active.filter fun i => decide (i.ref ∈ mine)).Pairwise
      fun i j => j.ref.v < i.ref.v := by
    have hrefs : (((a.spans.opened.filter fun o => decide (o.ref ∈ mine)).filter
        fun o => !o.detached).map OpenSpan.ref).Pairwise fun r r' => r'.v < r.v :=
      List.pairwise_map.2 ((hord.1.filter _).filter _)
    rw [← h.stack.active, List.pairwise_map] at hrefs
    exact hrefs
  have hcut : ((a.above i.ref).filter fun i => decide (i.ref ∈ mine)) =
      (a.active.filter fun i => decide (i.ref ∈ mine)).filter fun j => decide (i.ref.v < j.ref.v) := by
    rw [ActiveSpans.above, if_pos hstack, Descending.filter_takeWhile fun k _ hk => ?_]
    · exact Descending.takeWhile_eq_filter hdescending (List.mem_filter.2 ⟨hi, decide_eq_true hmem⟩)
        fun k _ => ActiveSpans.Shows.ne_iff k.ref i.ref
    · rw [decide_eq_false_iff_not, not_not] at hk
      exact decide_eq_true (hk ▸ hmem)
  have hcut' := congrArg (j ∈ ·) hcut
  simp only [List.mem_filter, hj, hj', decide_true, and_true, true_and, decide_eq_true_iff] at hcut'
  exact iff_of_eq hcut'

/-- The spans of the module that an end unwinds are those on the stack that it started later. -/
theorem above_eq (h : Portion mine a t) (hok : a.Ok) (hord : a.spans.Ordered) (hmem : ref ∈ mine)
    {o : OpenSpan} (ho : o ∈ a.spans.opened) (ho' : o.ref ∈ mine) :
    t.above (numbered mine ref) (o.numbered mine) = a.unwinds ref o.ref := by
  have hlt : decide ((numbered mine ref).v < (o.numbered mine).ref.v) = decide (ref.v < o.ref.v) :=
    decide_eq_decide.2 (numbered_lt_iff h.ascending hmem ho')
  unfold Spans.above
  rw [h.any_onStack hmem, hlt]
  change (!o.detached && decide (ref.v < o.ref.v) && _) = _
  by_cases hstack : a.OnStack ref
  · rw [decide_eq_true hstack, Bool.and_true]
    cases hd : o.detached with
    | true =>
      -- Nothing on the stack is the detached span.
      refine (Bool.eq_false_iff.2 fun hunwinds => ?_).symm
      obtain ⟨j, hj, hmatch⟩ := List.any_eq_true.1 hunwinds
      rw [Bool.and_eq_true, decide_eq_true_iff] at hmatch
      have hin : a.OnStack o.ref := hmatch.1 ▸ List.mem_map_of_mem (ActiveSpans.above_subset ref hj)
      obtain ⟨x, hx, href, hxd⟩ := (h.onStack_iff ho').1 hin
      rw [Descending.eq_of_key hord.1 hx ho (congrArg OtelSpanRef.v href), hd] at hxd
      cases hxd
    | false =>
      obtain ⟨j, hj, href⟩ := List.mem_map.1 ((h.onStack_iff ho').2 ⟨o, ho, rfl, hd⟩)
      have hjmine : j.ref ∈ mine := href ▸ ho'
      rw [Bool.not_false, Bool.true_and, ← href, Bool.eq_iff_iff, decide_eq_true_iff,
        ActiveSpans.unwinds_iff hok hj (h.stack.starts j hj hjmine),
        h.mem_above_iff hord hmem hstack hj hjmine]
  · rw [decide_eq_false hstack, Bool.and_false, ActiveSpans.unwinds,
      ActiveSpans.above_of_not_onStack hstack]
    rfl

/-- Whatever leaves the module's spans as they are. -/
theorem same {a' : ActiveSpans} (h : Portion mine a t) (hcount : a.spans.count ≤ a'.spans.count)
    (hopened : (a'.spans.opened.filter fun o => decide (o.ref ∈ mine)) =
      a.spans.opened.filter fun o => decide (o.ref ∈ mine))
    (hlog : (a'.spans.log.filter fun x => decide (x.1 ∈ mine)) =
      a.spans.log.filter fun x => decide (x.1 ∈ mine))
    (hactive : (a'.active.filter fun i => decide (i.ref ∈ mine)) =
      a.active.filter fun i => decide (i.ref ∈ mine)) : Portion mine a' t where
  ascending := h.ascending
  started ref hr := (h.started ref hr).mono hcount
  spans := ⟨h.spans.count, hopened ▸ h.spans.opened, hlog ▸ h.spans.log⟩
  stack := by
    refine h.stack.keep (fun _ => true) ?_ ?_
    · rw [hopened, List.filter_true]
    · rw [hactive, List.filter_true]

theorem touch (h : Portion mine a t) (ref : OtelSpanRef) : Portion mine (a.touch ref) t :=
  h.same (by simp) (by simp) (by simp) (by simp)

theorem finish (h : Portion mine a t) (hok : a.Ok) (hord : a.spans.Ordered)
    (hmem : ref.v = 0 ∨ ref ∈ mine) : Portion mine (a.finish ref) (t.finish (numbered mine ref)) := by
  by_cases hin : ref ∈ mine
  · have hv : (numbered mine ref).v ≠ 0 := fun hv => numbered_eq_zero_iff.1 hv hin
    rw [ActiveSpans.finish, Spans.finish, if_neg hv]
    by_cases hopen : a.spans.IsOpen ref
    · rw [if_pos hopen, ActiveSpans.touch_usable (.inr (.inl hopen)), if_pos ((h.isOpen_iff hin).2 hopen)]
      refine ⟨h.ascending, fun r hr => (h.started r hr).mono (Nat.le_of_eq ?_), ?_, ?_⟩
      · exact ActiveSpans.popItem_count.symm
      · have hunwound : Spans.Portion mine (a.popItem ref).spans
            (t.close (t.above (numbered mine ref)) .unwound) := by
          rw [ActiveSpans.popItem_spans]
          exact h.spans.close (a.unwinds ref) (fun o ho hmine => h.above_eq hok hord hin ho hmine) .unwound
        exact hunwound.close (fun r => decide (r = ref))
          (fun o _ hmine => decide_eq_decide.2 (numbered_inj hmine hin)) .ended
      · refine h.stack.keep (fun r => !a.unwinds ref r && decide (r ≠ ref)) ?_
          (ActiveSpans.popItem_mine hok h.stack ref)
        change List.filter _ (List.filter _ (a.popItem ref).spans.opened) = _
        rw [ActiveSpans.popItem_spans]
        simp only [Spans.close, List.filter_filter]
        refine List.filter_congr fun o _ => ?_
        simp only [decide_not, Bool.and_comm, Bool.and_left_comm]
    · rw [if_neg hopen, if_neg fun ho => hopen ((h.isOpen_iff hin).1 ho)]
      have htouch := h.touch ref
      exact { htouch with spans := ⟨htouch.spans.count, htouch.spans.opened, htouch.spans.log⟩ }
  · have hv : ref.v = 0 := hmem.resolve_right hin
    have hclosed : ¬ a.spans.IsOpen ref := fun ho => (hok.tally.started ho).ne_zero hv
    rw [ActiveSpans.finish, if_neg hclosed, ActiveSpans.touch_usable (.inl hv), Spans.finish,
      if_pos (numbered_eq_zero_iff.2 hin)]
    exact h

/-- Spans leave by their handles. -/
theorem leave (h : Portion mine a t) {owned : OtelSpanRef → Bool} {p : OpenSpan → Bool}
    (hp : ∀ o ∈ a.spans.opened, o.ref ∈ mine → p (o.numbered mine) = owned o.ref) (how : SpanEnd) :
    Portion mine (a.release owned how) (t.close p how) where
  ascending := h.ascending
  started := h.started
  spans := h.spans.close owned hp how
  stack := h.stack.keep (fun r => !owned r) (List.filter_comm _ _ _) (List.filter_comm _ _ _)

theorem discard (h : Portion mine a t) (hok : a.Ok) (hmem : ref.v = 0 ∨ ref ∈ mine) :
    Portion mine (a.release (fun r => decide (r = ref)) .discarded) (t.discard (numbered mine ref)) := by
  have hnone (hclosed : ¬ a.spans.IsOpen ref) :
      Portion mine (a.release (fun r => decide (r = ref)) .discarded) t := by
    have hstack : ∀ i ∈ a.active, i.ref ≠ ref := fun i hi heq => hclosed (heq ▸ hok.opened i hi)
    have hspans : (a.release (fun r => decide (r = ref)) .discarded).spans = a.spans :=
      Spans.close_none fun o ho => decide_eq_false fun heq => hclosed (heq ▸ List.mem_map_of_mem ho)
    have hactive : (a.release (fun r => decide (r = ref)) .discarded).active = a.active :=
      List.filter_eq_self.2 fun i hi => by simp [hstack i hi]
    exact h.same (by rw [hspans]) (by rw [hspans]) (by rw [hspans]) (by rw [hactive])
  by_cases hin : ref ∈ mine
  · have hv : (numbered mine ref).v ≠ 0 := fun hv => numbered_eq_zero_iff.1 hv hin
    rw [Spans.discard, if_neg hv]
    by_cases hopen : a.spans.IsOpen ref
    · rw [if_pos ((h.isOpen_iff hin).2 hopen)]
      exact h.leave (fun o _ hmine => decide_eq_decide.2 (numbered_inj hmine hin)) .discarded
    · rw [if_neg fun ho => hopen ((h.isOpen_iff hin).1 ho)]
      have hsame := hnone hopen
      exact { hsame with spans := ⟨hsame.spans.count, hsame.spans.opened, hsame.spans.log⟩ }
  · rw [Spans.discard, if_pos (numbered_eq_zero_iff.2 hin)]
    exact hnone fun ho => (hok.tally.started ho).ne_zero (hmem.resolve_right hin)

/-! ## What others do -/

/-- The numbers of some of the module's spans. -/
def lostOf (mine : List OtelSpanRef) (owned : OtelSpanRef → Bool) : List OtelSpanRef :=
  (mine.filter owned).map (numbered mine)

theorem mem_lostOf {owned : OtelSpanRef → Bool} (hmem : ref ∈ mine) :
    decide (numbered mine ref ∈ lostOf mine owned) = owned ref := by
  rw [Bool.eq_iff_iff, decide_eq_true_iff, lostOf, List.mem_map]
  constructor
  · rintro ⟨r, hr, heq⟩
    obtain ⟨hr, howned⟩ := List.mem_filter.1 hr
    rwa [← (numbered_inj hr hmem).1 heq]
  · exact fun howned => ⟨ref, List.mem_filter.2 ⟨hmem, howned⟩, rfl⟩

/-- Something that happens to another span takes those above it along. -/
theorem popOther (h : Portion mine a t) (hok : a.Ok) (hnot : ref ∉ mine) :
    Portion mine (a.popItem ref)
      (t.close (fun o => decide (o.ref ∈ lostOf mine (a.unwinds ref))) .unwound) where
  ascending := h.ascending
  started r hr := by
    refine (h.started r hr).mono (Nat.le_of_eq ?_)
    rw [ActiveSpans.popItem_count]
  spans := by
    rw [ActiveSpans.popItem_spans]
    exact h.spans.close _ (fun _ _ hmine => mem_lostOf hmine) .unwound
  stack := by
    refine h.stack.keep (fun r => !a.unwinds ref r) ?_ ?_
    · rw [ActiveSpans.popItem_spans]
      exact List.filter_comm _ _ _
    · rw [ActiveSpans.popItem_mine hok h.stack ref]
      refine List.filter_congr fun i hi => ?_
      have hne : i.ref ≠ ref := fun heq => hnot (heq ▸ of_decide_eq_true (List.mem_filter.1 hi).2)
      rw [decide_eq_true hne, Bool.and_true]

/-- Nothing of the module's is lost. -/
theorem close_nil (t : Spans) (how : SpanEnd) : t.close (fun o => decide (o.ref ∈ ([] : List OtelSpanRef))) how = t :=
  Spans.close_none fun _ _ => rfl

/-- What others do comes to some of the module's spans leaving, in one way. -/
theorem other (h : Portion mine a t) (hok : a.Ok) {x : ClientAct} (hx : x.Spares mine) :
    ∃ (lost : List OtelSpanRef) (how : SpanEnd), Portion mine (a.act x) (t.close (fun o => decide (o.ref ∈ lost)) how) := by
  have hnone {a' : ActiveSpans} (h' : Portion mine a' t) :
      ∃ (lost : List OtelSpanRef) (how : SpanEnd), Portion mine a' (t.close (fun o => decide (o.ref ∈ lost)) how) :=
    ⟨[], .ended, (close_nil t .ended).symm ▸ h'⟩
  cases x with
  | start nestLevel detached =>
    have hnew := h.new_not_mem
    refine hnone (h.same (Nat.le_succ _) (List.filter_cons_of_neg (by simpa using hnew)) rfl ?_)
    change List.filter _ (if detached = true then _ else _) = _
    cases detached with
    | true => rfl
    | false => exact List.filter_cons_of_neg (by simpa using hnew)
  | finish ref =>
    have hnot : ref ∉ mine := hx
    change ∃ (lost : List OtelSpanRef) (how : SpanEnd), Portion mine (a.finish ref) _
    rw [ActiveSpans.finish]
    split_ifs with hopen
    · refine ⟨_, _, ((h.touch ref).popOther (hok.touch ref) hnot).same (Nat.le_refl _) ?_ ?_ rfl⟩
      · refine (List.filter_comm _ _ _).trans (List.filter_eq_self.2 fun o ho => ?_)
        have hne : o.ref ≠ ref := fun heq => hnot (heq ▸ of_decide_eq_true (List.mem_filter.1 ho).2)
        simp [hne]
      · change List.filter _ (_ ++ _) = _
        refine (List.filter_append ..).trans (List.append_right_eq_self.2 ?_)
        refine List.filter_eq_nil_iff.2 fun y hy hmine => hnot ?_
        obtain ⟨o, ho, rfl⟩ := List.mem_map.1 hy
        rw [← of_decide_eq_true (List.mem_filter.1 ho).2]
        exact of_decide_eq_true hmine
    · exact hnone (h.touch ref)
  | activate ref nestLevel room =>
    have hnot : ref ∉ mine := hx
    refine hnone ?_
    change Portion mine (a.activate ref nestLevel room).1 t
    rw [ActiveSpans.activate]
    split_ifs
    · refine (h.touch ref).same (Nat.le_refl _) rfl rfl ?_
      rw [ActiveSpans.touch_active]
      exact List.filter_cons_of_neg (by simpa using hnot)
    · exact h.touch ref
  | deactivate act =>
    have hnot : act ∉ mine := hx
    change ∃ (lost : List OtelSpanRef) (how : SpanEnd), Portion mine (a.deactivate act) _
    rw [ActiveSpans.deactivate]
    split_ifs
    · exact ⟨_, _, h.popOther hok hnot⟩
    · exact hnone h
  | release owned how => exact ⟨_, how, h.leave (fun _ _ hmine => mem_lostOf hmine) how⟩
  | dropActivations nestLevel =>
    refine hnone (h.same (Nat.le_refl _) rfl rfl ?_)
    refine (List.filter_comm _ _ _).trans (List.filter_eq_self.2 fun i hi => ?_)
    obtain ⟨hi, hmine⟩ := List.mem_filter.1 hi
    simp [h.stack.starts i hi (of_decide_eq_true hmine)]

end Portion

end PostgresOtel
