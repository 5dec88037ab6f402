import PostgresOtel.Sdt.Mask

/-!
# The bridge holds what it has opened

`Held` says that every span the bridge has open is on one of its stacks or in the transaction slot,
and that the entries of the phase stack belong to phases whose `DONE` is still to come.  The
`TRANSACTION_COMMIT` probe breaks the first by forgetting both stacks, and a caught error the second
by leaving entries of phases that are over; every other step keeps both.
-/

set_option autoImplicit false

namespace PostgresOtel

open SdtSt

/-- The stack entry a phase's `START` pushed. -/
def CorePhase.entry (p : CorePhase) : Option (OtelSpanRef × SdtPhase) :=
  p.pushed.map fun ref => (ref, p.phase)

/-- The entries that phases have pushed, from the top. -/
def entriesOf (phases : List CorePhase) : List (OtelSpanRef × SdtPhase) :=
  phases.filterMap CorePhase.entry

/-- The phases that are open or were abandoned, innermost first. -/
def SdtSt.allPhases (s : SdtSt) : List CorePhase := s.phases ++ s.abandoned

structure Held (clientOrWorker : Bool) (s : SdtSt) : Prop where
  mask : MaskOk s
  ordered : s.spans.Ordered
  phaseHeld : ∀ o ∈ s.spans.opened, o.detached = false → o.ref ∈ s.sdtStack.map Prod.fst
  detachedHeld : ∀ o ∈ s.spans.opened, o.detached = true →
    o.ref ∈ s.sortStack ∨ o.ref = s.txnSpan
  entries : s.sdtStack.Sublist (entriesOf s.allPhases)
  since : s.allPhases.Pairwise fun p q => ∀ ref, q.pushed = some ref → ref.v ≤ p.since
  pushed : ∀ p ∈ s.allPhases, ∀ ref, p.pushed = some ref →
    ref.v ≤ s.spans.count ∧ p.inCritSection = false ∧ clientOrWorker = true ∧
      (ref.v = 0 ∨ p.since < ref.v)
  txnClient : s.txnSpan.v ≠ 0 → clientOrWorker = true

/-- The steps of runs in which no handle is forgotten: a `TRANSACTION_COMMIT` probe finds no open
span on either stack, and a caught error no entry of a phase it ends. -/
def SdtAct.KeepsHandles (s : SdtSt) : SdtAct → Prop
  | .transactionCommit _ => s.enabledMask .transactionCommit = true →
      ∀ o ∈ s.spans.opened, o.ref ∉ s.sdtStack.map Prod.fst ∧ o.ref ∉ s.sortStack
  | .caughtError ended => ∀ p ∈ s.phases.take ended, ∀ e ∈ p.entry, e ∉ s.sdtStack
  | _ => True

theorem held_init (clientOrWorker : Bool) : Held clientOrWorker {} where
  mask := .init
  ordered := Spans.ordered_init
  phaseHeld _ h := absurd h List.not_mem_nil
  detachedHeld _ h := absurd h List.not_mem_nil
  entries := List.Sublist.refl _
  since := .nil
  pushed _ h := absurd h List.not_mem_nil
  txnClient h := absurd rfl h

namespace Held

variable {c : Bool} {s s' : SdtSt} {env : SdtEnv}

/-- Handles of open spans are not null. -/
theorem ref_ne_none (h : Held c s) {o : OpenSpan} (ho : o ∈ s.spans.opened) :
    o.ref ≠ otelSpanNone := by
  intro heq
  have hpos := (h.ordered.2 o ho).1
  rw [heq] at hpos
  exact absurd hpos (by decide)

/-- Spans, entries and phases may go as long as what the rest needs stays. -/
theorem shrink (h : Held c s) (hmask : MaskOk s') (hord : s'.spans.Ordered)
    (hcount : s.spans.count ≤ s'.spans.count)
    (hphase : ∀ o ∈ s'.spans.opened, o ∈ s.spans.opened ∧
      (o.ref ∈ s.sdtStack.map Prod.fst → o.ref ∈ s'.sdtStack.map Prod.fst) ∧
      (o.ref ∈ s.sortStack ∨ o.ref = s.txnSpan → o.ref ∈ s'.sortStack ∨ o.ref = s'.txnSpan))
    (hall : s'.allPhases.Sublist s.allPhases) (hstack : s'.sdtStack.Sublist (entriesOf s'.allPhases))
    (htxn : s'.txnSpan.v ≠ 0 → s.txnSpan.v ≠ 0) : Held c s' := by
  refine ⟨hmask, hord, fun o ho hd => ?_, fun o ho hd => ?_, hstack, h.since.sublist hall, ?_,
    fun hv => h.txnClient (htxn hv)⟩
  · obtain ⟨hm, hp, -⟩ := hphase o ho
    exact hp (h.phaseHeld o hm hd)
  · obtain ⟨hm, -, hs⟩ := hphase o ho
    exact hs (h.detachedHeld o hm hd)
  · intro p hp ref href
    obtain ⟨hle, hrest⟩ := h.pushed p (hall.subset hp) ref href
    exact ⟨by omega, hrest⟩

/-! ## The transaction's probes -/

theorem eq_none {ref : OtelSpanRef} (h : ref.v = 0) : ref = otelSpanNone := by
  cases ref with
  | mk v => exact congrArg OtelSpanRef.mk h

theorem transactionStart (h : Held c s) (hc : env.clientOrWorker = c) :
    Held c (s.fire env .transactionStart) := by
  refine fire_cases _ h fun hm hadmits => ?_
  have hclient : c = true := by
    rcases hadmits.1 with hw | hid
    · exact hc.symm.trans hw
    · cases hid
  have hcommit : s.enabledMask .transactionCommit = true :=
    h.mask.ends_enabled hm List.mem_cons_self
  have habort : s.enabledMask .transactionAbort = true :=
    h.mask.ends_enabled hm (List.mem_cons_of_mem _ List.mem_cons_self)
  change Held c (if s.txnSpan.v = 0 then _ else s)
  split_ifs with hv
  · have hmask {s' : SdtSt} (hw : s'.wantedMask = s.wantedMask)
        (he : s'.enabledMask = s.enabledMask) (hd : s'.sdtStack = s.sdtStack)
        (hs : s'.sortStack = s.sortStack) : MaskOk s' :=
      h.mask.congr hw he (hd ▸ h.mask.done) (hs ▸ h.mask.sortDone) fun _ => ⟨hcommit, habort⟩
    have hsort : ∀ o ∈ s.spans.opened, o.detached = true → o.ref ∈ s.sortStack := by
      intro o ho hd
      rcases h.detachedHeld o ho hd with hs | ht
      · exact hs
      · exact absurd (ht.trans (eq_none hv)) (h.ref_ne_none ho)
    unfold startSpan
    split_ifs with hopens
    · refine ⟨hmask rfl rfl rfl rfl, h.ordered.start .., ?_, ?_, h.entries, h.since, ?_,
        fun _ => hclient⟩
      · refine List.forall_mem_cons.2 ⟨fun hd => absurd hd (by simp), fun o ho hd => ?_⟩
        exact h.phaseHeld o ho hd
      · exact List.forall_mem_cons.2 ⟨fun _ => .inr rfl, fun o ho hd => .inl (hsort o ho hd)⟩
      · intro p hp ref href
        obtain ⟨hle, hrest⟩ := h.pushed p hp ref href
        refine ⟨?_, hrest⟩
        change ref.v ≤ ((s.spans.count + 1 : ℕ) : ℤ)
        omega
    · exact ⟨hmask rfl rfl rfl rfl, h.ordered, h.phaseHeld, fun o ho hd => .inl (hsort o ho hd),
        h.entries, h.since, h.pushed, fun hv => absurd rfl hv⟩
  · exact h

/-- Ending the transaction's span, and nothing else, with the slot. -/
theorem mem_endTxnSpan (h : Held c s) {o : OpenSpan} (ho : o ∈ s.endTxnSpan.spans.opened) :
    o ∈ s.spans.opened ∧ o.ref ≠ s.txnSpan := by
  unfold endTxnSpan at ho
  split_ifs at ho with hv
  · exact Spans.mem_finish h.ordered ho
  · refine ⟨ho, fun heq => ?_⟩
    exact h.ref_ne_none ho (heq.trans (eq_none (not_not.1 hv)))

theorem endTxnSpan_same (s : SdtSt) : s.endTxnSpan.sdtStack = s.sdtStack ∧
    s.endTxnSpan.sortStack = s.sortStack ∧ s.endTxnSpan.wantedMask = s.wantedMask ∧
    s.endTxnSpan.phases = s.phases ∧ s.endTxnSpan.abandoned = s.abandoned ∧
    s.endTxnSpan.spans.count = s.spans.count ∧ s.endTxnSpan.txnSpan.v = 0 := by
  unfold endTxnSpan
  split_ifs with hv
  · exact ⟨rfl, rfl, rfl, rfl, rfl, Spans.finish_count, rfl⟩
  · exact ⟨rfl, rfl, rfl, rfl, rfl, rfl, not_not.1 hv⟩

theorem endTxnSpan_ordered (h : Held c s) : s.endTxnSpan.spans.Ordered := by
  unfold endTxnSpan
  split_ifs
  · exact h.ordered.finish _
  · exact h.ordered

theorem allPhases_congr (hp : s'.phases = s.phases) (ha : s'.abandoned = s.abandoned) :
    s'.allPhases = s.allPhases := by
  rw [SdtSt.allPhases, SdtSt.allPhases, hp, ha]

/-- A commit forgets both stacks, which hold no open span. -/
theorem transactionCommit (h : Held c s) (hok : SdtAct.KeepsHandles s (.transactionCommit env)) :
    Held c (s.fire env .transactionCommit) := by
  refine fire_cases _ h fun hm _ => ?_
  obtain ⟨hsdt, hsort, hwanted, hphases, haband, hcount, htxn⟩ := endTxnSpan_same s
  have hmask : MaskOk (s.dispatch env .transactionCommit) :=
    MaskOk.sync fun id hid e he => by
      change s.endTxnSpan.wantedMask e = true
      change s.endTxnSpan.wantedMask id = true at hid
      rw [hwanted] at hid ⊢
      exact h.mask.paired id hid e he
  refine h.shrink hmask h.endTxnSpan_ordered hcount.ge (fun o ho => ?_)
    (allPhases_congr hphases haband ▸ List.Sublist.refl _) (List.nil_sublist _)
    fun hv => absurd htxn hv
  obtain ⟨hopen, hne⟩ := h.mem_endTxnSpan ho
  obtain ⟨hnot, hnot'⟩ := hok hm o hopen
  exact ⟨hopen, fun hin => absurd hin hnot, fun hin => absurd hin (not_or.2 ⟨hnot', hne⟩)⟩

/-- What is open after the bridge has discarded what it holds. -/
theorem mem_discarded {o : OpenSpan} (hord : s.spans.Ordered)
    (ho : o ∈ s.sdtDiscardOpenSpans.spans.opened) :
    o ∈ s.spans.opened ∧ o.ref ∉ s.sdtStack.map Prod.fst ∧ o.ref ∉ s.sortStack := by
  obtain ⟨hopen, hnot⟩ := Spans.mem_discards hord ho
  exact ⟨hopen, fun hin => hnot (List.mem_append_left _ hin),
    fun hin => hnot (List.mem_append_right _ hin)⟩

/-- An abort ends or discards everything the bridge has open. -/
theorem abortTransaction (h : Held c s) {unwinds : Bool}
    (hen : (SdtAct.abortTransaction env unwinds).Enabled c s) :
    Held c (s.next (.abortTransaction env unwinds)) ∧
      (s.next (.abortTransaction env unwinds)).spans.opened = [] := by
  obtain ⟨hc, hcrit⟩ := hen
  set fired := s.fire env .transactionAbort with hfired
  have hkeep : fired.spans.Ordered ∧ fired.spans.count = s.spans.count ∧
      fired.wantedMask = s.wantedMask ∧ fired.phases = s.phases ∧ fired.abandoned = s.abandoned ∧
      ∀ o ∈ fired.spans.opened, o ∈ s.spans.opened ∧
        (o.ref ∈ fired.sdtStack.map Prod.fst ∨ o.ref ∈ fired.sortStack) := by
    obtain ⟨hsdt, hsort, hwanted, hphases, haband, hcount, htxn⟩ := endTxnSpan_same s
    by_cases hrun : s.enabledMask .transactionAbort = true ∧ Admits env .transactionAbort
    · have heq : fired = s.endTxnSpan.sdtDiscardOpenSpans := by
        rw [hfired, SdtSt.fire, if_pos hrun.1, otelSdtHook, if_pos hrun.2]
        rfl
      rw [heq]
      refine ⟨h.endTxnSpan_ordered.discards _, (Spans.discards_count _).trans hcount, hwanted,
        hphases, haband, fun o ho => ?_⟩
      obtain ⟨ho', hnot, hnot'⟩ := mem_discarded h.endTxnSpan_ordered ho
      obtain ⟨hopen, hne⟩ := h.mem_endTxnSpan ho'
      rw [hsdt] at hnot
      rw [hsort] at hnot'
      cases hd : o.detached with
      | false => exact absurd (h.phaseHeld o hopen hd) hnot
      | true => exact absurd (h.detachedHeld o hopen hd) (not_or.2 ⟨hnot', hne⟩)
    · have heq : fired = s := by
        rw [hfired]
        unfold SdtSt.fire otelSdtHook
        split_ifs with hm ha
        · exact absurd ⟨hm, ha⟩ hrun
        · rfl
        · rfl
      have hnone : s.txnSpan.v = 0 := by
        by_contra hv
        have hclient := hc.trans (h.txnClient hv)
        exact hrun ⟨(h.mask.txnEnd hv).2, .inl hclient, hcrit⟩
      rw [heq]
      refine ⟨h.ordered, rfl, rfl, rfl, rfl, fun o ho => ⟨ho, ?_⟩⟩
      cases hd : o.detached with
      | false => exact .inl (h.phaseHeld o ho hd)
      | true =>
        rcases h.detachedHeld o ho hd with hs | ht
        · exact .inr hs
        · exact absurd (ht.trans (eq_none hnone)) (h.ref_ne_none ho)
  obtain ⟨hord, hcount, hwanted, hphases, haband, hopen⟩ := hkeep
  set aborted := fired.otelSdtXactCbAbort with haborted
  have hempty : aborted.spans.opened = [] := by
    refine List.eq_nil_iff_forall_not_mem.2 fun o ho => ?_
    have ho' : o ∈ ({ fired with txnSpan := otelSpanNone } : SdtSt).sdtDiscardOpenSpans.spans.opened :=
      ho
    obtain ⟨hin, hnot, hnot'⟩ := mem_discarded hord ho'
    rcases (hopen o hin).2 with hin' | hin'
    · exact hnot hin'
    · exact hnot' hin'
  have hmask : MaskOk aborted := MaskOk.sync fun id hid e he => by
    change fired.wantedMask e = true
    change fired.wantedMask id = true at hid
    rw [hwanted] at hid ⊢
    exact h.mask.paired id hid e he
  have hnext : s.next (.abortTransaction env unwinds) =
      if unwinds then { aborted with phases := [] } else aborted := rfl
  have hcount' : s.spans.count ≤ aborted.spans.count :=
    hcount.ge.trans (Spans.discards_count _).ge
  rw [hnext]
  split_ifs
  · refine ⟨h.shrink (hmask.congr rfl rfl hmask.done hmask.sortDone hmask.txnEnd)
      (hord.discards _) hcount' ?_ ?_ (List.nil_sublist _) fun hv => absurd rfl hv, hempty⟩
    · change ∀ o ∈ aborted.spans.opened, _
      rw [hempty]
      exact fun o ho => absurd ho List.not_mem_nil
    · have habd : aborted.abandoned = s.abandoned := haband
      change ([] ++ aborted.abandoned).Sublist s.allPhases
      rw [habd, List.nil_append]
      exact List.sublist_append_right _ _
  · refine ⟨h.shrink hmask (hord.discards _) hcount' ?_ ?_ (List.nil_sublist _)
      fun hv => absurd rfl hv, hempty⟩
    · rw [hempty]
      exact fun o ho => absurd ho List.not_mem_nil
    · have hsame : aborted.allPhases = s.allPhases := allPhases_congr hphases haband
      rw [hsame]

/-! ## Phases -/

theorem fire_phaseStart (s : SdtSt) (env : SdtEnv) (phase : SdtPhase) :
    s.fire env (.phaseStart phase) = if s.startPushes phase env then
      { (s.startSpan env env.noOwner false).1 with
        sdtStack := ((s.startSpan env env.noOwner false).2, phase) :: s.sdtStack } else s := by
  unfold SdtSt.fire otelSdtHook startPushes
  by_cases hm : s.enabledMask (.phaseStart phase) = true
  · by_cases ha : Admits env (.phaseStart phase)
    · rw [if_pos hm, if_pos ha, hm, decide_eq_true ha, Bool.true_and, Bool.true_and]
      rfl
    · rw [if_pos hm, if_neg ha, decide_eq_false ha]
      simp
  · rw [if_neg hm, (Bool.not_eq_true _).mp hm]
    simp

/-- A phase begins without an entry, or with an entry for a new span or for none. -/
theorem phaseStart_cases (h : Held c s) (phase : SdtPhase) (hc : env.clientOrWorker = c) :
    (s.startPushes phase env = false ∧ s.next (.phaseStart phase env) =
      { s with phases := ⟨phase, env.inCritSection, s.spans.count, none⟩ :: s.phases }) ∨
    ∃ spans' ref, (s.enabledMask (.phaseDone phase) = true ∧ env.inCritSection = false ∧ c = true) ∧
      s.next (.phaseStart phase env) =
        { s with
          spans := spans'
          sdtStack := (ref, phase) :: s.sdtStack
          phases := ⟨phase, env.inCritSection, s.spans.count, some ref⟩ :: s.phases } ∧
      spans'.Ordered ∧ s.spans.count ≤ spans'.count ∧
      (∀ o ∈ spans'.opened, o ∈ s.spans.opened ∨ o.detached = false ∧ o.ref = ref) ∧
      ref.v ≤ spans'.count ∧ (ref.v = 0 ∨ s.spans.count < ref.v) := by
  cases hp : s.startPushes phase env with
  | false =>
    refine .inl ⟨rfl, ?_⟩
    simp only [SdtSt.next, fire_phaseStart, hp, Bool.false_eq_true, if_false]
  | true =>
    have hparts : s.enabledMask (.phaseStart phase) = true ∧ Admits env (.phaseStart phase) := by
      unfold startPushes at hp
      rw [Bool.and_eq_true, Bool.and_eq_true, decide_eq_true_eq] at hp
      exact hp.1
    have hclient : c = true := by
      rcases hparts.2.1 with hw | hid
      · exact hc.symm.trans hw
      · cases hid
    have hdone := h.mask.ends_enabled hparts.1 (List.mem_cons_self (a := PgSdtProbeId.phaseDone phase))
    obtain ⟨spans', ref, hstart, hrest⟩ : ∃ spans' ref,
        s.startSpan env env.noOwner false = ({ s with spans := spans' }, ref) ∧ spans'.Ordered ∧
        s.spans.count ≤ spans'.count ∧
        (∀ o ∈ spans'.opened, o ∈ s.spans.opened ∨ o.detached = false ∧ o.ref = ref) ∧
        ref.v ≤ spans'.count ∧ (ref.v = 0 ∨ s.spans.count < ref.v) := by
      unfold startSpan
      split_ifs
      · have hv : (spanHandle s.spans.count).v = s.spans.count + 1 := rfl
        refine ⟨_, _, rfl, h.ordered.start .., Nat.le_succ _, ?_, ?_, .inr (by omega)⟩
        · exact List.forall_mem_cons.2 ⟨.inr ⟨rfl, rfl⟩, fun o ho => .inl ho⟩
        · change _ ≤ ((s.spans.count + 1 : ℕ) : ℤ)
          omega
      · exact ⟨s.spans, otelSpanNone, rfl, h.ordered, Nat.le_refl _, fun o ho => .inl ho,
          Int.natCast_nonneg _, .inl rfl⟩
    refine .inr ⟨spans', ref, ⟨hdone, hparts.2.2, hclient⟩, ?_, hrest⟩
    simp only [SdtSt.next, fire_phaseStart, hp, if_true, hstart, List.head?_cons, Option.map_some]

theorem phaseStart (h : Held c s) (phase : SdtPhase) (hc : env.clientOrWorker = c) :
    Held c (s.next (.phaseStart phase env)) := by
  have hsince : ∀ q ∈ s.allPhases, ∀ ref, q.pushed = some ref → ref.v ≤ s.spans.count :=
    fun q hq ref href => (h.pushed q hq ref href).1
  rcases h.phaseStart_cases phase hc with ⟨-, hnext⟩ |
    ⟨spans', ref, ⟨hdone, hcrit, hclient⟩, hnext, hord, hcount, hopen, href, hnew⟩
  · rw [hnext]
    refine ⟨h.mask.congr rfl rfl h.mask.done h.mask.sortDone h.mask.txnEnd, h.ordered, h.phaseHeld,
      h.detachedHeld, h.entries, List.pairwise_cons.2 ⟨hsince, h.since⟩,
      List.forall_mem_cons.2 ⟨fun ref href => ?_, h.pushed⟩, h.txnClient⟩
    exact absurd href.symm (Option.some_ne_none ref)
  · rw [hnext]
    refine ⟨h.mask.congr rfl rfl (List.forall_mem_cons.2 ⟨hdone, h.mask.done⟩) h.mask.sortDone
      h.mask.txnEnd, hord, fun o ho hd => ?_, fun o ho hd => ?_, h.entries.cons_cons _,
      List.pairwise_cons.2 ⟨hsince, h.since⟩, List.forall_mem_cons.2 ⟨?_, ?_⟩, h.txnClient⟩
    · rcases hopen o ho with hin | ⟨-, heq⟩
      · exact List.mem_cons_of_mem _ (h.phaseHeld o hin hd)
      · exact heq ▸ List.mem_cons_self
    · rcases hopen o ho with hin | ⟨hnot, -⟩
      · exact h.detachedHeld o hin hd
      · exact absurd (hd.symm.trans hnot) (by decide)
    · intro ref' href'
      obtain rfl := Option.some.inj href'
      exact ⟨href, hcrit, hclient, hnew⟩
    · intro p hp' ref' href'
      obtain ⟨hle, hrest⟩ := h.pushed p hp' ref' href'
      refine ⟨?_, hrest⟩
      change ref'.v ≤ (spans'.count : ℤ)
      omega

theorem entriesOf_cons (p : CorePhase) (ps : List CorePhase) :
    entriesOf (p :: ps) = p.entry.toList ++ entriesOf ps := by
  unfold entriesOf
  cases he : p.entry with
  | none => rw [List.filterMap_cons_none he]; rfl
  | some e => rw [List.filterMap_cons_some he]; rfl

/-- An entry that is not the newest phase's own leaves the entries of the other phases. -/
theorem tail_sublist {x : OtelSpanRef × SdtPhase} {l rest : List (OtelSpanRef × SdtPhase)}
    {e : Option (OtelSpanRef × SdtPhase)} (h : (x :: l).Sublist (e.toList ++ rest)) :
    l.Sublist rest := by
  cases e with
  | none => exact (List.sublist_cons_self x l).trans h
  | some e => exact h.tail

/-- A `DONE` whose family is not on top does nothing. -/
theorem phaseDone_skip {phase : SdtPhase} (hhead : ∀ e ∈ s.sdtStack.head?, e.2 ≠ phase) :
    s.fire env (.phaseDone phase) = s := by
  refine fire_cases (P := fun s' => s' = s) _ rfl fun _ _ => ?_
  cases hstack : s.sdtStack with
  | nil => simp only [dispatch, hstack]
  | cons x l =>
    obtain ⟨ref, started⟩ := x
    have hne : started ≠ phase := hhead (ref, started) (by rw [hstack]; rfl)
    simp only [dispatch, hstack, if_neg hne]

theorem phaseDone_pop {ref : OtelSpanRef} {phase : SdtPhase} {l : List (OtelSpanRef × SdtPhase)}
    (hstack : s.sdtStack = (ref, phase) :: l) (hm : s.enabledMask (.phaseDone phase) = true)
    (ha : Admits env (.phaseDone phase)) :
    s.fire env (.phaseDone phase) =
      { { s with sdtStack := l }.sdtSyncProbeMask with spans := s.spans.finish ref } := by
  rw [SdtSt.fire, if_pos hm, otelSdtHook, if_pos ha]
  simp only [dispatch, hstack, if_true]
  rfl

/-- A `DONE` whose phase has its own entry on top ends that entry's span. -/
theorem phaseDone_own (h : Held c s) {p : CorePhase} (hp : p ∈ s.allPhases) {ref : OtelSpanRef}
    {l : List (OtelSpanRef × SdtPhase)} (hpushed : p.pushed = some ref)
    (hstack : s.sdtStack = (ref, p.phase) :: l) (hc : env.clientOrWorker = c)
    (hcrit : env.inCritSection = p.inCritSection) :
    s.fire env (.phaseDone p.phase) =
      { { s with sdtStack := l }.sdtSyncProbeMask with spans := s.spans.finish ref } := by
  obtain ⟨-, hcrit', hclient, -⟩ := h.pushed p hp ref hpushed
  have hm := h.mask.done (ref, p.phase) (by rw [hstack]; exact List.mem_cons_self)
  exact phaseDone_pop hstack hm ⟨.inl (hc.trans hclient), hcrit.trans hcrit'⟩

/-- A `DONE` finds the top entry to be of its family and ends it, or leaves the stack alone; either
way no entry of its own phase is left. -/
theorem phaseDone_cases (h : Held c s) {p : CorePhase} {ps : List CorePhase}
    (hphases : s.phases = p :: ps) (hc : env.clientOrWorker = c)
    (hcrit : env.inCritSection = p.inCritSection) :
    (s.fire env (.phaseDone p.phase) = s ∧ s.sdtStack.Sublist (entriesOf (ps ++ s.abandoned))) ∨
      ∃ ref l, s.sdtStack = (ref, p.phase) :: l ∧ l.Sublist (entriesOf (ps ++ s.abandoned)) ∧
        s.fire env (.phaseDone p.phase) =
          { { s with sdtStack := l }.sdtSyncProbeMask with spans := s.spans.finish ref } := by
  have hentries := h.entries
  rw [SdtSt.allPhases, hphases, List.cons_append, entriesOf_cons] at hentries
  cases hstack : s.sdtStack with
  | nil => exact .inl ⟨phaseDone_skip (by rw [hstack]; exact fun _ he => absurd he (by simp)),
      List.nil_sublist _⟩
  | cons x l =>
    rw [hstack] at hentries
    obtain ⟨ref, started⟩ := x
    by_cases hrun : (s.enabledMask (.phaseDone p.phase) = true ∧ Admits env (.phaseDone p.phase)) ∧
        started = p.phase
    · obtain ⟨⟨hm, ha⟩, rfl⟩ := hrun
      exact .inr ⟨ref, l, rfl, tail_sublist hentries, phaseDone_pop hstack hm ha⟩
    · refine .inl ⟨?_, ?_⟩
      · refine fire_cases (P := fun s' => s' = s) _ rfl fun hm ha => ?_
        have hne : started ≠ p.phase := fun heq => hrun ⟨⟨hm, ha⟩, heq⟩
        simp only [dispatch, hstack, if_neg hne]
      · cases he : p.pushed with
        | none =>
          have hentry : p.entry = none := by rw [CorePhase.entry, he]; rfl
          rw [hentry] at hentries
          exact hentries
        | some ref' =>
          have hentry : p.entry = some (ref', p.phase) := by rw [CorePhase.entry, he]; rfl
          rw [hentry] at hentries
          rcases List.sublist_cons_iff.1 hentries with hsub | ⟨r, heq, -⟩
          · exact hsub
          · obtain ⟨hx, -⟩ := List.cons.inj heq
            obtain ⟨-, rfl⟩ := Prod.mk.inj hx
            have hmem : p ∈ s.allPhases := by
              rw [SdtSt.allPhases, hphases]
              exact List.mem_cons_self
            obtain ⟨-, hcrit', hclient, -⟩ := h.pushed p hmem ref' he
            have hm := h.mask.done (ref, p.phase) (by rw [hstack]; exact List.mem_cons_self)
            exact absurd ⟨⟨hm, .inl (hc.trans hclient), hcrit.trans hcrit'⟩, rfl⟩ hrun

theorem phaseDone (h : Held c s) (hen : (SdtAct.phaseDone env).Enabled c s) :
    Held c (s.next (.phaseDone env)) := by
  obtain ⟨hc, p, ps, hphases, hcrit⟩ := hen
  have hnext : s.next (.phaseDone env) = { s.fire env (.phaseDone p.phase) with phases := ps } := by
    simp only [SdtSt.next, hphases]
  have hall : (ps ++ s.abandoned).Sublist s.allPhases := by
    rw [SdtSt.allPhases, hphases]
    exact List.sublist_cons_self p _
  rw [hnext]
  rcases h.phaseDone_cases hphases hc hcrit with ⟨hfire, hsub⟩ | ⟨ref, l, hstack, hsub, hfire⟩
  · rw [hfire]
    exact h.shrink (h.mask.congr rfl rfl h.mask.done h.mask.sortDone h.mask.txnEnd) h.ordered
      (Nat.le_refl _) (fun o ho => ⟨ho, id, id⟩) hall hsub id
  · rw [hfire]
    have hmask : MaskOk ({ s with sdtStack := l }.sdtSyncProbeMask) := MaskOk.sync h.mask.paired
    refine h.shrink (hmask.congr rfl rfl hmask.done hmask.sortDone hmask.txnEnd)
      (h.ordered.finish ref) Spans.finish_count.ge (fun o ho => ?_) hall hsub id
    obtain ⟨hin, hne⟩ := Spans.mem_finish h.ordered ho
    refine ⟨hin, fun hm => ?_, id⟩
    rw [hstack] at hm
    exact (List.mem_cons.1 hm).resolve_left hne

/-- After a `DONE` no phase span is open that was started since its `START`. -/
theorem phaseDone_closed (h : Held c s) (hen : (SdtAct.phaseDone env).Enabled c s)
    {p : CorePhase} {ps : List CorePhase} (hphases : s.phases = p :: ps) :
    ∀ o ∈ (s.next (.phaseDone env)).spans.opened, o.detached = false → o.ref.v ≤ p.since := by
  intro o ho hd
  have hheld := h.phaseDone hen
  have hin := hheld.phaseHeld o ho hd
  obtain ⟨e, he, href⟩ := List.mem_map.1 hin
  obtain ⟨q, hq, hentry⟩ := List.mem_filterMap.1 (hheld.entries.subset he)
  have hall : (s.next (.phaseDone env)).allPhases = ps ++ s.abandoned := by
    obtain ⟨hc, p', ps', hphases', hcrit⟩ := hen
    obtain ⟨rfl, rfl⟩ := List.cons.inj (hphases.symm.trans hphases')
    simp only [SdtSt.next, hphases]
    rcases h.phaseDone_cases hphases hc hcrit with ⟨hfire, -⟩ | ⟨ref, l, -, -, hfire⟩
    · rw [hfire]
      rfl
    · rw [hfire]
      rfl
  rw [hall] at hq
  have hsince := h.since
  rw [SdtSt.allPhases, hphases] at hsince
  obtain ⟨ref, hpushed, rfl⟩ := Option.map_eq_some_iff.1 hentry
  exact href ▸ (List.pairwise_cons.1 hsince).1 q hq ref hpushed

/-! ## Sorts, the recovery probe and the rest -/

theorem sortStart (h : Held c s) : Held c (s.fire env .sortStart) := by
  refine fire_cases _ h fun hm _ => ?_
  have hdone : s.enabledMask .sortDone = true := h.mask.ends_enabled hm List.mem_cons_self
  change Held c (if env.hasContext ∧ s.sortStack.length < sortStackSize then _ else s)
  split_ifs
  · unfold startSpan
    split_ifs
    · refine ⟨h.mask.congr rfl rfl h.mask.done (fun _ => hdone) h.mask.txnEnd, h.ordered.start ..,
        List.forall_mem_cons.2 ⟨fun hd => absurd hd (by simp), h.phaseHeld⟩,
        List.forall_mem_cons.2 ⟨fun _ => .inl List.mem_cons_self, fun o ho hd => ?_⟩, h.entries,
        h.since, fun p hp ref href => ?_, h.txnClient⟩
      · exact (h.detachedHeld o ho hd).imp_left (List.mem_cons_of_mem _)
      · obtain ⟨hle, hrest⟩ := h.pushed p hp ref href
        refine ⟨?_, hrest⟩
        change ref.v ≤ ((s.spans.count + 1 : ℕ) : ℤ)
        omega
    · refine ⟨h.mask.congr rfl rfl h.mask.done (fun _ => hdone) h.mask.txnEnd, h.ordered,
        h.phaseHeld, fun o ho hd => ?_, h.entries, h.since, h.pushed, h.txnClient⟩
      exact (h.detachedHeld o ho hd).imp_left (List.mem_cons_of_mem _)
  · exact h

theorem sortDone (h : Held c s) : Held c (s.fire env .sortDone) := by
  refine fire_cases _ h fun _ _ => ?_
  cases hstack : s.sortStack with
  | nil =>
    have hsame : s.dispatch env .sortDone = s := by simp only [dispatch, hstack]
    rw [hsame]
    exact h
  | cons ref rest =>
    have hnext : s.dispatch env .sortDone =
        { { s with sortStack := rest }.sdtSyncProbeMask with spans := s.spans.finish ref } := by
      simp only [dispatch, hstack]
      rfl
    rw [hnext]
    have hmask : MaskOk ({ s with sortStack := rest }.sdtSyncProbeMask) := MaskOk.sync h.mask.paired
    refine h.shrink (hmask.congr rfl rfl hmask.done hmask.sortDone hmask.txnEnd)
      (h.ordered.finish ref) Spans.finish_count.ge (fun o ho => ?_) (List.Sublist.refl _) h.entries id
    obtain ⟨hin, hne⟩ := Spans.mem_finish h.ordered ho
    refine ⟨hin, id, fun hm => hm.imp_left fun hs => ?_⟩
    rw [hstack] at hs
    exact (List.mem_cons.1 hs).resolve_left hne

theorem recoveryXactCommit (h : Held c s) : Held c (s.fire env .recoveryXactCommit) := by
  refine fire_cases _ h fun _ _ => ?_
  change Held c (if env.traceparentOk then _ else s)
  split_ifs
  · unfold startSpan
    split_ifs
    · have hnew := Spans.finish_newest (h.ordered.start env.noOwner true env.nestLevel) rfl
      have hord := (h.ordered.start env.noOwner true env.nestLevel).finish (spanHandle s.spans.count)
      have hcount : s.spans.count ≤ ((s.spans.start env.noOwner env.nestLevel true).finish
          (spanHandle s.spans.count)).count := by
        rw [Spans.finish_count]
        exact Nat.le_succ _
      refine h.shrink (h.mask.congr rfl rfl h.mask.done h.mask.sortDone h.mask.txnEnd) hord hcount
        (fun o ho => ⟨?_, id, id⟩) (List.Sublist.refl _) h.entries id
      rw [hnew] at ho
      exact ho
    · exact h
  · exact h

/-- The producer closes spans on its own. -/
theorem lose (h : Held c s) (lost : List OtelSpanRef) (how : SpanEnd) :
    Held c (s.next (.lose lost how)) :=
  h.shrink (h.mask.congr rfl rfl h.mask.done h.mask.sortDone h.mask.txnEnd) (h.ordered.close _ _)
    (Nat.le_refl _) (fun _ ho => ⟨(Spans.mem_close ho).1, id, id⟩) (List.Sublist.refl _) h.entries id

theorem setProbes (h : Held c s) (tokens : List CString) : Held c (s.next (.setProbes tokens)) := by
  cases hparse : sdtProbesParse tokens with
  | none =>
    have hnext : s.next (.setProbes tokens) = s := by simp only [SdtSt.next, hparse]
    rw [hnext]
    exact h
  | some mask =>
    have hnext : s.next (.setProbes tokens) = s.sdtProbesAssignHook mask := by
      simp only [SdtSt.next, hparse]
    rw [hnext]
    have hmask : MaskOk (s.sdtProbesAssignHook mask) := MaskOk.sync fun id hid e he => by
      exact decide_eq_true (paired_parse hparse id (of_decide_eq_true hid) e he)
    exact ⟨hmask, h.ordered, h.phaseHeld, h.detachedHeld, h.entries, h.since, h.pushed, h.txnClient⟩

/-- An error outside a transaction leaves its phases' entries behind, and the phases with them. -/
theorem errorWithoutAbort (h : Held c s) : Held c (s.next .errorWithoutAbort) :=
  ⟨h.mask.congr rfl rfl h.mask.done h.mask.sortDone h.mask.txnEnd, h.ordered, h.phaseHeld,
    h.detachedHeld, h.entries, h.since, h.pushed, h.txnClient⟩

/-- A caught error ends phases that have no entry on the stack. -/
theorem caughtError (h : Held c s) {ended : ℕ}
    (hok : SdtAct.KeepsHandles s (.caughtError ended)) : Held c (s.next (.caughtError ended)) := by
  have hsplit : entriesOf s.allPhases =
      entriesOf (s.phases.take ended) ++ entriesOf (s.phases.drop ended ++ s.abandoned) := by
    unfold entriesOf
    rw [← List.filterMap_append, ← List.append_assoc, List.take_append_drop]
    rfl
  have hnot : ∀ e ∈ entriesOf (s.phases.take ended), e ∉ s.sdtStack := by
    intro e he
    obtain ⟨p, hp, hentry⟩ := List.mem_filterMap.1 he
    exact hok p hp e hentry
  have hsub : s.sdtStack.Sublist (entriesOf (s.phases.drop ended ++ s.abandoned)) := by
    have hentries := h.entries
    rw [hsplit] at hentries
    obtain ⟨l₁, l₂, heq, hl₁, hl₂⟩ := List.sublist_append_iff.1 hentries
    cases l₁ with
    | nil =>
      rw [heq]
      exact hl₂
    | cons e l₁ =>
      refine absurd ?_ (hnot e (hl₁.subset List.mem_cons_self))
      rw [heq]
      exact List.mem_cons_self
  refine h.shrink (h.mask.congr rfl rfl h.mask.done h.mask.sortDone h.mask.txnEnd) h.ordered
    (Nat.le_refl _) (fun o ho => ⟨ho, id, id⟩) ?_ hsub id
  exact (List.drop_sublist ended s.phases).append (List.Sublist.refl _)

/-- Every step of such a run keeps the handles. -/
theorem step (h : Held c s) {a : SdtAct} (hen : a.Enabled c s) (hok : a.KeepsHandles s) :
    Held c (s.next a) := by
  cases a with
  | phaseStart phase env => exact h.phaseStart phase hen
  | phaseDone env => exact h.phaseDone hen
  | sortStart env => exact h.sortStart
  | sortDone env => exact h.sortDone
  | transactionStart env => exact h.transactionStart hen.1
  | transactionCommit env => exact h.transactionCommit hok
  | abortTransaction env unwinds => exact (h.abortTransaction hen).1
  | errorWithoutAbort => exact h.errorWithoutAbort
  | caughtError ended => exact h.caughtError hok
  | lose lost how => exact h.lose lost how
  | setProbes tokens => exact h.setProbes tokens
  | recoveryXactCommit env => exact h.recoveryXactCommit

end Held

theorem reachable_held {c : Bool} {s : SdtSt} (h : (sdt c).ReachBy SdtAct.KeepsHandles s) :
    Held c s :=
  Machine.ReachBy.invariant (I := Held c) (held_init c) (fun _ _ hh he ho => hh.step he ho) h

/-! ## No open span is forgotten -/

/-- In runs in which no `TRANSACTION_COMMIT` probe finds an open span on a stack and no caught error
an entry of a phase it ends: the bridge holds every span it has open, and after a `DONE` no phase
span is open that was started since its `START`. -/
theorem open_spans_held {c : Bool} {s : SdtSt} (h : (sdt c).ReachBy SdtAct.KeepsHandles s) :
    (∀ o ∈ s.spans.opened,
      o.ref ∈ s.sdtStack.map Prod.fst ∨ o.ref ∈ s.sortStack ∨ o.ref = s.txnSpan) ∧
    ∀ env p ps, (SdtAct.phaseDone env).Enabled c s → s.phases = p :: ps →
      ∀ o ∈ (s.next (.phaseDone env)).spans.opened, o.detached = false → o.ref.v ≤ p.since := by
  have hh := reachable_held h
  refine ⟨fun o ho => ?_, fun env p ps hen hphases => hh.phaseDone_closed hen hphases⟩
  cases hd : o.detached with
  | false => exact .inl (hh.phaseHeld o ho hd)
  | true => exact .inr (hh.detachedHeld o ho hd)

/-- A query starts outside a transaction, with its family and the transactions' enabled. -/
def autocommitQuery : SdtSt :=
  (({} : SdtSt).next (.setProbes [cstr "txn", cstr "query"])).next
    (.phaseStart .query { noOwner := true })

theorem reachBy_autocommitQuery : (sdt true).ReachBy SdtAct.KeepsHandles autocommitQuery :=
  Machine.ReachBy.step (m := sdt true) (.phaseStart .query { noOwner := true })
    (Machine.ReachBy.step (m := sdt true) (.setProbes [cstr "txn", cstr "query"]) .init trivial
      trivial) rfl trivial

theorem open_spans_held_autocommitQuery :
    autocommitQuery.spans.opened.map OpenSpan.ref = [⟨1⟩] ∧
      (autocommitQuery.next (.phaseDone {})).spans.opened = [] ∧
      ∀ o ∈ (autocommitQuery.next (.phaseDone {})).spans.opened, o.detached = false → o.ref.v ≤ 0 :=
  ⟨by decide, by decide, (open_spans_held reachBy_autocommitQuery).2 {} _ _ ⟨rfl, _, _, rfl, rfl⟩ rfl⟩

/-- The query runs in its own transaction, whose commit fires inside it: the session span is open,
off the bridge's stacks, and stays open when the query is done. -/
theorem commit_forgets_query :
    (sdt true).Reachable autocommitQuery ∧
      ((autocommitQuery.next (.transactionStart {})).next
        (.transactionCommit {})).spans.opened.map OpenSpan.ref = [⟨1⟩] ∧
      ((autocommitQuery.next (.transactionStart {})).next (.transactionCommit {})).sdtStack = [] ∧
      ((autocommitQuery.next (.transactionStart {})).next (.transactionCommit {})).sortStack = [] ∧
      ((autocommitQuery.next (.transactionStart {})).next (.transactionCommit {})).txnSpan.v = 0 ∧
      (((autocommitQuery.next (.transactionStart {})).next (.transactionCommit {})).next
        (.phaseDone {})).spans.opened = [{ ref := ⟨1⟩, session := true, level := 1 }] :=
  ⟨reachBy_autocommitQuery.reachable, by decide, by decide, by decide, by decide, by decide⟩

end PostgresOtel
