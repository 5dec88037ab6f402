import Mathlib.Data.List.Nodup
import Mathlib.Data.Nat.ModEq
import PostgresOtel.Producer.Steps

/-!
# Handles

A run of the producer with a log of the handles it gave out and of the spans that are open.  The
generations of the handles are consecutive, so that none repeats before the counter has gone round;
a handle names the slot or entry of its span while the span is open, and nothing from then on.
-/

set_option autoImplicit false

namespace PostgresOtel

open Exec

/-! ## Generations -/

/-- The generation of the `k`th handle given out after the counter was seeded with `seed`. -/
def genFrom (seed k : ℕ) : ℕ := (seed + k) % (otelGenModulus - 1) + 1

theorem genFrom_lt (seed k : ℕ) : genFrom seed k < otelGenModulus := by
  have hlt : (seed + k) % (otelGenModulus - 1) < otelGenModulus - 1 := Nat.mod_lt _ (by decide)
  unfold genFrom
  omega

theorem genAfter_eq {g : ℕ} (h : g < otelGenModulus) : (genAfter g).1 = genFrom g 0 := by
  have hpos : 0 < otelGenModulus := by decide
  unfold genAfter genFrom
  rcases Nat.lt_or_ge (g + 1) otelGenModulus with hlt | hge
  · rw [dif_neg (by rw [Nat.mod_eq_of_lt hlt]; omega)]
    change (g + 1) % otelGenModulus = _
    rw [Nat.add_zero, Nat.mod_eq_of_lt hlt, Nat.mod_eq_of_lt (by omega)]
  · have heq : g + 1 = otelGenModulus := by omega
    rw [dif_pos (by rw [heq, Nat.mod_self])]
    have hg : g = otelGenModulus - 1 := by omega
    change 1 = _
    simp [hg]

theorem genAfter_genFrom (seed k : ℕ) : (genAfter (genFrom seed k)).1 = genFrom seed (k + 1) := by
  rw [genAfter_eq (genFrom_lt seed k)]
  simp only [genFrom, Nat.add_zero, Nat.mod_add_mod]
  rw [Nat.add_assoc]

theorem genFrom_inj {seed k l : ℕ} (hk : k < otelGenModulus - 1) (hl : l < otelGenModulus - 1)
    (h : genFrom seed k = genFrom seed l) : k = l := by
  have hmod : (seed + k) % (otelGenModulus - 1) = (seed + l) % (otelGenModulus - 1) :=
    Nat.succ.inj h
  have hcancel := Nat.ModEq.add_left_cancel' seed hmod
  rw [Nat.ModEq, Nat.mod_eq_of_lt hk, Nat.mod_eq_of_lt hl] at hcancel
  exact hcancel

/-! ## What a handle names -/

section Handle

variable {c : Lifecycle} {e e' : StackRef} {gen : ℕ}

theorem handle_pos_iff (hg : 0 < gen) : 0 < (e.handle gen).v ↔ ∃ i, e = .slot i := by
  cases e with
  | slot i =>
    have hpos : (0 : ℤ) < (makeRef gen i true).v := by
      simp only [makeRef, if_true]
      omega
    exact ⟨fun _ => ⟨i, rfl⟩, fun _ => hpos⟩
  | nrec i =>
    have hneg : (makeRef gen i false).v < 0 := by
      simp only [makeRef, Bool.false_eq_true, if_false]
      omega
    constructor
    · intro h
      have hnot : (0 : ℤ) < (makeRef gen i false).v := h
      omega
    · rintro ⟨_, h⟩
      cases h

theorem handle_ne_none (hg : 0 < gen) : e.handle gen ≠ otelSpanNone := by
  have hpos : 0 < refGen (e.handle gen) := by cases e <;> exact refGen_makeRef_pos hg _ _
  intro h
  rw [h] at hpos
  exact absurd hpos (by decide)

theorem refGen_handle (hi : e.index < 2 ^ 32) : refGen (e.handle gen) = gen := by
  cases e <;> exact refGen_makeRef hi _

theorem refIdx_handle (hi : e.index < 2 ^ 32) : refIdx (e.handle gen) = e.index := by
  cases e <;> exact refIdx_makeRef hi _

/-- A handle names its place, as long as the generation is the one there. -/
theorem entryOf_handle (hi : e.index < 2 ^ 32) (hg : 0 < gen) :
    c.entryOf (e.handle gen) = some e' ↔ e' = e ∧ c.Used e ∧ c.gen e = gen := by
  unfold Lifecycle.entryOf
  cases e with
  | slot i =>
    rw [if_pos ((handle_pos_iff hg).2 ⟨i, rfl⟩), Lifecycle.slotOf, refGen_handle hi,
      refIdx_handle hi]
    simp only [StackRef.index, Lifecycle.Used, Lifecycle.gen]
    split_ifs with h
    · simp [h, eq_comm]
    · simp [h]
  | nrec i =>
    have hv : ¬ 0 < (StackRef.handle gen (.nrec i)).v := fun hv => by
      obtain ⟨j, hj⟩ := (handle_pos_iff hg).1 hv
      cases hj
    rw [if_neg hv, Lifecycle.nrecOf, refGen_handle hi, refIdx_handle hi]
    simp only [StackRef.index, Lifecycle.Used, Lifecycle.gen]
    split_ifs with h
    · simp [h, eq_comm]
    · simp [h]

theorem marked_handle (hi : e.index < 2 ^ 32) (hg : 0 < gen) :
    c.Marked (e.handle gen) ↔ c.Used e ∧ c.releasedGen e = gen := by
  unfold Lifecycle.Marked
  cases e with
  | slot i =>
    rw [if_pos ((handle_pos_iff hg).2 ⟨i, rfl⟩), refGen_handle hi, refIdx_handle hi]
    exact Iff.rfl
  | nrec i =>
    have hv : ¬ 0 < (StackRef.handle gen (.nrec i)).v := fun hv => by
      obtain ⟨j, hj⟩ := (handle_pos_iff hg).1 hv
      cases hj
    rw [if_neg hv, refGen_handle hi, refIdx_handle hi]
    exact Iff.rfl

end Handle

/-! ## The log -/

/-- What a run is remembered by: the number of starts since the counter was seeded, the handles given
out, oldest first, the open spans with the place of each, and those ended by an owner. -/
structure HandleLog where
  starts : ℕ := 0
  given : List OtelSpanRef := []
  openSpans : List (OtelSpanRef × StackRef) := []
  ownerEnded : List (OtelSpanRef × StackRef) := []

/-- The places where a span is open in `s'` and none was in `s`. -/
def newlyOpen (s s' : St) : List StackRef :=
  ((List.range s'.slotsUsed).map StackRef.slot ++ (List.range s'.nrecsUsed).map StackRef.nrec).filter
    fun e => decide (s'.life.Live e ∧ ¬ s.life.Live e)

/-- The handle a call gives out. -/
def Call.gives (call : Call) (s : St) : Option OtelSpanRef :=
  match call.op with
  | .spanStart args =>
    match apiSpanStart call.env args (s.enter call) with
    | .ok ref _ => if ref = otelSpanNone then none else some ref
    | .error _ _ => none
  | _ => none

def ProducerOp.isStart : ProducerOp → Bool
  | .spanStart _ => true
  | _ => false

/-- Spans that end in such a call are ended by their owner: by the resource owner, or with the
transaction or subtransaction. -/
def ProducerOp.byOwner : ProducerOp → Bool
  | .ownerRelease .. | .xactCallback _ | .subxactCallback _ => true
  | _ => false

def HandleLog.after (log : HandleLog) (call : Call) (s s' : St) : HandleLog where
  starts := if call.op.isStart ∧ s'.prngSeeded then log.starts + 1 else log.starts
  given := log.given ++ (call.gives s).toList
  openSpans := (log.openSpans.filter fun p => s'.life.Live p.2) ++
    (call.gives s).toList.flatMap fun ref => (newlyOpen s s').map fun e => (ref, e)
  ownerEnded := if call.op.byOwner then
    (log.openSpans.filter fun p => ¬ s'.life.Live p.2) ++ log.ownerEnded else log.ownerEnded

/-- `otel_api.max_open_spans` is at most this. -/
def maxOpenSpansMax : ℕ := 4096

/-- The producer with the log of its handles. -/
def handleRuns (garbage : ℕ → OtelSlot) : Machine (St × HandleLog) Call :=
  (producer garbage).extend {} some (fun _ call => call.env.maxOpenSpans ≤ maxOpenSpansMax)
    fun p call => p.2.after call p.1 ((producer garbage).next p.1 call)

/-! ## The invariant -/

/-- How the log fits the state. -/
structure HandleInv (s : St) (log : HandleLog) : Prop where
  nslots_le : s.nslots ≤ maxOpenSpansMax
  counter_lt : s.genCounter < otelGenModulus
  unseeded : s.prngSeeded = false → log.given = []
  seeded : s.prngSeeded = true → ∃ seed, (genAfter s.genCounter).1 = genFrom seed log.given.length ∧
    log.given.map refGen = (List.range log.given.length).map (genFrom seed)
  length_le : log.given.length ≤ log.starts
  made : ∀ ref ∈ log.given, ∃ (e : StackRef) (gen : ℕ), ref = e.handle gen ∧ e.index < maxOpenSpansMax ∧ 0 < gen ∧
    gen < otelGenModulus
  opened : ∀ p ∈ log.openSpans, p.1 ∈ log.given ∧ s.life.Live p.2 ∧ p.1 = p.2.handle (s.life.gen p.2)
  live : ∀ e, s.life.Live e → ∃ ref, (ref, e) ∈ log.openSpans

theorem PoolInv.index_lt {c : Lifecycle} {e : StackRef} (h : PoolInv c)
    (hn : c.nslots ≤ maxOpenSpansMax) (he : c.Live e) : e.index < maxOpenSpansMax := by
  cases e with
  | slot i => exact (he.1.trans_le h.slots_used_le).trans_le hn
  | nrec i => exact (he.1.trans_le h.nrecs_used_le).trans_le (by decide)

theorem index_lt_word {e : StackRef} (h : e.index < maxOpenSpansMax) : e.index < 2 ^ 32 :=
  h.trans (by decide)

namespace HandleInv

variable {s s' : St} {log log' : HandleLog}

theorem init {garbage : ℕ → OtelSlot} : HandleInv (initSt garbage) {} where
  nslots_le := Nat.zero_le _
  counter_lt := Nat.zero_lt_of_lt (Nat.mod_lt 0 (by decide : 0 < otelGenModulus))
  unseeded _ := rfl
  seeded h := by cases h
  length_le := Nat.le_refl _
  made _ h := absurd h List.not_mem_nil
  opened _ h := absurd h List.not_mem_nil
  live e h := by cases e <;> exact absurd h.1 (Nat.not_lt_zero _)

/-- Spans may end. -/
theorem evolves {eff : Effects} (h : HandleInv s log) (hev : Evolves eff s s')
    (hn : s'.nslots ≤ maxOpenSpansMax) (hgiven : log'.given = log.given)
    (hopen : ∀ p, p ∈ log'.openSpans ↔ p ∈ log.openSpans ∧ s'.life.Live p.2)
    (hstarts : log.starts ≤ log'.starts) : HandleInv s' log' where
  nslots_le := hn
  counter_lt := hev.counter h.counter_lt
  unseeded hs := by
    rw [hgiven]
    refine h.unseeded (Bool.eq_false_iff.2 fun hs' => ?_)
    rw [(hev.seeded hs').1] at hs
    cases hs
  seeded hs := by
    rw [hgiven]
    cases hseed : s.prngSeeded with
    | true =>
      obtain ⟨seed, hnext, hmap⟩ := h.seeded hseed
      exact ⟨seed, (hev.seeded hseed).2 ▸ hnext, hmap⟩
    | false =>
      rw [h.unseeded hseed]
      exact ⟨s'.genCounter, genAfter_eq (hev.counter h.counter_lt), rfl⟩
  length_le := hgiven ▸ h.length_le.trans hstarts
  made := hgiven ▸ h.made
  opened p hp := by
    obtain ⟨hp, hlive⟩ := (hopen p).1 hp
    obtain ⟨hmem, -, hhandle⟩ := h.opened p hp
    rw [hgiven, (hev.live p.2 hlive).2.1]
    exact ⟨hmem, hlive, hhandle⟩
  live e he := by
    obtain ⟨ref, hmem⟩ := h.live e (hev.live e he).1
    exact ⟨ref, (hopen _).2 ⟨hmem, he⟩⟩

/-- A span is opened under the next generation. -/
theorem opens {args : OtelSpanStartArgs} {e : StackRef} (h : HandleInv s log)
    (hop : Opens args e s s') (hinv : PoolInv s'.life)
    (hgiven : log'.given = log.given ++ [e.handle (s'.life.gen e)])
    (hopen : ∀ p, p ∈ log'.openSpans ↔ p ∈ log.openSpans ∨ p = (e.handle (s'.life.gen e), e))
    (hstarts : log.starts + 1 ≤ log'.starts) : HandleInv s' log' := by
  have hn : s'.nslots ≤ maxOpenSpansMax := hop.nslots ▸ h.nslots_le
  have hgen : s'.life.gen e = (genAfter s.genCounter).1 := hop.gen
  have hlive : s'.life.Live e :=
    Lifecycle.live_iff.2 ⟨(hop.used e).2 (.inr rfl), hgen ▸ Nat.ne_of_gt (genAfter s.genCounter).2⟩
  have hindex := hinv.index_lt hn hlive
  obtain ⟨seed, hnext, hmap⟩ := h.seeded hop.seeded.1
  have hgen' : s'.life.gen e = genFrom seed log.given.length := hgen.trans hnext
  have hne (e' : StackRef) (he : s.life.Live e') : e' ≠ e := fun heq => hop.free (heq ▸ he)
  exact {
    nslots_le := hn
    counter_lt := by
      rw [hop.counter, hnext]
      exact genFrom_lt _ _
    unseeded := fun hs => by
      rw [hop.seeded.2] at hs
      cases hs
    seeded := fun _ => by
      refine ⟨seed, ?_, ?_⟩
      · rw [hop.counter, hnext, genAfter_genFrom, hgiven, List.length_append]
        rfl
      · rw [hgiven, List.map_append, List.length_append, List.length_singleton, List.range_succ,
          List.map_append, hmap, List.map_singleton, List.map_singleton,
          refGen_handle (index_lt_word hindex), hgen']
    length_le := by
      rw [hgiven, List.length_append]
      exact (Nat.add_le_add_right h.length_le 1).trans hstarts
    made := fun ref href => by
      rw [hgiven, List.mem_append, List.mem_singleton] at href
      rcases href with href | rfl
      · exact h.made ref href
      · refine ⟨e, _, rfl, hindex, ?_, hgen' ▸ genFrom_lt _ _⟩
        exact Nat.pos_of_ne_zero (Lifecycle.live_iff.1 hlive).2
    opened := fun p hp => by
      rw [hgiven, List.mem_append, List.mem_singleton]
      rcases (hopen p).1 hp with hp | rfl
      · obtain ⟨hmem, hl, hhandle⟩ := h.opened p hp
        obtain ⟨hu, hg⟩ := Lifecycle.live_iff.1 hl
        have hsame := (hop.others p.2 (hne p.2 hl)).1
        refine ⟨.inl hmem, Lifecycle.live_iff.2 ⟨(hop.used _).2 (.inl hu), hsame ▸ hg⟩, ?_⟩
        rw [hsame]
        exact hhandle
      · exact ⟨.inr rfl, hlive, rfl⟩
    live := fun e' he' => by
      by_cases heq : e' = e
      · exact ⟨_, (hopen _).2 (.inr (by rw [heq]))⟩
      · obtain ⟨hu, hg⟩ := Lifecycle.live_iff.1 he'
        rw [(hop.others e' heq).1] at hg
        have hu' := ((hop.used e').1 hu).resolve_right heq
        obtain ⟨ref, hmem⟩ := h.live e' (Lifecycle.live_iff.2 ⟨hu', hg⟩)
        exact ⟨ref, (hopen _).2 (.inl hmem)⟩ }

end HandleInv

/-! ## Steps -/

theorem mem_newlyOpen {s s' : St} {e : StackRef} :
    e ∈ newlyOpen s s' ↔ s'.life.Live e ∧ ¬ s.life.Live e := by
  unfold newlyOpen
  rw [List.mem_filter, decide_eq_true_iff, and_iff_right_iff_imp]
  rintro ⟨hl, -⟩
  cases e with
  | slot i => exact List.mem_append_left _ (List.mem_map.2 ⟨i, List.mem_range.2 hl.1, rfl⟩)
  | nrec i => exact List.mem_append_right _ (List.mem_map.2 ⟨i, List.mem_range.2 hl.1, rfl⟩)

theorem HandleLog.mem_openSpans_after {log : HandleLog} {call : Call} {s s' : St}
    {p : OtelSpanRef × StackRef} : p ∈ (log.after call s s').openSpans ↔
      (p ∈ log.openSpans ∧ s'.life.Live p.2) ∨
        (call.gives s = some p.1 ∧ s'.life.Live p.2 ∧ ¬ s.life.Live p.2) := by
  obtain ⟨ref, e⟩ := p
  unfold HandleLog.after
  rw [List.mem_append, List.mem_filter, decide_eq_true_iff]
  refine or_congr_right ?_
  cases call.gives s with
  | none => simp
  | some r =>
    simp only [Option.toList_some, List.flatMap_singleton, List.mem_map, mem_newlyOpen,
      Prod.mk.injEq, Option.some.injEq]
    exact ⟨fun ⟨_, hlive, hr, he⟩ => ⟨hr, he ▸ hlive⟩, fun ⟨hr, hlive⟩ => ⟨e, hlive, hr, rfl⟩⟩

/-- A call that gives out no handle. -/
theorem HandleInv.after_none {eff : Effects} {s s' : St} {log : HandleLog} {call : Call}
    (h : HandleInv s log) (hev : Evolves eff s s') (hn : s'.nslots ≤ maxOpenSpansMax)
    (hgives : call.gives s = none) : HandleInv s' (log.after call s s') := by
  refine h.evolves hev hn ?_ (fun p => ?_) ?_
  · simp [HandleLog.after, hgives]
  · rw [HandleLog.mem_openSpans_after, hgives]
    simp
  · unfold HandleLog.after
    dsimp only
    split_ifs <;> omega

theorem HandleInv.step (garbage : ℕ → OtelSlot) {s : St} {log : HandleLog} {call : Call}
    (h : HandleInv s log) (hinv : PoolInv s.life) (hvalid : call.op.Valid s)
    (hmax : call.env.maxOpenSpans ≤ maxOpenSpansMax) :
    HandleInv ((producer garbage).next s call)
      (log.after call s ((producer garbage).next s call)) := by
  have hinv' := hinv.path (life_step garbage hinv hvalid)
  have henter : HandleInv (s.enter call) log := ⟨h.1, h.2, h.3, h.4, h.5, h.6, h.7, h.8⟩
  have hlive : ∀ e, (s.enter call).life.Live e ↔ s.life.Live e := fun e => Iff.rfl
  have hstep : Step call.env (s.enter call) call.op ((producer garbage).next s call) :=
    step_cases call.env call.op hinv
  revert hinv' hstep
  generalize (producer garbage).next s call = s'
  generalize hop : call.op = op
  intro hinv' hstep
  have hafter (s₁ : St) : log.after call (s.enter call) s₁ = log.after call s s₁ := rfl
  cases hstep with
  | start args ref _ hx hstarted =>
    have hgives : call.gives s = if ref = otelSpanNone then none else some ref := by
      simp only [Call.gives, hop, hx]
    have hgives' : call.gives (s.enter call) = call.gives s := rfl
    cases hstarted with
    | refused _ _ hev hp =>
      rw [if_pos rfl] at hgives
      refine henter.after_none hev ?_ hgives
      rcases hev.nslots with hn | hn
      · exact hn ▸ h.nslots_le
      · exact (Nat.le_of_eq hn).trans hmax
    | opened args p d e s₁ _ _ _ hev hp hopens _ =>
      have hlive' : s'.life.Live e := hopens.live_iff.2 (.inr rfl)
      have hgen : 0 < s'.life.gen e := Nat.pos_of_ne_zero (Lifecycle.live_iff.1 hlive').2
      rw [if_neg (handle_ne_none hgen)] at hgives
      have h₁ : HandleInv s₁ log := by
        refine henter.evolves hev ?_ rfl (fun p => ?_) (Nat.le_refl _)
        · rcases hev.nslots with hn | hn
          · exact hn ▸ h.nslots_le
          · exact (Nat.le_of_eq hn).trans hmax
        · exact ⟨fun hmem => ⟨hmem, (hp.live _).2 (henter.opened p hmem).2.1⟩, fun hm => hm.1⟩
      refine h₁.opens hopens hinv' ?_ (fun q => ?_) ?_
      · simp [HandleLog.after, hgives]
      · rw [← hafter, HandleLog.mem_openSpans_after, hgives', hgives, hopens.live_iff, hp.live]
        have hfree : ¬ (s.enter call).life.Live e := fun hl => hopens.free ((hp.live e).2 hl)
        obtain ⟨ref, e'⟩ := q
        simp only [Option.some.injEq, Prod.mk.injEq]
        constructor
        · rintro (⟨hmem, -⟩ | ⟨hr, hl | he, hnot⟩)
          · exact .inl hmem
          · exact absurd hl hnot
          · exact .inr ⟨hr.symm, he⟩
        · rintro (hmem | ⟨rfl, rfl⟩)
          · exact .inl ⟨hmem, .inl (henter.opened _ hmem).2.1⟩
          · exact .inr ⟨rfl, .inr rfl, hfree⟩
      · simp [HandleLog.after, hop, ProducerOp.isStart, hopens.seeded.2]
  | startRaised args e _ hx hev =>
    have hgives : call.gives s = none := by simp only [Call.gives, hop, hx]
    refine henter.after_none hev ?_ hgives
    rcases hev.nslots with hn | hn
    · exact hn ▸ h.nslots_le
    · exact (Nat.le_of_eq hn).trans hmax
  | activate ref e _ hact =>
    have hgives : call.gives s = none := by simp only [Call.gives, hop]
    rw [hact.push]
    have hpushed : HandleInv { s.enter call with spanStack :=
        ⟨e, true, call.env.currentTransactionNestLevel⟩ :: s.spanStack } log :=
      ⟨h.1, h.2, h.3, h.4, h.5, h.6, h.7, h.8⟩
    refine hpushed.evolves (Evolves.refl _ : Evolves .none _ _) hpushed.nslots_le ?_
      (fun p => ?_) ?_
    · simp [HandleLog.after, hgives]
    · rw [HandleLog.mem_openSpans_after, hgives]
      simp
    · simp [HandleLog.after, hop, ProducerOp.isStart]
  | other _ _ hno hev =>
    have hgives : call.gives s = none := by
      unfold Call.gives
      rw [hop]
      cases op <;> first | rfl | exact absurd rfl (hno _)
    refine henter.after_none hev ?_ hgives
    rcases hev.nslots with hn | hn
    · exact hn ▸ h.nslots_le
    · cases op <;> exact hn.elim

/-! ## Runs -/

variable {garbage : ℕ → OtelSlot} {p : St × HandleLog}

/-- A run with a log is a run. -/
theorem reachable_of_handleRuns (h : (handleRuns garbage).Reachable p) :
    (producer garbage).Reachable p.1 :=
  h.base fun _ _ _ _ _ => trivial

theorem reachable_handleInv (h : (handleRuns garbage).Reachable p) : HandleInv p.1 p.2 :=
  Machine.ReachBy.invariantOver (k := fun _ _ => True) (I := fun p => HandleInv p.1 p.2)
    (fun _ _ _ _ _ => trivial) .init (fun _ call hreach hI hen _ =>
      hI.step garbage (reachable_poolInv hreach) (hen.1 call rfl) hen.2) h

/-- The log says what every handle given out names. -/
structure HandlesSafe (s : St) (log : HandleLog) : Prop where
  nodup : log.given.Nodup
  nonzero : ∀ ref ∈ log.given, ref.v ≠ 0
  split : ∀ ref ∈ log.given, 0 < refGen ref ∧ refGen ref < otelGenModulus ∧
    refIdx ref < maxOpenSpansMax ∧ ref = makeRef (refGen ref) (refIdx ref) (decide (0 < ref.v))
  names : ∀ ref ∈ log.given, ∀ e, s.life.entryOf ref = some e ↔ (ref, e) ∈ log.openSpans
  covered : ∀ e, s.life.Live e → ∃ ref ∈ log.given, (ref, e) ∈ log.openSpans

theorem HandleInv.nodup {s : St} {log : HandleLog} (h : HandleInv s log)
    (hn : log.starts < otelGenModulus - 1) : log.given.Nodup := by
  cases hseed : s.prngSeeded with
  | false =>
    rw [h.unseeded hseed]
    exact List.nodup_nil
  | true =>
    obtain ⟨seed, -, hmap⟩ := h.seeded hseed
    refine List.Nodup.of_map refGen ?_
    rw [hmap]
    refine List.Nodup.map_on (fun k hk l hl => ?_) List.nodup_range
    have hlen := h.length_le
    rw [List.mem_range] at hk hl
    exact genFrom_inj (by omega) (by omega)

theorem HandleInv.safe {s : St} {log : HandleLog} (h : HandleInv s log) (hinv : PoolInv s.life)
    (hn : log.starts < otelGenModulus - 1) : HandlesSafe s log where
  nodup := h.nodup hn
  nonzero ref href hv := by
    obtain ⟨e, gen, rfl, -, hgen, -⟩ := h.made ref href
    exact handle_ne_none (e := e) hgen (congrArg OtelSpanRef.mk hv)
  split ref href := by
    obtain ⟨e, gen, rfl, hi, hgen, hlt⟩ := h.made ref href
    rw [refGen_handle (index_lt_word hi), refIdx_handle (index_lt_word hi)]
    refine ⟨hgen, hlt, hi, ?_⟩
    cases e with
    | slot i => rw [decide_eq_true ((handle_pos_iff hgen).2 ⟨i, rfl⟩)]; rfl
    | nrec i =>
      rw [decide_eq_false fun hv => ?_]
      · rfl
      · obtain ⟨j, hj⟩ := (handle_pos_iff hgen).1 hv
        cases hj
  names ref href e := by
    constructor
    · intro hname
      obtain ⟨x, gen, rfl, hi, hgen, -⟩ := h.made ref href
      obtain ⟨rfl, hu, hg⟩ := (entryOf_handle (index_lt_word hi) hgen).1 hname
      obtain ⟨ref, hmem⟩ := h.live e (Lifecycle.live_iff.2 ⟨hu, hg ▸ Nat.ne_of_gt hgen⟩)
      have hhandle := (h.opened _ hmem).2.2
      rw [hg] at hhandle
      exact hhandle ▸ hmem
    · intro hmem
      obtain ⟨-, hl, hhandle⟩ := h.opened _ hmem
      obtain ⟨hu, hg⟩ := Lifecycle.live_iff.1 hl
      have hi := index_lt_word (hinv.index_lt h.nslots_le hl)
      have hhandle : ref = e.handle (s.life.gen e) := hhandle
      rw [hhandle]
      exact (entryOf_handle hi (Nat.pos_of_ne_zero hg)).2 ⟨rfl, hu, rfl⟩
  covered e he := by
    obtain ⟨ref, hmem⟩ := h.live e he
    exact ⟨ref, (h.opened _ hmem).1, hmem⟩

/-! ### Later -/

theorem HandleLog.starts_le_after (log : HandleLog) (call : Call) (s s' : St) :
    log.starts ≤ (log.after call s s').starts := by
  unfold HandleLog.after
  dsimp only
  split_ifs <;> omega

theorem starts_le_run (calls : List Call) (p : St × HandleLog) :
    p.2.starts ≤ (calls.foldl (handleRuns garbage).next p).2.starts := by
  induction calls generalizing p with
  | nil => exact Nat.le_refl _
  | cons call calls ih =>
    exact (p.2.starts_le_after call _ _).trans (ih ((handleRuns garbage).next p call))

/-- A span that is no longer open does not open again, as long as no handle repeats. -/
theorem not_open_after {log : HandleLog} {call : Call} {s s' : St} {ref : OtelSpanRef}
    (hnodup : (log.after call s s').given.Nodup) (href : ref ∈ log.given)
    (hclosed : ∀ e, (ref, e) ∉ log.openSpans) (e : StackRef) :
    (ref, e) ∉ (log.after call s s').openSpans := by
  rw [HandleLog.mem_openSpans_after]
  rintro (⟨hmem, -⟩ | ⟨hgives, -⟩)
  · exact hclosed e hmem
  · have hgiven : (log.after call s s').given = log.given ++ [ref] := by
      unfold HandleLog.after
      rw [hgives]
      rfl
    rw [hgiven, List.nodup_append] at hnodup
    exact hnodup.2.2 ref href ref (List.mem_singleton_self ref) rfl

theorem closed_later (calls : List Call) {p : St × HandleLog} (h : (handleRuns garbage).Reachable p)
    (hcalls : (handleRuns garbage).Admits (fun _ _ => True) p calls)
    (hn : (calls.foldl (handleRuns garbage).next p).2.starts < otelGenModulus - 1)
    {ref : OtelSpanRef} (href : ref ∈ p.2.given) (hclosed : ∀ e, (ref, e) ∉ p.2.openSpans) (e : StackRef) :
    (calls.foldl (handleRuns garbage).next p).1.life.entryOf ref ≠ some e := by
  induction calls generalizing p with
  | nil =>
    have hsafe := (reachable_handleInv h).safe (reachable_poolInv (reachable_of_handleRuns h)) hn
    exact fun hname => hclosed e ((hsafe.names ref href e).1 hname)
  | cons call calls ih =>
    have hnext := h.step call hcalls.1
    have hlt : ((handleRuns garbage).next p call).2.starts < otelGenModulus - 1 :=
      (starts_le_run calls _).trans_lt hn
    refine ih hnext hcalls.2.2 hn (List.mem_append_left _ href) ?_
    exact not_open_after ((reachable_handleInv hnext).nodup hlt) href hclosed

end PostgresOtel
