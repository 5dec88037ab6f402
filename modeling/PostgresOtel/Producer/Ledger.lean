import PostgresOtel.Producer.Lifecycle

/-!
# The ledger of started spans

Every recording span that was started is either open in one slot or has one fate.  `Ledger` is that
statement with what it takes to keep it along `LifeStep`: the serials of open slots are distinct,
and a span is in the dispatch log exactly if its slot is being dispatched or its fate says so.
-/

set_option autoImplicit false

namespace PostgresOtel

namespace Lifecycle

/-- The serials of the spans that have left their slots. -/
def ended (c : Lifecycle) : List ℕ := c.fates.map Prod.fst

def fateCount (c : Lifecycle) (f : Fate) : ℕ := c.fates.countP fun x => x.2 = f

/-- The slots that hold open spans. -/
def openSlots (c : Lifecycle) : Finset ℕ :=
  (Finset.range c.slots.used).filter fun i => (c.slots.cell i).gen ≠ 0

/-- The slots that hold the span started as number `n`. -/
def slotsOf (c : Lifecycle) (n : ℕ) : Finset ℕ :=
  c.openSlots.filter fun i => (c.slots.cell i).serial = n

end Lifecycle

/-- A fate that a span can only have after being handed to the emit chain. -/
def Fate.afterDispatch : Fate → Bool
  | .dispatched | .dropped => true
  | .discarded | .leaked => false

open Lifecycle

structure Ledger (c : Lifecycle) : Prop where
  serial_lt : ∀ i, c.LiveSlot i → (c.slots.cell i).serial < c.started
  serial_inj : ∀ i j, c.LiveSlot i → c.LiveSlot j →
    (c.slots.cell i).serial = (c.slots.cell j).serial → i = j
  ended_lt : ∀ n ∈ c.ended, n < c.started
  ended_nodup : c.ended.Nodup
  open_not_ended : ∀ i, c.LiveSlot i → (c.slots.cell i).serial ∉ c.ended
  covered : ∀ n < c.started, (∃ i, c.LiveSlot i ∧ (c.slots.cell i).serial = n) ∨ n ∈ c.ended
  dispatched_lt : ∀ n ∈ c.dispatched, n < c.started
  dispatched_nodup : c.dispatched.Nodup
  open_dispatched : ∀ i, c.LiveSlot i →
    ((c.slots.cell i).serial ∈ c.dispatched ↔ (c.slots.cell i).dispatching = true)
  fate_dispatched : ∀ n f, (n, f) ∈ c.fates → (n ∈ c.dispatched ↔ f.afterDispatch = true)
  leaked_eq : c.leaked = c.fateCount .leaked
  dropped_eq : c.dropped = c.fateCount .dropped

namespace Ledger

variable {c c' : Lifecycle}

/-- A step that touches neither an open slot's serial or dispatch flag nor the records. -/
theorem congr (h : Ledger c) (hs : c'.started = c.started) (hf : c'.fates = c.fates)
    (hd : c'.dispatched = c.dispatched) (hl : c'.leaked = c.leaked) (hp : c'.dropped = c.dropped)
    (hlive : ∀ i, c'.LiveSlot i ↔ c.LiveSlot i)
    (hcell : ∀ i, c.LiveSlot i → (c'.slots.cell i).serial = (c.slots.cell i).serial ∧
      (c'.slots.cell i).dispatching = (c.slots.cell i).dispatching) : Ledger c' := by
  have hended : c'.ended = c.ended := congrArg (List.map Prod.fst) hf
  have hcount : ∀ f, c'.fateCount f = c.fateCount f := fun f => congrArg (List.countP _) hf
  constructor
  · intro i hi
    rw [hlive] at hi
    rw [(hcell i hi).1, hs]
    exact h.serial_lt i hi
  · intro i j hi hj
    rw [hlive] at hi hj
    rw [(hcell i hi).1, (hcell j hj).1]
    exact h.serial_inj i j hi hj
  · rw [hended, hs]
    exact h.ended_lt
  · rw [hended]
    exact h.ended_nodup
  · intro i hi
    rw [hlive] at hi
    rw [(hcell i hi).1, hended]
    exact h.open_not_ended i hi
  · intro n hn
    rw [hs] at hn
    rw [hended]
    refine (h.covered n hn).imp_left ?_
    rintro ⟨i, hi, rfl⟩
    exact ⟨i, (hlive i).2 hi, (hcell i hi).1⟩
  · rw [hd, hs]
    exact h.dispatched_lt
  · rw [hd]
    exact h.dispatched_nodup
  · intro i hi
    rw [hlive] at hi
    rw [(hcell i hi).1, (hcell i hi).2, hd]
    exact h.open_dispatched i hi
  · rw [hf, hd]
    exact h.fate_dispatched
  · rw [hl, hcount]
    exact h.leaked_eq
  · rw [hp, hcount]
    exact h.dropped_eq

theorem started_not_ended (h : Ledger c) : c.started ∉ c.ended :=
  fun hm => Nat.lt_irrefl _ (h.ended_lt _ hm)

theorem openSlot (h : Ledger c) (hinv : PoolInv c) {i : ℕ} {t : Pool SlotLife} {l : SlotLife}
    (ht : c.takeSlot = some (i, t)) (hl : ¬ l.Free) (hd : l.dispatching = false)
    (hs : l.serial = c.started) : Ledger (c.openSlot t i l) := by
  have htk := hinv.taken ht
  have hlive : ∀ j, (c.openSlot t i l).LiveSlot j ↔ j = i ∨ c.LiveSlot j :=
    fun j => htk.live_set hl
  have hself : (c.openSlot t i l).slots.cell i = l := Pool.set_cell_self
  have hcell : ∀ j, c.LiveSlot j → (c.openSlot t i l).slots.cell j = c.slots.cell j := by
    intro j hj
    have hji : j ≠ i := fun hji => htk.not_live (hji ▸ hj)
    exact (Pool.set_cell_of_ne hji).trans (htk.same j hji)
  constructor
  · intro j hj
    change _ < c.started + 1
    rcases (hlive j).1 hj with rfl | hj
    · rw [hself, hs]
      exact Nat.lt_succ_self _
    · rw [hcell j hj]
      exact (h.serial_lt j hj).trans (Nat.lt_succ_self _)
  · intro j k hj hk
    rcases (hlive j).1 hj with hji | hj' <;> rcases (hlive k).1 hk with hki | hk'
    · exact fun _ => hji.trans hki.symm
    · rw [hji, hself, hs, hcell k hk']
      exact fun heq => absurd (h.serial_lt k hk') (heq ▸ Nat.lt_irrefl _)
    · rw [hki, hself, hs, hcell j hj']
      exact fun heq => absurd (h.serial_lt j hj') (heq ▸ Nat.lt_irrefl _)
    · rw [hcell j hj', hcell k hk']
      exact h.serial_inj j k hj' hk'
  · exact fun n hn => (h.ended_lt n hn).trans (Nat.lt_succ_self _)
  · exact h.ended_nodup
  · intro j hj
    rcases (hlive j).1 hj with rfl | hj
    · rw [hself, hs]
      exact h.started_not_ended
    · rw [hcell j hj]
      exact h.open_not_ended j hj
  · intro n hn
    rcases Nat.lt_succ_iff_lt_or_eq.1 hn with hn | rfl
    · refine (h.covered n hn).imp_left ?_
      rintro ⟨j, hj, rfl⟩
      exact ⟨j, (hlive j).2 (.inr hj), by rw [hcell j hj]⟩
    · exact .inl ⟨i, (hlive i).2 (.inl rfl), by rw [hself, hs]⟩
  · exact fun n hn => (h.dispatched_lt n hn).trans (Nat.lt_succ_self _)
  · exact h.dispatched_nodup
  · intro j hj
    rcases (hlive j).1 hj with rfl | hj
    · rw [hself, hs, hd]
      refine iff_of_false (fun hm => ?_) (by decide)
      exact Nat.lt_irrefl _ (h.dispatched_lt _ hm)
    · rw [hcell j hj]
      exact h.open_dispatched j hj
  · exact h.fate_dispatched
  · exact h.leaked_eq
  · exact h.dropped_eq

theorem fateCount_append (c : Lifecycle) (n : ℕ) (fate f : Fate) :
    (c.fates ++ [(n, fate)]).countP (fun x => x.2 = f) =
      if fate = f then c.fateCount f + 1 else c.fateCount f := by
  by_cases h : fate = f <;> simp [fateCount, h]

/-- A span leaves its slot: with a dispatch of its own just before, or with a fate that agrees with
what the dispatch log says already. -/
theorem freeSlot (h : Ledger c) {i : ℕ} (hi : c.LiveSlot i) (released emitted : ℕ) (fate : Fate)
    (d : List ℕ) (hlt : ∀ n ∈ d, n < c.started) (hnd : d.Nodup)
    (hother : ∀ n, n ≠ (c.slots.cell i).serial → (n ∈ d ↔ n ∈ c.dispatched))
    (hself : (c.slots.cell i).serial ∈ d ↔ fate.afterDispatch = true) :
    Ledger { c.freeSlot i released fate with emitted := emitted, dispatched := d } := by
  have hlive : ∀ j, (c.freeSlot i released fate).LiveSlot j ↔ j ≠ i ∧ c.LiveSlot j :=
    fun j => Pool.live_put_iff rfl
  have hcell : ∀ j, j ≠ i → (c.freeSlot i released fate).slots.cell j = c.slots.cell j :=
    fun j hj => Pool.put_cell_of_ne hj
  have hended : (c.freeSlot i released fate).ended = c.ended ++ [(c.slots.cell i).serial] := by
    simp [ended, Lifecycle.freeSlot]
  have hne : ∀ j, j ≠ i → c.LiveSlot j → (c.slots.cell j).serial ≠ (c.slots.cell i).serial :=
    fun j hji hj heq => hji (h.serial_inj j i hj hi heq)
  constructor
  · intro j hj
    obtain ⟨hji, hj⟩ := (hlive j).1 hj
    change ((c.freeSlot i released fate).slots.cell j).serial < c.started
    rw [hcell j hji]
    exact h.serial_lt j hj
  · intro j k hj hk
    obtain ⟨hji, hj⟩ := (hlive j).1 hj
    obtain ⟨hki, hk⟩ := (hlive k).1 hk
    change ((c.freeSlot i released fate).slots.cell j).serial =
      ((c.freeSlot i released fate).slots.cell k).serial → j = k
    rw [hcell j hji, hcell k hki]
    exact h.serial_inj j k hj hk
  · change ∀ n ∈ (c.freeSlot i released fate).ended, n < c.started
    rw [hended]
    intro n hn
    rcases List.mem_append.1 hn with hn | hn
    · exact h.ended_lt n hn
    · rw [List.mem_singleton.1 hn]
      exact h.serial_lt i hi
  · change (c.freeSlot i released fate).ended.Nodup
    rw [hended, List.nodup_append]
    refine ⟨h.ended_nodup, List.nodup_singleton _, fun n hn m hm => ?_⟩
    rw [List.mem_singleton.1 hm]
    rintro rfl
    exact h.open_not_ended i hi hn
  · intro j hj
    obtain ⟨hji, hj⟩ := (hlive j).1 hj
    change ((c.freeSlot i released fate).slots.cell j).serial ∉ (c.freeSlot i released fate).ended
    rw [hcell j hji, hended, List.mem_append, List.mem_singleton]
    rintro (hm | hm)
    · exact h.open_not_ended j hj hm
    · exact hne j hji hj hm
  · intro n hn
    change (∃ j, (c.freeSlot i released fate).LiveSlot j ∧ _) ∨
      n ∈ (c.freeSlot i released fate).ended
    rw [hended, List.mem_append, List.mem_singleton]
    rcases h.covered n hn with ⟨j, hj, rfl⟩ | hm
    · by_cases hji : j = i
      · subst hji
        exact .inr (.inr rfl)
      · exact .inl ⟨j, (hlive j).2 ⟨hji, hj⟩, by
          change ((c.freeSlot i released fate).slots.cell j).serial = _
          rw [hcell j hji]⟩
    · exact .inr (.inl hm)
  · exact hlt
  · exact hnd
  · intro j hj
    obtain ⟨hji, hj⟩ := (hlive j).1 hj
    change ((c.freeSlot i released fate).slots.cell j).serial ∈ d ↔
      ((c.freeSlot i released fate).slots.cell j).dispatching = true
    rw [hcell j hji, hother _ (hne j hji hj)]
    exact h.open_dispatched j hj
  · intro n f hm
    change n ∈ d ↔ _
    rcases List.mem_append.1 hm with hm | hm
    · have hn : n ≠ (c.slots.cell i).serial := by
        rintro rfl
        exact h.open_not_ended i hi (List.mem_map.2 ⟨_, hm, rfl⟩)
      rw [hother n hn]
      exact h.fate_dispatched n f hm
    · obtain ⟨rfl, rfl⟩ := Prod.mk.inj (List.mem_singleton.1 hm)
      exact hself
  · change (if fate = .leaked then c.leaked + 1 else c.leaked) =
      (c.fates ++ [((c.slots.cell i).serial, fate)]).countP (fun x => x.2 = .leaked)
    rw [fateCount_append, h.leaked_eq]
  · change (if fate = .dropped then c.dropped + 1 else c.dropped) =
      (c.fates ++ [((c.slots.cell i).serial, fate)]).countP (fun x => x.2 = .dropped)
    rw [fateCount_append, h.dropped_eq]

/-- The dispatch log after one more dispatch of an open span. -/
theorem dispatch_log (h : Ledger c) {i : ℕ} (hi : c.LiveSlot i)
    (hd : (c.slots.cell i).dispatching = false) :
    (∀ n ∈ c.dispatched ++ [(c.slots.cell i).serial], n < c.started) ∧
      (c.dispatched ++ [(c.slots.cell i).serial]).Nodup := by
  have hnot : (c.slots.cell i).serial ∉ c.dispatched := by
    rw [h.open_dispatched i hi, hd]
    decide
  refine ⟨fun n hn => ?_, List.nodup_append.2 ⟨h.dispatched_nodup, List.nodup_singleton _, ?_⟩⟩
  · rcases List.mem_append.1 hn with hn | hn
    · exact h.dispatched_lt n hn
    · rw [List.mem_singleton.1 hn]
      exact h.serial_lt i hi
  · intro n hn m hm
    rw [List.mem_singleton.1 hm]
    rintro rfl
    exact hnot hn

theorem cutShort (h : Ledger c) {i : ℕ} (hi : c.LiveSlot i)
    (hd : (c.slots.cell i).dispatching = false) : Ledger (c.cutShort i) := by
  obtain ⟨hlt, hnd⟩ := h.dispatch_log hi hd
  have hlive : ∀ j, (c.cutShort i).LiveSlot j ↔ c.LiveSlot j := fun j => Pool.live_set_iff Iff.rfl
  have hcell : ∀ j, j ≠ i → (c.cutShort i).slots.cell j = c.slots.cell j :=
    fun j hj => Pool.set_cell_of_ne hj
  have hserial : ∀ j, ((c.cutShort i).slots.cell j).serial = (c.slots.cell j).serial := by
    intro j
    by_cases hj : j = i
    · subst hj
      simp [Lifecycle.cutShort]
    · rw [hcell j hj]
  constructor
  · intro j hj
    rw [hserial]
    exact h.serial_lt j ((hlive j).1 hj)
  · intro j k hj hk
    rw [hserial, hserial]
    exact h.serial_inj j k ((hlive j).1 hj) ((hlive k).1 hk)
  · exact h.ended_lt
  · exact h.ended_nodup
  · intro j hj
    rw [hserial]
    exact h.open_not_ended j ((hlive j).1 hj)
  · intro n hn
    refine (h.covered n hn).imp_left ?_
    rintro ⟨j, hj, rfl⟩
    exact ⟨j, (hlive j).2 hj, hserial j⟩
  · exact hlt
  · exact hnd
  · intro j hj
    rw [hserial]
    have hj' := (hlive j).1 hj
    by_cases hji : j = i
    · subst hji
      simp [Lifecycle.cutShort]
    · have hne : (c.slots.cell j).serial ≠ (c.slots.cell i).serial :=
        fun heq => hji (h.serial_inj j i hj' hi heq)
      rw [hcell j hji, ← h.open_dispatched j hj']
      simp [Lifecycle.cutShort, hne]
  · intro n f hm
    have hne : n ≠ (c.slots.cell i).serial := by
      rintro rfl
      exact h.open_not_ended i hi (List.mem_map.2 ⟨_, hm, rfl⟩)
    rw [← h.fate_dispatched n f hm]
    simp [Lifecycle.cutShort, hne]
  · exact h.leaked_eq
  · exact h.dropped_eq

/-- Every step keeps the ledger. -/
theorem step {sink : Bool} (h : Ledger c) (hinv : PoolInv c) (hstep : LifeStep sink c c') :
    Ledger c' := by
  cases hstep with
  | initPool n ok hr => exact { h with }
  | putBack i t l hr ht hl hn _ _ =>
    have htk := hinv.taken ht
    refine h.congr rfl rfl rfl rfl rfl (fun j => htk.live_put hl) fun j hj => ?_
    have hji : j ≠ i := fun hji => htk.not_live (hji ▸ hj)
    change ((t.put i l).cell j).serial = _ ∧ ((t.put i l).cell j).dispatching = _
    rw [Pool.put_cell_of_ne hji, htk.same j hji]
    exact ⟨rfl, rfl⟩
  | openSlot i t l hr ht hl _ hd hs => exact h.openSlot hinv ht hl hd hs
  | openNrec i t n ht hn => exact { h with }
  | push e hl hn hlt hd => exact { h with }
  | unstack l hl => exact { h with }
  | mark i r o =>
    refine h.congr rfl rfl rfl rfl rfl (fun j => Pool.live_set_iff Iff.rfl) fun j _ => ?_
    by_cases hj : j = i
    · subst hj
      simp
    · simp [Pool.set_cell_of_ne hj]
  | dispatch i hi hs hd =>
    obtain ⟨hlt, hnd⟩ := h.dispatch_log hi hd
    refine h.freeSlot hi _ _ .dispatched _ hlt hnd (fun n hn => ?_) ?_
    · simp [hn]
    · simp [Fate.afterDispatch]
  | cutShort i hi _ hd => exact h.cutShort hi hd
  | discard i hi _ hd =>
    refine h.freeSlot hi _ c.emitted .discarded _ h.dispatched_lt h.dispatched_nodup
      (fun _ _ => Iff.rfl) ?_
    rw [h.open_dispatched i hi, hd]
    simp [Fate.afterDispatch]
  | leak i hi _ hd =>
    refine h.freeSlot hi _ c.emitted .leaked _ h.dispatched_lt h.dispatched_nodup
      (fun _ _ => Iff.rfl) ?_
    rw [h.open_dispatched i hi, hd]
    simp [Fate.afterDispatch]
  | drop i hi _ hd =>
    refine h.freeSlot hi _ c.emitted .dropped _ h.dispatched_lt h.dispatched_nodup
      (fun _ _ => Iff.rfl) ?_
    rw [h.open_dispatched i hi, hd]
    simp [Fate.afterDispatch]
  | freeNrec i r hi hs => exact { h with }
  | tally a b d => exact { h with }

/-! ## What the ledger says -/

theorem mem_openSlots {i : ℕ} : i ∈ c.openSlots ↔ c.LiveSlot i := by
  simp [openSlots, LiveSlot, Pool.Live, SlotLife.Free]

theorem mem_slotsOf {i n : ℕ} :
    i ∈ c.slotsOf n ↔ c.LiveSlot i ∧ (c.slots.cell i).serial = n := by
  simp [slotsOf, mem_openSlots]

/-- Each started span is in one class, once: in one slot, or ended with one fate. -/
theorem one_class (h : Ledger c) {n : ℕ} (hn : n < c.started) :
    (c.slotsOf n).card + c.ended.count n = 1 := by
  rcases h.covered n hn with ⟨i, hi, rfl⟩ | hm
  · have hset : c.slotsOf (c.slots.cell i).serial = {i} := by
      ext j
      rw [mem_slotsOf, Finset.mem_singleton]
      constructor
      · rintro ⟨hj, heq⟩
        exact h.serial_inj j i hj hi heq
      · rintro rfl
        exact ⟨hi, rfl⟩
    rw [hset, Finset.card_singleton, List.count_eq_zero_of_not_mem (h.open_not_ended i hi)]
  · have hset : c.slotsOf n = ∅ := by
      refine Finset.eq_empty_of_forall_notMem fun i hi => ?_
      obtain ⟨hlive, rfl⟩ := mem_slotsOf.1 hi
      exact h.open_not_ended i hlive hm
    rw [hset, Finset.card_empty, List.count_eq_one_of_mem h.ended_nodup hm]

theorem fates_length (c : Lifecycle) :
    c.fates.length = c.fateCount .dispatched + c.fateCount .discarded + c.fateCount .leaked +
      c.fateCount .dropped := by
  unfold fateCount
  induction c.fates with
  | nil => rfl
  | cons x l ih =>
    rw [List.length_cons, ih]
    simp only [List.countP_cons]
    cases x.2 <;> simp <;> omega

/-- The started spans are those open and those ended. -/
theorem started_eq (h : Ledger c) : c.started = c.openSlots.card + c.fates.length := by
  have hinj : Set.InjOn (fun i => (c.slots.cell i).serial) c.openSlots := fun i hi j hj heq =>
    h.serial_inj i j (mem_openSlots.1 hi) (mem_openSlots.1 hj) heq
  have hdisj : Disjoint (c.openSlots.image fun i => (c.slots.cell i).serial) c.ended.toFinset := by
    rw [Finset.disjoint_left]
    intro n hn hm
    obtain ⟨i, hi, rfl⟩ := Finset.mem_image.1 hn
    exact h.open_not_ended i (mem_openSlots.1 hi) (List.mem_toFinset.1 hm)
  have hunion : Finset.range c.started =
      (c.openSlots.image fun i => (c.slots.cell i).serial) ∪ c.ended.toFinset := by
    ext n
    rw [Finset.mem_range, Finset.mem_union, Finset.mem_image, List.mem_toFinset]
    constructor
    · intro hn
      refine (h.covered n hn).imp_left ?_
      rintro ⟨i, hi, rfl⟩
      exact ⟨i, mem_openSlots.2 hi, rfl⟩
    · rintro (⟨i, hi, rfl⟩ | hm)
      · exact h.serial_lt i (mem_openSlots.1 hi)
      · exact h.ended_lt n hm
  calc c.started = (Finset.range c.started).card := (Finset.card_range _).symm
    _ = c.openSlots.card + c.ended.length := by
      rw [hunion, Finset.card_union_of_disjoint hdisj, Finset.card_image_of_injOn hinj,
        List.toFinset_card_of_nodup h.ended_nodup]
    _ = c.openSlots.card + c.fates.length := by rw [ended, List.length_map]

end Ledger

/-- With a sink throughout, every dispatch is counted as emitted. -/
def Emitted (c : Lifecycle) : Prop := c.emitted = c.fateCount .dispatched

theorem Emitted.step {c c' : Lifecycle} (h : Emitted c) (hstep : LifeStep true c c') :
    Emitted c' := by
  have hfree : ∀ (i released : ℕ) (fate : Fate), fate ≠ .dispatched →
      Emitted (c.freeSlot i released fate) := by
    intro i released fate hf
    change c.emitted = (c.fates ++ [((c.slots.cell i).serial, fate)]).countP
      (fun x => x.2 = .dispatched)
    rw [Ledger.fateCount_append, if_neg hf]
    exact h
  cases hstep with
  | dispatch i _ _ _ =>
    change c.emitted + 1 = (c.fates ++ [((c.slots.cell i).serial, Fate.dispatched)]).countP
      (fun x => x.2 = .dispatched)
    rw [Ledger.fateCount_append, if_pos rfl]
    exact congrArg (· + 1) h
  | discard i _ _ _ => exact hfree i _ _ (by decide)
  | leak i _ _ _ => exact hfree i _ _ (by decide)
  | drop i _ _ _ => exact hfree i _ _ (by decide)
  | initPool => exact h
  | putBack => exact h
  | openSlot => exact h
  | openNrec => exact h
  | push => exact h
  | unstack => exact h
  | mark => exact h
  | cutShort => exact h
  | freeNrec => exact h
  | tally => exact h

end PostgresOtel
