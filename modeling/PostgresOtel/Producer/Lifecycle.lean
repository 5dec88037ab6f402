import Mathlib.Data.Finset.Card
import Mathlib.Data.Finset.Range
import Mathlib.Logic.Relation
import PostgresOtel.Lib.FreeList
import PostgresOtel.Producer.State

/-!
# The life cycle of spans

What the producer is for, without the data its spans carry: which slots and non-recording entries
are in use, which of them are active, and how each recording span left.  `LifeStep` lists the ways
this changes, one constructor for each; every function of the producer is a path of such steps
(`PostgresOtel.Producer.Refinement`).

`PoolInv` says that the pools, the stack and the session count fit together, and `Ledger` that every
started span has one fate.  Each step preserves both.
-/

set_option autoImplicit false

namespace PostgresOtel

def SlotLife.Free (l : SlotLife) : Prop := l.gen = 0

def NrecLife.Free (n : NrecLife) : Prop := n.gen = 0

instance : DecidablePred SlotLife.Free := fun l => decEq l.gen 0

instance : DecidablePred NrecLife.Free := fun n => decEq n.gen 0

/-- The life cycle part of the producer's state. -/
structure Lifecycle where
  poolReady : Bool
  nslots : ℕ
  slots : Pool SlotLife
  nrecs : Pool NrecLife
  spanStack : List StackEntry
  sessionSpansOpen : ℤ
  dispatchDepth : ℕ
  started : ℕ
  emitted : ℕ
  leaked : ℕ
  dropped : ℕ
  nonLifoEnd : ℕ
  unwound : ℕ
  activationUnwound : ℕ
  fates : List (ℕ × Fate)
  dispatched : List ℕ

/-- The life cycle part of a state. -/
def St.life (s : St) : Lifecycle where
  poolReady := s.poolReady
  nslots := s.nslots
  slots := ⟨fun i => (s.slots i).toSlotLife, s.slotsUsed, s.slotFreeHead⟩
  nrecs := ⟨fun i => (s.nrecs i).toNrecLife, s.nrecsUsed, s.nrecFreeHead⟩
  spanStack := s.spanStack
  sessionSpansOpen := s.sessionSpansOpen
  dispatchDepth := s.dispatchDepth
  started := s.counters.spansStarted
  emitted := s.counters.spansEmitted
  leaked := s.counters.leakedAtCommit
  dropped := s.counters.droppedInDispatch
  nonLifoEnd := s.counters.nonLifoEnd
  unwound := s.counters.unwound
  activationUnwound := s.counters.activationUnwound
  fates := s.fates
  dispatched := s.dispatches.map Dispatch.serial

namespace Lifecycle

/-- Slot `i` holds an open span. -/
def LiveSlot (c : Lifecycle) (i : ℕ) : Prop := c.slots.Live SlotLife.Free i

/-- Entry `i` holds an open non-recording span. -/
def LiveNrec (c : Lifecycle) (i : ℕ) : Prop := c.nrecs.Live NrecLife.Free i

/-- The span a stack entry names is open. -/
def Live (c : Lifecycle) : StackRef → Prop
  | .slot i => c.LiveSlot i
  | .nrec i => c.LiveNrec i

def detached (c : Lifecycle) : StackRef → Bool
  | .slot i => (c.slots.cell i).detached
  | .nrec i => (c.nrecs.cell i).detached

/-- The entry is on the active stack. -/
def OnStack (c : Lifecycle) (e : StackRef) : Prop := e ∈ c.spanStack.map StackEntry.entry

/-! ## Operations -/

def takeSlot (c : Lifecycle) : Option (ℕ × Pool SlotLife) :=
  c.slots.take SlotLife.nextFree (fun _ => {}) c.nslots

def takeNrec (c : Lifecycle) : Option (ℕ × Pool NrecLife) :=
  c.nrecs.take NrecLife.nextFree (fun n => { n with ownerReleasedGen := 0 }) otelMaxStackDepth

/-- Open the taken slot `i` as `l`. -/
def openSlot (c : Lifecycle) (taken : Pool SlotLife) (i : ℕ) (l : SlotLife) : Lifecycle :=
  { c with
    slots := taken.set i l
    sessionSpansOpen := if l.session then c.sessionSpansOpen + 1 else c.sessionSpansOpen
    started := c.started + 1 }

def push (c : Lifecycle) (e : StackEntry) : Lifecycle := { c with spanStack := e :: c.spanStack }

/-- Free slot `i` and record the fate of its span. -/
def freeSlot (c : Lifecycle) (i : ℕ) (released : ℕ) (fate : Fate) : Lifecycle :=
  { c with
    slots := c.slots.put i { ownerReleasedGen := released, nextFree := c.slots.head }
    sessionSpansOpen :=
      if (c.slots.cell i).session then c.sessionSpansOpen - 1 else c.sessionSpansOpen
    leaked := if fate = .leaked then c.leaked + 1 else c.leaked
    dropped := if fate = .dropped then c.dropped + 1 else c.dropped
    fates := c.fates ++ [((c.slots.cell i).serial, fate)] }

/-- Dispatch the span in slot `i` and free the slot. -/
def dispatchSlot (sink : Bool) (c : Lifecycle) (i : ℕ) : Lifecycle :=
  { c.freeSlot i (c.slots.cell i).ownerReleasedGen .dispatched with
    emitted := if sink then c.emitted + 1 else c.emitted
    dispatched := c.dispatched ++ [(c.slots.cell i).serial] }

/-- A dispatch that a `FATAL` in the emit hook cuts short. -/
def cutShort (c : Lifecycle) (i : ℕ) : Lifecycle :=
  { c with
    slots := c.slots.set i { c.slots.cell i with owner := none, dispatching := true }
    dispatchDepth := c.dispatchDepth + 1
    dispatched := c.dispatched ++ [(c.slots.cell i).serial] }

def freeNrec (c : Lifecycle) (i : ℕ) (released : ℕ) : Lifecycle :=
  { c with
    nrecs :=
      c.nrecs.put i
        { c.nrecs.cell i with gen := 0, ownerReleasedGen := released, nextFree := c.nrecs.head } }

end Lifecycle

/-! ## Steps -/

open Lifecycle in
/-- The ways in which the life cycle state changes.  `sink` says whether spans have anywhere to go. -/
inductive LifeStep (sink : Bool) : Lifecycle → Lifecycle → Prop
  | initPool (c : Lifecycle) (n : ℕ) (ok : Bool) : c.poolReady = false →
      LifeStep sink c { c with nslots := n, poolReady := ok }
  | putBack (c : Lifecycle) (i : ℕ) (taken : Pool SlotLife) (l : SlotLife) : c.poolReady = true →
      c.takeSlot = some (i, taken) → l.Free → l.nextFree = taken.head → l.leaked = false →
      l.dispatching = false → LifeStep sink c { c with slots := taken.put i l }
  | openSlot (c : Lifecycle) (i : ℕ) (taken : Pool SlotLife) (l : SlotLife) : c.poolReady = true →
      c.takeSlot = some (i, taken) → ¬ l.Free → l.leaked = false → l.dispatching = false →
      l.serial = c.started → LifeStep sink c (c.openSlot taken i l)
  | openNrec (c : Lifecycle) (i : ℕ) (taken : Pool NrecLife) (n : NrecLife) :
      c.takeNrec = some (i, taken) → ¬ n.Free →
      LifeStep sink c { c with nrecs := taken.set i n }
  | push (c : Lifecycle) (e : StackEntry) : c.Live e.entry → ¬ c.OnStack e.entry →
      c.spanStack.length < otelMaxStackDepth → e.isActivation = c.detached e.entry →
      LifeStep sink c (c.push e)
  | unstack (c : Lifecycle) (l : List StackEntry) : l.Sublist c.spanStack →
      LifeStep sink c { c with spanStack := l }
  | mark (c : Lifecycle) (i : ℕ) (released : ℕ) (owner : Option ResourceOwner) :
      LifeStep sink c
        { c with
          slots := c.slots.set i
            { c.slots.cell i with ownerReleasedGen := released, owner := owner } }
  | dispatch (c : Lifecycle) (i : ℕ) : c.LiveSlot i → ¬ c.OnStack (.slot i) →
      (c.slots.cell i).dispatching = false → LifeStep sink c (c.dispatchSlot sink i)
  | cutShort (c : Lifecycle) (i : ℕ) : c.LiveSlot i → ¬ c.OnStack (.slot i) →
      (c.slots.cell i).dispatching = false → LifeStep sink c (c.cutShort i)
  | discard (c : Lifecycle) (i : ℕ) : c.LiveSlot i → ¬ c.OnStack (.slot i) →
      (c.slots.cell i).dispatching = false →
      LifeStep sink c (c.freeSlot i (c.slots.cell i).ownerReleasedGen .discarded)
  | leak (c : Lifecycle) (i : ℕ) : c.LiveSlot i → ¬ c.OnStack (.slot i) →
      (c.slots.cell i).dispatching = false →
      LifeStep sink c (c.freeSlot i (c.slots.cell i).gen .leaked)
  | drop (c : Lifecycle) (i : ℕ) : c.LiveSlot i → ¬ c.OnStack (.slot i) →
      (c.slots.cell i).dispatching = true →
      LifeStep sink c (c.freeSlot i (c.slots.cell i).gen .dropped)
  | freeNrec (c : Lifecycle) (i : ℕ) (released : ℕ) : c.LiveNrec i → ¬ c.OnStack (.nrec i) →
      LifeStep sink c (c.freeNrec i released)
  | tally (c : Lifecycle) (nonLifoEnd unwound activationUnwound : ℕ) :
      LifeStep sink c
        { c with
          nonLifoEnd := nonLifoEnd, unwound := unwound, activationUnwound := activationUnwound }

/-- A path of steps. -/
abbrev LifePath (sink : Bool) : Lifecycle → Lifecycle → Prop := Relation.ReflTransGen (LifeStep sink)

/-- An invariant of the steps is one of the paths. -/
theorem LifePath.invariant {sink : Bool} {I : Lifecycle → Prop}
    (hI : ∀ c c', I c → LifeStep sink c c' → I c') {c c' : Lifecycle} (h : LifePath sink c c')
    (hc : I c) : I c' := by
  induction h with
  | refl => exact hc
  | tail _ hstep ih => exact hI _ _ ih hstep

/-! ## The pools, the stack and the session count -/

/-- The slots that hold open session spans. -/
def Lifecycle.sessionSlots (c : Lifecycle) : Finset ℕ :=
  (Finset.range c.slots.used).filter fun i =>
    (c.slots.cell i).gen ≠ 0 ∧ (c.slots.cell i).session = true

/-- How the pools, the active stack and the session count fit together. -/
structure PoolInv (c : Lifecycle) : Prop where
  slots_valid : c.slots.Valid SlotLife.Free SlotLife.nextFree
  slots_used_le : c.slots.used ≤ c.nslots
  not_ready : c.poolReady = false → c.slots.used = 0
  nrecs_valid : c.nrecs.Valid NrecLife.Free NrecLife.nextFree
  nrecs_used_le : c.nrecs.used ≤ otelMaxStackDepth
  stack_live : ∀ e ∈ c.spanStack, c.Live e.entry
  stack_nodup : (c.spanStack.map StackEntry.entry).Nodup
  stack_le : c.spanStack.length ≤ otelMaxStackDepth
  stack_detached : ∀ e ∈ c.spanStack, e.isActivation = c.detached e.entry
  session_open : c.sessionSpansOpen = c.sessionSlots.card
  not_dispatching : c.dispatchDepth = 0 → ∀ i, c.LiveSlot i → (c.slots.cell i).dispatching = false
  unmarked : ∀ i < c.slots.used, (c.slots.cell i).leaked = false ∧
    ((c.slots.cell i).Free → (c.slots.cell i).dispatching = false)

theorem Lifecycle.mem_sessionSlots {c : Lifecycle} {i : ℕ} :
    i ∈ c.sessionSlots ↔ c.LiveSlot i ∧ (c.slots.cell i).session = true := by
  simp [Lifecycle.sessionSlots, Lifecycle.LiveSlot, Pool.Live, SlotLife.Free, and_assoc]

theorem Lifecycle.onStack_iff {c : Lifecycle} {e : StackRef} :
    c.OnStack e ↔ ∃ x ∈ c.spanStack, x.entry = e := List.mem_map

namespace PoolInv

open Lifecycle

variable {c c' : Lifecycle}

/-- A step that leaves the slots that hold session spans alone, along with their count. -/
theorem card_congr (h : PoolInv c) (hn : c'.sessionSpansOpen = c.sessionSpansOpen)
    (hs : ∀ i, (c'.LiveSlot i ∧ (c'.slots.cell i).session = true) ↔
      (c.LiveSlot i ∧ (c.slots.cell i).session = true)) :
    c'.sessionSpansOpen = c'.sessionSlots.card := by
  have heq : c'.sessionSlots = c.sessionSlots := by
    ext i
    rw [mem_sessionSlots, mem_sessionSlots, hs]
  rw [hn, h.session_open, heq]

/-- Stack entries stay live and detached when the spans they name do. -/
theorem stack_congr (h : PoolInv c) (c' : Lifecycle) (hsub : ∀ e ∈ c'.spanStack, e ∈ c.spanStack)
    (hlive : ∀ e ∈ c'.spanStack, c.Live e.entry →
      c'.Live e.entry ∧ c'.detached e.entry = c.detached e.entry) :
    (∀ e ∈ c'.spanStack, c'.Live e.entry) ∧
      ∀ e ∈ c'.spanStack, e.isActivation = c'.detached e.entry := by
  refine ⟨fun e he => ?_, fun e he => ?_⟩
  · exact (hlive e he (h.stack_live e (hsub e he))).1
  · rw [(hlive e he (h.stack_live e (hsub e he))).2]
    exact h.stack_detached e (hsub e he)

theorem initPool (h : PoolInv c) (n : ℕ) (ok : Bool) (hr : c.poolReady = false) :
    PoolInv { c with nslots := n, poolReady := ok } where
  slots_valid := h.slots_valid
  slots_used_le := (h.not_ready hr).trans_le n.zero_le
  not_ready _ := h.not_ready hr
  nrecs_valid := h.nrecs_valid
  nrecs_used_le := h.nrecs_used_le
  stack_live := h.stack_live
  stack_nodup := h.stack_nodup
  stack_le := h.stack_le
  stack_detached := h.stack_detached
  session_open := h.session_open
  not_dispatching := h.not_dispatching
  unmarked := h.unmarked

theorem tally (h : PoolInv c) (a b d : ℕ) :
    PoolInv { c with nonLifoEnd := a, unwound := b, activationUnwound := d } :=
  { h with }

theorem push (h : PoolInv c) {e : StackEntry} (hl : c.Live e.entry) (hn : ¬ c.OnStack e.entry)
    (hlt : c.spanStack.length < otelMaxStackDepth) (hd : e.isActivation = c.detached e.entry) :
    PoolInv (c.push e) :=
  { h with
    stack_live := List.forall_mem_cons.2 ⟨hl, h.stack_live⟩
    stack_nodup := List.nodup_cons.2 ⟨hn, h.stack_nodup⟩
    stack_le := hlt
    stack_detached := List.forall_mem_cons.2 ⟨hd, h.stack_detached⟩ }

theorem unstack (h : PoolInv c) {l : List StackEntry} (hl : l.Sublist c.spanStack) :
    PoolInv { c with spanStack := l } :=
  { h with
    stack_live := fun e he => h.stack_live e (hl.subset he)
    stack_nodup := h.stack_nodup.sublist (hl.map _)
    stack_le := hl.length_le.trans h.stack_le
    stack_detached := fun e he => h.stack_detached e (hl.subset he) }

/-- Replacing a slot by one that is as free, has the same link and belongs to the same span. -/
theorem setSlot (h : PoolInv c) {i : ℕ} {l : SlotLife} (depth : ℕ) (d : List ℕ)
    (hg : l.gen = (c.slots.cell i).gen) (hn : l.nextFree = (c.slots.cell i).nextFree)
    (hd : l.detached = (c.slots.cell i).detached) (hs : l.session = (c.slots.cell i).session)
    (hk : l.leaked = (c.slots.cell i).leaked)
    (hf : l.Free → l.dispatching = (c.slots.cell i).dispatching)
    (hdepth : depth = 0 →
      c.dispatchDepth = 0 ∧ l.dispatching = (c.slots.cell i).dispatching) :
    PoolInv { c with slots := c.slots.set i l, dispatchDepth := depth, dispatched := d } := by
  have hfree : l.Free ↔ (c.slots.cell i).Free := by rw [SlotLife.Free, SlotLife.Free, hg]
  have hlive : ∀ j, (c.slots.set i l).Live SlotLife.Free j ↔ c.LiveSlot j :=
    fun j => Pool.live_set_iff hfree
  have hsame : ∀ j, ((c.slots.set i l).cell j).detached = (c.slots.cell j).detached ∧
      ((c.slots.set i l).cell j).session = (c.slots.cell j).session := by
    intro j
    by_cases hj : j = i
    · subst hj
      simp [hd, hs]
    · simp [Pool.set_cell_of_ne hj]
  obtain ⟨hstack, hdet⟩ := h.stack_congr { c with
      slots := c.slots.set i l, dispatchDepth := depth, dispatched := d }
    (fun _ he => he) fun e _ hl => by
      cases he : e.entry with
      | slot j =>
        rw [he] at hl
        exact ⟨(hlive j).2 hl, (hsame j).1⟩
      | nrec j =>
        rw [he] at hl
        exact ⟨hl, rfl⟩
  refine { h with
    slots_valid := h.slots_valid.set hfree hn
    stack_live := hstack
    stack_detached := hdet
    session_open := h.card_congr rfl fun j => ?_
    not_dispatching := fun h0 j hj => ?_
    unmarked := fun j hj => ?_ }
  · change _ ∧ ((c.slots.set i l).cell j).session = true ↔ _
    rw [(hsame j).2]
    exact and_congr_left fun _ => hlive j
  · have hj' := (hlive j).1 hj
    change ((c.slots.set i l).cell j).dispatching = false
    by_cases hji : j = i
    · subst hji
      rw [Pool.set_cell_self, (hdepth h0).2]
      exact h.not_dispatching (hdepth h0).1 j hj'
    · rw [Pool.set_cell_of_ne hji]
      exact h.not_dispatching (hdepth h0).1 j hj'
  · change ((c.slots.set i l).cell j).leaked = false ∧ (((c.slots.set i l).cell j).Free →
      ((c.slots.set i l).cell j).dispatching = false)
    by_cases hji : j = i
    · subst hji
      rw [Pool.set_cell_self, hk]
      refine ⟨(h.unmarked j hj).1, fun hlf => (hf hlf).trans ?_⟩
      exact (h.unmarked j hj).2 (hfree.1 hlf)
    · rw [Pool.set_cell_of_ne hji]
      exact h.unmarked j hj

/-- What a slot just taken looks like to the rest of the state. -/
theorem taken (h : PoolInv c) {i : ℕ} {t : Pool SlotLife} (ht : c.takeSlot = some (i, t)) :
    Pool.Taken SlotLife.Free SlotLife.nextFree c.slots i t := h.slots_valid.taken ht

/-- A slot just taken is free and carries no mark. -/
theorem taken_clean (h : PoolInv c) {i : ℕ} {t : Pool SlotLife}
    (ht : c.takeSlot = some (i, t)) :
    (t.cell i).Free ∧ (t.cell i).leaked = false ∧ (t.cell i).dispatching = false := by
  rcases h.slots_valid.taken_cell ht with ⟨hlt, hfree, hcell⟩ | hcell
  · rw [hcell]
    exact ⟨hfree, (h.unmarked i hlt).1, (h.unmarked i hlt).2 hfree⟩
  · rw [hcell]
    exact ⟨rfl, rfl, rfl⟩

/-- Whatever is put into a slot just taken, the other slots are marked as before. -/
theorem unmarked_of_taken (h : PoolInv c) {i : ℕ} {t p : Pool SlotLife} {l : SlotLife}
    (ht : c.takeSlot = some (i, t)) (hself : p.cell i = l)
    (hcell : ∀ j, j ≠ i → p.cell j = t.cell j) (hused : p.used = t.used)
    (hk : l.leaked = false) (hd : l.dispatching = false) :
    ∀ j < p.used, (p.cell j).leaked = false ∧ ((p.cell j).Free →
      (p.cell j).dispatching = false) := by
  intro j hj
  have htk := h.taken ht
  by_cases hji : j = i
  · subst hji
    rw [hself]
    exact ⟨hk, fun _ => hd⟩
  · rw [hused, htk.used_iff] at hj
    rw [hcell j hji, htk.same j hji]
    exact h.unmarked j (hj.resolve_right hji)

theorem taken_used_le (h : PoolInv c) {i : ℕ} {t : Pool SlotLife}
    (ht : c.takeSlot = some (i, t)) : t.used ≤ c.nslots := Pool.take_used_le ht h.slots_used_le

/-- The stack does not name a slot just taken, so whatever is put there does not touch it. -/
theorem stack_of_taken (h : PoolInv c) {i : ℕ} {t : Pool SlotLife} (p : Pool SlotLife)
    (ht : c.takeSlot = some (i, t)) (hcell : ∀ j, j ≠ i → p.cell j = t.cell j)
    (hused : p.used = t.used) :
    (∀ e ∈ c.spanStack, ({ c with slots := p } : Lifecycle).Live e.entry) ∧
      ∀ e ∈ c.spanStack, e.isActivation = ({ c with slots := p } : Lifecycle).detached e.entry :=
  h.stack_congr { c with slots := p } (fun _ he => he) fun e _ hl => by
    have htk := h.taken ht
    cases he : e.entry with
    | slot j =>
      rw [he] at hl
      have hj : j ≠ i := fun hji => htk.not_live (hji ▸ hl)
      have hcj : p.cell j = c.slots.cell j := (hcell j hj).trans (htk.same j hj)
      refine ⟨⟨?_, ?_⟩, ?_⟩
      · change j < p.used
        rw [hused, htk.used_iff]
        exact .inl hl.1
      · change ¬ (p.cell j).Free
        rw [hcj]
        exact hl.2
      · change (p.cell j).detached = (c.slots.cell j).detached
        rw [hcj]
    | nrec j =>
      rw [he] at hl
      exact ⟨hl, rfl⟩

theorem putBack (h : PoolInv c) {i : ℕ} {t : Pool SlotLife} {l : SlotLife}
    (hr : c.poolReady = true) (ht : c.takeSlot = some (i, t)) (hl : l.Free)
    (hn : l.nextFree = t.head) (hk : l.leaked = false) (hd : l.dispatching = false) :
    PoolInv { c with slots := t.put i l } := by
  have htk := h.taken ht
  obtain ⟨hstack, hdet⟩ := h.stack_of_taken (t.put i l) ht
    (fun j hj => Pool.put_cell_of_ne hj) rfl
  have hlive : ∀ j, (t.put i l).Live SlotLife.Free j ↔ c.LiveSlot j := fun j => htk.live_put hl
  have hcell : ∀ j, c.LiveSlot j → (t.put i l).cell j = c.slots.cell j := by
    intro j hj
    have hji : j ≠ i := fun hji => htk.not_live (hji ▸ hj)
    rw [Pool.put_cell_of_ne hji, htk.same j hji]
  refine { h with
    slots_valid := htk.put hl hn
    slots_used_le := (h.taken_used_le ht :)
    not_ready := fun hr' => absurd (hr.symm.trans hr') (by decide)
    stack_live := hstack
    stack_detached := hdet
    session_open := h.card_congr rfl fun j => ?_
    not_dispatching := fun h0 j hj => ?_
    unmarked := h.unmarked_of_taken ht Pool.put_cell_self (fun j hj => Pool.put_cell_of_ne hj) rfl
      hk hd }
  · change _ ∧ ((t.put i l).cell j).session = true ↔ _
    constructor
    · rintro ⟨hj, hs⟩
      have hj' := (hlive j).1 hj
      exact ⟨hj', hcell j hj' ▸ hs⟩
    · rintro ⟨hj, hs⟩
      exact ⟨(hlive j).2 hj, (hcell j hj).symm ▸ hs⟩
  · have hj' := (hlive j).1 hj
    change ((t.put i l).cell j).dispatching = false
    rw [hcell j hj']
    exact h.not_dispatching h0 j hj'

theorem openSlot (h : PoolInv c) {i : ℕ} {t : Pool SlotLife} {l : SlotLife}
    (hr : c.poolReady = true) (ht : c.takeSlot = some (i, t)) (hl : ¬ l.Free)
    (hk : l.leaked = false) (hd : l.dispatching = false) : PoolInv (c.openSlot t i l) := by
  have htk := h.taken ht
  obtain ⟨hstack, hdet⟩ := h.stack_of_taken (t.set i l) ht
    (fun j hj => Pool.set_cell_of_ne hj) rfl
  have hlive : ∀ j, (t.set i l).Live SlotLife.Free j ↔ j = i ∨ c.LiveSlot j :=
    fun j => htk.live_set hl
  have hcell : ∀ j, j ≠ i → (t.set i l).cell j = c.slots.cell j :=
    fun j hj => (Pool.set_cell_of_ne hj).trans (htk.same j hj)
  have hmem : ∀ j, j ∈ (c.openSlot t i l).sessionSlots ↔
      (j = i ∧ l.session = true) ∨ j ∈ c.sessionSlots := by
    intro j
    rw [mem_sessionSlots, mem_sessionSlots]
    change (t.set i l).Live SlotLife.Free j ∧ ((t.set i l).cell j).session = true ↔ _
    rw [hlive]
    by_cases hj : j = i
    · subst hj
      have := htk.not_live
      simp [LiveSlot, this]
    · simp [hj, hcell j hj]
  have hi : i ∉ c.sessionSlots := fun hi => htk.not_live (mem_sessionSlots.1 hi).1
  refine { h with
    slots_valid := htk.set hl
    slots_used_le := (h.taken_used_le ht :)
    not_ready := fun hr' => absurd (hr.symm.trans hr') (by decide)
    stack_live := hstack
    stack_detached := hdet
    session_open := ?_
    not_dispatching := fun h0 j hj => ?_
    unmarked := h.unmarked_of_taken ht Pool.set_cell_self (fun j hj => Pool.set_cell_of_ne hj) rfl
      hk hd }
  · change (if l.session then c.sessionSpansOpen + 1 else c.sessionSpansOpen) = _
    by_cases hs : l.session = true
    · have hset : (c.openSlot t i l).sessionSlots = insert i c.sessionSlots := by
        ext j
        rw [hmem, Finset.mem_insert]
        simp [hs]
      rw [if_pos hs, hset, Finset.card_insert_of_notMem hi, h.session_open]
      rfl
    · have hset : (c.openSlot t i l).sessionSlots = c.sessionSlots := by
        ext j
        rw [hmem]
        simp [hs]
      rw [if_neg hs, hset, h.session_open]
  · change ((t.set i l).cell j).dispatching = false
    by_cases hji : j = i
    · subst hji
      rw [Pool.set_cell_self, hd]
    · rw [hcell j hji]
      exact h.not_dispatching h0 j (((hlive j).1 hj).resolve_left hji)

theorem freeSlot (h : PoolInv c) {i : ℕ} (hi : c.LiveSlot i) (hs : ¬ c.OnStack (.slot i))
    (released : ℕ) (fate : Fate) : PoolInv (c.freeSlot i released fate) := by
  have hlive : ∀ j, (c.freeSlot i released fate).LiveSlot j ↔ j ≠ i ∧ c.LiveSlot j :=
    fun j => Pool.live_put_iff rfl
  have hcell : ∀ j, j ≠ i → (c.freeSlot i released fate).slots.cell j = c.slots.cell j :=
    fun j hj => Pool.put_cell_of_ne hj
  obtain ⟨hstack, hdet⟩ := h.stack_congr (c.freeSlot i released fate) (fun _ he => he)
    fun e he hl => by
      cases hej : e.entry with
      | slot j =>
        rw [hej] at hl
        have hj : j ≠ i := by
          rintro rfl
          exact hs (onStack_iff.2 ⟨e, he, hej⟩)
        refine ⟨(hlive j).2 ⟨hj, hl⟩, ?_⟩
        change ((c.freeSlot i released fate).slots.cell j).detached = (c.slots.cell j).detached
        rw [hcell j hj]
      | nrec j =>
        rw [hej] at hl
        exact ⟨hl, rfl⟩
  refine { h with
    slots_valid := h.slots_valid.put hi rfl rfl
    stack_live := hstack
    stack_detached := hdet
    session_open := ?_
    not_dispatching := fun h0 j hj => ?_
    unmarked := fun j hj => ?_ }
  · change (if (c.slots.cell i).session then c.sessionSpansOpen - 1 else c.sessionSpansOpen) = _
    have hset : (c.freeSlot i released fate).sessionSlots = c.sessionSlots.erase i := by
      ext j
      rw [mem_sessionSlots, hlive, Finset.mem_erase, mem_sessionSlots]
      by_cases hj : j = i
      · simp [hj]
      · rw [hcell j hj]
        simp [hj]
    by_cases hses : (c.slots.cell i).session = true
    · have hmem : i ∈ c.sessionSlots := mem_sessionSlots.2 ⟨hi, hses⟩
      have hpos := Finset.card_pos.2 ⟨i, hmem⟩
      rw [if_pos hses, hset, Finset.card_erase_of_mem hmem, h.session_open]
      omega
    · have hmem : i ∉ c.sessionSlots := fun hm => hses (mem_sessionSlots.1 hm).2
      rw [if_neg hses, hset, Finset.erase_eq_of_notMem hmem, h.session_open]
  · obtain ⟨hji, hj'⟩ := (hlive j).1 hj
    rw [hcell j hji]
    exact h.not_dispatching h0 j hj'
  · by_cases hji : j = i
    · subst hji
      simp [Lifecycle.freeSlot]
    · rw [hcell j hji]
      exact h.unmarked j hj

theorem openNrec (h : PoolInv c) {i : ℕ} {t : Pool NrecLife} {n : NrecLife}
    (ht : c.takeNrec = some (i, t)) (hn : ¬ n.Free) : PoolInv { c with nrecs := t.set i n } := by
  have htk := h.nrecs_valid.taken ht
  have hused : t.used ≤ otelMaxStackDepth := Pool.take_used_le ht h.nrecs_used_le
  obtain ⟨hstack, hdet⟩ := h.stack_congr { c with nrecs := t.set i n } (fun _ he => he)
    fun e _ hl => by
      cases hej : e.entry with
      | slot j =>
        rw [hej] at hl
        exact ⟨hl, rfl⟩
      | nrec j =>
        rw [hej] at hl
        have hj : j ≠ i := fun hji => htk.not_live (hji ▸ hl)
        refine ⟨(htk.live_set hn).2 (.inr hl), ?_⟩
        change ((t.set i n).cell j).detached = (c.nrecs.cell j).detached
        rw [Pool.set_cell_of_ne hj, htk.same j hj]
  exact { h with
    nrecs_valid := htk.set hn
    nrecs_used_le := hused
    stack_live := hstack
    stack_detached := hdet }

theorem freeNrec (h : PoolInv c) {i : ℕ} (hi : c.LiveNrec i) (hs : ¬ c.OnStack (.nrec i))
    (released : ℕ) : PoolInv (c.freeNrec i released) := by
  have hlive : ∀ j, (c.freeNrec i released).LiveNrec j ↔ j ≠ i ∧ c.LiveNrec j :=
    fun j => Pool.live_put_iff rfl
  obtain ⟨hstack, hdet⟩ := h.stack_congr (c.freeNrec i released) (fun _ he => he)
    fun e he hl => by
      cases hej : e.entry with
      | slot j =>
        rw [hej] at hl
        exact ⟨hl, rfl⟩
      | nrec j =>
        rw [hej] at hl
        have hj : j ≠ i := by
          rintro rfl
          exact hs (onStack_iff.2 ⟨e, he, hej⟩)
        refine ⟨(hlive j).2 ⟨hj, hl⟩, ?_⟩
        exact congrArg NrecLife.detached (Pool.put_cell_of_ne hj)
  exact { h with
    nrecs_valid := h.nrecs_valid.put hi rfl rfl
    stack_live := hstack
    stack_detached := hdet }

/-- Every step keeps the pools, the stack and the session count in order. -/
theorem step {sink : Bool} (h : PoolInv c) (hstep : LifeStep sink c c') : PoolInv c' := by
  cases hstep with
  | initPool n ok hr => exact h.initPool n ok hr
  | putBack i t l hr ht hl hn hk hd => exact h.putBack hr ht hl hn hk hd
  | openSlot i t l hr ht hl hk hd _ => exact h.openSlot hr ht hl hk hd
  | openNrec i t n ht hn => exact h.openNrec ht hn
  | push e hl hn hlt hd => exact h.push hl hn hlt hd
  | unstack l hl => exact h.unstack hl
  | mark i r o =>
    exact h.setSlot c.dispatchDepth c.dispatched rfl rfl rfl rfl rfl (fun _ => rfl)
      fun h0 => ⟨h0, rfl⟩
  | dispatch i hi hs _ => exact { h.freeSlot hi hs _ .dispatched with }
  | cutShort i hi _ _ =>
    exact h.setSlot (c.dispatchDepth + 1) _ rfl rfl rfl rfl rfl (fun hf => absurd hf hi.2)
      fun h0 => by omega
  | discard i hi hs _ => exact h.freeSlot hi hs _ _
  | leak i hi hs _ => exact h.freeSlot hi hs _ _
  | drop i hi hs _ => exact h.freeSlot hi hs _ _
  | freeNrec i r hi hs => exact h.freeNrec hi hs r
  | tally a b d => exact h.tally a b d

theorem path {sink : Bool} (h : PoolInv c) (hp : LifePath sink c c') : PoolInv c' :=
  hp.invariant (fun _ _ hc hs => hc.step hs) h

end PoolInv

end PostgresOtel
