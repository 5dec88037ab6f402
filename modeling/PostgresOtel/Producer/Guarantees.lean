import PostgresOtel.Producer.Deliveries

/-!
# What holds in every run of the producer

The ledger and the pool invariant, read off at the source's own variables: every started span has
one fate, those that are dispatched reach the emit hook once, and the pools, the active stack and the
session count fit together.
-/

set_option autoImplicit false

namespace PostgresOtel

open Lifecycle

variable {garbage : ℕ → OtelSlot} {s : St}

/-! ## One fate for every span -/

/-- Every started span is open in one slot or has left its slot once, the emit chain gets no span
twice, and none that was discarded or leaked.  The emit hook is run with exactly the spans dispatched
while there was one, in this order, and a sink that is always there gets them all.  With a sink
throughout, the counters add up. -/
theorem started_span_fates (h : (producer garbage).Reachable s) :
    (∀ n < s.counters.spansStarted, (s.life.slotsOf n).card + s.life.ended.count n = 1) ∧
    (∀ n ∈ s.life.ended, n < s.counters.spansStarted) ∧
    (s.dispatches.map Dispatch.serial).Nodup ∧
    (∀ n f, (n, f) ∈ s.fates →
      (n ∈ s.dispatches.map Dispatch.serial ↔ f = .dispatched ∨ f = .dropped)) ∧
    (∀ i, s.life.LiveSlot i →
      ((s.slots i).serial ∈ s.dispatches.map Dispatch.serial ↔ (s.slots i).dispatching = true)) ∧
    (s.dispatchDepth = 0 → ∀ i, s.life.LiveSlot i → (s.slots i).dispatching = false) ∧
    s.counters.leakedAtCommit = s.life.fateCount .leaked ∧
    s.counters.droppedInDispatch = s.life.fateCount .dropped ∧
    s.reached .emitHook = s.sentTo .emitHook ∧
    (∀ sink, (s.reached sink).Sublist (s.sentTo sink)) ∧
    (∀ sink, ((s.reached sink).map Prod.fst).Nodup) ∧
    (∀ sink, (producer garbage).ReachBy (fun _ call => call.env.Feeds sink) s →
      s.reached sink = s.dispatches.map fun d => (d.serial, d.span)) ∧
    ((producer garbage).ReachBy (fun _ call => call.env.emitHook.isSome = true) s →
      ∀ n f, (n, f) ∈ s.fates → ((s.reached .emitHook).map Prod.fst).count n =
        if f = .dispatched ∨ f = .dropped then 1 else 0) ∧
    ((producer garbage).ReachBy (fun _ call => call.env.sink = true) s →
      s.counters.spansStarted = s.counters.spansEmitted + s.counters.leakedAtCommit +
        s.counters.droppedInDispatch + s.life.fateCount .discarded + s.life.openSlots.card) := by
  have hpool := reachable_poolInv h
  have hl := reachable_ledger h
  have hnodup : (s.dispatches.map Dispatch.serial).Nodup := hl.dispatched_nodup
  have hfate (n : ℕ) (f : Fate) (hf : (n, f) ∈ s.fates) :
      n ∈ s.dispatches.map Dispatch.serial ↔ f = .dispatched ∨ f = .dropped := by
    rw [show n ∈ s.dispatches.map Dispatch.serial ↔ f.afterDispatch = true from
      hl.fate_dispatched n f hf]
    cases f <;> simp [Fate.afterDispatch]
  refine ⟨fun n hn => hl.one_class hn, hl.ended_lt, hnodup, hfate, hl.open_dispatched,
    hpool.not_dispatching, hl.leaked_eq, hl.dropped_eq, reachable_reached_emitHook h,
    reachable_reached_sublist h, fun sink => ?_, fun sink hfeeds => reachBy_reached hfeeds,
    fun hhook n f hf => ?_, fun hsink => ?_⟩
  · refine List.Nodup.sublist ?_ hnodup
    have hsent : (s.sentTo sink).map Prod.fst =
        (s.dispatches.filter fun d => sink ∈ d.sinks).map Dispatch.serial := List.map_map
    exact ((reachable_reached_sublist h sink).map Prod.fst).trans
      (hsent ▸ List.filter_sublist.map Dispatch.serial)
  · have hall : (s.reached .emitHook).map Prod.fst = s.dispatches.map Dispatch.serial := by
      rw [reachBy_reached (hhook.mono fun _ _ => feeds_emitHook.2), List.map_map]
      rfl
    rw [hall, hnodup.count]
    simp only [hfate n f hf]
  · have hstarted : s.counters.spansStarted = s.life.openSlots.card + s.life.fates.length :=
      hl.started_eq
    have hemitted : s.counters.spansEmitted = s.life.fateCount .dispatched :=
      reachable_emitted hsink
    have hleaked : s.counters.leakedAtCommit = s.life.fateCount .leaked := hl.leaked_eq
    have hdropped : s.counters.droppedInDispatch = s.life.fateCount .dropped := hl.dropped_eq
    have hlength := Ledger.fates_length s.life
    omega

/-- A session span is started, and ends with a hook that raises an `ERROR`. -/
def raisingEnv : Env :=
  { emitHook := some fun _ => { finish := .raisesError { elevel := elevelError } } }

def startSessionSpan : Call where
  env := raisingEnv
  backend := {}
  op := .spanStart (some { name := some (cstr "query"), owner := .session })

def endFirstSpan : Call where
  env := raisingEnv
  backend := {}
  op := .spanEnd (makeRef 1 0 true) 0

/-- The state after the start. -/
def sessionSpanOpen : St := (producer fun _ => {}).next (initSt fun _ => {}) startSessionSpan

/-- The state after the start and the end. -/
def sessionSpanEnded : St := (producer fun _ => {}).next sessionSpanOpen endFirstSpan

theorem reachable_sessionSpanOpen : (producer fun _ => {}).Reachable sessionSpanOpen :=
  Machine.Reachable.step (m := producer fun _ => {}) startSessionSpan .init trivial

theorem valid_endFirstSpan : endFirstSpan.op.Valid sessionSpanOpen :=
  show (makeRef 1 0 true).Issued by decide

theorem started_span_fates_ended :
    sessionSpanEnded.counters.spansStarted = 1 ∧ sessionSpanEnded.life.fates = [(0, .dispatched)] ∧
      sessionSpanEnded.counters.spansEmitted = 1 ∧
      (sessionSpanEnded.life.slotsOf 0).card + sessionSpanEnded.life.ended.count 0 = 1 ∧
      ((sessionSpanEnded.reached .emitHook).map Prod.fst).count 0 = 1 := by
  have hrun : (producer fun _ => {}).ReachBy (fun _ call => call.env.emitHook.isSome = true)
      sessionSpanEnded :=
    Machine.ReachBy.step endFirstSpan
      (Machine.ReachBy.step (m := producer fun _ => {}) startSessionSpan .init trivial rfl)
      valid_endFirstSpan rfl
  obtain ⟨hone, -, -, -, -, -, -, -, -, -, -, -, hhook, -⟩ := started_span_fates hrun.reachable
  refine ⟨by decide +kernel, by decide +kernel, by decide +kernel, hone 0 (by decide +kernel), ?_⟩
  rw [hhook hrun 0 .dispatched (by decide +kernel)]
  simp

/-! ## The pools and the active stack -/

/-- Every slot and every non-recording entry handed out is live or on its free list once, the stack
names live ones once, its activation entries detached ones, and the session count is right. -/
theorem pools_and_stack (h : (producer garbage).Reachable s) :
    (∃ l, FreeList.Chain (fun i => (s.slots i).nextFree) s.slotFreeHead l ∧
      ∀ i, l.count i = if i < s.slotsUsed ∧ (s.slots i).gen = 0 then 1 else 0) ∧
    (∃ l, FreeList.Chain (fun i => (s.nrecs i).nextFree) s.nrecFreeHead l ∧
      ∀ i, l.count i = if i < s.nrecsUsed ∧ (s.nrecs i).gen = 0 then 1 else 0) ∧
    s.slotsUsed ≤ s.nslots ∧ s.nrecsUsed ≤ otelMaxStackDepth ∧
    (∀ e ∈ s.spanStack, s.life.Live e.entry) ∧
    (s.spanStack.map StackEntry.entry).Nodup ∧
    s.spanStack.length ≤ otelMaxStackDepth ∧
    (∀ e ∈ s.spanStack, e.isActivation = true →
      s.life.Live e.entry ∧ s.life.detached e.entry = true) ∧
    s.sessionSpansOpen = ((Finset.range s.slotsUsed).filter fun i =>
      (s.slots i).gen ≠ 0 ∧ (s.slots i).session = true).card := by
  have hinv := reachable_poolInv h
  refine ⟨FreeList.Threads.count hinv.slots_valid, FreeList.Threads.count hinv.nrecs_valid,
    hinv.slots_used_le, hinv.nrecs_used_le, hinv.stack_live, hinv.stack_nodup, hinv.stack_le,
    fun e he hact => ⟨hinv.stack_live e he, ?_⟩, hinv.session_open⟩
  rw [← hinv.stack_detached e he, hact]

/-- A slot and a non-recording entry have been freed, a detached span is activated, and an unsampled
one is started over it. -/
def busyPools : St :=
  let start (name : String) (unsampled detached : Bool) : ProducerOp :=
    .spanStart (some
      { name := some (cstr name), owner := .session, detached := detached,
        parent := if unsampled then .context else .root,
        parentCtx := if unsampled then some { traceId := 1, spanId := 1 } else none })
  let ops := [start "outer" false false, start "freed" false false, start "detached" false true,
    .spanEnd (makeRef 2 1 true) 0, .spanActivate (makeRef 3 2 true), start "freed" true true,
    start "unsampled" true false, .spanEnd (makeRef 4 0 false) 0]
  (ops.map fun op => ({ env := {}, backend := {}, op := op } : Call)).foldl (producer fun _ => {}).next
    (producer fun _ => {}).init

theorem pools_and_stack_open :
    busyPools.slotFreeHead = 1 ∧ busyPools.nrecFreeHead = 0 ∧ busyPools.sessionSpansOpen = 2 ∧
      busyPools.spanStack = [⟨.nrec 1, false, 0⟩, ⟨.slot 2, true, 1⟩, ⟨.slot 0, false, 0⟩] ∧
      (∃ l, FreeList.Chain (fun i => (busyPools.slots i).nextFree) 1 l ∧ l.count 1 = 1) ∧
      (∃ l, FreeList.Chain (fun i => (busyPools.nrecs i).nextFree) 0 l ∧ l.count 0 = 1) ∧
      busyPools.life.detached (.slot 2) = true := by
  have hreach : (producer fun _ => {}).Reachable busyPools := Machine.ReachBy.run .init
    ⟨trivial, trivial, trivial, trivial, trivial, trivial, (by decide : (makeRef 2 1 true).Issued),
      trivial, (by decide : (makeRef 3 2 true).Issued), trivial, trivial, trivial, trivial, trivial,
      (by decide : (makeRef 4 0 false).Issued), trivial, trivial⟩
  obtain ⟨⟨l, hl, hcount⟩, ⟨n, hn, hcount'⟩, -, -, -, -, -, hdetached, -⟩ := pools_and_stack hreach
  refine ⟨by decide +kernel, by decide +kernel, by decide +kernel, by decide +kernel, ⟨l, hl, ?_⟩,
    ⟨n, hn, ?_⟩, (hdetached ⟨.slot 2, true, 1⟩ (by decide +kernel) rfl).2⟩
  · rw [hcount, if_pos (by decide +kernel)]
  · rw [hcount', if_pos (by decide +kernel)]

end PostgresOtel
