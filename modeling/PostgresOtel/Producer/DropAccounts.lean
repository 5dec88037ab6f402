import Mathlib.Algebra.BigOperators.Group.Finset.Basic
import Mathlib.Algebra.BigOperators.Group.Finset.Piecewise
import PostgresOtel.Producer.DropTallies
import PostgresOtel.Producer.Run

/-!
# Accounts of what was dropped

Beside the producer's state, an account for every span that was ever started: what was asked of it, and
what has been dropped of that.  Every exported span balances with its account.  The statistics are the
sums over all accounts but for the exception events that found no place: `lower_error_event` counts
those on the span alone.
-/

set_option autoImplicit false

namespace PostgresOtel

open Exec

/-! ## What happens to spans -/

/-- The span in slot `i` is open and has not been exported. -/
def St.OpenSpan (s : St) (i : ℕ) : Prop :=
  s.life.LiveSlot i ∧ (s.slots i).serial ∉ s.dispatches.map Dispatch.serial

/-- The slot has the same span, with the same data. -/
structure SameRecord (slot slot' : OtelSlot) : Prop where
  serial : slot'.serial = slot.serial
  span : slot'.span = slot.span
  events : slot'.events = slot.events
  links : slot'.links = slot.links
  err : slot'.err = slot.err

/-- Spans may leave their slots; those that stay keep their data.  None is started or exported, and no
drop is counted. -/
structure LeavesSpans (s s' : St) : Prop where
  slots : ∀ i, s'.life.LiveSlot i → s.life.LiveSlot i ∧ SameRecord (s.slots i) (s'.slots i)
  counts : SameDrops s.counters s'.counters
  dispatches : s'.dispatches = s.dispatches

/-- The finished span in slot `i` goes to `dispatch_span`. -/
def St.handOver (s : St) (i : ℕ) (sinks : List Sink) : St :=
  { s with
    slots := Function.update s.slots i { s.slots i with dispatching := true }
    dispatches := s.dispatches ++ [⟨(s.slots i).serial, (s.slots i).span, sinks⟩] }

/-- What can happen, as far as the data of spans goes. -/
inductive DataStep
  /-- A span is started in slot `i`, which has been taken. -/
  | start (env : Env) (i : ℕ) (args : OtelSpanStartArgs) (name : CString) (p : ResolvedParent)
      (d : StartDecision) (owner : Option ResourceOwner)
  /-- A setter is called, or the log hook comes to the span. -/
  | operate (env : Env) (ref : OtelSpanRef) (op : SpanOp)
  /-- The span in slot `i` is finished and exported. -/
  | finish (env : Env) (i : ℕ) (endTime : TimestampTz) (unwinding : Bool) (reason : Option CString)
  /-- Anything else leads to this state. -/
  | other (s' : St)

namespace DataStep

def Enabled (s : St) : DataStep → Prop
  | .start _ i _ _ _ _ _ => (i < s.slotsUsed ∧ (s.slots i).gen = 0) ∧ (s.slots i).Blank
  | .operate _ ref op => op.isFinish = false ∧ s.OpenSpan (refIdx ref)
  | .finish _ i _ _ _ => s.OpenSpan i
  | .other s' => LeavesSpans s s'

def next (s : St) : DataStep → St
  | .start env i args name p d owner => endState (openTakenSlot env i args name p d owner) s
  | .operate env ref op => endState (op.run env ref) s
  | .finish env i endTime unwinding reason =>
    (endState (finishSlot env i endTime unwinding reason) s).handOver i env.sinks
  | .other s' => s'

/-- A captured error finds no place among the events of the span that is finished. -/
def Loses (s : St) : DataStep → Prop
  | .finish env i endTime unwinding reason =>
    env.DropsException ((s.slots i).closing unwinding reason) (tickAfterTime endTime s.tick)
  | _ => False

instance (s : St) : DecidablePred (DataStep.Loses s)
  | .finish _ _ _ _ _ => inferInstanceAs (Decidable (Env.DropsException _ _ _))
  | .start _ _ _ _ _ _ _ | .operate _ _ _ | .other _ => .isFalse id

end DataStep

/-! ## Accounts -/

/-- What is on record of a span. -/
structure SpanAccount where
  /-- Calls of `otel_span_add_event` with a name. -/
  events : ℕ := 0
  /-- Calls of `otel_span_add_link` with a valid target. -/
  links : ℕ := 0
  /-- Sets of attributes that were refused. -/
  refused : ℕ := 0
  /-- A report came to the span to be recorded. -/
  captured : Bool := false
  /-- What the span itself says was dropped. -/
  drops : ℕ × ℕ × ℕ := 0
  deriving DecidableEq

/-- The account after an operation on the span in slot `i`. -/
def SpanAccount.operate (a : SpanAccount) (env : Env) (ref : OtelSpanRef) (op : SpanOp) (s s' : St) :
    SpanAccount where
  events := a.events + if op.AddsEvent env ref s then 1 else 0
  links := a.links + if op.AddsLink env ref s then 1 else 0
  refused := a.refused + if op.RefusedSet env ref s s' then 1 else 0
  captured := a.captured || op.captures env ref s
  drops := (s'.slots (refIdx ref)).span.drops

/-- The accounts of all spans by the number of their start, and how many exception events were lost. -/
structure Accounts where
  span : ℕ → SpanAccount := fun _ => {}
  lost : ℕ := 0

/-- The accounts after a step. -/
def Accounts.record (a : Accounts) (s : St) (step : DataStep) : Accounts where
  span :=
    match step with
    | .operate env ref op =>
      Function.update a.span (s.slots (refIdx ref)).serial
        ((a.span (s.slots (refIdx ref)).serial).operate env ref op s (step.next s))
    | .finish _ i _ _ _ =>
      Function.update a.span (s.slots i).serial
        { a.span (s.slots i).serial with drops := ((step.next s).slots i).span.drops }
    | .start _ _ _ _ _ _ _ | .other _ => a.span
  lost := if step.Loses s then a.lost + 1 else a.lost

/-- The data of spans as a machine, with the accounts beside it. -/
def spanAccounts (garbage : ℕ → OtelSlot) : Machine (St × Accounts) DataStep :=
  (Machine.mk (initSt garbage) (fun s step => step.Enabled s) fun s step => step.next s).extend {} some
    (fun _ _ => True) fun p step => p.2.record p.1 step

/-! ## Balances -/

/-- The exported span is what its account says. -/
structure SpanAccount.Balances (a : SpanAccount) (span : OtelSpan) : Prop where
  events : span.eventTally = a.events + a.captured.toNat
  links : span.linkTally = a.links
  attrs : span.droppedAttrs = a.refused

/-- An open span is what its account says. -/
structure SpanAccount.Agrees (a : SpanAccount) (slot : OtelSlot) : Prop where
  events : slot.eventTally = a.events
  links : slot.linkTally = a.links
  attrs : slot.span.droppedAttrs = a.refused
  captured : slot.err.isSome = a.captured

/-- The sums over all spans that were ever started. -/
def Accounts.total (a : Accounts) (s : St) : ℕ × ℕ × ℕ :=
  ∑ k ∈ Finset.range s.counters.spansStarted, (a.span k).drops

/-- Every span has an account that agrees with it. -/
structure Accounts.Kept (a : Accounts) (s : St) : Prop where
  fresh : ∀ k, s.counters.spansStarted ≤ k → a.span k = {}
  serial_lt : ∀ i, s.life.LiveSlot i → (s.slots i).serial < s.counters.spansStarted
  serial_inj : ∀ i j, s.life.LiveSlot i → s.life.LiveSlot j →
    (s.slots i).serial = (s.slots j).serial → i = j
  exported_lt : ∀ d ∈ s.dispatches, d.serial < s.counters.spansStarted
  opened : ∀ i, s.OpenSpan i → (a.span (s.slots i).serial).Agrees (s.slots i)
  drops : ∀ i, s.life.LiveSlot i → (s.slots i).span.drops = (a.span (s.slots i).serial).drops
  exported : ∀ d ∈ s.dispatches, (a.span d.serial).Balances d.span
  total : a.total s = s.counters.drops + (0, a.lost, 0)

/-- Every exported span balances, and the statistics are the sums over all spans. -/
structure Accounts.Balanced (a : Accounts) (s : St) : Prop where
  exported : ∀ d ∈ s.dispatches, (a.span d.serial).Balances d.span
  attrs : (a.total s).1 = s.counters.attrDropped
  events : (a.total s).2.1 = s.counters.eventDropped
  links : (a.total s).2.2 = s.counters.linkDropped

/-! ## Steps -/

/-- The sum after one of its terms has changed. -/
theorem sum_update_add {f : ℕ → SpanAccount} {k n : ℕ} (hk : k < n) (x : SpanAccount) :
    ∑ j ∈ Finset.range n, (Function.update f k x j).drops + (f k).drops =
      ∑ j ∈ Finset.range n, (f j).drops + x.drops := by
  have hmem : k ∈ Finset.range n := Finset.mem_range.2 hk
  have hrest : ∑ j ∈ (Finset.range n).erase k, (Function.update f k x j).drops =
      ∑ j ∈ (Finset.range n).erase k, (f j).drops := by
    apply Finset.sum_congr rfl
    intro j hj
    rw [Function.update_of_ne (Finset.ne_of_mem_erase hj)]
  rw [← Finset.add_sum_erase _ _ hmem, ← Finset.add_sum_erase _ (fun j => (f j).drops) hmem, hrest,
    Function.update_self]
  abel

section Steps

variable {a : Accounts} {s s' : St}

theorem Accounts.Kept.other (h : a.Kept s) (hleaves : LeavesSpans s s') : a.Kept s' := by
  obtain ⟨hslots, ⟨hdrops, hstarted⟩, hdispatches⟩ := hleaves
  constructor
  case fresh =>
    rw [hstarted]
    exact h.fresh
  case serial_lt =>
    intro i hi
    obtain ⟨hlive, hsame⟩ := hslots i hi
    rw [hstarted, hsame.serial]
    exact h.serial_lt i hlive
  case serial_inj =>
    intro i j hi hj hserial
    obtain ⟨hlive, hsame⟩ := hslots i hi
    obtain ⟨hlive', hsame'⟩ := hslots j hj
    rw [hsame.serial, hsame'.serial] at hserial
    exact h.serial_inj i j hlive hlive' hserial
  case exported_lt =>
    rw [hdispatches, hstarted]
    exact h.exported_lt
  case opened =>
    rintro i ⟨hi, hnot⟩
    obtain ⟨hlive, hsame⟩ := hslots i hi
    rw [hdispatches, hsame.serial] at hnot
    have hagrees := h.opened i ⟨hlive, hnot⟩
    rw [hsame.serial]
    constructor
    case events => simpa [OtelSlot.eventTally, hsame.events, hsame.span] using hagrees.events
    case links => simpa [OtelSlot.linkTally, hsame.links, hsame.span] using hagrees.links
    case attrs => simpa [hsame.span] using hagrees.attrs
    case captured => simpa [hsame.err] using hagrees.captured
  case drops =>
    intro i hi
    obtain ⟨hlive, hsame⟩ := hslots i hi
    rw [hsame.serial, hsame.span]
    exact h.drops i hlive
  case exported =>
    rw [hdispatches]
    exact h.exported
  case total =>
    have htotal : a.total s' = a.total s := by
      unfold Accounts.total
      rw [hstarted]
    rw [htotal, hdrops]
    exact h.total

/-- A span without data has been started in slot `i`. -/
structure Starts (i : ℕ) (s s' : St) : Prop where
  others : ∀ j, s'.life.LiveSlot j → j ≠ i → s.life.LiveSlot j ∧ s'.slots j = s.slots j
  serial : (s'.slots i).serial = s.counters.spansStarted
  data : SameData (s.slots i) (s'.slots i)
  drops : s'.counters.drops = s.counters.drops
  started : s'.counters.spansStarted = s.counters.spansStarted + 1
  dispatches : s'.dispatches = s.dispatches

/-- The life cycle of a span that starts in slot `i`, whatever is there. -/
theorem life_openTakenSlot (env : Env) (i : ℕ) (args : OtelSpanStartArgs) (name : CString)
    (p : ResolvedParent) (d : StartDecision) (owner : Option ResourceOwner) (s : St) :
    (endState (openTakenSlot env i args name p d owner) s).life =
      (s.life.openSlot s.life.slots i (openedAs (s.life.slots.cell i) args owner
        (genAfter s.genCounter).1 s.life.started)).pushUnless args.detached (.slot i) := by
  apply Wp.endState (I := fun s' : St => s'.life = _)
  apply (wp_openTakenSlot env i args name p d owner (c := s.life) (t := s.life.slots) (s := s) rfl).mono
  · exact fun _ _ h => h.2.2
  · exact fun _ _ h => h.elim

theorem Lifecycle.slots_pushUnless (c : Lifecycle) (detached : Bool) (e : StackRef) :
    (c.pushUnless detached e).slots = c.slots := by
  unfold Lifecycle.pushUnless
  cases detached <;> rfl

theorem starts_openTakenSlot (env : Env) (i : ℕ) (args : OtelSpanStartArgs) (name : CString)
    (p : ResolvedParent) (d : StartDecision) (owner : Option ResourceOwner) (s : St) :
    Starts i s (endState (openTakenSlot env i args name p d owner) s) := by
  have hlife := life_openTakenSlot env i args name p d owner s
  have hslot := (sameData_openTakenSlot env (i := i) args name p d owner s).endState
  have hdrops := (drops_openTakenSlot env (i := i) args name p d owner s).endState
  generalize endState (openTakenSlot env i args name p d owner) s = s' at hlife hslot hdrops ⊢
  constructor
  case others =>
    intro j hj hne
    have hsame := hslot.others j hne
    have hused : s'.slotsUsed = s.slotsUsed := by
      show s'.life.slots.used = _
      rw [hlife, Lifecycle.slots_pushUnless]
      rfl
    obtain ⟨hlt, hgen⟩ := hj
    refine ⟨⟨?_, ?_⟩, hsame⟩
    · show j < s.slotsUsed
      rw [← hused]
      exact hlt
    · intro hfree
      apply hgen
      show (s'.slots j).gen = 0
      rw [hsame]
      exact hfree
  case serial =>
    show (s'.life.slots.cell i).serial = _
    rw [hlife, Lifecycle.slots_pushUnless]
    exact congrArg SlotLife.serial Pool.set_cell_self
  case data => exact hslot.slot
  case drops => exact hdrops
  case started =>
    show s'.life.started = _
    rw [hlife]
    unfold Lifecycle.pushUnless
    cases args.detached <;> rfl
  case dispatches => exact hslot.dispatches

theorem Accounts.Kept.start {i : ℕ} (h : a.Kept s) (hblank : (s.slots i).Blank)
    (hstarts : Starts i s s') : a.Kept s' := by
  have hfresh := h.fresh s.counters.spansStarted (Nat.le_refl _)
  have hdata := hstarts.data
  unfold OtelSlot.Blank at hblank
  rw [hblank] at hdata
  have hlt (j : ℕ) (hj : s'.life.LiveSlot j) (hne : j ≠ i) :
      (s'.slots j).serial < s.counters.spansStarted := by
    obtain ⟨hlive, hsame⟩ := hstarts.others j hj hne
    rw [hsame]
    exact h.serial_lt j hlive
  constructor
  case fresh =>
    intro k hk
    rw [hstarts.started] at hk
    exact h.fresh k (Nat.le_of_succ_le hk)
  case serial_lt =>
    intro j hj
    rw [hstarts.started]
    by_cases hne : j = i
    · rw [hne, hstarts.serial]
      exact Nat.lt_succ_self _
    · exact Nat.lt_succ_of_lt (hlt j hj hne)
  case serial_inj =>
    intro j k hj hk hserial
    by_cases hji : j = i <;> by_cases hki : k = i
    · rw [hji, hki]
    · have hlt := hlt k hk hki
      rw [← hserial, hji, hstarts.serial] at hlt
      exact absurd hlt (Nat.lt_irrefl _)
    · have hlt := hlt j hj hji
      rw [hserial, hki, hstarts.serial] at hlt
      exact absurd hlt (Nat.lt_irrefl _)
    · obtain ⟨hlive, hsame⟩ := hstarts.others j hj hji
      obtain ⟨hlive', hsame'⟩ := hstarts.others k hk hki
      rw [hsame, hsame'] at hserial
      exact h.serial_inj j k hlive hlive' hserial
  case exported_lt =>
    intro d hd
    rw [hstarts.dispatches] at hd
    rw [hstarts.started]
    exact Nat.lt_succ_of_lt (h.exported_lt d hd)
  case opened =>
    rintro j ⟨hj, hnot⟩
    by_cases hne : j = i
    · subst hne
      rw [hstarts.serial, hfresh]
      have hdrops := hdata.drops
      simp only [OtelSpan.drops, Prod.mk.injEq] at hdrops
      constructor
      case events => simp [OtelSlot.eventTally, hdata.events, hdrops.2.1]
      case links => simp [OtelSlot.linkTally, hdata.links, hdrops.2.2]
      case attrs => exact hdrops.1
      case captured => simp [hdata.err]
    · obtain ⟨hlive, hsame⟩ := hstarts.others j hj hne
      rw [hstarts.dispatches, hsame] at hnot
      rw [hsame]
      exact h.opened j ⟨hlive, hnot⟩
  case drops =>
    intro j hj
    by_cases hne : j = i
    · subst hne
      rw [hstarts.serial, hfresh]
      exact hdata.drops
    · obtain ⟨hlive, hsame⟩ := hstarts.others j hj hne
      rw [hsame]
      exact h.drops j hlive
  case exported =>
    rw [hstarts.dispatches]
    exact h.exported
  case total =>
    have htotal : a.total s' = a.total s := by
      unfold Accounts.total
      rw [hstarts.started, Finset.sum_range_succ, hfresh]
      exact add_zero _
    rw [htotal, hstarts.drops]
    exact h.total

/-- The open span in slot `i` has changed to what the account `x` says, and no other span has. -/
structure Moves (a : Accounts) (i : ℕ) (x : SpanAccount) (lost : ℕ) (s s' : St) : Prop where
  serial : (s'.slots i).serial = (s.slots i).serial
  others : ∀ j, j ≠ i → s'.slots j = s.slots j
  live : ∀ j, s'.life.LiveSlot j → s.life.LiveSlot j
  started : s'.counters.spansStarted = s.counters.spansStarted
  dispatches : ∀ d ∈ s.dispatches, d ∈ s'.dispatches
  exported : ∀ d ∈ s'.dispatches, d ∈ s.dispatches ∨
    (d.serial = (s.slots i).serial ∧ x.Balances d.span)
  opened : s'.OpenSpan i → x.Agrees (s'.slots i)
  drops : (s'.slots i).span.drops = x.drops
  total : x.drops + (s.counters.drops + (0, a.lost, 0)) =
    (s.slots i).span.drops + (s'.counters.drops + (0, lost, 0))

theorem Accounts.Kept.move {i lost : ℕ} {x : SpanAccount} (h : a.Kept s) (hopen : s.OpenSpan i)
    (hmoves : Moves a i x lost s s') :
    (Accounts.mk (Function.update a.span (s.slots i).serial x) lost).Kept s' := by
  have hlt := h.serial_lt i hopen.1
  have hserial (j : ℕ) : (s'.slots j).serial = (s.slots j).serial := by
    by_cases hne : j = i
    · rw [hne, hmoves.serial]
    · rw [hmoves.others j hne]
  -- no other open span and no exported one has the account that changes
  have hother (j : ℕ) (hj : s'.life.LiveSlot j) (hne : j ≠ i) :
      Function.update a.span (s.slots i).serial x (s'.slots j).serial = a.span (s.slots j).serial := by
    rw [hserial, Function.update_of_ne]
    exact fun heq => hne (h.serial_inj j i (hmoves.live j hj) hopen.1 heq)
  have hself : Function.update a.span (s.slots i).serial x (s'.slots i).serial = x := by
    rw [hserial, Function.update_self]
  constructor
  case fresh =>
    intro k hk
    rw [hmoves.started] at hk
    dsimp only
    rw [Function.update_of_ne (by omega)]
    exact h.fresh k hk
  case serial_lt =>
    intro j hj
    rw [hserial, hmoves.started]
    exact h.serial_lt j (hmoves.live j hj)
  case serial_inj =>
    intro j k hj hk heq
    rw [hserial, hserial] at heq
    exact h.serial_inj j k (hmoves.live j hj) (hmoves.live k hk) heq
  case exported_lt =>
    intro d hd
    rw [hmoves.started]
    rcases hmoves.exported d hd with hd | ⟨hd, -⟩
    · exact h.exported_lt d hd
    · rw [hd]
      exact hlt
  case opened =>
    rintro j ⟨hj, hnot⟩
    by_cases hne : j = i
    · subst hne
      dsimp only
      rw [hself]
      exact hmoves.opened ⟨hj, hnot⟩
    · dsimp only
      rw [hother j hj hne, hmoves.others j hne]
      refine h.opened j ⟨hmoves.live j hj, fun hmem => hnot ?_⟩
      rw [hserial]
      obtain ⟨d, hd, heq⟩ := List.mem_map.1 hmem
      exact List.mem_map.2 ⟨d, hmoves.dispatches d hd, heq⟩
  case drops =>
    intro j hj
    by_cases hne : j = i
    · subst hne
      dsimp only
      rw [hself]
      exact hmoves.drops
    · dsimp only
      rw [hother j hj hne, hmoves.others j hne]
      exact h.drops j (hmoves.live j hj)
  case exported =>
    intro d hd
    by_cases heq : d.serial = (s.slots i).serial
    · have hx : x.Balances d.span := by
        rcases hmoves.exported d hd with hd | ⟨-, hx⟩
        · exact absurd (List.mem_map.2 ⟨d, hd, heq⟩) hopen.2
        · exact hx
      dsimp only
      rw [heq, Function.update_self]
      exact hx
    · dsimp only
      rw [Function.update_of_ne heq]
      exact h.exported d ((hmoves.exported d hd).resolve_right fun hnew => heq hnew.1)
  case total =>
    have hsum := sum_update_add (f := a.span) hlt x
    have hold : ∑ k ∈ Finset.range s.counters.spansStarted, (a.span k).drops =
        s.counters.drops + (0, a.lost, 0) := h.total
    rw [hold, ← h.drops i hopen.1] at hsum
    show ∑ k ∈ Finset.range s'.counters.spansStarted, _ = _
    rw [hmoves.started]
    apply add_right_cancel (b := (s.slots i).span.drops)
    rw [hsum, add_comm, hmoves.total, add_comm]

/-- An operation on an open span. -/
theorem Accounts.Kept.operate {env : Env} {ref : OtelSpanRef} {op : SpanOp} (h : a.Kept s)
    (hfinish : op.isFinish = false) (hopen : s.OpenSpan (refIdx ref)) :
    (a.record s (.operate env ref op)).Kept ((DataStep.operate env ref op).next s) := by
  have hop := (SpanOp.tallies env hfinish : OpTallies env ref op s _)
  show (Accounts.mk (Function.update a.span _ _) a.lost).Kept (endState (op.run env ref) s)
  have hagrees := h.opened _ hopen
  have hslot := hop.tallies.slot
  apply h.move hopen
  constructor
  case serial => exact congrArg SlotLife.serial hslot.slot
  case others => exact hslot.others
  case live =>
    rintro j ⟨hlt, hgen⟩
    refine ⟨?_, fun hfree => hgen ?_⟩
    · show j < s.slotsUsed
      rw [← hop.tallies.used]
      exact hlt
    · have hlife : ((endState (op.run env ref) s).slots j).toSlotLife = (s.slots j).toSlotLife := by
        by_cases hne : j = refIdx ref
        · rw [hne]
          exact hslot.slot
        · rw [hslot.others j hne]
      show ((endState (op.run env ref) s).slots j).toSlotLife.Free
      rw [hlife]
      exact hfree
  case started => exact hop.tallies.started
  case dispatches =>
    rw [hslot.dispatches]
    exact fun _ hd => hd
  case exported =>
    rw [hslot.dispatches]
    exact fun _ hd => .inl hd
  case opened =>
    intro _
    constructor
    case events => rw [hop.tallies.events, hagrees.events]; rfl
    case links => rw [hop.tallies.links, hagrees.links]; rfl
    case attrs => rw [hop.attrs, hagrees.attrs]; rfl
    case captured => rw [hop.captured, hagrees.captured]; rfl
  case drops => rfl
  case total =>
    rw [← add_assoc, ← add_assoc]
    exact congrArg (· + _) hop.tallies.balance

/-- What is finished of a span balances with its account; a drop of its exception event is counted on
the span alone. -/
structure Finished (a : SpanAccount) (slot : OtelSlot) (loses : Prop) [Decidable loses] (slot' : OtelSlot) :
    Prop where
  serial : slot'.serial = slot.serial
  balances : a.Balances slot'.span
  drops : slot'.span.drops = slot.span.drops + (0, if loses then 1 else 0, 0)

theorem Finishes.finished {env : Env} {tick : ℕ} {slot slot' : OtelSlot} {unwinding : Bool}
    {reason : Option CString} {a : SpanAccount} (hagrees : a.Agrees slot)
    (h : Finishes env tick (slot.closing unwinding reason) slot') :
    Finished a slot (env.DropsException (slot.closing unwinding reason) tick) slot' := by
  obtain ⟨time, hspan⟩ := h.span
  have hevents := h.events
  have hdropped : slot'.span.droppedEvents = slot.span.droppedEvents +
      if env.DropsException (slot.closing unwinding reason) tick then 1 else 0 := by
    rw [hspan]
    dsimp only
    split_ifs <;> simp
  constructor
  case serial => simpa using congrArg SlotLife.serial h.life
  case balances =>
    constructor
    case events =>
      have hone := length_exceptionEvents env (slot.closing unwinding reason) tick
      rw [err_closing, hagrees.captured] at hone
      have hcarried : slot'.span.events = slot.events ++
          env.exceptionEvents (slot.closing unwinding reason) tick := by
        rw [hspan]
        dsimp only
        rw [hevents, events_closing]
      have htally := hagrees.events
      unfold OtelSlot.eventTally at htally
      unfold OtelSpan.eventTally
      rw [hcarried, hdropped, List.length_append]
      omega
    case links =>
      rw [← hagrees.links, hspan]
      simp [OtelSpan.linkTally, OtelSlot.linkTally]
    case attrs =>
      rw [← hagrees.attrs, hspan]
      simp
  case drops =>
    unfold OtelSpan.drops
    rw [hdropped, hspan]
    simp

/-- A finished span is handed over. -/
theorem moves_handOver {i : ℕ} {x : SpanAccount} {loses : Prop} [Decidable loses] (sinks : List Sink)
    {s₁ : St} {R : OtelSlot → OtelSlot → Prop} (hslot : OnSlot i R s s₁)
    (hfinished : Finished x (s.slots i) loses (s₁.slots i)) (hgen : (s₁.slots i).gen = (s.slots i).gen)
    (hcounts : SameDrops s.counters s₁.counters) (hused : s₁.slotsUsed = s.slotsUsed) :
    Moves a i { x with drops := (s₁.slots i).span.drops } (if loses then a.lost + 1 else a.lost) s
      (s₁.handOver i sinks) := by
  have hself : (s₁.handOver i sinks).slots i = { s₁.slots i with dispatching := true } :=
    Function.update_self ..
  have hother (j : ℕ) (hne : j ≠ i) : (s₁.handOver i sinks).slots j = s.slots j :=
    (Function.update_of_ne hne ..).trans (hslot.others j hne)
  have hdispatches : (s₁.handOver i sinks).dispatches =
      s.dispatches ++ [⟨(s₁.slots i).serial, (s₁.slots i).span, sinks⟩] := by
    rw [← hslot.dispatches]
    rfl
  constructor
  case serial => rw [hself, ← hfinished.serial]
  case others => exact hother
  case live =>
    rintro j ⟨hlt, hlive⟩
    refine ⟨?_, fun hfree => hlive ?_⟩
    · show j < s.slotsUsed
      rw [← hused]
      exact hlt
    · show ((s₁.handOver i sinks).slots j).gen = 0
      by_cases hne : j = i
      · rw [hne, hself]
        rw [hne] at hfree
        exact hgen.trans hfree
      · rw [hother j hne]
        exact hfree
  case started => exact hcounts.2
  case dispatches =>
    rw [hdispatches]
    exact fun d hd => List.mem_append_left _ hd
  case exported =>
    intro d hd
    rw [hdispatches, List.mem_append, List.mem_singleton] at hd
    rcases hd with hd | rfl
    · exact .inl hd
    · right
      refine ⟨hfinished.serial, ?_⟩
      obtain ⟨hevents, hlinks, hattrs⟩ := hfinished.balances
      exact ⟨hevents, hlinks, hattrs⟩
  case opened =>
    rintro ⟨-, hnot⟩
    refine absurd ?_ hnot
    rw [hself, hdispatches]
    simp
  case drops => rw [hself]
  case total =>
    have hcounters : (s₁.handOver i sinks).counters.drops = s.counters.drops := hcounts.1
    dsimp only
    rw [hcounters, hfinished.drops]
    split_ifs
    · rw [show (0, a.lost + 1, 0) = ((0, a.lost, 0) : ℕ × ℕ × ℕ) + (0, 1, 0) from rfl]
      abel
    · rw [show ((0, 0, 0) : ℕ × ℕ × ℕ) = 0 from rfl, add_zero]

/-- The end of an open span. -/
theorem Accounts.Kept.finish {env : Env} {i : ℕ} {endTime : TimestampTz} {unwinding : Bool}
    {reason : Option CString} (h : a.Kept s) (hopen : s.OpenSpan i) :
    (a.record s (.finish env i endTime unwinding reason)).Kept
      ((DataStep.finish env i endTime unwinding reason).next s) := by
  have hused : Wp (finishSlot env i endTime unwinding reason) (fun _ s' => s'.slotsUsed = s.slotsUsed)
      (fun _ s' => s'.slotsUsed = s.slotsUsed) s := by
    have hspan (s₁ : St) (h₁ : s₁.slotsUsed = s.slotsUsed) : Wp (finishSpan env i endTime)
        (fun _ s' => s'.slotsUsed = s.slotsUsed) (fun _ s' => s'.slotsUsed = s.slotsUsed) s₁ :=
      (tame_finishSpan env i endTime s₁).mono
        (fun _ _ hshape => (congrArg (fun p : Shape => p.core.1.slots.used) hshape).trans h₁)
        fun _ _ h => h.elim
    unfold finishSlot
    rw [wp_bind, wp_runIf]
    exact ⟨fun _ => hspan _ rfl, fun _ => hspan s rfl⟩
  have hfinishes : Wp (finishSlot env i endTime unwinding reason)
      (fun _ s' => OnSlot i (fun slot slot' => Finishes env (tickAfterTime endTime s.tick)
          (slot.closing unwinding reason) slot') s s' ∧ SameDrops s.counters s'.counters)
      (fun _ _ => False) s := by
    apply wp_finishSlot_cases
    intro s' hslot hcounters
    rw [hcounters]
    exact ⟨hslot, rfl, rfl⟩
  obtain ⟨hslot, hcounts⟩ := (hfinishes.mono (fun _ _ h => h) fun _ _ h => h.elim).endState
  have hfinished := hslot.slot.finished (h.opened i hopen)
  have hgen : ((endState (finishSlot env i endTime unwinding reason) s).slots i).gen =
      (s.slots i).gen := by
    simpa using congrArg SlotLife.gen hslot.slot.life
  have hmoves := moves_handOver (a := a) env.sinks hslot hfinished hgen hcounts hused.endState
  have hspan : ((endState (finishSlot env i endTime unwinding reason) s).handOver i env.sinks).slots i =
      { (endState (finishSlot env i endTime unwinding reason) s).slots i with dispatching := true } :=
    Function.update_self ..
  have hkept := h.move hopen hmoves
  unfold Accounts.record DataStep.next
  dsimp only
  rw [hspan]
  exact hkept

/-! ## Runs -/

theorem Accounts.Kept.step {step : DataStep} (h : a.Kept s) (henabled : step.Enabled s) :
    (a.record s step).Kept (step.next s) := by
  cases step with
  | start env i args name p d owner => exact h.start henabled.2 (starts_openTakenSlot ..)
  | operate env ref op => exact h.operate henabled.1 henabled.2
  | finish env i endTime unwinding reason => exact h.finish henabled
  | other s' => exact h.other henabled

end Steps

/-- There are no spans in the beginning. -/
theorem kept_init (garbage : ℕ → OtelSlot) : Accounts.Kept {} (initSt garbage) := by
  have hnone (i : ℕ) : ¬ (initSt garbage).life.LiveSlot i := fun hlive => Nat.not_lt_zero _ hlive.1
  constructor
  case fresh => exact fun _ _ => rfl
  case serial_lt => exact fun i hi => absurd hi (hnone i)
  case serial_inj => exact fun i _ hi => absurd hi (hnone i)
  case exported_lt => exact fun d hd => absurd hd List.not_mem_nil
  case opened => exact fun i hi => absurd hi.1 (hnone i)
  case drops => exact fun i hi => absurd hi (hnone i)
  case exported => exact fun d hd => absurd hd List.not_mem_nil
  case total => rfl

/-- In every run the accounts are kept. -/
theorem spanAccounts_kept {garbage : ℕ → OtelSlot} {p : St × Accounts}
    (hp : (spanAccounts garbage).Reachable p) : p.2.Kept p.1 := by
  apply Machine.Reachable.invariant (I := fun p => p.2.Kept p.1) _ _ hp
  · exact kept_init garbage
  · intro p step h henabled
    exact h.step (henabled.1 step rfl)

/-- The statistics are the sums over all spans just when no exception event was lost. -/
theorem Accounts.Kept.balanced_iff {a : Accounts} {s : St} (h : a.Kept s) :
    a.Balanced s ↔ a.lost = 0 := by
  have htotal := h.total
  constructor
  · intro hbalanced
    have hevents := hbalanced.events
    rw [htotal] at hevents
    simpa [OtelApiCounters.drops] using hevents
  · intro hlost
    rw [hlost] at htotal
    constructor
    case exported => exact h.exported
    all_goals rw [htotal]; rfl

/-- A run that has lost no exception event is one of steps that lose none. -/
theorem lost_eq_zero_iff {garbage : ℕ → OtelSlot} {p : St × Accounts}
    (hp : (spanAccounts garbage).Reachable p) :
    p.2.lost = 0 ↔ (spanAccounts garbage).ReachBy (fun p step => ¬ step.Loses p.1) p := by
  constructor
  · intro hlost
    induction hp with
    | init => exact .init
    | @step p step hp henabled _ ih =>
      have hlost : (if step.Loses p.1 then p.2.lost + 1 else p.2.lost) = 0 := hlost
      split_ifs at hlost with hloses
      exact (ih hlost).step step henabled hloses
  · intro hkept
    apply Machine.ReachBy.invariant (I := fun p => p.2.lost = 0) _ _ hkept
    · rfl
    · intro p step hlost _ hloses
      show (if step.Loses p.1 then p.2.lost + 1 else p.2.lost) = 0
      rw [if_neg hloses, hlost]

/-- Drop accounting balances just in the runs in which every captured error finds a place for its
event, or there is none. -/
theorem drop_accounting_iff {garbage : ℕ → OtelSlot} {p : St × Accounts}
    (hp : (spanAccounts garbage).Reachable p) :
    p.2.Balanced p.1 ↔ (spanAccounts garbage).ReachBy (fun p step => ¬ step.Loses p.1) p := by
  rw [← lost_eq_zero_iff hp]
  exact (spanAccounts_kept hp).balanced_iff

/-! ## A lost exception event -/

instance (s : St) : DecidablePred s.OpenSpan := fun _ =>
  inferInstanceAs (Decidable ((_ ∧ ¬ _) ∧ _ ∉ _))

/-- Nothing but a slot that has been taken. -/
def takenSlot : St := { slots := fun _ => {}, slotsUsed := 1 }

/-- A span is started, a warning is captured on it, and it ends; `fails` says whether allocations fail
at its end. -/
def warnedSpan (fails : Bool) : List DataStep :=
  [.other takenSlot,
    .start {} 0 { name := some (cstr "s") } (cstr "s") .none ⟨0, 0, .recordAndSample⟩ (some 0),
    .operate {} (makeRef 1 0 true) (.capture { elevel := elevelWarning } false),
    .finish { allocFails := fun _ => fails } 0 1 false none]

theorem leavesSpans_takenSlot : LeavesSpans (initSt fun _ => {}) takenSlot where
  slots _ hlive := absurd rfl hlive.2
  counts := ⟨rfl, rfl⟩
  dispatches := rfl

/-- The state and the accounts that the run leads to. -/
def warnedSpanEnd (fails : Bool) : St × Accounts :=
  (warnedSpan fails).foldl (spanAccounts fun _ => {}).next (spanAccounts fun _ => {}).init

theorem warnedSpan_reachable (fails : Bool) :
    (spanAccounts fun _ => {}).Reachable (warnedSpanEnd fails) := by
  apply Machine.ReachBy.init.run
  refine ⟨⟨?_, trivial⟩, trivial, ⟨?_, trivial⟩, trivial, ⟨?_, trivial⟩, trivial, ⟨?_, trivial⟩, trivial,
    trivial⟩
  · rintro _ ⟨⟩
    exact leavesSpans_takenSlot
  · rintro _ ⟨⟩
    exact ⟨by decide, by decide⟩
  · rintro _ ⟨⟩
    exact ⟨rfl, by decide⟩
  · rintro _ ⟨⟩
    show St.OpenSpan _ 0
    decide

/-- Allocations fail. -/
def fullEnv : Env := { allocFails := fun _ => true }

/-- On a span an event, a link and an attribute are dropped after one event was kept, and a warning is
captured before it ends. -/
def droppingSpan : List DataStep :=
  [.other takenSlot,
    .start {} 0 { name := some (cstr "s") } (cstr "s") .none ⟨0, 0, .recordAndSample⟩ (some 0),
    .operate {} (makeRef 1 0 true) (.addEvent (some (cstr "kept")) 1 []),
    .operate fullEnv (makeRef 1 0 true) (.addLink (some { traceId := 1, spanId := 2 })),
    .operate fullEnv (makeRef 1 0 true) (.setStr (cstr "k") (some (cstr "v"))),
    .operate fullEnv (makeRef 1 0 true) (.addEvent (some (cstr "lost")) 1 []),
    .operate {} (makeRef 1 0 true) (.capture { elevel := elevelWarning } false),
    .finish {} 0 1 false none]

def droppingSpanEnd : St × Accounts :=
  droppingSpan.foldl (spanAccounts fun _ => {}).next (spanAccounts fun _ => {}).init

theorem droppingSpan_reachable :
    (spanAccounts fun _ => {}).ReachBy (fun p step => ¬ step.Loses p.1) droppingSpanEnd := by
  apply Machine.ReachBy.init.run
  refine ⟨⟨?_, trivial⟩, not_false, ⟨?_, trivial⟩, not_false, ⟨?_, trivial⟩, not_false,
    ⟨?_, trivial⟩, not_false, ⟨?_, trivial⟩, not_false, ⟨?_, trivial⟩, not_false, ⟨?_, trivial⟩,
    not_false, ⟨?_, trivial⟩, ?_, trivial⟩
  · rintro _ ⟨⟩
    exact leavesSpans_takenSlot
  · rintro _ ⟨⟩
    exact ⟨by decide, by decide⟩
  iterate 5
    · rintro _ ⟨⟩
      exact ⟨rfl, by decide⟩
  · rintro _ ⟨⟩
    show St.OpenSpan _ 0
    decide
  · show ¬ DataStep.Loses _ _
    decide

/-- Each drop is on record, and counted. -/
theorem drop_accounting_iff_warned : droppingSpanEnd.2.Balanced droppingSpanEnd.1 ∧
    droppingSpanEnd.1.counters.drops = (1, 1, 1) ∧
    droppingSpanEnd.1.dispatches.map (fun d => (d.span.drops, d.span.events.map OtelSpanEvent.name)) =
      [((1, 1, 1), [cstr "kept", cstr "exception"])] := by
  have hreached : (spanAccounts fun _ => {}).Reachable droppingSpanEnd :=
    droppingSpan_reachable.mono fun _ _ _ => trivial
  exact ⟨(drop_accounting_iff hreached).2 droppingSpan_reachable, by decide, by decide⟩

/-- The span is exported with one event dropped, and the statistics have none. -/
theorem exception_drop_uncounted : ¬ ∀ (garbage : ℕ → OtelSlot) (p : St × Accounts),
    (spanAccounts garbage).Reachable p → p.2.Balanced p.1 := by
  intro h
  have hbalanced := h _ _ (warnedSpan_reachable true)
  have hevents := hbalanced.events
  revert hevents
  have hspan : ((warnedSpanEnd true).2.span 0).drops = (0, 1, 0) := by decide
  have hcounted : (warnedSpanEnd true).1.counters.eventDropped = 0 := by decide
  have hstarted : (warnedSpanEnd true).1.counters.spansStarted = 1 := by decide
  rw [Accounts.total, hstarted, Finset.sum_range_one, hspan, hcounted]
  decide

end PostgresOtel
