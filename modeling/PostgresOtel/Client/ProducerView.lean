import PostgresOtel.Client.Active
import PostgresOtel.Lib.Paired
import PostgresOtel.Producer.Departures

/-!
# The producer behind its clients' view

The spans and the active stack of a client, `ActiveSpans`, against the producer's slots, non-recording
entries and `span_stack`.  A span that was started as the `n`th has the producer's `n`th handle and the
client's handle `spanHandle n`; `ClientView` says that the two agree about which of them are open, about
the stack and about how those that left did so.  What each call does to the client's side is
`clientActs`, and `ClientView` survives every call that returns.
-/

set_option autoImplicit false

namespace PostgresOtel

open Exec

/-! ## What happens to the spans of a client -/

inductive ClientAct
  | start (nestLevel : ℕ) (detached : Bool)
  | finish (ref : OtelSpanRef)
  | activate (ref : OtelSpanRef) (nestLevel : ℕ) (room : Bool)
  | deactivate (act : OtelSpanRef)
  | release (owned : OtelSpanRef → Bool) (how : SpanEnd)
  | dropActivations (nestLevel : ℕ)

def ActiveSpans.act (a : ActiveSpans) : ClientAct → ActiveSpans
  | .start nestLevel detached => a.start nestLevel detached
  | .finish ref => a.finish ref
  | .activate ref nestLevel room => (a.activate ref nestLevel room).1
  | .deactivate act => a.deactivate act
  | .release owned how => a.release owned how
  | .dropActivations nestLevel => a.dropActivations nestLevel

/-- The spans of a client as a machine. -/
def clientSpans : Machine ActiveSpans ClientAct where
  init := {}
  enabled _ _ := True
  next := ActiveSpans.act

theorem ActiveSpans.Ok.act {a : ActiveSpans} (h : a.Ok) (x : ClientAct) : (a.act x).Ok := by
  cases x with
  | start nestLevel detached => exact h.start nestLevel detached
  | finish ref => exact h.finish ref
  | activate ref nestLevel room => exact h.activate ref nestLevel room
  | deactivate act => exact h.deactivate act
  | release owned how => exact h.release owned how
  | dropActivations nestLevel => exact h.dropActivations nestLevel

/-- The fate of a recording span that left this way. -/
def SpanEnd.fate : SpanEnd → Fate
  | .ended | .unwound | .released => .dispatched
  | .discarded => .discarded
  | .leaked => .leaked

/-! ## Numbers of spans -/

namespace HandleLog

variable (log : HandleLog)

/-- The span that was started as the `n`th is open at `e`. -/
def At (n : ℕ) (e : StackRef) : Prop := ∃ ref, log.given[n]? = some ref ∧ (ref, e) ∈ log.openSpans

/-- The client's handle for one of the producer's. -/
def clientRef (ref : OtelSpanRef) : OtelSpanRef :=
  if ref ∈ log.given then spanHandle (log.given.idxOf ref) else ⟨0⟩

/-- The handle is of a span that is open at one of these places. -/
def owned (places : List StackRef) (ref : OtelSpanRef) : Bool :=
  log.openSpans.any fun p => decide (p.2 ∈ places) && decide (log.clientRef p.1 = ref)

/-- How many recording spans were started before the `n`th span. -/
def serialOf (n : ℕ) : ℕ := (log.given.take n).countP fun ref => decide (0 < ref.v)

/-- The entries of the two stacks match. -/
def Shows (i : ActiveItem) (x : StackEntry) : Prop :=
  ∃ n, i.ref = spanHandle n ∧ log.At n x.entry ∧ i.isActivation = x.isActivation ∧
    (x.isActivation = true → i.nestLevel = x.nestLevel)

end HandleLog

/-- The client's view of the producer. -/
structure ClientView (s : St) (log : HandleLog) (a : ActiveSpans) : Prop where
  count : a.spans.count = log.given.length
  opened : ∀ n, a.spans.IsOpen (spanHandle n) ↔ ∃ e, log.At n e
  active : List.Forall₂ log.Shows a.active s.spanStack
  tallies : (a.nonLifoEnd, a.activationUnwound) = s.life.tallies
  serial : ∀ n e, log.At n e → ∀ serial ∈ s.life.serials e, serial = log.serialOf n
  started : s.counters.spansStarted = log.serialOf log.given.length
  fates : ∀ n ref, log.given[n]? = some ref → 0 < ref.v → ∀ how,
    (spanHandle n, how) ∈ a.spans.log → (log.serialOf n, how.fate) ∈ s.fates
  depth : s.dispatchDepth = 0

/-! ## Calls -/

/-- What a call is for the client. -/
def clientActs (s : St) (log : HandleLog) (call : Call) : List ClientAct :=
  match call.op with
  | .spanStart args =>
    if (call.gives s).isSome then
      [.start call.env.currentTransactionNestLevel ((args.map OtelSpanStartArgs.detached).getD false)]
    else []
  | .spanEnd ref _ => if s.life.refuses call.env then [] else [.finish (log.clientRef ref)]
  | .spanDiscard ref =>
    if s.life.refuses call.env then []
    else [.release (fun r => decide (r = log.clientRef ref)) .discarded]
  | .spanActivate ref =>
    if s.life.refuses call.env ∨ (s.life.entryOf ref).all (fun e => !s.life.detached e) then []
    else
      [.activate (log.clientRef ref) call.env.currentTransactionNestLevel
        (decide (s.spanStack.length < otelMaxStackDepth))]
  | .spanDeactivate tok =>
    if s.life.refuses call.env then [] else [.deactivate (log.clientRef ⟨tok.v⟩)]
  | .ownerRelease _ ref isCommit =>
    [.release (log.owned ((s.life.slotOf ref.1).toList.map .slot))
      (if isCommit then .leaked else .released)]
  | .xactCallback event =>
    match event with
    | .commit | .parallelCommit | .prepare | .abort | .parallelAbort =>
      [.release (log.owned (s.life.nrecsFrom 1)) .released, .dropActivations 1]
    | .preCommit | .parallelPreCommit | .prePrepare => []
  | .subxactCallback event =>
    match event with
    | .abortSub =>
      [.release (log.owned (s.life.nrecsFrom call.env.currentTransactionNestLevel)) .released,
        .dropActivations call.env.currentTransactionNestLevel]
    | .startSub | .commitSub | .preCommitSub => []
  | _ => []

/-- The handle a call is made with. -/
def ProducerOp.handle : ProducerOp → Option OtelSpanRef
  | .spanEnd ref _ | .spanDiscard ref | .spanActivate ref => some ref
  | .spanDeactivate tok => some ⟨tok.v⟩
  | _ => none

/-- The call is made with a handle that was given out or is null, and returns. -/
structure ClientCall (s : St) (log : HandleLog) (call : Call) : Prop where
  given : ∀ ref ∈ call.op.handle, ref.v = 0 ∨ ref ∈ log.given
  returns : returns (runOp call.env call.op) (s.enter call) = true

/-! ## Numbers and places -/

section Numbers

variable {s s' : St} {log log' : HandleLog} {a a' : ActiveSpans} {n m : ℕ} {e e' : StackRef}
  {ref : OtelSpanRef}

theorem HandleLog.clientRef_of_getElem? (hnodup : log.given.Nodup) (h : log.given[n]? = some ref) :
    log.clientRef ref = spanHandle n := by
  have hmem := List.mem_of_getElem? h
  obtain ⟨hn, hget⟩ := List.getElem?_eq_some_iff.1 h
  rw [HandleLog.clientRef, if_pos hmem, ← hget, hnodup.idxOf_getElem]

theorem HandleLog.getElem?_of_mem (h : ref ∈ log.given) :
    ∃ n, log.given[n]? = some ref ∧ log.clientRef ref = spanHandle n :=
  ⟨_, List.getElem?_idxOf h, if_pos h⟩

theorem HandleLog.At.live (h : log.At n e) (hinv : HandleInv s log) : s.life.Live e := by
  obtain ⟨ref, -, hmem⟩ := h
  exact (hinv.opened _ hmem).2.1

theorem HandleLog.At.lt (h : log.At n e) : n < log.given.length := by
  obtain ⟨ref, hget, -⟩ := h
  exact (List.getElem?_eq_some_iff.1 hget).1

theorem HandleLog.At.num_eq (h : log.At n e) (h' : log.At m e) (hinv : HandleInv s log)
    (hnodup : log.given.Nodup) : n = m := by
  obtain ⟨ref, hget, hmem⟩ := h
  obtain ⟨ref', hget', hmem'⟩ := h'
  have href : ref = ref' := (hinv.opened _ hmem).2.2.trans (hinv.opened _ hmem').2.2.symm
  have hhandle := HandleLog.clientRef_of_getElem? hnodup hget
  rw [href, HandleLog.clientRef_of_getElem? hnodup hget'] at hhandle
  exact (Spans.spanHandle_injective hhandle).symm

theorem HandleLog.At.place_eq (h : log.At n e) (h' : log.At n e') (hsafe : HandlesSafe s log) :
    e = e' := by
  obtain ⟨ref, hget, hmem⟩ := h
  obtain ⟨ref', hget', hmem'⟩ := h'
  obtain rfl := Option.some.inj (hget.symm.trans hget')
  have hgiven := List.mem_of_getElem? hget
  have hname := (hsafe.names ref hgiven e).2 hmem
  rw [(hsafe.names ref hgiven e').2 hmem'] at hname
  exact (Option.some.inj hname).symm

/-- Entries match if they are about the same span. -/
theorem HandleLog.Shows.ref_iff {i : ActiveItem} {x : StackEntry} (h : log.Shows i x)
    (hat : log.At n e) (hinv : HandleInv s log) (hsafe : HandlesSafe s log) :
    i.ref = spanHandle n ↔ x.entry = e := by
  obtain ⟨m, href, hm, -⟩ := h
  rw [href]
  constructor
  · intro hmn
    rw [Spans.spanHandle_injective hmn] at hm
    exact hm.place_eq hat hsafe
  · rintro rfl
    rw [hm.num_eq hat hinv hsafe.nodup]

theorem HandleLog.owned_iff (hsafe : HandlesSafe s log) (hinv : HandleInv s log)
    (places : List StackRef) (n : ℕ) :
    log.owned places (spanHandle n) = true ↔ ∃ e ∈ places, log.At n e := by
  unfold HandleLog.owned
  rw [List.any_eq_true]
  constructor
  · rintro ⟨⟨ref, e⟩, hmem, h⟩
    rw [Bool.and_eq_true, decide_eq_true_iff, decide_eq_true_iff] at h
    obtain ⟨m, hget, hm⟩ := HandleLog.getElem?_of_mem (hinv.opened _ hmem).1
    obtain rfl : m = n := Spans.spanHandle_injective (hm.symm.trans h.2)
    exact ⟨e, h.1, ref, hget, hmem⟩
  · rintro ⟨e, he, ref, hget, hmem⟩
    refine ⟨(ref, e), hmem, ?_⟩
    rw [Bool.and_eq_true, decide_eq_true_iff, decide_eq_true_iff]
    exact ⟨he, HandleLog.clientRef_of_getElem? hsafe.nodup hget⟩

end Numbers

/-! ## Spans leave -/

section View

variable {s s' : St} {log log' : HandleLog} {a a' : ActiveSpans} {gone : List StackRef} {fate : Fate}

/-- The log after a call that gives out no handle. -/
structure HandleLog.Later (s' : St) (log log' : HandleLog) : Prop where
  given : log'.given = log.given
  openSpans : ∀ p, p ∈ log'.openSpans ↔ p ∈ log.openSpans ∧ s'.life.Live p.2

theorem HandleLog.later_after {call : Call} (h : call.gives s = none) :
    log.Later s' (log.after call s s') where
  given := by simp [HandleLog.after, h]
  openSpans p := by simp [HandleLog.mem_openSpans_after, h]

/-- The spans at `gone` have left on both sides. -/
structure ClientLeaves (log : HandleLog) (gone : List StackRef) (fate : Fate) (a a' : ActiveSpans) :
    Prop where
  count : a'.spans.count = a.spans.count
  isOpen : ∀ n, a'.spans.IsOpen (spanHandle n) ↔
    a.spans.IsOpen (spanHandle n) ∧ ¬∃ e ∈ gone, log.At n e
  log : ∀ n how, (spanHandle n, how) ∈ a'.spans.log → (spanHandle n, how) ∈ a.spans.log ∨
    (how.fate = fate ∧ ∃ e ∈ gone, log.At n e)

theorem HandleLog.Later.at_iff (h : log.Later s' log') (hinv : HandleInv s log)
    (hl : Leaves gone fate s.life s'.life) {n : ℕ} {e : StackRef} :
    log'.At n e ↔ log.At n e ∧ e ∉ gone := by
  unfold HandleLog.At
  rw [h.given]
  constructor
  · rintro ⟨ref, hget, hmem⟩
    obtain ⟨hmem, hlive⟩ := (h.openSpans _).1 hmem
    exact ⟨⟨ref, hget, hmem⟩, ((hl.live e).1 hlive).2⟩
  · rintro ⟨⟨ref, hget, hmem⟩, hnot⟩
    exact ⟨ref, hget, (h.openSpans _).2 ⟨hmem, (hl.live e).2 ⟨(hinv.opened _ hmem).2.1, hnot⟩⟩⟩

theorem ClientView.leaves (h : ClientView s log a) (hinv : HandleInv s log)
    (hsafe : HandlesSafe s log) (hlater : log.Later s' log')
    (hl : Leaves gone fate s.life s'.life) (hpool : PoolInv s'.life)
    (hclient : ClientLeaves log gone fate a a')
    (hactive : List.Forall₂ log.Shows a'.active s'.spanStack)
    (htallies : (a'.nonLifoEnd, a'.activationUnwound) = s'.life.tallies) :
    ClientView s' log' a' := by
  have hat {n : ℕ} {e : StackRef} := hlater.at_iff (n := n) (e := e) hinv hl
  have hserialOf (n : ℕ) : log'.serialOf n = log.serialOf n := by
    rw [HandleLog.serialOf, HandleLog.serialOf, hlater.given]
  have hfates : s'.fates = s.fates ++ (gone.flatMap s.life.serials).map fun n => (n, fate) := hl.fates
  refine ⟨?_, fun n => ?_, ?_, htallies, fun n e hn serial hmem => ?_, ?_,
    fun n ref hget hv how hmem => ?_, ?_⟩
  · rw [hclient.count, hlater.given, h.count]
  · rw [hclient.isOpen, h.opened]
    constructor
    · rintro ⟨⟨e, he⟩, hnot⟩
      exact ⟨e, hat.2 ⟨he, fun hmem => hnot ⟨e, hmem, he⟩⟩⟩
    · rintro ⟨e, he⟩
      obtain ⟨he, hnot⟩ := hat.1 he
      refine ⟨⟨e, he⟩, ?_⟩
      rintro ⟨e', hmem, he'⟩
      rw [he'.place_eq he hsafe] at hmem
      exact hnot hmem
  · -- What is still on the stack is still open.
    refine (Paired.and_right hactive fun x hx => (hpool.stack_live x hx : s'.life.Live _)).imp ?_
    rintro i x ⟨hlive, n, href, hn, hact, hlevel⟩
    exact ⟨n, href, hat.2 ⟨hn, ((hl.live _).1 hlive).2⟩, hact, hlevel⟩
  · obtain ⟨hn, hnot⟩ := hat.1 hn
    rw [(hl.same e hnot).2.2] at hmem
    rw [hserialOf, h.serial n e hn serial hmem]
  · rw [hlater.given, hserialOf, ← h.started]
    exact hl.started
  · rw [hlater.given] at hget
    rw [hserialOf, hfates, List.mem_append]
    rcases hclient.log n how hmem with hold | ⟨rfl, e, he, hn⟩
    · exact .inl (h.fates n ref hget hv how hold)
    · refine .inr (List.mem_map.2 ⟨log.serialOf n, List.mem_flatMap.2 ⟨e, he, ?_⟩, rfl⟩)
      -- A handle that is positive is of a recording span.
      obtain ⟨ref', hget', hopen⟩ := hn
      obtain rfl := Option.some.inj (hget.symm.trans hget')
      obtain ⟨-, hlive, hhandle⟩ := hinv.opened _ hopen
      have hgen : 0 < s.life.gen e := Nat.pos_of_ne_zero (Lifecycle.live_iff.1 hlive).2
      have href : ref = e.handle (s.life.gen e) := hhandle
      rw [href] at hv
      obtain ⟨i, rfl⟩ := (handle_pos_iff hgen).1 hv
      have hserial := h.serial n (.slot i) ⟨ref, hget, hopen⟩ _ (List.mem_singleton_self _)
      rw [← hserial]
      exact List.mem_singleton_self _
  · exact hl.depth.trans h.depth

theorem ClientLeaves.refl (log : HandleLog) (fate : Fate) (a : ActiveSpans) :
    ClientLeaves log [] fate a a where
  count := rfl
  isOpen n := by simp
  log _ _ hmem := .inl hmem

theorem ClientLeaves.append {gone' : List StackRef} {a'' : ActiveSpans}
    (h : ClientLeaves log gone fate a a') (h' : ClientLeaves log gone' fate a' a'') :
    ClientLeaves log (gone ++ gone') fate a a'' where
  count := h'.count.trans h.count
  isOpen n := by
    rw [h'.isOpen, h.isOpen, and_assoc, ← not_or]
    refine and_congr_right' (not_congr ⟨?_, ?_⟩)
    · rintro (⟨e, he, hn⟩ | ⟨e, he, hn⟩)
      · exact ⟨e, List.mem_append_left _ he, hn⟩
      · exact ⟨e, List.mem_append_right _ he, hn⟩
    · rintro ⟨e, he, hn⟩
      exact (List.mem_append.1 he).imp (fun he => ⟨e, he, hn⟩) fun he => ⟨e, he, hn⟩
  log n how hmem := by
    rcases h'.log n how hmem with hmem | ⟨hfate, e, he, hn⟩
    · refine (h.log n how hmem).imp_right fun ⟨hfate, e, he, hn⟩ => ⟨hfate, e, ?_, hn⟩
      exact List.mem_append_left _ he
    · exact .inr ⟨hfate, e, List.mem_append_right _ he, hn⟩

/-- The client closes the spans that are open at `gone`. -/
theorem ClientLeaves.close (owned : OtelSpanRef → Bool) (how : SpanEnd)
    (howned : ∀ n, owned (spanHandle n) = true ↔ ∃ e ∈ gone, log.At n e)
    (hspans : a'.spans = a.spans.close (fun o => owned o.ref) how) :
    ClientLeaves log gone how.fate a a' where
  count := by
    rw [hspans]
    rfl
  isOpen n := by rw [hspans, Spans.isOpen_close, ← howned, Bool.not_eq_true]
  log n how' hmem := by
    rw [hspans, Spans.mem_log_close] at hmem
    refine hmem.imp_right fun ⟨_, hn, hhow⟩ => ⟨?_, (howned n).1 hn⟩
    rw [show how' = how from hhow]

/-! ## PopsAt -/

section Pop

variable {n : ℕ} {e : StackRef}

theorem ClientView.onStack_iff (h : ClientView s log a) (hinv : HandleInv s log)
    (hsafe : HandlesSafe s log) (hat : log.At n e) :
    a.OnStack (spanHandle n) ↔ s.life.OnStack e := by
  constructor
  · intro hon
    obtain ⟨i, hi, href⟩ := List.mem_map.1 hon
    obtain ⟨x, hx, hshows⟩ := Paired.exists_right h.active hi
    exact List.mem_map.2 ⟨x, hx, (hshows.ref_iff hat hinv hsafe).1 href⟩
  · intro hon
    obtain ⟨x, hx, hentry⟩ := List.mem_map.1 hon
    obtain ⟨i, hi, hshows⟩ := Paired.exists_left h.active hx
    exact List.mem_map.2 ⟨i, hi, (hshows.ref_iff hat hinv hsafe).2 hentry⟩

/-- The tests by which both stacks are cut agree. -/
theorem ClientView.cuts (hinv : HandleInv s log) (hsafe : HandlesSafe s log) (hat : log.At n e)
    (i : ActiveItem) (x : StackEntry) (hshows : log.Shows i x) :
    decide (i.ref ≠ spanHandle n) = decide (x.entry ≠ e) :=
  decide_eq_decide.2 (not_congr (hshows.ref_iff hat hinv hsafe))

theorem ClientView.above (h : ClientView s log a) (hinv : HandleInv s log)
    (hsafe : HandlesSafe s log) (hat : log.At n e) :
    List.Forall₂ log.Shows (a.above (spanHandle n)) (s.life.above e) := by
  by_cases hon : s.life.OnStack e
  · have habove : s.life.above e = s.spanStack.takeWhile fun x => x.entry ≠ e := if_pos hon
    rw [ActiveSpans.above, if_pos ((h.onStack_iff hinv hsafe hat).2 hon), habove]
    exact Paired.takeWhile h.active (ClientView.cuts hinv hsafe hat)
  · have habove : s.life.above e = [] := if_neg hon
    rw [ActiveSpans.above, if_neg fun hon' => hon ((h.onStack_iff hinv hsafe hat).1 hon'), habove]
    exact .nil

/-- The same spans are unwound. -/
theorem ClientView.unwinds_iff (h : ClientView s log a) (hinv : HandleInv s log)
    (hsafe : HandlesSafe s log) (hat : log.At n e) (m : ℕ) :
    a.unwinds (spanHandle n) (spanHandle m) = true ↔
      ∃ e' ∈ startEntries (s.life.above e), log.At m e' := by
  have habove := h.above hinv hsafe hat
  unfold ActiveSpans.unwinds startEntries
  rw [List.any_eq_true]
  constructor
  · rintro ⟨i, hi, hmatch⟩
    rw [Bool.and_eq_true, decide_eq_true_iff] at hmatch
    obtain ⟨x, hx, k, href, hk, hact, -⟩ := Paired.exists_right habove hi
    obtain rfl : k = m := Spans.spanHandle_injective (href.symm.trans hmatch.1)
    refine ⟨x.entry, List.mem_map_of_mem (List.mem_filter.2 ⟨hx, ?_⟩), hk⟩
    rw [← hact]
    exact hmatch.2
  · rintro ⟨e', he', hm⟩
    obtain ⟨x, hx, rfl⟩ := List.mem_map.1 he'
    obtain ⟨hx, hstart⟩ := List.mem_filter.1 hx
    obtain ⟨i, hi, hshows⟩ := Paired.exists_left habove hx
    refine ⟨i, hi, ?_⟩
    rw [Bool.and_eq_true, decide_eq_true_iff]
    refine ⟨(hshows.ref_iff hm hinv hsafe).2 rfl, ?_⟩
    obtain ⟨-, -, -, hact, -⟩ := hshows
    rw [hact]
    exact hstart

theorem ClientView.popItem_leaves (h : ClientView s log a) (hinv : HandleInv s log)
    (hsafe : HandlesSafe s log) (hat : log.At n e) :
    ClientLeaves log (startEntries (s.life.above e)) .dispatched a (a.popItem (spanHandle n)) :=
  .close (a.unwinds (spanHandle n)) .unwound (h.unwinds_iff hinv hsafe hat)
    ActiveSpans.popItem_spans

theorem ClientView.popItem_active (h : ClientView s log a) (hinv : HandleInv s log)
    (hsafe : HandlesSafe s log) (hat : log.At n e) :
    List.Forall₂ log.Shows (a.popItem (spanHandle n)).active (s.life.below e) := by
  by_cases hon : s.life.OnStack e
  · rw [ActiveSpans.popItem, if_pos ((h.onStack_iff hinv hsafe hat).2 hon), Lifecycle.below, if_pos hon]
    exact Paired.tail (Paired.dropWhile h.active (ClientView.cuts hinv hsafe hat))
  · rw [ActiveSpans.popItem, if_neg fun hon' => hon ((h.onStack_iff hinv hsafe hat).1 hon'),
      Lifecycle.below, if_neg hon]
    exact h.active

theorem ClientView.popItem_tallies (h : ClientView s log a) (hinv : HandleInv s log)
    (hsafe : HandlesSafe s log) (hat : log.At n e) :
    ((a.popItem (spanHandle n)).nonLifoEnd, (a.popItem (spanHandle n)).activationUnwound) =
      (s.life.nonLifoEnd + if s.life.above e = [] then 0 else 1,
        s.life.activationUnwound + (s.life.above e).countP StackEntry.isActivation) := by
  obtain ⟨hnonlifo, hacts⟩ := Prod.ext_iff.1 h.tallies
  by_cases hon : s.life.OnStack e
  · have habove := h.above hinv hsafe hat
    have hcount := Paired.countP habove (p := ActiveItem.isActivation) (q := StackEntry.isActivation)
      fun i x hshows => by
        obtain ⟨-, -, -, hact, -⟩ := hshows
        exact hact
    rw [ActiveSpans.popItem, if_pos ((h.onStack_iff hinv hsafe hat).2 hon)]
    refine Prod.ext ?_ ?_
    · change a.nonLifoEnd + _ = _
      simp only [Paired.nil_iff habove]
      exact congrArg (· + _) hnonlifo
    · change a.activationUnwound + _ = _
      rw [hcount]
      exact congrArg (· + _) hacts
  · have habove : s.life.above e = [] := if_neg hon
    rw [ActiveSpans.popItem, if_neg fun hon' => hon ((h.onStack_iff hinv hsafe hat).1 hon'), habove]
    exact h.tallies

end Pop

/-! ## Calls that end spans -/

/-- A call that changes nothing of this. -/
theorem ClientView.still (h : ClientView s log a) (hinv : HandleInv s log) (hsafe : HandlesSafe s log)
    (hlater : log.Later s' log') (hpool : PoolInv s'.life) (hl : Leaves [] .dispatched s.life s'.life)
    (hstack : s'.spanStack = s.spanStack) (htallies : s'.life.tallies = s.life.tallies) :
    ClientView s' log' a := by
  refine h.leaves hinv hsafe hlater hl hpool (.refl log .dispatched a) ?_ (h.tallies.trans htallies.symm)
  rw [hstack]
  exact h.active

theorem ClientView.unchanged (h : ClientView s log a) (hinv : HandleInv s log)
    (hsafe : HandlesSafe s log) (hlater : log.Later s' log') (hpool : PoolInv s.life)
    (hlife : s'.life = s.life) : ClientView s' log' a := by
  refine h.still hinv hsafe hlater (hlife ▸ hpool) ?_ (congrArg Lifecycle.spanStack hlife)
    (congrArg Lifecycle.tallies hlife)
  rw [hlife]
  exact .refl .dispatched s.life

/-- What a call notes about its handle does not matter here. -/
theorem ClientView.touch (h : ClientView s log a) (ref : OtelSpanRef) :
    ClientView s log (a.touch ref) where
  count := by rw [ActiveSpans.touch_spans, h.count]
  opened n := by rw [ActiveSpans.touch_spans, h.opened]
  active := by
    rw [ActiveSpans.touch_active]
    exact h.active
  tallies := by
    rw [ActiveSpans.touch_nonLifoEnd, ActiveSpans.touch_activationUnwound]
    exact h.tallies
  serial := h.serial
  started := h.started
  fates := by
    rw [ActiveSpans.touch_spans]
    exact h.fates
  depth := h.depth

section Ending

variable {n : ℕ} {e : StackRef}

theorem ClientView.finish (h : ClientView s log a) (hinv : HandleInv s log)
    (hsafe : HandlesSafe s log) (hlater : log.Later s' log') (hpool : PoolInv s'.life)
    (hat : log.At n e) (hends : EndsAt e s.life s'.life) :
    ClientView s' log' (a.finish (spanHandle n)) := by
  have ht := h.touch (spanHandle n)
  have hpop := ht.popItem_leaves hinv hsafe hat
  have hlast : ClientLeaves log [e] .dispatched ((a.touch (spanHandle n)).popItem (spanHandle n))
      (((a.touch (spanHandle n)).popItem (spanHandle n)).endSpan (spanHandle n)) := by
    refine .close (fun r => decide (r = spanHandle n)) .ended (fun m => ?_) rfl
    rw [decide_eq_true_iff]
    constructor
    · intro hm
      rw [Spans.spanHandle_injective hm]
      exact ⟨e, List.mem_singleton_self e, hat⟩
    · rintro ⟨e', he', hm⟩
      rw [List.mem_singleton.1 he'] at hm
      rw [hm.num_eq hat hinv hsafe.nodup]
  rw [ActiveSpans.finish, if_pos ((h.opened n).2 ⟨e, hat⟩)]
  refine ht.leaves hinv hsafe hlater hends.leaves hpool (hpop.append hlast) ?_ ?_
  · rw [show s'.spanStack = s.life.below e from hends.stack]
    exact ht.popItem_active hinv hsafe hat
  · rw [hends.tallies]
    exact ht.popItem_tallies hinv hsafe hat

theorem ClientView.deactivate (h : ClientView s log a) (hinv : HandleInv s log)
    (hsafe : HandlesSafe s log) (hlater : log.Later s' log') (hpool : PoolInv s'.life)
    (hat : log.At n e) (hpops : PopsAt e s.life s'.life) :
    ClientView s' log' (a.deactivate (spanHandle n)) := by
  rw [ActiveSpans.deactivate, if_pos ((h.opened n).2 ⟨e, hat⟩)]
  refine h.leaves hinv hsafe hlater hpops.leaves hpool (h.popItem_leaves hinv hsafe hat) ?_ ?_
  · rw [show s'.spanStack = s.life.below e from hpops.stack]
    exact h.popItem_active hinv hsafe hat
  · rw [hpops.tallies]
    exact h.popItem_tallies hinv hsafe hat

theorem ClientView.activate (h : ClientView s log a) (hinv : HandleInv s log)
    (hsafe : HandlesSafe s log) (hlater : log.Later s' log') (hpool : PoolInv s'.life) {env : Env}
    (hat : log.At n e) (hdetached : s.life.detached e = true)
    (hlife : s'.life = s.life.activated env e) :
    ClientView s' log' (a.activate (spanHandle n) env.currentTransactionNestLevel
      (decide (s.spanStack.length < otelMaxStackDepth))).1 := by
  have ht := h.touch (spanHandle n)
  have hopen : a.spans.IsOpen (spanHandle n) := (h.opened n).2 ⟨e, hat⟩
  have hon := h.onStack_iff hinv hsafe hat
  have hroom : s.life.spanStack = s.spanStack := rfl
  unfold Lifecycle.activated at hlife
  unfold ActiveSpans.activate
  by_cases hpush : ¬s.life.OnStack e ∧ s.spanStack.length < otelMaxStackDepth
  · rw [if_pos ⟨hdetached, hpush⟩] at hlife
    rw [if_pos ⟨hopen, fun h' => hpush.1 (hon.1 h'), decide_eq_true hpush.2⟩]
    have hl : Leaves [] .dispatched s.life s'.life := by
      rw [hlife]
      exact { Leaves.refl .dispatched s.life with }
    have hleaves : ClientLeaves log [] .dispatched (a.touch (spanHandle n))
        { a.touch (spanHandle n) with
          active := ⟨spanHandle n, true, env.currentTransactionNestLevel⟩ :: a.active } :=
      { ClientLeaves.refl log .dispatched (a.touch (spanHandle n)) with }
    refine ht.leaves hinv hsafe hlater hl hpool hleaves ?_ ?_
    · rw [show s'.spanStack = ⟨e, true, env.currentTransactionNestLevel⟩ :: s.spanStack from
        congrArg Lifecycle.spanStack hlife]
      exact .cons ⟨n, rfl, hat, rfl, fun _ => rfl⟩ h.active
    · rw [hlife]
      exact ht.tallies
  · rw [if_neg fun hall => hpush hall.2] at hlife
    rw [if_neg fun hall => hpush ⟨fun h' => hall.2.1 (hon.2 h'), of_decide_eq_true hall.2.2⟩]
    exact ht.unchanged hinv hsafe hlater (hlife ▸ hpool) hlife

end Ending

/-- The entries that are released on the two sides. -/
theorem ClientView.released_iff (hsafe : HandlesSafe s log) {owned : OtelSpanRef → Bool}
    (howned : ∀ n, owned (spanHandle n) = true ↔ ∃ e ∈ gone, log.At n e) (i : ActiveItem)
    (x : StackEntry) (hshows : log.Shows i x) : owned i.ref = true ↔ x.entry ∈ gone := by
  obtain ⟨n, href, hn, -⟩ := hshows
  rw [href, howned]
  constructor
  · rintro ⟨e, he, hne⟩
    rwa [hn.place_eq hne hsafe]
  · exact fun hmem => ⟨x.entry, hmem, hn⟩

theorem ClientView.release (h : ClientView s log a) (hinv : HandleInv s log)
    (hsafe : HandlesSafe s log) (hlater : log.Later s' log') (hpool : PoolInv s'.life)
    (owned : OtelSpanRef → Bool) (how : SpanEnd)
    (howned : ∀ n, owned (spanHandle n) = true ↔ ∃ e ∈ gone, log.At n e)
    (hl : Leaves gone how.fate s.life s'.life)
    (hstack : s'.spanStack = s.spanStack.filter fun x => decide (x.entry ∉ gone))
    (htallies : s'.life.tallies = s.life.tallies) :
    ClientView s' log' (a.release owned how) := by
  refine h.leaves hinv hsafe hlater hl hpool (.close owned how howned rfl) ?_ (h.tallies.trans htallies.symm)
  rw [hstack]
  refine Paired.filter h.active fun i x hshows => ?_
  have hiff := ClientView.released_iff hsafe howned i x hshows
  rw [Bool.eq_iff_iff, Bool.not_eq_true', decide_eq_true_iff, ← hiff, Bool.not_eq_true]

theorem ClientView.releaseOne (h : ClientView s log a) (hinv : HandleInv s log)
    (hsafe : HandlesSafe s log) (hlater : log.Later s' log') (hpool : PoolInv s'.life)
    (owned : OtelSpanRef → Bool) (how : SpanEnd) {e : StackRef}
    (howned : ∀ n, owned (spanHandle n) = true ↔ log.At n e)
    (hl : LeavesAlone e how.fate s.life s'.life) : ClientView s' log' (a.release owned how) := by
  have howned' (n : ℕ) : owned (spanHandle n) = true ↔ ∃ e' ∈ [e], log.At n e' := by
    rw [howned]
    exact ⟨fun hn => ⟨e, List.mem_singleton_self e, hn⟩,
      fun ⟨e', he', hn⟩ => List.mem_singleton.1 he' ▸ hn⟩
  refine h.release hinv hsafe hlater hpool owned how howned' hl.leaves ?_ hl.tallies
  · rw [show s'.spanStack = _ from hl.stack]
    exact List.filter_congr fun x _ => by simp

/-- The end of a transaction level. -/
theorem ClientView.levelEnds (h : ClientView s log a) (hinv : HandleInv s log)
    (hsafe : HandlesSafe s log) (hlater : log.Later s' log') (hpool : PoolInv s.life)
    (hpool' : PoolInv s'.life) {level : ℕ} (hl : LevelEnds level .dispatched s s') :
    ClientView s' log' ((a.release (log.owned (s.life.nrecsFrom level)) .released).dropActivations
      level) := by
  have howned := HandleLog.owned_iff hsafe hinv (s.life.nrecsFrom level)
  have hclient : ClientLeaves log (s.life.nrecsFrom level) .dispatched a
      ((a.release (log.owned (s.life.nrecsFrom level)) .released).dropActivations level) :=
    .close _ .released howned rfl
  refine h.leaves hinv hsafe hlater hl.leaves hpool' hclient ?_ (h.tallies.trans hl.tallies.symm)
  have hstack : s'.spanStack = (s.spanStack.filter fun x => !nrecFromLevel s level x).filter
      fun x => !(x.isActivation && decide (level ≤ x.nestLevel)) := by
    rw [hl.stack, List.filter_filter]
    refine List.filter_congr fun x _ => ?_
    rw [St.takenFrom, Bool.not_or, Bool.and_comm]
  -- An entry that is on the stack is of an open span.
  have hnrec (x : StackEntry) (hlive : s.life.Live x.entry) :
      nrecFromLevel s level x = true ↔ x.entry ∈ s.life.nrecsFrom level := by
    unfold nrecFromLevel Lifecycle.nrecsFrom
    cases hx : x.entry with
    | slot i => simp
    | nrec i =>
      rw [hx] at hlive
      have hgen : (s.life.nrecs.cell i).gen ≠ 0 := hlive.2
      have hused : i < s.life.nrecs.used := hlive.1
      simp only [decide_eq_true_iff, List.mem_map, List.mem_filter, List.mem_range,
        StackRef.nrec.injEq, exists_eq_right, NrecLife.isFrom]
      exact ⟨fun hle => ⟨hused, hgen, hle⟩, fun hall => hall.2.2⟩
  have hlive := Paired.and_right h.active fun x hx => (hpool.stack_live x hx : s.life.Live _)
  rw [hstack]
  refine (Paired.filter (Paired.filter hlive fun i x hshows => ?_) fun i x hshows => ?_).imp
    fun _ _ hshows => hshows.2
  · have hiff := ClientView.released_iff hsafe howned i x hshows.2
    rw [Bool.eq_iff_iff, Bool.not_eq_true', Bool.not_eq_true', ← Bool.not_eq_true,
      ← Bool.not_eq_true, hnrec x hshows.1]
    exact not_congr hiff
  · obtain ⟨-, -, -, -, hact, hlevel⟩ := hshows
    cases hx : x.isActivation with
    | true => rw [hact, hx, hlevel hx]
    | false => rw [hact, hx, Bool.false_and, Bool.false_and]

end View

end PostgresOtel
