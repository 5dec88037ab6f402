import PostgresOtel.Producer.Departures

/-!
# Handles of closed spans

The spans that each call closes, read off the state before it, are `Lifecycle.closes`: the one an end
or a discard is about, those unwound with it, the one an owner releases, the non-recording ones of a
transaction level that ends.  A call that returns closes these and no others (`wp_runOp_closes`), one
that raises none but these, and the handle of a closed span names nothing from then on
(`handles_safe`).
-/

set_option autoImplicit false

namespace PostgresOtel

open Exec

/-! ## What a call closes -/

/-- The spans a call closes, unless it raises. -/
def Lifecycle.closes (c : Lifecycle) (env : Env) : ProducerOp → List StackRef
  | .spanEnd ref _ => (c.subject env ref).elim [] c.endsWith
  | .spanDiscard ref => (c.subject env ref).toList
  | .spanDeactivate tok => (c.subject env ⟨tok.v⟩).elim [] c.startsAbove
  | .ownerRelease _ ref _ => (c.slotOf ref.1).toList.map .slot
  | .xactCallback event =>
    match event with
    | .commit | .parallelCommit | .prepare | .abort | .parallelAbort => c.nrecsFrom 1
    | .preCommit | .parallelPreCommit | .prePrepare => []
  | .subxactCallback event =>
    match event with
    | .abortSub => c.nrecsFrom env.currentTransactionNestLevel
    | .startSub | .commitSub | .preCommitSub => []
  | _ => []

/-- Of the open spans exactly those at `gone` are closed. -/
def ClosesJust (gone : List StackRef) (c c' : Lifecycle) : Prop :=
  ∀ e, c.Live e → (c'.Live e ↔ e ∉ gone)

section ClosesJust

variable {c c' : Lifecycle} {gone : List StackRef} {fate : Fate}

theorem Leaves.closes (h : Leaves gone fate c c') : ClosesJust gone c c' := fun e he =>
  (h.live e).trans (and_iff_right he)

theorem ClosesJust.of_eq (h : c' = c) : ClosesJust [] c c' := fun e he => by
  rw [h]
  simpa using he

/-- A call about a span that may not be there. -/
theorem ClosesJust.subject {o : Option StackRef} {f : StackRef → List StackRef}
    (hnone : o = none → c' = c) (hsome : ∀ e, o = some e → ∃ fate, Leaves (f e) fate c c') :
    ClosesJust (o.elim [] f) c c' := by
  cases ho : o with
  | none => exact .of_eq (hnone ho)
  | some e =>
    obtain ⟨fate, hleaves⟩ := hsome e ho
    exact hleaves.closes

/-- A call that closes that span alone. -/
theorem ClosesJust.one {o : Option StackRef} (hnone : o = none → c' = c)
    (hsome : ∀ e, o = some e → ∃ fate, Leaves [e] fate c c') : ClosesJust o.toList c c' := by
  have htoList : o.toList = o.elim [] fun e => [e] := by cases o <;> rfl
  rw [htoList]
  exact .subject hnone hsome

end ClosesJust

variable (env : Env)

/-- A start closes nothing. -/
theorem wp_apiSpanStart_closes (args : Option OtelSpanStartArgs) {s : St} (hinv : PoolInv s.life) :
    Wp (apiSpanStart env args) (fun _ s' => ClosesJust [] s.life s'.life)
      (fun _ s' => TakesOnly [] s.life s'.life) s := by
  apply ((wp_apiSpanStart_opens env args hinv).and (wp_apiSpanStart env args hinv)).mono
  · rintro ref s' ⟨hstarted, -⟩ e he
    have hlive : s'.life.Live e := by
      cases hstarted with
      | refused _ _ _ hp => exact (hp.live e).2 he
      | opened _ _ _ _ _ _ _ _ _ hp hopens => exact hopens.live_iff.2 (.inl ((hp.live e).2 he))
    simpa using hlive
  · exact fun _ _ h e he _ => h.2.2 e he

/-- Nor does an activation. -/
theorem wp_apiSpanActivate_closes (ref : OtelSpanRef) (s : St) :
    Wp (apiSpanActivate env ref) (fun _ s' => ClosesJust [] s.life s'.life)
      (fun _ s' => TakesOnly [] s.life s'.life) s := by
  apply (wp_apiSpanActivate_pushes env ref).mono
  · intro _ s' h e he
    have hlive : s'.life.Live e ↔ s.life.Live e := by
      rw [h]
      cases s.life.subject env ref with
      | none => exact Iff.rfl
      | some e' =>
        change (s.life.activated env e').Live e ↔ _
        unfold Lifecycle.activated
        split_ifs <;> exact Iff.rfl
    rw [hlive]
    exact ⟨fun _ => List.not_mem_nil, fun _ => he⟩
  · exact fun _ _ h => h.elim

/-- The release of one resource closes the span it is of, if that is still there. -/
theorem wp_resourceOwnerRelease_closes (owner : ResourceOwner) (ref : OwnedRef) (isCommit : Bool)
    {s : St} (hinv : PoolInv s.life) :
    Wp (resourceOwnerRelease env owner ref isCommit)
      (fun _ s' => ClosesJust ((s.life.slotOf ref.1).toList.map .slot) s.life s'.life)
      (fun _ s' => TakesOnly [] s.life s'.life) s := by
  apply (wp_resourceOwnerRelease_leaves env owner ref isCommit hinv).mono
  · intro _ s' h
    rw [← Option.toList_map]
    apply ClosesJust.one
    · exact fun hnone => h.1 (Option.map_eq_none_iff.1 hnone)
    · intro e he
      obtain ⟨i, hi, rfl⟩ := Option.map_eq_some_iff.1 he
      exact ⟨_, (h.2 i hi).leaves⟩
  · exact fun _ _ h => h

/-- A call that returns closes just these spans, and one that raises none but these. -/
theorem wp_runOp_closes (op : ProducerOp) {s : St} (hinv : PoolInv s.life) :
    Wp (runOp env op) (fun _ s' => ClosesJust (s.life.closes env op) s.life s'.life)
      (fun _ s' => TakesOnly (s.life.closes env op) s.life s'.life) s := by
  have hstill (habout : op.aboutSpans = false) (hnone : s.life.closes env op = []) :
      Wp (runOp env op) (fun _ s' => ClosesJust (s.life.closes env op) s.life s'.life)
        (fun _ s' => TakesOnly (s.life.closes env op) s.life s'.life) s := by
    rw [hnone]
    exact (wp_runOp_still env habout s).mono (fun _ _ h => .of_eq h) fun _ _ h => .of_eq h
  have hlevel (level : ℕ) (isLeak : Bool) :
      Wp (do dropNrecsFromLevel level; dropActivationsFromLevel level isLeak)
        (fun _ s' => ClosesJust (s.life.nrecsFrom level) s.life s'.life)
        (fun _ s' => TakesOnly (s.life.nrecsFrom level) s.life s'.life) s :=
    (wp_dropFromLevel_ends level isLeak .dispatched s).mono (fun _ _ h => h.leaves.closes)
      fun _ _ h => h.elim
  have hidle : Wp (pure () : M Unit) (fun _ s' => ClosesJust [] s.life s'.life)
      (fun _ s' => TakesOnly [] s.life s'.life) s := ClosesJust.of_eq rfl
  cases op with
  | spanStart args =>
    change Wp (discardResult (apiSpanStart env args)) _ _ s
    unfold discardResult
    rw [wp_bind]
    exact wp_apiSpanStart_closes env args hinv
  | spanEnd ref endTime =>
    exact (wp_apiSpanEnd_ends env ref endTime hinv).mono
      (fun _ _ h => .subject h.1 fun e he => ⟨_, (h.2 e he).leaves⟩) fun _ _ h => h
  | spanDiscard ref =>
    exact (wp_apiSpanDiscard_leaves env ref hinv).mono
      (fun _ _ h => .one h.1 fun e he => ⟨_, (h.2 e he).leaves⟩)
      fun _ _ h => h.mono (List.nil_subset _)
  | spanActivate ref =>
    change Wp (discardResult (apiSpanActivate env ref)) _ _ s
    unfold discardResult
    rw [wp_bind]
    exact wp_apiSpanActivate_closes env ref s
  | spanDeactivate tok =>
    exact (wp_apiSpanDeactivate_popsAt env tok hinv).mono
      (fun _ _ h => .subject h.1 fun e he => ⟨_, (h.2 e he).leaves⟩) fun _ _ h => h
  | ownerRelease owner ref isCommit =>
    exact (wp_resourceOwnerRelease_closes env owner ref isCommit hinv).mono (fun _ _ h => h)
      fun _ _ h => h.mono (List.nil_subset _)
  | xactCallback event =>
    cases event with
    | commit | parallelCommit | prepare => exact hlevel 1 true
    | abort | parallelAbort => exact hlevel 1 false
    | preCommit | parallelPreCommit | prePrepare => exact hidle
  | subxactCallback event =>
    cases event with
    | abortSub => exact hlevel env.currentTransactionNestLevel false
    | startSub | commitSub | preCommitSub => exact hidle
  | spanSetStr | spanSetInt | spanSetDouble | spanSetBool | spanSetVprintf | spanSetName
  | spanSetStatus | spanAddEvent | spanAddLink | spanRecordError | spanCaptureError | spanCurrent
  | spanContextOf | emitLog | shmemExit => exact hstill rfl rfl

/-! ## One step of a run -/

/-- What a call does to the spans that are open: one that returns closes the spans of `closes` and no
others, one that raises none but these, and the handle it gives out is of a span that is open now. -/
structure StepCloses (call : Call) (p p' : St × HandleLog) : Prop where
  returned : returns (runOp call.env call.op) (p.1.enter call) = true →
    ∀ x ∈ p.2.openSpans, (x ∈ p'.2.openSpans ↔ x.2 ∉ p.1.life.closes call.env call.op)
  raised : ∀ x ∈ p.2.openSpans, x.2 ∉ p.1.life.closes call.env call.op → x ∈ p'.2.openSpans
  gives : ∀ ref, call.gives p.1 = some ref →
    ∃ e, (ref, e) ∈ p'.2.openSpans ∧ p'.1.life.entryOf ref = some e

section Steps

variable {garbage : ℕ → OtelSlot} {p : St × HandleLog} {call : Call}

theorem mem_openSpans_next {x : OtelSpanRef × StackRef} (hx : x ∈ p.2.openSpans) :
    x ∈ ((handleRuns garbage).next p call).2.openSpans ↔
      ((handleRuns garbage).next p call).1.life.Live x.2 := by
  refine HandleLog.mem_openSpans_after.trans ⟨?_, fun hlive => .inl ⟨hx, hlive⟩⟩
  rintro (⟨-, hlive⟩ | ⟨-, hlive, -⟩) <;> exact hlive

/-- The handle that a start gives out is of a span that was not open before. -/
theorem gives_opens (h : (handleRuns garbage).Reachable p) {ref : OtelSpanRef}
    (hgives : call.gives p.1 = some ref) :
    ∃ e, (ref, e) ∈ ((handleRuns garbage).next p call).2.openSpans := by
  have hpool := reachable_poolInv (reachable_of_handleRuns h)
  have hstep : Step call.env (p.1.enter call) call.op ((producer garbage).next p.1 call) :=
    step_cases call.env call.op hpool
  have hafter : ∃ e, ((producer garbage).next p.1 call).life.Live e ∧ ¬p.1.life.Live e := by
    revert hstep
    generalize (producer garbage).next p.1 call = s'
    generalize hop : call.op = op
    intro hstep
    cases hstep with
    | start args ref' _ hx hstarted =>
      have hgives' : (if ref' = otelSpanNone then none else some ref') = some ref := by
        rw [← hgives]
        simp only [Call.gives, hop, hx]
      cases hstarted with
      | refused => cases hgives'
      | opened _ _ _ e _ _ _ _ _ hp hopens _ =>
        exact ⟨e, hopens.live_iff.2 (.inr rfl), fun hlive => hopens.free ((hp.live e).2 hlive)⟩
    | startRaised args _ _ hx _ => simp [Call.gives, hop, hx] at hgives
    | activate => simp [Call.gives, hop] at hgives
    | other _ _ hno _ =>
      exfalso
      unfold Call.gives at hgives
      rw [hop] at hgives
      cases op with
      | spanStart args => exact hno args rfl
      | _ => cases hgives
  obtain ⟨e, hlive, hfree⟩ := hafter
  exact ⟨e, HandleLog.mem_openSpans_after.2 (.inr ⟨hgives, hlive, hfree⟩)⟩

theorem stepCloses (h : (handleRuns garbage).Reachable p)
    (hen : (handleRuns garbage).enabled p call)
    (hn : ((handleRuns garbage).next p call).2.starts < otelGenModulus - 1) :
    StepCloses call p ((handleRuns garbage).next p call) := by
  have hpool := reachable_poolInv (reachable_of_handleRuns h)
  have hcloses := wp_runOp_closes call.env call.op (s := p.1.enter call) hpool
  have hopen (x : OtelSpanRef × StackRef) (hx : x ∈ p.2.openSpans) : p.1.life.Live x.2 :=
    ((reachable_handleInv h).opened x hx).2.1
  refine ⟨fun hreturns x hx => ?_, fun x hx hno => ?_, fun ref hgives => ?_⟩
  · rw [mem_openSpans_next hx]
    exact Wp.of_returns (I := fun s' => ClosesJust _ p.1.life s'.life) hcloses hreturns x.2 (hopen x hx)
  · rw [mem_openSpans_next hx]
    refine Wp.endState (I := fun s' => TakesOnly _ p.1.life s'.life) (hcloses.mono ?_ fun _ _ h => h)
      x.2 (hopen x hx) hno
    exact fun _ _ h e he hnot => (h e he).2 hnot
  · obtain ⟨e, hmem⟩ := gives_opens h hgives
    have hnext := h.step call hen
    have hsafe := (reachable_handleInv hnext).safe (reachable_poolInv (reachable_of_handleRuns hnext)) hn
    exact ⟨e, hmem, (hsafe.names ref ((reachable_handleInv hnext).opened _ hmem).1 e).2 hmem⟩

/-- A span that a call closes is not open under any other handle or in another place. -/
theorem closed_next (h : (handleRuns garbage).Reachable p)
    (hen : (handleRuns garbage).enabled p call)
    (hn : ((handleRuns garbage).next p call).2.starts < otelGenModulus - 1)
    (hreturns : returns (runOp call.env call.op) (p.1.enter call) = true) {ref : OtelSpanRef}
    {e : StackRef} (hopen : (ref, e) ∈ p.2.openSpans)
    (hcloses : e ∈ p.1.life.closes call.env call.op) (e' : StackRef) :
    (ref, e') ∉ ((handleRuns garbage).next p call).2.openSpans := by
  have hn' : p.2.starts < otelGenModulus - 1 := (p.2.starts_le_after call _ _).trans_lt hn
  have hsafe := (reachable_handleInv h).safe (reachable_poolInv (reachable_of_handleRuns h)) hn'
  have hgiven := ((reachable_handleInv h).opened _ hopen).1
  intro hmem
  by_cases hbefore : (ref, e') ∈ p.2.openSpans
  · have hname := (hsafe.names ref hgiven e).2 hopen
    rw [(hsafe.names ref hgiven e').2 hbefore] at hname
    obtain rfl := Option.some.inj hname
    exact ((stepCloses h hen hn).returned hreturns _ hbefore).1 hmem hcloses
  · have hnodup := (reachable_handleInv (h.step call hen)).nodup hn
    rcases HandleLog.mem_openSpans_after.1 hmem with ⟨hbefore', -⟩ | ⟨hgives, -⟩
    · exact hbefore hbefore'
    · have hnext : ((handleRuns garbage).next p call).2.given = p.2.given ++ [ref] := by
        change p.2.given ++ (call.gives p.1).toList = _
        rw [hgives]
        rfl
      rw [hnext, List.nodup_append] at hnodup
      exact hnodup.2.2 ref hgiven ref (List.mem_singleton_self ref) rfl

end Steps

/-! ## Runs -/

section Runs

variable {garbage : ℕ → OtelSlot} {p : St × HandleLog}

/-- Handles are safe: while fewer than `2 ^ 31 - 1` spans have been started since the counter was
seeded, no two handles given out are the same and none is null; each splits into the generation and
index it was made of; it names the place of its span from the start until a call closes the span, and
nothing from then on.  A recording span that has met its fate is not open, even if the call that ended
it raised. -/
theorem handles_safe (h : (handleRuns garbage).Reachable p) (hn : p.2.starts < 2 ^ 31 - 1) :
    HandlesSafe p.1 p.2 ∧
    (∀ gen idx recording, 0 < gen → gen < 2 ^ 31 → idx < maxOpenSpansMax →
      refGen (makeRef gen idx recording) = gen ∧ refIdx (makeRef gen idx recording) = idx ∧
      (0 < (makeRef gen idx recording).v ↔ recording = true) ∧
      -2 ^ 63 ≤ (makeRef gen idx recording).v ∧ (makeRef gen idx recording).v < 2 ^ 63) ∧
    (∀ ref i, (ref, .slot i) ∈ p.2.openSpans → (p.1.slots i).serial ∉ p.1.life.ended) ∧
    (∀ call, (handleRuns garbage).enabled p call →
      ((handleRuns garbage).next p call).2.starts < 2 ^ 31 - 1 →
      StepCloses call p ((handleRuns garbage).next p call)) ∧
    (∀ call calls, (handleRuns garbage).Admits (fun _ _ => True) p (call :: calls) →
      ((call :: calls).foldl (handleRuns garbage).next p).2.starts < 2 ^ 31 - 1 →
      returns (runOp call.env call.op) (p.1.enter call) = true →
      ∀ ref e, (ref, e) ∈ p.2.openSpans → e ∈ p.1.life.closes call.env call.op →
      ∀ e', ((call :: calls).foldl (handleRuns garbage).next p).1.life.entryOf ref ≠ some e') ∧
    ∀ calls, (handleRuns garbage).Admits (fun _ _ => True) p calls →
      (calls.foldl (handleRuns garbage).next p).2.starts < 2 ^ 31 - 1 →
      ∀ ref ∈ p.2.given, (∀ e, (ref, e) ∉ p.2.openSpans) →
      ∀ e, (calls.foldl (handleRuns garbage).next p).1.life.entryOf ref ≠ some e := by
  refine ⟨?_, fun gen idx recording hgen hlt hidx => ?_, fun ref i hmem => ?_,
    fun call hen hstarts => stepCloses h hen hstarts, ?_, fun calls hcalls hstarts ref href hclosed =>
    closed_later calls h hcalls hstarts href hclosed⟩
  · exact (reachable_handleInv h).safe (reachable_poolInv (reachable_of_handleRuns h)) hn
  · have hword : idx < 2 ^ 32 := hidx.trans (by decide)
    refine ⟨refGen_makeRef hword _, refIdx_makeRef hword _, ?_, ?_, ?_⟩ <;> cases recording <;>
      simp only [makeRef, Bool.false_eq_true, if_true, if_false, iff_true, iff_false] <;> omega
  · have hlive := ((reachable_handleInv h).opened _ hmem).2.1
    exact (reachable_ledger (reachable_of_handleRuns h)).open_not_ended i hlive
  · intro call calls hcalls hstarts hreturns ref e hopen hcloses
    have hnext : ((handleRuns garbage).next p call).2.starts < otelGenModulus - 1 :=
      (starts_le_run calls _).trans_lt hstarts
    have hgiven := ((reachable_handleInv h).opened _ hopen).1
    exact closed_later calls (h.step call hcalls.1) hcalls.2.2 hstarts
      (List.mem_append_left _ hgiven) (closed_next h hcalls.1 hnext hreturns hopen hcloses)

/-- A span is started, and another above it. -/
def twoNested : List Call :=
  [{ env := {}, backend := {}, op := .spanStart (some { name := some (cstr "outer") }) },
    { env := {}, backend := {}, op := .spanStart (some { name := some (cstr "inner") }) }]

/-- The outer span is ended, which unwinds the inner one. -/
def outerEnded : Call := { env := {}, backend := {}, op := .spanEnd (makeRef 1 0 true) 0 }

def thirdStarted : Call :=
  { env := {}, backend := {}, op := .spanStart (some { name := some (cstr "third") }) }

def nestedState : St × HandleLog :=
  twoNested.foldl (handleRuns fun _ => {}).next ((handleRuns fun _ => {}).init)

/-- A third span takes the slot of the first. -/
def nestedReused : St × HandleLog :=
  [outerEnded, thirdStarted].foldl (handleRuns fun _ => {}).next nestedState

theorem reachable_nestedState : (handleRuns fun _ => {}).Reachable nestedState := by
  refine Machine.ReachBy.run .init ⟨⟨fun a ha => ?_, by decide⟩, trivial, ⟨fun a ha => ?_, by decide⟩,
    trivial, trivial⟩ <;> obtain rfl := Option.some.inj ha <;> trivial

theorem admits_nestedReused : (handleRuns fun _ => {}).Admits (fun _ _ => True) nestedState
    [outerEnded, thirdStarted] := by
  refine ⟨⟨fun a ha => ?_, by decide⟩, trivial, ⟨fun a ha => ?_, by decide⟩, trivial, trivial⟩ <;>
    obtain rfl := Option.some.inj ha
  · exact (by decide : (makeRef 1 0 true).Issued)
  · exact trivial

/-- The end of the outer span closes both, and neither handle names the span that is started then. -/
theorem handles_safe_slotReused :
    nestedState.2.openSpans = [(makeRef 1 0 true, .slot 0), (makeRef 2 1 true, .slot 1)] ∧
    nestedState.1.life.closes outerEnded.env outerEnded.op = [.slot 1, .slot 0] ∧
    nestedReused.2.openSpans = [(makeRef 3 0 true, .slot 0)] ∧
    (∀ e, nestedReused.1.life.entryOf (makeRef 1 0 true) ≠ some e) ∧
    ∀ e, nestedReused.1.life.entryOf (makeRef 2 1 true) ≠ some e := by
  have hopen : nestedState.2.openSpans =
      [(makeRef 1 0 true, .slot 0), (makeRef 2 1 true, .slot 1)] := by decide +kernel
  have hcloses : nestedState.1.life.closes outerEnded.env outerEnded.op = [.slot 1, .slot 0] := by
    decide +kernel
  have hreturns : returns (runOp outerEnded.env outerEnded.op) (nestedState.1.enter outerEnded) = true := by
    decide +kernel
  have hsafe := handles_safe reachable_nestedState (by decide +kernel)
  have hclosed := hsafe.2.2.2.2.1 outerEnded [thirdStarted] admits_nestedReused (by decide +kernel)
    hreturns
  rw [hopen, hcloses] at hclosed
  refine ⟨hopen, hcloses, by decide +kernel, hclosed _ (.slot 0) ?_ ?_, hclosed _ (.slot 1) ?_ ?_⟩ <;>
    simp

end Runs

end PostgresOtel
