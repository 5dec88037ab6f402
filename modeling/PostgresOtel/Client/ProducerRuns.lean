import PostgresOtel.Client.ProducerView

/-!
# The producer refines its clients' view

The producer and the client's side of its calls, step by step.  As long as no handle repeats, the two
agree after any number of calls that return: a span is open for the client if and only if it is open in
the producer, the two stacks match, and a recording span that left has the fate that fits the way it
left for the client.
-/

set_option autoImplicit false

namespace PostgresOtel

open Exec

/-! ## A span is started -/

section Start

variable {s s' : St} {log log' : HandleLog} {a : ActiveSpans} {e : StackRef} {ref : OtelSpanRef}

/-- The log after a call that opens a span at `e` and gives out `ref` for it. -/
structure HandleLog.Adds (ref : OtelSpanRef) (e : StackRef) (log log' : HandleLog) : Prop where
  given : log'.given = log.given ++ [ref]
  openSpans : ∀ p, p ∈ log'.openSpans ↔ p ∈ log.openSpans ∨ p = (ref, e)

theorem HandleLog.Adds.getElem? (h : log.Adds ref e log') {n : ℕ} (hn : n < log.given.length) :
    log'.given[n]? = log.given[n]? := by
  rw [h.given, List.getElem?_append_left hn]

theorem HandleLog.Adds.getElem?_new (h : log.Adds ref e log') :
    log'.given[log.given.length]? = some ref := by
  rw [h.given, List.getElem?_append_right (Nat.le_refl _), Nat.sub_self]
  rfl

theorem HandleLog.Adds.at_iff (h : log.Adds ref e log') (hinv : HandleInv s log)
    (hnodup : log'.given.Nodup) {n : ℕ} {e' : StackRef} :
    log'.At n e' ↔ log.At n e' ∨ (n = log.given.length ∧ e' = e) := by
  rw [h.given] at hnodup
  have hnew : ref ∉ log.given := fun hmem =>
    (List.nodup_append.1 hnodup).2.2 ref hmem ref (List.mem_singleton_self ref) rfl
  constructor
  · rintro ⟨r, hget, hmem⟩
    have hlt := (List.getElem?_eq_some_iff.1 hget).1
    rw [h.given, List.length_append, List.length_singleton] at hlt
    by_cases hn : n < log.given.length
    · rw [h.getElem? hn] at hget
      refine .inl ⟨r, hget, ((h.openSpans _).1 hmem).resolve_right fun heq => ?_⟩
      rw [Prod.mk.injEq] at heq
      exact hnew (heq.1 ▸ List.mem_of_getElem? hget)
    · obtain rfl : n = log.given.length := by omega
      rw [h.getElem?_new, Option.some.injEq] at hget
      subst hget
      refine .inr ⟨rfl, ?_⟩
      rcases (h.openSpans _).1 hmem with hold | heq
      · exact absurd (hinv.opened _ hold).1 hnew
      · exact (Prod.mk.inj heq).2
  · rintro (⟨r, hget, hmem⟩ | ⟨rfl, rfl⟩)
    · have hlt := (List.getElem?_eq_some_iff.1 hget).1
      exact ⟨r, (h.getElem? hlt).trans hget, (h.openSpans _).2 (.inl hmem)⟩
    · exact ⟨ref, h.getElem?_new, (h.openSpans _).2 (.inr rfl)⟩

theorem HandleLog.Adds.serialOf (h : log.Adds ref e log') {n : ℕ} (hn : n ≤ log.given.length) :
    log'.serialOf n = log.serialOf n := by
  unfold HandleLog.serialOf
  rw [h.given, List.take_append_of_le_length hn]

theorem HandleLog.Adds.serialOf_length (h : log.Adds ref e log') :
    log'.serialOf log'.given.length =
      log.serialOf log.given.length + if 0 < ref.v then 1 else 0 := by
  unfold HandleLog.serialOf
  rw [List.take_length, List.take_length, h.given, List.countP_append, List.countP_singleton]
  simp only [decide_eq_true_eq]

theorem ClientView.start (h : ClientView s log a) (hok : a.Ok) (hinv : HandleInv s log)
    (hadds : log.Adds ref e log') (hnodup : log'.given.Nodup) (harrives : Arrives e s.life s'.life)
    (hpos : 0 < ref.v ↔ ∃ i, e = .slot i) (nestLevel : ℕ) {detached : Bool}
    (hstack : s'.spanStack = if detached then s.spanStack else ⟨e, false, 0⟩ :: s.spanStack) :
    ClientView s' log' (a.start nestLevel detached) := by
  have hat {n : ℕ} {e' : StackRef} : log'.At n e' ↔ log.At n e' ∨ (n = log.given.length ∧ e' = e) :=
    hadds.at_iff hinv hnodup
  have hshows (i : ActiveItem) (x : StackEntry) (hs : log.Shows i x) : log'.Shows i x := by
    obtain ⟨n, href, hn, hact, hlevel⟩ := hs
    exact ⟨n, href, hat.2 (.inl hn), hact, hlevel⟩
  have hactive := h.active.imp hshows
  refine ⟨?_, fun n => ?_, ?_, h.tallies.trans harrives.tallies.symm, fun n e' hn serial hmem => ?_,
    ?_, fun n r hget hv how hmem => ?_, harrives.depth.trans h.depth⟩
  · rw [hadds.given, List.length_append]
    exact congrArg (· + 1) h.count
  · rw [show (a.start nestLevel detached).spans = a.spans.start false nestLevel detached from rfl,
      Spans.isOpen_start, h.opened, h.count]
    constructor
    · rintro (heq | ⟨e', he'⟩)
      · exact ⟨e, hat.2 (.inr ⟨Spans.spanHandle_injective heq, rfl⟩)⟩
      · exact ⟨e', hat.2 (.inl he')⟩
    · rintro ⟨e', he'⟩
      refine (hat.1 he').symm.imp (fun hnew => ?_) fun hold => ⟨e', hold⟩
      rw [hnew.1]
  · rw [hstack]
    cases detached with
    | true => exact hactive
    | false =>
      refine .cons ⟨log.given.length, ?_, hat.2 (.inr ⟨rfl, rfl⟩), rfl, fun hact => by cases hact⟩
        hactive
      change spanHandle a.spans.count = _
      rw [h.count]
  · rcases hat.1 hn with hold | ⟨rfl, rfl⟩
    · rw [harrives.serials e' (hold.live hinv)] at hmem
      rw [hadds.serialOf (Nat.le_of_lt hold.lt)]
      exact h.serial n e' hold serial hmem
    · rw [hadds.serialOf (Nat.le_refl _), ← h.started]
      cases e' with
      | slot i =>
        rw [List.mem_singleton.1 hmem]
        exact harrives.serial i rfl
      | nrec i => exact absurd hmem List.not_mem_nil
  · rw [hadds.serialOf_length, ← h.started]
    refine harrives.started.trans (congrArg (s.life.started + ·) ?_)
    cases e with
    | slot i => rw [if_pos (hpos.2 ⟨i, rfl⟩), Lifecycle.serials, List.length_singleton]
    | nrec i =>
      rw [if_neg fun hv => ?_]
      · rfl
      · obtain ⟨j, hj⟩ := hpos.1 hv
        cases hj
  · -- The span is one that was started before.
    obtain ⟨k, hk, hnk⟩ := hok.tally.started_of_log hmem
    obtain rfl := Spans.spanHandle_injective hnk
    rw [h.count] at hk
    rw [hadds.getElem? hk] at hget
    rw [hadds.serialOf (Nat.le_of_lt hk), show s'.fates = s.fates from harrives.fates]
    exact h.fates n r hget hv how hmem

end Start

/-! ## One call -/

section Step

variable {garbage : ℕ → OtelSlot} {s : St} {log : HandleLog} {a : ActiveSpans} {call : Call}

/-- What a call's handle names, where the call is not refused. -/
theorem ClientView.subject_cases (h : ClientView s log a) (hok : a.Ok) (hsafe : HandlesSafe s log) (hcalm : s.life.refuses call.env = false) {ref : OtelSpanRef}
    (hgiven : ref.v = 0 ∨ ref ∈ log.given) :
    (s.life.subject call.env ref = none ∧ ¬a.spans.IsOpen (log.clientRef ref)) ∨
      ∃ n e, s.life.subject call.env ref = some e ∧ s.life.entryOf ref = some e ∧
        log.clientRef ref = spanHandle n ∧ log.At n e := by
  rcases hgiven with hv | hmem
  · refine .inl ⟨Lifecycle.subject_none _ (.inr hv), fun hopen => ?_⟩
    have hnot : ref ∉ log.given := fun hmem => hsafe.nonzero ref hmem hv
    rw [HandleLog.clientRef, if_neg hnot] at hopen
    exact (hok.tally.started hopen).ne_zero rfl
  · obtain ⟨n, hget, hclient⟩ := HandleLog.getElem?_of_mem hmem
    have hsub : s.life.subject call.env ref = s.life.entryOf ref :=
      Lifecycle.subject_some _ fun hor => hor.elim (by simp [hcalm]) (hsafe.nonzero ref hmem)
    rw [hsub, hclient]
    cases hentry : s.life.entryOf ref with
    | none =>
      refine .inl ⟨rfl, fun hopen => ?_⟩
      obtain ⟨e, r, hget', hopen⟩ := (h.opened n).1 hopen
      obtain rfl := Option.some.inj (hget.symm.trans hget')
      rw [(hsafe.names _ hmem e).2 hopen] at hentry
      cases hentry
    | some e => exact .inr ⟨n, e, rfl, rfl, rfl, ref, hget, (hsafe.names ref hmem e).1 hentry⟩

theorem Lifecycle.subject_refused {c : Lifecycle} {env : Env} {ref : OtelSpanRef}
    (h : c.refuses env = true) : c.subject env ref = none := Lifecycle.subject_none _ (.inl h)

theorem returns_discardResult {α : Type} (x : M α) (s : St) :
    returns (discardResult x) s = returns x s := by
  change returns (EStateM.bind x fun _ => pure ()) s = returns x s
  unfold returns EStateM.bind
  cases x s <;> rfl

/-- `otel_span_start`, with a new handle or without. -/
theorem ClientView.spanStart (h : ClientView s log a) (hok : a.Ok) (hinv : HandleInv s log)
    (hsafe : HandlesSafe s log) (hpool : PoolInv s.life) {args : Option OtelSpanStartArgs}
    (hop : call.op = .spanStart args) (hcall : ClientCall s log call)
    (hpool' : PoolInv ((producer garbage).next s call).life)
    (hnodup : (log.after call s ((producer garbage).next s call)).given.Nodup) :
    ClientView ((producer garbage).next s call)
      (log.after call s ((producer garbage).next s call))
      ((clientActs s log call).foldl ActiveSpans.act a) := by
  have hreturns := hcall.returns
  have hnext : (producer garbage).next s call = endState (apiSpanStart call.env args) (s.enter call) := by
    change endState (runOp call.env call.op) (s.enter call) = _
    rw [hop]
    exact endState_discardResult _ _
  have hopens := wp_apiSpanStart_opens call.env args (s := s.enter call) hpool
  have houtcome := wp_apiSpanStart call.env args (s := s.enter call) hpool
  unfold Wp at hopens houtcome
  unfold endState at hnext
  rw [hop] at hreturns
  revert hpool' hnodup
  generalize (producer garbage).next s call = s' at hnext ⊢
  intro hpool' hnodup
  cases hx : apiSpanStart call.env args (s.enter call) with
  | error e s₁ =>
    have hraised : returns (runOp call.env (.spanStart args)) (s.enter call) = false := by
      refine (returns_discardResult _ _).trans ?_
      unfold returns
      rw [hx]
    rw [hraised] at hreturns
    cases hreturns
  | ok ref s₁ =>
    rw [hx] at hnext hopens houtcome
    obtain rfl : s' = s₁ := hnext
    have hgives : call.gives s = if ref = otelSpanNone then none else some ref := by
      simp only [Call.gives, hop, hx]
    have hacts : clientActs s log call = if (call.gives s).isSome then
        [.start call.env.currentTransactionNestLevel
          ((args.map OtelSpanStartArgs.detached).getD false)] else [] := by
      simp only [clientActs, hop]
    cases hopens with
    | refused _ _ _ hp =>
      rw [if_pos rfl] at hgives
      rw [hacts, hgives]
      have hl : Leaves [] .dispatched s.life s'.life ∧ s'.life.tallies = s.life.tallies := by
        rcases (hp : s.life.Prepared s'.life) with hlife | ⟨-, n, ok, hlife⟩
        · rw [hlife]
          exact ⟨.refl .dispatched s.life, rfl⟩
        · rw [hlife]
          exact ⟨{ Leaves.refl .dispatched s.life with }, rfl⟩
      exact h.still hinv hsafe (HandleLog.later_after hgives) hpool' hl.1 hp.spanStack hl.2
    | opened args p d e s₁ _ _ _ _ hp hopened _ =>
      have hlive : s'.life.Live e := hopened.live_iff.2 (.inr rfl)
      have hgen : 0 < s'.life.gen e := Nat.pos_of_ne_zero (Lifecycle.live_iff.1 hlive).2
      rw [if_neg (handle_ne_none hgen)] at hgives
      rw [hacts, hgives]
      have hold (e' : StackRef) : s'.life.Live e' ↔ s.life.Live e' ∨ e' = e := by
        rw [hopened.live_iff, hp.live]
        exact Iff.rfl
      have hfree : ¬s.life.Live e := fun hl => hopened.free ((hp.live e).2 hl)
      have harrives : Arrives e s.life s'.life := by
        rcases houtcome.2.arrives hpool with ⟨hnone, -⟩ | ⟨e', harrives⟩
        · exact absurd hnone (handle_ne_none hgen)
        · have he' := ((hold e').1 harrives.live).resolve_left harrives.free
          exact he' ▸ harrives
      have hadds : log.Adds (e.handle (s'.life.gen e)) e (log.after call s s') := by
        refine ⟨by simp [HandleLog.after, hgives], fun q => ?_⟩
        rw [HandleLog.mem_openSpans_after, hgives, hold]
        obtain ⟨ref, e'⟩ := q
        simp only [Option.some.injEq, Prod.mk.injEq]
        constructor
        · rintro (⟨hmem, -⟩ | ⟨hr, hl | he, hnot⟩)
          · exact .inl hmem
          · exact absurd hl hnot
          · exact .inr ⟨hr.symm, he⟩
        · rintro (hmem | ⟨rfl, rfl⟩)
          · exact .inl ⟨hmem, .inl (hinv.opened _ hmem).2.1⟩
          · exact .inr ⟨rfl, .inr rfl, hfree⟩
      refine h.start hok hinv hadds hnodup harrives (handle_pos_iff hgen) _ ?_
      rw [hopened.stack, show s₁.spanStack = s.spanStack from hp.spanStack]
      rfl

/-- A call about a handle: refused, about no open span, or about one. -/
theorem ClientView.aboutHandle (h : ClientView s log a) (hok : a.Ok) (hinv : HandleInv s log)
    (hsafe : HandlesSafe s log) (hpool : PoolInv s.life) {s' : St} {log' : HandleLog}
    (hlater : log.Later s' log') {ref : OtelSpanRef} (hgiven : ref.v = 0 ∨ ref ∈ log.given)
    (act : OtelSpanRef → ClientAct)
    (hnone : s.life.subject call.env ref = none → s'.life = s.life)
    (hidle : ∀ r, ¬a.spans.IsOpen r → ClientView s log (a.act (act r)))
    (hsome : ∀ n e, s.life.subject call.env ref = some e → log.At n e →
      ClientView s' log' (a.act (act (spanHandle n)))) :
    ClientView s' log' ((if s.life.refuses call.env then [] else [act (log.clientRef ref)]).foldl
      ActiveSpans.act a) := by
  cases hcalm : s.life.refuses call.env with
  | true => exact h.unchanged hinv hsafe hlater hpool (hnone (Lifecycle.subject_refused hcalm))
  | false =>
    rcases h.subject_cases hok hsafe hcalm hgiven with ⟨hsub, hclosed⟩ | ⟨n, e, hsub, -, hclient, hat⟩
    · exact (hidle _ hclosed).unchanged hinv hsafe hlater hpool (hnone hsub)
    · rw [hclient]
      exact hsome n e hsub hat

/-- What is left by a call that is not a start. -/
structure NoStart (s : St) (log : HandleLog) (s' : St) (log' : HandleLog) : Prop where
  inv : HandleInv s log
  safe : HandlesSafe s log
  pool : PoolInv s.life
  pool' : PoolInv s'.life
  later : log.Later s' log'

section NoStart

variable {s' : St} {log' : HandleLog}

theorem ClientView.spanEnd (h : ClientView s log a) (hok : a.Ok) (hno : NoStart s log s' log')
    {ref : OtelSpanRef} (hgiven : ref.v = 0 ∨ ref ∈ log.given)
    (hends : (s.life.subject call.env ref = none → s'.life = s.life) ∧
      ∀ e, s.life.subject call.env ref = some e → EndsAt e s.life s'.life) :
    ClientView s' log' ((if s.life.refuses call.env then [] else
      [ClientAct.finish (log.clientRef ref)]).foldl ActiveSpans.act a) := by
  refine h.aboutHandle hok hno.inv hno.safe hno.pool hno.later hgiven .finish hends.1
    (fun r hr => ?_) fun n e hsub hat =>
    h.finish hno.inv hno.safe hno.later hno.pool' hat (hends.2 e hsub)
  rw [ActiveSpans.act, ActiveSpans.finish, if_neg hr]
  exact h.touch r

theorem ClientView.spanDiscard (h : ClientView s log a) (hok : a.Ok) (hno : NoStart s log s' log')
    {ref : OtelSpanRef} (hgiven : ref.v = 0 ∨ ref ∈ log.given)
    (hends : (s.life.subject call.env ref = none → s'.life = s.life) ∧
      ∀ e, s.life.subject call.env ref = some e → LeavesAlone e .discarded s.life s'.life) :
    ClientView s' log' ((if s.life.refuses call.env then [] else
      [ClientAct.release (fun r => decide (r = log.clientRef ref)) .discarded]).foldl
        ActiveSpans.act a) := by
  refine h.aboutHandle hok hno.inv hno.safe hno.pool hno.later hgiven
    (fun x => .release (fun r => decide (r = x)) .discarded) hends.1 (fun r hr => ?_)
    fun n e hsub hat => ?_
  · -- There is nothing to release.
    have hspans : a.spans.close (fun o => decide (o.ref = r)) .discarded = a.spans :=
      Spans.close_none fun o ho => decide_eq_false fun heq => hr (heq ▸ List.mem_map_of_mem ho)
    have hactive : (a.active.filter fun i => !decide (i.ref = r)) = a.active := by
      refine List.filter_eq_self.2 fun i hi => ?_
      rw [Bool.not_eq_true', decide_eq_false_iff_not]
      exact fun heq => hr (heq ▸ hok.opened i hi)
    change ClientView s log { a with
      spans := a.spans.close (fun o => decide (o.ref = r)) .discarded
      active := a.active.filter fun i => !decide (i.ref = r) }
    rw [hspans, hactive]
    exact h
  · refine h.releaseOne hno.inv hno.safe hno.later hno.pool' (fun r => decide (r = spanHandle n))
      .discarded (fun m => ?_) (hends.2 e hsub)
    rw [decide_eq_true_iff]
    constructor
    · intro hm
      rw [Spans.spanHandle_injective hm]
      exact hat
    · intro hm
      rw [hm.num_eq hat hno.inv hno.safe.nodup]

theorem ClientView.spanActivate (h : ClientView s log a) (hok : a.Ok) (hno : NoStart s log s' log')
    {ref : OtelSpanRef} (hgiven : ref.v = 0 ∨ ref ∈ log.given)
    (hlife : s'.life = (s.life.subject call.env ref).elim s.life (s.life.activated call.env)) :
    ClientView s' log' ((if s.life.refuses call.env ∨
        (s.life.entryOf ref).all (fun e => !s.life.detached e) then [] else
      [ClientAct.activate (log.clientRef ref) call.env.currentTransactionNestLevel
        (decide (s.spanStack.length < otelMaxStackDepth))]).foldl ActiveSpans.act a) := by
  -- Where nothing is pushed.
  have hnone (hsame : s'.life = s.life) : ClientView s' log' a :=
    h.unchanged hno.inv hno.safe hno.later hno.pool hsame
  by_cases hskip : s.life.refuses call.env = true ∨
      (s.life.entryOf ref).all (fun e => !s.life.detached e) = true
  · rw [if_pos hskip]
    refine hnone (hlife.trans ?_)
    rcases hskip with hrefuses | hattached
    · rw [Lifecycle.subject_refused hrefuses]
      rfl
    · unfold Lifecycle.subject
      split_ifs
      · rfl
      · cases hentry : s.life.entryOf ref with
        | none => rfl
        | some e =>
          rw [hentry] at hattached
          refine if_neg fun hall => ?_
          simp [hall.1] at hattached
  · rw [if_neg hskip]
    rw [not_or, Bool.not_eq_true] at hskip
    rcases h.subject_cases hok hno.safe hskip.1 hgiven with
      ⟨hsub, hclosed⟩ | ⟨n, e, hsub, hentry, hclient, hat⟩
    · rw [hsub] at hlife
      rw [List.foldl_cons, List.foldl_nil, ActiveSpans.act, ActiveSpans.activate,
        if_neg fun hall => hclosed hall.1]
      exact (h.touch _).unchanged hno.inv hno.safe hno.later hno.pool hlife
    · rw [hclient]
      rw [hsub] at hlife
      have hdetached : s.life.detached e = true := by
        rw [hentry] at hskip
        simpa using hskip.2
      exact h.activate hno.inv hno.safe hno.later hno.pool' hat hdetached hlife

theorem ClientView.spanDeactivate (h : ClientView s log a) (hok : a.Ok) (hno : NoStart s log s' log')
    {ref : OtelSpanRef} (hgiven : ref.v = 0 ∨ ref ∈ log.given)
    (hpops : (s.life.subject call.env ref = none → s'.life = s.life) ∧
      ∀ e, s.life.subject call.env ref = some e → PopsAt e s.life s'.life) :
    ClientView s' log' ((if s.life.refuses call.env then [] else
      [ClientAct.deactivate (log.clientRef ref)]).foldl ActiveSpans.act a) := by
  refine h.aboutHandle hok hno.inv hno.safe hno.pool hno.later hgiven .deactivate hpops.1
    (fun r hr => ?_) fun n e hsub hat =>
    h.deactivate hno.inv hno.safe hno.later hno.pool' hat (hpops.2 e hsub)
  rw [ActiveSpans.act, ActiveSpans.deactivate, if_neg hr]
  exact h

theorem ClientView.ownerRelease (h : ClientView s log a) (hno : NoStart s log s' log')
    {ref : OtelSpanRef} {isCommit : Bool}
    (hleaves : (s.life.slotOf ref = none → s'.life = s.life) ∧ ∀ i, s.life.slotOf ref = some i →
      LeavesAlone (.slot i) (if isCommit then .leaked else .dispatched) s.life s'.life) :
    ClientView s' log' (a.release (log.owned ((s.life.slotOf ref).toList.map .slot))
      (if isCommit then .leaked else .released)) := by
  have howned := HandleLog.owned_iff hno.safe hno.inv ((s.life.slotOf ref).toList.map .slot)
  cases hslot : s.life.slotOf ref with
  | none =>
    have hsame := hleaves.1 hslot
    rw [hslot] at howned
    refine h.release hno.inv hno.safe hno.later hno.pool' _ _ howned ?_ ?_ (congrArg _ hsame)
    · rw [hsame]
      exact .refl _ s.life
    · rw [show s'.spanStack = s.spanStack from congrArg Lifecycle.spanStack hsame]
      simp
  | some i =>
    rw [hslot] at howned
    refine h.releaseOne hno.inv hno.safe hno.later hno.pool' _ _ (e := .slot i) (fun n => ?_) ?_
    · rw [howned]
      simp
    · have hl := hleaves.2 i hslot
      cases isCommit <;> exact hl

theorem ClientView.levelEnd (h : ClientView s log a) (hno : NoStart s log s' log') {level : ℕ}
    (hends : LevelEnds level .dispatched (s.enter call) s') :
    ClientView s' log' (([ClientAct.release (log.owned (s.life.nrecsFrom level)) .released,
      .dropActivations level]).foldl ActiveSpans.act a) :=
  h.levelEnds hno.inv hno.safe hno.later hno.pool hno.pool' { hends with }

end NoStart

/-- The two sides agree after every call that returns. -/
theorem ClientView.step (h : ClientView s log a) (hok : a.Ok) (hinv : HandleInv s log)
    (hpool : PoolInv s.life) (hvalid : call.op.Valid s)
    (hmax : call.env.maxOpenSpans ≤ maxOpenSpansMax) (hcall : ClientCall s log call)
    (hn : (log.after call s ((producer garbage).next s call)).starts < otelGenModulus - 1) :
    ClientView ((producer garbage).next s call) (log.after call s ((producer garbage).next s call))
      ((clientActs s log call).foldl ActiveSpans.act a) := by
  have hsafe : HandlesSafe s log := hinv.safe hpool ((log.starts_le_after call _ _).trans_lt hn)
  have hpool' : PoolInv ((producer garbage).next s call).life :=
    hpool.path (life_step garbage hpool hvalid)
  have hnodup := (hinv.step garbage hpool hvalid hmax).nodup hn
  by_cases hstart : ∃ args, call.op = .spanStart args
  · obtain ⟨args, hop⟩ := hstart
    exact h.spanStart hok hinv hsafe hpool hop hcall hpool' hnodup
  have hgives : call.gives s = none := by
    unfold Call.gives
    cases hop : call.op <;> first | rfl | exact absurd ⟨_, hop⟩ hstart
  have hresult (I : St → Prop) {E : Exn → St → Prop} (hI : Wp (runOp call.env call.op)
      (fun _ s' => I s') E (s.enter call)) : I ((producer garbage).next s call) :=
    hI.of_returns hcall.returns
  have hgiven := hcall.given
  have hdepth : (s.enter call).life.dispatchDepth = 0 := h.depth
  generalize (producer garbage).next s call = s' at hpool' hresult ⊢
  have hno : NoStart s log s' (log.after call s s') :=
    ⟨hinv, hsafe, hpool, hpool', HandleLog.later_after hgives⟩
  -- A call that is about no span.
  have hstill (habout : call.op.aboutSpans = false) : ClientView s' (log.after call s s') a :=
    h.unchanged hinv hsafe hno.later hpool (hresult _ (wp_runOp_still call.env habout (s.enter call)))
  -- A callback that ends no transaction level.
  have hidle (hlife : s'.life = s.life) : ClientView s' (log.after call s s') a :=
    h.unchanged hinv hsafe hno.later hpool hlife
  unfold clientActs
  cases hop : call.op with
  | spanStart args => exact absurd ⟨args, hop⟩ hstart
  | spanEnd ref endTime =>
    rw [hop] at hgiven hresult
    exact h.spanEnd hok hno (hgiven ref rfl) (hresult _
      (wp_apiSpanEnd_ends call.env (s := s.enter call) ref endTime hpool))
  | spanDiscard ref =>
    rw [hop] at hgiven hresult
    exact h.spanDiscard hok hno (hgiven ref rfl) (hresult _
      (wp_apiSpanDiscard_leaves call.env (s := s.enter call) ref hpool))
  | spanActivate ref =>
    rw [hop] at hgiven hresult
    refine h.spanActivate hok hno (hgiven ref rfl) (hresult (E := fun _ _ => False) (fun s' =>
      s'.life = (s.life.subject call.env ref).elim s.life (s.life.activated call.env)) ?_)
    change Wp (discardResult (apiSpanActivate call.env ref)) _ _ _
    unfold discardResult
    rw [wp_bind]
    exact wp_apiSpanActivate_pushes call.env (s := s.enter call) ref
  | spanDeactivate tok =>
    rw [hop] at hgiven hresult
    exact h.spanDeactivate hok hno (hgiven ⟨tok.v⟩ rfl) (hresult _
      (wp_apiSpanDeactivate_popsAt call.env (s := s.enter call) tok hpool))
  | ownerRelease owner ref isCommit =>
    rw [hop] at hresult
    have hleaves := hresult _
      (wp_resourceOwnerRelease_leaves call.env owner ref isCommit (s := s.enter call) hpool)
    refine h.ownerRelease hno ⟨hleaves.1, fun i hi => ?_⟩
    rw [← Lifecycle.releaseFate_calm hpool hdepth hi isCommit]
    exact hleaves.2 i hi
  | xactCallback event =>
    rw [hop] at hresult
    cases event with
    | commit | parallelCommit | prepare =>
      exact h.levelEnd hno (hresult _ (wp_dropFromLevel_ends 1 true .dispatched (s.enter call)))
    | abort | parallelAbort =>
      exact h.levelEnd hno (hresult _ (wp_dropFromLevel_ends 1 false .dispatched (s.enter call)))
    | preCommit | parallelPreCommit | prePrepare =>
      exact hidle (hresult (E := fun _ _ => False) (fun s' => s'.life = s.life) rfl)
  | subxactCallback event =>
    rw [hop] at hresult
    cases event with
    | abortSub =>
      exact h.levelEnd hno (hresult _ (wp_dropFromLevel_ends call.env.currentTransactionNestLevel
        false .dispatched (s.enter call)))
    | startSub | commitSub | preCommitSub =>
      exact hidle (hresult (E := fun _ _ => False) (fun s' => s'.life = s.life) rfl)
  | spanSetStr | spanSetInt | spanSetDouble | spanSetBool | spanSetVprintf | spanSetName
  | spanSetStatus | spanAddEvent | spanAddLink | spanRecordError | spanCaptureError | spanCurrent
  | spanContextOf | emitLog | shmemExit =>
    rw [hop] at hstill
    exact hstill rfl

end Step

/-! ## Runs -/

/-- The producer with its handles and the client's side of the calls. -/
def clientRuns (garbage : ℕ → OtelSlot) : Machine ((St × HandleLog) × ActiveSpans) Call :=
  (handleRuns garbage).extend {} some (fun p call => ClientCall p.1.1 p.1.2 call)
    fun p call => (clientActs p.1.1 p.1.2 call).foldl ActiveSpans.act p.2

section Runs

variable {garbage : ℕ → OtelSlot} {p : (St × HandleLog) × ActiveSpans}

theorem ClientView.init : ClientView (initSt garbage) {} {} where
  count := rfl
  opened n := by
    refine ⟨fun h => absurd h List.not_mem_nil, ?_⟩
    rintro ⟨e, ref, hget, -⟩
    cases hget
  active := .nil
  tallies := rfl
  serial n e h := by
    obtain ⟨ref, hget, -⟩ := h
    cases hget
  started := rfl
  fates n ref hget := by cases hget
  depth := rfl

/-- What the client does in a call it can do one act after another. -/
theorem clientSpans_acts {a : ActiveSpans} (h : clientSpans.Reachable a) (acts : List ClientAct) :
    clientSpans.Reachable (acts.foldl ActiveSpans.act a) := by
  induction acts generalizing a with
  | nil => exact h
  | cons x xs ih => exact ih (h.step x trivial)

theorem reachable_clientSpans (h : (clientRuns garbage).Reachable p) : clientSpans.Reachable p.2 :=
  Machine.Reachable.invariant (I := fun p => clientSpans.Reachable p.2) .init
    (fun p call hI _ => clientSpans_acts hI (clientActs p.1.1 p.1.2 call)) h

theorem clientSpans_ok {a : ActiveSpans} (h : clientSpans.Reachable a) : a.Ok :=
  Machine.Reachable.invariant (I := ActiveSpans.Ok) .init (fun _ x hok _ => hok.act x) h

theorem reachable_clientView (h : (clientRuns garbage).Reachable p)
    (hn : p.1.2.starts < otelGenModulus - 1) : ClientView p.1.1 p.1.2 p.2 := by
  induction h with
  | init => exact .init
  | @step p call hp hen _ ih =>
    have hhandles : (handleRuns garbage).Reachable p.1 := hp.base fun _ _ _ _ _ => trivial
    have hpool := reachable_poolInv (reachable_of_handleRuns hhandles)
    obtain ⟨hvalid, hmax⟩ := hen.1 call rfl
    have hstarts := (p.1.2.starts_le_after call p.1.1 ((producer garbage).next p.1.1 call)).trans_lt hn
    exact (ih hstarts).step (clientSpans_ok (reachable_clientSpans hp)) (reachable_handleInv hhandles)
      hpool (hvalid call rfl) hmax hen.2 hn

/-- The recorded fate of a span is the one that fits how it left. -/
theorem ClientView.fate_iff {s : St} {log : HandleLog} {a : ActiveSpans} (h : ClientView s log a)
    (hok : a.Ok) (hinv : HandleInv s log) (hledger : Ledger s.life) {n : ℕ} {ref : OtelSpanRef}
    (hget : log.given[n]? = some ref) (hv : 0 < ref.v) (fate : Fate) :
    (log.serialOf n, fate) ∈ s.fates ↔ ∃ how, (spanHandle n, how) ∈ a.spans.log ∧ how.fate = fate := by
  constructor
  · intro hmem
    have hended : log.serialOf n ∈ s.life.ended := List.mem_map_of_mem (f := Prod.fst) hmem
    have hn : n < a.spans.count := h.count ▸ (List.getElem?_eq_some_iff.1 hget).1
    by_cases hopen : a.spans.IsOpen (spanHandle n)
    · -- An open span has not left.
      obtain ⟨e, hat⟩ := (h.opened n).1 hopen
      have hlive := hat.live hinv
      obtain ⟨ref', hget', hmem'⟩ := id hat
      obtain rfl := Option.some.inj (hget.symm.trans hget')
      have hgen : 0 < s.life.gen e := Nat.pos_of_ne_zero (Lifecycle.live_iff.1 hlive).2
      have hhandle : ref = e.handle (s.life.gen e) := (hinv.opened _ hmem').2.2
      rw [hhandle] at hv
      obtain ⟨i, rfl⟩ := (handle_pos_iff hgen).1 hv
      have hserial := h.serial n (.slot i) hat _ (List.mem_singleton_self _)
      exact absurd (hserial ▸ hended) (hledger.open_not_ended i hlive)
    · have hlog : spanHandle n ∈ a.spans.log.map Prod.fst := by
        have honce := hok.tally.once hn
        rw [List.count_eq_zero.2 hopen, Nat.zero_add] at honce
        exact List.count_pos_iff.1 (honce ▸ Nat.one_pos)
      obtain ⟨⟨_, how⟩, hhow, rfl⟩ := List.mem_map.1 hlog
      refine ⟨how, hhow, ?_⟩
      have hmem' := h.fates n ref hget hv how hhow
      exact (Prod.mk.inj (List.inj_on_of_nodup_map hledger.ended_nodup hmem' hmem rfl)).2
  · rintro ⟨how, hhow, rfl⟩
    exact h.fates n ref hget hv how hhow

/-- The producer refines its client's view.  Whatever the calls of a run that returned, while fewer
than `2 ^ 31 - 1` spans have been started since the counter was seeded: what the client did is a run of
its own machine of spans, the two agree on which spans are open, on the stack and on the tallies, and
the fate of a recording span is the one that fits how it left for the client. -/
theorem producer_refines_client (h : (clientRuns garbage).Reachable p)
    (hn : p.1.2.starts < 2 ^ 31 - 1) :
    clientSpans.Reachable p.2 ∧ ClientView p.1.1 p.1.2 p.2 ∧
      ∀ n ref, p.1.2.given[n]? = some ref → 0 < ref.v → ∀ fate,
        (p.1.2.serialOf n, fate) ∈ p.1.1.fates ↔
          ∃ how, (spanHandle n, how) ∈ p.2.spans.log ∧ how.fate = fate := by
  have hhandles : (handleRuns garbage).Reachable p.1 := h.base fun _ _ _ _ _ => trivial
  have hclient := reachable_clientSpans h
  have hview := reachable_clientView h hn
  refine ⟨hclient, hview, fun n ref hget hv fate => ?_⟩
  exact hview.fate_iff (clientSpans_ok hclient) (reachable_handleInv hhandles)
    (reachable_ledger (reachable_of_handleRuns hhandles)) hget hv fate

/-- Two spans are started on the stack and one beside it; that one is activated, the oldest is ended
below the two others and the detached one is discarded. -/
def endedBelow : List Call :=
  [{ env := {}, backend := {}, op := .spanStart (some { name := some (cstr "outer") }) },
    { env := {}, backend := {}, op := .spanStart (some { name := some (cstr "inner") }) },
    { env := {}, backend := {},
      op := .spanStart (some { name := some (cstr "detached"), detached := true }) },
    { env := {}, backend := {}, op := .spanActivate (makeRef 3 2 true) },
    { env := {}, backend := {}, op := .spanEnd (makeRef 1 0 true) 0 },
    { env := {}, backend := {}, op := .spanDiscard (makeRef 3 2 true) }]

def endedBelowState : (St × HandleLog) × ActiveSpans :=
  endedBelow.foldl (clientRuns fun _ => {}).next ((clientRuns fun _ => {}).init)

theorem clientRuns_enabled {call : Call} (hvalid : call.op.Valid p.1.1)
    (hmax : call.env.maxOpenSpans ≤ maxOpenSpansMax)
    (hgiven : ∀ ref ∈ call.op.handle, ref.v = 0 ∨ ref ∈ p.1.2.given)
    (hreturns : returns (runOp call.env call.op) (p.1.1.enter call) = true) :
    (clientRuns garbage).enabled p call :=
  ⟨fun _ h => Option.some.inj h ▸ ⟨fun _ h => Option.some.inj h ▸ hvalid, hmax⟩, hgiven, hreturns⟩

theorem reachable_endedBelowState : (clientRuns fun _ => {}).Reachable endedBelowState := by
  refine Machine.ReachBy.run .init
    ⟨clientRuns_enabled trivial (by decide) nofun (by decide +kernel), trivial,
      clientRuns_enabled trivial (by decide) nofun (by decide +kernel), trivial,
      clientRuns_enabled trivial (by decide) nofun (by decide +kernel), trivial,
      clientRuns_enabled (by decide : (makeRef 3 2 true).Issued) (by decide) ?_ (by decide +kernel), trivial,
      clientRuns_enabled (by decide : (makeRef 1 0 true).Issued) (by decide) ?_ (by decide +kernel), trivial,
      clientRuns_enabled (by decide : (makeRef 3 2 true).Issued) (by decide) ?_ (by decide +kernel), trivial,
      trivial⟩ <;>
    rintro ref ⟨⟩ <;> exact .inr (by decide +kernel)

theorem producer_refines_client_endedBelow :
    endedBelowState.2.spans.log =
      [(spanHandle 1, .unwound), (spanHandle 0, .ended), (spanHandle 2, .discarded)] ∧
    (endedBelowState.2.nonLifoEnd, endedBelowState.2.activationUnwound) = (1, 1) ∧
    endedBelowState.1.1.life.tallies = (1, 1) ∧
    (1, Fate.dispatched) ∈ endedBelowState.1.1.fates ∧
    (2, Fate.discarded) ∈ endedBelowState.1.1.fates := by
  have hlog : endedBelowState.2.spans.log =
      [(spanHandle 1, .unwound), (spanHandle 0, .ended), (spanHandle 2, .discarded)] := by
    decide +kernel
  obtain ⟨-, hview, hfates⟩ :=
    producer_refines_client reachable_endedBelowState (by decide +kernel)
  have htallies : (endedBelowState.2.nonLifoEnd, endedBelowState.2.activationUnwound) = (1, 1) := by
    decide +kernel
  refine ⟨hlog, htallies, hview.tallies ▸ htallies, ?_, ?_⟩
  · refine (hfates 1 (makeRef 2 1 true) (by decide +kernel) (by decide) .dispatched).2 ⟨.unwound, ?_, rfl⟩
    rw [hlog]
    decide
  · refine (hfates 2 (makeRef 3 2 true) (by decide +kernel) (by decide) .discarded).2
      ⟨.discarded, ?_, rfl⟩
    rw [hlog]
    decide

end Runs

end PostgresOtel
