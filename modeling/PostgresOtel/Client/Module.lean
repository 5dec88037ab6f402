import PostgresOtel.Client.Portion
import PostgresOtel.Producer.Scripts

/-!
# A module on the producer

A module that calls the producer among other modules.  `Hosted` says that the spans the module has
started, numbered by its own starts, are what a `Spans` of its own says; every call the module makes
keeps that, and so does every call of another module that does not name the module's spans.
-/

set_option autoImplicit false

namespace PostgresOtel

open Exec Script Inline

/-- The producer with its handles and the client's side of all calls, and the handles the module got. -/
structure ModuleSt where
  base : (St × HandleLog) × ActiveSpans
  mine : List OtelSpanRef := []

namespace ModuleSt

variable (m : ModuleSt)

def log : HandleLog := m.base.1.2

/-- The module's call to the producer at this moment. -/
def callOf (env : Env) (op : ProducerOp) : Call := callNow env m.base.1.1 op

/-- No handle has repeated yet. -/
def Few : Prop := m.log.starts < otelGenModulus - 1

instance : DecidablePred Few := fun m => inferInstanceAs (Decidable (m.log.starts < _))

/-- Another module calls the producer, or core does. -/
def other (garbage : ℕ → OtelSlot) (call : Call) : ModuleSt :=
  { m with base := (clientRuns garbage).next m.base call }

/-- The module calls the producer. -/
def own (garbage : ℕ → OtelSlot) (call : Call) : ModuleSt where
  base := (clientRuns garbage).next m.base call
  mine := m.mine ++ (call.gives m.base.1.1).toList

end ModuleSt

/-- The producer for a module. -/
def moduleServer (garbage : ℕ → OtelSlot) (env : Env) :
    Server ModuleSt ProducerOp ProducerOp.Answer where
  answer m op := value (answerOp env op) m.base.1.1
  next m op := m.own garbage (m.callOf env op)

/-- No call gets back to where no handle has repeated, and no script. -/
theorem few_of_next (garbage : ℕ → OtelSlot) (m : ModuleSt) (call : Call)
    (h : (m.other garbage call).Few) : m.Few :=
  (m.log.starts_le_after _ _ _).trans_lt h

theorem few_of_run {α : Type} {garbage : ℕ → OtelSlot} {env : Env} {x : Api α} {m : ModuleSt}
    (h : (x.run (moduleServer garbage env) m).2.Few) : m.Few := by
  by_contra hnot
  exact run_keeps (I := fun m => ¬ m.Few)
    (fun m op hm hnext => hm (few_of_next garbage m (m.callOf env op) hnext)) x hnot h

/-- The module's spans are those of `t`. -/
structure Hosted (garbage : ℕ → OtelSlot) (m : ModuleSt) (t : Spans) : Prop where
  reach : (clientRuns garbage).Reachable m.base
  few : m.Few
  given : ∀ ref ∈ m.mine, ref ∈ m.log.given
  portion : Portion (m.mine.map m.log.clientRef) m.base.2 t

theorem reachable_ordered {a : ActiveSpans} (h : clientSpans.Reachable a) : a.spans.Ordered := by
  refine Machine.Reachable.invariant (I := fun a => a.spans.Ordered) Spans.ordered_init
    (fun a x hord _ => ?_) h
  cases x with
  | start nestLevel detached => exact hord.start false detached nestLevel
  | finish ref =>
    change (a.finish ref).spans.Ordered
    rw [ActiveSpans.finish]
    split_ifs
    · refine Spans.Ordered.close ?_ _ _
      rw [ActiveSpans.popItem_spans, ActiveSpans.touch_spans]
      exact hord.close _ _
    · rw [ActiveSpans.touch_spans]
      exact hord
  | activate ref nestLevel room =>
    change (a.activate ref nestLevel room).1.spans.Ordered
    rw [ActiveSpans.activate]
    have htouch : (a.touch ref).spans.Ordered := by
      rw [ActiveSpans.touch_spans]
      exact hord
    split_ifs
    · exact htouch
    · exact htouch
  | deactivate act =>
    change (a.deactivate act).spans.Ordered
    rw [ActiveSpans.deactivate]
    split_ifs
    · rw [ActiveSpans.popItem_spans]
      exact hord.close _ _
    · exact hord
  | release owned how => exact hord.close _ how
  | dropActivations nestLevel => exact hord

/-- A handle keeps its number under another name. -/
theorem numbered_map {mine : List OtelSpanRef} {f : OtelSpanRef → OtelSpanRef} {ref : OtelSpanRef}
    (hinj : ∀ r ∈ mine, ∀ r' ∈ mine, f r = f r' → r = r') (hmem : ref ∈ mine) :
    numbered (mine.map f) (f ref) = numbered mine ref := by
  have hidx (l : List OtelSpanRef) (hl : ∀ r ∈ l, f r = f ref → r = ref) :
      (l.map f).idxOf (f ref) = l.idxOf ref := by
    induction l with
    | nil => rfl
    | cons r l ih =>
      obtain ⟨hr, hl⟩ := List.forall_mem_cons.1 hl
      by_cases heq : r = ref
      · rw [heq, List.map_cons, List.idxOf_cons_self, List.idxOf_cons_self]
      · rw [List.map_cons, List.idxOf_cons_ne _ fun hf => heq (hr hf), List.idxOf_cons_ne _ heq, ih hl]
  rw [numbered_of_mem (List.mem_map_of_mem hmem), numbered_of_mem hmem,
    hidx mine fun r hr => hinj r hr ref hmem]

namespace Hosted

variable {garbage : ℕ → OtelSlot} {m : ModuleSt} {t : Spans} {ref : OtelSpanRef} {call : Call}

theorem init (garbage : ℕ → OtelSlot) : Hosted garbage { base := (clientRuns garbage).init } {} where
  reach := .init
  few := (by decide : 0 < otelGenModulus - 1)
  given := nofun
  portion := ⟨.nil, nofun, ⟨rfl, rfl, rfl⟩, rfl, nofun⟩

theorem handles (h : Hosted garbage m t) : (handleRuns garbage).Reachable m.base.1 :=
  h.reach.base fun _ _ _ _ _ => trivial

theorem inv (h : Hosted garbage m t) : HandleInv m.base.1.1 m.log := reachable_handleInv h.handles

theorem safe (h : Hosted garbage m t) : HandlesSafe m.base.1.1 m.log :=
  h.inv.safe (reachable_poolInv (reachable_of_handleRuns h.handles)) h.few

theorem view (h : Hosted garbage m t) : ClientView m.base.1.1 m.log m.base.2 :=
  reachable_clientView h.reach h.few

theorem ok (h : Hosted garbage m t) : m.base.2.Ok := clientSpans_ok (reachable_clientSpans h.reach)

theorem ordered (h : Hosted garbage m t) : m.base.2.spans.Ordered :=
  reachable_ordered (reachable_clientSpans h.reach)

theorem ne_zero (h : Hosted garbage m t) (hmem : ref ∈ m.mine) : ref.v ≠ 0 :=
  h.safe.nonzero ref (h.given ref hmem)

/-- A null handle has no number. -/
theorem numbered_null (h : Hosted garbage m t) (hv : ref.v = 0) : numbered m.mine ref = ⟨0⟩ :=
  numbered_of_not_mem fun hmem => h.ne_zero hmem hv

theorem clientRef_inj {log : HandleLog} {r r' : OtelSpanRef} (hr : r ∈ log.given) (hr' : r' ∈ log.given)
    (heq : log.clientRef r = log.clientRef r') : r = r' := (numbered_inj hr hr').1 heq

theorem mem_map_iff (h : Hosted garbage m t) (href : ref ∈ m.log.given) :
    m.log.clientRef ref ∈ m.mine.map m.log.clientRef ↔ ref ∈ m.mine := by
  rw [List.mem_map]
  constructor
  · rintro ⟨r, hr, heq⟩
    rwa [← clientRef_inj (h.given r hr) href heq]
  · exact fun hmem => ⟨ref, hmem, rfl⟩

theorem numbered_eq (h : Hosted garbage m t) (hmem : ref ∈ m.mine) :
    numbered (m.mine.map m.log.clientRef) (m.log.clientRef ref) = numbered m.mine ref :=
  numbered_map (fun r hr r' hr' heq => clientRef_inj (h.given r hr) (h.given r' hr') heq) hmem

/-- Every number up to the count is of one of the module's spans. -/
theorem count (h : Hosted garbage m t) : t.count = m.mine.length :=
  h.portion.spans.count.trans (List.length_map _)

/-- No call is refused outside of critical sections. -/
theorem calm (h : Hosted garbage m t) {env : Env} (hcrit : env.critSectionCount = 0) :
    m.base.1.1.life.refuses env = false := by
  have hdepth : m.base.1.1.life.dispatchDepth = 0 := h.view.depth
  simp [Lifecycle.refuses, hcrit, hdepth]

theorem issued (h : Hosted garbage m t) (hmem : ref ∈ m.mine) : ref.Issued :=
  .inr (h.safe.split ref (h.given ref hmem)).1

/-! ## One call -/

/-- After a call that gives the module no handle. -/
theorem next (h : Hosted garbage m t) (hen : (clientRuns garbage).enabled m.base call)
    (hfew : (m.other garbage call).Few) {t' : Spans}
    (hportion : Portion (m.mine.map m.log.clientRef)
      ((clientActs m.base.1.1 m.log call).foldl ActiveSpans.act m.base.2) t') :
    Hosted garbage (m.other garbage call) t' := by
  have hgiven : (m.other garbage call).log.given = m.log.given ++ (call.gives m.base.1.1).toList := rfl
  refine ⟨h.reach.step call hen, hfew, fun ref hmem => ?_, ?_⟩
  · rw [hgiven]
    exact List.mem_append_left _ (h.given ref hmem)
  · have hrefs : m.mine.map (m.other garbage call).log.clientRef = m.mine.map m.log.clientRef := by
      refine List.map_congr_left fun ref hmem => ?_
      unfold HandleLog.clientRef
      rw [hgiven]
      cases call.gives m.base.1.1 with
      | none => rw [Option.toList_none, List.append_nil]
      | some new => exact numbered_concat_of_mem (h.given ref hmem)
    change Portion (m.mine.map (m.other garbage call).log.clientRef) _ t'
    rw [hrefs]
    exact hportion

theorem own_eq_other (garbage : ℕ → OtelSlot) (hgives : call.gives m.base.1.1 = none) :
    m.own garbage call = m.other garbage call := by
  unfold ModuleSt.own ModuleSt.other
  rw [hgives, Option.toList_none, List.append_nil]

theorem gives_eq_none (call : Call) (hop : call.op.isStart = false) (s : St) : call.gives s = none := by
  unfold Call.gives
  cases hcall : call.op with
  | spanStart args =>
    rw [hcall] at hop
    cases hop
  | _ => rfl

/-- A call that is about no span. -/
theorem still (h : Hosted garbage m t) (hen : (clientRuns garbage).enabled m.base call)
    (hstill : call.op.aboutSpans = false) (hfew : (m.other garbage call).Few) :
    Hosted garbage (m.other garbage call) t := by
  refine h.next hen hfew ?_
  have hacts : clientActs m.base.1.1 m.log call = [] := by
    unfold clientActs
    cases hop : call.op <;> rw [hop] at hstill <;> first | rfl | cases hstill
  rw [hacts]
  exact h.portion

/-- The module starts a span. -/
theorem start (h : Hosted garbage m t) (hen : (clientRuns garbage).enabled m.base call)
    {args : OtelSpanStartArgs} (hop : call.op = .spanStart (some args))
    (hfew : (m.own garbage call).Few) (hgives : call.gives m.base.1.1 = some ref) :
    ref ∉ m.mine ∧ Hosted garbage (m.own garbage call)
      (t.start false call.env.currentTransactionNestLevel args.detached) := by
  have hgiven : (m.own garbage call).log.given = m.log.given ++ [ref] := by
    change m.log.given ++ (call.gives m.base.1.1).toList = _
    rw [hgives, Option.toList_some]
  have hmine : (m.own garbage call).mine = m.mine ++ [ref] := by
    change m.mine ++ (call.gives m.base.1.1).toList = _
    rw [hgives, Option.toList_some]
  have hreach : (clientRuns garbage).Reachable (m.own garbage call).base := h.reach.step call hen
  have hhandles : (handleRuns garbage).Reachable (m.own garbage call).base.1 :=
    hreach.base fun _ _ _ _ _ => trivial
  have hnew : ref ∉ m.log.given := by
    have hnodup := (reachable_handleInv hhandles).nodup hfew
    change (m.own garbage call).log.given.Nodup at hnodup
    rw [hgiven] at hnodup
    exact fun hmem => (List.nodup_append.1 hnodup).2.2 ref hmem ref (List.mem_singleton_self ref) rfl
  refine ⟨fun hmem => hnew (h.given ref hmem), hreach, hfew, fun r hr => ?_, ?_⟩
  · rw [hgiven]
    rw [hmine] at hr
    exact (List.mem_append.1 hr).elim (fun hr => List.mem_append_left _ (h.given r hr))
      fun hr => List.mem_append_right _ hr
  · have hacts : clientActs m.base.1.1 m.log call =
        [.start call.env.currentTransactionNestLevel args.detached] := by
      unfold clientActs
      rw [hop]
      change (if (call.gives m.base.1.1).isSome = true then _ else _) = _
      rw [hgives]
      rfl
    have hrefs : (m.own garbage call).mine.map (m.own garbage call).log.clientRef =
        m.mine.map m.log.clientRef ++ [spanHandle m.base.2.spans.count] := by
      rw [hmine, List.map_append, List.map_singleton]
      unfold HandleLog.clientRef
      rw [hgiven]
      have hself : numbered (m.log.given ++ [ref]) ref = spanHandle m.base.2.spans.count := by
        rw [numbered_concat_self hnew, h.view.count]
      refine congrArg₂ (· ++ ·) (List.map_congr_left fun r hr => ?_) (congrArg (fun x => [x]) hself)
      exact numbered_concat_of_mem (h.given r hr)
    rw [hrefs]
    change Portion _ ((clientActs m.base.1.1 m.log call).foldl ActiveSpans.act m.base.2) _
    rw [hacts]
    exact h.portion.start h.ok _ _

/-- The module ends one of its spans. -/
theorem finish (h : Hosted garbage m t) (hen : (clientRuns garbage).enabled m.base call)
    {endTime : TimestampTz} (hop : call.op = .spanEnd ref endTime) (hcrit : call.env.critSectionCount = 0)
    (hfew : (m.other garbage call).Few) (hmem : ref ∈ m.mine) :
    Hosted garbage (m.other garbage call) (t.finish (numbered m.mine ref)) := by
  refine h.next hen hfew ?_
  have hacts : clientActs m.base.1.1 m.log call = [.finish (m.log.clientRef ref)] := by
    unfold clientActs
    rw [hop]
    exact if_neg (by rw [h.calm hcrit]; exact Bool.false_ne_true)
  rw [hacts, ← h.numbered_eq hmem]
  exact h.portion.finish h.ok h.ordered (.inr (List.mem_map_of_mem hmem))

/-- The module discards one of its spans. -/
theorem discard (h : Hosted garbage m t) (hen : (clientRuns garbage).enabled m.base call)
    (hop : call.op = .spanDiscard ref) (hcrit : call.env.critSectionCount = 0)
    (hfew : (m.other garbage call).Few) (hmem : ref ∈ m.mine) :
    Hosted garbage (m.other garbage call) (t.discard (numbered m.mine ref)) := by
  refine h.next hen hfew ?_
  have hacts : clientActs m.base.1.1 m.log call =
      [.release (fun r => decide (r = m.log.clientRef ref)) .discarded] := by
    unfold clientActs
    rw [hop]
    exact if_neg (by rw [h.calm hcrit]; exact Bool.false_ne_true)
  rw [hacts, ← h.numbered_eq hmem]
  exact h.portion.discard h.ok (.inr (List.mem_map_of_mem hmem))

/-- What others do to the module's spans: some leave in one way, then some in another. -/
def losses (t : Spans) (lost : List (List OtelSpanRef × SpanEnd)) : Spans :=
  lost.foldl (fun t l => t.close (fun o => decide (o.ref ∈ l.1)) l.2) t

theorem portion_others {mine : List OtelSpanRef} {a : ActiveSpans} {xs : List ClientAct}
    (h : Portion mine a t) (hok : a.Ok) (hxs : ∀ x ∈ xs, x.Spares mine) :
    ∃ lost, Portion mine (xs.foldl ActiveSpans.act a) (losses t lost) := by
  induction xs generalizing a t with
  | nil => exact ⟨[], h⟩
  | cons x xs ih =>
    obtain ⟨hx, hxs⟩ := List.forall_mem_cons.1 hxs
    obtain ⟨gone, how, hfirst⟩ := h.other hok hx
    obtain ⟨lost, hrest⟩ := ih hfirst (hok.act x) hxs
    exact ⟨(gone, how) :: lost, hrest⟩

/-- A call of another module, or of core. -/
theorem others (h : Hosted garbage m t) (hen : (clientRuns garbage).enabled m.base call)
    (hnot : ∀ ref ∈ call.op.handle, ref ∉ m.mine) (hfew : (m.other garbage call).Few) :
    ∃ lost, Hosted garbage (m.other garbage call) (losses t lost) := by
  have hgiven := hen.2.given
  have hspare (ref : OtelSpanRef) (href : ref ∈ call.op.handle) :
      m.log.clientRef ref ∉ m.mine.map m.log.clientRef := by
    rcases hgiven ref href with hv | hmem
    · intro hin
      have hnull : m.log.clientRef ref = ⟨0⟩ :=
        numbered_of_not_mem fun hmem => h.safe.nonzero ref hmem hv
      exact (h.portion.started _ hin).ne_zero (congrArg OtelSpanRef.v hnull)
    · rw [h.mem_map_iff hmem]
      exact hnot ref href
  have hacts : ∀ x ∈ clientActs m.base.1.1 m.log call, x.Spares (m.mine.map m.log.clientRef) := by
    unfold clientActs
    intro x hx
    cases hop : call.op with
    | spanStart args =>
      simp only [hop] at hx
      split_ifs at hx
      · rw [List.mem_singleton.1 hx]
        exact trivial
      · cases hx
    | spanEnd ref endTime | spanActivate ref | spanDeactivate ref =>
      rw [hop] at hspare
      simp only [hop] at hx
      split_ifs at hx
      · cases hx
      · rw [List.mem_singleton.1 hx]
        exact hspare _ rfl
    | spanDiscard ref =>
      simp only [hop] at hx
      split_ifs at hx
      · cases hx
      · rw [List.mem_singleton.1 hx]
        exact trivial
    | ownerRelease owner ref isCommit =>
      simp only [hop] at hx
      rw [List.mem_singleton.1 hx]
      exact trivial
    | xactCallback event =>
      simp only [hop] at hx
      cases event <;> simp only [List.mem_cons, List.not_mem_nil, or_false] at hx
      all_goals
        rcases hx with rfl | rfl
        · exact trivial
        · exact trivial
    | subxactCallback event =>
      simp only [hop] at hx
      cases event <;> simp only [List.mem_cons, List.not_mem_nil, or_false] at hx
      all_goals
        rcases hx with rfl | rfl
        · exact trivial
        · exact trivial
    | spanSetStr | spanSetInt | spanSetDouble | spanSetBool | spanSetVprintf | spanSetName
    | spanSetStatus | spanAddEvent | spanAddLink | spanRecordError | spanCaptureError | spanCurrent
    | spanContextOf | emitLog | shmemExit =>
      simp only [hop] at hx
      cases hx
  obtain ⟨lost, hportion⟩ := portion_others h.portion h.ok hacts
  exact ⟨lost, h.next hen hfew hportion⟩

end Hosted

/-! ## The inline entry points -/

/-- The producer for a module, until a handle repeats. -/
def servedModule (garbage : ℕ → OtelSlot) (env : Env) : Server ModuleSt ProducerOp ProducerOp.Answer :=
  (moduleServer garbage env).guard ModuleSt.Few

namespace Hosted

variable {garbage : ℕ → OtelSlot} {env : Env} {m : ModuleSt} {t : Spans} {ref : OtelSpanRef}

theorem ensures_call (hmax : env.maxOpenSpans ≤ maxOpenSpansMax) {op : ProducerOp}
    (hvalid : op.Valid m.base.1.1) (hgiven : ∀ ref ∈ op.handle, ref.v = 0 ∨ ref ∈ m.log.given)
    {Q : op.Answer → ModuleSt → Prop}
    (hQ : (clientRuns garbage).enabled m.base (m.callOf env op) →
      (m.own garbage (m.callOf env op)).Few → ∀ x, value (answerOp env op) m.base.1.1 = some x →
        Q x (m.own garbage (m.callOf env op))) :
    Ensures (servedModule garbage env) (otelProducerApi op) Q m := by
  refine (ensures_send _ _ op Q).2 fun x hx => ?_
  change x ∈ (if _ then _ else _) at hx
  split_ifs at hx with hfew
  · have hanswer : value (answerOp env op) m.base.1.1 = some x := hx
    refine hQ (clientRuns_enabled hvalid hmax hgiven ?_) hfew x hanswer
    change returns (runOp env op) m.base.1.1 = true
    rw [returns_answerOp, hanswer, Option.isSome_some]
  · cases hx

/-- The module has the spans that `t` says, and no new one. -/
structure Keeps (garbage : ℕ → OtelSlot) (m m' : ModuleSt) (t : Spans) : Prop where
  hosted : Hosted garbage m' t
  mine : m'.mine = m.mine

theorem ensures_still (h : Hosted garbage m t) (hmax : env.maxOpenSpans ≤ maxOpenSpansMax)
    {op : ProducerOp} (hstill : op.aboutSpans = false) (hvalid : op.Valid m.base.1.1) :
    Ensures (servedModule garbage env) (otelProducerApi op) (fun _ m' => Keeps garbage m m' t) m := by
  have hstart : op.isStart = false := by
    cases op <;> first | rfl | cases hstill
  have hhandle : op.handle = none := by
    cases op <;> first | rfl | cases hstill
  refine ensures_call hmax hvalid (by rw [hhandle]; nofun) fun hen hfew x _ => ?_
  rw [own_eq_other garbage (gives_eq_none (m.callOf env op) hstart m.base.1.1)] at hfew ⊢
  exact ⟨h.still hen hstill hfew, rfl⟩

end Hosted

/-! ### Code that starts and ends nothing -/

/-- The module's spans are the same after the script. -/
def Still (garbage : ℕ → OtelSlot) (env : Env) {α : Type} (x : Api α) : Prop :=
  ∀ m t, Hosted garbage m t →
    Ensures (servedModule garbage env) x (fun _ m' => Hosted.Keeps garbage m m' t) m

section Still

variable {garbage : ℕ → OtelSlot} {env : Env} {α β : Type}

theorem still_pure (a : α) : Still garbage env (pure a : Api α) :=
  fun _ _ h => (ensures_pure _ _ _ a).2 ⟨h, rfl⟩

theorem Still.bind {x : Api α} {f : α → Api β} (hx : Still garbage env x)
    (hf : ∀ a, Still garbage env (f a)) : Still garbage env (x >>= f) := fun m t h =>
  (ensures_bind _ _ _ x f).2 ((hx m t h).mono fun a m₁ h₁ => (hf a m₁ t h₁.hosted).mono fun _ _ h₂ =>
    ⟨h₂.hosted, h₂.mine.trans h₁.mine⟩)

theorem Still.ite {c : Prop} [Decidable c] {x y : Api α} (hx : Still garbage env x)
    (hy : Still garbage env y) : Still garbage env (if c then x else y) := by
  split_ifs
  · exact hx
  · exact hy

theorem still_call (hmax : env.maxOpenSpans ≤ maxOpenSpansMax) {op : ProducerOp}
    (hstill : op.aboutSpans = false) : Still garbage env (otelProducerApi op) := fun m _ h => by
  refine h.ensures_still hmax hstill ?_
  cases op <;> first | exact trivial | cases hstill

variable (hmax : env.maxOpenSpans ≤ maxOpenSpansMax) (s : OtelSpanRef)

include hmax

theorem still_otelSpanContextOf : Still garbage env (otelSpanContextOf s) := still_call hmax rfl

theorem still_otelSpanSetStr (key : CString) (val : Option CString) :
    Still garbage env (otelSpanSetStr s key val) := .ite (still_call hmax rfl) (still_pure ())

theorem still_otelSpanSetInt (key : CString) (val : ℤ) : Still garbage env (otelSpanSetInt s key val) :=
  .ite (still_call hmax rfl) (still_pure ())

theorem still_otelSpanSetStatus (code : OtelSpanStatus) (description : Option CString) :
    Still garbage env (otelSpanSetStatus s code description) :=
  .ite (still_call hmax rfl) (still_pure ())

theorem still_otelSpanAddLink (target : Option OtelSpanContext) :
    Still garbage env (otelSpanAddLink s target) := .ite (still_call hmax rfl) (still_pure ())

end Still

/-! ### Starting and ending -/

namespace Hosted

variable {garbage : ℕ → OtelSlot} {env : Env} {m : ModuleSt} {t : Spans} {ref : OtelSpanRef}

/-- The module has started a span, if `s` is its handle and not null. -/
structure Starts (garbage : ℕ → OtelSlot) (m : ModuleSt) (level : ℕ) (detached : Bool) (t : Spans)
    (s : OtelSpanRef) (m' : ModuleSt) : Prop where
  hosted : Hosted garbage m' (if s = otelSpanNone then t else t.start false level detached)
  mine : m'.mine = m.mine ++ if s = otelSpanNone then [] else [s]
  new : s ∉ m.mine

theorem gives_spanStart {args : OtelSpanStartArgs} {s : OtelSpanRef}
    (hs : value (apiSpanStart env (some args)) m.base.1.1 = some s) :
    (m.callOf env (.spanStart (some args))).gives m.base.1.1 =
      if s = otelSpanNone then none else some s := by
  have henter : m.base.1.1.enter (m.callOf env (.spanStart (some args))) = m.base.1.1 := rfl
  unfold value at hs
  unfold Call.gives
  rw [henter]
  simp only [ModuleSt.callOf, callNow]
  cases hx : apiSpanStart env (some args) m.base.1.1 with
  | ok ref s₁ =>
    rw [hx] at hs
    rw [← Option.some.inj hs]
  | error e s₁ =>
    rw [hx] at hs
    cases hs

theorem ensures_otelSpanStart (h : Hosted garbage m t) (hmax : env.maxOpenSpans ≤ maxOpenSpansMax)
    (args : OtelSpanStartArgs) : Ensures (servedModule garbage env) (Inline.otelSpanStart env args)
      (Starts garbage m env.currentTransactionNestLevel args.detached t) m := by
  have hnone {m' : ModuleSt} (hk : Keeps garbage m m' t) :
      Starts garbage m env.currentTransactionNestLevel args.detached t otelSpanNone m' := by
    refine ⟨?_, ?_, fun hmem => h.ne_zero hmem rfl⟩
    · rw [if_pos rfl]
      exact hk.hosted
    · rw [if_pos rfl, List.append_nil]
      exact hk.mine
  refine (ensures_ite _ _ _ _ _ _).2
    ⟨fun _ => ?_, fun _ => (ensures_pure _ _ _ _).2 (hnone ⟨h, rfl⟩)⟩
  have hop : (ProducerOp.spanStart (some args)).Valid m.base.1.1 := trivial
  refine ensures_call hmax hop (by nofun) fun hen hfew (s : OtelSpanRef) hs => ?_
  have hgives := gives_spanStart hs
  by_cases hnull : s = otelSpanNone
  · subst hnull
    rw [if_pos rfl] at hgives
    refine hnone ?_
    rw [own_eq_other garbage hgives] at hfew ⊢
    refine ⟨h.next hen hfew ?_, rfl⟩
    have hacts : clientActs m.base.1.1 m.log (m.callOf env (.spanStart (some args))) = [] := by
      change (if ((m.callOf env (.spanStart (some args))).gives m.base.1.1).isSome = true
        then _ else _) = _
      rw [hgives]
      rfl
    rw [hacts]
    exact h.portion
  · rw [if_neg hnull] at hgives
    obtain ⟨hnew, hhosted⟩ := h.start hen rfl hfew hgives
    refine ⟨?_, ?_, hnew⟩
    · rw [if_neg hnull]
      exact hhosted
    · rw [if_neg hnull]
      change m.mine ++ (_ : Option OtelSpanRef).toList = _
      rw [hgives, Option.toList_some]

/-- An end or a discard of a span that is the module's, or of none. -/
theorem ensures_gone (h : Hosted garbage m t) (hmax : env.maxOpenSpans ≤ maxOpenSpansMax)
    {op : ProducerOp} (hvalid : ref.Issued → op.Valid m.base.1.1) (hhandle : op.handle = some ref)
    (hgives : (m.callOf env op).gives m.base.1.1 = none) {t' : Spans} (hmem : ref ∈ m.mine)
    (hnext : (clientRuns garbage).enabled m.base (m.callOf env op) →
      (m.other garbage (m.callOf env op)).Few → Hosted garbage (m.other garbage (m.callOf env op)) t') :
    Ensures (servedModule garbage env) (otelProducerApi op) (fun _ m' => Keeps garbage m m' t') m := by
  refine ensures_call hmax (hvalid (h.issued hmem)) (fun r hr => ?_) fun hen hfew _ _ => ?_
  · rw [hhandle] at hr
    exact .inr (Option.some.inj hr ▸ h.given ref hmem)
  · rw [own_eq_other garbage hgives] at hfew ⊢
    exact ⟨hnext hen hfew, rfl⟩

theorem ensures_otelSpanEndAt (h : Hosted garbage m t) (hmax : env.maxOpenSpans ≤ maxOpenSpansMax)
    (hcrit : env.critSectionCount = 0) (hmem : ref.v = 0 ∨ ref ∈ m.mine) (endTime : TimestampTz) :
    Ensures (servedModule garbage env) (otelSpanEndAt ref endTime)
      (fun _ m' => Keeps garbage m m' (t.finish (numbered m.mine ref))) m := by
  refine (ensures_ite _ _ _ _ _ _).2 ⟨fun hv => ?_, fun hv => (ensures_pure _ _ _ _).2 ⟨?_, rfl⟩⟩
  · have hmem := hmem.resolve_left hv
    exact h.ensures_gone hmax id rfl rfl hmem fun hen hfew => h.finish hen rfl hcrit hfew hmem
  · rw [h.numbered_null (not_not.1 hv), Spans.finish, if_pos rfl]
    exact h

theorem ensures_otelSpanDiscard (h : Hosted garbage m t) (hmax : env.maxOpenSpans ≤ maxOpenSpansMax)
    (hcrit : env.critSectionCount = 0) (hmem : ref.v = 0 ∨ ref ∈ m.mine) :
    Ensures (servedModule garbage env) (otelSpanDiscard ref)
      (fun _ m' => Keeps garbage m m' (t.discard (numbered m.mine ref))) m := by
  refine (ensures_ite _ _ _ _ _ _).2 ⟨fun hv => ?_, fun hv => (ensures_pure _ _ _ _).2 ⟨?_, rfl⟩⟩
  · have hmem := hmem.resolve_left hv
    exact h.ensures_gone hmax id rfl rfl hmem fun hen hfew => h.discard hen rfl hcrit hfew hmem
  · rw [h.numbered_null (not_not.1 hv), Spans.discard, if_pos rfl]
    exact h

end Hosted

end PostgresOtel
