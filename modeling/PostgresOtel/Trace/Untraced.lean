import PostgresOtel.Trace.Requests

/-!
# Untraced work

Runs of hook calls, with the log of what they asked `otel_span_start` for.  With
`otel.trace_all_queries` off a statement or a phase asks for nothing in an untraced moment, and the
begin walk comes only after a statement that did.  The end walk and the hook of a foreign scan have
no such gate.
-/

set_option autoImplicit false

namespace PostgresOtel

open KeyedStack TraceSt

/-! ## The calls -/

/-- The hooks and callbacks, with the handles that the calls of `otel_span_start` returned.
`walked` is what the begin walk finds, and `planspans` and `fdw` are its answers for the nodes. -/
inductive HookCall
  | executorStart (query : Ptr) (isCursor : Bool) (stmtSpan : OtelSpanRef) (walked : Surroundings)
      (plan : PlanState) (planspans fdw : Ptr → OtelSpanRef)
  | executorEnd (query : Ptr) (plan : PlanState)
  | utilityBegin (token : Ptr) (toplevel : Bool) (name : Option CString) (span : OtelSpanRef)
  | utilityEnd (token : Ptr)
  | foreignScanBegin (node : Ptr) (span : OtelSpanRef)
  | foreignScanEnd (node : Ptr)
  | xactCallback (event : XactEvent)
  | subxactCallback (event : SubXactEvent) (currentLevel : ℕ)
  | probe (a : SdtAct)

/-- A call with what it finds. -/
structure HookStep where
  found : Surroundings
  gucs : TraceGucs
  nest : NestLevel
  call : HookCall

/-- The static variables of the module, and what was asked of the producer so far. -/
structure HookSt where
  trace : TraceSt := {}
  sdt : SdtSt := {}
  starts : List (Surroundings × OtelSpanStartArgs) := []

/-- A call of `otel_span_start` reaches the producer unless nothing can record. -/
def asked (m : Surroundings) (args : Option OtelSpanStartArgs) :
    List (Surroundings × OtelSpanStartArgs) :=
  if otelRecordingPossible m.env then (args.map fun a => (m, a)).toList else []

section Walks

variable (build : FdwBuild) (m : Surroundings) (gucs : TraceGucs) (stmtSpan : OtelSpanRef)

/-- The collectors that start spans see a node begin: the one of `otel_fdw.c`, if it is one, is
registered first. -/
def beginVisit (nest : NestLevel) (planspans fdw : Ptr → OtelSpanRef)
    (ancestors : List PlanStateInfo) (n : PlanStateInfo)
    (w : TraceSt × List (Surroundings × OtelSpanStartArgs)) :
    TraceSt × List (Surroundings × OtelSpanStartArgs) :=
  let scanned := if build = .planWalk ∧ n.tag = .foreignScanState then
    (w.1.otelFdwScanBegin n.ptr (fdw n.ptr) nest, w.2 ++ asked m (otelFdwScanStart m w.1)) else w
  if gucs.tracePlanChildSpans then
    (scanned.1.planspansNodeBegin n.ptr n.tag (planspans n.ptr) nest,
      scanned.2 ++ asked m (planspansBeginStart m scanned.1 ancestors n stmtSpan))
  else
    scanned

/-- The collectors see a node end. -/
def endVisit (ancestors : List PlanStateInfo) (n : PlanStateInfo)
    (w : TraceSt × List (Surroundings × OtelSpanStartArgs)) :
    TraceSt × List (Surroundings × OtelSpanStartArgs) :=
  let scanned := if build = .planWalk ∧ n.tag = .foreignScanState then
    (w.1.otelFdwScanEnd n.ptr, w.2) else w
  if gucs.tracePlanChildSpans then
    (scanned.1.planspansNodeEnd n.ptr n.tag,
      scanned.2 ++ asked m (planspansEndStart m scanned.1 ancestors n stmtSpan))
  else
    scanned

end Walks

/-- A hook call: the bookkeeping after it and what it asked for. -/
def HookSt.calls (build : FdwBuild) (s : HookSt) (x : HookStep) :
    TraceSt × List (Surroundings × OtelSpanStartArgs) :=
  match x.call with
  | .executorStart query isCursor stmtSpan walked plan planspans fdw =>
    let started := ((s.trace.pushStmtSpan query stmtSpan isCursor x.nest).1,
      asked x.found (startStmtSpan x.found x.gucs s.trace (some (cstr "pgsql.execute")) isCursor))
    if otelSpanRecording stmtSpan then
      plan.walk (beginVisit build walked x.gucs stmtSpan x.nest planspans fdw) [] started
    else
      started
  | .executorEnd query plan =>
    let popped := s.trace.popStmtSpan query
    plan.walk (endVisit build x.found x.gucs popped.2) [] (popped.1, [])
  | .utilityBegin token toplevel name span =>
    if toplevel then
      ((s.trace.pushStmtSpan token span false x.nest).1,
        asked x.found (startStmtSpan x.found x.gucs s.trace name false))
    else
      (s.trace, [])
  | .utilityEnd token => ((s.trace.popStmtSpan token).1, [])
  | .foreignScanBegin node span =>
    (s.trace.otelFdwScanBegin node span x.nest, asked x.found (otelFdwScanStart x.found s.trace))
  | .foreignScanEnd node => (s.trace.otelFdwScanEnd node, [])
  | .xactCallback event => (s.trace.otelPgtracingXactCallback event, [])
  | .subxactCallback event currentLevel =>
    (s.trace.otelPgtracingSubxactCallback event currentLevel, [])
  | .probe (.phaseStart phase env) => (s.trace, asked x.found (sdtPhaseStart x.found phase env s.sdt))
  | .probe (.sortStart env) => (s.trace, asked x.found (sdtSortStart x.found env s.sdt))
  | .probe _ => (s.trace, [])

def HookSt.next (build : FdwBuild) (s : HookSt) (x : HookStep) : HookSt where
  trace := (s.calls build x).1
  sdt := match x.call with
    | .probe a => s.sdt.next a
    | _ => s.sdt
  starts := s.starts ++ (s.calls build x).2

/-- What core promises of a call: the executor leaves the spans and settings alone between the start
of a statement and the begin walk, the nodes of a plan are different objects, and the probe hook is
told what it asks for.  A handle answers a request. -/
def HookStep.Enabled (build : FdwBuild) (s : HookSt) (x : HookStep) : Prop :=
  match x.call with
  | .executorStart _ isCursor stmtSpan walked _ _ _ =>
    (stmtSpan.v ≠ 0 → asked x.found
      (startStmtSpan x.found x.gucs s.trace (some (cstr "pgsql.execute")) isCursor) ≠ []) ∧
    walked.env = x.found.env ∧ x.found.life.spanStack <:+ walked.life.spanStack
  | .executorEnd _ plan => (plan.infos.map fun n => n.ptr.addr).Nodup
  | .foreignScanBegin _ _ | .foreignScanEnd _ => build = .coreHooks
  | .probe (.phaseStart _ env) | .probe (.sortStart env) => env.hasContext = x.found.haveContext
  | _ => True

/-- The hooks of the module, in one backend. -/
def hooks (build : FdwBuild) : Machine HookSt HookStep where
  init := {}
  enabled s x := x.Enabled build s
  next := HookSt.next build

/-! ## Untraced moments -/

section

variable {build : FdwBuild} {m : Surroundings} {gucs : TraceGucs} {t : TraceSt}

theorem asked_none (m : Surroundings) : asked m none = [] := by
  unfold asked
  split_ifs <;> rfl

theorem asked_eq_nil_iff (m : Surroundings) (args : Option OtelSpanStartArgs) :
    asked m args = [] ↔ (otelRecordingPossible m.env = true → args = none) := by
  unfold asked
  cases args <;> simp

theorem mem_asked {m : Surroundings} {args : Option OtelSpanStartArgs}
    {e : Surroundings × OtelSpanStartArgs} (h : e ∈ asked m args) : e.1 = m := by
  unfold asked at h
  cases args with
  | none => simp at h
  | some a =>
    split_ifs at h
    · obtain rfl := List.mem_singleton.1 h
      rfl
    · exact absurd h List.not_mem_nil

/-- No statement asks for a span in an untraced moment. -/
theorem Surroundings.Untraced.startStmtSpan_eq (h : m.Untraced) (hgucs : gucs.traceAllQueries = false)
    (t : TraceSt) (name : Option CString) (detached : Bool) :
    startStmtSpan m gucs t name detached = none :=
  if_pos ⟨m.haveContext_eq_false_iff.2 h, hgucs⟩

/-- No phase does. -/
theorem Surroundings.Untraced.sdtPhaseStart_eq (h : m.Untraced) {env : SdtEnv}
    (henv : env.hasContext = m.haveContext) (phase : SdtPhase) (s : SdtSt) :
    sdtPhaseStart m phase env s = none := by
  apply if_neg
  simp [SdtSt.startPushes, SdtSt.pushes, henv, m.haveContext_eq_false_iff.2 h]

theorem Surroundings.Untraced.sdtSortStart_eq (h : m.Untraced) {env : SdtEnv}
    (henv : env.hasContext = m.haveContext) (s : SdtSt) : sdtSortStart m env s = none := by
  apply if_neg
  simp [henv, m.haveContext_eq_false_iff.2 h]

/-- A foreign scan asks whenever there is room. -/
theorem otelFdwScanStart_eq_none_iff :
    otelFdwScanStart m t = none ↔ otelFdwScanStackMax ≤ t.fdwScanStack.length := by
  unfold otelFdwScanStart
  split_ifs with hfull <;> simp [hfull]

/-- A sort asks in the end walk if it ran. -/
theorem planspansEndStart_eq_none_iff {ancestors : List PlanStateInfo} {n : PlanStateInfo}
    {stmtSpan : OtelSpanRef} : planspansEndStart m t ancestors n stmtSpan = none ↔
      (n.tag = .sortState ∨ n.tag = .incrementalSortState → sortRan t n = false) := by
  unfold planspansEndStart
  by_cases hsort : n.tag = .sortState ∨ n.tag = .incrementalSortState
  · cases hran : sortRan t n <;> simp [hsort]
  · simp [hsort]

/-! ## The walks -/

/-- The begin walk asks in its own surroundings. -/
theorem mem_beginWalk {stmtSpan : OtelSpanRef} {nest : NestLevel}
    {planspans fdw : Ptr → OtelSpanRef} (plan : PlanState)
    {w : TraceSt × List (Surroundings × OtelSpanStartArgs)} {e : Surroundings × OtelSpanStartArgs}
    (h : e ∈ (plan.walk (beginVisit build m gucs stmtSpan nest planspans fdw) [] w).2) :
    e ∈ w.2 ∨ e.1 = m := by
  rw [PlanState.walk_eq_foldl] at h
  generalize plan.visits [] = visits at h
  induction visits generalizing w with
  | nil => exact .inl h
  | cons v visits ih =>
    rcases ih h with hw | hm
    · simp only [beginVisit] at hw
      split_ifs at hw
      · rcases List.mem_append.1 hw with hw | hw
        · rcases List.mem_append.1 hw with hw | hw
          · exact .inl hw
          · exact .inr (mem_asked hw)
        · exact .inr (mem_asked hw)
      · rcases List.mem_append.1 hw with hw | hw
        · exact .inl hw
        · exact .inr (mem_asked hw)
      · rcases List.mem_append.1 hw with hw | hw
        · exact .inl hw
        · exact .inr (mem_asked hw)
      · exact .inl hw
    · exact .inr hm

variable (build m gucs) in
/-- What the end walk asks for at a node, and what it leaves of the wrappers. -/
theorem endVisit_snd (stmtSpan : OtelSpanRef) (ancestors : List PlanStateInfo) (n : PlanStateInfo)
    (w : TraceSt × List (Surroundings × OtelSpanStartArgs)) :
    ∃ t' : TraceSt, t'.sortwrapStack = w.1.sortwrapStack ∧
      (endVisit build m gucs stmtSpan ancestors n w).2 = w.2 ++ if gucs.tracePlanChildSpans then
        asked m (planspansEndStart m t' ancestors n stmtSpan) else [] := by
  unfold endVisit
  split_ifs
  · exact ⟨w.1.otelFdwScanEnd n.ptr, rfl, rfl⟩
  · exact ⟨w.1, rfl, (List.append_nil _).symm⟩
  · exact ⟨w.1, rfl, rfl⟩
  · exact ⟨w.1, rfl, (List.append_nil _).symm⟩

variable (build m gucs) in
theorem endVisit_sortwrap (stmtSpan : OtelSpanRef) (ancestors : List PlanStateInfo)
    (n : PlanStateInfo) (w : TraceSt × List (Surroundings × OtelSpanStartArgs)) :
    (endVisit build m gucs stmtSpan ancestors n w).1.sortwrapStack = w.1.sortwrapStack ∨
      (endVisit build m gucs stmtSpan ancestors n w).1.sortwrapStack =
        remove SortwrapEntry.node n.ptr w.1.sortwrapStack := by
  unfold endVisit planspansNodeEnd otelFdwScanEnd
  dsimp only
  split_ifs <;> first | exact .inl rfl | exact .inr rfl

theorem sortRan_congr {t' : TraceSt} {n : PlanStateInfo}
    (h : t'.sortwrapFind n.ptr = t.sortwrapFind n.ptr) : sortRan t' n = sortRan t n := by
  unfold sortRan
  rw [h]

variable (build m gucs) in
/-- The ends of nodes at different addresses: each asks as it would have at first. -/
theorem endVisits_eq (stmtSpan : OtelSpanRef) {visits : List (List PlanStateInfo × PlanStateInfo)}
    (hnodup : (visits.map fun v => v.2.ptr.addr).Nodup)
    (w : TraceSt × List (Surroundings × OtelSpanStartArgs)) : ∃ new,
      (visits.foldl (fun w v => endVisit build m gucs stmtSpan v.1 v.2 w) w).2 = w.2 ++ new ∧
      (new = [] ↔ (gucs.tracePlanChildSpans = true → otelRecordingPossible m.env = true →
        ∀ v ∈ visits, v.2.tag = .sortState ∨ v.2.tag = .incrementalSortState →
          sortRan w.1 v.2 = false)) := by
  induction visits generalizing w with
  | nil => exact ⟨[], (List.append_nil _).symm, by simp⟩
  | cons v visits ih =>
    obtain ⟨hv, hnodup⟩ := List.nodup_cons.1 hnodup
    obtain ⟨t', ht', hsnd⟩ := endVisit_snd build m gucs stmtSpan v.1 v.2 w
    obtain ⟨new, hnew, hiff⟩ := ih hnodup (endVisit build m gucs stmtSpan v.1 v.2 w)
    have hhere : sortRan t' v.2 = sortRan w.1 v.2 := by
      apply sortRan_congr
      rw [sortwrapFind, sortwrapFind, ht']
    have hlater : ∀ u ∈ visits,
        sortRan (endVisit build m gucs stmtSpan v.1 v.2 w).1 u.2 = sortRan w.1 u.2 := by
      intro u hu
      have haddr : u.2.ptr.addr ≠ v.2.ptr.addr := by
        intro heq
        exact hv (List.mem_map.2 ⟨u, hu, heq⟩)
      apply sortRan_congr
      rw [sortwrapFind, sortwrapFind]
      rcases endVisit_sortwrap build m gucs stmtSpan v.1 v.2 w with
        hsame | hremoved
      · rw [hsame]
      · rw [hremoved, find_remove haddr]
    refine ⟨(if gucs.tracePlanChildSpans then asked m (planspansEndStart m t' v.1 v.2 stmtSpan)
      else []) ++ new, ?_, ?_⟩
    · rw [List.foldl_cons, hnew, hsnd, List.append_assoc]
    · rw [List.append_eq_nil_iff, hiff]
      constructor
      · rintro ⟨hfirst, hrest⟩ hspans hpossible
        rw [if_pos hspans, asked_eq_nil_iff] at hfirst
        rw [List.forall_mem_cons]
        refine ⟨fun htag => ?_, fun u hu htag => ?_⟩
        · exact hhere ▸ planspansEndStart_eq_none_iff.1 (hfirst hpossible) htag
        · exact hlater u hu ▸ hrest hspans hpossible u hu htag
      · intro h
        constructor
        · split_ifs with hspans
          · rw [asked_eq_nil_iff]
            intro hpossible
            exact planspansEndStart_eq_none_iff.2 fun htag =>
              hhere.trans (h hspans hpossible v List.mem_cons_self htag)
          · rfl
        · exact fun hspans hpossible u hu htag =>
            (hlater u hu).trans (h hspans hpossible u (List.mem_cons_of_mem _ hu) htag)

/-- The end walk of a plan of different nodes asks for nothing unless a sort ran. -/
theorem endWalk_eq_iff {stmtSpan : OtelSpanRef} {plan : PlanState}
    (hnodup : (plan.infos.map fun n => n.ptr.addr).Nodup)
    (t : TraceSt) : (plan.walk (endVisit build m gucs stmtSpan) [] (t, [])).2 = [] ↔
      (gucs.tracePlanChildSpans = true → otelRecordingPossible m.env = true → ∀ n ∈ plan.infos,
        n.tag = .sortState ∨ n.tag = .incrementalSortState → sortRan t n = false) := by
  have hvisits : ((plan.visits []).map fun v => v.2.ptr.addr).Nodup := by
    rw [PlanState.infos, List.map_map] at hnodup
    exact hnodup
  obtain ⟨new, hnew, hiff⟩ := endVisits_eq build m gucs stmtSpan hvisits
    (t, [])
  rw [PlanState.walk_eq_foldl, hnew, List.nil_append, hiff]
  simp only [PlanState.infos, List.forall_mem_map]

end

/-! ## What holds along runs -/

/-- In an untraced moment: no sort that ran is in a plan that ends while child spans are on, and no
foreign scan begins in a hook of its own unless its stack is full. -/
def HookStep.Quiet (s : HookSt) (x : HookStep) : Prop :=
  x.found.Untraced → otelRecordingPossible x.found.env = true →
    match x.call with
    | .executorEnd _ plan => x.gucs.tracePlanChildSpans = true → ∀ n ∈ plan.infos,
        n.tag = .sortState ∨ n.tag = .incrementalSortState → sortRan s.trace n = false
    | .foreignScanBegin _ _ => otelFdwScanStackMax ≤ s.trace.fdwScanStack.length
    | _ => True

theorem mem_endWalk {build : FdwBuild} {m : Surroundings} {gucs : TraceGucs}
    {stmtSpan : OtelSpanRef} {plan : PlanState}
    {w : TraceSt × List (Surroundings × OtelSpanStartArgs)} {e : Surroundings × OtelSpanStartArgs}
    (h : e ∈ (plan.walk (endVisit build m gucs stmtSpan) [] w).2) : e ∈ w.2 ∨ e.1 = m := by
  rw [PlanState.walk_eq_foldl] at h
  generalize plan.visits [] = visits at h
  induction visits generalizing w with
  | nil => exact .inl h
  | cons v visits ih =>
    rcases ih h with hw | hm
    · obtain ⟨t', -, hsnd⟩ := endVisit_snd build m gucs stmtSpan v.1 v.2 w
      rw [hsnd] at hw
      rcases List.mem_append.1 hw with hw | hw
      · exact .inl hw
      · split_ifs at hw
        · exact .inr (mem_asked hw)
        · exact absurd hw List.not_mem_nil
    · exact .inr hm

/-- Where everything is asked for in one place, nothing may be asked for in an untraced moment. -/
theorem forall_not_untraced_iff {m : Surroundings} {l : List (Surroundings × OtelSpanStartArgs)}
    (h : ∀ e ∈ l, e.1 = m) : (∀ e ∈ l, ¬ e.1.Untraced) ↔ (m.Untraced → l = []) := by
  constructor
  · intro hnone hm
    exact List.eq_nil_iff_forall_not_mem.2 fun e he => hnone e he (h e he ▸ hm)
  · intro hnil e he hm
    rw [h e he] at hm
    rw [hnil hm] at he
    exact absurd he List.not_mem_nil

/-- The begin walk finds a context if the start of the statement did. -/
theorem not_untraced_walked {m walked : Surroundings} (henv : walked.env = m.env)
    (hstack : m.life.spanStack <:+ walked.life.spanStack) (hm : ¬ m.Untraced) :
    ¬ walked.Untraced := by
  rintro ⟨hempty, hroot, hleader⟩
  rw [hempty, List.suffix_nil] at hstack
  exact hm ⟨hstack, henv ▸ hroot, henv ▸ hleader⟩

/-- With `otel.trace_all_queries` off a call asks for no span in an untraced moment, if and only if
it is quiet. -/
theorem quiet_iff {build : FdwBuild} {s : HookSt} {x : HookStep} (hen : x.Enabled build s)
    (hgucs : x.gucs.traceAllQueries = false) :
    (∀ e ∈ (s.calls build x).2, ¬ e.1.Untraced) ↔ x.Quiet s := by
  obtain ⟨m, gucs, nest, call⟩ := x
  have hone (args : Option OtelSpanStartArgs) (hargs : m.Untraced → args = none) :
      (∀ e ∈ asked m args, ¬ e.1.Untraced) ↔
        (m.Untraced → otelRecordingPossible m.env = true → True) := by
    rw [forall_not_untraced_iff fun e he => mem_asked he]
    refine iff_of_true (fun hm => ?_) fun _ _ => trivial
    rw [hargs hm, asked_none]
  have hnothing : (∀ e ∈ ([] : List (Surroundings × OtelSpanStartArgs)), ¬ e.1.Untraced) ↔
      (m.Untraced → otelRecordingPossible m.env = true → True) :=
    iff_of_true (fun _ he => absurd he List.not_mem_nil) fun _ _ => trivial
  cases call with
  | executorStart query isCursor stmtSpan walked plan planspans fdw =>
    obtain ⟨hanswer, henv, hstack⟩ := hen
    refine iff_of_true (fun e he hun => ?_) fun _ _ => trivial
    have hm : ¬ m.Untraced := by
      intro hm
      rw [hm.startStmtSpan_eq hgucs, asked_none] at hanswer
      have hnull : stmtSpan.v = 0 := by
        by_contra hne
        exact hanswer hne rfl
      have hnot : otelSpanRecording stmtSpan = false := by simp [otelSpanRecording, hnull]
      simp only [HookSt.calls, hnot, hm.startStmtSpan_eq hgucs, asked_none, Bool.false_eq_true,
        if_false] at he
      exact absurd he List.not_mem_nil
    simp only [HookSt.calls] at he
    split_ifs at he
    · rcases mem_beginWalk plan he with he | he
      · exact hm (mem_asked he ▸ hun)
      · exact not_untraced_walked henv hstack hm (he ▸ hun)
    · exact hm (mem_asked he ▸ hun)
  | executorEnd query plan =>
    have hmem : ∀ e ∈ (plan.walk (endVisit build m gucs (s.trace.popStmtSpan query).2) []
        ((s.trace.popStmtSpan query).1, [])).2, e.1 = m :=
      fun e he => (mem_endWalk he).resolve_left List.not_mem_nil
    refine (forall_not_untraced_iff hmem).trans ?_
    rw [endWalk_eq_iff hen]
    exact ⟨fun h hm hpossible hspans => h hm hspans hpossible,
      fun h hm hspans hpossible => h hm hpossible hspans⟩
  | utilityBegin token toplevel name span =>
    cases toplevel with
    | true => exact hone _ fun hm => hm.startStmtSpan_eq hgucs _ _ _
    | false => exact hnothing
  | foreignScanBegin node span =>
    refine (forall_not_untraced_iff fun e he => mem_asked he).trans ?_
    simp only [HookStep.Quiet, asked_eq_nil_iff, otelFdwScanStart_eq_none_iff]
  | probe a =>
    cases a with
    | phaseStart phase env => exact hone _ fun hm => hm.sdtPhaseStart_eq hen phase _
    | sortStart env => exact hone _ fun hm => hm.sdtSortStart_eq hen _
    | _ => exact hnothing
  | _ => exact hnothing

/-- The steps of the runs in which untraced work stays untraced. -/
def HookStep.KeepsUntraced (s : HookSt) (x : HookStep) : Prop :=
  x.gucs.traceAllQueries = false ∧ x.Quiet s

/-- In runs with `otel.trace_all_queries` off whose steps are quiet, nothing is ever started in an
untraced moment. -/
theorem untraced_work_starts_nothing {build : FdwBuild} {s : HookSt}
    (h : (hooks build).ReachBy HookStep.KeepsUntraced s) : ∀ e ∈ s.starts, ¬ e.1.Untraced := by
  apply Machine.ReachBy.invariant (I := fun s => ∀ e ∈ s.starts, ¬ e.1.Untraced) _ _ h
  · exact fun _ he => absurd he List.not_mem_nil
  · intro s x hs hen hok e he
    rcases List.mem_append.1 he with he | he
    · exact hs e he
    · exact (quiet_iff hen hok.1).2 hok.2 e he

/-! ## Single statements -/

/-- A backend that can record, with nothing open. -/
def idle : Surroundings :=
  { env := { emitHook := some fun _ => {} }, life := (initSt fun _ => {}).life }

theorem untraced_idle : idle.Untraced := ⟨rfl, rfl, fun h => by cases h⟩

/-- Its client has sent a context. -/
def idleWithRoot : Surroundings :=
  { idle with
    env := { idle.env with rootCtx := { isSet := true, ctx := { traceId := 1, spanId := 1 } } } }

/-- The statement's span has been started. -/
def inStatement : Surroundings :=
  { idleWithRoot with life := { idleWithRoot.life with spanStack := [⟨.slot 0, false, 1⟩] } }

def childSpansOn : TraceGucs := { tracePlanChildSpans := true }

/-- A function scan. -/
def functionScan : PlanState := .node { ptr := ⟨1, 1⟩, tag := .functionScanState } []

/-- The start of a traced statement with a function scan, and its end. -/
def tracedStatement : List HookStep :=
  [{ found := idleWithRoot
     gucs := childSpansOn
     nest := ⟨1, 0⟩
     call := .executorStart ⟨0, 0⟩ false (makeRef 1 0 true) inStatement functionScan
       (fun _ => makeRef 1 1 true) fun _ => otelSpanNone },
   { found := inStatement
     gucs := childSpansOn
     nest := ⟨1, 0⟩
     call := .executorEnd ⟨0, 0⟩ functionScan }]

/-- The query of `EXPLAIN ANALYZE`, which has its nodes timed, and a sort that ran. -/
def explainedSort : List HookStep :=
  [{ found := idle
     gucs := childSpansOn
     nest := ⟨1, 0⟩
     call := .executorStart ⟨0, 0⟩ false otelSpanNone idle
       (.node { ptr := ⟨1, 1⟩, tag := .sortState, instrument := some 0 } [])
       (fun _ => otelSpanNone) fun _ => otelSpanNone },
   { found := idle
     gucs := childSpansOn
     nest := ⟨1, 0⟩
     call := .executorEnd ⟨0, 0⟩
       (.node { ptr := ⟨1, 1⟩, tag := .sortState, instrument := some 1 } []) }]

/-- A foreign scan of an untraced query. -/
def foreignScan : List HookStep :=
  [{ found := idle
     gucs := {}
     nest := ⟨1, 0⟩
     call := .foreignScanBegin ⟨1, 1⟩ (makeRef 1 0 true) }]

theorem untraced_work_starts_nothing_tracedStatement :
    (tracedStatement.foldl (HookSt.next .planWalk) {}).starts.length = 2 ∧
      ∀ e ∈ (tracedStatement.foldl (HookSt.next .planWalk) {}).starts, ¬ e.1.Untraced := by
  have htraced : ¬ idleWithRoot.Untraced := fun h => by cases h.rootless
  have htraced' : ¬ inStatement.Untraced := fun h => by cases h.rootless
  have hrun : (hooks .planWalk).Admits HookStep.KeepsUntraced {} tracedStatement := by
    refine ⟨⟨fun _ => ?_, rfl, List.nil_suffix⟩, ⟨rfl, fun h => absurd h htraced⟩, ?_, ⟨rfl,
      fun h => absurd h htraced'⟩, trivial⟩
    · exact List.cons_ne_nil _ _
    · exact List.nodup_singleton _
  exact ⟨rfl, untraced_work_starts_nothing (Machine.ReachBy.run .init hrun)⟩

/-- With `otel.trace_all_queries` off and no context anywhere, the sort of an untraced
`EXPLAIN ANALYZE` begins a new trace in the end walk, and so does every foreign scan where core has
hooks for them. -/
theorem untraced_sort_begins_trace :
    ((hooks .planWalk).ReachBy (fun _ x => x.gucs.traceAllQueries = false)
        (explainedSort.foldl (HookSt.next .planWalk) {}) ∧
      ∃ e ∈ (explainedSort.foldl (HookSt.next .planWalk) {}).starts, e.1.Untraced ∧
        parentOf e.1.env e.2 e.1.life = some .none) ∧
    ((hooks .coreHooks).ReachBy (fun _ x => x.gucs.traceAllQueries = false)
        (foreignScan.foldl (HookSt.next .coreHooks) {}) ∧
      ∃ e ∈ (foreignScan.foldl (HookSt.next .coreHooks) {}).starts, e.1.Untraced ∧
        parentOf e.1.env e.2 e.1.life = some .none) := by
  refine ⟨⟨Machine.ReachBy.run .init ?_, ?_⟩, ⟨Machine.ReachBy.run .init ?_, ?_⟩⟩
  · exact ⟨⟨fun h => absurd rfl h, rfl, List.nil_suffix⟩, rfl, List.nodup_singleton _, rfl, trivial⟩
  · exact ⟨_, List.mem_singleton.2 rfl, untraced_idle, rfl⟩
  · exact ⟨rfl, rfl, trivial⟩
  · exact ⟨_, List.mem_singleton.2 rfl, untraced_idle, rfl⟩

end PostgresOtel
