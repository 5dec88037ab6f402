import PostgresOtel.Client.Module
import PostgresOtel.Sdt.Hook
import PostgresOtel.Sdt.Mask

/-!
# The bridge on the producer

Runs of the faithful hook on the producer, with other modules calling the producer in between, are runs
of the machine `sdt`: the handles in the static variables, numbered by the bridge's own starts, are
those of the machine, and the bridge's spans are open and have left as the machine says.
-/

set_option autoImplicit false

namespace PostgresOtel

open Exec Inline
open Script (Ensures ensures_pure ensures_bind ensures_ite)

/-! ## The faithful machine -/

def SdtHost.clientOrWorker (host : SdtHost) : Bool := host.hasMyProcPort || host.env.isParallelWorker

def SdtHost.inCritSection (host : SdtHost) : Bool := decide (0 < host.env.critSectionCount)

/-- The bridge with its variables, and the phases core is in, innermost first, each with whether it runs
in a critical section. -/
structure BridgeSt where
  module : ModuleSt
  vars : SdtVars := {}
  phases : List (SdtPhase × Bool) := []

inductive BridgeAct
  | phaseStart (phase : SdtPhase) (host : SdtHost) (args : List PgSdtArg)
  | phaseDone (host : SdtHost) (args : List PgSdtArg)
  | sortStart (host : SdtHost) (args : List PgSdtArg)
  | sortDone (host : SdtHost) (args : List PgSdtArg)
  | transactionStart (host : SdtHost) (args : List PgSdtArg)
  | transactionCommit (host : SdtHost) (args : List PgSdtArg)
  | abortTransaction (host : SdtHost) (args : List PgSdtArg) (unwinds : Bool)
  | errorWithoutAbort
  | caughtError (ended : ℕ)
  | setProbes (tokens : List CString)
  | recoveryXactCommit (host : SdtHost) (args : List PgSdtArg)
  /-- A statement span starts. -/
  | stmtStarted (env : Env) (s : OtelSpanRef)
  /-- Another module calls the producer, or core does. -/
  | other (call : Call)

namespace BridgeSt

variable (garbage : ℕ → OtelSlot)

/-- Code of the bridge runs to its end. -/
def Returns {α : Type} (env : Env) (x : Api α) (q : BridgeSt) : Prop :=
  (x.run (moduleServer garbage env) q.module).1.isSome = true

instance {α : Type} (env : Env) (x : Api α) (q : BridgeSt) : Decidable (Returns garbage env x q) :=
  inferInstanceAs (Decidable (_ = true))

def runs (env : Env) (x : Api SdtVars) (q : BridgeSt) : BridgeSt :=
  let out := x.run (moduleServer garbage env) q.module
  { q with module := out.2, vars := out.1.getD q.vars }

/-- The probe, and what `AbortTransaction` calls after it. -/
def abortCode (host : SdtHost) (args : List PgSdtArg) (v : SdtVars) : Api SdtVars := do
  let v ← fireProbe host .transactionAbort args v
  sdtXactCbAbort v

def next (q : BridgeSt) : BridgeAct → BridgeSt
  | .phaseStart phase host args =>
    { q.runs garbage host.env (fireProbe host (.phaseStart phase) args q.vars) with
      phases := (phase, host.inCritSection) :: q.phases }
  | .phaseDone host args =>
    match q.phases with
    | p :: ps => { q.runs garbage host.env (fireProbe host (.phaseDone p.1) args q.vars) with phases := ps }
    | [] => q
  | .sortStart host args => q.runs garbage host.env (fireProbe host .sortStart args q.vars)
  | .sortDone host args => q.runs garbage host.env (fireProbe host .sortDone args q.vars)
  | .transactionStart host args => q.runs garbage host.env (fireProbe host .transactionStart args q.vars)
  | .transactionCommit host args => q.runs garbage host.env (fireProbe host .transactionCommit args q.vars)
  | .abortTransaction host args unwinds =>
    let aborted := q.runs garbage host.env (abortCode host args q.vars)
    if unwinds then { aborted with phases := [] } else aborted
  | .errorWithoutAbort => { q with phases := [] }
  | .caughtError ended => { q with phases := q.phases.drop ended }
  | .setProbes tokens =>
    match sdtProbesParse tokens with
    | some mask => { q with vars := q.vars.sdtProbesAssignHook mask }
    | none => q
  | .recoveryXactCommit host args =>
    q.runs garbage host.env (fireProbe host .recoveryXactCommit args q.vars)
  | .stmtStarted env s =>
    { q with module := ((linkStmtSpan s q.vars).run (moduleServer garbage env) q.module).2 }
  | .other call => { q with module := q.module.other garbage call }

/-- A probe fires in a process of this kind, and its hook returns. -/
def Fires (clientOrWorker : Bool) (host : SdtHost) (id : PgSdtProbeId) (args : List PgSdtArg)
    (q : BridgeSt) : Prop :=
  host.clientOrWorker = clientOrWorker ∧ host.env.maxOpenSpans ≤ maxOpenSpansMax ∧
    q.Returns garbage host.env (fireProbe host id args q.vars)

/-- Phases end in the critical section they began in, and transactions outside of one; other modules
leave the bridge's spans alone. -/
def Enabled (clientOrWorker : Bool) (q : BridgeSt) : BridgeAct → Prop
  | .phaseStart phase host args => q.Fires garbage clientOrWorker host (.phaseStart phase) args
  | .phaseDone host args => ∃ p ps, q.phases = p :: ps ∧ host.inCritSection = p.2 ∧
      q.Fires garbage clientOrWorker host (.phaseDone p.1) args
  | .sortStart host args => q.Fires garbage clientOrWorker host .sortStart args
  | .sortDone host args => q.Fires garbage clientOrWorker host .sortDone args
  | .transactionStart host args =>
    host.inCritSection = false ∧ q.Fires garbage clientOrWorker host .transactionStart args
  | .transactionCommit host args =>
    host.inCritSection = false ∧ q.Fires garbage clientOrWorker host .transactionCommit args
  | .abortTransaction host args _ =>
    host.inCritSection = false ∧ host.clientOrWorker = clientOrWorker ∧
      host.env.maxOpenSpans ≤ maxOpenSpansMax ∧ q.Returns garbage host.env (abortCode host args q.vars)
  | .recoveryXactCommit host args => q.Fires garbage clientOrWorker host .recoveryXactCommit args
  | .stmtStarted env s =>
    env.maxOpenSpans ≤ maxOpenSpansMax ∧ q.Returns garbage env (linkStmtSpan s q.vars)
  | .other call =>
    (clientRuns garbage).enabled q.module.base call ∧ ∀ ref ∈ call.op.handle, ref ∉ q.module.mine
  | .errorWithoutAbort | .caughtError _ | .setProbes _ => True

end BridgeSt

/-- The bridge among other modules, in one backend. -/
def bridge (garbage : ℕ → OtelSlot) (clientOrWorker : Bool) : Machine BridgeSt BridgeAct where
  init := { module := { base := (clientRuns garbage).init } }
  enabled := BridgeSt.Enabled garbage clientOrWorker
  next := BridgeSt.next garbage

/-! ## The relation -/

/-- The handles in the variables. -/
def SdtVars.refs (v : SdtVars) : List OtelSpanRef :=
  v.txnSpan :: (v.sdtStack.map Prod.fst ++ v.sortStack)

/-- `a` has the handles of the variables under their numbers. -/
structure SdtVars.Numbered (mine : List OtelSpanRef) (v : SdtVars) (a : SdtSt) : Prop where
  sdtStack : a.sdtStack = v.sdtStack.map fun e => (numbered mine e.1, e.2)
  sortStack : a.sortStack = v.sortStack.map (numbered mine)
  txnSpan : a.txnSpan = numbered mine v.txnSpan
  wantedMask : a.wantedMask = v.wantedMask
  enabledMask : a.enabledMask = v.enabledMask
  held : ∀ ref ∈ v.refs, ref.v = 0 ∨ ref ∈ mine

/-- The bridge's variables and spans are those of `a`. -/
structure Bridges (garbage : ℕ → OtelSlot) (m : ModuleSt) (v : SdtVars) (a : SdtSt) : Prop where
  hosted : Hosted garbage m a.spans
  vars : v.Numbered m.mine a

namespace SdtVars.Numbered

variable {mine : List OtelSpanRef} {v : SdtVars} {a : SdtSt} {s : OtelSpanRef} {phase : SdtPhase}

theorem withSpans (h : v.Numbered mine a) (spans : Spans) : v.Numbered mine { a with spans } :=
  ⟨h.sdtStack, h.sortStack, h.txnSpan, h.wantedMask, h.enabledMask, h.held⟩

theorem held_txnSpan (h : v.Numbered mine a) : v.txnSpan.v = 0 ∨ v.txnSpan ∈ mine :=
  h.held _ List.mem_cons_self

theorem held_stacks (h : v.Numbered mine a) :
    ∀ ref ∈ v.sdtStack.map Prod.fst ++ v.sortStack, ref.v = 0 ∨ ref ∈ mine := fun ref hmem =>
  h.held ref (List.mem_cons_of_mem _ hmem)

/-- The slot is empty where its number says so. -/
theorem txnSpan_zero (h : v.Numbered mine a) (hnull : ∀ ref ∈ mine, ref.v ≠ 0) :
    a.txnSpan.v = 0 ↔ v.txnSpan.v = 0 := by
  rw [h.txnSpan, numbered_eq_zero_iff]
  exact ⟨fun hnot => h.held_txnSpan.resolve_right hnot, fun hv hmem => hnull _ hmem hv⟩

/-- Old handles keep their numbers. -/
theorem append (h : v.Numbered mine a) (hnull : ∀ ref ∈ mine ++ [s], ref.v ≠ 0) :
    v.Numbered (mine ++ [s]) a := by
  have hnumber (ref : OtelSpanRef) (hheld : ref.v = 0 ∨ ref ∈ mine) :
      numbered (mine ++ [s]) ref = numbered mine ref := by
    rcases hheld with hv | hmem
    · have hnot : ref ∉ mine ++ [s] := fun hmem => hnull ref hmem hv
      rw [numbered_of_not_mem hnot,
        numbered_of_not_mem fun hmem => hnot (List.mem_append_left _ hmem)]
    · exact numbered_concat_of_mem hmem
  refine ⟨?_, ?_, ?_, h.wantedMask, h.enabledMask, fun ref hmem => ?_⟩
  · rw [h.sdtStack]
    refine List.map_congr_left fun e he => ?_
    rw [hnumber e.1 (h.held_stacks _ (List.mem_append_left _ (List.mem_map_of_mem he)))]
  · rw [h.sortStack]
    exact List.map_congr_left fun r hr => (hnumber r (h.held_stacks _ (List.mem_append_right _ hr))).symm
  · rw [h.txnSpan, hnumber _ h.held_txnSpan]
  · exact (h.held ref hmem).imp_right (List.mem_append_left _)

theorem setTxnSpan (h : v.Numbered mine a) (hheld : s.v = 0 ∨ s ∈ mine) :
    { v with txnSpan := s }.Numbered mine { a with txnSpan := numbered mine s } where
  sdtStack := h.sdtStack
  sortStack := h.sortStack
  txnSpan := rfl
  wantedMask := h.wantedMask
  enabledMask := h.enabledMask
  held := List.forall_mem_cons.2 ⟨hheld, h.held_stacks⟩

theorem push (h : v.Numbered mine a) (hheld : s.v = 0 ∨ s ∈ mine) (phase : SdtPhase) :
    { v with sdtStack := (s, phase) :: v.sdtStack }.Numbered mine
      { a with sdtStack := (numbered mine s, phase) :: a.sdtStack } where
  sdtStack := congrArg _ h.sdtStack
  sortStack := h.sortStack
  txnSpan := h.txnSpan
  wantedMask := h.wantedMask
  enabledMask := h.enabledMask
  held := List.forall_mem_cons.2 ⟨h.held_txnSpan, List.forall_mem_cons.2 ⟨hheld, h.held_stacks⟩⟩

theorem pushSort (h : v.Numbered mine a) (hheld : s.v = 0 ∨ s ∈ mine) :
    { v with sortStack := s :: v.sortStack }.Numbered mine
      { a with sortStack := numbered mine s :: a.sortStack } where
  sdtStack := h.sdtStack
  sortStack := congrArg _ h.sortStack
  txnSpan := h.txnSpan
  wantedMask := h.wantedMask
  enabledMask := h.enabledMask
  held := by
    obtain ⟨hstack, hsorts⟩ := List.forall_mem_append.1 h.held_stacks
    exact List.forall_mem_cons.2
      ⟨h.held_txnSpan, List.forall_mem_append.2 ⟨hstack, List.forall_mem_cons.2 ⟨hheld, hsorts⟩⟩⟩

/-- Stacks that are left shorter on both sides. -/
theorem shrink (h : v.Numbered mine a) {stack : List (OtelSpanRef × SdtPhase)} {sorts : List OtelSpanRef}
    (hstack : stack ⊆ v.sdtStack) (hsorts : sorts ⊆ v.sortStack) :
    { v with sdtStack := stack, sortStack := sorts }.Numbered mine
      { a with
        sdtStack := stack.map fun e : OtelSpanRef × SdtPhase => (numbered mine e.1, e.2)
        sortStack := sorts.map (numbered mine) } where
  sdtStack := rfl
  sortStack := rfl
  txnSpan := h.txnSpan
  wantedMask := h.wantedMask
  enabledMask := h.enabledMask
  held := by
    obtain ⟨hin, hin'⟩ := List.forall_mem_append.1 h.held_stacks
    exact List.forall_mem_cons.2 ⟨h.held_txnSpan, List.forall_mem_append.2
      ⟨fun ref hmem => hin ref (List.map_subset _ hstack hmem), fun ref hmem => hin' ref (hsorts hmem)⟩⟩

/-- The mask is computed alike. -/
theorem sync (h : v.Numbered mine a) (hnull : ∀ ref ∈ mine, ref.v ≠ 0) :
    v.sdtSyncProbeMask.Numbered mine a.sdtSyncProbeMask where
  sdtStack := h.sdtStack
  sortStack := h.sortStack
  txnSpan := h.txnSpan
  wantedMask := h.wantedMask
  enabledMask := by
    unfold SdtSt.sdtSyncProbeMask SdtVars.sdtSyncProbeMask
    rw [h.wantedMask, h.sdtStack, h.sortStack]
    funext id
    cases id with
    | phaseDone phase => simp only [List.any_map, Function.comp_def]
    | sortDone => simp only [List.isEmpty_map]
    | transactionCommit | transactionAbort =>
      exact congrArg (v.wantedMask _ || ·) (decide_eq_decide.2 (not_congr (h.txnSpan_zero hnull)))
    | _ => rfl
  held := h.held

end SdtVars.Numbered

namespace Bridges

variable {garbage : ℕ → OtelSlot} {m m' : ModuleSt} {v : SdtVars} {a : SdtSt} {s : OtelSpanRef}

theorem null (h : Bridges garbage m v a) : ∀ ref ∈ m.mine, ref.v ≠ 0 := fun _ => h.hosted.ne_zero

/-- The spans have changed, and no handle is new. -/
theorem keeps (h : Bridges garbage m v a) {spans : Spans} (hkeeps : Hosted.Keeps garbage m m' spans) :
    Bridges garbage m' v { a with spans } :=
  ⟨hkeeps.hosted, hkeeps.mine ▸ h.vars.withSpans spans⟩

theorem forgetTxn (h : Bridges garbage m v a) :
    Bridges garbage m { v with txnSpan := otelSpanNone } { a with txnSpan := otelSpanNone } := by
  have hnone : numbered m.mine otelSpanNone = otelSpanNone := h.hosted.numbered_null rfl
  have hset := h.vars.setTxnSpan (s := otelSpanNone) (.inl rfl)
  rw [hnone] at hset
  exact ⟨h.hosted, hset⟩

/-! ### What the `DONE` paths leave of the stacks -/

theorem pop (h : Bridges garbage m v a) {e e' : OtelSpanRef × SdtPhase}
    {rest rest' : List (OtelSpanRef × SdtPhase)} (hv : v.sdtStack = e :: rest)
    (ha : a.sdtStack = e' :: rest') :
    Bridges garbage m { v with sdtStack := rest }.sdtSyncProbeMask
      { a with sdtStack := rest' }.sdtSyncProbeMask := by
  have hstack := h.vars.sdtStack
  rw [hv, ha, List.map_cons] at hstack
  obtain ⟨-, rfl⟩ := List.cons_eq_cons.1 hstack
  have hshrink := h.vars.shrink (hv ▸ List.subset_cons_self e rest) (List.Subset.refl v.sortStack)
  rw [← h.vars.sortStack] at hshrink
  exact ⟨h.hosted, hshrink.sync h.null⟩

theorem popSort (h : Bridges garbage m v a) {rest rest' : List OtelSpanRef} {s' : OtelSpanRef}
    (hv : v.sortStack = s :: rest) (ha : a.sortStack = s' :: rest') :
    Bridges garbage m { v with sortStack := rest }.sdtSyncProbeMask
      { a with sortStack := rest' }.sdtSyncProbeMask := by
  have hstack := h.vars.sortStack
  rw [hv, ha, List.map_cons] at hstack
  obtain ⟨-, rfl⟩ := List.cons_eq_cons.1 hstack
  have hshrink := h.vars.shrink (List.Subset.refl v.sdtStack) (hv ▸ List.subset_cons_self s rest)
  rw [← h.vars.sdtStack] at hshrink
  exact ⟨h.hosted, hshrink.sync h.null⟩

theorem clear (h : Bridges garbage m v a) :
    Bridges garbage m { v with sdtStack := [], sortStack := [] }.sdtSyncProbeMask
      { a with sdtStack := [], sortStack := [] }.sdtSyncProbeMask :=
  ⟨h.hosted, (h.vars.shrink (List.nil_subset _) (List.nil_subset _)).sync h.null⟩

end Bridges

/-! ## The hook's code -/

/-- What the machine is told of a process and of what its calls answer. -/
def SdtHost.sdtEnv (host : SdtHost) (hasContext opens traceparentOk : Bool) : SdtEnv where
  clientOrWorker := host.clientOrWorker
  inCritSection := host.inCritSection
  hasContext
  opens
  nestLevel := host.env.currentTransactionNestLevel
  traceparentOk

section Code

variable {garbage : ℕ → OtelSlot} {m : ModuleSt} {v : SdtVars} {a : SdtSt} {host : SdtHost}

/-- The bridge's variables and spans are those of `a` when the script has returned. -/
def Leads (garbage : ℕ → OtelSlot) (env : Env) (x : Api SdtVars) (m : ModuleSt) (a : SdtSt) : Prop :=
  Ensures (servedModule garbage env) x (fun v' m' => Bridges garbage m' v' a) m

/-- The machine after a start: the script goes on with a handle that has the machine's number, or with
the null handle. -/
structure Opened (garbage : ℕ → OtelSlot) (v : SdtVars) (a : SdtSt) (env : SdtEnv) (detached : Bool)
    (s : OtelSpanRef) (m' : ModuleSt) : Prop where
  bridges : Bridges garbage m' v (a.startSpan env false detached).1
  number : numbered m'.mine s = (a.startSpan env false detached).2
  held : s.v = 0 ∨ s ∈ m'.mine

namespace Opened

variable {env : SdtEnv} {detached : Bool} {s : OtelSpanRef} {m' m'' : ModuleSt}

theorem still (h : Opened garbage v a env detached s m') (hmine : m''.mine = m'.mine)
    (hbridges : Bridges garbage m'' v (a.startSpan env false detached).1) :
    Opened garbage v a env detached s m'' :=
  ⟨hbridges, hmine ▸ h.number, hmine ▸ h.held⟩

/-- A start changes the spans only. -/
theorem startSpan_eq (a : SdtSt) (env : SdtEnv) (session detached : Bool) :
    (a.startSpan env session detached).1.sdtStack = a.sdtStack ∧
      (a.startSpan env session detached).1.sortStack = a.sortStack := by
  unfold SdtSt.startSpan
  split_ifs
  · exact ⟨rfl, rfl⟩
  · exact ⟨rfl, rfl⟩

theorem push (h : Opened garbage v a env false s m') (phase : SdtPhase) :
    Bridges garbage m' { v with sdtStack := (s, phase) :: v.sdtStack }
      { (a.startSpan env false false).1 with
        sdtStack := ((a.startSpan env false false).2, phase) :: a.sdtStack } := by
  have hpush := h.bridges.vars.push h.held phase
  rw [h.number, (startSpan_eq a env false false).1] at hpush
  exact ⟨h.bridges.hosted, hpush⟩

theorem pushSort (h : Opened garbage v a env true s m') :
    Bridges garbage m' { v with sortStack := s :: v.sortStack }
      { (a.startSpan env false true).1 with
        sortStack := (a.startSpan env false true).2 :: a.sortStack } := by
  have hpush := h.bridges.vars.pushSort h.held
  rw [h.number, (startSpan_eq a env false true).2] at hpush
  exact ⟨h.bridges.hosted, hpush⟩

theorem setTxnSpan (h : Opened garbage v a env true s m') :
    Bridges garbage m' { v with txnSpan := s }
      { (a.startSpan env false true).1 with txnSpan := (a.startSpan env false true).2 } := by
  have hset := h.bridges.vars.setTxnSpan h.held
  rw [h.number] at hset
  exact ⟨h.bridges.hosted, hset⟩

end Opened

theorem Bridges.opened (h : Bridges garbage m v a) {s : OtelSpanRef} {m' : ModuleSt} {detached : Bool}
    (hs : Hosted.Starts garbage m host.env.currentTransactionNestLevel detached a.spans s m')
    (hasContext traceparentOk : Bool) :
    Opened garbage v a (host.sdtEnv hasContext (decide (s ≠ otelSpanNone)) traceparentOk) detached s m' := by
  have hhosted := hs.hosted
  have hmine := hs.mine
  by_cases hnull : s = otelSpanNone
  · have hstart : a.startSpan (host.sdtEnv hasContext (decide (s ≠ otelSpanNone)) traceparentOk) false detached =
        (a, otelSpanNone) := if_neg (by simp [SdtHost.sdtEnv, hnull])
    rw [if_pos hnull] at hhosted
    rw [if_pos hnull, List.append_nil] at hmine
    refine ⟨?_, ?_, .inl (hnull ▸ rfl)⟩
    · rw [hstart]
      exact h.keeps ⟨hhosted, hmine⟩
    · rw [hstart, hnull]
      exact hhosted.numbered_null rfl
  · have hstart : a.startSpan (host.sdtEnv hasContext (decide (s ≠ otelSpanNone)) traceparentOk) false detached =
        ({ a with spans := a.spans.start false host.env.currentTransactionNestLevel detached },
          spanHandle a.spans.count) := if_pos (by simp [SdtHost.sdtEnv, hnull])
    rw [if_neg hnull] at hhosted hmine
    have hvars : v.Numbered m'.mine a := by
      rw [hmine]
      exact h.vars.append fun ref hmem => hhosted.ne_zero (hmine ▸ hmem)
    refine ⟨?_, ?_, .inr ?_⟩
    · rw [hstart]
      exact ⟨hhosted, hvars.withSpans _⟩
    · rw [hstart, hmine, numbered_concat_self hs.new, h.hosted.count]
    · rw [hmine]
      exact List.mem_append_right _ (List.mem_singleton_self s)

theorem still_setAttrs {env : Env} (hmax : env.maxOpenSpans ≤ maxOpenSpansMax) (s : OtelSpanRef)
    (attrs : List SdtAttr) : Still garbage env (setAttrs s attrs) := by
  induction attrs with
  | nil => exact still_pure ()
  | cons attr rest ih =>
    refine Still.bind ?_ fun _ => ih
    cases attr with
    | str key val => exact still_otelSpanSetStr hmax s key (some val)
    | int key val => exact still_otelSpanSetInt hmax s key val

theorem still_linkTo {env : Env} (hmax : env.maxOpenSpans ≤ maxOpenSpansMax) (s target : OtelSpanRef) :
    Still garbage env (linkTo s target) := by
  refine (still_otelSpanContextOf hmax target).bind fun ctx => ?_
  cases ctx with
  | none => exact still_pure ()
  | some ctx => exact still_otelSpanAddLink hmax s (some ctx)

theorem still_sdtSetTxnXid (hmax : host.env.maxOpenSpans ≤ maxOpenSpansMax) (s : OtelSpanRef) :
    Still garbage host.env (sdtSetTxnXid host s) :=
  .ite (still_otelSpanSetInt hmax s _ _) (still_pure ())

theorem still_linkStmtSpan {env : Env} (hmax : env.maxOpenSpans ≤ maxOpenSpansMax) (s : OtelSpanRef)
    (v : SdtVars) : Still garbage env (linkStmtSpan s v) := by
  have hget : Still garbage env (otelSdtGetTxnContext v) :=
    .ite (still_pure none) (still_otelSpanContextOf hmax v.txnSpan)
  refine hget.bind fun txnCtx => ?_
  cases txnCtx with
  | none => exact still_pure ()
  | some txnCtx =>
    refine (still_otelSpanAddLink hmax s (some txnCtx)).bind fun _ => ?_
    refine (still_otelSpanContextOf hmax s).bind fun myCtx => ?_
    cases myCtx with
    | none => exact still_pure ()
    | some myCtx => exact .ite (still_pure ()) (still_otelSpanAddLink hmax v.txnSpan (some myCtx))

/-- Code that starts and ends nothing can come first. -/
theorem Bridges.ensures_still_bind {env : Env} {α β : Type} {x : Api α} {f : α → Api β}
    {Q : β → ModuleSt → Prop} (h : Bridges garbage m v a) (hx : Still garbage env x)
    (hf : ∀ r m', m'.mine = m.mine → Bridges garbage m' v a →
      Ensures (servedModule garbage env) (f r) Q m') :
    Ensures (servedModule garbage env) (x >>= f) Q m :=
  (ensures_bind _ _ _ x f).2 ((hx m a.spans h.hosted).mono fun r m' hkeeps =>
    hf r m' hkeeps.mine (h.keeps hkeeps))

theorem Bridges.ensures_startSdtSpan (h : Bridges garbage m v a)
    (hmax : host.env.maxOpenSpans ≤ maxOpenSpansMax) (args : OtelSpanStartArgs) (attrs : List SdtAttr)
    (hasContext traceparentOk : Bool) :
    Ensures (servedModule garbage host.env) (startSdtSpan host args attrs)
      (fun s m' => Opened garbage v a (host.sdtEnv hasContext (decide (s ≠ otelSpanNone)) traceparentOk)
        args.detached s m') m := by
  refine (ensures_bind _ _ _ _ _).2 ((h.hosted.ensures_otelSpanStart hmax _).mono fun s m₁ hs => ?_)
  have hopened := h.opened hs hasContext traceparentOk
  refine hopened.bridges.ensures_still_bind (still_setAttrs hmax s _) fun _ m₂ hmine h₂ => ?_
  exact (ensures_pure _ _ _ s).2 (hopened.still hmine h₂)

/-- The machine takes the probe, told what the calls of the script have answered. -/
def Dispatches (garbage : ℕ → OtelSlot) (host : SdtHost) (id : PgSdtProbeId) (a : SdtSt) (v' : SdtVars)
    (m' : ModuleSt) : Prop :=
  ∃ hasContext opens traceparentOk,
    Bridges garbage m' v' (a.dispatch (host.sdtEnv hasContext opens traceparentOk) id)

variable (h : Bridges garbage m v a) (hmax : host.env.maxOpenSpans ≤ maxOpenSpansMax)

include h hmax

theorem Bridges.ensures_startTxnSpan : Ensures (servedModule garbage host.env) (startTxnSpan host v)
    (Dispatches garbage host .transactionStart a) m := by
  have hzero := h.vars.txnSpan_zero h.null
  refine (ensures_ite _ _ _ _ _ _).2 ⟨fun hv => ?_, fun hv => (ensures_pure _ _ _ v).2 ?_⟩
  · refine (ensures_bind _ _ _ _ _).2 ((h.ensures_startSdtSpan hmax _ _ false false).mono fun s m' hs => ?_)
    refine (ensures_pure _ _ _ _).2 ⟨false, decide (s ≠ otelSpanNone), false, ?_⟩
    unfold SdtSt.dispatch
    simp only [if_pos (hzero.2 hv)]
    exact hs.setTxnSpan
  · refine ⟨false, false, false, ?_⟩
    unfold SdtSt.dispatch
    simp only [if_neg (fun ha => hv (hzero.1 ha))]
    exact h

theorem Bridges.ensures_startPhase (phase : SdtPhase) (args : List PgSdtArg) :
    Ensures (servedModule garbage host.env) (startPhase host phase args v)
      (Dispatches garbage host (.phaseStart phase) a) m := by
  have hroom : a.sdtStack.length = v.sdtStack.length := by rw [h.vars.sdtStack, List.length_map]
  refine h.ensures_still_bind (still_otelSpanContextOf hmax otelSpanNone) fun ctx m₁ _ h₁ => ?_
  refine (ensures_ite _ _ _ _ _ _).2 ⟨fun hpush => ?_, fun hpush => (ensures_pure _ _ _ v).2 ?_⟩
  · refine (ensures_bind _ _ _ _ _).2 ((h₁.ensures_startSdtSpan hmax _ _ true false).mono fun s m₂ hs => ?_)
    have hdone (m₃ : ModuleSt)
        (h₃ : Opened garbage v a (host.sdtEnv true (decide (s ≠ otelSpanNone)) false) false s m₃) :
        Dispatches garbage host (.phaseStart phase) a { v with sdtStack := (s, phase) :: v.sdtStack } m₃ := by
      refine ⟨true, decide (s ≠ otelSpanNone), false, ?_⟩
      have hpushes : a.pushes (host.sdtEnv true (decide (s ≠ otelSpanNone)) false) = true := by
        unfold SdtSt.pushes
        rw [hroom, decide_eq_true hpush.2]
        rfl
      unfold SdtSt.dispatch
      simp only [if_pos hpushes]
      exact h₃.push phase
    refine (ensures_ite _ _ _ _ _ _).2 ⟨fun _ => ?_, fun _ => ?_⟩
    · refine hs.bridges.ensures_still_bind (still_linkTo hmax _ _) fun _ m₃ hmine₃ h₃ => ?_
      refine h₃.ensures_still_bind (still_linkTo hmax _ _) fun _ m₄ hmine₄ h₄ => ?_
      exact (ensures_pure _ _ _ _).2 (hdone m₄ (hs.still (hmine₄.trans hmine₃) h₄))
    · exact (ensures_pure _ _ _ _).2 (hdone m₂ hs)
  · refine ⟨ctx.isSome, false, false, ?_⟩
    have hpushes : ¬ a.pushes (host.sdtEnv ctx.isSome false false) = true := by
      unfold SdtSt.pushes
      rw [hroom, Bool.and_eq_true, decide_eq_true_iff]
      exact hpush
    unfold SdtSt.dispatch
    simp only [if_neg hpushes]
    exact h₁

theorem Bridges.ensures_startSort : Ensures (servedModule garbage host.env) (startSort host v)
    (Dispatches garbage host .sortStart a) m := by
  have hroom : a.sortStack.length = v.sortStack.length := by rw [h.vars.sortStack, List.length_map]
  refine h.ensures_still_bind (still_otelSpanContextOf hmax otelSpanNone) fun ctx m₁ _ h₁ => ?_
  refine (ensures_ite _ _ _ _ _ _).2 ⟨fun hpush => ?_, fun hpush => (ensures_pure _ _ _ v).2 ?_⟩
  · refine (ensures_bind _ _ _ _ _).2 ((h₁.ensures_startSdtSpan hmax _ _ true false).mono fun s m₂ hs => ?_)
    refine (ensures_pure _ _ _ _).2 ⟨true, decide (s ≠ otelSpanNone), false, ?_⟩
    unfold SdtSt.dispatch
    rw [hroom]
    simp only [if_pos (show (host.sdtEnv true (decide (s ≠ otelSpanNone)) false).hasContext = true ∧
      v.sortStack.length < sortStackSize from ⟨rfl, hpush.2⟩)]
    exact hs.pushSort
  · refine ⟨ctx.isSome, false, false, ?_⟩
    unfold SdtSt.dispatch
    rw [hroom]
    simp only [if_neg (show ¬ ((host.sdtEnv ctx.isSome false false).hasContext = true ∧
      v.sortStack.length < sortStackSize) from hpush)]
    exact h₁

/-- One of the bridge's spans is ended. -/
theorem Bridges.ensures_end_bind (hcrit : host.env.critSectionCount = 0) {s : OtelSpanRef}
    (hheld : s.v = 0 ∨ s ∈ m.mine) {x : Unit → Api SdtVars} {Q : SdtVars → ModuleSt → Prop}
    (hx : ∀ m', m'.mine = m.mine →
      Bridges garbage m' v { a with spans := a.spans.finish (numbered m.mine s) } →
      Ensures (servedModule garbage host.env) (x ()) Q m') :
    Ensures (servedModule garbage host.env) (otelSpanEnd s >>= x) Q m :=
  (ensures_bind _ _ _ _ x).2 ((h.hosted.ensures_otelSpanEndAt hmax hcrit hheld 0).mono
    fun _ m' hkeeps => hx m' hkeeps.mine (h.keeps hkeeps))

theorem Bridges.ensures_donePhase (hcrit : host.env.critSectionCount = 0) (phase : SdtPhase) :
    Ensures (servedModule garbage host.env) (donePhase phase v)
      (Dispatches garbage host (.phaseDone phase) a) m := by
  have hstack := h.vars.sdtStack
  unfold donePhase
  cases hv : v.sdtStack with
  | nil =>
    refine (ensures_pure _ _ _ v).2 ⟨false, false, false, ?_⟩
    rw [hv, List.map_nil] at hstack
    unfold SdtSt.dispatch
    simp only [hstack]
    exact h
  | cons top rest =>
    obtain ⟨s, started⟩ := top
    rw [hv, List.map_cons] at hstack
    have hheld : s.v = 0 ∨ s ∈ m.mine := h.vars.held_stacks s (by simp [hv])
    refine (ensures_ite _ _ _ _ _ _).2 ⟨fun hphase => ?_, fun hphase => (ensures_pure _ _ _ v).2 ?_⟩
    · refine h.ensures_end_bind hmax hcrit hheld fun m' hmine h' => ?_
      refine (ensures_pure _ _ _ _).2 ⟨false, false, false, ?_⟩
      unfold SdtSt.dispatch
      simp only [hstack, if_pos hphase]
      exact h'.pop hv hstack
    · refine ⟨false, false, false, ?_⟩
      unfold SdtSt.dispatch
      simp only [hstack, if_neg hphase]
      exact h

theorem Bridges.ensures_doneSort (hcrit : host.env.critSectionCount = 0) :
    Ensures (servedModule garbage host.env) (doneSort v) (Dispatches garbage host .sortDone a) m := by
  have hstack := h.vars.sortStack
  unfold doneSort
  cases hv : v.sortStack with
  | nil =>
    refine (ensures_pure _ _ _ v).2 ⟨false, false, false, ?_⟩
    rw [hv, List.map_nil] at hstack
    unfold SdtSt.dispatch
    simp only [hstack]
    exact h
  | cons s rest =>
    rw [hv, List.map_cons] at hstack
    have hheld : s.v = 0 ∨ s ∈ m.mine := h.vars.held_stacks s (by simp [hv])
    refine h.ensures_end_bind hmax hcrit hheld fun m' hmine h' => ?_
    refine (ensures_pure _ _ _ _).2 ⟨false, false, false, ?_⟩
    unfold SdtSt.dispatch
    simp only [hstack]
    exact h'.popSort hv hstack

theorem Bridges.ensures_endTxnSpan (hcrit : host.env.critSectionCount = 0) (aborted : Bool) :
    Ensures (servedModule garbage host.env) (endTxnSpan host aborted v)
      (fun v' m' => Bridges garbage m' v' a.endTxnSpan) m := by
  have hzero := h.vars.txnSpan_zero h.null
  unfold SdtSt.endTxnSpan
  refine (ensures_ite _ _ _ _ _ _).2 ⟨fun hv => ?_, fun hv => (ensures_pure _ _ _ v).2 ?_⟩
  · rw [if_pos fun ha => hv (hzero.1 ha)]
    have hend (m₁ : ModuleSt) (hmine : m₁.mine = m.mine) (h₁ : Bridges garbage m₁ v a) :
        Ensures (servedModule garbage host.env)
          (do
            sdtSetTxnXid host v.txnSpan
            otelSpanEnd v.txnSpan
            return { v with txnSpan := otelSpanNone })
          (fun v' m' => Bridges garbage m' v'
            { a with spans := a.spans.finish a.txnSpan, txnSpan := otelSpanNone }) m₁ := by
      refine h₁.ensures_still_bind (still_sdtSetTxnXid hmax _) fun _ m₂ hmine₂ h₂ => ?_
      refine h₂.ensures_end_bind hmax hcrit h₂.vars.held_txnSpan fun m₃ hmine₃ h₃ => ?_
      refine (ensures_pure _ _ _ _).2 ?_
      rw [← h₂.vars.txnSpan] at h₃
      exact h₃.forgetTxn
    refine (ensures_ite _ _ _ _ _ _).2 ⟨fun _ => ?_, fun _ => hend m rfl h⟩
    exact h.ensures_still_bind (still_otelSpanSetStatus hmax _ _ _) fun _ m₁ hmine₁ h₁ => hend m₁ hmine₁ h₁
  · rw [if_neg fun ha => hv fun hv' => ha (hzero.2 hv')]
    exact h

omit h in
theorem ensures_discardAll (hcrit : host.env.critSectionCount = 0) (refs : List OtelSpanRef) {t : Spans}
    (hhosted : Hosted garbage m t) (hheld : ∀ ref ∈ refs, ref.v = 0 ∨ ref ∈ m.mine) :
    Ensures (servedModule garbage host.env) (discardAll refs)
      (fun _ m' => Hosted.Keeps garbage m m' ((refs.map (numbered m.mine)).foldl Spans.discard t)) m := by
  induction refs generalizing m t with
  | nil => exact (ensures_pure _ _ _ ()).2 ⟨hhosted, rfl⟩
  | cons s rest ih =>
    obtain ⟨hs, hrest⟩ := List.forall_mem_cons.1 hheld
    refine (ensures_bind _ _ _ _ _).2 ((hhosted.ensures_otelSpanDiscard hmax hcrit hs).mono
      fun _ m' hkeeps => ?_)
    have hmine := hkeeps.mine
    refine (ih hkeeps.hosted (hmine ▸ hrest)).mono fun _ m'' hkeeps' => ?_
    rw [hmine] at hkeeps'
    exact ⟨hkeeps'.hosted, hkeeps'.mine.trans hmine⟩

theorem Bridges.ensures_sdtDiscardOpenSpans (hcrit : host.env.critSectionCount = 0) :
    Leads garbage host.env (sdtDiscardOpenSpans v) m a.sdtDiscardOpenSpans := by
  refine (ensures_bind _ _ _ _ _).2 ((ensures_discardAll hmax hcrit _ h.hosted h.vars.held_stacks).mono
    fun _ m' hkeeps => (ensures_pure _ _ _ _).2 ?_)
  have hrefs : (v.sdtStack.map Prod.fst ++ v.sortStack).map (numbered m.mine) =
      a.sdtStack.map Prod.fst ++ a.sortStack := by
    rw [h.vars.sdtStack, h.vars.sortStack, List.map_append, List.map_map, List.map_map]
    rfl
  rw [hrefs] at hkeeps
  exact (h.keeps hkeeps).clear

theorem Bridges.ensures_sdtXactCbAbort (hcrit : host.env.critSectionCount = 0) :
    Leads garbage host.env (sdtXactCbAbort v) m a.otelSdtXactCbAbort :=
  h.forgetTxn.ensures_sdtDiscardOpenSpans hmax hcrit

theorem Bridges.ensures_replicaApply (hcrit : host.env.critSectionCount = 0) (args : List PgSdtArg) :
    Ensures (servedModule garbage host.env) (replicaApply host args)
      (fun _ m' => Dispatches garbage host .recoveryXactCommit a v m') m := by
  have hskip : Ensures (servedModule garbage host.env) (pure () : Api Unit)
      (fun _ m' => Dispatches garbage host .recoveryXactCommit a v m') m :=
    (ensures_pure _ _ _ ()).2 ⟨false, false, false, h⟩
  unfold replicaApply
  split
  · split
    · refine (ensures_bind _ _ _ _ _).2
        ((h.ensures_startSdtSpan hmax _ _ false true).mono fun s m₁ hs => ?_)
      refine (hs.bridges.hosted.ensures_otelSpanEndAt hmax hcrit hs.held _).mono fun _ m₂ hkeeps => ?_
      have hend := hs.bridges.keeps hkeeps
      rw [hs.number] at hend
      exact ⟨false, decide (s ≠ otelSpanNone), true, hend⟩
    · exact hskip
  · exact hskip

/-- The switch of the hook. -/
theorem Bridges.ensures_dispatchProbe (hcrit : host.env.critSectionCount = 0) (id : PgSdtProbeId)
    (args : List PgSdtArg) : Ensures (servedModule garbage host.env) (dispatchProbe host id args v)
      (Dispatches garbage host id a) m := by
  have hleads {x : Api SdtVars} {a' : SdtSt} (hx : Leads garbage host.env x m a')
      (hdispatch : a.dispatch (host.sdtEnv false false false) id = a') :
      Ensures (servedModule garbage host.env) x (Dispatches garbage host id a) m :=
    hx.mono fun _ _ h' => ⟨false, false, false, hdispatch ▸ h'⟩
  cases id with
  | transactionStart => exact h.ensures_startTxnSpan hmax
  | phaseStart phase => exact h.ensures_startPhase hmax phase args
  | sortStart => exact h.ensures_startSort hmax
  | phaseDone phase => exact h.ensures_donePhase hmax hcrit phase
  | sortDone => exact h.ensures_doneSort hmax hcrit
  | transactionCommit =>
    have hcommit : Leads garbage host.env _ m
        { a.endTxnSpan with sdtStack := [], sortStack := [] }.sdtSyncProbeMask :=
      (ensures_bind _ _ _ _ _).2 ((h.ensures_endTxnSpan hmax hcrit false).mono
        fun v' _ h' => (ensures_pure _ _ _ _).2 h'.clear)
    exact hleads hcommit rfl
  | transactionAbort =>
    have habort : Leads garbage host.env _ m a.endTxnSpan.sdtDiscardOpenSpans :=
      (ensures_bind _ _ _ _ _).2 ((h.ensures_endTxnSpan hmax hcrit true).mono
        fun v' _ h' => h'.ensures_sdtDiscardOpenSpans hmax hcrit)
    exact hleads habort rfl
  | recoveryXactCommit =>
    exact (ensures_bind _ _ _ _ _).2 ((h.ensures_replicaApply hmax hcrit args).mono
      fun _ _ h' => (ensures_pure _ _ _ v).2 h')

/-- A probe fires in the machine too. -/
def Fired (garbage : ℕ → OtelSlot) (host : SdtHost) (id : PgSdtProbeId) (a : SdtSt) (v' : SdtVars)
    (m' : ModuleSt) : Prop :=
  ∃ hasContext opens traceparentOk,
    Bridges garbage m' v' (a.fire (host.sdtEnv hasContext opens traceparentOk) id)

omit h hmax in
/-- The two gates of the hook. -/
theorem admits_iff (hasContext opens traceparentOk : Bool) (id : PgSdtProbeId) :
    SdtSt.Admits (host.sdtEnv hasContext opens traceparentOk) id ↔
      ¬ (host.hasMyProcPort = false ∧ host.env.isParallelWorker = false ∧ id ≠ .recoveryXactCommit) ∧
        ¬ 0 < host.env.critSectionCount := by
  have hwhere : host.clientOrWorker = true ↔
      ¬ (host.hasMyProcPort = false ∧ host.env.isParallelWorker = false) := by
    unfold SdtHost.clientOrWorker
    cases host.hasMyProcPort <;> simp
  change (host.clientOrWorker = true ∨ id = .recoveryXactCommit) ∧
    decide (0 < host.env.critSectionCount) = false ↔ _
  rw [hwhere, decide_eq_false_iff_not]
  by_cases hid : id = .recoveryXactCommit <;> simp [hid]

theorem Bridges.ensures_fireProbe (id : PgSdtProbeId) (args : List PgSdtArg) :
    Ensures (servedModule garbage host.env) (fireProbe host id args v) (Fired garbage host id a) m := by
  have hmask : a.enabledMask id = v.enabledMask id := congrFun h.vars.enabledMask id
  refine (ensures_ite _ _ _ _ _ _).2 ⟨fun hon => ?_, fun hoff => (ensures_pure _ _ _ v).2
    ⟨false, false, false, ?_⟩⟩
  · have hskip (hnot : ¬ SdtSt.Admits (host.sdtEnv false false false) id) :
        Fired garbage host id a v m := by
      refine ⟨false, false, false, ?_⟩
      unfold SdtSt.fire SdtSt.otelSdtHook
      rw [if_pos (hmask ▸ hon), if_neg hnot]
      exact h
    refine (ensures_ite _ _ _ _ _ _).2 ⟨fun hgate => (ensures_pure _ _ _ v).2 ?_, fun hgate => ?_⟩
    · exact hskip fun hadmits => ((admits_iff _ _ _ id).1 hadmits).1 hgate
    refine (ensures_ite _ _ _ _ _ _).2 ⟨fun hcrit => (ensures_pure _ _ _ v).2 ?_, fun hcrit => ?_⟩
    · exact hskip fun hadmits => ((admits_iff _ _ _ id).1 hadmits).2 hcrit
    refine (h.ensures_dispatchProbe hmax (Nat.eq_zero_of_not_pos hcrit) id args).mono ?_
    rintro v' m' ⟨hasContext, opens, traceparentOk, h'⟩
    refine ⟨hasContext, opens, traceparentOk, ?_⟩
    unfold SdtSt.fire SdtSt.otelSdtHook
    rw [if_pos (hmask ▸ hon), if_pos ((admits_iff _ _ _ id).2 ⟨hgate, hcrit⟩)]
    exact h'
  · unfold SdtSt.fire
    rw [if_neg (hmask ▸ hoff)]
    exact h

theorem Bridges.ensures_abortCode (hcrit : host.env.critSectionCount = 0) (args : List PgSdtArg) :
    Ensures (servedModule garbage host.env) (BridgeSt.abortCode host args v)
      (fun v' m' => ∃ hasContext opens traceparentOk, Bridges garbage m' v'
        (a.fire (host.sdtEnv hasContext opens traceparentOk) .transactionAbort).otelSdtXactCbAbort) m := by
  refine (ensures_bind _ _ _ _ _).2 ((h.ensures_fireProbe hmax .transactionAbort args).mono ?_)
  rintro v' m' ⟨hasContext, opens, traceparentOk, h'⟩
  exact (h'.ensures_sdtXactCbAbort hmax hcrit).mono fun _ _ h'' => ⟨hasContext, opens, traceparentOk, h''⟩

end Code

/-! ## Runs -/

/-- What the code ensures as long as no handle repeats is so at the end of a run at which none has. -/
theorem ensured {garbage : ℕ → OtelSlot} {env : Env} {α : Type} {x : Api α} {m : ModuleSt}
    {Q : α → ModuleSt → Prop} (h : Ensures (servedModule garbage env) x Q m)
    (hfew : (x.run (moduleServer garbage env) m).2.Few)
    (hreturns : (x.run (moduleServer garbage env) m).1.isSome = true) :
    ∃ r, (x.run (moduleServer garbage env) m).1 = some r ∧ Q r (x.run (moduleServer garbage env) m).2 := by
  obtain ⟨r, hr⟩ := Option.isSome_iff_exists.1 hreturns
  have hrun := Script.run_guard (fun m op => few_of_next garbage m (m.callOf env op)) x hfew
  refine ⟨r, hr, ?_⟩
  have hensured := h r (by
    unfold servedModule
    rw [hrun]
    exact hr)
  unfold servedModule at hensured
  rwa [hrun] at hensured

/-- The states of the two machines that belong together. -/
structure BridgeSt.Shows (garbage : ℕ → OtelSlot) (q : BridgeSt) (a : SdtSt) : Prop where
  bridges : Bridges garbage q.module q.vars a
  phases : a.phases.map (fun p => (p.phase, p.inCritSection)) = q.phases

theorem fire_phases (a : SdtSt) (env : SdtEnv) (id : PgSdtProbeId) : (a.fire env id).phases = a.phases := by
  have hstart (session detached : Bool) : (a.startSpan env session detached).1.phases = a.phases := by
    obtain ⟨spans, hspans⟩ := MaskExact.startSpan_spans env a session detached
    rw [hspans]
  have hend : a.endTxnSpan.phases = a.phases := by
    unfold SdtSt.endTxnSpan
    split_ifs <;> rfl
  refine SdtSt.fire_cases (P := fun a' => a'.phases = a.phases) id rfl fun _ _ => ?_
  cases id with
  | transactionCommit => exact hend
  | transactionAbort => exact hend
  | transactionStart =>
    change (if _ then _ else _ : SdtSt).phases = _
    split_ifs
    · exact hstart false true
    · rfl
  | phaseStart phase =>
    change (if _ then _ else _ : SdtSt).phases = _
    split_ifs
    · exact hstart env.noOwner false
    · rfl
  | sortStart | recoveryXactCommit =>
    change (if _ then _ else _ : SdtSt).phases = _
    split_ifs
    · exact hstart env.noOwner true
    · rfl
  | phaseDone phase =>
    unfold SdtSt.dispatch
    cases a.sdtStack with
    | nil => rfl
    | cons e rest =>
      change (if _ then _ else _ : SdtSt).phases = _
      split_ifs <;> rfl
  | sortDone =>
    unfold SdtSt.dispatch
    cases a.sortStack <;> rfl

theorem Bridges.withPhases {garbage : ℕ → OtelSlot} {m : ModuleSt} {v : SdtVars} {a : SdtSt}
    (h : Bridges garbage m v a) (phases abandoned : List CorePhase) :
    Bridges garbage m v { a with phases, abandoned } :=
  ⟨h.hosted, h.vars.sdtStack, h.vars.sortStack, h.vars.txnSpan, h.vars.wantedMask, h.vars.enabledMask,
    h.vars.held⟩

namespace BridgeSt.Shows

variable {garbage : ℕ → OtelSlot} {q : BridgeSt} {a : SdtSt} {clientOrWorker : Bool} {host : SdtHost}

/-- Code of the bridge that returns, and what it ensures. -/
theorem ran {env : Env} {x : Api SdtVars} {Q : SdtVars → ModuleSt → Prop}
    (hx : Ensures (servedModule garbage env) x Q q.module) (hfew : (q.runs garbage env x).module.Few)
    (hreturns : q.Returns garbage env x) :
    Q (q.runs garbage env x).vars (q.runs garbage env x).module := by
  obtain ⟨v, hv, hQ⟩ := ensured hx hfew hreturns
  have hvars : (q.runs garbage env x).vars = v := congrArg (Option.getD · q.vars) hv
  rw [hvars]
  exact hQ

theorem fires (h : q.Shows garbage a) {id : PgSdtProbeId} {args : List PgSdtArg}
    (hfires : q.Fires garbage clientOrWorker host id args)
    (hfew : (q.runs garbage host.env (fireProbe host id args q.vars)).module.Few) :
    ∃ env : SdtEnv, env.clientOrWorker = clientOrWorker ∧ env.inCritSection = host.inCritSection ∧
      Bridges garbage (q.runs garbage host.env (fireProbe host id args q.vars)).module
        (q.runs garbage host.env (fireProbe host id args q.vars)).vars (a.fire env id) := by
  obtain ⟨hkind, hmax, hreturns⟩ := hfires
  obtain ⟨hasContext, opens, traceparentOk, hbridges⟩ :=
    ran (h.bridges.ensures_fireProbe hmax id args) hfew hreturns
  exact ⟨_, hkind, rfl, hbridges⟩

theorem step (hreach : (sdt clientOrWorker).Reachable a) {x : SdtAct} (hen : x.Enabled clientOrWorker a) :
    (sdt clientOrWorker).Reachable (a.next x) := Machine.Reachable.step x hreach hen

/-- A probe that leaves core's phases as they are. -/
theorem probe (h : q.Shows garbage a) (hreach : (sdt clientOrWorker).Reachable a) {id : PgSdtProbeId}
    {args : List PgSdtArg} (hfires : q.Fires garbage clientOrWorker host id args)
    (hfew : (q.runs garbage host.env (fireProbe host id args q.vars)).module.Few) {x : SdtEnv → SdtAct}
    (hen : ∀ env : SdtEnv, env.clientOrWorker = clientOrWorker → env.inCritSection = host.inCritSection →
      (x env).Enabled clientOrWorker a)
    (hnext : ∀ env, a.next (x env) = a.fire env id) :
    ∃ a', (sdt clientOrWorker).Reachable a' ∧
      (q.runs garbage host.env (fireProbe host id args q.vars)).Shows garbage a' := by
  obtain ⟨env, hkind, hcrit, hbridges⟩ := h.fires hfires hfew
  refine ⟨a.next (x env), step hreach (hen env hkind hcrit), ?_⟩
  rw [hnext]
  exact ⟨hbridges, (congrArg _ (fire_phases a env id)).trans h.phases⟩

theorem phaseStart (h : q.Shows garbage a) (hreach : (sdt clientOrWorker).Reachable a) {phase : SdtPhase}
    {args : List PgSdtArg} (hfires : q.Fires garbage clientOrWorker host (.phaseStart phase) args)
    (hfew : (q.next garbage (.phaseStart phase host args)).module.Few) :
    ∃ a', (sdt clientOrWorker).Reachable a' ∧
      (q.next garbage (.phaseStart phase host args)).Shows garbage a' := by
  obtain ⟨env, hkind, hcrit, hbridges⟩ := h.fires hfires hfew
  have hen : (SdtAct.phaseStart phase env).Enabled clientOrWorker a := hkind
  refine ⟨_, step hreach hen, hbridges.withPhases _ _, ?_⟩
  change (phase, env.inCritSection) :: a.phases.map _ = (phase, host.inCritSection) :: q.phases
  rw [hcrit, h.phases]

theorem phaseDone (h : q.Shows garbage a) (hreach : (sdt clientOrWorker).Reachable a)
    {args : List PgSdtArg} {p : SdtPhase × Bool} {ps : List (SdtPhase × Bool)} (hq : q.phases = p :: ps)
    (hcrit : host.inCritSection = p.2) (hfires : q.Fires garbage clientOrWorker host (.phaseDone p.1) args)
    (hfew : (q.next garbage (.phaseDone host args)).module.Few) :
    ∃ a', (sdt clientOrWorker).Reachable a' ∧ (q.next garbage (.phaseDone host args)).Shows garbage a' := by
  have hnext : q.next garbage (.phaseDone host args) =
      { q.runs garbage host.env (fireProbe host (.phaseDone p.1) args q.vars) with phases := ps } := by
    unfold next
    simp only [hq]
  rw [hnext] at hfew ⊢
  obtain ⟨env, hkind, hcrit', hbridges⟩ := h.fires hfires hfew
  have hphases := h.phases
  rw [hq] at hphases
  obtain ⟨c, cs, ha, hc, hcs⟩ := List.map_eq_cons_iff.1 hphases
  have hen : (SdtAct.phaseDone env).Enabled clientOrWorker a := by
    refine ⟨hkind, c, cs, ha, ?_⟩
    rw [hcrit', hcrit, ← hc]
  have hstep : a.next (.phaseDone env) = { a.fire env (.phaseDone p.1) with phases := cs } := by
    unfold SdtSt.next
    simp only [ha]
    rw [← hc]
  refine ⟨_, step hreach hen, ?_⟩
  rw [hstep]
  exact ⟨hbridges.withPhases _ _, hcs⟩

theorem abortTransaction (h : q.Shows garbage a) (hreach : (sdt clientOrWorker).Reachable a)
    {args : List PgSdtArg} {unwinds : Bool}
    (hen : q.Enabled garbage clientOrWorker (.abortTransaction host args unwinds))
    (hfew : (q.next garbage (.abortTransaction host args unwinds)).module.Few) :
    ∃ a', (sdt clientOrWorker).Reachable a' ∧
      (q.next garbage (.abortTransaction host args unwinds)).Shows garbage a' := by
  obtain ⟨hcrit, hkind, hmax, hreturns⟩ := hen
  have hzero : host.env.critSectionCount = 0 := Nat.eq_zero_of_not_pos (of_decide_eq_false hcrit)
  have hfew' : (q.runs garbage host.env (abortCode host args q.vars)).module.Few := by
    unfold next at hfew
    cases unwinds <;> exact hfew
  obtain ⟨hasContext, opens, traceparentOk, hbridges⟩ :=
    ran (h.bridges.ensures_abortCode hmax hzero args) hfew' hreturns
  have hstep : (SdtAct.abortTransaction (host.sdtEnv hasContext opens traceparentOk) unwinds).Enabled
    clientOrWorker a := ⟨hkind, hcrit⟩
  refine ⟨_, step hreach hstep, ?_⟩
  cases unwinds with
  | true => exact ⟨hbridges.withPhases _ _, rfl⟩
  | false =>
    exact ⟨hbridges, (congrArg _ (fire_phases a _ .transactionAbort)).trans h.phases⟩

/-- What others do to the bridge's spans, the machine does by itself. -/
theorem lose (hreach : (sdt clientOrWorker).Reachable a) (lost : List (List OtelSpanRef × SpanEnd)) :
    (sdt clientOrWorker).Reachable { a with spans := Hosted.losses a.spans lost } := by
  induction lost generalizing a with
  | nil => exact hreach
  | cons l lost ih =>
    have hstep : (SdtAct.lose l.1 l.2).Enabled clientOrWorker a := trivial
    exact ih (step hreach hstep)

theorem other (h : q.Shows garbage a) (hreach : (sdt clientOrWorker).Reachable a) {call : Call}
    (hen : q.Enabled garbage clientOrWorker (.other call)) (hfew : (q.next garbage (.other call)).module.Few) :
    ∃ a', (sdt clientOrWorker).Reachable a' ∧ (q.next garbage (.other call)).Shows garbage a' := by
  obtain ⟨lost, hhosted⟩ := h.bridges.hosted.others hen.1 hen.2 hfew
  exact ⟨_, lose hreach lost, ⟨hhosted, h.bridges.vars.withSpans _⟩, h.phases⟩

theorem stmtStarted (h : q.Shows garbage a) {env : Env} {s : OtelSpanRef}
    (hmax : env.maxOpenSpans ≤ maxOpenSpansMax) (hreturns : q.Returns garbage env (linkStmtSpan s q.vars))
    (hfew : (q.next garbage (.stmtStarted env s)).module.Few) :
    (q.next garbage (.stmtStarted env s)).Shows garbage a := by
  have hstill := still_linkStmtSpan hmax s q.vars q.module a.spans h.bridges.hosted
  obtain ⟨-, -, hkeeps⟩ := ensured hstill hfew hreturns
  exact ⟨h.bridges.keeps hkeeps, h.phases⟩

theorem setProbes (h : q.Shows garbage a) (tokens : List CString) :
    (q.next garbage (.setProbes tokens)).Shows garbage (a.next (.setProbes tokens)) := by
  cases htokens : sdtProbesParse tokens with
  | none =>
    have hq : q.next garbage (.setProbes tokens) = q := by
      unfold next
      simp only [htokens]
    have ha : a.next (.setProbes tokens) = a := by
      unfold SdtSt.next
      simp only [htokens]
    rw [hq, ha]
    exact h
  | some mask =>
    have hq : q.next garbage (.setProbes tokens) = { q with vars := q.vars.sdtProbesAssignHook mask } := by
      unfold next
      simp only [htokens]
    have ha : a.next (.setProbes tokens) = a.sdtProbesAssignHook mask := by
      unfold SdtSt.next
      simp only [htokens]
    rw [hq, ha]
    have hvars : { q.vars with wantedMask := fun id => id ∈ mask }.Numbered q.module.mine
        { a with wantedMask := fun id => id ∈ mask } :=
      ⟨h.bridges.vars.sdtStack, h.bridges.vars.sortStack, h.bridges.vars.txnSpan, rfl,
        h.bridges.vars.enabledMask, h.bridges.vars.held⟩
    exact ⟨⟨h.bridges.hosted, hvars.sync h.bridges.null⟩, h.phases⟩

/-- One act. -/
theorem act (h : q.Shows garbage a) (hreach : (sdt clientOrWorker).Reachable a) {x : BridgeAct}
    (hen : q.Enabled garbage clientOrWorker x) (hfew : (q.next garbage x).module.Few) :
    ∃ a', (sdt clientOrWorker).Reachable a' ∧ (q.next garbage x).Shows garbage a' := by
  cases x with
  | phaseStart phase host args => exact h.phaseStart hreach hen hfew
  | phaseDone host args =>
    obtain ⟨p, ps, hq, hcrit, hfires⟩ := hen
    exact h.phaseDone hreach hq hcrit hfires hfew
  | sortStart host args =>
    exact h.probe (x := .sortStart) hreach hen hfew (fun _ hkind _ => hkind) fun _ => rfl
  | sortDone host args =>
    exact h.probe (x := .sortDone) hreach hen hfew (fun _ hkind _ => hkind) fun _ => rfl
  | transactionStart host args =>
    exact h.probe (x := .transactionStart) hreach hen.2 hfew
      (fun _ hkind hcrit => ⟨hkind, hcrit.trans hen.1⟩) fun _ => rfl
  | transactionCommit host args =>
    exact h.probe (x := .transactionCommit) hreach hen.2 hfew
      (fun _ hkind hcrit => ⟨hkind, hcrit.trans hen.1⟩) fun _ => rfl
  | abortTransaction host args unwinds => exact h.abortTransaction hreach hen hfew
  | errorWithoutAbort =>
    exact ⟨_, step hreach (x := .errorWithoutAbort) trivial, h.bridges.withPhases _ _, rfl⟩
  | caughtError ended =>
    refine ⟨_, step hreach (x := .caughtError ended) trivial, h.bridges.withPhases _ _, ?_⟩
    exact List.map_drop.trans (congrArg _ h.phases)
  | setProbes tokens => exact ⟨_, step hreach (x := .setProbes tokens) trivial, h.setProbes tokens⟩
  | recoveryXactCommit host args =>
    exact h.probe (x := .recoveryXactCommit) hreach hen hfew (fun _ hkind _ => hkind) fun _ => rfl
  | stmtStarted env s => exact ⟨a, hreach, h.stmtStarted hen.1 hen.2 hfew⟩
  | other call => exact h.other hreach hen hfew

end BridgeSt.Shows

section Runs

variable {garbage : ℕ → OtelSlot} {clientOrWorker : Bool} {q : BridgeSt}

/-- No act gets back to where no handle has repeated. -/
theorem few_of_act {x : BridgeAct} (h : (q.next garbage x).module.Few) : q.module.Few := by
  cases x with
  | phaseDone host args =>
    cases hq : q.phases with
    | nil =>
      unfold BridgeSt.next at h
      simp only [hq] at h
      exact h
    | cons p ps =>
      unfold BridgeSt.next at h
      simp only [hq] at h
      exact few_of_run h
  | abortTransaction host args unwinds => cases unwinds <;> exact few_of_run h
  | errorWithoutAbort | caughtError ended => exact h
  | setProbes tokens =>
    unfold BridgeSt.next at h
    cases htokens : sdtProbesParse tokens <;> simp only [htokens] at h <;> exact h
  | other call => exact few_of_next garbage q.module call h
  | phaseStart | sortStart | sortDone | transactionStart | transactionCommit | recoveryXactCommit
  | stmtStarted => exact few_of_run h

/-- Every run of the bridge on the producer is one of the machine. -/
theorem bridge_refines_sdt (h : (bridge garbage clientOrWorker).Reachable q)
    (hn : q.module.log.starts < 2 ^ 31 - 1) :
    ∃ a, (sdt clientOrWorker).Reachable a ∧ q.Shows garbage a := by
  induction h with
  | init =>
    refine ⟨{}, .init, ⟨Hosted.init garbage, rfl, rfl, rfl, rfl, rfl, fun ref href => .inl ?_⟩, rfl⟩
    rw [List.mem_singleton.1 href]
    rfl
  | step x _ hen _ ih =>
    obtain ⟨a, hreach, hshows⟩ := ih (few_of_act hn)
    exact hshows.act hreach hen hn

/-- Another module has a span open; a transaction starts, and a query in it. -/
def queryInTransaction : List BridgeAct :=
  [.setProbes [cstr "txn", cstr "query"],
    .other { env := {}, backend := {}, op := .spanStart (some { name := some (cstr "request") }) },
    .transactionStart { env := { emitSpansToLog := true } } [],
    .phaseStart .query { env := { emitSpansToLog := true } } [.s (some (cstr "SELECT 1"))]]

def queryInTransactionState : BridgeSt :=
  queryInTransaction.foldl (bridge (fun _ => {}) true).next (bridge (fun _ => {}) true).init

theorem reachable_queryInTransactionState :
    (bridge (fun _ => {}) true).Reachable queryInTransactionState :=
  Machine.ReachBy.run .init
    ⟨trivial, trivial,
      ⟨clientRuns_enabled trivial (by decide) nofun (by decide +kernel), nofun⟩, trivial,
      ⟨rfl, rfl, by decide, by decide +kernel⟩, trivial,
      ⟨rfl, by decide, by decide +kernel⟩, trivial, trivial⟩

theorem bridge_refines_sdt_queryInTransaction :
    queryInTransactionState.vars.sdtStack = [(makeRef 3 2 true, .query)] ∧
      queryInTransactionState.vars.txnSpan = makeRef 2 1 true ∧
      ∃ a, (sdt true).Reachable a ∧ queryInTransactionState.Shows (fun _ => {}) a :=
  ⟨by decide +kernel, by decide +kernel,
    bridge_refines_sdt reachable_queryInTransactionState (by decide +kernel)⟩

end Runs

end PostgresOtel
