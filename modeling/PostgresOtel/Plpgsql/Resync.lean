import Mathlib.Data.List.DropRight
import Mathlib.Data.List.Forall2
import PostgresOtel.Plpgsql.Runs

/-!
# Resynchronisation of an invocation's statement stack

An error that an `EXCEPTION` block catches leaves the entries of the statements it unwound on the
statement stacks.  `stmt_end` searches the stack of its invocation for its own statement number.  In
atomic invocations it finds the entry its own `stmt_beg` pushed, whatever happened in between, and
leaves the stack as that `stmt_beg` found it.

The stacks are arrays.  `stack_push` doubles the capacity before the `repalloc`; where that fails and
the error is caught, later entries are written behind the array (`handler_overruns_stack`).
-/

set_option autoImplicit false

namespace PostgresOtel

open PlpgsqlSt

/-! ## What a step does to the invocations -/

/-- What the plugin keeps after `stmt_beg` pushed an entry. -/
def Frame.pushed (f : Frame) (stmtid : ℕ) (opened : OtelSpanRef) : Option PlpgsqlSpanState :=
  f.pluginInfo.map fun st => (stackPush stmtid opened .never st).1

/-- What the plugin keeps after `stmt_end` popped down to its entry. -/
def Frame.popped (f : Frame) (stmtid : ℕ) : Option PlpgsqlSpanState :=
  f.pluginInfo.map fun st =>
    { st with stack := (st.stack.dropWhile fun e => e.stmtid ≠ stmtid).tail }

/-- What a step does to the innermost invocation. -/
inductive HeadStep (f f' : Frame) : Prop
  | begins (stmtid : ℕ) (opened : OtelSpanRef) : stmtid ∉ (stmtsOf f.blocks).map Prod.fst →
      f'.blocks = .stmt stmtid opened :: f.blocks → f'.pluginInfo = f.pushed stmtid opened →
      HeadStep f f'
  | ends (stmtid : ℕ) (opened : OtelSpanRef) : f.blocks = .stmt stmtid opened :: f'.blocks →
      f'.pluginInfo = f.popped stmtid → HeadStep f f'
  | subxactBegins : f'.blocks = .subxact :: f.blocks → f'.pluginInfo = f.pluginInfo → HeadStep f f'
  | subxactEnds : f.blocks = .subxact :: f'.blocks → f'.pluginInfo = f.pluginInfo → HeadStep f f'

/-- What a step does to the invocations on the C stack. -/
inductive FrameStep (frames : List Frame) : List Frame → Prop
  | same : FrameStep frames frames
  | call (f : Frame) : f.atomic = true → FrameStep frames (f :: frames)
  | ret (f : Frame) (fs : List Frame) : frames = f :: fs → FrameStep frames fs
  | head (f f' : Frame) (fs : List Frame) : frames = f :: fs → f'.atomic = f.atomic →
      HeadStep f f' → FrameStep frames (f' :: fs)
  /-- An error is caught where the innermost subtransaction was begun. -/
  | caught (dropped : List Frame) (f f' : Frame) (fs : List Frame) (unwound : List Block) :
      frames = dropped ++ f :: fs → f'.atomic = f.atomic →
      f.blocks = unwound ++ .subxact :: f'.blocks → f'.pluginInfo = f.pluginInfo →
      FrameStep frames (f' :: fs)
  | aborted : FrameStep frames []

/-- A list that ends in all but the head of another one is no longer. -/
theorem eq_of_cons_eq_append {α : Type} {a b : α} {l inner : List α}
    (h : a :: l = inner ++ b :: l) : inner = [] ∧ a = b := by
  cases inner with
  | nil => exact ⟨rfl, (List.cons.inj h).1⟩
  | cons c inner =>
    have hlength := congrArg List.length h
    simp only [List.length_cons, List.length_append] at hlength
    omega

theorem unwind_split {frames frames' : List Frame} (h : unwind frames = some frames') :
    ∃ dropped f fs unwound blocks, frames = dropped ++ f :: fs ∧
      f.blocks = unwound ++ .subxact :: blocks ∧ frames' = { f with blocks := blocks } :: fs := by
  induction frames with
  | nil => cases h
  | cons f fs ih =>
    unfold unwind at h
    cases hdrop : f.blocks.dropWhile Block.isStmt with
    | nil =>
      rw [hdrop] at h
      obtain ⟨dropped, g, gs, unwound, blocks, rfl, hblocks, hframes'⟩ := ih h
      exact ⟨f :: dropped, g, gs, unwound, blocks, rfl, hblocks, hframes'⟩
    | cons b blocks =>
      rw [hdrop] at h
      have hb : b = .subxact := by
        have hne : f.blocks.dropWhile Block.isStmt ≠ [] := by simp [hdrop]
        have hhead := List.head_dropWhile_not Block.isStmt hne
        simp only [hdrop, List.head_cons] at hhead
        cases b with
        | stmt stmtid opened => cases hhead
        | subxact => rfl
      refine ⟨[], f, fs, f.blocks.takeWhile Block.isStmt, blocks, rfl, ?_, (Option.some.inj h).symm⟩
      rw [← hb, ← hdrop, List.takeWhile_append_dropWhile]

/-! ## What each callback leaves of the invocations -/

theorem resourceReleaseCallback_frames (phase : ResourceReleasePhase) (isCommit : Bool)
    (s : PlpgsqlSt) : (s.resourceReleaseCallback phase isCommit).frames = s.frames ∧
      (s.resourceReleaseCallback phase isCommit).savepoints = s.savepoints := by
  unfold resourceReleaseCallback
  split_ifs
  · exact ⟨rfl, rfl⟩
  · exact ⟨rfl, rfl⟩

theorem callbacks_frames (phase : ResourceReleasePhase) (isCommit : Bool) (n : ℕ) (s : PlpgsqlSt) :
    ((resourceReleaseCallback phase isCommit)^[n] s).frames = s.frames ∧
      ((resourceReleaseCallback phase isCommit)^[n] s).savepoints = s.savepoints := by
  induction n with
  | zero => exact ⟨rfl, rfl⟩
  | succ n ih =>
    rw [Function.iterate_succ_apply']
    obtain ⟨hframes, hsave⟩ := resourceReleaseCallback_frames phase isCommit
      ((resourceReleaseCallback phase isCommit)^[n] s)
    exact ⟨hframes.trans ih.1, hsave.trans ih.2⟩

theorem resourceOwnerRelease_frames (isCommit : Bool) (owners : ℕ) (s : PlpgsqlSt) :
    (s.resourceOwnerRelease isCommit owners).frames = s.frames := by
  unfold resourceOwnerRelease
  dsimp only
  rw [(callbacks_frames ..).1, (callbacks_frames ..).1, (callbacks_frames ..).1]

/-- An error leaves what unwinding leaves. -/
theorem frameStep_raise (owners : ℕ) (s : PlpgsqlSt) :
    FrameStep s.frames (s.raise owners).frames := by
  unfold PlpgsqlSt.raise
  cases hu : unwind s.frames with
  | none => exact .aborted
  | some frames =>
    obtain ⟨dropped, f, fs, unwound, blocks, hframes, hblocks, rfl⟩ := unwind_split hu
    exact .caught dropped f { f with blocks := blocks } fs unwound hframes rfl hblocks rfl

theorem sessionPush_never (span : OtelSpanRef) (s : PlpgsqlSt) :
    (s.sessionPush .never span).2 = false ∧ (s.sessionPush .never span).1.frames = s.frames := by
  unfold sessionPush
  split_ifs with hv hoom
  · exact ⟨rfl, rfl⟩
  · cases hoom.2
  · exact ⟨rfl, rfl⟩
  · exact ⟨rfl, rfl⟩

theorem startSpan_frames (session opens : Bool) (s : PlpgsqlSt) :
    (s.startSpan session opens).1.frames = s.frames := by
  cases opens <;> rfl

theorem openRegistered_never (session opens : Bool) (s : PlpgsqlSt) :
    (s.openRegistered session opens .never).1.2 = false ∧
      (s.openRegistered session opens .never).1.1.frames = s.frames := by
  have hstart := startSpan_frames session opens s
  cases session with
  | false => exact ⟨rfl, hstart⟩
  | true =>
    obtain ⟨hraises, hframes⟩ :=
      sessionPush_never (s.startSpan true opens).2 (s.startSpan true opens).1
    exact ⟨hraises, hframes.trans hstart⟩

/-- An invocation begins with nothing open in it and an empty stack. -/
theorem funcBegin_frames (s : PlpgsqlSt) (atomic tracing opens : Bool) (owners : ℕ) :
    ∃ info, (s.next (.funcBegin atomic tracing opens .never owners)).frames =
      ⟨atomic, info, []⟩ :: s.frames ∧
      ∀ st, info = some st → st.stack = [] ∧ st.capacity = plpgsqlStmtStackInitCapacity := by
  cases tracing with
  | false => exact ⟨none, rfl, fun st hst => absurd hst.symm (Option.some_ne_none st)⟩
  | true =>
    set s₁ : PlpgsqlSt := { s with frames := ⟨atomic, some {}, []⟩ :: s.frames }
    obtain ⟨hraises, hframes⟩ := openRegistered_never (!atomic) opens s₁
    refine ⟨some { useSessionOwner := !atomic
                   funcSpan := (s₁.openRegistered (!atomic) opens .never).2 }, ?_, ?_⟩
    · change (orThrow owners (s₁.funcBeg opens .never) id).frames = _
      have hbeg : s₁.funcBeg opens .never = ((s₁.openRegistered (!atomic) opens .never).1.1.modifyFrame
          fun f => { f with pluginInfo := some { useSessionOwner := !atomic, funcSpan :=
            (s₁.openRegistered (!atomic) opens .never).2 } },
          (s₁.openRegistered (!atomic) opens .never).1.2) := rfl
      rw [hbeg, hraises, orThrow, if_neg Bool.false_ne_true, PlpgsqlSt.modifyFrame, hframes]
      rfl
    · intro st hst
      obtain rfl := Option.some.inj hst
      exact ⟨rfl, rfl⟩

/-- The stack that a step's `stmt_beg` pushes on, and the allocation that fails. -/
def PlpgsqlSt.pushedOn (s : PlpgsqlSt) : PlpgsqlAct → Option (PlpgsqlSpanState × Oom)
  | .stmtBegin _ traceStatements opens typenameRaises oom _ =>
    match s.frames with
    | { pluginInfo := some st, .. } :: _ =>
      let r := if traceStatements then s.openRegistered st.useSessionOwner opens oom
        else ((s, false), otelSpanNone)
      if r.1.2 ∨ (typenameRaises ∧ traceStatements ∧ opens) then none else some (st, oom)
    | _ => none
  | _ => none

/-- A statement begins in the innermost invocation, on top of its stack, or its `stmt_beg` raises
before it pushes an entry. -/
theorem stmtBegin_frames {s : PlpgsqlSt} {f : Frame} {fs : List Frame} (hframes : s.frames = f :: fs)
    (stmtid : ℕ) (traced opens typenameRaises : Bool) (owners : ℕ) :
    (∃ raised : PlpgsqlSt, raised.frames = s.frames ∧
      s.next (.stmtBegin stmtid traced opens typenameRaises .never owners) = raised.raise owners ∧
      s.pushedOn (.stmtBegin stmtid traced opens typenameRaises .never owners) = none) ∨
    ∃ f', (s.next (.stmtBegin stmtid traced opens typenameRaises .never owners)).frames = f' :: fs ∧
      f'.atomic = f.atomic ∧
      f'.blocks =
        .stmt stmtid (s.stmtBeg stmtid traced opens typenameRaises .never).2 :: f.blocks ∧
      f'.pluginInfo =
        f.pushed stmtid (s.stmtBeg stmtid traced opens typenameRaises .never).2 ∧
      s.pushedOn (.stmtBegin stmtid traced opens typenameRaises .never owners) =
        f.pluginInfo.map fun st => (st, .never) := by
  obtain ⟨atomic, info, blocks⟩ := f
  change (∃ raised : PlpgsqlSt, raised.frames = s.frames ∧ orThrow owners
      (s.stmtBeg stmtid traced opens typenameRaises .never).1
      (pushBlock (.stmt stmtid (s.stmtBeg stmtid traced opens typenameRaises .never).2)) =
        raised.raise owners ∧ _) ∨ ∃ f', (orThrow owners
      (s.stmtBeg stmtid traced opens typenameRaises .never).1
      (pushBlock (.stmt stmtid (s.stmtBeg stmtid traced opens typenameRaises .never).2))).frames =
        f' :: fs ∧ _
  cases info with
  | none =>
    have hbeg : s.stmtBeg stmtid traced opens typenameRaises .never = ((s, false), otelSpanNone) := by
      rw [PlpgsqlSt.stmtBeg, hframes]
    refine .inr ⟨⟨atomic, none, .stmt stmtid otelSpanNone :: blocks⟩, ?_, rfl, ?_, rfl, ?_⟩
    · rw [hbeg, orThrow, if_neg Bool.false_ne_true]
      simp only [PlpgsqlSt.pushBlock, PlpgsqlSt.modifyFrame, hframes]
    · rw [hbeg]
    · simp only [PlpgsqlSt.pushedOn, hframes, Option.map_none]
  | some st =>
    set r := if traced then s.openRegistered st.useSessionOwner opens .never
      else ((s, false), otelSpanNone) with hr
    have hrframes : r.1.1.frames = s.frames := by
      rw [hr]
      split_ifs
      · exact (openRegistered_never st.useSessionOwner opens s).2
      · rfl
    have hbeg : s.stmtBeg stmtid traced opens typenameRaises .never =
        if r.1.2 ∨ (typenameRaises ∧ traced ∧ opens) then ((r.1.1, true), r.2)
        else ((r.1.1.modifyFrame fun f =>
          { f with pluginInfo := some (stackPush stmtid r.2 .never st).1 },
          (stackPush stmtid r.2 .never st).2), r.2) := by
      rw [PlpgsqlSt.stmtBeg, hframes]
    have hpushedOn : s.pushedOn (.stmtBegin stmtid traced opens typenameRaises .never owners) =
        if r.1.2 ∨ (typenameRaises ∧ traced ∧ opens) then none else some (st, .never) := by
      simp only [PlpgsqlSt.pushedOn, hframes]
      rfl
    rw [hbeg, hpushedOn]
    have hpushed := (Registered.stackPush_never stmtid r.2 st).1
    split_ifs with hraise
    · refine .inl ⟨r.1.1, hrframes, ?_, rfl⟩
      rw [orThrow, if_pos rfl]
    · refine .inr ⟨⟨atomic, some (stackPush stmtid r.2 .never st).1,
        .stmt stmtid r.2 :: blocks⟩, ?_, rfl, rfl, rfl, rfl⟩
      rw [orThrow, if_neg (by rw [hpushed]; exact Bool.false_ne_true)]
      simp only [PlpgsqlSt.pushBlock, PlpgsqlSt.modifyFrame, hrframes, hframes]

/-- A statement ends: the entries above its own are dropped with it. -/
theorem stmtEnd_frames {s : PlpgsqlSt} {f : Frame} {fs : List Frame} {stmtid : ℕ}
    {opened : OtelSpanRef} {blocks : List Block} (hframes : s.frames = f :: fs)
    (hblocks : f.blocks = .stmt stmtid opened :: blocks) :
    (s.next .stmtEnd).frames = ⟨f.atomic, f.popped stmtid, blocks⟩ :: fs := by
  obtain ⟨atomic, info, _⟩ := f
  obtain rfl := hblocks
  have hnext : s.next .stmtEnd = (s.stmtEnd stmtid).popBlock := by rw [PlpgsqlSt.next, hframes]
  rw [hnext]
  cases info with
  | none =>
    simp [PlpgsqlSt.stmtEnd, PlpgsqlSt.popBlock, PlpgsqlSt.modifyFrame, hframes, Frame.popped]
  | some st =>
    simp only [PlpgsqlSt.stmtEnd, hframes, Frame.popped, Option.map_some]
    cases hdrop : st.stack.dropWhile fun e => e.stmtid ≠ stmtid with
    | nil => simp [PlpgsqlSt.popBlock, PlpgsqlSt.modifyFrame, hframes]
    | cons e rest =>
      dsimp only
      rw [PlpgsqlSt.modifyFrame, (Registered.endSpan_frames _ _ s).1, hframes]
      rfl

theorem funcEnd_frames {s : PlpgsqlSt} {f : Frame} {fs : List Frame} (hframes : s.frames = f :: fs) :
    (s.next .funcEnd).frames = fs := by
  obtain ⟨atomic, info, blocks⟩ := f
  cases info with
  | none => simp [PlpgsqlSt.next, PlpgsqlSt.funcEnd, hframes]
  | some st =>
    simp only [PlpgsqlSt.next, PlpgsqlSt.funcEnd, hframes]
    rw [PlpgsqlSt.modifyFrame, (Registered.endSpan_frames _ _ s).1, hframes]
    rfl

/-! ## Atomic calls -/

/-- The call tree is atomic. -/
def PlpgsqlAct.Atomic : PlpgsqlAct → Prop
  | .funcBegin atomic _ _ _ _ => atomic = true
  | _ => True

/-- No growth of a statement stack fails. -/
def PlpgsqlAct.Resizes (s : PlpgsqlSt) (a : PlpgsqlAct) : Prop :=
  ∀ st, s.pushedOn a = some (st, .stmtStack) → st.stack.length ≠ st.capacity

/-- The same step without a failing allocation. -/
def PlpgsqlAct.spared : PlpgsqlAct → PlpgsqlAct
  | .funcBegin atomic tracing opens _ owners => .funcBegin atomic tracing opens .never owners
  | .stmtBegin stmtid traceStatements opens typenameRaises _ owners =>
    .stmtBegin stmtid traceStatements opens typenameRaises .never owners
  | a => a

theorem stackPush_room {stmtid : ℕ} {span : OtelSpanRef} {oom : Oom} {st : PlpgsqlSpanState}
    (h : oom = .stmtStack → st.stack.length ≠ st.capacity) :
    stackPush stmtid span oom st = stackPush stmtid span .never st := by
  by_cases hfull : st.stack.length = st.capacity
  · have hoom : oom ≠ .stmtStack := fun hoom => h hoom hfull
    simp [stackPush, hfull, hoom]
  · simp [stackPush, hfull]

/-- In atomic calls no allocation is made but for the statement stacks. -/
theorem next_spared {s : PlpgsqlSt} (hok : ∀ f ∈ s.frames, f.Ok)
    (hatomic : ∀ f ∈ s.frames, f.atomic = true) {a : PlpgsqlAct} (ha : a.Atomic)
    (hgrow : a.Resizes s) : s.next a = s.next a.spared := by
  cases a with
  | funcBegin atomic tracing opens oom owners =>
    obtain rfl : atomic = true := ha
    cases tracing <;> rfl
  | stmtBegin stmtid traced opens typenameRaises oom owners =>
    suffices hbeg : s.stmtBeg stmtid traced opens typenameRaises oom =
        s.stmtBeg stmtid traced opens typenameRaises .never by
      change orThrow owners (s.stmtBeg stmtid traced opens typenameRaises oom).1
        (pushBlock (.stmt stmtid (s.stmtBeg stmtid traced opens typenameRaises oom).2)) = _
      rw [hbeg]
      rfl
    match hframes : s.frames with
    | [] => simp only [PlpgsqlSt.stmtBeg, hframes]
    | ⟨atomic, none, blocks⟩ :: fs => simp only [PlpgsqlSt.stmtBeg, hframes]
    | ⟨atomic, some st, blocks⟩ :: fs =>
      have hmem : (⟨atomic, some st, blocks⟩ : Frame) ∈ s.frames := hframes ▸ List.mem_cons_self
      have hsession : st.useSessionOwner = false := by
        have htrue : atomic = true := hatomic _ hmem
        rw [((hok _ hmem).tracked st rfl).1, htrue]
        rfl
      have hopen : (if traced then s.openRegistered st.useSessionOwner opens oom
          else ((s, false), otelSpanNone)) = if traced then
            s.openRegistered st.useSessionOwner opens .never else ((s, false), otelSpanNone) := by
        rw [hsession]
        rfl
      have hpushed : s.pushedOn (.stmtBegin stmtid traced opens typenameRaises oom owners) =
          if (if traced then s.openRegistered st.useSessionOwner opens .never
            else ((s, false), otelSpanNone)).1.2 ∨ (typenameRaises ∧ traced ∧ opens) then none
          else some (st, oom) := by
        rw [← hopen]
        simp only [PlpgsqlSt.pushedOn, hframes]
      simp only [PlpgsqlSt.stmtBeg, hframes]
      rw [hopen]
      set r := if traced then s.openRegistered st.useSessionOwner opens .never
        else ((s, false), otelSpanNone)
      by_cases hraise : r.1.2 = true ∨ (typenameRaises = true ∧ traced = true ∧ opens = true)
      · rw [if_pos hraise, if_pos hraise]
      · rw [if_neg hraise] at hpushed
        rw [if_neg hraise, if_neg hraise,
          stackPush_room fun hoom => hgrow st (hoom ▸ hpushed)]
  | _ => rfl

/-- One step of an atomic call tree. -/
theorem frameStep {s : PlpgsqlSt} (hok : ∀ f ∈ s.frames, f.Ok)
    (hatomic : ∀ f ∈ s.frames, f.atomic = true) {a : PlpgsqlAct} (hen : a.Enabled s)
    (ha : a.Atomic) (hgrow : a.Resizes s) : FrameStep s.frames (s.next a).frames := by
  rw [next_spared hok hatomic ha hgrow]
  cases a with
  | funcBegin atomic tracing opens oom owners =>
    obtain ⟨info, hframes, -⟩ := funcBegin_frames s atomic tracing opens owners
    change FrameStep _ (s.next (.funcBegin atomic tracing opens .never owners)).frames
    rw [hframes]
    exact .call _ ha
  | funcEnd =>
    obtain ⟨f, fs, hframes, -⟩ := hen
    change FrameStep _ (s.next .funcEnd).frames
    rw [funcEnd_frames hframes]
    exact .ret f fs hframes
  | stmtBegin stmtid traced opens typenameRaises oom owners =>
    obtain ⟨f, fs, hframes, hid⟩ := hen
    change FrameStep _ (s.next (.stmtBegin stmtid traced opens typenameRaises .never owners)).frames
    rcases stmtBegin_frames hframes stmtid traced opens typenameRaises owners with
      ⟨raised, hsame, hnext, -⟩ | ⟨f', hframes', hf', hblocks, hinfo, -⟩
    · rw [hnext, ← hsame]
      exact frameStep_raise owners raised
    · rw [hframes']
      exact .head f f' fs hframes hf' (.begins stmtid _ hid hblocks hinfo)
  | stmtEnd =>
    obtain ⟨f, fs, stmtid, opened, blocks, hframes, hblocks⟩ := hen
    change FrameStep _ (s.next .stmtEnd).frames
    rw [stmtEnd_frames hframes hblocks]
    exact .head f _ fs hframes rfl (.ends stmtid opened hblocks rfl)
  | subxactBegin =>
    change FrameStep _ (s.pushBlock .subxact).frames
    match hframes : s.frames with
    | [] =>
      simp only [PlpgsqlSt.pushBlock, hframes]
      exact .same
    | f :: fs =>
      simp only [PlpgsqlSt.pushBlock, PlpgsqlSt.modifyFrame, hframes]
      exact .head f _ fs rfl rfl (.subxactBegins rfl rfl)
  | subxactCommit owners =>
    change FrameStep _ (s.resourceOwnerRelease true owners).popBlock.frames
    have hreleased := resourceOwnerRelease_frames true owners s
    rcases hen with ⟨f, fs, blocks, hframes, hblocks⟩ | ⟨hframes, -⟩
    · rw [hframes] at hreleased
      simp only [PlpgsqlSt.popBlock, PlpgsqlSt.modifyFrame, hreleased]
      rw [hframes]
      exact .head f _ fs rfl rfl (.subxactEnds (by simp [hblocks]) rfl)
    · rw [hframes] at hreleased
      simp only [PlpgsqlSt.popBlock, hreleased]
      rw [hframes]
      exact .same
  | error owners => exact frameStep_raise owners s
  | commit owners | rollback owners =>
    obtain ⟨-, f, fs, hframes, hf⟩ := hen
    have htrue := hatomic f (hframes ▸ List.mem_cons_self)
    rw [hf] at htrue
    cases htrue
  | xactCommit owners =>
    change FrameStep _ (s.resourceOwnerRelease true owners).frames
    rw [resourceOwnerRelease_frames]
    exact .same

theorem FrameStep.atomic {frames frames' : List Frame} (h : FrameStep frames frames')
    (hatomic : ∀ f ∈ frames, f.atomic = true) : ∀ f ∈ frames', f.atomic = true := by
  cases h with
  | same => exact hatomic
  | call f hf => exact List.forall_mem_cons.2 ⟨hf, hatomic⟩
  | ret f fs hframes => exact fun g hg => hatomic g (hframes ▸ List.mem_cons_of_mem _ hg)
  | head f f' fs hframes hf _ =>
    obtain ⟨hhead, hfs⟩ := List.forall_mem_cons.1 (hframes ▸ hatomic)
    exact List.forall_mem_cons.2 ⟨hf.trans hhead, hfs⟩
  | caught dropped f f' fs unwound hframes hf _ _ =>
    obtain ⟨hhead, hfs⟩ := List.forall_mem_cons.1
      (List.forall_mem_append.1 (hframes ▸ hatomic)).2
    exact List.forall_mem_cons.2 ⟨hf.trans hhead, hfs⟩
  | aborted => exact fun _ h => absurd h List.not_mem_nil

/-! ## A statement's own entry -/

/-- The statement begun in the invocation above `fs`, with `blocks` open before it, is open. -/
def StmtOpen (fs : List Frame) (blocks : List Block) (stmtid : ℕ) (opened : OtelSpanRef)
    (frames : List Frame) : Prop :=
  ∃ inner f within, frames = inner ++ f :: fs ∧ f.blocks = within ++ .stmt stmtid opened :: blocks

theorem Matches.drop_append {stmts stmts' : List (ℕ × OtelSpanRef)}
    {entries : List PlpgsqlStmtSpan} (h : Matches (stmts ++ stmts') entries) :
    Matches stmts' entries := by
  induction stmts with
  | nil => exact h
  | cons stmt stmts ih => exact ih h.drop

theorem stmtsOf_append (blocks blocks' : List Block) :
    stmtsOf (blocks ++ blocks') = stmtsOf blocks ++ stmtsOf blocks' := by
  induction blocks with
  | nil => rfl
  | cons b blocks ih =>
    cases b with
    | stmt stmtid opened => exact congrArg ((stmtid, opened) :: ·) ih
    | subxact => exact ih

/-- What the plugin keeps for both is on the same statement stack, if it keeps anything. -/
def SameStack (f f' : Frame) : Prop :=
  f'.pluginInfo.map PlpgsqlSpanState.stack = f.pluginInfo.map PlpgsqlSpanState.stack

/-- While a statement of `g` is open, with `within` begun inside it in the same invocation `f`: its
entry lies on the stack that its `stmt_beg` found, below entries with other numbers, of which those
of the open statements can be found. -/
inductive EntryKept (g : Frame) (stmtid : ℕ) (opened : OtelSpanRef) (within : List Block)
    (f : Frame) : Prop
  | untracked : g.pluginInfo = none → f.pluginInfo = none → EntryKept g stmtid opened within f
  | tracked (st₀ st : PlpgsqlSpanState) (above : List PlpgsqlStmtSpan) :
      g.pluginInfo = some st₀ → f.pluginInfo = some st →
      st.stack = above ++ ⟨stmtid, opened⟩ :: st₀.stack → (∀ e ∈ above, e.stmtid ≠ stmtid) →
      Matches (stmtsOf within) above → EntryKept g stmtid opened within f

namespace EntryKept

variable {g f f' : Frame} {stmtid id : ℕ} {opened ref : OtelSpanRef} {within within' : List Block}

theorem same (h : EntryKept g stmtid opened within f) (hinfo : f'.pluginInfo = f.pluginInfo)
    (hw : ∀ above, Matches (stmtsOf within) above → Matches (stmtsOf within') above) :
    EntryKept g stmtid opened within' f' := by
  cases h with
  | untracked hg hf => exact .untracked hg (hinfo.trans hf)
  | tracked st₀ st above hg hf hstack hne hm =>
    exact .tracked st₀ st above hg (hinfo.trans hf) hstack hne (hw above hm)

/-- A statement with another number begins inside it. -/
theorem begins (h : EntryKept g stmtid opened within f) (hid : id ≠ stmtid)
    (hnew : id ∉ (stmtsOf within).map Prod.fst) (hinfo : f'.pluginInfo = f.pushed id ref) :
    EntryKept g stmtid opened (.stmt id ref :: within) f' := by
  unfold Frame.pushed at hinfo
  cases h with
  | untracked hg hf => exact .untracked hg (by rw [hinfo, hf, Option.map_none])
  | tracked st₀ st above hg hf hstack hne hm =>
    have hpush := (Registered.stackPush_never id ref st).2.1
    refine .tracked st₀ (stackPush id ref .never st).1 (⟨id, ref⟩ :: above) hg
      (by rw [hinfo, hf, Option.map_some]) ?_ (List.forall_mem_cons.2 ⟨hid, hne⟩) (hm.push hnew ref)
    rw [hpush, hstack]
    rfl

/-- The search for a statement inside it stops above its entry. -/
theorem ends (h : EntryKept g stmtid opened (.stmt id ref :: within) f)
    (hinfo : f'.pluginInfo = f.popped id) : EntryKept g stmtid opened within f' := by
  unfold Frame.popped at hinfo
  cases h with
  | untracked hg hf => exact .untracked hg (by rw [hinfo, hf, Option.map_none])
  | tracked st₀ st above hg hf hstack hne hm =>
    obtain ⟨rest, hfind, hrest⟩ := Matches.find hm
    have hsub := List.dropWhile_sublist (fun e : PlpgsqlStmtSpan => decide (e.stmtid ≠ id))
      (l := above)
    rw [hfind] at hsub
    have hrestSub : rest.Sublist above := (List.sublist_cons_self _ _).trans hsub
    refine .tracked st₀ _ rest hg (by rw [hinfo, hf, Option.map_some]) ?_
      (fun e he => hne e (hrestSub.subset he)) hrest
    rw [hstack, List.dropWhile_append, hfind]
    rfl

/-- The search for the statement itself stops at its entry. -/
theorem own (h : EntryKept g stmtid opened within f) (hinfo : f'.pluginInfo = f.popped stmtid) :
    SameStack g f' := by
  unfold Frame.popped at hinfo
  cases h with
  | untracked hg hf => simp [SameStack, hinfo, hf, hg]
  | tracked st₀ st above hg hf hstack hne hm =>
    have hfind : st.stack.dropWhile (fun e => decide (e.stmtid ≠ stmtid)) =
        ⟨stmtid, opened⟩ :: st₀.stack := by
      rw [hstack, List.dropWhile_append_of_pos fun e he => by simpa using hne e he,
        List.dropWhile_cons_of_neg (by simp)]
    simp only [SameStack, hinfo, hf, hg, Option.map_some, hfind, List.tail_cons]

/-- What a step does to the invocation of the statement, as long as the statement stays open. -/
theorem headStep (h : EntryKept g stmtid opened within f) (hs : HeadStep f f')
    (hf : f.blocks = within ++ .stmt stmtid opened :: g.blocks)
    (hf' : f'.blocks = within' ++ .stmt stmtid opened :: g.blocks) :
    EntryKept g stmtid opened within' f' := by
  cases hs with
  | begins id ref hnew hblocks hinfo =>
    rw [hf, stmtsOf_append, List.map_append, List.mem_append, not_or] at hnew
    have hid : id ≠ stmtid := fun heq => hnew.2 (heq ▸ List.mem_cons_self)
    rw [hf', hf, ← List.cons_append] at hblocks
    rw [List.append_cancel_right hblocks]
    exact h.begins hid hnew.1 hinfo
  | ends id ref hblocks hinfo =>
    rw [hf, hf', ← List.cons_append] at hblocks
    rw [List.append_cancel_right hblocks] at h
    exact h.ends hinfo
  | subxactBegins hblocks hinfo =>
    rw [hf', hf, ← List.cons_append] at hblocks
    rw [List.append_cancel_right hblocks]
    exact h.same hinfo fun _ hm => hm
  | subxactEnds hblocks hinfo =>
    rw [hf, hf', ← List.cons_append] at hblocks
    rw [List.append_cancel_right hblocks] at h
    exact h.same hinfo fun _ hm => hm

/-- An error that is caught inside the statement. -/
theorem caught {unwound : List Block} (h : EntryKept g stmtid opened within f)
    (hinfo : f'.pluginInfo = f.pluginInfo) (hblocks : f.blocks = unwound ++ .subxact :: f'.blocks)
    (hf : f.blocks = within ++ .stmt stmtid opened :: g.blocks)
    (hf' : f'.blocks = within' ++ .stmt stmtid opened :: g.blocks) :
    EntryKept g stmtid opened within' f' := by
  rw [hf, hf', ← List.cons_append, ← List.append_assoc] at hblocks
  have hwithin := List.append_cancel_right hblocks
  refine h.same hinfo fun above hm => ?_
  rw [hwithin, stmtsOf_append] at hm
  exact hm.drop_append

end EntryKept

/-- The statement is open and its entry is kept. -/
def KeepsEntry (g : Frame) (fs : List Frame) (stmtid : ℕ) (opened : OtelSpanRef)
    (frames : List Frame) : Prop :=
  ∃ inner f within, frames = inner ++ f :: fs ∧
    f.blocks = within ++ .stmt stmtid opened :: g.blocks ∧ EntryKept g stmtid opened within f

/-- A step during which the statement stays open keeps its entry. -/
theorem KeepsEntry.step {g : Frame} {fs : List Frame} {stmtid : ℕ} {opened : OtelSpanRef}
    {frames frames' : List Frame} (h : KeepsEntry g fs stmtid opened frames)
    (hs : FrameStep frames frames') (hopen : StmtOpen fs g.blocks stmtid opened frames') :
    KeepsEntry g fs stmtid opened frames' := by
  obtain ⟨inner, f, within, hframes, hf, hkept⟩ := h
  obtain ⟨inner', f₁, within', hframes', hf₁⟩ := hopen
  cases hs with
  | same => exact ⟨inner, f, within, hframes, hf, hkept⟩
  | call f₀ _ => exact ⟨f₀ :: inner, f, within, congrArg (f₀ :: ·) hframes, hf, hkept⟩
  | ret f₀ fs₀ hret =>
    cases inner with
    | nil =>
      -- the statement's own invocation would be gone
      obtain ⟨-, rfl⟩ := List.cons.inj (hret.symm.trans hframes)
      have := congrArg List.length hframes'
      simp at this
      omega
    | cons f₀ inner =>
      obtain ⟨-, hfs₀⟩ := List.cons.inj (hret.symm.trans hframes)
      exact ⟨inner, f, within, hfs₀, hf, hkept⟩
  | head f₀ f₀' fs₀ hhead _ hstep =>
    cases inner with
    | nil =>
      obtain ⟨rfl, rfl⟩ := List.cons.inj (hhead.symm.trans hframes)
      obtain ⟨-, rfl⟩ := eq_of_cons_eq_append hframes'
      exact ⟨[], f₀', within', rfl, hf₁, hkept.headStep hstep hf hf₁⟩
    | cons f₀ inner =>
      obtain ⟨-, hfs₀⟩ := List.cons.inj (hhead.symm.trans hframes)
      exact ⟨f₀' :: inner, f, within, congrArg (f₀' :: ·) hfs₀, hf, hkept⟩
  | caught dropped f₀ f₀' fs₀ unwound hdropped _ hblocks hsame =>
    rcases List.append_eq_append_iff.1 (hdropped.symm.trans hframes) with
      ⟨between, hinner, hrest⟩ | ⟨between, hdrop, hrest⟩
    · cases between with
      | nil =>
        -- the error is caught in the statement's invocation
        obtain ⟨rfl, rfl⟩ := List.cons.inj hrest
        obtain ⟨-, rfl⟩ := eq_of_cons_eq_append hframes'
        exact ⟨[], f₀', within', rfl, hf₁, hkept.caught hsame hblocks hf hf₁⟩
      | cons f₂ between =>
        obtain ⟨-, hfs₀⟩ := List.cons.inj hrest
        exact ⟨f₀' :: between, f, within, congrArg (f₀' :: ·) hfs₀, hf, hkept⟩
    · cases between with
      | nil =>
        obtain ⟨rfl, rfl⟩ := List.cons.inj hrest
        obtain ⟨-, rfl⟩ := eq_of_cons_eq_append hframes'
        exact ⟨[], f₀', within', rfl, hf₁, hkept.caught hsame hblocks hf hf₁⟩
      | cons f₂ between =>
        -- the error is caught below the statement's invocation
        obtain ⟨-, hfs⟩ := List.cons.inj hrest
        have hlength := congrArg List.length hframes'
        rw [hfs] at hlength
        simp at hlength
        omega
  | aborted =>
    have := congrArg List.length hframes'
    simp at this

/-! ## The arrays -/

/-- The lengths of the invocations' arrays after the allocations of a step: `func_setup` allocates
one, and `stack_push` resizes one that is full, unless the `repalloc` fails. -/
def PlpgsqlSt.reallocated (s : PlpgsqlSt) (a : PlpgsqlAct) (lengths : List ℕ) : List ℕ :=
  match a with
  | .funcBegin _ _ _ _ _ => plpgsqlStmtStackInitCapacity :: lengths
  | _ =>
    match s.pushedOn a, lengths with
    | some (st, oom), _ :: rest =>
      if st.stack.length = st.capacity ∧ oom ≠ .stmtStack then st.capacity * 2 :: rest else lengths
    | _, _ => lengths

/-- PL/pgSQL with the plugin and the lengths of the invocations' arrays, which go with them. -/
def plpgsqlArrays : Machine (PlpgsqlSt × List ℕ) PlpgsqlAct :=
  plpgsql.extend [] some (fun _ _ => True) fun p a =>
    (p.1.reallocated a p.2).rtake (p.1.next a).frames.length

/-- A step's `stmt_beg` writes its entry outside the array. -/
def Overruns (p : PlpgsqlSt × List ℕ) (a : PlpgsqlAct) : Prop :=
  ∃ st oom n, p.1.pushedOn a = some (st, oom) ∧
    (oom = .stmtStack → st.stack.length ≠ st.capacity) ∧
    (p.1.reallocated a p.2).head? = some n ∧ n ≤ st.stack.length

/-- An invocation's capacity is the length of its array, and its entries are in it. -/
def Frame.Fits (f : Frame) (n : ℕ) : Prop :=
  ∀ st, f.pluginInfo = some st → st.capacity = n ∧ st.stack.length ≤ n ∧ 0 < n

theorem fits_kept (dropped kept : List Frame) {lengths : List ℕ}
    (h : List.Forall₂ Frame.Fits (dropped ++ kept) lengths) :
    List.Forall₂ Frame.Fits kept (lengths.rtake kept.length) := by
  have hdrop := List.forall₂_drop dropped.length h
  rw [List.drop_left] at hdrop
  unfold List.rtake
  rw [← h.length_eq, List.length_append, Nat.add_sub_cancel]
  exact hdrop

/-- The innermost invocation that is left changes, but not what the plugin keeps for it. -/
theorem fits_head (dropped : List Frame) {fs : List Frame} {f f' : Frame} {lengths : List ℕ}
    (h : List.Forall₂ Frame.Fits (dropped ++ f :: fs) lengths)
    (hinfo : f'.pluginInfo = f.pluginInfo) :
    List.Forall₂ Frame.Fits (f' :: fs) (lengths.rtake (f' :: fs).length) := by
  have hkept := fits_kept dropped (f :: fs) h
  change List.Forall₂ Frame.Fits _ (lengths.rtake (f :: fs).length)
  cases hlengths : lengths.rtake (f :: fs).length with
  | nil =>
    rw [hlengths] at hkept
    cases hkept
  | cons n ns =>
    rw [hlengths] at hkept
    obtain ⟨hf, hfs⟩ := List.forall₂_cons.1 hkept
    exact .cons (fun st hst => hf st (hinfo ▸ hst)) hfs

theorem fits_raise {s : PlpgsqlSt} {lengths : List ℕ}
    (h : List.Forall₂ Frame.Fits s.frames lengths) (owners : ℕ) :
    List.Forall₂ Frame.Fits (s.raise owners).frames
      (lengths.rtake (s.raise owners).frames.length) := by
  unfold PlpgsqlSt.raise
  cases hu : unwind s.frames with
  | none =>
    refine fits_kept s.frames [] ?_
    rwa [List.append_nil]
  | some frames =>
    obtain ⟨dropped, f, fs, unwound, blocks, hframes, -, rfl⟩ := unwind_split hu
    rw [hframes] at h
    exact fits_head dropped h rfl

theorem pushedOn_spared {s : PlpgsqlSt} (hok : ∀ f ∈ s.frames, f.Ok)
    (hatomic : ∀ f ∈ s.frames, f.atomic = true) (a : PlpgsqlAct) :
    s.pushedOn a.spared = (s.pushedOn a).map fun x => (x.1, .never) := by
  cases a with
  | stmtBegin stmtid traced opens typenameRaises oom owners =>
    match hframes : s.frames with
    | [] => simp [PlpgsqlSt.pushedOn, PlpgsqlAct.spared, hframes]
    | ⟨atomic, none, blocks⟩ :: fs => simp [PlpgsqlSt.pushedOn, PlpgsqlAct.spared, hframes]
    | ⟨atomic, some st, blocks⟩ :: fs =>
      have hmem : (⟨atomic, some st, blocks⟩ : Frame) ∈ s.frames := hframes ▸ List.mem_cons_self
      have hsession : st.useSessionOwner = false := by
        have htrue : atomic = true := hatomic _ hmem
        rw [((hok _ hmem).tracked st rfl).1, htrue]
        rfl
      simp only [PlpgsqlSt.pushedOn, PlpgsqlAct.spared, hframes, hsession]
      rw [apply_ite (Option.map _)]
      rfl
  | _ => rfl

theorem reallocated_spared {s : PlpgsqlSt} (hok : ∀ f ∈ s.frames, f.Ok)
    (hatomic : ∀ f ∈ s.frames, f.atomic = true) {a : PlpgsqlAct} (hgrow : a.Resizes s)
    (lengths : List ℕ) : s.reallocated a lengths = s.reallocated a.spared lengths := by
  cases a with
  | stmtBegin stmtid traced opens typenameRaises oom owners =>
    have hspared := pushedOn_spared hok hatomic (.stmtBegin stmtid traced opens typenameRaises oom owners)
    simp only [PlpgsqlAct.spared] at hspared
    simp only [PlpgsqlSt.reallocated, PlpgsqlAct.spared, hspared]
    cases hpushed : s.pushedOn (.stmtBegin stmtid traced opens typenameRaises oom owners) with
    | none => rfl
    | some x =>
      cases lengths with
      | nil => rfl
      | cons n rest =>
        have hroom : x.1.stack.length = x.1.capacity → x.2 ≠ .stmtStack := by
          intro hfull hoom
          refine hgrow x.1 ?_ hfull
          rw [hpushed, ← hoom]
        have hiff : (x.1.stack.length = x.1.capacity ∧ x.2 ≠ .stmtStack) ↔
            (x.1.stack.length = x.1.capacity ∧ Oom.never ≠ .stmtStack) :=
          ⟨fun h => ⟨h.1, by decide⟩, fun h => ⟨h.1, hroom h.1⟩⟩
        simp only [Option.map_some]
        exact if_congr hiff rfl rfl
  | _ => rfl

/-- A pushed entry is in the array, which has been resized if it was full. -/
theorem fits_pushed {f f' : Frame} {n : ℕ} (h : f.Fits n) {stmtid : ℕ} {opened : OtelSpanRef}
    (hinfo : f'.pluginInfo = f.pushed stmtid opened) {st : PlpgsqlSpanState}
    (hst : f.pluginInfo = some st) :
    f'.Fits (if st.stack.length = st.capacity ∧ Oom.never ≠ .stmtStack then st.capacity * 2 else n) ∧
      st.stack.length <
        if st.stack.length = st.capacity ∧ Oom.never ≠ .stmtStack then st.capacity * 2 else n := by
  obtain ⟨hcap, hlen, hpos⟩ := h st hst
  have hinfo' : f'.pluginInfo = some (stackPush stmtid opened .never st).1 := by
    rw [hinfo, Frame.pushed, hst, Option.map_some]
  by_cases hfull : st.stack.length = st.capacity
  · rw [if_pos ⟨hfull, by decide⟩]
    refine ⟨fun st' hst' => ?_, by omega⟩
    obtain rfl := Option.some.inj (hinfo'.symm.trans hst')
    simp [stackPush, hfull]
    omega
  · rw [if_neg fun hc => hfull hc.1]
    refine ⟨fun st' hst' => ?_, by omega⟩
    obtain rfl := Option.some.inj (hinfo'.symm.trans hst')
    simp [stackPush, hfull]
    omega

theorem fits_step {s : PlpgsqlSt} {lengths : List ℕ}
    (h : List.Forall₂ Frame.Fits s.frames lengths) (hok : ∀ f ∈ s.frames, f.Ok)
    (hatomic : ∀ f ∈ s.frames, f.atomic = true) {a : PlpgsqlAct} (hen : a.Enabled s)
    (ha : a.Atomic) (hgrow : a.Resizes s) :
    List.Forall₂ Frame.Fits (s.next a).frames
      ((s.reallocated a lengths).rtake (s.next a).frames.length) := by
  rw [next_spared hok hatomic ha hgrow, reallocated_spared hok hatomic hgrow]
  cases a with
  | funcBegin atomic tracing opens oom owners =>
    obtain ⟨info, hframes, hnew⟩ := funcBegin_frames s atomic tracing opens owners
    change List.Forall₂ _ (s.next (.funcBegin atomic tracing opens .never owners)).frames
      (List.rtake (plpgsqlStmtStackInitCapacity :: lengths)
        (s.next (.funcBegin atomic tracing opens .never owners)).frames.length)
    rw [hframes]
    refine fits_kept [] _ (.cons (fun st hst => ?_) h)
    obtain ⟨hstack, hcap⟩ := hnew st hst
    rw [hstack, hcap]
    decide
  | funcEnd =>
    obtain ⟨f, fs, hframes, -⟩ := hen
    change List.Forall₂ _ (s.next .funcEnd).frames (lengths.rtake (s.next .funcEnd).frames.length)
    rw [funcEnd_frames hframes]
    rw [hframes] at h
    exact fits_kept [f] fs h
  | stmtBegin stmtid traced opens typenameRaises oom owners =>
    obtain ⟨f, fs, hframes, hid⟩ := hen
    set b : PlpgsqlAct := .stmtBegin stmtid traced opens typenameRaises .never owners with hb
    change List.Forall₂ _ (s.next b).frames ((s.reallocated b lengths).rtake (s.next b).frames.length)
    rcases stmtBegin_frames hframes stmtid traced opens typenameRaises owners with
      ⟨raised, hsame, hnext, hpushed⟩ | ⟨f', hframes', -, -, hinfo, hpushed⟩
    · have hlengths : s.reallocated b lengths = lengths := by
        simp only [hb, PlpgsqlSt.reallocated, hpushed]
      rw [hlengths, hnext]
      exact fits_raise (hsame ▸ h) owners
    · rw [hframes] at h
      cases lengths with
      | nil => cases h
      | cons n rest =>
        obtain ⟨hf, hfs⟩ := List.forall₂_cons.1 h
        rw [hframes']
        refine fits_kept [] _ ?_
        simp only [hb, PlpgsqlSt.reallocated, hpushed]
        cases hst : f.pluginInfo with
        | none =>
          refine .cons (fun st hst' => ?_) hfs
          rw [hinfo, Frame.pushed, hst] at hst'
          cases hst'
        | some st =>
          simp only [Option.map_some]
          rw [← apply_ite (· :: rest)]
          exact .cons (fits_pushed hf hinfo hst).1 hfs
  | stmtEnd =>
    obtain ⟨f, fs, stmtid, opened, blocks, hframes, hblocks⟩ := hen
    change List.Forall₂ _ (s.next .stmtEnd).frames (lengths.rtake (s.next .stmtEnd).frames.length)
    rw [stmtEnd_frames hframes hblocks]
    rw [hframes] at h
    cases lengths with
    | nil => cases h
    | cons n rest =>
      obtain ⟨hf, hfs⟩ := List.forall₂_cons.1 h
      refine fits_kept [] _ (.cons (fun st' hst' => ?_) hfs)
      simp only [Frame.popped, Option.map_eq_some_iff] at hst'
      obtain ⟨st, hst, rfl⟩ := hst'
      obtain ⟨hcap, hlen, hpos⟩ := hf st hst
      have hle : (st.stack.dropWhile fun e => decide (e.stmtid ≠ stmtid)).tail.length ≤
          st.stack.length :=
        ((List.tail_sublist _).trans (List.dropWhile_sublist _)).length_le
      exact ⟨hcap, hle.trans hlen, hpos⟩
  | subxactBegin =>
    change List.Forall₂ _ (s.pushBlock .subxact).frames
      (lengths.rtake (s.pushBlock .subxact).frames.length)
    match hframes : s.frames with
    | [] =>
      simp only [PlpgsqlSt.pushBlock, hframes]
      rw [hframes] at h
      exact fits_kept [] _ h
    | f :: fs =>
      simp only [PlpgsqlSt.pushBlock, PlpgsqlSt.modifyFrame, hframes]
      rw [hframes] at h
      exact fits_head [] h rfl
  | subxactCommit owners =>
    have hreleased := resourceOwnerRelease_frames true owners s
    change List.Forall₂ _ (s.resourceOwnerRelease true owners).popBlock.frames
      (lengths.rtake (s.resourceOwnerRelease true owners).popBlock.frames.length)
    match hframes : s.frames with
    | [] =>
      rw [hframes] at hreleased
      simp only [PlpgsqlSt.popBlock, hreleased]
      rw [hframes] at h
      exact fits_kept [] _ h
    | f :: fs =>
      rw [hframes] at hreleased
      simp only [PlpgsqlSt.popBlock, PlpgsqlSt.modifyFrame, hreleased]
      rw [hframes] at h
      exact fits_head [] h rfl
  | error owners => exact fits_raise h owners
  | commit owners | rollback owners | xactCommit owners =>
    change List.Forall₂ _ (s.resourceOwnerRelease _ owners).frames
      (lengths.rtake (s.resourceOwnerRelease _ owners).frames.length)
    rw [resourceOwnerRelease_frames]
    exact fits_kept [] _ h

/-! ## Runs of atomic calls -/

/-- What holds in atomic calls as long as no growth of a statement stack fails. -/
structure AtomicCalls (s : PlpgsqlSt) : Prop where
  registered : Registered s
  atomic : ∀ f ∈ s.frames, f.atomic = true

namespace AtomicCalls

variable {s : PlpgsqlSt} {a : PlpgsqlAct}

theorem step (h : AtomicCalls s) (hen : a.Enabled s) (ha : a.Atomic) (hgrow : a.Resizes s) :
    AtomicCalls (s.next a) where
  registered := by
    rw [next_spared h.registered.frames h.atomic ha hgrow]
    have hspared : a.spared.Enabled s ∧ a.spared.Ok s := by
      cases a with
      | rollback owners =>
        obtain ⟨-, f, fs, hframes, hf⟩ := hen
        have htrue := h.atomic f (hframes ▸ List.mem_cons_self)
        rw [hf] at htrue
        cases htrue
      | funcBegin atomic tracing opens oom owners => exact ⟨hen, rfl⟩
      | stmtBegin stmtid traced opens typenameRaises oom owners => exact ⟨hen, rfl⟩
      | _ => exact ⟨hen, trivial⟩
    exact h.registered.step hspared.1 hspared.2
  atomic := (frameStep h.registered.frames h.atomic hen ha hgrow).atomic h.atomic

end AtomicCalls

theorem reachable_atomicCalls {p : PlpgsqlSt × List ℕ}
    (h : plpgsqlArrays.ReachBy (fun p a => a.Atomic ∧ a.Resizes p.1) p) :
    AtomicCalls p.1 ∧ List.Forall₂ Frame.Fits p.1.frames p.2 := by
  apply Machine.ReachBy.invariant
    (I := fun p => AtomicCalls p.1 ∧ List.Forall₂ Frame.Fits p.1.frames p.2) _ _ h
  · exact ⟨⟨registered_init, fun _ h => absurd h List.not_mem_nil⟩, .nil⟩
  · rintro ⟨s, lengths⟩ a ⟨hs, hfits⟩ ⟨hen, -⟩ ⟨ha, hgrow⟩
    have hen : a.Enabled s := hen a rfl
    exact ⟨hs.step hen ha hgrow, fits_step hfits hs.registered.frames hs.atomic hen ha hgrow⟩

/-- From a state on, the statement begun in the invocation above `fs` stays open. -/
inductive During (fs : List Frame) (blocks : List Block) (stmtid : ℕ) (opened : OtelSpanRef)
    (s : PlpgsqlSt) : PlpgsqlSt → Prop
  | refl : StmtOpen fs blocks stmtid opened s.frames → During fs blocks stmtid opened s s
  | step {s' : PlpgsqlSt} (a : PlpgsqlAct) : During fs blocks stmtid opened s s' → a.Enabled s' →
      a.Atomic → a.Resizes s' → StmtOpen fs blocks stmtid opened (s'.next a).frames →
      During fs blocks stmtid opened s (s'.next a)

theorem During.keeps {g : Frame} {fs : List Frame} {stmtid : ℕ} {opened : OtelSpanRef}
    {s s' : PlpgsqlSt} (h : During fs g.blocks stmtid opened s s') (hs : AtomicCalls s)
    (hkeeps : KeepsEntry g fs stmtid opened s.frames) :
    AtomicCalls s' ∧ KeepsEntry g fs stmtid opened s'.frames := by
  induction h with
  | refl _ => exact ⟨hs, hkeeps⟩
  | step a _ hen ha hgrow hopen ih =>
    obtain ⟨hcalls, hkeeps'⟩ := ih
    have hstep := frameStep hcalls.registered.frames hcalls.atomic hen ha hgrow
    exact ⟨hcalls.step hen ha hgrow, hkeeps'.step hstep hopen⟩

theorem During.begun {fs : List Frame} {blocks : List Block} {stmtid : ℕ} {opened : OtelSpanRef}
    {s s' : PlpgsqlSt} (h : During fs blocks stmtid opened s s') :
    StmtOpen fs blocks stmtid opened s.frames := by
  induction h with
  | refl hopen => exact hopen
  | step _ _ _ _ _ _ ih => exact ih

/-- After an error fewer blocks are open than before, so no statement has begun on top of them. -/
theorem not_stmtOpen_raise {s : PlpgsqlSt} {f : Frame} {fs : List Frame}
    (hframes : s.frames = f :: fs) (owners stmtid : ℕ) (opened : OtelSpanRef) :
    ¬ StmtOpen fs f.blocks stmtid opened (s.raise owners).frames := by
  rintro ⟨inner, g, within, hinner, hg⟩
  unfold PlpgsqlSt.raise at hinner
  cases hu : unwind s.frames with
  | none =>
    rw [hu] at hinner
    exact absurd hinner.symm (by simp)
  | some frames =>
    obtain ⟨dropped, f₀, fs₀, unwound, blocks, hsplit, hf₀, rfl⟩ := unwind_split hu
    rw [hu] at hinner
    replace hinner : { f₀ with blocks := blocks } :: fs₀ = inner ++ g :: fs := hinner
    have hlength := congrArg List.length hinner
    have hlength' := congrArg List.length (hframes.symm.trans hsplit)
    simp only [List.length_append, List.length_cons] at hlength hlength'
    cases dropped with
    | nil =>
      obtain ⟨rfl, rfl⟩ := List.cons.inj (hframes.symm.trans hsplit)
      obtain ⟨-, rfl⟩ := eq_of_cons_eq_append hinner
      have hblocks := congrArg List.length hf₀
      have hwithin := congrArg List.length hg
      simp only [List.length_append, List.length_cons] at hblocks hwithin
      omega
    | cons f₁ dropped =>
      simp only [List.length_cons] at hlength'
      omega

/-- Where `stmt_beg` does not raise, the statement's entry is the newest. -/
theorem keepsEntry_begun {s : PlpgsqlSt} (hs : AtomicCalls s) {f : Frame} {fs : List Frame}
    (hframes : s.frames = f :: fs) {stmtid : ℕ} {traced opens typenameRaises : Bool} {oom : Oom}
    {owners : ℕ} (hgrow : (PlpgsqlAct.stmtBegin stmtid traced opens typenameRaises oom
      owners).Resizes s) {opened : OtelSpanRef}
    (hopen : StmtOpen fs f.blocks stmtid opened
      (s.next (.stmtBegin stmtid traced opens typenameRaises oom owners)).frames) :
    KeepsEntry f fs stmtid opened
      (s.next (.stmtBegin stmtid traced opens typenameRaises oom owners)).frames := by
  rw [next_spared hs.registered.frames hs.atomic (by trivial) hgrow] at hopen ⊢
  change StmtOpen fs f.blocks stmtid opened
    (s.next (.stmtBegin stmtid traced opens typenameRaises .never owners)).frames at hopen
  change KeepsEntry f fs stmtid opened
    (s.next (.stmtBegin stmtid traced opens typenameRaises .never owners)).frames
  rcases stmtBegin_frames hframes stmtid traced opens typenameRaises owners with
    ⟨raised, hsame, hnext, -⟩ | ⟨f', hframes', -, hblocks, hinfo, -⟩
  · rw [hnext] at hopen
    exact absurd hopen (not_stmtOpen_raise (hsame.trans hframes) owners stmtid opened)
  · obtain ⟨inner, g, within, hinner, hg⟩ := hopen
    rw [hframes'] at hinner ⊢
    obtain ⟨-, rfl⟩ := eq_of_cons_eq_append hinner
    -- nothing has begun inside the statement yet
    obtain ⟨-, hstmt⟩ := eq_of_cons_eq_append (hblocks.symm.trans hg)
    have hopened : (s.stmtBeg stmtid traced opens typenameRaises .never).2 = opened := by
      injection hstmt
    rw [hopened] at hblocks hinfo
    refine ⟨[], f', [], rfl, hblocks, ?_⟩
    unfold Frame.pushed at hinfo
    cases hf : f.pluginInfo with
    | none => exact .untracked hf (by rw [hinfo, hf, Option.map_none])
    | some st =>
      have hpush := (Registered.stackPush_never stmtid opened st).2.1
      exact .tracked st (stackPush stmtid opened .never st).1 [] hf
        (by rw [hinfo, hf, Option.map_some]) hpush (fun _ he => absurd he List.not_mem_nil) trivial

/-- The end of a statement that is innermost again. -/
theorem keepsEntry_ended {s : PlpgsqlSt} {g : Frame} {fs : List Frame} {stmtid : ℕ}
    {opened : OtelSpanRef} (h : KeepsEntry g fs stmtid opened s.frames) {f : Frame}
    (hframes : s.frames = f :: fs) (hblocks : f.blocks = .stmt stmtid opened :: g.blocks) :
    ∃ f', (s.next .stmtEnd).frames = f' :: fs ∧ f'.blocks = g.blocks ∧ SameStack g f' := by
  obtain ⟨inner, f₁, within, hinner, -, hkept⟩ := h
  obtain ⟨-, rfl⟩ := eq_of_cons_eq_append (hframes.symm.trans hinner)
  exact ⟨_, stmtEnd_frames hframes hblocks, rfl, hkept.own rfl⟩

/-- Where capacities are the lengths of the arrays, entries are written inside them. -/
theorem not_overruns {p : PlpgsqlSt × List ℕ} (hfits : List.Forall₂ Frame.Fits p.1.frames p.2)
    (a : PlpgsqlAct) : ¬ Overruns p a := by
  obtain ⟨s, lengths⟩ := p
  rintro ⟨st, oom, n, hpushed, hroom, hhead, hle⟩
  cases a with
  | stmtBegin stmtid traced opens typenameRaises oom' owners =>
    match hframes : s.frames with
    | [] => simp [PlpgsqlSt.pushedOn, hframes] at hpushed
    | ⟨atomic, none, blocks⟩ :: fs => simp [PlpgsqlSt.pushedOn, hframes] at hpushed
    | ⟨atomic, some st', blocks⟩ :: fs =>
      rw [hframes] at hfits
      cases lengths with
      | nil => cases hfits
      | cons m rest =>
        obtain ⟨hcap, hlen, hpos⟩ := (List.forall₂_cons.1 hfits).1 st' rfl
        simp only [PlpgsqlSt.reallocated, hpushed] at hhead
        obtain rfl : st' = st := by
          simp only [PlpgsqlSt.pushedOn, hframes] at hpushed
          split_ifs at hpushed <;> exact congrArg Prod.fst (Option.some.inj hpushed)
        split_ifs at hhead with hfull
        · obtain rfl := Option.some.inj hhead
          omega
        · obtain rfl := Option.some.inj hhead
          have hne : st'.stack.length ≠ st'.capacity :=
            fun heq => hfull ⟨heq, fun hoom => hroom hoom heq⟩
          omega
  | _ => cases hpushed

/-- The entry that a span's own end leaves in the log. -/
def ownEnd (ref : OtelSpanRef) : List (OtelSpanRef × SpanEnd) :=
  if ref.v = 0 then [] else [(ref, .ended)]

/-- In atomic calls, as long as no growth of a statement stack fails: entries are written inside
their array; a `stmt_end` ends the span of its own `stmt_beg` and no other, and leaves the stack
as that `stmt_beg` found it, whatever began, ended or was abandoned in between; `func_end` ends its
own span; the open spans are those of the open statements and invocations, and every span that is
gone left once, by its own end or by the abort of its owner. -/
theorem statement_stack_resynchronises {p : PlpgsqlSt × List ℕ}
    (h : plpgsqlArrays.ReachBy (fun p a => a.Atomic ∧ a.Resizes p.1) p) :
    (∀ a, a.Enabled p.1 → a.Resizes p.1 → ¬ Overruns p a) ∧
    (∀ f fs stmtid traced opens typenameRaises oom owners s' f',
      p.1.frames = f :: fs →
      (PlpgsqlAct.stmtBegin stmtid traced opens typenameRaises oom owners).Enabled p.1 →
      (PlpgsqlAct.stmtBegin stmtid traced opens typenameRaises oom owners).Resizes p.1 →
      ∀ opened, opened = (p.1.stmtBeg stmtid traced opens typenameRaises oom).2 →
      During fs f.blocks stmtid opened
        (p.1.next (.stmtBegin stmtid traced opens typenameRaises oom owners)) s' →
      s'.frames = f' :: fs → f'.blocks = .stmt stmtid opened :: f.blocks →
      (s'.next .stmtEnd).spans.log = s'.spans.log ++ ownEnd opened ∧
      (s'.next .stmtEnd).spans.stale = [] ∧
      ∃ f'', (s'.next .stmtEnd).frames = f'' :: fs ∧ f''.blocks = f.blocks ∧ SameStack f f'') ∧
    (∀ f fs, p.1.frames = f :: fs → f.blocks = [] →
      (p.1.next .funcEnd).spans.log = p.1.spans.log ++ ownEnd f.funcSpan ∧
      (p.1.next .funcEnd).spans.stale = []) ∧
    p.1.spans.opened = liveSpans p.1.savepoints p.1.frames ∧
    (∀ n < p.1.spans.count, (p.1.spans.opened.map OpenSpan.ref).count (spanHandle n) +
      (p.1.spans.log.map Prod.fst).count (spanHandle n) = 1) ∧
    (∀ x ∈ p.1.spans.log, x.2 = .ended ∨ x.2 = .released) := by
  obtain ⟨hs, hfits⟩ := reachable_atomicCalls h
  have hbooks := hs.registered.books
  refine ⟨fun a hen hgrow => ?_, ?_, fun f fs hframes hblocks => ?_, hbooks.opened,
    fun n hn => hbooks.tally.once hn, hbooks.fates⟩
  · exact not_overruns hfits a
  · intro f fs stmtid traced opens typenameRaises oom owners s' f' hframes hen hgrow opened _
      hduring hframes' hblocks
    have hstep := hs.step hen (by trivial) hgrow
    obtain ⟨hs', hkeeps⟩ := hduring.keeps hstep (keepsEntry_begun hs hframes hgrow hduring.begun)
    obtain ⟨hended, hlog⟩ := hs'.registered.stmtEnd hframes' hblocks
    exact ⟨hlog, hended.books.stale, keepsEntry_ended hkeeps hframes' hblocks⟩
  · obtain ⟨hended, hlog⟩ := hs.registered.funcEnd hframes hblocks
    exact ⟨hlog, hended.books.stale⟩

theorem plpgsqlArrays_step {ok : PlpgsqlSt × List ℕ → PlpgsqlAct → Prop} {p : PlpgsqlSt × List ℕ}
    (h : plpgsqlArrays.ReachBy ok p) (a : PlpgsqlAct) (hen : a.Enabled p.1) (ha : ok p a) :
    plpgsqlArrays.ReachBy ok (plpgsqlArrays.next p a) := by
  apply Machine.ReachBy.step a h _ ha
  refine ⟨fun b hb => ?_, trivial⟩
  obtain rfl := Option.some.inj hb
  exact hen

/-- A function with a span, before its first statement. -/
def inFunction : PlpgsqlSt × List ℕ :=
  plpgsqlArrays.next plpgsqlArrays.init (.funcBegin true true true .never 0)

theorem reachBy_inFunction :
    plpgsqlArrays.ReachBy (fun p a => a.Atomic ∧ a.Resizes p.1) inFunction :=
  plpgsqlArrays_step .init (.funcBegin true true true .never 0) (fun h => by cases h)
    ⟨rfl, fun _ h => by cases h⟩

/-- The block of a function catches an error of a statement in it, and ends. -/
def caughtInFunction : PlpgsqlSt :=
  [PlpgsqlAct.stmtBegin 1 true true false .never 0, .subxactBegin,
    .stmtBegin 2 true true false .never 0, .error 0].foldl PlpgsqlSt.next inFunction.1

theorem statement_stack_resynchronises_caught :
    (caughtInFunction.next .stmtEnd).spans.log = [(⟨3⟩, .released), (⟨2⟩, .ended)] ∧
      (caughtInFunction.next .stmtEnd).spans.stale = [] := by
  have hduring : During [] [] 1 ⟨2⟩ (inFunction.1.next (.stmtBegin 1 true true false .never 0))
      caughtInFunction := by
    have hopen (g : Frame) (within : List Block)
        (hg : g.blocks = within ++ .stmt 1 ⟨2⟩ :: []) : StmtOpen [] [] 1 ⟨2⟩ [g] :=
      ⟨[], g, within, rfl, hg⟩
    have h₁ : During [] [] 1 ⟨2⟩ (inFunction.1.next (.stmtBegin 1 true true false .never 0))
        (inFunction.1.next (.stmtBegin 1 true true false .never 0)) := .refl (hopen _ [] rfl)
    have h₂ := h₁.step .subxactBegin trivial trivial (fun st hst => by cases hst)
      (hopen _ [.subxact] rfl)
    have h₃ := h₂.step (.stmtBegin 2 true true false .never 0) ⟨_, _, rfl, by decide⟩ trivial
      (fun st hst => by cases hst) (hopen _ [.stmt 2 ⟨3⟩, .subxact] rfl)
    exact h₃.step (.error 0) trivial trivial (fun st hst => by cases hst) (hopen _ [] rfl)
  obtain ⟨-, hstmt, -⟩ := statement_stack_resynchronises reachBy_inFunction
  obtain ⟨hlog, hstale, -⟩ := hstmt _ _ 1 true true false .never 0 caughtInFunction _ rfl
    ⟨_, _, rfl, List.not_mem_nil⟩ (fun st hst => by cases hst) ⟨2⟩ (by decide) hduring rfl rfl
  exact ⟨hlog.trans (by decide), hstale⟩

/-- Eight nested statements, the first a block with an `EXCEPTION` clause; growing the stack for the
ninth fails, and the block catches the error.  Its handler's first statement is written behind the
array. -/
def outgrown : List PlpgsqlAct :=
  [.stmtBegin 1 true true false .never 0, .subxactBegin, .stmtBegin 2 true true false .never 0,
    .stmtBegin 3 true true false .never 0, .stmtBegin 4 true true false .never 0,
    .stmtBegin 5 true true false .never 0, .stmtBegin 6 true true false .never 0,
    .stmtBegin 7 true true false .never 0, .stmtBegin 8 true true false .never 0,
    .stmtBegin 9 true true false .stmtStack 0]

theorem reachable_outgrown :
    plpgsqlArrays.ReachBy (fun _ a => a.Atomic) (outgrown.foldl plpgsqlArrays.next inFunction) := by
  have hfunc : plpgsqlArrays.ReachBy (fun _ a => a.Atomic) inFunction :=
    plpgsqlArrays_step .init (.funcBegin true true true .never 0) (fun h => by cases h) rfl
  have h₁ := plpgsqlArrays_step hfunc outgrown[0] ⟨_, _, rfl, by decide⟩ trivial
  have h₂ := plpgsqlArrays_step h₁ outgrown[1] trivial trivial
  have h₃ := plpgsqlArrays_step h₂ outgrown[2] ⟨_, _, rfl, by decide⟩ trivial
  have h₄ := plpgsqlArrays_step h₃ outgrown[3] ⟨_, _, rfl, by decide⟩ trivial
  have h₅ := plpgsqlArrays_step h₄ outgrown[4] ⟨_, _, rfl, by decide⟩ trivial
  have h₆ := plpgsqlArrays_step h₅ outgrown[5] ⟨_, _, rfl, by decide⟩ trivial
  have h₇ := plpgsqlArrays_step h₆ outgrown[6] ⟨_, _, rfl, by decide⟩ trivial
  have h₈ := plpgsqlArrays_step h₇ outgrown[7] ⟨_, _, rfl, by decide⟩ trivial
  have h₉ := plpgsqlArrays_step h₈ outgrown[8] ⟨_, _, rfl, by decide⟩ trivial
  exact plpgsqlArrays_step h₉ outgrown[9] ⟨_, _, rfl, by decide⟩ trivial

theorem handler_overruns_stack :
    plpgsqlArrays.ReachBy (fun _ a => a.Atomic) (outgrown.foldl plpgsqlArrays.next inFunction) ∧
      (PlpgsqlAct.stmtBegin 10 true true false .never 0).Enabled
        (outgrown.foldl plpgsqlArrays.next inFunction).1 ∧
      Overruns (outgrown.foldl plpgsqlArrays.next inFunction)
        (.stmtBegin 10 true true false .never 0) :=
  ⟨reachable_outgrown, ⟨_, _, rfl, by decide⟩, _, .never, 8, rfl, (fun h => by cases h), rfl,
    by decide⟩

end PostgresOtel
