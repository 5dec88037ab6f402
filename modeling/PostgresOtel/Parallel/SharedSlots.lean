import Mathlib.Data.List.Induction
import Mathlib.Tactic.SplitIfs
import PostgresOtel.Lib.SpinLock
import PostgresOtel.Parallel.Slot

/-!
# The slots of all backends

The array of `otel_parallel.c`, with its slots as the fields they have and a lock on each, and the
processes that come and go: backends, each with a number of its own while it lives, and parallel
workers, each with the number of its leader.  The fields are written and read one at a time, in any
interleaving of the processes.
-/

set_option autoImplicit false

namespace PostgresOtel

open SpinLock

/-! ## Sections -/

/-- `OtelParallelContextSlot`, but for its lock. -/
structure OtelParallelContextSlot where
  set : Bool := false
  traceId : OtelTraceId := 0
  spanId : OtelSpanId := 0
  traceFlags : TraceFlags := 0
  deriving DecidableEq

/-- What is published in a slot. -/
def OtelParallelContextSlot.context (slot : OtelParallelContextSlot) : Option OtelSpanContext :=
  if slot.set then some ⟨slot.traceId, slot.spanId, slot.traceFlags, none⟩ else none

/-- A section under the lock of a slot: that of `otel_parallel_publish_leader_context` or that of
`otel_parallel_get_leader_context`. -/
inductive SlotOp
  | publish (own : ℕ) (ctx : Option OtelSpanContext)
  | get (leader : ℕ)
  deriving DecidableEq

/-- The variables of a section: whether `slot->set` was found, and `out`. -/
structure SlotVars where
  found : Bool := false
  out : OtelSpanContext := {}
  deriving DecidableEq

/-- What `otel_parallel_get_leader_context` returns. -/
def SlotVars.result (vars : SlotVars) : Option OtelSpanContext :=
  some vars.out |>.filter fun ctx => otelSpanContextIsValid ctx

/-- A store into the slot. -/
def store (f : OtelParallelContextSlot → OtelParallelContextSlot) :
    OtelParallelContextSlot × SlotVars → OtelParallelContextSlot × SlotVars := fun x => (f x.1, x.2)

/-- A load from the slot, of a slot that was found to be set. -/
def load (f : OtelParallelContextSlot → OtelSpanContext → OtelSpanContext) :
    OtelParallelContextSlot × SlotVars → OtelParallelContextSlot × SlotVars := fun x =>
  (x.1, if x.2.found then { x.2 with out := f x.1 x.2.out } else x.2)

def SlotOp.steps : SlotOp → List (OtelParallelContextSlot × SlotVars → OtelParallelContextSlot × SlotVars)
  | .publish _ ctx =>
    match ctx.filter fun ctx => otelSpanContextIsValid ctx with
    | none => [store fun slot => { slot with set := false }]
    | some ctx =>
      [store fun slot => { slot with traceId := ctx.traceId },
       store fun slot => { slot with spanId := ctx.spanId },
       store fun slot => { slot with traceFlags := ctx.traceFlags },
       store fun slot => { slot with set := true }]
  | .get _ =>
    [fun x => (x.1, { x.2 with found := x.1.set }),
     load fun slot out => { out with traceId := slot.traceId },
     load fun slot out => { out with spanId := slot.spanId },
     load fun slot out => { out with traceFlags := slot.traceFlags }]

def slotSections : Sections ℕ OtelParallelContextSlot SlotVars SlotOp where
  lock
    | .publish own _ => own
    | .get leader => leader
  start _ := {}
  steps := SlotOp.steps

/-- Run at once, a publication is that of the slot as a whole. -/
theorem run_publish (own : ℕ) (ctx : Option OtelSpanContext) (slot : OtelParallelContextSlot) :
    (slotSections.run (.publish own ctx) slot).1.context = otelParallelPublishLeaderContext ctx := by
  unfold otelParallelPublishLeaderContext Sections.run slotSections SlotOp.steps
  dsimp only
  cases ctx.filter fun ctx => otelSpanContextIsValid ctx <;> rfl

/-- So is a read, and it leaves the slot alone. -/
theorem run_get (leader : ℕ) (slot : OtelParallelContextSlot) :
    (slotSections.run (.get leader) slot).1 = slot ∧
      (slotSections.run (.get leader) slot).2.result =
        otelParallelGetLeaderContext true slot.context := by
  obtain ⟨set, traceId, spanId, traceFlags⟩ := slot
  cases set <;> exact ⟨rfl, rfl⟩

/-! ## Processes -/

/-- `INVALID_PROC_NUMBER`. -/
def invalidProcNumber : ℤ := -1

/-- A process: `MyProcNumber`, and for a parallel worker its leader and `ParallelLeaderProcNumber`.
`exiting` says that its exit callbacks have begun, `ended` that it is gone. -/
structure BackendProc where
  myProcNumber : ℤ
  leader : Option ℕ := none
  parallelLeaderProcNumber : ℤ := invalidProcNumber
  exiting : Bool := false
  ended : Bool := false
  deriving DecidableEq

/-- The slot of a process number; there is none if the array is not attached. -/
def slotOfProc (otelParallelSlots : Option ℕ) (n : ℤ) : Option ℕ :=
  otelParallelSlots.bind fun maxBackends =>
    if n < 0 ∨ (maxBackends : ℤ) ≤ n then none else some n.toNat

/-- The array under its locks, and the processes there have been. -/
structure ParallelSt where
  locks : State ℕ ℕ OtelParallelContextSlot SlotVars SlotOp
  procs : ℕ → Option BackendProc

inductive ParallelAct
  /-- A process starts, as a parallel worker if it has a leader. -/
  | fork (p : ℕ) (procNumber : ℤ) (leader : Option ℕ)
  | publish (p : ℕ) (ctx : Option OtelSpanContext)
  | get (p : ℕ)
  /-- `otel_parallel_proc_exit_cb`, with what `MyProcNumber` is when it is called. -/
  | procExit (p : ℕ) (myProcNumber : ℤ)
  | acquire (p : ℕ)
  | step (p : ℕ)
  | release (p : ℕ)
  | gone (p : ℕ)

namespace ParallelSt

variable (slots : Option ℕ) (s : ParallelSt)

/-- The process is there, and outside of any section. -/
def Free (p : ℕ) (proc : BackendProc) : Prop :=
  s.procs p = some proc ∧ proc.ended = false ∧ s.locks.phase p = .idle

/-- What core promises: numbers are not shared, a worker is started while its leader runs, and a
leader waits for its workers before it exits. -/
def Enabled : ParallelAct → Prop
  | .fork p procNumber leader => s.procs p = none ∧
      (∀ q proc, s.procs q = some proc → proc.ended = false → proc.myProcNumber ≠ procNumber) ∧
      ∀ l ∈ leader, ∃ proc, s.procs l = some proc ∧ proc.exiting = false ∧ proc.ended = false
  | .publish p _ => ∃ proc, s.Free p proc ∧ proc.exiting = false
  | .get p => ∃ proc, s.Free p proc ∧ proc.exiting = false
  | .procExit p myProcNumber => ∃ proc, s.Free p proc ∧ proc.exiting = false ∧
      (myProcNumber = proc.myProcNumber ∨ myProcNumber = invalidProcNumber) ∧
      ∀ q worker, s.procs q = some worker → worker.leader = some p → worker.ended = true
  | .acquire p => Act.Enabled slotSections s.locks (.acquire p)
  | .step p => Act.Enabled slotSections s.locks (.step p)
  | .release p => Act.Enabled slotSections s.locks (.release p)
  | .gone p => ∃ proc, s.Free p proc ∧ proc.exiting = true

/-- A section is entered, if there is a slot for it. -/
def call (p : ℕ) (op : Option SlotOp) : ParallelSt :=
  match op with
  | some op => { s with locks := s.locks.next slotSections (.call p op) }
  | none => s

/-- Change what is known of a process. -/
def modifyProc (p : ℕ) (f : BackendProc → BackendProc) : ParallelSt :=
  { s with procs := Function.update s.procs p ((s.procs p).map f) }

def next : ParallelAct → ParallelSt
  | .fork p procNumber leader =>
    { s with
      procs := Function.update s.procs p (some
        { myProcNumber := procNumber
          leader := leader
          parallelLeaderProcNumber := ((leader.bind s.procs).map BackendProc.myProcNumber).getD
            invalidProcNumber }) }
  | .publish p ctx => s.call p
      (((s.procs p).bind fun proc => slotOfProc slots proc.myProcNumber).map (.publish · ctx))
  | .get p => s.call p
      (((s.procs p).bind fun proc => slotOfProc slots proc.parallelLeaderProcNumber).map .get)
  | .procExit p myProcNumber =>
    (s.modifyProc p fun proc => { proc with exiting := true }).call p
      ((slotOfProc slots myProcNumber).map (.publish · none))
  | .acquire p => { s with locks := s.locks.next slotSections (.acquire p) }
  | .step p => { s with locks := s.locks.next slotSections (.step p) }
  | .release p => { s with locks := s.locks.next slotSections (.release p) }
  | .gone p => s.modifyProc p fun proc => { proc with ended := true }

end ParallelSt

/-- The processes of a server and the slots they share. -/
def parallelContexts (slots : Option ℕ) : Machine ParallelSt ParallelAct where
  init := { locks := .init fun _ => {}, procs := fun _ => none }
  enabled := ParallelSt.Enabled
  next s a := s.next slots a

section Runs

variable {slots : Option ℕ} {s : ParallelSt}

/-- A step of the system is one of the locks, or leaves them alone. -/
theorem next_locks (slots : Option ℕ) {a : ParallelAct} (ha : s.Enabled a) :
    (s.next slots a).locks = s.locks ∨
    ∃ b, Act.Enabled slotSections s.locks b ∧
      (s.next slots a).locks = s.locks.next slotSections b := by
  have hcall (s' : ParallelSt) (hs' : s'.locks = s.locks) {p : ℕ} (hp : s.locks.phase p = .idle)
      (op : Option SlotOp) : (s'.call p op).locks = s.locks ∨
        ∃ b, Act.Enabled slotSections s.locks b ∧
          (s'.call p op).locks = s.locks.next slotSections b := by
    cases op with
    | none => exact .inl hs'
    | some op =>
      refine .inr ⟨.call p op, hp, ?_⟩
      rw [← hs']
      rfl
  cases a with
  | fork p procNumber leader => exact .inl rfl
  | publish p ctx =>
    obtain ⟨proc, ⟨-, -, hp⟩, -⟩ := ha
    exact hcall s rfl hp _
  | get p =>
    obtain ⟨proc, ⟨-, -, hp⟩, -⟩ := ha
    exact hcall s rfl hp _
  | procExit p myProcNumber =>
    obtain ⟨proc, ⟨-, -, hp⟩, -⟩ := ha
    exact hcall (s.modifyProc p fun proc => { proc with exiting := true }) rfl hp _
  | acquire p => exact .inr ⟨.acquire p, ha, rfl⟩
  | step p => exact .inr ⟨.step p, ha, rfl⟩
  | release p => exact .inr ⟨.release p, ha, rfl⟩
  | gone p => exact .inl rfl

theorem reachable_locks {ok : ParallelSt → ParallelAct → Prop}
    (h : (parallelContexts slots).ReachBy ok s) :
    (locked slotSections fun _ => {}).Reachable s.locks := by
  induction h with
  | init => exact .init
  | @step s a _ ha _ ih =>
    change (locked slotSections fun _ => {}).Reachable (s.next slots a).locks
    rcases next_locks slots ha with heq | ⟨b, hb, heq⟩
    · exact heq ▸ ih
    · exact heq ▸ ih.step b hb

end Runs

/-! ## What was published last -/

/-- The context published last, by the operations of a history that `q` picks by their process and
slot. -/
def lastPublication (q : ℕ → ℕ → Bool) (done : List (ℕ × SlotOp × SlotVars)) :
    Option OtelSpanContext :=
  done.foldl (fun last x => match x.2.1 with
    | .publish own ctx => if q x.1 own then otelParallelPublishLeaderContext ctx else last
    | .get _ => last) none

section LastPublication

variable {q : ℕ → ℕ → Bool} {done : List (ℕ × SlotOp × SlotVars)}

theorem lastPublication_publish (p own : ℕ) (ctx : Option OtelSpanContext) (vars : SlotVars) :
    lastPublication q (done ++ [(p, .publish own ctx, vars)]) =
      if q p own then otelParallelPublishLeaderContext ctx else lastPublication q done := by
  simp [lastPublication]

theorem lastPublication_get (p leader : ℕ) (vars : SlotVars) :
    lastPublication q (done ++ [(p, .get leader, vars)]) = lastPublication q done := by
  simp [lastPublication]

/-- Only valid contexts are published. -/
theorem otelParallelGetLeaderContext_lastPublication (q : ℕ → ℕ → Bool)
    (done : List (ℕ × SlotOp × SlotVars)) :
    otelParallelGetLeaderContext true (lastPublication q done) = lastPublication q done := by
  induction done using List.reverseRecOn with
  | nil => rfl
  | append_singleton done x ih =>
    obtain ⟨p, op, vars⟩ := x
    cases op with
    | get leader => rwa [lastPublication_get]
    | publish own ctx =>
      rw [lastPublication_publish]
      split_ifs
      · unfold otelParallelGetLeaderContext otelParallelPublishLeaderContext
        cases hctx : ctx.filter fun ctx => otelSpanContextIsValid ctx with
        | none => rfl
        | some ctx' =>
          have hvalid : otelSpanContextIsValid { ctx' with tracestate := none } = true :=
            (Option.filter_eq_some_iff.1 hctx).2
          simp [Option.filter, hvalid]
      · exact ih

theorem lastPublication_eq_none
    (h : ∀ x ∈ done, ∀ own ctx, x.2.1 = .publish own ctx → q x.1 own = false) :
    lastPublication q done = none := by
  induction done using List.reverseRecOn with
  | nil => rfl
  | append_singleton done x ih =>
    have hdone := ih fun y hy => h y (List.mem_append_left _ hy)
    have hx := h x (List.mem_append_right _ (List.mem_singleton_self x))
    obtain ⟨p, op, vars⟩ := x
    cases op with
    | get leader => rwa [lastPublication_get]
    | publish own ctx =>
      rw [lastPublication_publish, if_neg (by simp [hx own ctx rfl])]
      exact hdone

/-- A slot has what was published in it last. -/
theorem context_cellsAfter (i : ℕ) (done : List (ℕ × SlotOp × SlotVars)) :
    (cellsAfter slotSections (fun _ => {}) done i).context =
      lastPublication (fun _ own => decide (own = i)) done := by
  induction done using List.reverseRecOn with
  | nil => rfl
  | append_singleton done x ih =>
    obtain ⟨p, op, vars⟩ := x
    rw [cellsAfter_concat]
    cases op with
    | get leader =>
      rw [lastPublication_get, (run_get leader _).1]
      change (Function.update (cellsAfter slotSections _ done) leader
        (cellsAfter slotSections _ done leader) i).context = _
      rw [Function.update_eq_self]
      exact ih
    | publish own ctx =>
      rw [lastPublication_publish]
      change (Function.update (cellsAfter slotSections _ done) own _ i).context = _
      by_cases hi : own = i
      · subst hi
        rw [Function.update_self, run_publish]
        simp
      · rw [Function.update_of_ne (Ne.symm hi)]
        simpa [hi] using ih

end LastPublication

/-! ## No torn reads -/

/-- However the processes interleave, no two are in a section of one slot, and what a worker reads is
all of the context that was published last in the slot before its read was completed, or nothing if
the slot was cleared last or never set. -/
theorem slot_reads_atomic {slots : Option ℕ} {s : ParallelSt}
    (h : (parallelContexts slots).Reachable s) :
    (∀ p q op op' entered entered' rest rest' vars vars',
      s.locks.phase p = .inside op entered rest vars →
      s.locks.phase q = .inside op' entered' rest' vars' →
      slotSections.lock op' = slotSections.lock op → q = p) ∧
    ∀ before after p i vars, s.locks.done = before ++ (p, .get i, vars) :: after →
      vars.result = lastPublication (fun _ own => decide (own = i)) before := by
  have hlocks := reachable_locks h
  refine ⟨fun p q op op' entered entered' rest rest' vars vars' hp hq hlock =>
    (reachable_ok hlocks).exclusive hp hq hlock, fun before after p i vars hdone => ?_⟩
  have hread : vars = (slotSections.run (.get i) (cellsAfter slotSections (fun _ => {}) before i)).2 :=
    (reachable_history hlocks).2 before after _ hdone
  calc vars.result
    _ = otelParallelGetLeaderContext true
        (cellsAfter slotSections (fun _ => {}) before i).context := by
      rw [hread]
      exact (run_get i _).2
    _ = lastPublication (fun _ own => decide (own = i)) before := by
      rw [context_cellsAfter, otelParallelGetLeaderContext_lastPublication]

end PostgresOtel
