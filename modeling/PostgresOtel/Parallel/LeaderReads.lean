import PostgresOtel.Parallel.SharedSlots

/-!
# Workers read their own leader

A process number is used again by later processes, and a slot keeps what was published in it.  As
long as no process goes while its slot is set, every read of a worker finds what its own leader has
published last, and never what another process has.
-/

set_option autoImplicit false

namespace PostgresOtel

open SpinLock

/-- What a process has published last. -/
def ParallelSt.lastPublishedBy (s : ParallelSt) (p : ℕ) : Option OtelSpanContext :=
  lastPublication (fun q _ => decide (q = p)) s.locks.done

/-- No process goes while it has a context published. -/
def ParallelAct.LeavesClear (s : ParallelSt) : ParallelAct → Prop
  | .gone p => s.lastPublishedBy p = none
  | _ => True

/-- The section is one of this process: it publishes in its own slot and reads its leader's. -/
def BackendProc.Runs (slots : Option ℕ) (proc : BackendProc) : SlotOp → Prop
  | .publish own _ => slotOfProc slots proc.myProcNumber = some own
  | .get leader => proc.leader.isSome = true ∧
      slotOfProc slots proc.parallelLeaderProcNumber = some leader

/-- The process is there. -/
def ParallelSt.Lives (s : ParallelSt) (p : ℕ) (proc : BackendProc) : Prop :=
  s.procs p = some proc ∧ proc.ended = false

/-- What is known of the processes alone. -/
structure ProcsOk (slots : Option ℕ) (s : ParallelSt) : Prop where
  numbers : ∀ p q proc proc', s.Lives p proc → s.Lives q proc' →
    proc.myProcNumber = proc'.myProcNumber → p = q
  leaders : ∀ p proc l, s.Lives p proc → proc.leader = some l →
    ∃ leader, s.Lives l leader ∧ leader.exiting = false ∧
      proc.parallelLeaderProcNumber = leader.myProcNumber
  backends : ∀ p proc, s.procs p = some proc → proc.leader = none →
    proc.parallelLeaderProcNumber = invalidProcNumber
  busy : ∀ p op, (s.locks.phase p).op = some op → ∃ proc, s.Lives p proc ∧ proc.Runs slots op
  known : ∀ x ∈ s.locks.done, ∃ proc, s.procs x.1 = some proc

/-- The process is there and has this number. -/
def ParallelSt.HasNumber (s : ParallelSt) (p : ℕ) (n : ℤ) : Prop :=
  ∃ proc, s.Lives p proc ∧ proc.myProcNumber = n

/-- What is known of the slots: that of a process has what it has published last, and a slot of no
process has nothing. -/
structure SlotsOwned (slots : Option ℕ) (s : ParallelSt) : Prop where
  owned : ∀ p n i, s.HasNumber p n → slotOfProc slots n = some i →
    (s.locks.between i).context = s.lastPublishedBy p
  free : ∀ i, (∀ p n, s.HasNumber p n → slotOfProc slots n ≠ some i) →
    (s.locks.between i).context = none

/-- Every read has found what the leader had published last. -/
def ReadsLeader (s : ParallelSt) : Prop :=
  ∀ before after x, s.locks.done = before ++ x :: after → ∀ i, x.2.1 = .get i →
    ∃ proc leader, s.procs x.1 = some proc ∧ proc.leader = some leader ∧
      x.2.2.result = lastPublication (fun q _ => decide (q = leader)) before

section Numbers

variable {slots : Option ℕ} {n m : ℤ} {i : ℕ}

theorem eq_of_slotOfProc (h : slotOfProc slots n = some i) : n = i := by
  unfold slotOfProc at h
  obtain ⟨maxBackends, -, h⟩ := Option.bind_eq_some_iff.1 h
  split_ifs at h with hn
  have hi := Option.some.inj h
  omega

theorem slotOfProc_inj (h : slotOfProc slots n = some i) (h' : slotOfProc slots m = some i) :
    n = m := (eq_of_slotOfProc h).trans (eq_of_slotOfProc h').symm

theorem slotOfProc_invalid : slotOfProc slots invalidProcNumber = none := by
  have hneg : invalidProcNumber < 0 := by decide
  cases slots with
  | none => rfl
  | some maxBackends => simp [slotOfProc, hneg]

end Numbers

/-! ## The processes -/

section Procs

variable {slots : Option ℕ} {s : ParallelSt}

/-- A section is entered, by a process it is one of. -/
theorem ProcsOk.call (h : ProcsOk slots s) {p : ℕ} {proc : BackendProc} (hp : s.Lives p proc)
    {op : Option SlotOp} (hop : ∀ op' ∈ op, proc.Runs slots op') : ProcsOk slots (s.call p op) := by
  cases op with
  | none => exact h
  | some op =>
    refine ⟨h.numbers, h.leaders, h.backends, fun q op' hq => ?_, h.known⟩
    change (Function.update s.locks.phase p _ q).op = some op' at hq
    by_cases hqp : q = p
    · subst hqp
      rw [Function.update_self] at hq
      obtain rfl := Option.some.inj hq
      exact ⟨proc, hp, hop op rfl⟩
    · rw [Function.update_of_ne hqp] at hq
      exact h.busy q op' hq

/-- Steps under the locks leave the processes where they are, or take one out of its section. -/
theorem ProcsOk.locks (h : ProcsOk slots s) {b : Act ℕ SlotOp} (hb : b.Enabled slotSections s.locks)
    (hcall : ∀ p op, b ≠ .call p op) :
    ProcsOk slots { s with locks := s.locks.next slotSections b } := by
  refine ⟨h.numbers, h.leaders, h.backends, fun p op hp => h.busy p op (op_of_next hb hcall hp),
    fun x hx => ?_⟩
  rcases mem_done_of_next hb hx with hx | hx
  · exact h.known x hx
  · obtain ⟨proc, hproc, -⟩ := h.busy _ _ hx
    exact ⟨proc, hproc.1⟩

theorem ProcsOk.fork (h : ProcsOk slots s) {p : ℕ} {n : ℤ} {leader : Option ℕ}
    (ha : s.Enabled (.fork p n leader)) : ProcsOk slots (s.next slots (.fork p n leader)) := by
  obtain ⟨hnew, hnumber, hleader⟩ := ha
  have hold {q : ℕ} {proc : BackendProc} (hq : s.Lives q proc) : q ≠ p := by
    rintro rfl
    rw [ParallelSt.Lives, hnew] at hq
    cases hq.1
  have hlives {q : ℕ} {proc : BackendProc} (hqp : q ≠ p)
      (hq : (s.next slots (.fork p n leader)).Lives q proc) : s.Lives q proc := by
    refine ⟨?_, hq.2⟩
    rw [← hq.1]
    exact (Function.update_of_ne hqp ..).symm
  have hself {proc : BackendProc} (hq : (s.next slots (.fork p n leader)).Lives p proc) :
      proc = { myProcNumber := n, leader := leader, parallelLeaderProcNumber :=
        ((leader.bind s.procs).map BackendProc.myProcNumber).getD invalidProcNumber } := by
    have hproc := hq.1
    change Function.update s.procs p _ p = some proc at hproc
    rw [Function.update_self] at hproc
    exact (Option.some.inj hproc).symm
  have hstays {q : ℕ} {proc : BackendProc} (hq : s.Lives q proc) :
      (s.next slots (.fork p n leader)).Lives q proc :=
    ⟨(Function.update_of_ne (hold hq) ..).trans hq.1, hq.2⟩
  refine ⟨fun q r proc proc' hq hr heq => ?_, fun q proc l hq hl => ?_, fun q proc hq hl => ?_,
    fun q op hq => ?_, fun x hx => ?_⟩
  · by_cases hqp : q = p <;> by_cases hrp : r = p
    · exact hqp.trans hrp.symm
    · subst hqp
      rw [hself hq] at heq
      exact absurd heq.symm (hnumber r proc' (hlives hrp hr).1 hr.2)
    · subst hrp
      rw [hself hr] at heq
      exact absurd heq (hnumber q proc (hlives hqp hq).1 hq.2)
    · exact h.numbers q r proc proc' (hlives hqp hq) (hlives hrp hr) heq
  · by_cases hqp : q = p
    · subst hqp
      rw [hself hq] at hl ⊢
      obtain rfl : leader = some l := hl
      obtain ⟨proc', hproc', hexiting, hended⟩ := hleader l rfl
      refine ⟨proc', hstays ⟨hproc', hended⟩, hexiting, ?_⟩
      simp [hproc']
    · obtain ⟨proc', hproc', hrest⟩ := h.leaders q proc l (hlives hqp hq) hl
      exact ⟨proc', hstays hproc', hrest⟩
  · by_cases hqp : q = p
    · subst hqp
      change Function.update s.procs q _ q = some proc at hq
      rw [Function.update_self] at hq
      obtain rfl := Option.some.inj hq
      obtain rfl : leader = none := hl
      rfl
    · change Function.update s.procs p _ q = some proc at hq
      rw [Function.update_of_ne hqp] at hq
      exact h.backends q proc hq hl
  · obtain ⟨proc, hproc, hruns⟩ := h.busy q op hq
    exact ⟨proc, hstays hproc, hruns⟩
  · obtain ⟨proc, hproc⟩ := h.known x hx
    refine ⟨proc, (Function.update_of_ne ?_ ..).trans hproc⟩
    intro heq
    rw [heq, hnew] at hproc
    cases hproc

/-- A process that has no workers is on its way out. -/
theorem ProcsOk.modifyProc (h : ProcsOk slots s) {p : ℕ} {f : BackendProc → BackendProc}
    (hidle : s.locks.phase p = .idle)
    (hworkers : ∀ q worker, s.Lives q worker → worker.leader ≠ some p)
    (hf : ∀ proc, (f proc).myProcNumber = proc.myProcNumber ∧ (f proc).leader = proc.leader ∧
      (f proc).parallelLeaderProcNumber = proc.parallelLeaderProcNumber ∧
      ((f proc).ended = false → proc.ended = false)) : ProcsOk slots (s.modifyProc p f) := by
  have hother {q : ℕ} (hq : q ≠ p) : (s.modifyProc p f).procs q = s.procs q :=
    Function.update_of_ne hq ..
  have hself : (s.modifyProc p f).procs p = (s.procs p).map f := Function.update_self ..
  -- Each process was there before, and is the same but for its flags.
  have hwas {q : ℕ} {proc : BackendProc} (hq : (s.modifyProc p f).procs q = some proc) :
      ∃ old, s.procs q = some old ∧ proc.myProcNumber = old.myProcNumber ∧
        proc.leader = old.leader ∧ proc.parallelLeaderProcNumber = old.parallelLeaderProcNumber ∧
        (proc.ended = false → old.ended = false) := by
    by_cases hqp : q = p
    · subst hqp
      rw [hself] at hq
      obtain ⟨old, hold, rfl⟩ := Option.map_eq_some_iff.1 hq
      exact ⟨old, hold, hf old⟩
    · rw [hother hqp] at hq
      exact ⟨proc, hq, rfl, rfl, rfl, id⟩
  refine ⟨fun q r proc proc' hq hr heq => ?_, fun q proc l hq hl => ?_, fun q proc hq hl => ?_,
    fun q op hq => ?_, fun x hx => ?_⟩
  · obtain ⟨old, hold, hn, -, -, he⟩ := hwas hq.1
    obtain ⟨old', hold', hn', -, -, he'⟩ := hwas hr.1
    exact h.numbers q r old old' ⟨hold, he hq.2⟩ ⟨hold', he' hr.2⟩ (hn ▸ hn' ▸ heq)
  · obtain ⟨old, hold, -, hleader, hnumber, he⟩ := hwas hq.1
    rw [hleader] at hl
    have hlp : l ≠ p := fun heq => hworkers q old ⟨hold, he hq.2⟩ (heq ▸ hl)
    obtain ⟨leader, ⟨hprocs, hended⟩, hexiting, heq⟩ := h.leaders q old l ⟨hold, he hq.2⟩ hl
    exact ⟨leader, ⟨(hother hlp).trans hprocs, hended⟩, hexiting, hnumber.trans heq⟩
  · obtain ⟨old, hold, -, hleader, hnumber, -⟩ := hwas hq
    exact hnumber.trans (h.backends q old hold (hleader ▸ hl))
  · obtain ⟨proc, ⟨hproc, hended⟩, hruns⟩ := h.busy q op hq
    have hqp : q ≠ p := by
      rintro rfl
      change (s.locks.phase q).op = some op at hq
      rw [hidle] at hq
      cases hq
    exact ⟨proc, ⟨(hother hqp).trans hproc, hended⟩, hruns⟩
  · obtain ⟨proc, hproc⟩ := h.known x hx
    by_cases hxp : x.1 = p
    · refine ⟨f proc, ?_⟩
      rw [hxp, hself, ← hxp, hproc]
      rfl
    · exact ⟨proc, (hother hxp).trans hproc⟩

theorem ProcsOk.next (h : ProcsOk slots s) {a : ParallelAct} (ha : s.Enabled a) :
    ProcsOk slots (s.next slots a) := by
  have hslot (n : ℤ) (f : ℕ → SlotOp) : ∀ op ∈ (slotOfProc slots n).map f,
      ∃ i, slotOfProc slots n = some i ∧ f i = op := fun op hop => Option.map_eq_some_iff.1 hop
  cases a with
  | fork p n leader => exact h.fork ha
  | publish p ctx =>
    obtain ⟨proc, ⟨hproc, hended, -⟩, -⟩ := ha
    refine h.call ⟨hproc, hended⟩ fun op hop => ?_
    rw [hproc] at hop
    obtain ⟨i, hi, rfl⟩ := hslot _ _ op hop
    exact hi
  | get p =>
    obtain ⟨proc, ⟨hproc, hended, -⟩, -⟩ := ha
    refine h.call ⟨hproc, hended⟩ fun op hop => ?_
    rw [hproc] at hop
    obtain ⟨i, hi, rfl⟩ := hslot _ _ op hop
    refine ⟨?_, hi⟩
    -- A process that is no worker has no leader's slot.
    by_contra hnone
    rw [Option.not_isSome_iff_eq_none] at hnone
    rw [h.backends p proc hproc hnone, slotOfProc_invalid] at hi
    cases hi
  | procExit p n =>
    obtain ⟨proc, ⟨hproc, hended, hidle⟩, hexiting, hn, hworkers⟩ := ha
    have hmodified := h.modifyProc (f := fun proc => { proc with exiting := true }) hidle
      (fun q worker hq hl => absurd (hworkers q worker hq.1 hl) (by simp [hq.2]))
      fun proc => ⟨rfl, rfl, rfl, id⟩
    have hexits : (s.modifyProc p fun proc => { proc with exiting := true }).procs p =
        some { proc with exiting := true } := by
      change Function.update s.procs p _ p = _
      rw [Function.update_self, hproc]
      rfl
    refine hmodified.call ⟨hexits, hended⟩ fun op hop => ?_
    obtain ⟨i, hi, rfl⟩ := hslot _ _ op hop
    rcases hn with rfl | rfl
    · exact hi
    · rw [slotOfProc_invalid] at hi
      cases hi
  | acquire p => exact h.locks ha fun _ _ heq => by cases heq
  | step p => exact h.locks ha fun _ _ heq => by cases heq
  | release p => exact h.locks ha fun _ _ heq => by cases heq
  | gone p =>
    obtain ⟨proc, ⟨hproc, hended, hidle⟩, hexiting⟩ := ha
    refine h.modifyProc hidle (fun q worker hq hl => ?_) fun proc => ⟨rfl, rfl, rfl, fun he => ?_⟩
    · obtain ⟨leader, hleader, hnot, -⟩ := h.leaders q worker p hq hl
      obtain rfl := Option.some.inj (hproc.symm.trans hleader.1)
      rw [hexiting] at hnot
      cases hnot
    · cases he

end Procs

/-! ## The slots -/

section Slots

variable {slots : Option ℕ} {s s' : ParallelSt}

theorem SlotsOwned.congr (h : SlotsOwned slots s) (hlocks : s'.locks.atomically = s.locks.atomically)
    (hnumbers : ∀ p n, s'.HasNumber p n ↔ s.HasNumber p n) : SlotsOwned slots s' := by
  have hcells : s'.locks.between = s.locks.between := congrArg Atomic.cells hlocks
  have hdone : s'.locks.done = s.locks.done := congrArg Atomic.done hlocks
  refine ⟨fun p n i hp hi => ?_, fun i hfree => ?_⟩
  · unfold ParallelSt.lastPublishedBy
    rw [hcells, hdone]
    exact h.owned p n i ((hnumbers p n).1 hp) hi
  · rw [hcells]
    exact h.free i fun p n hp => hfree p n ((hnumbers p n).2 hp)

theorem hasNumber_congr {p : ℕ} (h : s'.procs p = s.procs p) (n : ℤ) :
    s'.HasNumber p n ↔ s.HasNumber p n := by
  unfold ParallelSt.HasNumber ParallelSt.Lives
  rw [h]

theorem hasNumber_modifyProc {p : ℕ} {f : BackendProc → BackendProc}
    (hf : ∀ proc, (f proc).myProcNumber = proc.myProcNumber ∧ (f proc).ended = proc.ended) (q : ℕ)
    (n : ℤ) : (s.modifyProc p f).HasNumber q n ↔ s.HasNumber q n := by
  by_cases hq : q = p
  · subst hq
    unfold ParallelSt.HasNumber ParallelSt.Lives
    rw [show (s.modifyProc q f).procs q = (s.procs q).map f from Function.update_self ..]
    constructor
    · rintro ⟨proc, ⟨hproc, hended⟩, hn⟩
      obtain ⟨old, hold, rfl⟩ := Option.map_eq_some_iff.1 hproc
      exact ⟨old, ⟨hold, (hf old).2 ▸ hended⟩, (hf old).1 ▸ hn⟩
    · rintro ⟨proc, ⟨hproc, hended⟩, hn⟩
      exact ⟨f proc, ⟨by rw [hproc]; rfl, (hf proc).2.trans hended⟩, (hf proc).1.trans hn⟩
  · exact hasNumber_congr (Function.update_of_ne hq ..) n

/-- A new process takes a number whose slot has nothing. -/
theorem SlotsOwned.fork (h : SlotsOwned slots s) (hprocs : ProcsOk slots s) {p : ℕ} {n : ℤ}
    {leader : Option ℕ} (ha : s.Enabled (.fork p n leader)) :
    SlotsOwned slots (s.next slots (.fork p n leader)) := by
  obtain ⟨hnew, hnumber, -⟩ := ha
  have hother {q : ℕ} (hq : q ≠ p) (m : ℤ) :
      (s.next slots (.fork p n leader)).HasNumber q m ↔ s.HasNumber q m :=
    hasNumber_congr (Function.update_of_ne hq ..) m
  have hself (m : ℤ) (hm : (s.next slots (.fork p n leader)).HasNumber p m) : m = n := by
    obtain ⟨proc, ⟨hproc, -⟩, rfl⟩ := hm
    change Function.update s.procs p _ p = some proc at hproc
    rw [Function.update_self] at hproc
    rw [← Option.some.inj hproc]
  have hunused (q : ℕ) (m : ℤ) (hq : s.HasNumber q m) : m ≠ n ∧ q ≠ p := by
    obtain ⟨proc, ⟨hproc, hended⟩, rfl⟩ := hq
    refine ⟨hnumber q proc hproc hended, ?_⟩
    rintro rfl
    rw [hnew] at hproc
    cases hproc
  refine ⟨fun q m i hq hi => ?_, fun i hfree => ?_⟩
  · by_cases hqp : q = p
    · subst hqp
      obtain rfl := hself m hq
      have hnone : s.lastPublishedBy q = none := by
        refine lastPublication_eq_none fun x hx own ctx _ => decide_eq_false fun heq => ?_
        obtain ⟨proc, hproc⟩ := hprocs.known x hx
        rw [heq, hnew] at hproc
        cases hproc
      exact (h.free i fun r k hr hk => (hunused r k hr).1 (slotOfProc_inj hk hi)).trans hnone.symm
    · exact h.owned q m i ((hother hqp m).1 hq) hi
  · exact h.free i fun q m hq => hfree q m ((hother (hunused q m hq).2 m).2 hq)

/-- A process goes with nothing published. -/
theorem SlotsOwned.gone (h : SlotsOwned slots s) {p : ℕ} (hclear : s.lastPublishedBy p = none) :
    SlotsOwned slots (s.next slots (.gone p)) := by
  have hother (q : ℕ) (m : ℤ) :
      (s.next slots (.gone p)).HasNumber q m ↔ q ≠ p ∧ s.HasNumber q m := by
    by_cases hq : q = p
    · subst hq
      refine iff_of_false (fun ⟨proc, ⟨hproc, hended⟩, _⟩ => ?_) fun h => h.1 rfl
      change Function.update s.procs q _ q = some proc at hproc
      rw [Function.update_self] at hproc
      obtain ⟨old, -, rfl⟩ := Option.map_eq_some_iff.1 hproc
      cases hended
    · rw [hasNumber_congr (Function.update_of_ne hq ..) m]
      exact (and_iff_right hq).symm
  refine ⟨fun q m i hq hi => h.owned q m i ((hother q m).1 hq).2 hi, fun i hfree => ?_⟩
  by_cases hp : ∃ n, s.HasNumber p n ∧ slotOfProc slots n = some i
  · obtain ⟨n, hn, hi⟩ := hp
    exact (h.owned p n i hn hi).trans hclear
  · refine h.free i fun q m hq hi => ?_
    by_cases hqp : q = p
    · exact hp ⟨m, hqp ▸ hq, hi⟩
    · exact hfree q m ((hother q m).2 ⟨hqp, hq⟩) hi

/-- A section that completes publishes in the slot of its own process, or reads one. -/
theorem SlotsOwned.performed (h : SlotsOwned slots s) (hprocs : ProcsOk slots s) {p : ℕ} {op : SlotOp}
    (hp : (s.locks.phase p).op = some op)
    (hlocks : s'.locks.atomically = s.locks.atomically.perform slotSections (p, op))
    (hsame : s'.procs = s.procs) : SlotsOwned slots s' := by
  have hcells : s'.locks.between = Function.update s.locks.between (slotSections.lock op)
      (slotSections.run op (s.locks.between (slotSections.lock op))).1 := congrArg Atomic.cells hlocks
  have hdone : s'.locks.done = s.locks.done ++ [(p, op,
      (slotSections.run op (s.locks.between (slotSections.lock op))).2)] :=
    congrArg Atomic.done hlocks
  have hnumbers (q : ℕ) (n : ℤ) : s'.HasNumber q n ↔ s.HasNumber q n := by
    unfold ParallelSt.HasNumber ParallelSt.Lives
    rw [hsame]
  obtain ⟨proc, hproc, hruns⟩ := hprocs.busy p op hp
  cases op with
  | get leader =>
    have hcells' : s'.locks.between = s.locks.between := by
      rw [hcells, (run_get leader _).1]
      exact Function.update_eq_self ..
    refine ⟨fun q n i hq hi => ?_, fun i hfree => ?_⟩
    · unfold ParallelSt.lastPublishedBy
      rw [hcells', hdone, lastPublication_get]
      exact h.owned q n i ((hnumbers q n).1 hq) hi
    · rw [hcells']
      exact h.free i fun q n hq => hfree q n ((hnumbers q n).2 hq)
  | publish own ctx =>
    have hown : s.HasNumber p proc.myProcNumber := ⟨proc, hproc, rfl⟩
    refine ⟨fun q n i hq hi => ?_, fun i hfree => ?_⟩
    · unfold ParallelSt.lastPublishedBy
      rw [hcells, hdone, lastPublication_publish]
      have hq := (hnumbers q n).1 hq
      by_cases hqp : p = q
      · subst hqp
        obtain ⟨proc', hproc', rfl⟩ := hq
        obtain rfl := Option.some.inj (hproc.1.symm.trans hproc'.1)
        obtain rfl : own = i := Option.some.inj (hruns.symm.trans hi)
        change (Function.update s.locks.between own _ own).context = _
        rw [Function.update_self, run_publish]
        simp
      · have hne : i ≠ own := by
          rintro rfl
          obtain ⟨proc', hproc', rfl⟩ := hq
          exact hqp (hprocs.numbers p q proc proc' hproc hproc' (slotOfProc_inj hruns hi))
        change (Function.update s.locks.between own _ i).context = _
        rw [Function.update_of_ne hne, if_neg (by simpa using hqp)]
        exact h.owned q n i hq hi
    · have hne : i ≠ own := by
        rintro rfl
        exact hfree p _ ((hnumbers p _).2 hown) hruns
      rw [hcells]
      change (Function.update s.locks.between own _ i).context = _
      rw [Function.update_of_ne hne]
      exact h.free i fun q n hq => hfree q n ((hnumbers q n).2 hq)

/-- The read of a worker, when it completes, finds what its leader has published last. -/
theorem ReadsLeader.performed (h : ReadsLeader s) (hprocs : ProcsOk slots s)
    (howned : SlotsOwned slots s) {p : ℕ} {op : SlotOp} (hp : (s.locks.phase p).op = some op)
    (hlocks : s'.locks.atomically = s.locks.atomically.perform slotSections (p, op))
    (hsame : s'.procs = s.procs) : ReadsLeader s' := by
  have hdone : s'.locks.done = s.locks.done ++ [(p, op,
      (slotSections.run op (s.locks.between (slotSections.lock op))).2)] :=
    congrArg Atomic.done hlocks
  unfold ReadsLeader
  rw [hdone, hsame]
  refine forall_split_concat h fun i hi => ?_
  obtain rfl : op = .get i := hi
  obtain ⟨proc, hproc, hworker, hslot⟩ := hprocs.busy p _ hp
  obtain ⟨l, hl⟩ := Option.isSome_iff_exists.1 hworker
  obtain ⟨leader, hleader, -, hnumber⟩ := hprocs.leaders p proc l hproc hl
  refine ⟨proc, l, hproc.1, hl, (run_get i _).2.trans ?_⟩
  rw [show s.locks.between (slotSections.lock (.get i)) = s.locks.between i from rfl,
    howned.owned l _ i ⟨leader, hleader, rfl⟩ (hnumber ▸ hslot)]
  exact otelParallelGetLeaderContext_lastPublication _ _

/-- Processes may be added and change, but for their leaders. -/
theorem ReadsLeader.congr (h : ReadsLeader s) (hdone : s'.locks.done = s.locks.done)
    (hprocs : ∀ p proc, s.procs p = some proc →
      ∃ proc', s'.procs p = some proc' ∧ proc'.leader = proc.leader) : ReadsLeader s' := by
  intro before after x hx i hi
  rw [hdone] at hx
  obtain ⟨proc, leader, hproc, hleader, hresult⟩ := h before after x hx i hi
  obtain ⟨proc', hproc', hsame⟩ := hprocs x.1 proc hproc
  exact ⟨proc', leader, hproc', hsame.trans hleader, hresult⟩

end Slots

/-! ## Runs -/

/-- What is known of a run. -/
structure WorkersOk (slots : Option ℕ) (s : ParallelSt) : Prop where
  locks : Ok slotSections s.locks
  procs : ProcsOk slots s
  owned : SlotsOwned slots s
  reads : ReadsLeader s

section Runs

variable {slots : Option ℕ} {s s' : ParallelSt}

theorem workersOk_init : WorkersOk slots (parallelContexts slots).init where
  locks := ok_init ..
  procs :=
    { numbers := fun p q proc proc' hp => by cases hp.1
      leaders := fun p proc l hp => by cases hp.1
      backends := fun p proc hp => by cases hp
      busy := fun p op hp => by cases hp
      known := fun x hx => absurd hx List.not_mem_nil }
  owned :=
    { owned := fun p n i ⟨proc, hproc, _⟩ => by cases hproc.1
      free := fun i _ => rfl }
  reads before after x hx := by cases before <;> cases hx

/-- Entering a section completes nothing. -/
theorem atomically_call (h : Ok slotSections s.locks) {p : ℕ} (hp : s.locks.phase p = .idle)
    (op : Option SlotOp) : (s.call p op).locks.atomically = s.locks.atomically := by
  cases op with
  | none => rfl
  | some op => exact atomically_next (a := .call p op) h hp

@[simp] theorem call_procs (p : ℕ) (op : Option SlotOp) : (s.call p op).procs = s.procs := by
  cases op <;> rfl

theorem hasNumber_call (p : ℕ) (op : Option SlotOp) (q : ℕ) (n : ℤ) :
    (s.call p op).HasNumber q n ↔ s.HasNumber q n :=
  hasNumber_congr (by rw [call_procs]) n

/-- A step that completes nothing and leaves the numbers of the processes. -/
theorem WorkersOk.quiet (h : WorkersOk slots s) (hlocks : Ok slotSections s'.locks)
    (hprocs : ProcsOk slots s') (hsame : s'.locks.atomically = s.locks.atomically)
    (hnumbers : ∀ p n, s'.HasNumber p n ↔ s.HasNumber p n)
    (hleaders : ∀ p proc, s.procs p = some proc →
      ∃ proc', s'.procs p = some proc' ∧ proc'.leader = proc.leader) : WorkersOk slots s' :=
  ⟨hlocks, hprocs, h.owned.congr hsame hnumbers,
    h.reads.congr (congrArg Atomic.done hsame) hleaders⟩

theorem leader_modifyProc {p q : ℕ} {f : BackendProc → BackendProc} {proc : BackendProc}
    (hf : ∀ proc, (f proc).leader = proc.leader) (hq : s.procs q = some proc) :
    ∃ proc', (s.modifyProc p f).procs q = some proc' ∧ proc'.leader = proc.leader := by
  by_cases hqp : q = p
  · subst hqp
    refine ⟨f proc, ?_, hf proc⟩
    change Function.update s.procs q _ q = _
    rw [Function.update_self, hq]
    rfl
  · exact ⟨proc, (Function.update_of_ne hqp ..).trans hq, rfl⟩

theorem WorkersOk.next (h : WorkersOk slots s) {a : ParallelAct} (ha : s.Enabled a)
    (hclear : a.LeavesClear s) : WorkersOk slots (s.next slots a) := by
  have hprocs := h.procs.next ha
  have hlocks : Ok slotSections (s.next slots a).locks := by
    rcases next_locks slots ha with heq | ⟨b, hb, heq⟩
    · exact heq ▸ h.locks
    · exact heq ▸ h.locks.next hb
  cases a with
  | fork p n leader =>
    refine ⟨hlocks, hprocs, h.owned.fork h.procs ha, h.reads.congr rfl fun q proc hq => ?_⟩
    have hqp : q ≠ p := by
      rintro rfl
      rw [ha.1] at hq
      cases hq
    exact ⟨proc, (Function.update_of_ne hqp ..).trans hq, rfl⟩
  | publish p ctx =>
    obtain ⟨proc, ⟨-, -, hidle⟩, -⟩ := ha
    exact h.quiet hlocks hprocs (atomically_call h.locks hidle _) (hasNumber_call p _)
      fun q proc hq => ⟨proc, (congrFun (call_procs ..) q).trans hq, rfl⟩
  | get p =>
    obtain ⟨proc, ⟨-, -, hidle⟩, -⟩ := ha
    exact h.quiet hlocks hprocs (atomically_call h.locks hidle _) (hasNumber_call p _)
      fun q proc hq => ⟨proc, (congrFun (call_procs ..) q).trans hq, rfl⟩
  | procExit p n =>
    obtain ⟨proc, ⟨-, -, hidle⟩, -⟩ := ha
    refine h.quiet hlocks hprocs
      (atomically_call (s := s.modifyProc p fun proc => { proc with exiting := true }) h.locks
        hidle _) (fun q m => ?_) fun q proc hq => ?_
    · exact (hasNumber_call p _ q m).trans (hasNumber_modifyProc
        (f := fun proc => { proc with exiting := true }) (fun _ => ⟨rfl, rfl⟩) q m)
    · obtain ⟨proc', hproc', hleader⟩ := leader_modifyProc (p := p)
        (f := fun proc => { proc with exiting := true }) (fun _ => rfl) hq
      exact ⟨proc', (congrFun (call_procs ..) q).trans hproc', hleader⟩
  | acquire p =>
    exact h.quiet hlocks hprocs (atomically_next (a := .acquire p) h.locks ha)
      (fun q n => hasNumber_congr rfl n) fun q proc hq => ⟨proc, hq, rfl⟩
  | step p =>
    exact h.quiet hlocks hprocs (atomically_next (a := .step p) h.locks ha)
      (fun q n => hasNumber_congr rfl n) fun q proc hq => ⟨proc, hq, rfl⟩
  | release p =>
    have hperform := atomically_next (a := .release p) h.locks ha
    obtain ⟨op, entered, vars, hp⟩ := ha
    have hcompletes : s.locks.completes (.release p) = some (p, op) := by
      simp only [State.completes, hp]
    rw [hcompletes] at hperform
    have hop : (s.locks.phase p).op = some op := by
      rw [hp]
      rfl
    exact ⟨hlocks, hprocs, h.owned.performed h.procs hop hperform rfl,
      h.reads.performed h.procs h.owned hop hperform rfl⟩
  | gone p =>
    exact ⟨hlocks, hprocs, h.owned.gone hclear, h.reads.congr rfl fun q proc hq =>
      leader_modifyProc (fun _ => rfl) hq⟩

/-- In every run in which no process goes while it has a context published, whatever the
interleaving and however the numbers are used again, a worker that reads its leader's slot gets the
context that its own leader, and no other process, has published last, or nothing if the leader has
published nothing since it started or has cleared the slot. -/
theorem worker_reads_own_leader (h : (parallelContexts slots).ReachBy (fun s a => a.LeavesClear s) s) :
    ReadsLeader s :=
  (h.invariant (I := WorkersOk slots) workersOk_init fun _ _ hI ha hok => hI.next ha hok).reads

end Runs

/-! ### A number that is used again -/

def leaderContext (traceId : OtelTraceId) : OtelSpanContext :=
  { traceId := traceId, spanId := 1, traceFlags := otelTraceFlagSampled }

/-- A backend publishes a context and goes, and another takes its number and starts a worker. -/
def numberReused (clears : List ParallelAct) : List ParallelAct :=
  [.fork 0 0 none, .publish 0 (some (leaderContext 1)), .acquire 0] ++
    List.replicate 4 (.step 0) ++ [.release 0] ++ clears ++
    [.procExit 0 invalidProcNumber, .gone 0, .fork 1 0 none, .fork 2 1 (some 1)]

/-- The worker reads while its leader publishes. -/
def readDuringPublish : List ParallelAct :=
  [.get 2, .publish 1 (some (leaderContext 2)), .acquire 1] ++ List.replicate 4 (.step 1) ++
    [.release 1, .acquire 2] ++ List.replicate 4 (.step 2) ++ [.release 2]

/-- The first backend clears its slot before it goes. -/
def clearsSlot : List ParallelAct := [.publish 0 none, .acquire 0, .step 0, .release 0]

def ParallelSt.after (acts : List ParallelAct) : ParallelSt :=
  acts.foldl (parallelContexts (some 2)).next (parallelContexts (some 2)).init

def reusedState : ParallelSt := .after (numberReused clearsSlot ++ readDuringPublish)

theorem reachBy_reusedState :
    (parallelContexts (some 2)).ReachBy (fun s a => a.LeavesClear s) reusedState := by
  refine Machine.ReachBy.run .init ⟨⟨rfl, fun q proc hq => ?_, fun l hl => ?_⟩, trivial,
    ⟨_, ⟨rfl, rfl, rfl⟩, rfl⟩, trivial, ⟨_, rfl, rfl⟩, trivial,
    ⟨_, _, _, _, _, rfl⟩, trivial, ⟨_, _, _, _, _, rfl⟩, trivial, ⟨_, _, _, _, _, rfl⟩, trivial,
    ⟨_, _, _, _, _, rfl⟩, trivial, ⟨_, _, _, rfl⟩, trivial,
    ⟨_, ⟨rfl, rfl, rfl⟩, rfl⟩, trivial, ⟨_, rfl, rfl⟩, trivial, ⟨_, _, _, _, _, rfl⟩, trivial,
    ⟨_, _, _, rfl⟩, trivial, ⟨_, ⟨rfl, rfl, rfl⟩, rfl, .inr rfl, fun q worker hq hl => ?_⟩, trivial,
    ⟨_, ⟨rfl, rfl, rfl⟩, rfl⟩, rfl, ⟨rfl, fun q proc hq hended hn => ?_, fun l hl => ?_⟩, trivial,
    ⟨rfl, fun q proc hq hended hn => ?_, fun l hl => ?_⟩, trivial,
    ⟨_, ⟨rfl, rfl, rfl⟩, rfl⟩, trivial, ⟨_, ⟨rfl, rfl, rfl⟩, rfl⟩, trivial, ⟨_, rfl, rfl⟩, trivial,
    ⟨_, _, _, _, _, rfl⟩, trivial, ⟨_, _, _, _, _, rfl⟩, trivial, ⟨_, _, _, _, _, rfl⟩, trivial,
    ⟨_, _, _, _, _, rfl⟩, trivial, ⟨_, _, _, rfl⟩, trivial, ⟨_, rfl, rfl⟩, trivial,
    ⟨_, _, _, _, _, rfl⟩, trivial, ⟨_, _, _, _, _, rfl⟩, trivial, ⟨_, _, _, _, _, rfl⟩, trivial,
    ⟨_, _, _, _, _, rfl⟩, trivial, ⟨_, _, _, rfl⟩, trivial, trivial⟩
  · cases hq
  · cases hl
  · cases q with
    | zero =>
      obtain rfl := Option.some.inj hq
      cases hl
    | succ q => cases hq
  · cases q with
    | zero =>
      obtain rfl := Option.some.inj hq
      cases hended
    | succ q => cases hq
  · cases hl
  · cases q with
    | zero =>
      obtain rfl := Option.some.inj hq
      cases hended
    | succ q =>
      cases q with
      | zero =>
        obtain rfl := Option.some.inj hq
        exact absurd hn (by decide)
      | succ q => cases hq
  · obtain rfl := Option.some.inj hl
    exact ⟨_, rfl, rfl, rfl⟩

theorem reusedState_done : reusedState.locks.done =
    reusedState.locks.done.take 3 ++ [(2, .get 0, ⟨true, leaderContext 2⟩)] := by decide +kernel

/-- The worker read all of what was published while it waited. -/
theorem slot_reads_atomic_reusedState :
    lastPublication (fun _ own => decide (own = 0)) (reusedState.locks.done.take 3) =
      some (leaderContext 2) :=
  ((slot_reads_atomic reachBy_reusedState.reachable).2 _ [] 2 0 _ reusedState_done).symm

/-- That is what its own leader published, although the slot was another's before. -/
theorem worker_reads_own_leader_reusedState :
    lastPublication (fun q _ => decide (q = 1)) (reusedState.locks.done.take 3) =
      some (leaderContext 2) := by
  obtain ⟨proc, leader, hproc, hleader, hresult⟩ :=
    worker_reads_own_leader reachBy_reusedState _ _ _ reusedState_done 0 rfl
  have hone : (reusedState.procs 2).bind BackendProc.leader = some 1 := by decide +kernel
  rw [hproc, Option.bind_some, hleader] at hone
  obtain rfl := Option.some.inj hone
  exact hresult.symm

/-- The same without the clear, and the leader publishes nothing. -/
def staleState : ParallelSt :=
  .after (numberReused [] ++ [.get 2, .acquire 2] ++ List.replicate 4 (.step 2) ++ [.release 2])

theorem reachable_staleState : (parallelContexts (some 2)).Reachable staleState := by
  refine Machine.ReachBy.run .init ⟨⟨rfl, fun q proc hq => ?_, fun l hl => ?_⟩, trivial,
    ⟨_, ⟨rfl, rfl, rfl⟩, rfl⟩, trivial, ⟨_, rfl, rfl⟩, trivial,
    ⟨_, _, _, _, _, rfl⟩, trivial, ⟨_, _, _, _, _, rfl⟩, trivial, ⟨_, _, _, _, _, rfl⟩, trivial,
    ⟨_, _, _, _, _, rfl⟩, trivial, ⟨_, _, _, rfl⟩, trivial,
    ⟨_, ⟨rfl, rfl, rfl⟩, rfl, .inr rfl, fun q worker hq hl => ?_⟩, trivial,
    ⟨_, ⟨rfl, rfl, rfl⟩, rfl⟩, trivial, ⟨rfl, fun q proc hq hended hn => ?_, fun l hl => ?_⟩, trivial,
    ⟨rfl, fun q proc hq hended hn => ?_, fun l hl => ?_⟩, trivial,
    ⟨_, ⟨rfl, rfl, rfl⟩, rfl⟩, trivial, ⟨_, rfl, rfl⟩, trivial,
    ⟨_, _, _, _, _, rfl⟩, trivial, ⟨_, _, _, _, _, rfl⟩, trivial, ⟨_, _, _, _, _, rfl⟩, trivial,
    ⟨_, _, _, _, _, rfl⟩, trivial, ⟨_, _, _, rfl⟩, trivial, trivial⟩
  · cases hq
  · cases hl
  · cases q with
    | zero =>
      obtain rfl := Option.some.inj hq
      cases hl
    | succ q => cases hq
  · cases q with
    | zero =>
      obtain rfl := Option.some.inj hq
      cases hended
    | succ q => cases hq
  · cases hl
  · cases q with
    | zero =>
      obtain rfl := Option.some.inj hq
      cases hended
    | succ q =>
      cases q with
      | zero =>
        obtain rfl := Option.some.inj hq
        exact absurd hn (by decide)
      | succ q => cases hq
  · obtain rfl := Option.some.inj hl
    exact ⟨_, rfl, rfl, rfl⟩

/-- A process that goes with its context published leaves it to the workers of the next one. -/
theorem worker_reads_stale_slot :
    ¬ ∀ s, (parallelContexts (some 2)).Reachable s → ReadsLeader s := by
  intro h
  have hdone : staleState.locks.done =
      staleState.locks.done.take 1 ++ [(2, .get 0, ⟨true, leaderContext 1⟩)] := by
    decide +kernel
  obtain ⟨proc, leader, hproc, hleader, hresult⟩ := h _ reachable_staleState _ _ _ hdone 0 rfl
  have hone : (staleState.procs 2).bind BackendProc.leader = some 1 := by decide +kernel
  rw [hproc, Option.bind_some, hleader] at hone
  obtain rfl := Option.some.inj hone
  exact absurd hresult (by decide +kernel)

/-! ## The exit callback -/

/-- The exit callback finds `MyProcNumber` as it was. -/
def ParallelAct.KeepsNumber (s : ParallelSt) : ParallelAct → Prop
  | .procExit p n => ∀ proc, s.procs p = some proc → n = proc.myProcNumber
  | _ => True

/-- Publications are in the slots of their processes; and a process whose exit callback has begun is
at its last publication, which clears the slot, or is past it with nothing published. -/
structure ExitsClear (slots : Option ℕ) (s : ParallelSt) : Prop where
  publications : ∀ x ∈ s.locks.done, ∀ own ctx, x.2.1 = .publish own ctx →
    ∃ proc, s.procs x.1 = some proc ∧ slotOfProc slots proc.myProcNumber = some own
  exiting : ∀ p proc, s.procs p = some proc → proc.exiting = true →
    (∃ own, (s.locks.phase p).op = some (.publish own none)) ∨
      (s.locks.phase p).op = none ∧ s.lastPublishedBy p = none

section ExitsClear

variable {slots : Option ℕ} {s : ParallelSt}

/-- Core never changes the number of a process it knows. -/
theorem myProcNumber_next (slots : Option ℕ) {a : ParallelAct} (ha : s.Enabled a) {p : ℕ}
    {proc : BackendProc} (hp : s.procs p = some proc) :
    ∃ proc', (s.next slots a).procs p = some proc' ∧ proc'.myProcNumber = proc.myProcNumber := by
  have hmodify (q : ℕ) {f : BackendProc → BackendProc}
      (hf : ∀ proc, (f proc).myProcNumber = proc.myProcNumber) :
      ∃ proc', (s.modifyProc q f).procs p = some proc' ∧ proc'.myProcNumber = proc.myProcNumber := by
    by_cases hpq : p = q
    · subst hpq
      exact ⟨f proc, by simp [ParallelSt.modifyProc, hp], hf proc⟩
    · exact ⟨proc, (Function.update_of_ne hpq ..).trans hp, rfl⟩
  cases a with
  | fork q n leader =>
    have hpq : p ≠ q := by
      rintro rfl
      rw [ha.1] at hp
      cases hp
    exact ⟨proc, (Function.update_of_ne hpq ..).trans hp, rfl⟩
  | publish q ctx => exact ⟨proc, (congrFun (call_procs ..) p).trans hp, rfl⟩
  | get q => exact ⟨proc, (congrFun (call_procs ..) p).trans hp, rfl⟩
  | procExit q n =>
    obtain ⟨proc', hproc', hn⟩ := hmodify q (f := fun proc => { proc with exiting := true }) fun _ => rfl
    exact ⟨proc', (congrFun (call_procs ..) p).trans hproc', hn⟩
  | acquire q => exact ⟨proc, hp, rfl⟩
  | step q => exact ⟨proc, hp, rfl⟩
  | release q => exact ⟨proc, hp, rfl⟩
  | gone q => exact hmodify q fun _ => rfl

/-- What an exiting process is at, or has published last, does not change with what others do. -/
theorem ExitsClear.quiet {s' : ParallelSt} (h : ExitsClear slots s)
    (hdone : s'.locks.done = s.locks.done)
    (hnumber : ∀ p proc, s.procs p = some proc →
      ∃ proc', s'.procs p = some proc' ∧ proc'.myProcNumber = proc.myProcNumber)
    (hexiting : ∀ p proc, s'.procs p = some proc → proc.exiting = true →
      (∃ own, (s'.locks.phase p).op = some (.publish own none)) ∨
        (s'.locks.phase p).op = none ∧ s.lastPublishedBy p = none ∨ ∃ old, s.procs p = some old ∧ old.exiting = true ∧
          (s'.locks.phase p).op = (s.locks.phase p).op) : ExitsClear slots s' := by
  refine ⟨fun x hx own ctx hop => ?_, fun p proc hp he => ?_⟩
  · rw [hdone] at hx
    obtain ⟨proc, hproc, hslot⟩ := h.publications x hx own ctx hop
    obtain ⟨proc', hproc', hn⟩ := hnumber _ _ hproc
    exact ⟨proc', hproc', hn ▸ hslot⟩
  · unfold ParallelSt.lastPublishedBy
    rw [hdone]
    rcases hexiting p proc hp he with hop | hnone | ⟨old, hold, he', hop⟩
    · exact .inl hop
    · exact .inr hnone
    · rw [hop]
      exact h.exiting p old hold he'

theorem ExitsClear.released (h : ExitsClear slots s) (hprocs : ProcsOk slots s)
    {p : ℕ} (ha : s.Enabled (.release p)) :
    ExitsClear slots (s.next slots (.release p)) := by
  obtain ⟨op, entered, vars, hp⟩ := ha
  have hop : (s.locks.phase p).op = some op := by
    rw [hp]
    rfl
  have hdone : (s.next slots (.release p)).locks.done = s.locks.done ++ [(p, op, vars)] := by
    change (s.locks.next slotSections (.release p)).done = _
    simp only [State.next, hp]
  obtain ⟨proc, hproc, hruns⟩ := hprocs.busy p op hop
  refine ⟨fun x hx own ctx hx' => ?_, fun q proc' hq he => ?_⟩
  · rw [hdone] at hx
    rcases List.mem_append.1 hx with hx | hx
    · exact h.publications x hx own ctx hx'
    · obtain rfl := List.mem_singleton.1 hx
      obtain rfl : op = .publish own ctx := hx'
      exact ⟨proc, hproc.1, hruns⟩
  · have hquiet (hne : q ≠ p) : (s.next slots (.release p)).lastPublishedBy q = s.lastPublishedBy q := by
      unfold ParallelSt.lastPublishedBy
      rw [hdone]
      cases op with
      | get leader => exact lastPublication_get ..
      | publish own ctx => rw [lastPublication_publish, if_neg (by simpa using Ne.symm hne)]
    by_cases hqp : q = p
    · subst hqp
      rcases h.exiting q proc' hq he with ⟨own, hown⟩ | ⟨hnone, -⟩
      · obtain rfl := Option.some.inj (hop.symm.trans hown)
        refine .inr ⟨?_, ?_⟩
        · change ((s.locks.next slotSections (.release q)).phase q).op = none
          simp only [State.next, hp, Function.update_self]
          rfl
        · unfold ParallelSt.lastPublishedBy
          rw [hdone, lastPublication_publish]
          simp [otelParallelPublishLeaderContext]
      · rw [hop] at hnone
        cases hnone
    · have hsame : ((s.next slots (.release p)).locks.phase q).op = (s.locks.phase q).op := by
        refine op_next (a := Act.release p) ⟨op, entered, vars, hp⟩ (fun _ _ heq => ?_) fun heq => ?_
        · cases heq
        · injection heq with heq
          exact hqp heq.symm
      rw [hquiet hqp, hsame]
      exact h.exiting q proc' hq he

theorem ExitsClear.next (h : ExitsClear slots s) (hprocs : ProcsOk slots s)
    (hlocks : Ok slotSections s.locks) {a : ParallelAct} (ha : s.Enabled a) (hnumber : a.KeepsNumber s) :
    ExitsClear slots (s.next slots a) := by
  have hnumbers {p : ℕ} {proc : BackendProc} (hp : s.procs p = some proc) :=
    myProcNumber_next slots ha hp
  -- A call of a process that is not exiting.
  have hcall {p : ℕ} {proc : BackendProc} (hp : s.procs p = some proc)
      (hnot : proc.exiting = false) (op : Option SlotOp) (q : ℕ) (proc' : BackendProc)
      (hq : s.procs q = some proc') (he : proc'.exiting = true) :
      ((s.call p op).locks.phase q).op = (s.locks.phase q).op := by
    have hqp : q ≠ p := by
      rintro rfl
      obtain rfl := Option.some.inj (hp.symm.trans hq)
      rw [he] at hnot
      cases hnot
    cases op with
    | none => rfl
    | some op => exact congrArg Phase.op (Function.update_of_ne hqp ..)
  cases a with
  | fork p n leader =>
    refine h.quiet rfl (fun _ _ => hnumbers) fun q proc hq he => .inr (.inr ?_)
    by_cases hqp : q = p
    · subst hqp
      change Function.update s.procs q _ q = some proc at hq
      rw [Function.update_self] at hq
      obtain rfl := Option.some.inj hq
      cases he
    · change Function.update s.procs p _ q = some proc at hq
      rw [Function.update_of_ne hqp] at hq
      exact ⟨proc, hq, he, rfl⟩
  | publish p ctx =>
    obtain ⟨proc, ⟨hp, -, hidle⟩, hnot⟩ := id ha
    refine h.quiet (congrArg Atomic.done (atomically_call hlocks hidle _)) (fun _ _ => hnumbers)
      fun q proc' hq he => .inr (.inr ?_)
    have hq : s.procs q = some proc' := (congrFun (call_procs ..) q).symm.trans hq
    exact ⟨proc', hq, he, hcall hp hnot _ q proc' hq he⟩
  | get p =>
    obtain ⟨proc, ⟨hp, -, hidle⟩, hnot⟩ := id ha
    refine h.quiet (congrArg Atomic.done (atomically_call hlocks hidle _)) (fun _ _ => hnumbers)
      fun q proc' hq he => .inr (.inr ?_)
    have hq : s.procs q = some proc' := (congrFun (call_procs ..) q).symm.trans hq
    exact ⟨proc', hq, he, hcall hp hnot _ q proc' hq he⟩
  | procExit p n =>
    obtain ⟨proc, ⟨hp, -, hidle⟩, -, -, -⟩ := id ha
    obtain rfl : n = proc.myProcNumber := hnumber proc hp
    refine h.quiet (congrArg Atomic.done (atomically_call
      (s := s.modifyProc p fun proc => { proc with exiting := true }) hlocks hidle _))
      (fun _ _ => hnumbers) fun q proc' hq he => ?_
    by_cases hqp : q = p
    · subst hqp
      cases hslot : slotOfProc slots proc.myProcNumber with
      | some own =>
        refine .inl ⟨own, ?_⟩
        simp [ParallelSt.next, hslot, ParallelSt.call, State.next, Phase.op]
      | none =>
        -- A process without a slot has published nothing.
        refine .inr (.inl ⟨?_, lastPublication_eq_none fun x hx own ctx hop => ?_⟩)
        · simp only [ParallelSt.next, hslot]
          change (s.locks.phase q).op = none
          rw [hidle]
          rfl
        · refine decide_eq_false fun heq => ?_
          obtain ⟨old, hold, hown⟩ := h.publications x hx own ctx hop
          obtain rfl := Option.some.inj ((heq ▸ hold).symm.trans hp)
          rw [hslot] at hown
          cases hown
    · refine .inr (.inr ⟨proc', ?_, he, ?_⟩)
      · rw [← hq]
        exact ((congrFun (call_procs ..) q).trans (Function.update_of_ne hqp ..)).symm
      · change ((ParallelSt.call _ p _).locks.phase q).op = _
        cases (slotOfProc slots proc.myProcNumber).map (SlotOp.publish · none) with
        | none => rfl
        | some op => exact congrArg Phase.op (Function.update_of_ne hqp ..)
  | acquire p =>
    refine h.quiet (congrArg Atomic.done (atomically_next (a := Act.acquire p) hlocks ha))
      (fun _ _ => hnumbers) fun q proc hq he => .inr (.inr ⟨proc, hq, he, ?_⟩)
    exact op_next (a := Act.acquire p) ha (fun _ _ heq => by cases heq) fun heq => by cases heq
  | step p =>
    refine h.quiet (congrArg Atomic.done (atomically_next (a := Act.step p) hlocks ha))
      (fun _ _ => hnumbers) fun q proc hq he => .inr (.inr ⟨proc, hq, he, ?_⟩)
    exact op_next (a := Act.step p) ha (fun _ _ heq => by cases heq) fun heq => by cases heq
  | release p => exact h.released hprocs ha
  | gone p =>
    refine h.quiet rfl (fun _ _ => hnumbers) fun q proc hq he => .inr (.inr ?_)
    by_cases hqp : q = p
    · subst hqp
      change Function.update s.procs q _ q = some proc at hq
      rw [Function.update_self] at hq
      obtain ⟨old, hold, rfl⟩ := Option.map_eq_some_iff.1 hq
      exact ⟨old, hold, he, rfl⟩
    · change Function.update s.procs p _ q = some proc at hq
      rw [Function.update_of_ne hqp] at hq
      exact ⟨proc, hq, he, rfl⟩

theorem exitsClear_init : ExitsClear slots (parallelContexts slots).init where
  publications x hx := absurd hx List.not_mem_nil
  exiting p proc hp := by cases hp

/-- If the exit callback finds the number of the process, no process goes with its slot set. -/
theorem leavesClear_of_keepsNumber
    (h : (parallelContexts slots).ReachBy (fun s a => a.KeepsNumber s) s) :
    (parallelContexts slots).ReachBy (fun s a => a.LeavesClear s) s := by
  have hall (s : ParallelSt) (hs : (parallelContexts slots).ReachBy (fun s a => a.KeepsNumber s) s) :
      Ok slotSections s.locks ∧ ProcsOk slots s ∧ ExitsClear slots s := by
    apply hs.invariant (I := fun s => Ok slotSections s.locks ∧ ProcsOk slots s ∧ ExitsClear slots s)
    · exact ⟨workersOk_init.locks, workersOk_init.procs, exitsClear_init⟩
    · rintro s a ⟨hlocks, hprocs, hexits⟩ ha hnumber
      refine ⟨?_, hprocs.next ha, hexits.next hprocs hlocks ha hnumber⟩
      change Ok slotSections (s.next slots a).locks
      rcases next_locks slots ha with heq | ⟨b, hb, heq⟩
      · exact heq ▸ hlocks
      · exact heq ▸ hlocks.next hb
  refine (h.withInvariant hall).mono fun s a ⟨_, ha, _, _, hexits⟩ => ?_
  cases a with
  | gone p =>
    obtain ⟨proc, ⟨hp, -, hidle⟩, he⟩ := ha
    rcases hexits.exiting p proc hp he with ⟨own, hown⟩ | ⟨-, hnone⟩
    · rw [hidle] at hown
      cases hown
    · exact hnone
  | _ => exact trivial

end ExitsClear

end PostgresOtel
