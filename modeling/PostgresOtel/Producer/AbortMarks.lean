import PostgresOtel.Producer.Discards
import PostgresOtel.Producer.ErrorReports

/-!
# The spans an error kills

An `ERROR` that reaches the log hook is followed by an abort, which releases resource owners and so ends
their spans.  The hook does not look at owners: it takes every span that is not a session span for one
that the abort ends.
-/

set_option autoImplicit false

namespace PostgresOtel

open Exec

variable (released : ResourceOwner → Bool)

/-- An abort that releases these owners ends the span in the slot. -/
def OtelSlot.endedBy (slot : OtelSlot) : Bool := slot.owner.any released

/-- The innermost recording span on the active stack that the abort ends. -/
def St.innermostEnded (s : St) : Option ℕ :=
  (stackSlots s.spanStack).find? fun i => (s.slots i).endedBy released

/-- The report has become the error of the innermost span that the abort ends and of no other, and no
span that survives the abort has another status or description. -/
structure MarksKilled (env : Env) (edata : ErrorData) (s s' : St) : Prop where
  innermost : ∀ i, s.innermostEnded released = some i →
    (s'.slots i).err = some (env.capturedError edata (s.memory i))
  others : ∀ i, s.innermostEnded released ≠ some i → (s'.slots i).err = (s.slots i).err
  survivors : ∀ i, (s.slots i).endedBy released = false →
    (s'.slots i).span.status = (s.slots i).span.status ∧
      (s'.slots i).span.statusDescription = (s.slots i).span.statusDescription

/-- The first span that the hook comes to is the innermost that the abort ends, and has no more severe
error; the others that survive the abort bear the mark already.  If the abort ends no span of the stack,
the first one has a more severe error. -/
def St.HookFits (edata : ErrorData) (s : St) : Prop :=
  match listening s.slots edata s.spanStack with
  | [] => s.innermostEnded released = none
  | t :: rest =>
    (match s.innermostEnded released with
      | some k => k = t ∧ ¬ (s.slots t).Outranks edata
      | none => (s.slots t).Outranks edata) ∧
    ∀ i ∈ rest, (s.slots i).endedBy released = false → (s.slots i).BearsMark edata

variable {released} {edata : ErrorData} {env : Env} {s s' : St}

theorem endedBy_of_innermost {k : ℕ} (h : s.innermostEnded released = some k) :
    (s.slots k).endedBy released = true := by
  have hfound := List.find?_some h
  exact hfound

/-- What the marks leave of a span that survives and bears them already. -/
theorem AllMarked.survivor {targets : List ℕ} {slots slots' : ℕ → OtelSlot} {i : ℕ}
    (h : AllMarked env edata targets slots slots') (hbears : i ∈ targets → (slots i).BearsMark edata) :
    (slots' i).span.status = (slots i).span.status ∧
      (slots' i).span.statusDescription = (slots i).span.statusDescription := by
  by_cases hmem : i ∈ targets
  · obtain ⟨hstatus, hdescription⟩ := hbears hmem
    have hmark := h.marked i hmem
    exact ⟨hmark.status.trans hstatus.symm, hmark.description hdescription⟩
  · rw [h.others i hmem]
    exact ⟨rfl, rfl⟩

theorem AllMarked.err_eq {targets : List ℕ} {slots slots' : ℕ → OtelSlot}
    (h : AllMarked env edata targets slots slots') (i : ℕ) : (slots' i).err = (slots i).err := by
  by_cases hmem : i ∈ targets
  · exact (h.marked i hmem).err
  · rw [h.others i hmem]

/-- If it fits, only killed spans are marked. -/
theorem St.HookFits.marksKilled (h : s.HookFits released edata)
    (hreport : Reported env edata s.tick (listening s.slots edata s.spanStack)
      s.slots s'.slots) :
    MarksKilled released env edata s s' := by
  unfold St.HookFits at h
  unfold Reported at hreport
  cases htargets : listening s.slots edata s.spanStack with
  | nil =>
    rw [htargets] at h hreport
    dsimp only at h hreport
    constructor
    · intro i hi
      rw [h] at hi
      cases hi
    · intro i _
      rw [hreport]
    · intro i _
      rw [hreport]
      exact ⟨rfl, rfl⟩
  | cons t rest =>
    rw [htargets] at h hreport
    obtain ⟨hfirst, hrest⟩ := h
    obtain ⟨slot₁, hslot₁, hmarks⟩ := hreport
    have herr (i : ℕ) (hi : i ≠ t) : (s'.slots i).err = (s.slots i).err := by
      rw [hmarks.err_eq i, Function.update_of_ne hi]
    have hsurvivor (i : ℕ) (hi : i ≠ t) (hended : (s.slots i).endedBy released = false) :
        (s'.slots i).span.status = (s.slots i).span.status ∧
          (s'.slots i).span.statusDescription = (s.slots i).span.statusDescription := by
      have hkept := hmarks.survivor (i := i) fun hmem => by
        rw [Function.update_of_ne hi]
        exact hrest i hmem hended
      rwa [Function.update_of_ne hi] at hkept
    cases hk : s.innermostEnded released with
    | some k =>
      rw [hk] at hfirst
      obtain ⟨rfl, hrank⟩ := hfirst
      obtain ⟨-, hrecorded⟩ := hslot₁.resolve_left fun h => hrank h.1
      constructor
      · intro i hi
        rw [hk] at hi
        obtain rfl := Option.some.inj hi
        rw [hmarks.err_eq, Function.update_self]
        exact hrecorded.err
      · intro i hi
        exact herr i fun heq => hi (by rw [hk, heq])
      · intro i hended
        refine hsurvivor i (fun heq => ?_) hended
        rw [heq, endedBy_of_innermost hk] at hended
        cases hended
    | none =>
      rw [hk] at hfirst
      -- nothing has been recorded, so that the first span is as it was too
      obtain ⟨-, rfl⟩ := hslot₁.resolve_right fun h => h.1 hfirst
      rw [Function.update_eq_self] at hmarks
      constructor
      · intro i hi
        rw [hk] at hi
        cases hi
      · intro i _
        exact hmarks.err_eq i
      · intro i hended
        exact hmarks.survivor fun hmem => hrest i hmem hended

/-- Surroundings in which every allocation succeeds, and the clock shows another time than that of the
error in the slot. -/
def OtelSlot.freshEnv (slot : OtelSlot) : Env :=
  { clock := fun _ => slot.err.elim 0 fun err => err.time + 1 }

theorem OtelSlot.time_freshEnv {slot : OtelSlot} {err : OtelSlotError} (h : slot.err = some err)
    (tick : ℕ) : err.time ≠ slot.freshEnv.clock tick := by
  simp [freshEnv, h]

/-- Otherwise there are surroundings in which it goes wrong. -/
theorem St.HookFits.of_marksKilled
    (h : ∀ env : Env, env.critSectionCount = 0 → ∃ s',
      Reported env edata s.tick (listening s.slots edata s.spanStack) s.slots s'.slots ∧
        MarksKilled released env edata s s') :
    s.HookFits released edata := by
  unfold Reported at h
  unfold St.HookFits
  cases htargets : listening s.slots edata s.spanStack with
  | nil =>
    rw [htargets] at h
    dsimp only at h ⊢
    cases hk : s.innermostEnded released with
    | none => rfl
    | some k =>
      obtain ⟨s', hslots, hkilled⟩ := h (s.slots k).freshEnv rfl
      have herr := hkilled.innermost k hk
      rw [hslots] at herr
      exact absurd (Env.capturedError_time _) (OtelSlot.time_freshEnv herr _)
  | cons t rest =>
    rw [htargets] at h
    dsimp only at h ⊢
    -- a report that is recorded in the first span changes the error there
    have hfirst (hrank : ¬ (s.slots t).Outranks edata) : s.innermostEnded released = some t := by
      obtain ⟨s', ⟨slot₁, hslot₁, hmarks⟩, hkilled⟩ := h (s.slots t).freshEnv rfl
      obtain ⟨-, hrecorded⟩ := hslot₁.resolve_left fun h => hrank h.1
      by_contra hne
      have hsame := hkilled.others t hne
      rw [hmarks.err_eq, Function.update_self, hrecorded.err] at hsame
      exact OtelSlot.time_freshEnv hsame.symm s.tick (Env.capturedError_time _)
    refine ⟨?_, ?_⟩
    · cases hk : s.innermostEnded released with
      | none =>
        dsimp only
        by_contra hrank
        rw [hfirst hrank] at hk
        cases hk
      | some k =>
        have hrank : ¬ (s.slots t).Outranks edata := by
          intro hrank
          obtain ⟨s', ⟨slot₁, hslot₁, hmarks⟩, hkilled⟩ := h (s.slots k).freshEnv rfl
          obtain ⟨-, rfl⟩ := hslot₁.resolve_right fun h => h.1 hrank
          have herr := hkilled.innermost k hk
          rw [hmarks.err_eq, Function.update_eq_self] at herr
          exact OtelSlot.time_freshEnv herr s.tick (Env.capturedError_time _)
        rw [hfirst hrank] at hk
        exact ⟨(Option.some.inj hk).symm, hrank⟩
    · intro i hmem hended
      obtain ⟨s', ⟨slot₁, -, hmarks⟩, hkilled⟩ := h {} rfl
      obtain ⟨hstatus, hdescription⟩ := hkilled.survivors i hended
      have hmark := hmarks.marked i hmem
      constructor
      · rw [← hstatus]
        exact hmark.status
      · by_cases hoom : edata.sqlerrcode = errcodeOutOfMemory
        · exact .inr hoom
        · left
          rw [← hdescription]
          exact hmark.described (fun _ => rfl) hoom

/-- An `ERROR` report before an abort marks exactly the spans it kills, whatever the surroundings answer,
just when the spans that the hook takes for killed fit those that the abort ends. -/
theorem marks_killed_iff (released : ResourceOwner → Bool) (s : St)
    (hlevel : elevelError ≤ edata.elevel) :
    (∀ env : Env, env.critSectionCount = 0 →
      MarksKilled released env edata s (endState (otelEmitLogHook env edata) s)) ↔
      s.HookFits released edata := by
  have hreport (env : Env) (hcrit : env.critSectionCount = 0) :
      Reported env edata s.tick (listening s.slots edata s.spanStack) s.slots
        (endState (otelEmitLogHook env edata) s).slots := by
    have hlogged : elevelWarning ≤ edata.elevel ∧ env.critSectionCount = 0 :=
      ⟨le_trans (by decide) hlevel, hcrit⟩
    have htargets : env.reportTargets s.slots edata s.spanStack =
        listening s.slots edata s.spanStack := by
      rw [Env.reportTargets, if_pos hlogged, reportTargets, if_neg (by omega)]
    rw [← htargets]
    exact ((wp_otelEmitLogHook env edata s).mono (fun _ _ h => h) fun _ _ h => h.elim).endState
  constructor
  · intro h
    exact .of_marksKilled fun env hcrit => ⟨_, hreport env hcrit, h env hcrit⟩
  · intro h env hcrit
    exact h.marksKilled (hreport env hcrit)

/-- The report of a division by zero. -/
def zeroDivision : ErrorData :=
  { elevel := elevelError, sqlerrcode := 130, message := some (cstr "division by zero") }

/-- A span of the session, and two of the transaction's owner on top of it. -/
def nestedSpansOpen : St :=
  [{ env := {}, backend := {},
      op := .spanStart (some { name := some (cstr "session"), owner := .session }) },
    startCall "outer", startCall "inner"].foldl (producer fun _ => {}).next (initSt fun _ => {})

/-- The innermost gets the error, and the session's span is left alone. -/
theorem marks_killed_iff_owned :
    nestedSpansOpen.innermostEnded (fun owner => owner = 1) = some 2 ∧
    (nestedSpansOpen.slots 0).endedBy (fun owner => owner = 1) = false ∧
    MarksKilled (fun owner => owner = 1) {} zeroDivision nestedSpansOpen
      (endState (otelEmitLogHook {} zeroDivision) nestedSpansOpen) := by
  have hlistening : listening nestedSpansOpen.slots zeroDivision nestedSpansOpen.spanStack = [2, 1] := by
    decide +kernel
  have hended : nestedSpansOpen.innermostEnded (fun owner => owner = 1) = some 2 := by decide +kernel
  refine ⟨hended, by decide +kernel,
    (marks_killed_iff (fun owner => owner = 1) nestedSpansOpen (by decide)).2 ?_ {} rfl⟩
  rw [St.HookFits, hlistening, hended]
  refine ⟨⟨rfl, by decide +kernel⟩, fun i hi hsurvives => ?_⟩
  obtain rfl := List.mem_singleton.1 hi
  exact absurd hsurvives (by decide +kernel)

/-- Above it, a span is started for an owner that outlives the transaction. -/
def twoOwnersOpen : St :=
  (producer fun _ => {}).next ownedSpanOpen
    { env := { currentResourceOwner := some 1 }, backend := {},
      op := .spanStart (some { name := some (cstr "import"), owner := .owner 7 }) }

theorem reachable_twoOwnersOpen : (producer fun _ => {}).Reachable twoOwnersOpen :=
  Machine.Reachable.step (m := producer fun _ => {}) _ reachable_ownedSpanOpen trivial

/-- That span gets the error, though the abort does not release its owner. -/
theorem surviving_span_gets_error :
    ¬ ∀ (garbage : ℕ → OtelSlot) (s : St), (producer garbage).Reachable s →
      ∀ (released : ResourceOwner → Bool) (edata : ErrorData) (env : Env),
        elevelError ≤ edata.elevel → env.critSectionCount = 0 →
        MarksKilled released env edata s (endState (otelEmitLogHook env edata) s) := by
  intro h
  have hkilled := h (fun _ => {}) twoOwnersOpen reachable_twoOwnersOpen (fun owner => owner = 1)
    zeroDivision {} (by decide) rfl
  have hstatus := (hkilled.survivors 1 (by decide +kernel)).1
  revert hstatus
  decide +kernel

end PostgresOtel
