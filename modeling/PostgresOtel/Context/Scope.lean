import PostgresOtel.Context.Request

/-!
# How long a context stays in force

The clear at ready-for-query resets the root context and nothing else: the header's text stays in
the setting.  So a header's context comes back when core hands that text back, at the end of a
transaction or to a worker; and a context that `SET` installed is taken down when a header, even a
malformed one, arrived while it was in force.
-/

set_option autoImplicit false

namespace PostgresOtel

/-! ## The flag of the clear -/

/-- The header left a context in force, its own or one it found. -/
def Arrival.Marks (d : Defaults) (h : Arrival) : Prop :=
  if h.traceparent = [] then (otelTraceparentParse d.traceparent).isSome = true
  else (otelTraceparentParse h.traceparent).isSome = true ∨ h.inForce = true

instance (d : Defaults) (h : Arrival) : Decidable (h.Marks d) := by
  unfold Arrival.Marks
  infer_instance

/-- What the flag of the clear stands for; an unset root context is all zero. -/
structure RequestSt.Flagged (d : Defaults) (s : RequestSt) : Prop where
  flag : s.otelCtxFromMHeader = true ↔ ∃ h ∈ s.arrivals, h.Marks d
  zero : s.root.isSet = false → s.root = {}

namespace RequestSt

variable {d : Defaults} {s : RequestSt}

theorem assignTraceparent_zero (text : CString) :
    (assignTraceparent text).isSet = false → assignTraceparent text = {} := by
  intro h
  rw [assignTraceparent_isSet, Option.isSome_eq_false_iff, Option.isNone_iff_eq_none] at h
  exact assignTraceparent_none h

/-- A header that is accepted, or that resets the setting, installs a context. -/
theorem receive_installs {tp text : CString} (ts : CString)
    (h : tp = [] ∧ text = d.traceparent ∨ (otelTraceparentParse tp).isSome ∧ text = tp) :
    (s.receive d tp ts).root = assignTraceparent text ∧
      (s.receive d tp ts).ended = s.ended.filter (· ≠ (assignTraceparent text).ctx) ∧
      (s.receive d tp ts).otelCtxFromMHeader =
        (s.otelCtxFromMHeader || (assignTraceparent text).isSet) ∧
      (s.receive d tp ts).workers = s.workers := by
  rcases h with ⟨rfl, rfl⟩ | ⟨hsome, rfl⟩
  · simp only [receive, otelTraceContextApplyCb, setTraceparent, setTracestate, if_true]
    cases hset : (assignTraceparent d.traceparent).isSet <;>
      simp [installed, assigned, hset]
  · have hne : text ≠ [] := by
      rintro rfl
      cases hsome
    simp only [receive, otelTraceContextApplyCb, setTraceparent_some hsome, setTracestate,
      if_neg hne, installed, assigned]
    cases hset : (assignTraceparent text).isSet
    · simp only [Bool.false_eq_true, if_false, Bool.or_false]
      exact ⟨trivial, rfl, trivial, trivial⟩
    · simp only [if_true, Bool.or_true]
      exact ⟨trivial, rfl, trivial, trivial⟩

/-- A malformed header changes nothing but the flag. -/
theorem receive_malformed {tp : CString} (ts : CString) (hne : tp ≠ [])
    (h : otelTraceparentParse tp = none) :
    (s.receive d tp ts).root = s.root ∧ (s.receive d tp ts).ended = s.ended ∧
      (s.receive d tp ts).otelCtxFromMHeader = (s.otelCtxFromMHeader || s.root.isSet) ∧
      (s.receive d tp ts).workers = s.workers := by
  simp only [receive, otelTraceContextApplyCb, setTraceparent_rejected hne h, setTracestate,
    if_neg hne]
  cases hset : s.root.isSet <;> simp

/-- Either a header installs a context or it is malformed. -/
theorem receive_cases (tp : CString) :
    (∃ text, tp = [] ∧ text = d.traceparent ∨ (otelTraceparentParse tp).isSome ∧ text = tp) ∨
      tp ≠ [] ∧ otelTraceparentParse tp = none := by
  by_cases hne : tp = []
  · exact .inl ⟨d.traceparent, .inl ⟨hne, rfl⟩⟩
  · cases h : otelTraceparentParse tp with
    | none => exact .inr ⟨hne, rfl⟩
    | some ctx => exact .inl ⟨tp, .inr ⟨rfl, rfl⟩⟩

/-- The end of a level derives the root context anew when a value was handed back. -/
theorem atEOXactGuc_root (commit : Bool) :
    (s.atEOXactGuc commit).root = ((s.traceparent.endLevel commit s.nestLevel).2.getLast?).elim
      s.root fun v => assignTraceparent v.text := by
  simp only [atEOXactGuc, foldl_assigned]
  cases (s.traceparent.endLevel commit s.nestLevel).2.getLast? <;> rfl

theorem atEOXactGuc_frame (commit : Bool) :
    (s.atEOXactGuc commit).otelCtxFromMHeader = s.otelCtxFromMHeader ∧
      (s.atEOXactGuc commit).arrivals = s.arrivals ∧ (s.atEOXactGuc commit).ended = s.ended ∧
      (s.atEOXactGuc commit).workers = s.workers := by
  simp only [atEOXactGuc, foldl_assigned]
  cases (s.traceparent.endLevel commit s.nestLevel).2.getLast? <;> exact ⟨rfl, rfl, rfl, rfl⟩

namespace Flagged

theorem start : Flagged d (.start d) := by
  refine ⟨?_, assignTraceparent_zero _⟩
  simp [RequestSt.start]

theorem keep (h : Flagged d s) {s' : RequestSt} (hflag : s'.otelCtxFromMHeader = s.otelCtxFromMHeader)
    (harrivals : s'.arrivals = s.arrivals)
    (hroot : s'.root = s.root ∨ ∃ text, s'.root = assignTraceparent text) : Flagged d s' := by
  refine ⟨by rw [hflag, harrivals]; exact h.flag, ?_⟩
  rcases hroot with hroot | ⟨text, hroot⟩ <;> rw [hroot]
  · exact h.zero
  · exact assignTraceparent_zero text

theorem setTraceparent (h : Flagged d s) (action : SetAction) (newval : Option CString) :
    Flagged d (s.setTraceparent d action .session newval) := by
  unfold RequestSt.setTraceparent
  cases newval with
  | none => exact h.keep rfl rfl (.inr ⟨_, rfl⟩)
  | some text =>
    simp only
    split
    · exact h.keep rfl rfl (.inr ⟨_, rfl⟩)
    · exact h

theorem receive (h : Flagged d s) (tp ts : CString) : Flagged d (s.receive d tp ts) := by
  have harrivals : (s.receive d tp ts).arrivals = ⟨tp, s.root.isSet⟩ :: s.arrivals := rfl
  have hflag (marks : Bool) (hmarks : marks = true ↔ Arrival.Marks d ⟨tp, s.root.isSet⟩)
      (hset : (s.receive d tp ts).otelCtxFromMHeader = (s.otelCtxFromMHeader || marks)) :
      (s.receive d tp ts).otelCtxFromMHeader = true ↔
        ∃ h ∈ (s.receive d tp ts).arrivals, h.Marks d := by
    rw [hset, harrivals, Bool.or_eq_true, h.flag, hmarks]
    simp only [List.mem_cons, exists_eq_or_imp]
    exact or_comm
  rcases receive_cases (d := d) tp with ⟨text, htext⟩ | ⟨hne, hbad⟩
  · obtain ⟨hroot, -, hset, -⟩ := receive_installs (s := s) ts htext
    refine ⟨hflag _ ?_ hset, ?_⟩
    · rw [assignTraceparent_isSet]
      rcases htext with ⟨rfl, rfl⟩ | ⟨hsome, rfl⟩
      · simp [Arrival.Marks]
      · have hne : text ≠ [] := by
          rintro rfl
          cases hsome
        simp [Arrival.Marks, hne, hsome]
    · rw [hroot]
      exact assignTraceparent_zero text
  · obtain ⟨hroot, -, hset, -⟩ := receive_malformed (s := s) (d := d) ts hne hbad
    refine ⟨hflag _ ?_ hset, ?_⟩
    · simp [Arrival.Marks, hne, hbad]
    · rw [hroot]
      exact h.zero

theorem finish (h : Flagged d s) : Flagged d s.finish := by
  unfold RequestSt.finish otelTraceContextClearCb
  cases hflag : s.otelCtxFromMHeader
  · exact ⟨by simp [hflag], h.zero⟩
  · exact ⟨by simp, fun _ => rfl⟩

theorem next (h : Flagged d s) (a : RequestAct) : Flagged d (s.next d a) := by
  have hend (commit : Bool) : Flagged d (s.atEOXactGuc commit) := by
    obtain ⟨hflag, harrivals, -⟩ := s.atEOXactGuc_frame commit
    refine h.keep hflag harrivals ?_
    rw [atEOXactGuc_root]
    cases (s.traceparent.endLevel commit s.nestLevel).2.getLast? with
    | none => exact .inl rfl
    | some v => exact .inr ⟨v.text, rfl⟩
  cases a with
  | header tp ts => exact h.receive tp ts
  | setTraceparent action newval => exact h.setTraceparent action newval
  | setTracestate action newval => exact h.keep rfl rfl (.inl rfl)
  | startTransaction => exact h.keep rfl rfl (.inl rfl)
  | commit => exact hend true
  | rollback => exact hend false
  | savepoint => exact h.keep rfl rfl (.inl rfl)
  | release => exact hend true
  | rollbackToSavepoint => exact hend false
  | launchWorker => exact h.keep rfl rfl (.inl rfl)
  | workersExit => exact h.keep rfl rfl (.inl rfl)
  | clear => exact h.finish

end Flagged

theorem reachable_flagged (hs : (requests d).Reachable s) : Flagged d s :=
  hs.invariant Flagged.start fun _ a h _ => h.next a

/-! ## The two copies -/

/-- The parsed copy is that of the text, unless the clear has reset it, and what is saved of the
settings is of the levels that are open. -/
structure CopiesAgree (s : RequestSt) : Prop where
  derived : s.root = assignTraceparent s.traceparent.value.text ∨ s.root = {}
  traceparent : s.traceparent.Below s.nestLevel
  tracestate : s.tracestate.Below s.nestLevel

namespace CopiesAgree

theorem setTraceparent (h : CopiesAgree s) (action : SetAction) (writer : Writer)
    (newval : Option CString) : CopiesAgree (s.setTraceparent d action writer newval) := by
  have hstore (v : TraceparentValue) : CopiesAgree
      ({ s with traceparent := s.traceparent.assign s.nestLevel action v }.assigned v) :=
    ⟨.inl rfl, h.traceparent.assign action v, h.tracestate⟩
  unfold RequestSt.setTraceparent
  cases newval with
  | none => exact hstore _
  | some text =>
    simp only
    split
    · have hstored := hstore ⟨text, writer⟩
      exact ⟨hstored.derived, hstored.traceparent, hstored.tracestate⟩
    · exact h

theorem marked (h : CopiesAgree s) :
    CopiesAgree (if s.root.isSet then { s with otelCtxFromMHeader := true } else s) := by
  split_ifs
  · exact ⟨h.derived, h.traceparent, h.tracestate⟩
  · exact h

theorem receive (h : CopiesAgree s) (tp ts : CString) : CopiesAgree (s.receive d tp ts) := by
  have hset := h.setTraceparent (d := d) .set .header (if tp = [] then none else some tp)
  have hstate : CopiesAgree ((s.setTraceparent d .set .header (if tp = [] then none else some tp)
      ).setTracestate d .set (if ts = [] then none else some ts)) :=
    ⟨hset.derived, hset.traceparent, hset.tracestate.assign _ _⟩
  have hboth : CopiesAgree (s.otelTraceContextApplyCb d tp ts) := hstate.marked
  unfold RequestSt.receive
  dsimp only
  split_ifs <;> exact ⟨hboth.derived, hboth.traceparent, hboth.tracestate⟩

theorem atEOXactGuc (h : CopiesAgree s) (hlevel : 0 < s.nestLevel) (commit : Bool) :
    CopiesAgree (s.atEOXactGuc commit) := by
  have hvalue := s.traceparent.endLevel_value commit s.nestLevel
  have htraceparent := h.traceparent.endLevel hlevel commit
  have htracestate := h.tracestate.endLevel hlevel commit
  have hfields : (s.atEOXactGuc commit).traceparent = (s.traceparent.endLevel commit s.nestLevel).1 ∧
      (s.atEOXactGuc commit).tracestate = (s.tracestate.endLevel commit s.nestLevel).1 ∧
      (s.atEOXactGuc commit).nestLevel = s.nestLevel - 1 := by
    simp only [RequestSt.atEOXactGuc, foldl_assigned]
    cases (s.traceparent.endLevel commit s.nestLevel).2.getLast? <;> exact ⟨rfl, rfl, rfl⟩
  obtain ⟨hfield, hstate, hnest⟩ := hfields
  refine ⟨?_, by rwa [hfield, hnest], by rwa [hstate, hnest]⟩
  rw [atEOXactGuc_root, hfield, hvalue]
  cases (s.traceparent.endLevel commit s.nestLevel).2.getLast? with
  | none => exact h.derived
  | some v => exact .inl rfl

theorem next (h : CopiesAgree s) {a : RequestAct} (hen : a.Enabled s) : CopiesAgree (s.next d a) := by
  cases a with
  | header tp ts => exact h.receive tp ts
  | setTraceparent action newval => exact h.setTraceparent action .session newval
  | setTracestate action newval => exact ⟨h.derived, h.traceparent, h.tracestate.assign _ _⟩
  | startTransaction =>
    have hzero : s.nestLevel = 0 := hen
    exact ⟨h.derived, h.traceparent.mono (by omega), h.tracestate.mono (by omega)⟩
  | savepoint => exact ⟨h.derived, h.traceparent.mono (Nat.le_succ _), h.tracestate.mono (Nat.le_succ _)⟩
  | commit | rollback =>
    have hone : s.nestLevel = 1 := hen
    exact h.atEOXactGuc (by omega) _
  | release | rollbackToSavepoint =>
    have hmore : 1 < s.nestLevel := hen
    exact h.atEOXactGuc (by omega) _
  | launchWorker | workersExit => exact ⟨h.derived, h.traceparent, h.tracestate⟩
  | clear =>
    change CopiesAgree s.finish
    unfold RequestSt.finish otelTraceContextClearCb
    split_ifs
    · exact ⟨.inr rfl, h.traceparent, h.tracestate⟩
    · exact ⟨h.derived, h.traceparent, h.tracestate⟩

end CopiesAgree

theorem reachable_copiesAgree (hs : (requests d).Reachable s) : CopiesAgree s :=
  hs.invariant ⟨.inl rfl, Setting.below_nil 0 _, Setting.below_nil 0 _⟩ fun _ _ h hen => h.next hen

/-- Outside a transaction the settings have no value to go back to. -/
theorem nothing_saved (hs : (requests d).Reachable s) (hnone : s.nestLevel = 0) :
    s.traceparent.stack = [] ∧ s.tracestate.stack = [] := by
  have h := reachable_copiesAgree hs
  exact ⟨(hnone ▸ h.traceparent).nil, (hnone ▸ h.tracestate).nil⟩

/-! ## Contexts that the application set -/

/-- What the clear leaves of the root context. -/
theorem clear_root_iff (hs : (requests d).Reachable s) :
    (s.next d .clear).root = s.root ↔
      s.root.isSet = false ∨ ∀ h ∈ s.arrivals, ¬ h.Marks d := by
  have hf := reachable_flagged hs
  have hroot : (s.next d .clear).root = if s.otelCtxFromMHeader then {} else s.root := by
    simp only [next, finish, otelTraceContextClearCb]
    split_ifs <;> rfl
  rw [hroot]
  cases hflag : s.otelCtxFromMHeader
  · have hnone : ∀ h ∈ s.arrivals, ¬ h.Marks d := fun h hh hm => by
      have := hf.flag.2 ⟨h, hh, hm⟩
      rw [hflag] at this
      cases this
    exact ⟨fun _ => .inr hnone, fun _ => rfl⟩
  · obtain ⟨h, hh, hm⟩ := hf.flag.1 hflag
    rw [if_pos rfl]
    refine ⟨fun hzero => .inl (hzero ▸ rfl), fun hcond => ?_⟩
    rcases hcond with hunset | hnone
    · exact (hf.zero hunset).symm
    · exact absurd hm (hnone h hh)

/-- The clear leaves a root context that `SET` installed exactly as it is. -/
def KeepsSession (d : Defaults) (s : RequestSt) : Prop :=
  s.writer = .session → (s.next d .clear).root = s.root

/-- In every reachable state, the clear keeps what `SET` installed if and only if the root context
is unset or no header of the request left a context in force. -/
theorem keepsSession_iff (hs : (requests d).Reachable s) :
    s.KeepsSession d ↔
      (s.writer = .session → s.root.isSet = false ∨ ∀ h ∈ s.arrivals, ¬ h.Marks d) :=
  imp_congr_right fun _ => clear_root_iff hs

/-- A context as a client sends it. -/
def clientCtx (n : ℕ) : OtelSpanContext :=
  { traceId := BitVec.ofNat 128 n, spanId := BitVec.ofNat 64 n, traceFlags := otelTraceFlagSampled }

/-- `BEGIN; SET otel_api.traceparent = …; COMMIT`. -/
def setInTransaction (action : SetAction) (ctx : OtelSpanContext) : List RequestAct :=
  [.startTransaction, .setTraceparent action (some (otelTraceparentFormat ctx)), .commit]

/-- The state after a session `SET`, the next request and then some more. -/
def afterSet (acts : List RequestAct) : RequestSt :=
  (setInTransaction .set (clientCtx 1) ++ .clear :: acts).foldl (requests {}).next (requests {}).init

theorem reachable_afterSet {acts : List RequestAct}
    (h : (requests {}).Admits (fun _ _ => True) (requests {}).init
      (setInTransaction .set (clientCtx 1) ++ .clear :: acts)) :
    (requests {}).Reachable (afterSet acts) :=
  Machine.ReachBy.init.run h

theorem keepsSession_iff_nextRequest :
    (afterSet []).KeepsSession {} ∧ (afterSet []).root = ⟨true, false, clientCtx 1⟩ ∧
      (afterSet []).writer = .session := by
  refine ⟨(keepsSession_iff (reachable_afterSet (by decide +kernel))).2 fun _ => .inr ?_,
    by decide +kernel, by decide +kernel⟩
  decide +kernel

/-- A malformed header makes the clear take down the context of a session `SET`. -/
theorem malformed_header_clears_session :
    ∃ s, (requests {}).Reachable s ∧ s.writer = .session ∧
      s.root = ⟨true, false, clientCtx 1⟩ ∧ (s.next {} .clear).root = {} :=
  ⟨afterSet [.header (cstr "not-a-valid-traceparent") []],
    reachable_afterSet (by decide +kernel), by decide +kernel, by decide +kernel, by decide +kernel⟩

/-! ## Contexts of finished requests -/

/-- The root context of the backend or of a worker is one whose request is over. -/
def Stale (s : RequestSt) : Prop :=
  ∃ r ∈ s.root :: s.workers, r.isSet = true ∧ r.ctx ∈ s.ended

/-- The value an action takes back from the save stack or the configuration, or copies to a
worker. -/
def handedBack (d : Defaults) (s : RequestSt) : RequestAct → Option TraceparentValue
  | .setTraceparent _ none => some ⟨d.traceparent, .configuration⟩
  | .commit => (s.traceparent.endLevel true s.nestLevel).2.getLast?
  | .release => (s.traceparent.endLevel true s.nestLevel).2.getLast?
  | .rollback => (s.traceparent.endLevel false s.nestLevel).2.getLast?
  | .rollbackToSavepoint => (s.traceparent.endLevel false s.nestLevel).2.getLast?
  | .launchWorker => some s.traceparent.value
  | _ => none

/-- No text of a finished request's header is handed back. -/
def KeepsOver (d : Defaults) (s : RequestSt) (a : RequestAct) : Prop :=
  ∀ v ∈ s.handedBack d a, ∀ ctx ∈ otelTraceparentParse v.text, ctx ∉ s.ended

theorem stale_of_assigned {v : TraceparentValue} {ended : List OtelSpanContext}
    (hset : (assignTraceparent v.text).isSet = true) (hover : (assignTraceparent v.text).ctx ∈ ended) :
    ∃ ctx ∈ otelTraceparentParse v.text, ctx ∈ ended := by
  cases h : otelTraceparentParse v.text with
  | none =>
    rw [assignTraceparent_none h] at hset
    cases hset
  | some ctx =>
    rw [assignTraceparent_some h] at hover
    exact ⟨ctx, rfl, hover⟩

/-- A step that derives no root context from a value handed back, and adds none to those that are
over, makes nothing stale. -/
theorem not_stale_of_le (h : ¬ s.Stale) {s' : RequestSt} (hover : s'.ended ⊆ s.ended)
    (hworkers : s'.workers ⊆ s.workers)
    (hroot : s'.root = s.root ∨ (s'.root.isSet = true → s'.root.ctx ∉ s'.ended)) : ¬ s'.Stale := by
  rintro ⟨r, hr, hset, hmem⟩
  rcases List.mem_cons.1 hr with rfl | hr
  · rcases hroot with hroot | hroot
    · exact h ⟨s.root, List.mem_cons_self, hroot ▸ hset, hover (hroot ▸ hmem)⟩
    · exact hroot hset hmem
  · exact h ⟨r, List.mem_cons_of_mem _ (hworkers hr), hset, hover hmem⟩

/-- A value handed back makes its context the root context, which is stale or not. -/
theorem stale_handedBack_iff (h : ¬ s.Stale) {s' : RequestSt} {v : TraceparentValue}
    (hover : s'.ended = s.ended) (hroots : ∀ r, r ∈ s'.root :: s'.workers →
      r ∈ s.root :: s.workers ∨ r = assignTraceparent v.text)
    (hv : assignTraceparent v.text ∈ s'.root :: s'.workers) :
    s'.Stale ↔ ∃ ctx ∈ otelTraceparentParse v.text, ctx ∈ s.ended := by
  constructor
  · rintro ⟨r, hr, hset, hmem⟩
    rw [hover] at hmem
    rcases hroots r hr with hold | rfl
    · exact absurd ⟨r, hold, hset, hmem⟩ h
    · exact stale_of_assigned hset hmem
  · rintro ⟨ctx, hctx, hmem⟩
    refine ⟨_, hv, ?_⟩
    rw [assignTraceparent_some hctx, hover]
    exact ⟨rfl, hmem⟩

theorem not_stale_receive (h : ¬ s.Stale) (tp ts : CString) : ¬ (s.receive d tp ts).Stale := by
  rcases receive_cases (d := d) tp with ⟨text, htext⟩ | ⟨hne, hbad⟩
  · obtain ⟨hroot, hover, -, hworkers⟩ := receive_installs (s := s) ts htext
    refine not_stale_of_le h ?_ (fun _ hc => hworkers ▸ hc) (.inr ?_)
    · rw [hover]
      exact List.filter_subset_self _
    · rw [hroot, hover]
      intro _ hmem
      simpa using List.of_mem_filter hmem
  · obtain ⟨hroot, hover, -, hworkers⟩ := receive_malformed (s := s) (d := d) ts hne hbad
    exact not_stale_of_le h (fun _ hc => hover ▸ hc) (fun _ hc => hworkers ▸ hc) (.inl hroot)

/-- The clear resets the root context of every request that carried a context. -/
theorem not_stale_finish (hf : Flagged d s) (h : ¬ s.Stale) (hworkers : s.workers = []) :
    ¬ s.finish.Stale := by
  rintro ⟨r, hr, hset, hmem⟩
  simp only [finish, otelTraceContextClearCb] at hr hmem
  cases hflag : s.otelCtxFromMHeader
  · -- no header of the request carried a context
    have hcarried : s.carried = [] := by
      refine List.filterMap_eq_nil_iff.2 fun a ha => ?_
      cases hparse : otelTraceparentParse a.traceparent with
      | none => rfl
      | some ctx =>
        have hne : a.traceparent ≠ [] := by
          intro hnil
          rw [hnil] at hparse
          cases hparse
        have hmark : a.Marks d := by
          rw [Arrival.Marks, if_neg hne, hparse]
          exact .inl rfl
        rw [hf.flag.2 ⟨a, ha, hmark⟩] at hflag
        cases hflag
    rw [hcarried] at hmem
    simp only [hflag, Bool.false_eq_true, if_false] at hr hmem
    exact h ⟨r, hr, hset, hmem⟩
  · simp only [hflag, if_true, hworkers, List.mem_singleton] at hr
    rw [hr] at hset
    cases hset

theorem not_keepsOver_iff {a : RequestAct} :
    ¬ s.KeepsOver d a ↔ ∃ v ∈ s.handedBack d a, ∃ ctx ∈ otelTraceparentParse v.text, ctx ∈ s.ended := by
  simp only [KeepsOver, not_forall, not_not, exists_prop]

/-- A step that hands nothing back and makes nothing stale. -/
theorem stale_iff_of_none {a : RequestAct} (hback : s.handedBack d a = none)
    (h : ¬ (s.next d a).Stale) : (s.next d a).Stale ↔ ¬ s.KeepsOver d a := by
  refine iff_of_false h ?_
  rw [not_keepsOver_iff, hback]
  rintro ⟨v, hv, -⟩
  cases hv

theorem stale_setTraceparent_iff (h : ¬ s.Stale) (action : SetAction) (newval : Option CString) :
    (s.next d (.setTraceparent action newval)).Stale ↔
      ¬ s.KeepsOver d (.setTraceparent action newval) := by
  cases newval with
  | none =>
    rw [not_keepsOver_iff]
    have hroot : (s.next d (.setTraceparent action none)).root = assignTraceparent d.traceparent :=
      rfl
    have hover : (s.next d (.setTraceparent action none)).ended = s.ended := rfl
    refine (stale_handedBack_iff (v := ⟨d.traceparent, .configuration⟩) h hover ?_
      (hroot ▸ List.mem_cons_self)).trans ?_
    · intro r hr
      rcases List.mem_cons.1 hr with rfl | hr
      · exact .inr rfl
      · exact .inl (List.mem_cons_of_mem _ hr)
    · simp [handedBack]
  | some text =>
    refine stale_iff_of_none rfl ?_
    simp only [next, setTraceparent]
    split
    · refine not_stale_of_le h (List.filter_subset_self _) (List.Subset.refl _) (.inr ?_)
      intro _ hmem
      simpa [installed] using List.of_mem_filter hmem
    · exact h

theorem stale_atEOXactGuc_iff (h : ¬ s.Stale) (commit : Bool) :
    (s.atEOXactGuc commit).Stale ↔ ∃ v ∈ (s.traceparent.endLevel commit s.nestLevel).2.getLast?,
      ∃ ctx ∈ otelTraceparentParse v.text, ctx ∈ s.ended := by
  obtain ⟨-, -, hover, hworkers⟩ := s.atEOXactGuc_frame commit
  have hroot := s.atEOXactGuc_root commit
  cases hback : (s.traceparent.endLevel commit s.nestLevel).2.getLast? with
  | none =>
    rw [hback] at hroot
    refine iff_of_false (not_stale_of_le h (fun _ hc => hover ▸ hc) (fun _ hc => hworkers ▸ hc)
      (.inl hroot)) ?_
    rintro ⟨v, hv, -⟩
    cases hv
  | some v =>
    rw [hback] at hroot
    refine (stale_handedBack_iff (v := v) h hover ?_ ?_).trans (by simp)
    · intro r hr
      rw [hroot, hworkers] at hr
      rcases List.mem_cons.1 hr with rfl | hr
      · exact .inr rfl
      · exact .inl (List.mem_cons_of_mem _ hr)
    · rw [hroot]
      exact List.mem_cons_self

theorem stale_launchWorker_iff (h : ¬ s.Stale) :
    (s.next d .launchWorker).Stale ↔ ¬ s.KeepsOver d .launchWorker := by
  rw [not_keepsOver_iff]
  have hworkers : (s.next d .launchWorker).workers =
      assignTraceparent s.traceparent.value.text :: s.workers := rfl
  have hover : (s.next d .launchWorker).ended = s.ended := rfl
  refine (stale_handedBack_iff (v := s.traceparent.value) h hover ?_
    (List.mem_cons_of_mem _ (hworkers ▸ List.mem_cons_self))).trans ?_
  · intro r hr
    rcases List.mem_cons.1 hr with rfl | hr
    · exact .inl List.mem_cons_self
    · rcases List.mem_cons.1 hr with rfl | hr
      · exact .inr rfl
      · exact .inl (List.mem_cons_of_mem _ hr)
  · simp [handedBack]

/-- In every state in which no finished request's context is in force, the next step puts one in
force if and only if it hands back the text of a finished request's header. -/
theorem stale_next_iff (hf : Flagged d s) (h : ¬ s.Stale) {a : RequestAct} (hen : a.Enabled s) :
    (s.next d a).Stale ↔ ¬ s.KeepsOver d a := by
  cases a with
  | header tp ts => exact stale_iff_of_none rfl (not_stale_receive h tp ts)
  | setTraceparent action newval => exact stale_setTraceparent_iff h action newval
  | setTracestate action newval => exact stale_iff_of_none rfl h
  | startTransaction => exact stale_iff_of_none rfl h
  | commit =>
    exact (stale_atEOXactGuc_iff h true).trans (not_keepsOver_iff (a := .commit)).symm
  | rollback =>
    exact (stale_atEOXactGuc_iff h false).trans (not_keepsOver_iff (a := .rollback)).symm
  | savepoint => exact stale_iff_of_none rfl h
  | release =>
    exact (stale_atEOXactGuc_iff h true).trans (not_keepsOver_iff (a := .release)).symm
  | rollbackToSavepoint =>
    exact (stale_atEOXactGuc_iff h false).trans (not_keepsOver_iff (a := .rollbackToSavepoint)).symm
  | launchWorker => exact stale_launchWorker_iff h
  | workersExit =>
    exact stale_iff_of_none rfl
      (not_stale_of_le h (List.Subset.refl _) (List.nil_subset _) (.inl rfl))
  | clear => exact stale_iff_of_none rfl (not_stale_finish hf h hen)

/-- In every run whose steps hand back no text of a finished request's header, no context of a
finished request is ever in force, in the backend or in its workers. -/
theorem header_context_ends_with_request (hs : (requests d).ReachBy (KeepsOver d) s) :
    ¬ s.Stale := by
  refine (hs.invariant (I := fun s => Flagged d s ∧ ¬ s.Stale) ⟨Flagged.start, ?_⟩
    fun s a h hen hok => ⟨h.1.next a, fun hstale => ?_⟩).2
  · rintro ⟨r, -, -, hmem⟩
    cases hmem
  · exact (stale_next_iff h.1 h.2 hen).1 hstale hok

instance (d : Defaults) (s : RequestSt) (a : RequestAct) : Decidable (s.KeepsOver d a) := by
  unfold KeepsOver
  infer_instance

/-- A request with a header, and then some more. -/
def headerThen (acts : List RequestAct) : List RequestAct :=
  .header (otelTraceparentFormat (clientCtx 1)) [] :: .clear :: acts

def afterHeader (acts : List RequestAct) : RequestSt :=
  (headerThen acts).foldl (requests {}).next (requests {}).init

theorem reachBy_afterHeader {ok : RequestSt → RequestAct → Prop} {acts : List RequestAct}
    (h : (requests {}).Admits ok (requests {}).init (headerThen acts)) :
    (requests {}).ReachBy ok (afterHeader acts) :=
  Machine.ReachBy.init.run h

theorem header_context_ends_with_request_laterSet :
    ¬ (afterHeader (setInTransaction .set (clientCtx 2))).Stale ∧
      (afterHeader (setInTransaction .set (clientCtx 2))).ended = [clientCtx 1] :=
  ⟨header_context_ends_with_request (reachBy_afterHeader (by decide +kernel)), by decide +kernel⟩

/-- The end of a transaction with a `SET LOCAL` puts the context of a finished request in force. -/
theorem commit_brings_header_context_back :
    ∃ s, (requests {}).Reachable s ∧ s.Stale ∧ s.root = ⟨true, false, clientCtx 1⟩ := by
  refine ⟨afterHeader (setInTransaction .local (clientCtx 2)),
    reachBy_afterHeader (by decide +kernel), ?_, by decide +kernel⟩
  exact ⟨_, List.mem_cons_self, by decide +kernel, by decide +kernel⟩

end RequestSt

end PostgresOtel
