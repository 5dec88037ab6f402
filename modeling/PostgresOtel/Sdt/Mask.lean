import PostgresOtel.Sdt.Bridge

/-!
# The probe mask

A family is enabled with both its probes, and the mask keeps the `DONE` probe of every span that is
still held, so a probe that would end one always reaches the hook.
-/

set_option autoImplicit false

namespace PostgresOtel

open SdtSt

/-- The probes that end what this one starts. -/
def PgSdtProbeId.ends : PgSdtProbeId → List PgSdtProbeId
  | .transactionStart => [.transactionCommit, .transactionAbort]
  | .phaseStart phase => [.phaseDone phase]
  | .sortStart => [.sortDone]
  | _ => []

/-- Every start is enabled along with what ends it. -/
def Paired (mask : List PgSdtProbeId) : Prop := ∀ id ∈ mask, ∀ e ∈ id.ends, e ∈ mask

instance (mask : List PgSdtProbeId) : Decidable (Paired mask) :=
  inferInstanceAs (Decidable (∀ id ∈ mask, ∀ e ∈ id.ends, e ∈ mask))

theorem Paired.append {m m' : List PgSdtProbeId} (h : Paired m) (h' : Paired m') :
    Paired (m ++ m') := by
  intro id hid e he
  rcases List.mem_append.1 hid with hid | hid
  · exact List.mem_append_left _ (h id hid e he)
  · exact List.mem_append_right _ (h' id hid e he)

/-- Every family sets both bits of its pairs. -/
theorem paired_family : ∀ family ∈ sdtFamilyMap, Paired family.2 := by decide

theorem paired_parse {tokens : List CString} {mask : List PgSdtProbeId}
    (h : sdtProbesParse tokens = some mask) : Paired mask := by
  induction tokens generalizing mask with
  | nil =>
    obtain rfl := Option.some.inj h
    exact fun _ hid => absurd hid List.not_mem_nil
  | cons tok rest ih =>
    unfold sdtProbesParse at h
    cases hfind : sdtFamilyMap.find? fun family => pgStrcaseeq tok family.1 with
    | none =>
      rw [hfind] at h
      cases h
    | some family =>
      rw [hfind] at h
      obtain ⟨m, hm, rfl⟩ := Option.map_eq_some_iff.1 h
      exact (paired_family family (List.mem_of_find?_eq_some hfind)).append (ih hm)

/-- The mask asks for whole families, is at least what is asked for, starts nothing else, and has the
probes that end what the bridge holds. -/
structure MaskOk (s : SdtSt) : Prop where
  paired : ∀ id, s.wantedMask id = true → ∀ e ∈ id.ends, s.wantedMask e = true
  wanted : ∀ id, s.wantedMask id = true → s.enabledMask id = true
  starts : ∀ id, s.enabledMask id = true → id.ends ≠ [] → s.wantedMask id = true
  done : ∀ x ∈ s.sdtStack, s.enabledMask (.phaseDone x.2) = true
  sortDone : s.sortStack ≠ [] → s.enabledMask .sortDone = true
  txnEnd : s.txnSpan.v ≠ 0 →
    s.enabledMask .transactionCommit = true ∧ s.enabledMask .transactionAbort = true

namespace MaskOk

variable {s s' : SdtSt}

theorem init : MaskOk {} where
  paired _ h := absurd h Bool.false_ne_true
  wanted _ h := absurd h Bool.false_ne_true
  starts _ h := absurd h Bool.false_ne_true
  done _ h := absurd h List.not_mem_nil
  sortDone h := absurd rfl h
  txnEnd h := absurd rfl h

/-- A started probe's ends are enabled. -/
theorem ends_enabled (h : MaskOk s) {id e : PgSdtProbeId} (hid : s.enabledMask id = true)
    (he : e ∈ id.ends) : s.enabledMask e = true :=
  h.wanted e (h.paired id (h.starts id hid (List.ne_nil_of_mem he)) e he)

/-- Synchronising makes the mask right, whatever the stacks are. -/
theorem sync (h : ∀ id, s.wantedMask id = true → ∀ e ∈ id.ends, s.wantedMask e = true) :
    MaskOk s.sdtSyncProbeMask where
  paired := h
  wanted id hid := by
    have hw : s.wantedMask id = true := hid
    change (s.wantedMask id || _) = true
    rw [hw, Bool.true_or]
  starts id hid hends := by
    change s.wantedMask id = true
    cases id with
    | transactionStart => simpa [sdtSyncProbeMask] using hid
    | phaseStart phase => simpa [sdtSyncProbeMask] using hid
    | sortStart => simpa [sdtSyncProbeMask] using hid
    | transactionCommit => exact absurd rfl hends
    | transactionAbort => exact absurd rfl hends
    | phaseDone phase => exact absurd rfl hends
    | sortDone => exact absurd rfl hends
    | recoveryXactCommit => exact absurd rfl hends
  done x hx := by
    have hany : (s.sdtStack.any fun e => e.2 = x.2) = true :=
      List.any_eq_true.2 ⟨x, hx, decide_eq_true rfl⟩
    change (s.wantedMask _ || s.sdtStack.any fun e => e.2 = x.2) = true
    rw [hany, Bool.or_true]
  sortDone hne := by
    have hsort : s.sortStack.isEmpty = false := by
      cases hs : s.sortStack with
      | nil => exact absurd hs hne
      | cons _ _ => rfl
    change (s.wantedMask _ || !s.sortStack.isEmpty) = true
    rw [hsort, Bool.not_false, Bool.or_true]
  txnEnd hv := by
    have htxn : decide (s.txnSpan.v ≠ 0) = true := decide_eq_true hv
    constructor
    · change (s.wantedMask _ || decide (s.txnSpan.v ≠ 0)) = true
      rw [htxn, Bool.or_true]
    · change (s.wantedMask _ || decide (s.txnSpan.v ≠ 0)) = true
      rw [htxn, Bool.or_true]

/-- The mask is right for a state with the same masks that holds no more. -/
theorem congr (h : MaskOk s) (hw : s'.wantedMask = s.wantedMask)
    (he : s'.enabledMask = s.enabledMask)
    (hd : ∀ x ∈ s'.sdtStack, s.enabledMask (.phaseDone x.2) = true)
    (hs : s'.sortStack ≠ [] → s.enabledMask .sortDone = true)
    (ht : s'.txnSpan.v ≠ 0 →
      s.enabledMask .transactionCommit = true ∧ s.enabledMask .transactionAbort = true) :
    MaskOk s' where
  paired := hw ▸ h.paired
  wanted := hw ▸ he ▸ h.wanted
  starts := hw ▸ he ▸ h.starts
  done := he ▸ hd
  sortDone := he ▸ hs
  txnEnd := he ▸ ht

end MaskOk

/-! ## The mask along runs -/

/-- The probe starts spans. -/
def PgSdtProbeId.starts : PgSdtProbeId → Bool
  | .transactionStart | .phaseStart _ | .sortStart | .recoveryXactCommit => true
  | _ => false

/-- The probe ends something that the bridge holds. -/
def SdtSt.Awaits (s : SdtSt) : PgSdtProbeId → Prop
  | .phaseDone phase => ∃ x ∈ s.sdtStack, x.2 = phase
  | .sortDone => s.sortStack ≠ []
  | .transactionCommit | .transactionAbort => s.txnSpan.v ≠ 0
  | _ => False

/-- The mask has the wanted probes and those the bridge waits for, and no others. -/
structure MaskExact (s : SdtSt) : Prop where
  paired : ∀ id, s.wantedMask id = true → ∀ e ∈ id.ends, s.wantedMask e = true
  exact : ∀ id, s.enabledMask id = true ↔ s.wantedMask id = true ∨ s.Awaits id

/-- A probe does nothing or what the switch says. -/
theorem SdtSt.fire_cases {P : SdtSt → Prop} {s : SdtSt} {env : SdtEnv} (id : PgSdtProbeId)
    (hskip : P s) (hrun : s.enabledMask id = true → Admits env id → P (s.dispatch env id)) :
    P (s.fire env id) := by
  unfold SdtSt.fire otelSdtHook
  split_ifs with hm hadmits
  · exact hrun hm hadmits
  · exact hskip
  · exact hskip

namespace MaskExact

variable {s s' : SdtSt}

theorem init : MaskExact {} where
  paired id h := by simp at h
  exact id := by cases id <;> simp [Awaits, otelSpanNone]

/-- What starts spans ends nothing. -/
theorem not_awaits {id : PgSdtProbeId} (h : id.starts = true) : ¬ s.Awaits id := by
  cases id <;> simp_all [PgSdtProbeId.starts, Awaits]

/-- Synchronising makes the mask exact, whatever the stacks are. -/
theorem sync (h : ∀ id, s.wantedMask id = true → ∀ e ∈ id.ends, s.wantedMask e = true) :
    MaskExact s.sdtSyncProbeMask where
  paired := h
  exact id := by
    cases id <;> simp [sdtSyncProbeMask, Awaits]

/-- A state with the same masks that holds the same and what the wanted mask ends. -/
theorem grow (h : MaskExact s) (hw : s'.wantedMask = s.wantedMask)
    (he : s'.enabledMask = s.enabledMask)
    (hold : ∀ id, s.Awaits id → s'.Awaits id)
    (hnew : ∀ id, s'.Awaits id → s.Awaits id ∨ s.wantedMask id = true) : MaskExact s' where
  paired := hw ▸ h.paired
  exact id := by
    rw [hw, he, h.exact]
    constructor
    · exact Or.imp_right (hold id)
    · rintro (hid | hid)
      · exact Or.inl hid
      · exact (hnew id hid).symm

/-- What a started probe ends is wanted. -/
theorem ends_wanted (h : MaskExact s) {id e : PgSdtProbeId} (hid : s.enabledMask id = true)
    (hstarts : id.starts = true) (he : e ∈ id.ends) : s.wantedMask e = true := by
  rcases (h.exact id).1 hid with hw | ha
  · exact h.paired id hw e he
  · exact absurd ha (not_awaits hstarts)

variable {env : SdtEnv}

variable (env) in
/-- A start changes the spans only. -/
theorem startSpan_spans (s : SdtSt) (session detached : Bool) :
    ∃ spans, (s.startSpan env session detached).1 = { s with spans := spans } := by
  unfold startSpan
  split_ifs
  · exact ⟨_, rfl⟩
  · exact ⟨s.spans, rfl⟩

/-- What is held and asked for is the same. -/
theorem same (h : MaskExact s) (hw : s'.wantedMask = s.wantedMask)
    (he : s'.enabledMask = s.enabledMask) (ha : ∀ id, s'.Awaits id ↔ s.Awaits id) : MaskExact s' :=
  h.grow hw he (fun id hid => (ha id).2 hid) fun id hid => .inl ((ha id).1 hid)

theorem setSpans (h : MaskExact s) (spans : Spans) : MaskExact { s with spans := spans } :=
  h.same rfl rfl fun _ => Iff.rfl

theorem endTxnSpan_wanted (s : SdtSt) : s.endTxnSpan.wantedMask = s.wantedMask := by
  unfold endTxnSpan
  split_ifs <;> rfl

/-- Every probe keeps the mask exact. -/
theorem fire (h : MaskExact s) (id : PgSdtProbeId) : MaskExact (s.fire env id) := by
  apply SdtSt.fire_cases id h
  intro hm _
  have hpaired := h.paired
  have hended : ∀ id, s.endTxnSpan.wantedMask id = true → ∀ e ∈ id.ends,
      s.endTxnSpan.wantedMask e = true := by
    rw [endTxnSpan_wanted]
    exact hpaired
  cases id with
  | transactionStart =>
    obtain ⟨spans, hspans⟩ := startSpan_spans env s false true
    simp only [dispatch, hspans]
    split_ifs with hv
    · have hends : ∀ e ∈ PgSdtProbeId.transactionStart.ends, s.wantedMask e = true :=
        fun e he => h.ends_wanted hm rfl he
      refine h.grow rfl rfl (fun id hid => ?_) fun id hid => ?_
      · cases id <;> simp_all [Awaits]
      · cases id <;> simp_all [Awaits, PgSdtProbeId.ends]
    · exact h
  | transactionCommit => exact sync hended
  | transactionAbort => exact sync hended
  | phaseStart phase =>
    obtain ⟨spans, hspans⟩ := startSpan_spans env s env.noOwner false
    simp only [dispatch, hspans]
    split_ifs
    · have hdone : s.wantedMask (.phaseDone phase) = true :=
        h.ends_wanted hm rfl List.mem_cons_self
      refine h.grow rfl rfl (fun id hid => ?_) fun id hid => ?_
      · cases id <;> simp_all [Awaits]
      · cases id with
        | phaseDone other =>
          obtain ⟨x, hx, rfl⟩ := hid
          rcases List.mem_cons.1 hx with rfl | hx
          · exact .inr hdone
          · exact .inl ⟨x, hx, rfl⟩
        | _ => exact .inl hid
    · exact h
  | phaseDone phase =>
    simp only [dispatch]
    split
    next ref started rest _ =>
      split_ifs
      · exact (sync (s := { s with sdtStack := rest }) hpaired).setSpans _
      · exact h
    · exact h
  | sortStart =>
    obtain ⟨spans, hspans⟩ := startSpan_spans env s env.noOwner true
    simp only [dispatch, hspans]
    split_ifs
    · have hdone : s.wantedMask .sortDone = true := h.ends_wanted hm rfl List.mem_cons_self
      refine h.grow rfl rfl (fun id hid => ?_) fun id hid => ?_
      · cases id <;> simp_all [Awaits]
      · cases id <;> simp_all [Awaits]
    · exact h
  | sortDone =>
    simp only [dispatch]
    split
    next ref rest _ => exact (sync (s := { s with sortStack := rest }) hpaired).setSpans _
    · exact h
  | recoveryXactCommit =>
    obtain ⟨spans, hspans⟩ := startSpan_spans env s env.noOwner true
    simp only [dispatch, hspans]
    split_ifs
    · exact h.same rfl rfl fun _ => Iff.rfl
    · exact h

/-- The steps of core keep the mask exact. -/
theorem step (h : MaskExact s) (a : SdtAct) : MaskExact (s.next a) := by
  cases a with
  | phaseStart phase env => exact (h.fire (.phaseStart phase)).same rfl rfl fun _ => Iff.rfl
  | phaseDone env =>
    simp only [next]
    split
    · exact (h.fire (.phaseDone _)).same rfl rfl fun _ => Iff.rfl
    · exact h
  | sortStart env => exact h.fire .sortStart
  | sortDone env => exact h.fire .sortDone
  | transactionStart env => exact h.fire .transactionStart
  | transactionCommit env => exact h.fire .transactionCommit
  | abortTransaction env unwinds =>
    have haborted : MaskExact (s.fire env .transactionAbort).otelSdtXactCbAbort :=
      sync (h.fire .transactionAbort).paired
    simp only [next]
    split_ifs
    · exact haborted.same rfl rfl fun _ => Iff.rfl
    · exact haborted
  | errorWithoutAbort => exact h.same rfl rfl fun _ => Iff.rfl
  | caughtError ended => exact h.same rfl rfl fun _ => Iff.rfl
  | lose lost how => exact h.same rfl rfl fun _ => Iff.rfl
  | setProbes tokens =>
    simp only [next]
    split
    · rename_i mask hmask
      apply sync
      intro id hid e he
      simp only [decide_eq_true_eq] at hid ⊢
      exact paired_parse hmask id hid e he
    · exact h
  | recoveryXactCommit env => exact h.fire .recoveryXactCommit

end MaskExact

/-! ## The wanted families -/

namespace SdtSt

variable {s : SdtSt} {env : SdtEnv}

/-- No probe changes what is wanted. -/
theorem fire_wantedMask (s : SdtSt) (env : SdtEnv) (id : PgSdtProbeId) :
    (s.fire env id).wantedMask = s.wantedMask := by
  apply fire_cases (P := fun s' => s'.wantedMask = s.wantedMask) id rfl
  intro _ _
  have hstart (session detached : Bool) :
      (s.startSpan env session detached).1.wantedMask = s.wantedMask := by
    obtain ⟨spans, hspans⟩ := MaskExact.startSpan_spans env s session detached
    rw [hspans]
  cases id <;> simp only [dispatch]
  case transactionCommit => exact MaskExact.endTxnSpan_wanted s
  case transactionAbort => exact MaskExact.endTxnSpan_wanted s
  case phaseDone phase =>
    split
    · split_ifs <;> rfl
    · rfl
  case sortDone => split <;> rfl
  all_goals
    split_ifs
    · exact hstart _ _
    · rfl

/-- The wanted mask is that of the last setting that was accepted. -/
theorem next_wantedMask (s : SdtSt) (a : SdtAct) : (s.next a).wantedMask =
    match a with
    | .setProbes tokens =>
      (sdtProbesParse tokens).elim s.wantedMask fun mask id => decide (id ∈ mask)
    | _ => s.wantedMask := by
  cases a with
  | setProbes tokens =>
    simp only [next]
    cases sdtProbesParse tokens <;> rfl
  | phaseDone env =>
    simp only [next]
    split
    · exact fire_wantedMask s env _
    · rfl
  | abortTransaction env unwinds =>
    simp only [next]
    split_ifs <;> exact fire_wantedMask s env _
  | errorWithoutAbort => rfl
  | caughtError ended => rfl
  | lose lost how => rfl
  | _ => exact fire_wantedMask s _ _

/-- What is wanted are the families of some list. -/
theorem reachable_wantedMask {c : Bool} (h : (sdt c).Reachable s) :
    ∃ tokens mask, sdtProbesParse tokens = some mask ∧
      ∀ id, s.wantedMask id = true ↔ id ∈ mask := by
  apply Machine.Reachable.invariant (I := fun s : SdtSt => ∃ tokens mask,
    sdtProbesParse tokens = some mask ∧ ∀ id, s.wantedMask id = true ↔ id ∈ mask) _ _ h
  · exact ⟨[], [], rfl, fun id => by simp [sdt]⟩
  · intro s a hwanted _
    have hnext := next_wantedMask s a
    change ∃ tokens mask, _ ∧ ∀ id, (s.next a).wantedMask id = true ↔ id ∈ mask
    rw [hnext]
    cases a with
    | setProbes tokens =>
      cases hmask : sdtProbesParse tokens with
      | none => simpa [hmask] using hwanted
      | some mask => exact ⟨tokens, mask, hmask, fun id => by simp [hmask]⟩
    | _ => exact hwanted

end SdtSt

/-- In every reachable state the mask is that of the families wanted with the probes that end what the
bridge holds.  Such a probe reaches the hook, and no probe of an unwanted family starts a span. -/
theorem probe_mask {c : Bool} {s : SdtSt} (h : (sdt c).Reachable s) :
    (∃ tokens mask, sdtProbesParse tokens = some mask ∧ ∀ id, s.wantedMask id = true ↔ id ∈ mask) ∧
      (∀ id, s.wantedMask id = true → s.enabledMask id = true) ∧
      (∀ id, s.Awaits id → s.enabledMask id = true) ∧
      (∀ id, id.starts = true → s.enabledMask id = true → s.wantedMask id = true) ∧
      (∀ env id, s.Awaits id → s.fire env id = s.otelSdtHook env id) ∧
      ∀ env id, id.starts = true → s.wantedMask id = false → s.fire env id = s := by
  have hmask : MaskExact s :=
    Machine.Reachable.invariant .init (fun _ a hexact _ => hexact.step a) h
  have hawaited : ∀ id, s.Awaits id → s.enabledMask id = true :=
    fun id hid => (hmask.exact id).2 (.inr hid)
  have hstarts : ∀ id, id.starts = true → s.enabledMask id = true → s.wantedMask id = true :=
    fun id hid hm => ((hmask.exact id).1 hm).resolve_right (MaskExact.not_awaits hid)
  refine ⟨reachable_wantedMask h, fun id hid => (hmask.exact id).2 (.inl hid), hawaited, hstarts, ?_,
    ?_⟩
  · intro env id hid
    simp [fire, hawaited id hid]
  · intro env id hid hunwanted
    have hoff : s.enabledMask id ≠ true := fun hm => by
      rw [hstarts id hid hm] at hunwanted
      cases hunwanted
    simp [fire, hoff]

/-- The setting is emptied while a query is traced. -/
def switchedOff : SdtSt :=
  [SdtAct.setProbes [cstr "query"], .phaseStart .query {}, .setProbes []].foldl SdtSt.next {}

theorem reachable_switchedOff : (sdt true).Reachable switchedOff :=
  Machine.ReachBy.run (m := sdt true) .init
    ⟨trivial, trivial, rfl, trivial, trivial, trivial, trivial⟩

theorem probe_mask_switchedOff :
    switchedOff.wantedMask (.phaseDone .query) = false ∧
      switchedOff.enabledMask (.phaseDone .query) = true ∧
      switchedOff.fire {} (.phaseStart .query) = switchedOff :=
  have h := probe_mask reachable_switchedOff
  ⟨by decide, h.2.2.1 (.phaseDone .query) ⟨(spanHandle 0, .query), by decide, rfl⟩,
    h.2.2.2.2.2 {} (.phaseStart .query) rfl (by decide)⟩

end PostgresOtel
