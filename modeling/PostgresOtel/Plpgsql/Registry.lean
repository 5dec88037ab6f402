import PostgresOtel.Plpgsql.Hooks

/-!
# The session-span registry

What the plugin has open is read off the invocations on the C stack: the span of each open statement
and of each invocation itself (`liveSpans`).  `Books` says that the producer and the registry agree
with such a list, and that every span so far left once, by its own end or by an abort; each callback
changes the list at its new end.  `Registered` adds that the invocations' own statement stacks still
find the entries of the statements that are open.
-/

set_option autoImplicit false

namespace PostgresOtel

open PlpgsqlSt

/-! ## The spans of the open invocations -/

/-- The span of a handle, if it names one. -/
def handleSpans (session : Bool) (level : ℕ) (ref : OtelSpanRef) : List OpenSpan :=
  if ref.v = 0 then [] else [{ ref, session, level }]

/-- The spans of an invocation's open statements, given the nest level below it. -/
def blockSpans (session : Bool) (base : ℕ) : List Block → List OpenSpan
  | [] => []
  | .stmt _ opened :: blocks =>
    handleSpans session (subxacts blocks + base) opened ++ blockSpans session base blocks
  | .subxact :: blocks => blockSpans session base blocks

def Frame.funcSpan (f : Frame) : OtelSpanRef :=
  match f.pluginInfo with
  | some st => st.funcSpan
  | none => otelSpanNone

def Frame.spans (f : Frame) (base : ℕ) : List OpenSpan :=
  blockSpans (!f.atomic) base f.blocks ++ handleSpans (!f.atomic) base f.funcSpan

/-- The spans of the open invocations and statements, the newest first. -/
def liveSpans (savepoints : ℕ) : List Frame → List OpenSpan
  | [] => []
  | f :: fs => f.spans (nestLevel savepoints fs) ++ liveSpans savepoints fs

/-- The registry's entry for a span. -/
def registryEntry (o : OpenSpan) : PlpgsqlSessionSpan := ⟨o.ref, o.level⟩

/-- The registry that a list of open spans calls for. -/
def registryOf (live : List OpenSpan) : List PlpgsqlSessionSpan :=
  (live.filter OpenSpan.session).map registryEntry

theorem registryOf_append (new live : List OpenSpan) :
    registryOf (new ++ live) = registryOf new ++ registryOf live := by
  rw [registryOf, List.filter_append, List.map_append]
  rfl

theorem mem_handleSpans {session : Bool} {level : ℕ} {ref : OtelSpanRef} {o : OpenSpan}
    (h : o ∈ handleSpans session level ref) : o.level = level ∧ o.session = session := by
  unfold handleSpans at h
  split_ifs at h
  · cases h
  · rw [List.mem_singleton.1 h]
    exact ⟨rfl, rfl⟩

/-- The spans of blocks lie between the level below and that of the innermost block. -/
theorem mem_blockSpans {session : Bool} {base : ℕ} {blocks : List Block} {o : OpenSpan}
    (h : o ∈ blockSpans session base blocks) :
    base ≤ o.level ∧ o.level ≤ subxacts blocks + base ∧ o.session = session := by
  induction blocks with
  | nil => cases h
  | cons b blocks ih =>
    cases b with
    | stmt stmtid opened =>
      have hsub : subxacts (.stmt stmtid opened :: blocks) = subxacts blocks := by simp [subxacts]
      rcases List.mem_append.1 h with h | h
      · obtain ⟨hl, hs⟩ := mem_handleSpans h
        exact ⟨by omega, by omega, hs⟩
      · obtain ⟨h1, h2, h3⟩ := ih h
        exact ⟨h1, by omega, h3⟩
    | subxact =>
      have hsub : subxacts (.subxact :: blocks) = subxacts blocks + 1 := by simp [subxacts]
      obtain ⟨h1, h2, h3⟩ := ih h
      exact ⟨h1, by omega, h3⟩

theorem Frame.mem_spans {f : Frame} {base : ℕ} {o : OpenSpan} (h : o ∈ f.spans base) :
    base ≤ o.level ∧ o.level ≤ subxacts f.blocks + base ∧ o.session = !f.atomic := by
  rcases List.mem_append.1 h with h | h
  · exact mem_blockSpans h
  · obtain ⟨hl, hs⟩ := mem_handleSpans h
    exact ⟨by omega, by omega, hs⟩

theorem level_le_of_mem_liveSpans {savepoints : ℕ} {frames : List Frame} {o : OpenSpan}
    (h : o ∈ liveSpans savepoints frames) : o.level ≤ nestLevel savepoints frames := by
  induction frames with
  | nil => cases h
  | cons f fs ih =>
    change o.level ≤ subxacts f.blocks + nestLevel savepoints fs
    rcases List.mem_append.1 h with h | h
    · exact (Frame.mem_spans h).2.1
    · exact (ih h).trans (Nat.le_add_left _ _)

theorem session_of_mem_liveSpans {savepoints : ℕ} {frames : List Frame} {o : OpenSpan}
    (hf : ∀ f ∈ frames, f.atomic = false) (h : o ∈ liveSpans savepoints frames) :
    o.session = true := by
  induction frames with
  | nil => cases h
  | cons f fs ih =>
    rcases List.mem_append.1 h with h | h
    · rw [(Frame.mem_spans h).2.2, hf f List.mem_cons_self]
      rfl
    · exact ih (fun g hg => hf g (List.mem_cons_of_mem _ hg)) h

/-- Blocks split where their innermost subtransaction begins. -/
theorem blockSpans_dropWhile (session : Bool) (base : ℕ) (blocks : List Block) :
    ∃ new, blockSpans session base blocks =
        new ++ blockSpans session base (blocks.dropWhile Block.isStmt) ∧
      subxacts (blocks.dropWhile Block.isStmt) = subxacts blocks ∧
      ∀ o ∈ new, o.level = subxacts blocks + base := by
  induction blocks with
  | nil => exact ⟨[], rfl, rfl, fun _ h => absurd h List.not_mem_nil⟩
  | cons b blocks ih =>
    cases b with
    | stmt stmtid opened =>
      obtain ⟨new, hnew, hsub, hlevel⟩ := ih
      have hcount : subxacts (.stmt stmtid opened :: blocks) = subxacts blocks := by simp [subxacts]
      refine ⟨handleSpans session (subxacts blocks + base) opened ++ new, ?_, ?_, fun o ho => ?_⟩
      · change _ ++ blockSpans session base blocks = _
        rw [hnew, List.append_assoc]
        rfl
      · rw [hcount]
        exact hsub
      · rw [hcount]
        rcases List.mem_append.1 ho with ho | ho
        · exact (mem_handleSpans ho).1
        · exact hlevel o ho
    | subxact => exact ⟨[], rfl, rfl, fun _ h => absurd h List.not_mem_nil⟩

/-- Unwinding to the innermost subtransaction drops the spans of its level and no others. -/
theorem liveSpans_unwind (savepoints : ℕ) (frames : List Frame) :
    ∃ new old, liveSpans savepoints frames = new ++ old ∧
      (∀ o ∈ new, nestLevel savepoints frames ≤ o.level) ∧
      match unwind frames with
      | none => old = [] ∧ nestLevel savepoints frames = savepoints + 1
      | some frames' => old = liveSpans savepoints frames' ∧
          nestLevel savepoints frames = nestLevel savepoints frames' + 1 := by
  induction frames with
  | nil => exact ⟨[], [], rfl, fun _ h => absurd h List.not_mem_nil, rfl, rfl⟩
  | cons f fs ih =>
    obtain ⟨new, hnew, hsub, hlevel⟩ :=
      blockSpans_dropWhile (!f.atomic) (nestLevel savepoints fs) f.blocks
    unfold unwind
    cases hdrop : f.blocks.dropWhile Block.isStmt with
    | nil =>
      obtain ⟨newer, old, hspans, hge, hmatch⟩ := ih
      have hzero : subxacts f.blocks = 0 := by rw [← hsub, hdrop]; rfl
      have hnest : nestLevel savepoints (f :: fs) = nestLevel savepoints fs := by
        rw [nestLevel, hzero, Nat.zero_add]
      refine ⟨f.spans (nestLevel savepoints fs) ++ newer, old, ?_, fun o ho => ?_, ?_⟩
      · rw [liveSpans, hspans, List.append_assoc]
      · rw [hnest]
        rcases List.mem_append.1 ho with ho | ho
        · exact (Frame.mem_spans ho).1
        · exact hge o ho
      · rw [hnest]
        exact hmatch
    | cons b blocks =>
      have hb : b = .subxact := by
        have hne : f.blocks.dropWhile Block.isStmt ≠ [] := by simp [hdrop]
        have hhead := List.head_dropWhile_not Block.isStmt hne
        simp only [hdrop, List.head_cons] at hhead
        cases b with
        | stmt stmtid opened => cases hhead
        | subxact => rfl
      subst hb
      have hcount : subxacts f.blocks = subxacts blocks + 1 := by
        rw [← hsub, hdrop]
        simp [subxacts]
      refine ⟨new, liveSpans savepoints ({ f with blocks := blocks } :: fs), ?_, fun o ho => ?_,
        rfl, ?_⟩
      · rw [liveSpans, Frame.spans, hnew, hdrop, List.append_assoc, List.append_assoc]
        rw [liveSpans, Frame.spans, List.append_assoc]
        rfl
      · rw [nestLevel, hlevel o ho]
      · change subxacts f.blocks + _ = subxacts blocks + _ + 1
        omega

/-! ## The books -/

/-- The producer and the registry hold exactly these spans, and each span that is gone left once, by
its own end or by an abort. -/
structure Books (s : PlpgsqlSt) (live : List OpenSpan) : Prop where
  opened : s.spans.opened = live
  registry : s.sessionStack = registryOf live
  tally : s.spans.Tally
  ordered : s.spans.Ordered
  stale : s.spans.stale = []
  fates : ∀ x ∈ s.spans.log, x.2 = .ended ∨ x.2 = .released
  forgets : ∀ x ∈ s.forgets, x.2 = some x.1

namespace Books

variable {s s' : PlpgsqlSt} {new live : List OpenSpan}

theorem congr (h : Books s live) (hs : s'.spans = s.spans) (hr : s'.sessionStack = s.sessionStack)
    (hf : s'.forgets = s.forgets) : Books s' live where
  opened := hs ▸ h.opened
  registry := hr ▸ h.registry
  tally := hs ▸ h.tally
  ordered := hs ▸ h.ordered
  stale := hs ▸ h.stale
  fates := hs ▸ h.fates
  forgets := hf ▸ h.forgets

/-- A span is started and, if it belongs to the session, registered. -/
theorem openRegistered (h : Books s live) (session opens : Bool) :
    Books (s.openRegistered session opens .never).1.1
        (handleSpans session s.level (s.openRegistered session opens .never).2 ++ live) ∧
      (s.openRegistered session opens .never).1.2 = false ∧
      (s.openRegistered session opens .never).1.1.frames = s.frames ∧
      (s.openRegistered session opens .never).1.1.savepoints = s.savepoints := by
  have hne := Spans.spanHandle_ne_zero s.spans.count
  cases opens with
  | false =>
    have hsame : s.openRegistered session false .never = ((s, false), otelSpanNone) := by
      cases session <;> rfl
    rw [hsame]
    exact ⟨h, rfl, rfl, rfl⟩
  | true =>
    have hspans : ∀ session, handleSpans session s.level (spanHandle s.spans.count) =
        [{ ref := spanHandle s.spans.count, session, level := s.level }] :=
      fun session => if_neg hne
    cases session with
    | false =>
      refine ⟨⟨?_, ?_, h.tally.start .., h.ordered.start .., h.stale, h.fates, h.forgets⟩, rfl, rfl,
        rfl⟩
      · change _ :: s.spans.opened = handleSpans _ _ (spanHandle _) ++ live
        rw [hspans, h.opened]
        rfl
      · change s.sessionStack = registryOf (handleSpans _ _ (spanHandle _) ++ live)
        rw [hspans, h.registry]
        rfl
    | true =>
      obtain ⟨capacity, hopen⟩ : ∃ capacity, s.openRegistered true true .never =
          (({ s with
              spans := s.spans.start true s.level false
              sessionCapacity := capacity
              sessionStack := ⟨spanHandle s.spans.count, s.level⟩ :: s.sessionStack }, false),
            spanHandle s.spans.count) := by
        simp [PlpgsqlSt.openRegistered, startSpan, sessionPush, hne, PlpgsqlSt.level]
      rw [hopen]
      refine ⟨⟨?_, ?_, h.tally.start .., h.ordered.start .., h.stale, h.fates, h.forgets⟩, rfl, rfl,
        rfl⟩
      · change _ :: s.spans.opened = handleSpans _ _ (spanHandle _) ++ live
        rw [hspans, h.opened]
        rfl
      · change _ :: s.sessionStack = registryOf (handleSpans _ _ (spanHandle _) ++ live)
        rw [hspans, h.registry]
        rfl

/-- The newest span is forgotten, if registered, and ended. -/
theorem endSpan {session : Bool} {level : ℕ} {ref : OtelSpanRef}
    (h : Books s (handleSpans session level ref ++ live)) :
    Books (s.endSpan session ref) live ∧
      (s.endSpan session ref).spans.log =
        s.spans.log ++ if ref.v = 0 then [] else [(ref, .ended)] := by
  by_cases hv : ref.v = 0
  · have hsame : s.endSpan session ref = s := by
      cases session <;> simp [PlpgsqlSt.endSpan, sessionForget, Spans.finish, hv]
    rw [handleSpans, if_pos hv] at h
    rw [hsame, if_pos hv, List.append_nil]
    exact ⟨h, rfl⟩
  · rw [handleSpans, if_neg hv] at h
    have hfinish := Spans.finish_newest h.ordered h.opened
    have hfates : ∀ x ∈ s.spans.log ++ [(ref, SpanEnd.ended)], x.2 = .ended ∨ x.2 = .released := by
      intro x hx
      rcases List.mem_append.1 hx with hx | hx
      · exact h.fates x hx
      · exact .inl (by rw [List.mem_singleton.1 hx])
    have htally := hfinish ▸ h.tally.finish ref
    have hordered := hfinish ▸ h.ordered.finish ref
    cases session with
    | false =>
      have hend : s.endSpan false ref = { s with spans := s.spans.finish ref } := rfl
      rw [hend, hfinish, if_neg hv]
      exact ⟨⟨rfl, h.registry, htally, hordered, h.stale, hfates, h.forgets⟩, rfl⟩
    | true =>
      have hreg : s.sessionStack = ⟨ref, level⟩ :: registryOf live := h.registry
      have hend : s.endSpan true ref =
          { s with
            sessionStack := registryOf live
            forgets := s.forgets ++ [(ref, some ref)]
            spans := s.spans.finish ref } := by
        simp [PlpgsqlSt.endSpan, sessionForget, hv, hreg]
      rw [hend, hfinish, if_neg hv]
      refine ⟨⟨rfl, rfl, htally, hordered, h.stale, hfates, fun x hx => ?_⟩, rfl⟩
      rcases List.mem_append.1 hx with hx | hx
      · exact h.forgets x hx
      · rw [List.mem_singleton.1 hx]

/-! ## Aborts and commits -/

/-- Entries below the level stay. -/
theorem drain_below {level : ℕ} {registry : List PlpgsqlSessionSpan} (spans : Spans)
    (h : ∀ e ∈ registry, e.nestLevel < level) : drain level registry spans = (registry, spans) := by
  cases registry with
  | nil => rfl
  | cons e rest => exact if_neg (Nat.not_le.2 (h e List.mem_cons_self))

theorem nestLevel_lt_of_mem {level : ℕ} (h : ∀ o ∈ live, o.level < level)
    {e : PlpgsqlSessionSpan} (he : e ∈ registryOf live) : e.nestLevel < level := by
  obtain ⟨o, ho, rfl⟩ := List.mem_map.1 he
  exact h o (List.mem_of_mem_filter ho)

/-- Draining ends the session spans of the aborted levels, from the newest on. -/
theorem drained {level : ℕ} (h : Books s (new ++ live))
    (hnew : ∀ o ∈ new, o.session = true ∧ level ≤ o.level) (hlive : ∀ o ∈ live, o.level < level) :
    Books { s with
      sessionStack := (drain level s.sessionStack s.spans).1
      spans := (drain level s.sessionStack s.spans).2 } live := by
  induction new generalizing s with
  | nil =>
    rw [drain_below s.spans fun e he => nestLevel_lt_of_mem hlive (h.registry ▸ he)]
    exact h
  | cons o new ih =>
    obtain ⟨hsession, hlevel⟩ := hnew o List.mem_cons_self
    have hreg : s.sessionStack = registryEntry o :: registryOf (new ++ live) := by
      rw [h.registry, registryOf, List.cons_append, List.filter_cons_of_pos hsession]
      rfl
    have hdrain : drain level s.sessionStack s.spans =
        drain level (registryOf (new ++ live)) (s.spans.finish o.ref) := by
      rw [hreg]
      exact if_pos hlevel
    have hfinish := Spans.finish_newest h.ordered h.opened
    have hbooks : Books { s with
        sessionStack := registryOf (new ++ live), spans := s.spans.finish o.ref } (new ++ live) := by
      refine ⟨?_, rfl, h.tally.finish _, h.ordered.finish _, ?_, ?_, h.forgets⟩
      · rw [hfinish]
        rfl
      · rw [hfinish]
        exact h.stale
      · rw [hfinish]
        intro x hx
        rcases List.mem_append.1 hx with hx | hx
        · exact h.fates x hx
        · exact .inl (by rw [List.mem_singleton.1 hx])
    rw [hdrain]
    exact ih hbooks fun x hx => hnew x (List.mem_cons_of_mem _ hx)

/-- The owners' release ends the spans of the aborted levels that do not belong to the session. -/
theorem released {level : ℕ} (h : Books s (new ++ live)) (hnew : ∀ o ∈ new, level ≤ o.level)
    (hlive : ∀ o ∈ live, o.level < level) :
    Books { s with spans := s.spans.release false level }
      (new.filter OpenSpan.session ++ live) where
  opened := by
    change s.spans.opened.filter _ = _
    rw [h.opened, List.filter_append]
    congr 1
    · refine List.filter_congr fun o ho => ?_
      simp [hnew o ho]
    · refine List.filter_eq_self.2 fun o ho => ?_
      simp [Nat.not_le.2 (hlive o ho)]
  registry := by
    change s.sessionStack = _
    rw [h.registry, registryOf_append, registryOf_append]
    congr 1
    unfold registryOf
    rw [List.filter_filter]
    simp
  tally := h.tally.close _ _
  ordered := h.ordered.close _ _
  stale := h.stale
  fates := by
    intro x hx
    rcases List.mem_append.1 hx with hx | hx
    · exact h.fates x hx
    · obtain ⟨o, -, rfl⟩ := List.mem_map.1 hx
      exact .inr rfl
  forgets := h.forgets

theorem callback_other (phase : ResourceReleasePhase) (isCommit : Bool)
    (hp : isCommit = true ∨ phase ≠ .afterLocks) (n : ℕ) (s : PlpgsqlSt) :
    (resourceReleaseCallback phase isCommit)^[n] s = s := by
  have hfixed : resourceReleaseCallback phase isCommit s = s := if_pos hp
  exact Function.iterate_fixed hfixed n

/-- An abort takes the spans of its levels and leaves the others. -/
theorem abort (h : Books s (new ++ live)) (hnew : ∀ o ∈ new, s.level ≤ o.level)
    (hlive : ∀ o ∈ live, o.level < s.level) (owners : ℕ) :
    Books (s.resourceOwnerRelease false owners) live := by
  have hrel := h.released hnew hlive
  set r : PlpgsqlSt := { s with spans := s.spans.release false s.level } with hr
  have hdrain := hrel.drained
    (fun o ho => ⟨List.of_mem_filter ho, hnew o (List.mem_of_mem_filter ho)⟩) hlive
  set d : PlpgsqlSt := { r with
    sessionStack := (drain s.level r.sessionStack r.spans).1
    spans := (drain s.level r.sessionStack r.spans).2 } with hd
  have hfirst : resourceReleaseCallback .afterLocks false r = d := rfl
  have hagain : resourceReleaseCallback .afterLocks false d = d := by
    have hbelow : drain s.level d.sessionStack d.spans = (d.sessionStack, d.spans) :=
      drain_below d.spans fun e he => nestLevel_lt_of_mem hlive (hdrain.registry ▸ he)
    change { d with
      sessionStack := (drain s.level d.sessionStack d.spans).1
      spans := (drain s.level d.sessionStack d.spans).2 } = d
    rw [hbelow]
  have hall : s.resourceOwnerRelease false owners = d := by
    change (resourceReleaseCallback .afterLocks false)^[owners + 1]
      ((resourceReleaseCallback .locks false)^[owners + 1]
        ((resourceReleaseCallback .beforeLocks false)^[owners + 1] r)) = d
    rw [callback_other .beforeLocks false (.inr (by decide)),
      callback_other .locks false (.inr (by decide)), Function.iterate_succ_apply, hfirst, Function.iterate_fixed hagain]
  rw [hall]
  exact hdrain

/-- A commit leaves spans alone that belong to the session or to outer levels. -/
theorem commit (hlive : ∀ o ∈ s.spans.opened, o.session = true ∨ o.level < s.level) (owners : ℕ) :
    s.resourceOwnerRelease true owners = s := by
  have hrel : s.spans.release true s.level = s.spans := by
    refine Spans.close_none fun o ho => ?_
    rcases hlive o ho with hs | hl
    · simp [hs]
    · simp [Nat.not_le.2 hl]
  unfold resourceOwnerRelease
  rw [hrel]
  dsimp only
  rw [callback_other _ _ (.inl rfl), callback_other _ _ (.inl rfl), callback_other _ _ (.inl rfl)]

end Books

end PostgresOtel
