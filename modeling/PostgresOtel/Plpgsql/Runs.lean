import PostgresOtel.Plpgsql.Registry

/-!
# Runs of PL/pgSQL with the plugin

A procedure's `ROLLBACK` is an abort to the release callback, which ends the spans of the procedure
and of its open statements; their own ends then go through stale handles.  In runs without such a
`ROLLBACK`, and in which no allocation of the module fails, the registry is exact.
-/

set_option autoImplicit false

namespace PostgresOtel

open PlpgsqlSt

/-! ## An invocation's own statement stack -/

/-- The entries of the open statements, with those of statements an error unwound in between.  No
entry above an open statement's has its number. -/
def Matches : List (ℕ × OtelSpanRef) → List PlpgsqlStmtSpan → Prop
  | [], _ => True
  | stmt :: stmts, entries => ∃ above rest, entries = above ++ ⟨stmt.1, stmt.2⟩ :: rest ∧
      (∀ e ∈ above, e.stmtid ∉ (stmt :: stmts).map Prod.fst) ∧ stmt.1 ∉ stmts.map Prod.fst ∧
      Matches stmts rest

theorem Matches.push {stmts : List (ℕ × OtelSpanRef)} {entries : List PlpgsqlStmtSpan}
    (h : Matches stmts entries) {stmtid : ℕ} (hid : stmtid ∉ stmts.map Prod.fst)
    (opened : OtelSpanRef) : Matches ((stmtid, opened) :: stmts) (⟨stmtid, opened⟩ :: entries) :=
  ⟨[], entries, rfl, fun _ he => absurd he List.not_mem_nil, hid, h⟩

/-- An error unwinds the innermost statement and leaves its entry. -/
theorem Matches.drop {stmt : ℕ × OtelSpanRef} {stmts : List (ℕ × OtelSpanRef)}
    {entries : List PlpgsqlStmtSpan} (h : Matches (stmt :: stmts) entries) :
    Matches stmts entries := by
  obtain ⟨above, rest, rfl, habove, hid, hrest⟩ := h
  have hout : ∀ e ∈ above, e.stmtid ∉ stmts.map Prod.fst :=
    fun e he hm => habove e he (List.mem_cons_of_mem _ hm)
  cases stmts with
  | nil => trivial
  | cons stmt' stmts =>
    obtain ⟨above', rest', rfl, habove', hid', hrest'⟩ := hrest
    refine ⟨above ++ ⟨stmt.1, stmt.2⟩ :: above', rest', by simp, fun e he => ?_, hid', hrest'⟩
    rcases List.mem_append.1 he with he | he
    · exact hout e he
    · rcases List.mem_cons.1 he with rfl | he
      · exact hid
      · exact habove' e he

theorem Matches.dropWhile {blocks : List Block} {entries : List PlpgsqlStmtSpan}
    (h : Matches (stmtsOf blocks) entries) :
    Matches (stmtsOf (blocks.dropWhile Block.isStmt)) entries := by
  induction blocks with
  | nil => exact h
  | cons b blocks ih =>
    cases b with
    | stmt stmtid opened => exact ih h.drop
    | subxact => exact h

/-- The loop of `stmt_end` finds the statement's own entry. -/
theorem Matches.find {stmt : ℕ × OtelSpanRef} {stmts : List (ℕ × OtelSpanRef)}
    {entries : List PlpgsqlStmtSpan} (h : Matches (stmt :: stmts) entries) :
    ∃ rest, entries.dropWhile (fun e => e.stmtid ≠ stmt.1) = ⟨stmt.1, stmt.2⟩ :: rest ∧
      Matches stmts rest := by
  obtain ⟨above, rest, rfl, habove, -, hrest⟩ := h
  refine ⟨rest, ?_, hrest⟩
  rw [List.dropWhile_append_of_pos fun e he => ?_, List.dropWhile_cons_of_neg (by simp)]
  have hne : e.stmtid ≠ stmt.1 := fun heq => habove e he (heq ▸ List.mem_cons_self)
  simpa using hne

/-- What the plugin keeps for an invocation fits what is open in it. -/
structure Frame.Ok (f : Frame) : Prop where
  tracked : ∀ st, f.pluginInfo = some st →
    st.useSessionOwner = !f.atomic ∧ Matches (stmtsOf f.blocks) st.stack
  untracked : f.pluginInfo = none → ∀ stmt ∈ stmtsOf f.blocks, stmt.2 = otelSpanNone

theorem mem_stmtsOf_dropWhile {blocks : List Block} {stmt : ℕ × OtelSpanRef}
    (h : stmt ∈ stmtsOf (blocks.dropWhile Block.isStmt)) : stmt ∈ stmtsOf blocks := by
  induction blocks with
  | nil => exact h
  | cons b blocks ih =>
    cases b with
    | stmt stmtid opened => exact List.mem_cons_of_mem _ (ih h)
    | subxact => exact h

/-- What is left after unwinding to the innermost subtransaction still fits. -/
theorem unwind_ok {frames frames' : List Frame} (h : unwind frames = some frames')
    (hok : ∀ f ∈ frames, f.Ok) (hp : frames.Pairwise fun f g => f.atomic = false → g.atomic = false) :
    (∀ f ∈ frames', f.Ok) ∧
      frames'.Pairwise fun f g => f.atomic = false → g.atomic = false := by
  induction frames with
  | nil => cases h
  | cons f fs ih =>
    obtain ⟨hf, hfs⟩ := List.forall_mem_cons.1 hok
    obtain ⟨hpf, hpfs⟩ := List.pairwise_cons.1 hp
    unfold unwind at h
    cases hdrop : f.blocks.dropWhile Block.isStmt with
    | nil =>
      rw [hdrop] at h
      exact ih h hfs hpfs
    | cons b blocks =>
      rw [hdrop] at h
      obtain rfl := (Option.some.inj h).symm
      have hb : b = .subxact := by
        have hne : f.blocks.dropWhile Block.isStmt ≠ [] := by simp [hdrop]
        have hhead := List.head_dropWhile_not Block.isStmt hne
        simp only [hdrop, List.head_cons] at hhead
        cases b with
        | stmt stmtid opened => cases hhead
        | subxact => rfl
      have hstmts : stmtsOf (f.blocks.dropWhile Block.isStmt) = stmtsOf blocks := by
        rw [hdrop, hb]
        rfl
      refine ⟨List.forall_mem_cons.2 ⟨⟨fun st hst => ?_, fun hnone stmt hm => ?_⟩, hfs⟩,
        List.pairwise_cons.2 ⟨hpf, hpfs⟩⟩
      · obtain ⟨hs, hm⟩ := hf.tracked st hst
        exact ⟨hs, hstmts ▸ hm.dropWhile⟩
      · exact hf.untracked hnone stmt (mem_stmtsOf_dropWhile (hstmts ▸ hm))

/-! ## The invariant -/

/-- The books are right for the spans of the open invocations, whose own stacks fit; an invocation
below a nonatomic one is nonatomic. -/
structure Registered (s : PlpgsqlSt) : Prop where
  books : Books s (liveSpans s.savepoints s.frames)
  frames : ∀ f ∈ s.frames, f.Ok
  nonatomic : s.frames.Pairwise fun f g => f.atomic = false → g.atomic = false

/-- The steps of the runs in which the registry is exact: no allocation of the module fails, and a
procedure's `ROLLBACK` finds no span in the registry. -/
def PlpgsqlAct.Ok (s : PlpgsqlSt) : PlpgsqlAct → Prop
  | .funcBegin _ _ _ oom _ => oom = .never
  | .stmtBegin _ _ _ _ oom _ => oom = .never
  | .rollback _ => s.sessionStack = []
  | _ => True

theorem registered_init : Registered {} where
  books := ⟨rfl, rfl, Spans.tally_init, Spans.ordered_init, rfl, fun _ h => absurd h List.not_mem_nil,
    fun _ h => absurd h List.not_mem_nil⟩
  frames _ h := absurd h List.not_mem_nil
  nonatomic := .nil

namespace Registered

variable {s : PlpgsqlSt}

/-- An error, possibly raised with some more spans open than the invocations show. -/
theorem raise {extra : List OpenSpan}
    (hb : Books s (extra ++ liveSpans s.savepoints s.frames)) (he : ∀ o ∈ extra, s.level ≤ o.level)
    (hf : ∀ f ∈ s.frames, f.Ok)
    (hp : s.frames.Pairwise fun f g => f.atomic = false → g.atomic = false) (owners : ℕ) :
    Registered (s.raise owners) := by
  obtain ⟨new, old, hlive, hnew, hold⟩ := liveSpans_unwind s.savepoints s.frames
  rw [hlive, ← List.append_assoc] at hb
  have hge : ∀ o ∈ extra ++ new, s.level ≤ o.level := by
    intro o ho
    rcases List.mem_append.1 ho with ho | ho
    · exact he o ho
    · exact hnew o ho
  unfold PlpgsqlSt.raise
  cases hu : unwind s.frames with
  | none =>
    rw [hu] at hold
    obtain ⟨rfl, -⟩ := hold
    refine ⟨?_, fun _ h => absurd h List.not_mem_nil, .nil⟩
    exact (hb.abort hge (fun _ h => absurd h List.not_mem_nil) owners).congr rfl rfl rfl
  | some frames' =>
    rw [hu] at hold
    obtain ⟨rfl, hnest⟩ := hold
    obtain ⟨hf', hp'⟩ := unwind_ok hu hf hp
    refine ⟨?_, hf', hp'⟩
    refine (hb.abort hge (fun o ho => ?_) owners).congr rfl rfl rfl
    have hle := level_le_of_mem_liveSpans ho
    change o.level < nestLevel s.savepoints s.frames
    omega

theorem nestLevel_cons (savepoints : ℕ) (f : Frame) (fs : List Frame) :
    nestLevel savepoints (f :: fs) = subxacts f.blocks + nestLevel savepoints fs := rfl

theorem funcBegin (h : Registered s) {atomic tracing opens : Bool} {owners : ℕ}
    (hen : (PlpgsqlAct.funcBegin atomic tracing opens .never owners).Enabled s) :
    Registered (s.next (.funcBegin atomic tracing opens .never owners)) := by
  have hp (f : Frame) (hf : f.atomic = atomic) :
      (f :: s.frames).Pairwise fun f g => f.atomic = false → g.atomic = false :=
    List.pairwise_cons.2 ⟨fun g hg ha => (hen (hf ▸ ha)).2 g hg, h.nonatomic⟩
  cases tracing with
  | false =>
    refine ⟨h.books.congr rfl rfl rfl, List.forall_mem_cons.2 ⟨⟨?_, ?_⟩, h.frames⟩, hp _ rfl⟩
    · exact fun st hst => absurd hst.symm (Option.some_ne_none st)
    · exact fun _ _ hm => absurd hm List.not_mem_nil
  | true =>
    set s₁ : PlpgsqlSt := { s with frames := ⟨atomic, some {}, []⟩ :: s.frames } with hs₁
    have hb₁ : Books s₁ (liveSpans s.savepoints s.frames) := h.books.congr rfl rfl rfl
    obtain ⟨hb₂, hret, hframes, hsave⟩ := hb₁.openRegistered (!atomic) opens
    set r := s₁.openRegistered (!atomic) opens .never with hr
    have hnext : s.next (.funcBegin atomic true opens .never owners) =
        { r.1.1 with
          frames := ⟨atomic, some { useSessionOwner := !atomic, funcSpan := r.2 }, []⟩ ::
            s.frames } := by
      change PlpgsqlSt.orThrow owners (s₁.funcBeg opens .never) id = _
      have hbeg : s₁.funcBeg opens .never = (r.1.1.modifyFrame fun f =>
          { f with pluginInfo := some { useSessionOwner := !atomic, funcSpan := r.2 } }, r.1.2) :=
        rfl
      rw [hbeg, hret, PlpgsqlSt.orThrow, if_neg Bool.false_ne_true, PlpgsqlSt.modifyFrame, hframes]
      rfl
    have hlevel : s₁.level = nestLevel s.savepoints s.frames := Nat.zero_add _
    rw [hnext]
    refine ⟨?_, List.forall_mem_cons.2 ⟨⟨?_, fun hn => absurd hn (Option.some_ne_none _)⟩, h.frames⟩, hp _ rfl⟩
    · change Books _ (handleSpans (!atomic) (nestLevel r.1.1.savepoints s.frames) r.2 ++
        liveSpans r.1.1.savepoints s.frames)
      rw [hsave, ← hlevel]
      exact hb₂.congr rfl rfl rfl
    · rintro st hst
      obtain rfl := (Option.some.inj hst).symm
      exact ⟨rfl, trivial⟩

theorem stackPush_never (stmtid : ℕ) (span : OtelSpanRef) (st : PlpgsqlSpanState) :
    (stackPush stmtid span .never st).2 = false ∧
      (stackPush stmtid span .never st).1.stack = ⟨stmtid, span⟩ :: st.stack ∧
      (stackPush stmtid span .never st).1.useSessionOwner = st.useSessionOwner ∧
      (stackPush stmtid span .never st).1.funcSpan = st.funcSpan := by
  unfold stackPush
  split_ifs with h1 h2
  · cases h2
  · exact ⟨rfl, rfl, rfl, rfl⟩
  · exact ⟨rfl, rfl, rfl, rfl⟩

/-- A statement begins, once its span is started: its entry is pushed on the invocation's stack. -/
theorem stmtPushed {s₁ : PlpgsqlSt} {f : Frame} {fs : List Frame} {st : PlpgsqlSpanState}
    {stmtid : ℕ} {span : OtelSpanRef}
    (hb : Books s₁ (handleSpans (!f.atomic) s₁.level span ++ liveSpans s₁.savepoints s₁.frames))
    (hframes : s₁.frames = f :: fs) (hok : ∀ g ∈ s₁.frames, g.Ok)
    (hp : s₁.frames.Pairwise fun f g => f.atomic = false → g.atomic = false)
    (hst : f.pluginInfo = some st) (hid : stmtid ∉ (stmtsOf f.blocks).map Prod.fst) :
    Registered ((s₁.modifyFrame fun f =>
      { f with pluginInfo := some (stackPush stmtid span .never st).1 }).pushBlock
        (.stmt stmtid span)) := by
  obtain ⟨-, hstack, hsession, hfunc⟩ := stackPush_never stmtid span st
  rw [hframes] at hok hp
  obtain ⟨hf, hfs⟩ := List.forall_mem_cons.1 hok
  obtain ⟨hpf, hpfs⟩ := List.pairwise_cons.1 hp
  have hnext : (s₁.modifyFrame fun f =>
      { f with pluginInfo := some (stackPush stmtid span .never st).1 }).pushBlock
        (.stmt stmtid span) =
      { s₁ with
        frames := ⟨f.atomic, some (stackPush stmtid span .never st).1,
          .stmt stmtid span :: f.blocks⟩ :: fs } := by
    rw [PlpgsqlSt.modifyFrame, hframes]
    rfl
  have hlive : liveSpans s₁.savepoints (⟨f.atomic, some (stackPush stmtid span .never st).1,
      .stmt stmtid span :: f.blocks⟩ :: fs) =
      handleSpans (!f.atomic) s₁.level span ++ liveSpans s₁.savepoints s₁.frames := by
    have hfs' : f.funcSpan = (stackPush stmtid span .never st).1.funcSpan := by
      rw [hfunc, Frame.funcSpan, hst]
    rw [hframes, PlpgsqlSt.level, hframes, nestLevel_cons, liveSpans, liveSpans, Frame.spans,
      Frame.spans, hfs', blockSpans]
    simp only [List.append_assoc]
    rfl
  rw [hnext]
  refine ⟨?_, List.forall_mem_cons.2 ⟨⟨fun st' hst' => ?_, fun hn => absurd hn (Option.some_ne_none _)⟩, hfs⟩,
    List.pairwise_cons.2 ⟨hpf, hpfs⟩⟩
  · change Books _ (liveSpans s₁.savepoints _)
    rw [hlive]
    exact hb.congr rfl rfl rfl
  · obtain rfl := (Option.some.inj hst').symm
    obtain ⟨hs, hm⟩ := hf.tracked st hst
    rw [hsession, hstack]
    exact ⟨hs, hm.push hid span⟩

theorem stmtBegin (h : Registered s) {stmtid : ℕ} {traced opens typenameRaises : Bool} {owners : ℕ}
    (hen : (PlpgsqlAct.stmtBegin stmtid traced opens typenameRaises .never owners).Enabled s) :
    Registered (s.next (.stmtBegin stmtid traced opens typenameRaises .never owners)) := by
  obtain ⟨f, fs, hframes, hid⟩ := hen
  obtain ⟨hf, -⟩ := List.forall_mem_cons.1 (hframes ▸ h.frames)
  change Registered (PlpgsqlSt.orThrow owners
    (s.stmtBeg stmtid traced opens typenameRaises .never).1
    (pushBlock (.stmt stmtid (s.stmtBeg stmtid traced opens typenameRaises .never).2)))
  cases hinfo : f.pluginInfo with
  | none =>
    have hbeg : s.stmtBeg stmtid traced opens typenameRaises .never =
        ((s, false), otelSpanNone) := by
      obtain ⟨atomic, pluginInfo, blocks⟩ := f
      obtain rfl : pluginInfo = none := hinfo
      rw [PlpgsqlSt.stmtBeg, hframes]
    have hpush : s.pushBlock (.stmt stmtid otelSpanNone) =
        { s with frames := { f with blocks := .stmt stmtid otelSpanNone :: f.blocks } :: fs } := by
      simp only [PlpgsqlSt.pushBlock, PlpgsqlSt.modifyFrame, hframes]
    rw [hbeg, PlpgsqlSt.orThrow, if_neg Bool.false_ne_true, hpush]
    obtain ⟨-, hfs⟩ := List.forall_mem_cons.1 (hframes ▸ h.frames)
    have hp := hframes ▸ h.nonatomic
    refine ⟨?_, List.forall_mem_cons.2 ⟨⟨fun st hst => ?_, fun _ stmt hm => ?_⟩, hfs⟩,
      List.pairwise_cons.2 (List.pairwise_cons.1 hp)⟩
    · have hb := h.books
      rw [hframes] at hb
      exact hb.congr rfl rfl rfl
    · rw [show f.pluginInfo = some st from hst] at hinfo
      cases hinfo
    · rcases List.mem_cons.1 hm with rfl | hm
      · rfl
      · exact hf.untracked hinfo stmt hm
  | some st =>
    obtain ⟨hsession, -⟩ := hf.tracked st hinfo
    have hbeg : s.stmtBeg stmtid traced opens typenameRaises .never =
        let r := if traced then s.openRegistered st.useSessionOwner opens .never
          else ((s, false), otelSpanNone)
        if r.1.2 ∨ (typenameRaises ∧ traced ∧ opens) then
          ((r.1.1, true), r.2)
        else
          let pushed := stackPush stmtid r.2 .never st
          ((r.1.1.modifyFrame fun f => { f with pluginInfo := some pushed.1 }, pushed.2), r.2) := by
      obtain ⟨atomic, pluginInfo, blocks⟩ := f
      obtain rfl : pluginInfo = some st := hinfo
      rw [PlpgsqlSt.stmtBeg, hframes]
    rw [hbeg]
    obtain ⟨r, hr, hbr, hret, hrframes, hrsave⟩ : ∃ r, (if traced then
        s.openRegistered st.useSessionOwner opens .never else ((s, false), otelSpanNone)) = r ∧
        Books r.1.1 (handleSpans (!f.atomic) s.level r.2 ++ liveSpans s.savepoints s.frames) ∧
        r.1.2 = false ∧ r.1.1.frames = s.frames ∧ r.1.1.savepoints = s.savepoints := by
      refine ⟨_, rfl, ?_⟩
      rw [hsession]
      cases traced with
      | false => exact ⟨h.books, rfl, rfl, rfl⟩
      | true => exact h.books.openRegistered _ _
    rw [hr]
    dsimp only
    have hlevel : r.1.1.level = s.level := by
      rw [PlpgsqlSt.level, PlpgsqlSt.level, hrframes, hrsave]
    rw [← hlevel, ← hrframes, ← hrsave] at hbr
    have hok : ∀ g ∈ r.1.1.frames, g.Ok := hrframes ▸ h.frames
    have hp := hrframes ▸ h.nonatomic
    split_ifs with hraise
    · rw [PlpgsqlSt.orThrow, if_pos rfl]
      exact raise hbr (fun o ho => (mem_handleSpans ho).1.ge) hok hp owners
    · have hpushed := (stackPush_never stmtid r.2 st).1
      rw [PlpgsqlSt.orThrow, if_neg (by rw [hpushed]; exact Bool.false_ne_true)]
      exact stmtPushed hbr (hrframes.trans hframes) hok hp hinfo hid

theorem endSpan_frames (session : Bool) (ref : OtelSpanRef) (s : PlpgsqlSt) :
    (s.endSpan session ref).frames = s.frames ∧ (s.endSpan session ref).savepoints = s.savepoints := by
  cases session <;> simp only [PlpgsqlSt.endSpan, sessionForget] <;> split_ifs <;> exact ⟨rfl, rfl⟩

/-- A statement ends: its span, if it has one, is ended as the newest. -/
theorem stmtEnd (h : Registered s) {f : Frame} {fs : List Frame} {stmtid : ℕ} {opened : OtelSpanRef}
    {blocks : List Block} (hframes : s.frames = f :: fs)
    (hblocks : f.blocks = .stmt stmtid opened :: blocks) :
    Registered (s.next .stmtEnd) ∧ (s.next .stmtEnd).spans.log =
      s.spans.log ++ if opened.v = 0 then [] else [(opened, .ended)] := by
  obtain ⟨atomic, pluginInfo, _⟩ := f
  obtain rfl := hblocks
  have hb := h.books
  have hfok := h.frames
  have hp := h.nonatomic
  rw [hframes] at hb hfok hp
  obtain ⟨hf, hfs⟩ := List.forall_mem_cons.1 hfok
  obtain ⟨hpf, hpfs⟩ := List.pairwise_cons.1 hp
  have hnext : s.next .stmtEnd = (s.stmtEnd stmtid).popBlock := by
    rw [PlpgsqlSt.next, hframes]
  rw [hnext]
  cases pluginInfo with
  | none =>
    have hnone : opened = otelSpanNone := hf.untracked rfl _ List.mem_cons_self
    have hend : (s.stmtEnd stmtid).popBlock =
        { s with frames := ⟨atomic, none, blocks⟩ :: fs } := by
      simp [PlpgsqlSt.stmtEnd, PlpgsqlSt.popBlock, PlpgsqlSt.modifyFrame, hframes]
    subst hnone
    rw [hend]
    refine ⟨⟨?_, List.forall_mem_cons.2 ⟨⟨?_, ?_⟩, hfs⟩, List.pairwise_cons.2 ⟨hpf, hpfs⟩⟩, ?_⟩
    · exact hb.congr rfl rfl rfl
    · exact fun st hst => absurd hst.symm (Option.some_ne_none st)
    · exact fun hn stmt hm => hf.untracked hn stmt (List.mem_cons_of_mem _ hm)
    · exact (List.append_nil _).symm
  | some st =>
    obtain ⟨hsession, hm⟩ := hf.tracked st rfl
    obtain ⟨rest, hdrop, hrest⟩ := hm.find
    have hend : (s.stmtEnd stmtid).popBlock =
        { s.endSpan (!atomic) opened with
          frames := ⟨atomic, some { st with stack := rest }, blocks⟩ :: fs } := by
      simp only [PlpgsqlSt.stmtEnd, hframes]
      rw [show (st.stack.dropWhile fun e => e.stmtid ≠ stmtid) = ⟨stmtid, opened⟩ :: rest from hdrop]
      dsimp only
      rw [hsession, PlpgsqlSt.modifyFrame, (endSpan_frames _ _ s).1, hframes]
      rfl
    have hb' : Books s (handleSpans (!atomic) (subxacts blocks + nestLevel s.savepoints fs) opened ++
        liveSpans s.savepoints (⟨atomic, some st, blocks⟩ :: fs)) := by
      rw [liveSpans, Frame.spans, blockSpans, List.append_assoc, List.append_assoc] at hb
      rw [liveSpans, Frame.spans, List.append_assoc]
      exact hb
    obtain ⟨hbooks, hlog⟩ := hb'.endSpan
    rw [hend]
    refine ⟨⟨?_, List.forall_mem_cons.2 ⟨⟨?_, fun hn => absurd hn (Option.some_ne_none _)⟩, hfs⟩,
      List.pairwise_cons.2 ⟨hpf, hpfs⟩⟩, hlog⟩
    · change Books _ (liveSpans (s.endSpan (!atomic) opened).savepoints _)
      rw [(endSpan_frames _ _ s).2]
      exact hbooks.congr rfl rfl rfl
    · rintro st' hst'
      obtain rfl := (Option.some.inj hst').symm
      exact ⟨hsession, hrest⟩

/-- An invocation ends: its span, if it has one, is ended as the newest. -/
theorem funcEnd (h : Registered s) {f : Frame} {fs : List Frame} (hframes : s.frames = f :: fs)
    (hblocks : f.blocks = []) :
    Registered (s.next .funcEnd) ∧ (s.next .funcEnd).spans.log =
      s.spans.log ++ if f.funcSpan.v = 0 then [] else [(f.funcSpan, .ended)] := by
  obtain ⟨atomic, pluginInfo, _⟩ := f
  obtain rfl := hblocks
  have hb := h.books
  have hfok := h.frames
  have hp := h.nonatomic
  rw [hframes] at hb hfok hp
  obtain ⟨hf, hfs⟩ := List.forall_mem_cons.1 hfok
  obtain ⟨hpf, hpfs⟩ := List.pairwise_cons.1 hp
  cases pluginInfo with
  | none =>
    have hnext : s.next .funcEnd = { s with frames := fs } := by
      simp [PlpgsqlSt.next, PlpgsqlSt.funcEnd, hframes]
    rw [hnext]
    exact ⟨⟨hb.congr rfl rfl rfl, hfs, hpfs⟩, (List.append_nil _).symm⟩
  | some st =>
    obtain ⟨hsession, -⟩ := hf.tracked st rfl
    have hnext : s.next .funcEnd = { s.endSpan (!atomic) st.funcSpan with frames := fs } := by
      simp only [PlpgsqlSt.next, PlpgsqlSt.funcEnd, hframes]
      rw [hsession, PlpgsqlSt.modifyFrame, (endSpan_frames _ _ s).1, hframes]
      rfl
    have hb' : Books s (handleSpans (!atomic) (nestLevel s.savepoints fs) st.funcSpan ++
        liveSpans s.savepoints fs) := hb
    obtain ⟨hbooks, hlog⟩ := hb'.endSpan
    rw [hnext]
    refine ⟨⟨?_, hfs, hpfs⟩, hlog⟩
    change Books _ (liveSpans (s.endSpan (!atomic) st.funcSpan).savepoints fs)
    rw [(endSpan_frames _ _ s).2]
    exact hbooks.congr rfl rfl rfl

theorem subxactBegin (h : Registered s) : Registered (s.next .subxactBegin) := by
  cases hframes : s.frames with
  | nil =>
    have hnext : s.next .subxactBegin = { s with savepoints := s.savepoints + 1 } := by
      simp only [PlpgsqlSt.next, pushBlock, hframes]
    have hb := h.books
    rw [hframes] at hb
    rw [hnext]
    refine ⟨?_, h.frames, h.nonatomic⟩
    change Books _ (liveSpans _ s.frames)
    rw [hframes]
    exact hb.congr rfl rfl rfl
  | cons f fs =>
    have hnext : s.next .subxactBegin =
        { s with frames := { f with blocks := .subxact :: f.blocks } :: fs } := by
      simp only [PlpgsqlSt.next, pushBlock, PlpgsqlSt.modifyFrame, hframes]
    have hb := h.books
    have hfok := h.frames
    have hp := h.nonatomic
    rw [hframes] at hb hfok hp
    obtain ⟨hf, hfs⟩ := List.forall_mem_cons.1 hfok
    rw [hnext]
    exact ⟨hb.congr rfl rfl rfl,
      List.forall_mem_cons.2 ⟨⟨hf.tracked, hf.untracked⟩, hfs⟩,
      List.pairwise_cons.2 (List.pairwise_cons.1 hp)⟩

/-- A subtransaction commits with none of its own spans open, so its owner has nothing to release. -/
theorem subxactCommit (h : Registered s) {owners : ℕ}
    (hen : (PlpgsqlAct.subxactCommit owners).Enabled s) :
    Registered (s.next (.subxactCommit owners)) := by
  have hb := h.books
  have hfok := h.frames
  have hp := h.nonatomic
  rcases hen with ⟨f, fs, blocks, hframes, hblocks⟩ | ⟨hframes, -⟩
  · obtain ⟨atomic, pluginInfo, _⟩ := f
    obtain rfl := hblocks
    have hlevel : s.level = nestLevel s.savepoints (⟨atomic, pluginInfo, blocks⟩ :: fs) + 1 := by
      rw [PlpgsqlSt.level, hframes, nestLevel_cons, nestLevel_cons]
      simp [subxacts]
      omega
    have hcommit : s.resourceOwnerRelease true owners = s := by
      refine Books.commit (fun o ho => .inr ?_) owners
      rw [hb.opened, hframes] at ho
      have hmem : o ∈ liveSpans s.savepoints (⟨atomic, pluginInfo, blocks⟩ :: fs) := ho
      have := level_le_of_mem_liveSpans hmem
      omega
    have hnext : s.next (.subxactCommit owners) =
        { s with frames := ⟨atomic, pluginInfo, blocks⟩ :: fs } := by
      simp [PlpgsqlSt.next, hcommit, popBlock, PlpgsqlSt.modifyFrame, hframes]
    rw [hframes] at hb hfok hp
    obtain ⟨hf, hfs⟩ := List.forall_mem_cons.1 hfok
    rw [hnext]
    exact ⟨hb.congr rfl rfl rfl,
      List.forall_mem_cons.2 ⟨⟨hf.tracked, hf.untracked⟩, hfs⟩,
      List.pairwise_cons.2 (List.pairwise_cons.1 hp)⟩
  · have hcommit : s.resourceOwnerRelease true owners = s := by
      refine Books.commit (fun o ho => ?_) owners
      rw [hb.opened, hframes] at ho
      cases ho
    have hnext : s.next (.subxactCommit owners) = { s with savepoints := s.savepoints - 1 } := by
      simp [PlpgsqlSt.next, hcommit, popBlock, hframes]
    rw [hframes] at hb
    rw [hnext]
    refine ⟨?_, hfok, hp⟩
    change Books _ (liveSpans _ s.frames)
    rw [hframes]
    exact hb.congr rfl rfl rfl

/-- In a nonatomic invocation all open spans belong to the session. -/
theorem session_of_nonatomic (h : Registered s) {f : Frame} {fs : List Frame}
    (hframes : s.frames = f :: fs) (ha : f.atomic = false) :
    ∀ o ∈ s.spans.opened, o.session = true := by
  have hp := h.nonatomic
  rw [hframes] at hp
  have hall : ∀ g ∈ s.frames, g.atomic = false := by
    rw [hframes]
    exact List.forall_mem_cons.2 ⟨ha, fun g hg => (List.pairwise_cons.1 hp).1 g hg ha⟩
  rw [h.books.opened]
  exact fun o ho => session_of_mem_liveSpans hall ho

/-- A procedure's `COMMIT` leaves the spans and the registry alone. -/
theorem commit (h : Registered s) {owners : ℕ} (hen : (PlpgsqlAct.commit owners).Enabled s) :
    s.next (.commit owners) = s := by
  obtain ⟨-, f, fs, hframes, ha⟩ := hen
  exact Books.commit (fun o ho => .inl (h.session_of_nonatomic hframes ha o ho)) owners

/-- A procedure's `ROLLBACK` that finds the registry empty changes nothing. -/
theorem rollback (h : Registered s) {owners : ℕ} (hen : (PlpgsqlAct.rollback owners).Enabled s)
    (hok : s.sessionStack = []) : s.next (.rollback owners) = s := by
  obtain ⟨-, f, fs, hframes, ha⟩ := hen
  have hnone : s.spans.opened = [] := by
    refine List.eq_nil_iff_forall_not_mem.2 fun o ho => ?_
    have hs := h.session_of_nonatomic hframes ha o ho
    have hm : registryEntry o ∈ s.sessionStack := by
      rw [h.books.registry, ← h.books.opened]
      exact List.mem_map_of_mem (List.mem_filter.2 ⟨ho, hs⟩)
    rw [hok] at hm
    cases hm
  have hrel : s.spans.release false s.level = s.spans := by
    refine Spans.close_none fun o ho => ?_
    rw [hnone] at ho
    cases ho
  have hcallback : ∀ phase, resourceReleaseCallback phase false s = s := by
    intro phase
    by_cases hphase : phase = .afterLocks
    · subst hphase
      have hdrain : drain s.level s.sessionStack s.spans = (s.sessionStack, s.spans) :=
        Books.drain_below s.spans fun e he => by rw [hok] at he; cases he
      change { s with
        sessionStack := (drain s.level s.sessionStack s.spans).1
        spans := (drain s.level s.sessionStack s.spans).2 } = s
      rw [hdrain]
    · exact if_pos (.inr hphase)
  change s.resourceOwnerRelease false owners = s
  unfold resourceOwnerRelease
  rw [hrel]
  dsimp only
  rw [Function.iterate_fixed (hcallback _), Function.iterate_fixed (hcallback _),
    Function.iterate_fixed (hcallback _)]

theorem xactCommit (h : Registered s) {owners : ℕ}
    (hen : (PlpgsqlAct.xactCommit owners).Enabled s) : s.next (.xactCommit owners) = s := by
  refine Books.commit (fun o ho => ?_) owners
  rw [h.books.opened, hen.1] at ho
  cases ho

/-- Every step of such a run keeps the registry exact. -/
theorem step (h : Registered s) {a : PlpgsqlAct} (hen : a.Enabled s) (hok : a.Ok s) :
    Registered (s.next a) := by
  cases a with
  | funcBegin atomic tracing opens oom owners =>
    obtain rfl : oom = .never := hok
    exact h.funcBegin hen
  | funcEnd =>
    obtain ⟨f, fs, hframes, hblocks⟩ := hen
    exact (h.funcEnd hframes hblocks).1
  | stmtBegin stmtid traced opens typenameRaises oom owners =>
    obtain rfl : oom = .never := hok
    exact h.stmtBegin hen
  | stmtEnd =>
    obtain ⟨f, fs, stmtid, opened, blocks, hframes, hblocks⟩ := hen
    exact (h.stmtEnd hframes hblocks).1
  | subxactBegin => exact h.subxactBegin
  | subxactCommit owners => exact h.subxactCommit hen
  | error owners =>
    exact raise (show Books s ([] ++ _) from h.books) (fun _ ho => absurd ho List.not_mem_nil) h.frames
      h.nonatomic owners
  | commit owners => rw [h.commit hen]; exact h
  | rollback owners => rw [h.rollback hen hok]; exact h
  | xactCommit owners => rw [h.xactCommit hen]; exact h

end Registered

theorem reachable_registered {s : PlpgsqlSt} (h : plpgsql.ReachBy PlpgsqlAct.Ok s) : Registered s :=
  Machine.ReachBy.invariant (I := Registered) registered_init (fun _ _ hr he ho => hr.step he ho) h

/-! ## The claim on runs -/

/-- The handle that the next `stmt_end` or `func_end` is for. -/
def PlpgsqlSt.innermost (s : PlpgsqlSt) : OtelSpanRef :=
  match s.frames with
  | [] => otelSpanNone
  | f :: _ =>
    match f.blocks with
    | .stmt _ opened :: _ => opened
    | _ => f.funcSpan

/-- In runs in which no allocation of the module fails and no procedure rolls back with spans in the
registry: the registry is the open session spans in opening order, `session_forget` removes what it
is asked to, no handle is ended after its span is gone, every span leaves once, by its own end or by
an abort, a procedure's `COMMIT` or `ROLLBACK` changes nothing, and `stmt_end` and `func_end` end
their own span. -/
theorem session_registry_exact {s : PlpgsqlSt} (h : plpgsql.ReachBy PlpgsqlAct.Ok s) :
    s.sessionStack.map PlpgsqlSessionSpan.span =
      (s.spans.opened.filter OpenSpan.session).map OpenSpan.ref ∧
    s.spans.Ordered ∧
    (∀ x ∈ s.forgets, x.2 = some x.1) ∧
    s.spans.stale = [] ∧
    (∀ n < s.spans.count, (s.spans.opened.map OpenSpan.ref).count (spanHandle n) +
      (s.spans.log.map Prod.fst).count (spanHandle n) = 1) ∧
    (∀ x ∈ s.spans.log, x.2 = .ended ∨ x.2 = .released) ∧
    (∀ owners, (PlpgsqlAct.commit owners).Enabled s → s.next (.commit owners) = s) ∧
    (∀ owners, (PlpgsqlAct.rollback owners).Enabled s → (PlpgsqlAct.rollback owners).Ok s →
      s.next (.rollback owners) = s) ∧
    (∀ a, a = .stmtEnd ∨ a = .funcEnd → a.Enabled s →
      (s.next a).spans.log = s.spans.log ++
        if s.innermost.v = 0 then [] else [(s.innermost, .ended)]) := by
  have hr := reachable_registered h
  have hb := hr.books
  refine ⟨?_, hb.ordered, hb.forgets, hb.stale, fun n hn => hb.tally.once hn, hb.fates,
    fun _ hen => hr.commit hen, fun _ hen hok => hr.rollback hen hok, ?_⟩
  · rw [hb.registry, hb.opened, registryOf, List.map_map]
    rfl
  · rintro a (rfl | rfl) hen
    · obtain ⟨f, fs, stmtid, opened, blocks, hframes, hblocks⟩ := hen
      have hinner : s.innermost = opened := by
        simp only [PlpgsqlSt.innermost, hframes, hblocks]
      rw [hinner]
      exact (hr.stmtEnd hframes hblocks).2
    · obtain ⟨f, fs, hframes, hblocks⟩ := hen
      have hinner : s.innermost = f.funcSpan := by
        simp only [PlpgsqlSt.innermost, hframes, hblocks]
      rw [hinner]
      exact (hr.funcEnd hframes hblocks).2

/-- A procedure that runs its first statement. -/
def inProcedure : PlpgsqlSt :=
  (({} : PlpgsqlSt).next (.funcBegin false true true .never 0)).next
    (.stmtBegin 1 true true false .never 0)

theorem reachBy_inProcedure : plpgsql.ReachBy PlpgsqlAct.Ok inProcedure := by
  have hfunc : plpgsql.ReachBy PlpgsqlAct.Ok
      (plpgsql.next {} (.funcBegin false true true .never 0)) :=
    .step _ .init (fun _ => ⟨rfl, fun _ h => absurd h List.not_mem_nil⟩) rfl
  have hen : (PlpgsqlAct.stmtBegin 1 true true false .never 0).Enabled
      (plpgsql.next {} (.funcBegin false true true .never 0)) :=
    ⟨_, _, rfl, List.not_mem_nil⟩
  exact Machine.ReachBy.step (m := plpgsql) (.stmtBegin 1 true true false .never 0) hfunc hen rfl

theorem session_registry_exact_inProcedure :
    inProcedure.sessionStack.map PlpgsqlSessionSpan.span = [⟨2⟩, ⟨1⟩] ∧
      inProcedure.next (.commit 0) = inProcedure := by
  obtain ⟨-, -, -, -, -, -, hcommit, -⟩ := session_registry_exact reachBy_inProcedure
  exact ⟨by decide, hcommit 0 ⟨rfl, _, _, rfl, rfl⟩⟩

/-- The statement is a `ROLLBACK`: its span and the procedure's are ended with it, and their own
ends go through handles that have been ended. -/
theorem rollback_ends_procedure_spans :
    plpgsql.Reachable inProcedure ∧ inProcedure.spans.opened.length = 2 ∧
      (PlpgsqlAct.rollback 0).Enabled inProcedure ∧
      (inProcedure.next (.rollback 0)).spans.opened = [] ∧
      (inProcedure.next (.rollback 0)).sessionStack = [] ∧
      ((inProcedure.next (.rollback 0)).next .stmtEnd).spans.stale = [⟨2⟩] ∧
      (((inProcedure.next (.rollback 0)).next .stmtEnd).next .funcEnd).spans.stale = [⟨1⟩, ⟨2⟩] :=
  ⟨reachBy_inProcedure.reachable, by decide, ⟨rfl, _, _, rfl, rfl⟩, by decide, by decide,
    by decide, by decide⟩

end PostgresOtel
