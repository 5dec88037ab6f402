import PostgresOtel.Trace.Objects

/-!
# Contexts from SQL comments

`maybe_apply_sqlcommenter` installs the context of a statement's comment as the root context, if none
is set; `finalize_stmt_span` takes it down again.  An error ends a statement without that call, and
so does the normal end of a statement that has no entry on the statement stack.
-/

set_option autoImplicit false

namespace PostgresOtel

open KeyedStack TracingSt TraceSt

/-! ## The root context -/

/-- `otel_try_apply_sqlcommenter_context`, where `comment` is the context that the statement's text
carries, if comments are parsed at all. -/
def otelTryApplySqlcommenterContext (root : OtelRootContext) (comment : Option OtelSpanContext) :
    OtelRootContext :=
  if root.isSet then root
  else comment.elim root fun ctx => { ctx := ctx, isSet := true, fromComment := true }

/-- `maybe_apply_sqlcommenter`. -/
def maybeApplySqlcommenter (root : OtelRootContext) (comment : Option OtelSpanContext) :
    OtelRootContext :=
  if root.isSet then root else otelTryApplySqlcommenterContext root comment

/-- `maybe_reset_comment_context`. -/
def maybeResetCommentContext (root : OtelRootContext) : OtelRootContext :=
  if root.fromComment then {} else root

/-- What `finalize_stmt_span` does to the root context. -/
def finalizeRoot (root : OtelRootContext) (ref : OtelSpanRef) : OtelRootContext :=
  if ref.v = 0 then root else maybeResetCommentContext root

/-- The root context, and the statement whose comment installed it last. -/
structure CommentSt where
  root : OtelRootContext := {}
  installer : Option Ptr := none
  deriving DecidableEq

/-- A step of the backend, with the context in the comment of the statement it starts, or the root
context changes otherwise: through a trace header, a `SET` or the end of a request. -/
inductive CommentAct
  | hook (a : TracingAct) (comment : Option OtelSpanContext)
  | assign (root : OtelRootContext)

def CommentAct.hook? : CommentAct → Option TracingAct
  | .hook a _ => some a
  | .assign _ => none

/-- Other sources than comments do not mark the context as one from a comment. -/
def CommentAct.Assigns (_ : TracingSt × CommentSt) : CommentAct → Prop
  | .hook _ _ => True
  | .assign root => root.fromComment = false

/-- The statement that starts in a step. -/
def TracingSt.starts (s : TracingSt) : TracingAct → Option Ptr
  | .executorStart addr _ _ => some (s.newPtr addr)
  | .utilityBegin addr true _ => some (s.newPtr addr)
  | _ => none

/-- The statement that ends normally in a step. -/
def TracingSt.completes (s : TracingSt) : TracingAct → Option Ptr
  | .executorEnd query _ => some query
  | .utilityEnd => s.frames.head?.bind CallFrame.token
  | _ => none

/-- What the statement's end pops. -/
def TracingSt.popped (s : TracingSt) (a : TracingAct) : OtelSpanRef :=
  (s.completes a).elim otelSpanNone fun p => (s.trace.popStmtSpan p).2

/-- What the hooks do to the root context in a step. -/
def CommentSt.hook (s : TracingSt) (c : CommentSt) (a : TracingAct)
    (comment : Option OtelSpanContext) : CommentSt :=
  match s.starts a with
  | some p =>
    { root := maybeApplySqlcommenter c.root comment
      installer := if c.root.isSet then c.installer else some p }
  | none => { c with root := finalizeRoot c.root (s.popped a) }

def CommentAct.update (s : TracingSt × CommentSt) : CommentAct → CommentSt
  | .hook a comment => s.2.hook s.1 a comment
  | .assign root => { s.2 with root := root }

/-- The backend with its root context. -/
def comments : Machine (TracingSt × CommentSt) CommentAct :=
  tracing.extend {} CommentAct.hook? CommentAct.Assigns CommentAct.update

/-! ## The ends of statements -/

/-- A context from a comment is in force only while its statement is running. -/
def InStatement (s : TracingSt × CommentSt) : Prop :=
  s.2.root.fromComment = true → ∃ p ∈ s.2.installer, p ∈ s.1.livePtrs

/-- The statement is over after the step, finished or failed. -/
def TracingSt.Finishes (s : TracingSt) (a : TracingAct) (p : Ptr) : Prop :=
  match a with
  | .abort unwound dead => (∃ q ∈ s.queries, q.ptr = p ∧ s.dies dead q = true) ∨
      ∃ f ∈ s.frames.take unwound, f.token = some p
  | .errorWhenAborted unwound => ∃ f ∈ s.frames.take unwound, f.token = some p
  | a => s.completes a = some p

/-- If the statement whose comment is in force is over after the step, it ends normally and has an
entry on the statement stack. -/
def EndsComment (s : TracingSt × CommentSt) : CommentAct → Prop
  | .hook a _ => s.2.root.fromComment = true → ∀ p ∈ s.2.installer, s.1.Finishes a p →
      s.1.completes a = some p ∧ (s.1.trace.popStmtSpan p).2.v ≠ 0
  | .assign _ => True

/-- The traced calls further out are others than those that are unwound. -/
theorem CoreOk.mem_drop_tokens {s : TracingSt} (h : CoreOk s) (unwound : ℕ) (p : Ptr) :
    p ∈ (s.frames.drop unwound).filterMap CallFrame.token ↔
      p ∈ s.frames.filterMap CallFrame.token ∧
        ¬ ∃ f ∈ s.frames.take unwound, f.token = some p := by
  have hnd : (s.frames.filterMap CallFrame.token).Nodup :=
    (List.nodup_append.1 (List.Nodup.of_map _ h.distinct)).2.1
  have hsplit : s.frames.filterMap CallFrame.token =
      (s.frames.take unwound).filterMap CallFrame.token ++
        (s.frames.drop unwound).filterMap CallFrame.token := by
    rw [← List.filterMap_append, List.take_append_drop]
  rw [hsplit] at hnd ⊢
  rw [← List.mem_filterMap]
  constructor
  · exact fun hp => ⟨List.mem_append_right _ hp, fun hq => (List.nodup_append.1 hnd).2.2 p hq p hp rfl⟩
  · exact fun hp => (List.mem_append.1 hp.1).resolve_left hp.2

/-- A traced call is no query. -/
theorem CoreOk.token_not_query {s : TracingSt} (h : CoreOk s) {p : Ptr}
    (hp : p ∈ s.frames.filterMap CallFrame.token) {q : Query} (hq : q ∈ s.queries) : q.ptr ≠ p := by
  obtain ⟨f, hf, ht⟩ := List.mem_filterMap.1 hp
  exact fun heq => h.token_addr_ne hq hf ht (congrArg Ptr.addr heq)

/-- The queries that go on are others than those that end. -/
theorem CoreOk.mem_filter_ptrs {s : TracingSt} (h : CoreOk s) (keep : Query → Bool) (p : Ptr) :
    p ∈ (s.queries.filter keep).map Query.ptr ↔
      p ∈ s.queries.map Query.ptr ∧ ¬ ∃ q ∈ s.queries, q.ptr = p ∧ keep q = false := by
  constructor
  · intro hp
    obtain ⟨q, hq, rfl⟩ := List.mem_map.1 hp
    obtain ⟨hq, hkeep⟩ := List.mem_filter.1 hq
    refine ⟨List.mem_map_of_mem hq, ?_⟩
    rintro ⟨q', hq', heq, hnot⟩
    rw [h.query_unique hq' hq heq, hkeep] at hnot
    cases hnot
  · rintro ⟨hp, hnot⟩
    obtain ⟨q, hq, rfl⟩ := List.mem_map.1 hp
    refine List.mem_map_of_mem (List.mem_filter.2 ⟨hq, ?_⟩)
    by_contra hkeep
    exact hnot ⟨q, hq, rfl, Bool.of_not_eq_true hkeep⟩

/-- What goes on after some calls are unwound. -/
theorem mem_livePtrs_unwound {s : TracingSt} (h : CoreOk s) {unwound : ℕ} {p : Ptr}
    (hp : p ∈ s.livePtrs) : p ∈ s.queries.map Query.ptr ++
      (s.frames.drop unwound).filterMap CallFrame.token ↔
        ¬ ∃ f ∈ s.frames.take unwound, f.token = some p := by
  rw [List.mem_append, h.mem_drop_tokens]
  rcases List.mem_append.1 hp with hp | hp
  · refine iff_of_true (.inl hp) ?_
    rintro ⟨f, hf, ht⟩
    obtain ⟨q, hq, rfl⟩ := List.mem_map.1 hp
    exact h.token_addr_ne hq (List.take_subset _ _ hf) ht rfl
  · have hno : p ∉ s.queries.map Query.ptr := by
      intro hq
      obtain ⟨q, hq, heq⟩ := List.mem_map.1 hq
      exact h.token_not_query hp hq heq
    exact ⟨fun hmem => (hmem.resolve_left hno).2, fun hnot => .inr ⟨hp, hnot⟩⟩

/-- A statement that is running goes on unless the step ends it. -/
theorem mem_livePtrs_next {s : TracingSt} (h : CoreOk s) {a : TracingAct} (hen : a.Enabled s)
    {p : Ptr} (hp : p ∈ s.livePtrs) : p ∈ (s.next a).livePtrs ↔ ¬ s.Finishes a p := by
  have hstays {a : TracingAct} (hcomp : s.completes a = none) (hsub : s.livePtrs ⊆ (s.next a).livePtrs)
      (hfin : s.Finishes a p ↔ s.completes a = some p) :
      p ∈ (s.next a).livePtrs ↔ ¬ s.Finishes a p := by
    rw [hfin, hcomp]
    exact iff_of_true (hsub hp) (Option.some_ne_none p ∘ Eq.symm)
  cases a with
  | begin => exact hstays rfl (List.Subset.refl _) Iff.rfl
  | savepoint => exact hstays rfl (List.Subset.refl _) Iff.rfl
  | release =>
    refine hstays rfl ?_ Iff.rfl
    obtain ⟨top, parent, rest, hlevels, -⟩ := hen
    simp only [next, hlevels]
    exact List.Subset.refl _
  | commit prepare => exact hstays rfl (List.Subset.refl _) Iff.rfl
  | cleanup => exact hstays rfl (List.Subset.refl _) Iff.rfl
  | executorStart addr isCursor ref => exact hstays rfl (List.subset_cons_self _ _) Iff.rfl
  | nodeBegin query addr tag planspans fdw =>
    refine hstays rfl (fun x hx => ?_) Iff.rfl
    rwa [livePtrs_nodeBegin]
  | nodeEnd query node =>
    refine hstays rfl (fun x hx => ?_) Iff.rfl
    rwa [livePtrs_nodeEnd]
  | runBegin query => exact hstays rfl (List.Subset.refl _) Iff.rfl
  | runEnd =>
    refine hstays rfl ?_ Iff.rfl
    obtain ⟨query, sub, rest, hframes⟩ := hen
    simp only [livePtrs, next, hframes]
    exact List.Subset.refl _
  | utilityBegin addr toplevel ref =>
    refine hstays rfl ?_ Iff.rfl
    cases toplevel with
    | true => exact fun x hx => List.perm_middle.mem_iff.2 (List.mem_cons_of_mem _ hx)
    | false => exact List.Subset.refl _
  | executorEnd query planspans =>
    have hlive : (s.next (.executorEnd query planspans)).livePtrs =
        (s.queries.filter fun q => q.ptr ≠ query).map Query.ptr ++
          s.frames.filterMap CallFrame.token := rfl
    have hfin : s.Finishes (.executorEnd query planspans) p ↔ query = p := Option.some_inj
    rw [hlive, hfin, List.mem_append, h.mem_filter_ptrs]
    rcases List.mem_append.1 hp with hp | hp
    · obtain ⟨q, hq, rfl⟩ := List.mem_map.1 hp
      by_cases heq : query = q.ptr
      · refine iff_of_false ?_ (not_not.2 heq)
        rintro (⟨-, hnot⟩ | htoken)
        · exact hnot ⟨q, hq, rfl, by simp [heq]⟩
        · exact h.token_not_query htoken hq rfl
      · refine iff_of_true (.inl ⟨hp, ?_⟩) heq
        rintro ⟨q', -, hptr, hnot⟩
        exact heq ((by simpa using hnot : q'.ptr = query).symm.trans hptr)
    · refine iff_of_true (.inr hp) fun heq => ?_
      obtain ⟨-, ⟨q, hq, hptr⟩, -⟩ := hen
      exact h.token_not_query hp hq (hptr.trans heq)
  | abort unwound dead =>
    obtain ⟨⟨top, rest, hlevels, -⟩, -⟩ := hen
    have hlive : (s.next (.abort unwound dead)).livePtrs =
        (s.queries.filter fun q => !s.dies dead q).map Query.ptr ++
          (s.frames.drop unwound).filterMap CallFrame.token := by
      simp only [livePtrs, next, hlevels]
    have hfin : s.Finishes (.abort unwound dead) p ↔
        (∃ q ∈ s.queries, q.ptr = p ∧ s.dies dead q = true) ∨
          ∃ f ∈ s.frames.take unwound, f.token = some p := Iff.rfl
    rw [hlive, hfin, List.mem_append, h.mem_filter_ptrs, h.mem_drop_tokens, not_or]
    simp only [Bool.not_eq_false']
    rcases List.mem_append.1 hp with hp | hp
    · obtain ⟨q, hq, rfl⟩ := List.mem_map.1 hp
      have hno : ¬ q.ptr ∈ s.frames.filterMap CallFrame.token :=
        fun ht => h.token_not_query ht hq rfl
      have hnone : ¬ ∃ f ∈ s.frames.take unwound, f.token = some q.ptr := by
        rintro ⟨f, hf, ht⟩
        exact hno (List.mem_filterMap.2 ⟨f, List.take_subset _ _ hf, ht⟩)
      simp only [hp, hno, hnone, true_and, or_false, not_false_eq_true, and_true]
    · have hno : p ∉ s.queries.map Query.ptr := by
        intro hq
        obtain ⟨q, hq, heq⟩ := List.mem_map.1 hq
        exact h.token_not_query hp hq heq
      have hnone : ¬ ∃ q ∈ s.queries, q.ptr = p ∧ s.dies dead q = true := by
        rintro ⟨q, hq, rfl, -⟩
        exact hno (List.mem_map_of_mem hq)
      simp only [hp, hno, hnone, true_and, false_and, false_or, not_false_eq_true]
  | utilityEnd =>
    obtain ⟨token, toplevel, sub, rest, hframes⟩ := hen
    have hlive : (s.next .utilityEnd).livePtrs = s.queries.map Query.ptr ++
        (s.frames.drop 1).filterMap CallFrame.token := by
      simp only [livePtrs, next, hframes, List.drop_succ_cons, List.drop_zero]
    have hfin : s.Finishes .utilityEnd p ↔ ∃ f ∈ s.frames.take 1, f.token = some p := by
      simp [TracingSt.Finishes, TracingSt.completes, hframes]
    rw [hlive, hfin]
    exact mem_livePtrs_unwound h hp
  | errorWhenAborted unwound => exact mem_livePtrs_unwound h hp

/-! ## Contexts end with their statement -/

/-- A statement that starts is running. -/
theorem starts_live {s : TracingSt} {a : TracingAct} {p : Ptr} (h : s.starts a = some p) :
    p ∈ (s.next a).livePtrs ∧ ∀ p', ¬ s.Finishes a p' := by
  cases a with
  | executorStart addr isCursor ref =>
    obtain rfl := Option.some.inj h
    exact ⟨List.mem_cons_self, fun p' hp' => absurd hp' (Option.some_ne_none p' ∘ Eq.symm)⟩
  | utilityBegin addr toplevel ref =>
    cases toplevel with
    | true =>
      obtain rfl := Option.some.inj h
      exact ⟨List.perm_middle.mem_iff.2 List.mem_cons_self,
        fun p' hp' => absurd hp' (Option.some_ne_none p' ∘ Eq.symm)⟩
    | false => cases h
  | _ => cases h

/-- Where a step pops something, it is the statement that completes, and only that one is over. -/
theorem finishes_of_popped {s : TracingSt} {a : TracingAct} (h : (s.popped a).v ≠ 0) {p : Ptr}
    (hfin : s.Finishes a p) : s.completes a = some p ∧ (s.trace.popStmtSpan p).2.v ≠ 0 := by
  have hcomp : s.completes a = some p := by
    cases a with
    | abort unwound dead => exact absurd rfl h
    | errorWhenAborted unwound => exact absurd rfl h
    | _ => exact hfin
  refine ⟨hcomp, ?_⟩
  rwa [popped, hcomp] at h

theorem popped_of_completes {s : TracingSt} {a : TracingAct} {p : Ptr}
    (h : s.completes a = some p) : s.popped a = (s.trace.popStmtSpan p).2 := by
  rw [popped, h]
  rfl

/-- In every state in which no context from a comment has outlived its statement, the next step
leaves none behind if and only if it ends the statement of the context normally, and with an entry
on the statement stack, or not at all. -/
theorem inStatement_next_iff {s : TracingSt × CommentSt} (h : CoreOk s.1) (hin : InStatement s)
    {a : CommentAct} (hen : comments.enabled s a) :
    InStatement (comments.next s a) ↔ EndsComment s a := by
  cases a with
  | assign root =>
    refine iff_of_true (fun hset => ?_) trivial
    have hroot : root.fromComment = true := hset
    rw [show root.fromComment = false from hen.2] at hroot
    cases hroot
  | hook a comment =>
    have hen : a.Enabled s.1 := hen.1 a rfl
    have hnext : comments.next s (.hook a comment) = (s.1.next a, s.2.hook s.1 a comment) := rfl
    rw [hnext]
    cases hstart : s.1.starts a with
    | some p =>
      obtain ⟨hlive, hnone⟩ := starts_live hstart
      refine iff_of_true ?_ fun _ p' _ hfin => absurd hfin (hnone p')
      have hhook : s.2.hook s.1 a comment =
          { root := maybeApplySqlcommenter s.2.root comment
            installer := if s.2.root.isSet then s.2.installer else some p } := by
        simp only [CommentSt.hook, hstart]
      rw [hhook]
      intro hset
      cases hroot : s.2.root.isSet with
      | false => exact ⟨p, by simp, hlive⟩
      | true =>
        have hsame : maybeApplySqlcommenter s.2.root comment = s.2.root := by
          rw [maybeApplySqlcommenter, if_pos hroot]
        obtain ⟨p', hp', hlive'⟩ := hin (hsame ▸ hset)
        exact ⟨p', by simpa using hp', (mem_livePtrs_next h hen hlive').2 (hnone p')⟩
    | none =>
      have hhook : s.2.hook s.1 a comment =
          { s.2 with root := finalizeRoot s.2.root (s.1.popped a) } := by
        simp only [CommentSt.hook, hstart]
      rw [hhook]
      cases hset : s.2.root.fromComment with
      | false =>
        have hkeep : (finalizeRoot s.2.root (s.1.popped a)).fromComment = false := by
          unfold finalizeRoot maybeResetCommentContext
          split_ifs <;> first | exact hset | rfl
        refine iff_of_true (fun hc => ?_) fun hc => ?_
        · exact absurd (hkeep.symm.trans hc) Bool.false_ne_true
        · exact absurd (hset.symm.trans hc) Bool.false_ne_true
      | true =>
        obtain ⟨p, hp, hlive⟩ := hin hset
        by_cases hpop : (s.1.popped a).v = 0
        · have hsame : finalizeRoot s.2.root (s.1.popped a) = s.2.root := if_pos hpop
          have hgoes := mem_livePtrs_next h hen hlive
          rw [hsame]
          constructor
          · intro hscope _ p' hp' hfin
            obtain ⟨p'', hp'', hlive''⟩ := hscope hset
            obtain rfl := Option.mem_unique hp hp''
            obtain rfl := Option.mem_unique hp hp'
            exact absurd hfin (hgoes.1 hlive'')
          · intro hends _
            refine ⟨p, hp, hgoes.2 fun hfin => ?_⟩
            obtain ⟨hcomp, hfound⟩ := hends hset p hp hfin
            rw [popped_of_completes hcomp] at hpop
            exact hfound hpop
        · refine iff_of_true (fun hc => ?_) fun _ p' _ hfin => finishes_of_popped hpop hfin
          have hreset : finalizeRoot s.2.root (s.1.popped a) = {} := by
            rw [finalizeRoot, if_neg hpop, maybeResetCommentContext, if_pos hset]
          rw [hreset] at hc
          cases hc

theorem coreOk_of_comments {s : TracingSt × CommentSt} {ok : TracingSt × CommentSt → CommentAct → Prop}
    (h : comments.ReachBy ok s) : CoreOk s.1 :=
  (h.base (k := fun _ _ => True) fun _ _ _ _ _ => trivial).invariant CoreOk.init
    fun _ _ hi he _ => hi.step he

/-- In runs in which the statement whose comment is in force always ends normally, with an entry on
the statement stack, the root context never is one from the comment of a statement that is over. -/
theorem comment_context_ends_with_statement {s : TracingSt × CommentSt}
    (h : comments.ReachBy EndsComment s) : InStatement s := by
  have hboth : CoreOk s.1 ∧ InStatement s := by
    induction h with
    | init => exact ⟨.init, fun hset => by cases hset⟩
    | @step s a hs hen hok ih =>
      exact ⟨coreOk_of_comments (hs.step a hen hok), (inStatement_next_iff ih.1 ih.2 hen).2 hok⟩
  exact hboth.2

/-- The context of a comment. -/
def commentCtx : OtelSpanContext := { traceId := 1, spanId := 1, traceFlags := otelTraceFlagSampled }

/-- A query whose text has a comment is running. -/
def commentRunning : TracingSt × CommentSt :=
  [CommentAct.hook .begin none, .hook (.executorStart 1 false ⟨1⟩) (some commentCtx)].foldl
    comments.next ({}, {})

theorem enabled_comments {s : TracingSt × CommentSt} {a : TracingAct}
    {comment : Option OtelSpanContext} (h : a.Enabled s.1) :
    comments.enabled s (.hook a comment) :=
  ⟨fun _ hb => by cases hb; exact h, trivial⟩

theorem reachBy_commentRunning : comments.ReachBy EndsComment commentRunning :=
  Machine.ReachBy.run (m := comments) .init
    ⟨enabled_comments rfl, fun hset => absurd hset Bool.false_ne_true,
      enabled_comments ⟨⟨_, _, rfl, rfl⟩, by decide⟩,
      fun hset => absurd hset Bool.false_ne_true, trivial⟩

theorem comment_context_ends_with_statement_commentRunning :
    InStatement commentRunning ∧ commentRunning.2.root = ⟨true, true, commentCtx⟩ ∧
      (comments.next commentRunning (.hook (.executorEnd ⟨1, 0⟩ true) none)).2.root = {} :=
  ⟨comment_context_ends_with_statement reachBy_commentRunning, by decide, by decide⟩

/-- The query fails, and a statement without a comment starts in the next transaction. -/
def commentLeaked : TracingSt × CommentSt :=
  [CommentAct.hook (.abort 0 []) none, .hook .cleanup none, .hook .begin none,
    .hook (.executorStart 2 false ⟨2⟩) none].foldl comments.next commentRunning

/-- A statement that fails leaves the context of its comment to the next one. -/
theorem failed_statement_leaks_context :
    comments.Reachable commentLeaked ∧ commentLeaked.2.root = ⟨true, true, commentCtx⟩ ∧
      commentLeaked.2.installer = some ⟨1, 0⟩ ∧ commentLeaked.1.livePtrs = [⟨2, 1⟩] ∧
      ¬ InStatement commentLeaked := by
  refine ⟨Machine.ReachBy.run (m := comments) reachBy_commentRunning.reachable ?_, by decide,
    by decide, by decide, fun h => ?_⟩
  · exact ⟨enabled_comments ⟨⟨_, _, rfl, rfl⟩, fun _ => rfl, fun _ h => absurd h List.not_mem_nil,
      fun _ h => absurd h List.not_mem_nil⟩, trivial,
      enabled_comments ⟨_, _, rfl, rfl⟩, trivial, enabled_comments rfl, trivial,
      enabled_comments ⟨⟨_, _, rfl, rfl⟩, by decide⟩, trivial, trivial⟩
  · obtain ⟨p, hp, hlive⟩ := h (by decide)
    obtain rfl : (⟨1, 0⟩ : Ptr) = p := Option.some.inj hp
    exact absurd hlive (by decide)

end PostgresOtel
