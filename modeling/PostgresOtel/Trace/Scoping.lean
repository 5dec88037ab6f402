import PostgresOtel.Trace.Objects

/-!
# What the abort of a subtransaction drops

The callbacks drop the entries stamped with the aborting nest level or a deeper one.  That a
subtransaction had this level says nothing about where its work is now: once it is released, its work
belongs to the enclosing one while its entries keep their stamp.  The stamps are right as long as no
such entry is left when a sibling is aborted.
-/

set_option autoImplicit false

namespace PostgresOtel

open KeyedStack TracingSt TraceSt

/-! ## Stamps -/

namespace TraceSt

variable {t t' : TraceSt} {nest : NestLevel}

/-- The stamps of all entries. -/
def stamps (t : TraceSt) : List NestLevel :=
  t.stmtStack.map StmtSpanEntry.subxactLevel ++ t.planspansStack.map NodeSpanEntry.subxactLevel ++
    t.sortwrapStack.map SortwrapEntry.subxactLevel ++ t.fdwScanStack.map NodeSpanEntry.subxactLevel

/-- An entry with the stamp leaves a stack. -/
def Drops (t t' : TraceSt) (n : NestLevel) : Prop :=
  (∃ e ∈ t.stmtStack, e ∉ t'.stmtStack ∧ e.subxactLevel = n) ∨
  (∃ e ∈ t.planspansStack, e ∉ t'.planspansStack ∧ e.subxactLevel = n) ∨
  (∃ e ∈ t.sortwrapStack, e ∉ t'.sortwrapStack ∧ e.subxactLevel = n) ∨
  (∃ e ∈ t.fdwScanStack, e ∉ t'.fdwScanStack ∧ e.subxactLevel = n)

/-- No stamps come in. -/
def Shrinks (t t' : TraceSt) : Prop := t'.stamps ⊆ t.stamps

/-- No stamps come in but the current one. -/
def Grows (t t' : TraceSt) (nest : NestLevel) : Prop := ∀ n ∈ t'.stamps, n ∈ t.stamps ∨ n = nest

theorem Shrinks.refl : Shrinks t t := fun _ h => h

theorem Shrinks.trans {t'' : TraceSt} (h : Shrinks t t') (h' : Shrinks t' t'') : Shrinks t t'' :=
  fun _ hn => h (h' hn)

theorem Shrinks.grows (h : Shrinks t t') : Grows t t' nest := fun _ hn => .inl (h hn)

/-- Entries may go. -/
theorem Shrinks.of_sublist (h₁ : t'.stmtStack.Sublist t.stmtStack)
    (h₂ : t'.planspansStack.Sublist t.planspansStack)
    (h₃ : t'.sortwrapStack.Sublist t.sortwrapStack)
    (h₄ : t'.fdwScanStack.Sublist t.fdwScanStack) : Shrinks t t' :=
  ((((h₁.map _).append (h₂.map _)).append (h₃.map _)).append (h₄.map _)).subset

theorem grows_pushStmtSpan (key : Ptr) (ref : OtelSpanRef) (detached : Bool) :
    Grows t (t.pushStmtSpan key ref detached nest).1 nest := by
  unfold pushStmtSpan
  split_ifs
  · exact Shrinks.refl.grows
  · exact Shrinks.refl.grows
  · exact List.forall_mem_cons.2 ⟨.inr rfl, fun n hn => .inl hn⟩

theorem grows_planspansNodeBegin (node : Ptr) (tag : PlanNodeTag) (ref : OtelSpanRef) :
    Grows t (t.planspansNodeBegin node tag ref nest) nest := by
  unfold planspansNodeBegin
  split_ifs
  · intro n hn
    simp only [stamps, List.map_cons, List.mem_append, List.mem_cons] at hn ⊢
    grind
  · exact Shrinks.refl.grows
  · exact Shrinks.refl.grows
  · intro n hn
    simp only [stamps, List.map_cons, List.mem_append, List.mem_cons] at hn ⊢
    grind

theorem grows_otelFdwScanBegin (node : Ptr) (ref : OtelSpanRef) :
    Grows t (t.otelFdwScanBegin node ref nest) nest := by
  unfold otelFdwScanBegin
  split_ifs
  · exact Shrinks.refl.grows
  · exact Shrinks.refl.grows
  · intro n hn
    simp only [stamps, List.map_cons, List.mem_append, List.mem_cons] at hn ⊢
    grind

theorem grows_nodeBegin (planspans fdw : Option OtelSpanRef) (n : PlanNode) :
    Grows t (t.nodeBegin planspans fdw n nest) nest := by
  have hbegun : Grows t (planspans.elim t fun ref => t.planspansNodeBegin n.ptr n.tag ref nest)
      nest := by
    cases planspans with
    | none => exact Shrinks.refl.grows
    | some ref => exact grows_planspansNodeBegin n.ptr n.tag ref
  by_cases hscan : n.tag = .foreignScanState
  · simp only [nodeBegin, if_pos hscan]
    cases fdw with
    | none => exact hbegun
    | some ref =>
      intro m hm
      rcases grows_otelFdwScanBegin n.ptr ref m hm with hm | rfl
      · exact hbegun m hm
      · exact .inr rfl
  · simp only [nodeBegin, if_neg hscan]
    exact hbegun

theorem shrinks_popStmtSpan (key : Ptr) : Shrinks t (t.popStmtSpan key).1 :=
  .of_sublist (remove_sublist key) (List.Sublist.refl _) (List.Sublist.refl _) (List.Sublist.refl _)

theorem shrinks_catchError (f : CallFrame) : Shrinks t (t.catchError f) := by
  unfold catchError
  cases f.token with
  | none => exact .refl
  | some token => exact shrinks_popStmtSpan token

theorem shrinks_caught (frames : List CallFrame) : Shrinks t (frames.foldl catchError t) := by
  induction frames generalizing t with
  | nil => exact .refl
  | cons f fs ih => exact (shrinks_catchError f).trans ih

theorem shrinks_otelFdwScanEnd (node : Ptr) : Shrinks t (t.otelFdwScanEnd node) :=
  .of_sublist (List.Sublist.refl _) (List.Sublist.refl _) (List.Sublist.refl _) (remove_sublist _)

theorem shrinks_nodeEnd (planspans : Bool) (n : PlanNode) : Shrinks t (t.nodeEnd planspans n) := by
  have hend : Shrinks t (t.planspansNodeEnd n.ptr n.tag) := by
    unfold planspansNodeEnd
    split_ifs
    · exact .of_sublist (List.Sublist.refl _) (List.Sublist.refl _) (remove_sublist _)
        (List.Sublist.refl _)
    · exact .refl
    · exact .of_sublist (List.Sublist.refl _) (remove_sublist _) (List.Sublist.refl _)
        (List.Sublist.refl _)
  have hended : Shrinks t (if planspans then t.planspansNodeEnd n.ptr n.tag else t) := by
    split_ifs
    · exact hend
    · exact .refl
  by_cases hscan : n.tag = .foreignScanState
  · simp only [nodeEnd, if_pos hscan]
    exact hended.trans (shrinks_otelFdwScanEnd _)
  · simp only [nodeEnd, if_neg hscan]
    exact hended

theorem shrinks_nodeEnds (planspans : Bool) (nodes : List PlanNode) :
    Shrinks t (nodes.foldl (TraceSt.nodeEnd planspans) t) := by
  induction nodes generalizing t with
  | nil => exact .refl
  | cons n ns ih => exact (shrinks_nodeEnd planspans n).trans ih

theorem shrinks_subxactAbort (level : ℕ) :
    Shrinks t (t.otelPgtracingSubxactCallback .abortSub level) :=
  .of_sublist List.filter_sublist List.filter_sublist List.filter_sublist List.filter_sublist

theorem shrinks_xactCallback (event : XactEvent) :
    Shrinks t (t.otelPgtracingXactCallback event) := by
  cases event with
  | abort => exact fun n hn => absurd hn List.not_mem_nil
  | parallelAbort => exact fun n hn => absurd hn List.not_mem_nil
  | commit => exact .refl
  | parallelCommit => exact .refl
  | prepare => exact .refl
  | preCommit => exact .refl
  | parallelPreCommit => exact .refl
  | prePrepare => exact .refl

theorem drops_stack {α : Type} (f : α → NestLevel) (level : ℕ) (l : List α) (n : NestLevel) :
    (∃ e ∈ l, e ∉ dropFromLevel f level l ∧ f e = n) ↔ n ∈ l.map f ∧ level ≤ n.level := by
  constructor
  · rintro ⟨e, he, hnot, rfl⟩
    refine ⟨List.mem_map_of_mem he, Nat.le_of_not_lt fun hlt => hnot ?_⟩
    exact List.mem_filter.2 ⟨he, decide_eq_true hlt⟩
  · rintro ⟨hm, hle⟩
    obtain ⟨e, he, rfl⟩ := List.mem_map.1 hm
    refine ⟨e, he, fun hin => ?_, rfl⟩
    have := of_decide_eq_true (List.mem_filter.1 hin).2
    omega

/-- The callbacks drop what is stamped with the level or a deeper one, whichever stack it is on. -/
theorem drops_subxactAbort (t : TraceSt) (level : ℕ) (n : NestLevel) :
    t.Drops (t.otelPgtracingSubxactCallback .abortSub level) n ↔ n ∈ t.stamps ∧ level ≤ n.level := by
  rw [otelPgtracingSubxactCallback_abortSub, Drops, drops_stack, drops_stack, drops_stack,
    drops_stack, ← or_and_right, ← or_and_right, ← or_and_right, stamps]
  simp only [List.mem_append, or_assoc]

end TraceSt

/-- A step brings in no stamps, or is one that stays on its level and brings in that level's. -/
theorem stamps_step {s : TracingSt} {a : TracingAct} (hen : a.Enabled s) :
    Shrinks s.trace (s.next a).trace ∨
      ((s.next a).levels = s.levels ∧ (s.next a).nextSub = s.nextSub ∧ s.levels ≠ [] ∧
        Grows s.trace (s.next a).trace s.currentLevel) := by
  have hne (h : s.InProgress) : s.levels ≠ [] := by
    obtain ⟨top, rest, hlevels, -⟩ := h
    rw [hlevels]
    exact List.cons_ne_nil _ _
  cases a with
  | begin => exact .inl .refl
  | savepoint => exact .inl .refl
  | release =>
    obtain ⟨top, parent, rest, hlevels, -⟩ := hen
    simp only [next, hlevels]
    rw [otelPgtracingSubxactCallback_other _ (by decide)]
    exact .inl .refl
  | commit prepare => exact .inl (shrinks_xactCallback _)
  | abort unwound dead =>
    obtain ⟨⟨top, rest, hlevels, -⟩, -⟩ := hen
    simp only [next, hlevels]
    refine .inl ((shrinks_caught (s.frames.take unwound)).trans ?_)
    split_ifs
    · exact shrinks_xactCallback _
    · exact shrinks_subxactAbort _
  | cleanup => exact .inl .refl
  | executorStart addr isCursor ref =>
    exact .inr ⟨rfl, rfl, hne hen.1, grows_pushStmtSpan _ ref isCursor⟩
  | nodeBegin query addr tag planspans fdw =>
    exact .inr ⟨rfl, rfl, hne hen.1, grows_nodeBegin planspans fdw _⟩
  | nodeEnd query node => exact .inl (shrinks_otelFdwScanEnd _)
  | executorEnd query planspans =>
    exact .inl ((shrinks_popStmtSpan query).trans (shrinks_nodeEnds planspans _))
  | runBegin query => exact .inl .refl
  | runEnd => exact .inl .refl
  | utilityBegin addr toplevel ref =>
    cases toplevel with
    | true => exact .inr ⟨rfl, rfl, hen.1, grows_pushStmtSpan _ ref false⟩
    | false => exact .inl .refl
  | utilityEnd =>
    obtain ⟨token, toplevel, sub, rest, hframes⟩ := hen
    simp only [next, hframes]
    exact .inl (shrinks_catchError _)
  | errorWhenAborted unwound => exact .inl (shrinks_caught _)

/-! ## Stamps of open subtransactions -/

/-- If the subtransaction it was read in is still open, the stamp is its level. -/
def ExactAt (levels : List Subxact) (n : NestLevel) : Prop :=
  ∀ x post, (x :: post) <:+ levels → n.sub = x.id → n.level = post.length + 1

structure Stamped (s : TracingSt) : Prop where
  core : CoreOk s
  sub_old : ∀ n ∈ s.trace.stamps, n.sub < s.nextSub
  exact : ∀ n ∈ s.trace.stamps, ExactAt s.levels n

/-- A level on top of those there were, or without it, or the top changed but for its number. -/
theorem ExactAt.cons {n : NestLevel} {x : Subxact} {levels : List Subxact}
    (h : ExactAt levels n) (hx : n.sub = x.id → n.level = levels.length + 1) :
    ExactAt (x :: levels) n := by
  intro y post hsuffix hid
  rcases List.suffix_cons_iff.1 hsuffix with heq | hsuffix
  · obtain ⟨rfl, rfl⟩ := List.cons.inj heq
    exact hx hid
  · exact h y post hsuffix hid

theorem ExactAt.of_cons {n : NestLevel} {x : Subxact} {levels : List Subxact}
    (h : ExactAt (x :: levels) n) : ExactAt levels n :=
  fun y post hsuffix => h y post (hsuffix.trans (List.suffix_cons x levels))

theorem exactAt_nil (n : NestLevel) : ExactAt [] n :=
  fun _ _ hsuffix => absurd (List.suffix_nil.1 hsuffix) (List.cons_ne_nil _ _)

/-- Old stamps stay right as levels come and go. -/
theorem exactAt_step {s : TracingSt} {a : TracingAct} (hen : a.Enabled s) {n : NestLevel}
    (hold : n.sub < s.nextSub) (h : ExactAt s.levels n) :
    n.sub < (s.next a).nextSub ∧ ExactAt (s.next a).levels n := by
  have hfresh {x : Subxact} (hx : x.id = s.nextSub) : n.sub = x.id → n.level = s.levels.length + 1 :=
    fun hid => absurd hold (by rw [hid, hx]; exact Nat.lt_irrefl _)
  cases a with
  | begin =>
    have hlevels : s.levels = [] := hen
    refine ⟨Nat.lt_succ_of_lt hold, ?_⟩
    change ExactAt [_] n
    refine (exactAt_nil n).cons fun hid => ?_
    exact absurd hold (by rw [hid]; exact Nat.lt_irrefl _)
  | savepoint => exact ⟨Nat.lt_succ_of_lt hold, h.cons (hfresh rfl)⟩
  | release =>
    obtain ⟨top, parent, rest, hlevels, -⟩ := hen
    rw [hlevels] at h
    simp only [next, hlevels]
    refine ⟨hold, h.of_cons.of_cons.cons fun hid => ?_⟩
    exact h.of_cons parent rest (List.suffix_refl _) hid
  | commit prepare => exact ⟨hold, exactAt_nil n⟩
  | abort unwound dead =>
    obtain ⟨⟨top, rest, hlevels, -⟩, -⟩ := hen
    rw [hlevels] at h
    simp only [next, hlevels]
    exact ⟨hold, h.of_cons.cons fun hid => h top rest (List.suffix_refl _) hid⟩
  | cleanup =>
    obtain ⟨top, rest, hlevels, -⟩ := hen
    rw [hlevels] at h
    simp only [next, hlevels]
    exact ⟨hold, h.of_cons⟩
  | executorStart addr isCursor ref => exact ⟨hold, h⟩
  | nodeBegin query addr tag planspans fdw => exact ⟨hold, h⟩
  | nodeEnd query node => exact ⟨hold, h⟩
  | executorEnd query planspans => exact ⟨hold, h⟩
  | runBegin query => exact ⟨hold, h⟩
  | runEnd => exact ⟨hold, h⟩
  | utilityBegin addr toplevel ref => exact ⟨hold, h⟩
  | utilityEnd =>
    obtain ⟨token, toplevel, sub, rest, hframes⟩ := hen
    simp only [next, hframes]
    exact ⟨hold, h⟩
  | errorWhenAborted unwound => exact ⟨hold, h⟩

/-- The current stamp is right. -/
theorem exactAt_current {s : TracingSt} (h : CoreOk s) (hne : s.levels ≠ []) :
    s.currentLevel.sub < s.nextSub ∧ ExactAt s.levels s.currentLevel := by
  obtain ⟨top, rest, hlevels⟩ := List.exists_cons_of_ne_nil hne
  obtain ⟨hold, hnd⟩ := h.levels
  rw [hlevels] at hold hnd
  have hcur : s.currentLevel = ⟨rest.length + 1, top.id⟩ := by
    rw [currentLevel, hlevels]
    rfl
  rw [hcur, hlevels]
  refine ⟨hold top List.mem_cons_self, fun x post hsuffix hid => ?_⟩
  rcases List.suffix_cons_iff.1 hsuffix with heq | hsuffix
  · obtain ⟨-, rfl⟩ := List.cons.inj heq
    rfl
  · have hmem : x.id ∈ rest.map Subxact.id :=
      List.mem_map_of_mem (hsuffix.subset List.mem_cons_self)
    rw [← show top.id = x.id from hid] at hmem
    exact absurd hmem (List.nodup_cons.1 hnd).1

theorem stamped_init : Stamped {} where
  core := .init
  sub_old _ h := absurd h List.not_mem_nil
  exact _ h := absurd h List.not_mem_nil

theorem Stamped.step {s : TracingSt} (h : Stamped s) {a : TracingAct} (hen : a.Enabled s) :
    Stamped (s.next a) := by
  have hall : ∀ n ∈ (s.next a).trace.stamps,
      n.sub < (s.next a).nextSub ∧ ExactAt (s.next a).levels n := by
    intro n hn
    rcases stamps_step hen with hshrink | ⟨hlevels, hsub, hne, hgrow⟩
    · exact exactAt_step hen (h.sub_old n (hshrink hn)) (h.exact n (hshrink hn))
    · rcases hgrow n hn with hm | rfl
      · exact exactAt_step hen (h.sub_old n hm) (h.exact n hm)
      · rw [hlevels, hsub]
        exact exactAt_current h.core hne
  exact ⟨h.core.step hen, fun n hn => (hall n hn).1, fun n hn => (hall n hn).2⟩

/-! ## What an abort drops -/

/-- Every entry that a subtransaction which is over has left with the aborting level or a deeper one
comes from one that was committed into the aborting one. -/
def AbortsOwn (s : TracingSt) : TracingAct → Prop
  | .abort unwound _ => ∀ top rest, s.levels = top :: rest → rest ≠ [] →
      ∀ n ∈ (s.caught unwound).stamps, s.levels.length ≤ n.level →
        n.sub ∉ s.levels.map Subxact.id → n.sub ∈ top.absorbed
  | _ => True

/-- The abort of a subtransaction drops its own entries only, if and only if the older entries with
such stamps are its own. -/
theorem drops_own_iff {s : TracingSt} (h : Stamped s) {top : Subxact} {rest : List Subxact}
    (hlevels : s.levels = top :: rest) (hrest : rest ≠ []) (unwound : ℕ) (dead : List Ptr) :
    (∀ n, (s.caught unwound).Drops (s.next (.abort unwound dead)).trace n → n.sub ∈ top.members) ↔
      AbortsOwn s (.abort unwound dead) := by
  have hnext : (s.next (.abort unwound dead)).trace =
      (s.caught unwound).otelPgtracingSubxactCallback .abortSub s.levels.length := by
    simp only [next, hlevels]
    rw [if_neg (by simpa using hrest), currentLevel, hlevels]
  rw [hnext]
  constructor
  · intro hdrop top' rest' hlevels' _ n hn hle hnot
    obtain ⟨rfl, rfl⟩ := List.cons.inj (hlevels.symm.trans hlevels')
    have hin := hdrop n ((drops_subxactAbort _ _ _).2 ⟨hn, hle⟩)
    refine (List.mem_cons.1 hin).resolve_left fun heq => hnot ?_
    rw [heq, hlevels]
    exact List.mem_cons_self
  · intro hok n hdrop
    obtain ⟨hn, hle⟩ := (drops_subxactAbort _ _ _).1 hdrop
    by_cases hopen : n.sub ∈ s.levels.map Subxact.id
    · obtain ⟨x, hx, hid⟩ := List.mem_map.1 hopen
      obtain ⟨pre, post, hsplit⟩ := List.append_of_mem hx
      have hexact := h.exact n (shrinks_caught _ hn) x post ⟨pre, hsplit.symm⟩ hid.symm
      have hlen : s.levels.length = pre.length + (post.length + 1) := by
        rw [hsplit, List.length_append, List.length_cons]
      have hpre : pre = [] := List.eq_nil_of_length_eq_zero (by omega)
      rw [hpre, hlevels, List.nil_append] at hsplit
      obtain ⟨rfl, -⟩ := List.cons.inj hsplit
      exact hid ▸ List.mem_cons_self
    · exact List.mem_cons_of_mem _ (hok top rest hlevels hrest n hn hle hopen)

/-! ## Every query keeps its own entry -/

/-- The record of a new object goes on top. -/
theorem dated_push {s : TracingSt}
    (h : Dated StmtSpanEntry.key s.livePtrs s.nextObj s.trace.stmtStack) {addr : ℕ}
    (hfree : s.FreeAddr addr) {live' : List Ptr}
    (hlive : ∀ p ∈ live', p ∈ s.livePtrs ∨ p = s.newPtr addr) (ref : OtelSpanRef) (detached : Bool) :
    Dated StmtSpanEntry.key live' (s.nextObj + 1)
      (s.trace.pushStmtSpan (s.newPtr addr) ref detached s.currentLevel).1.stmtStack := by
  have hcreate : Dated StmtSpanEntry.key live' (s.nextObj + 1) s.trace.stmtStack :=
    h.create (Nat.le_succ _) fun p hp => (hlive p hp).imp_right fun heq => by
      rw [heq]
      exact Nat.le_refl s.nextObj
  rw [pushStmtSpan_stack]
  split_ifs
  · refine hcreate.push (Nat.lt_succ_self s.nextObj) h.old fun p hp hlt heq => ?_
    rcases hlive p hp with hp | rfl
    · exact hfree p hp heq.symm
    · exact Nat.lt_irrefl _ hlt
  · exact hcreate

/-- The statement stack is in the order of its objects, and has the entry of every query that pushed
one, with the stamp of the subtransaction the query was started in. -/
structure OwnEntries (s : TracingSt) : Prop where
  stamped : Stamped s
  dated : Dated StmtSpanEntry.key s.livePtrs s.nextObj s.trace.stmtStack
  own : ∀ q ∈ s.queries, ∀ ref, q.pushed = some ref →
    ∃ e ∈ s.trace.stmtStack, e.key = q.ptr ∧ e.ref = ref ∧ e.subxactLevel.sub = q.sub

namespace OwnEntries

variable {s s' : TracingSt}

theorem init : OwnEntries {} where
  stamped := stamped_init
  dated := .nil
  own _ h := absurd h List.not_mem_nil

/-- Entries may go, but not those of the queries that stay. -/
theorem keep (h : OwnEntries s) (hst : Stamped s')
    (hstack : s'.trace.stmtStack.Sublist s.trace.stmtStack) (hlive : s'.livePtrs ⊆ s.livePtrs)
    (hobj : s.nextObj ≤ s'.nextObj)
    (hq : ∀ q ∈ s'.queries, ∃ q₀ ∈ s.queries, q₀.ptr = q.ptr ∧ q₀.sub = q.sub ∧
      q₀.pushed = q.pushed ∧ ∀ e ∈ s.trace.stmtStack, e.key = q.ptr → e.subxactLevel.sub = q.sub →
        e ∈ s'.trace.stmtStack) : OwnEntries s' where
  stamped := hst
  dated := (h.dated.sublist hstack hlive).create hobj fun _ hp => .inl hp
  own q hq' ref href := by
    obtain ⟨q₀, hq₀, hptr, hsub, hpushed, hkeep⟩ := hq q hq'
    obtain ⟨e, he, hkey, heref, hesub⟩ := h.own q₀ hq₀ ref (hpushed.trans href)
    exact ⟨e, hkeep e he (hkey.trans hptr) (hesub.trans hsub), hkey.trans hptr, heref,
      hesub.trans hsub⟩

/-- Steps that leave the statement stack and its objects alone. -/
theorem same (h : OwnEntries s) (hst : Stamped s') (hstack : s'.trace.stmtStack = s.trace.stmtStack)
    (hlive : s'.livePtrs = s.livePtrs) (hobj : s.nextObj ≤ s'.nextObj)
    (hq : ∀ q ∈ s'.queries, ∃ q₀ ∈ s.queries, q₀.ptr = q.ptr ∧ q₀.sub = q.sub ∧
      q₀.pushed = q.pushed) : OwnEntries s' := by
  refine h.keep hst (hstack ▸ List.Sublist.refl _) (hlive ▸ List.Subset.refl _) hobj fun q hq' => ?_
  obtain ⟨q₀, hq₀, hptr, hsub, hpushed⟩ := hq q hq'
  exact ⟨q₀, hq₀, hptr, hsub, hpushed, fun e he _ _ => hstack ▸ he⟩

/-- Unwound calls take their own entries along. -/
theorem mem_caught_own (h : OwnEntries s) (frames : List CallFrame) (hsub : frames ⊆ s.frames)
    {q : Query} (hq : q ∈ s.queries) {e : StmtSpanEntry} (he : e ∈ s.trace.stmtStack)
    (hkey : e.key = q.ptr) : e ∈ (frames.foldl catchError s.trace).stmtStack := by
  refine mem_caught he fun f hf token ht => ?_
  rw [hkey]
  exact h.stamped.core.token_addr_ne hq (hsub hf) ht

/-- The queries and the objects stay, whatever is unwound. -/
theorem livePtrs_drop (s : TracingSt) (n : ℕ) :
    s.queries.map Query.ptr ++ (s.frames.drop n).filterMap CallFrame.token ⊆ s.livePtrs :=
  ((List.Sublist.refl _).append ((List.drop_sublist n _).filterMap _)).subset

/-- The abort of the outermost level ends every query. -/
theorem abort_outermost (h : OwnEntries s) {unwound : ℕ} {dead : List Ptr} {top : Subxact}
    (hst : Stamped (s.next (.abort unwound dead))) (hlevels : s.levels = [top]) :
    OwnEntries (s.next (.abort unwound dead)) := by
  have hqueries : (s.next (.abort unwound dead)).queries = [] := by
    simp only [next, hlevels]
    exact List.filter_eq_nil_iff.2 fun q _ => by simp [dies, hlevels]
  have hstack : (s.next (.abort unwound dead)).trace.stmtStack = [] := by
    simp only [next, hlevels]
    rfl
  refine h.keep hst (hstack ▸ List.nil_sublist _) (livePtrs_abort s unwound dead)
    (abort_nextObj s unwound dead).ge fun q hq => ?_
  rw [hqueries] at hq
  exact absurd hq List.not_mem_nil

/-- The abort of a subtransaction takes no entry of a query that lives on. -/
theorem abort_inner (h : OwnEntries s) {unwound : ℕ} {dead : List Ptr} {top : Subxact}
    {rest : List Subxact} (hst : Stamped (s.next (.abort unwound dead)))
    (hlevels : s.levels = top :: rest) (hrest : rest ≠ []) (hok : AbortsOwn s (.abort unwound dead)) :
    OwnEntries (s.next (.abort unwound dead)) := by
  have hstack : (s.next (.abort unwound dead)).trace.stmtStack =
      dropFromLevel StmtSpanEntry.subxactLevel s.levels.length (s.caught unwound).stmtStack := by
    simp only [next, hlevels]
    rw [if_neg (by simpa using hrest), currentLevel, hlevels]
    rfl
  have hscope := (drops_own_iff h.stamped hlevels hrest unwound dead).2 hok
  refine h.keep hst (hstack ▸ List.filter_sublist.trans (caught_sublist _ _))
    (livePtrs_abort s unwound dead) (abort_nextObj s unwound dead).ge fun q hq => ?_
  rw [abort_queries hlevels unwound dead] at hq
  obtain ⟨hq, hlives⟩ := List.mem_filter.1 hq
  refine ⟨q, hq, rfl, rfl, rfl, fun e he hkey hsub => ?_⟩
  by_contra hnot
  have hin := hscope e.subxactLevel (.inl ⟨e, h.mem_caught_own _ (List.take_subset _ _) hq he hkey,
    hnot, rfl⟩)
  rw [hsub] at hin
  have hdies : s.dies dead q = true := by simp [dies, hlevels, hin]
  rw [hdies] at hlives
  exact Bool.false_ne_true hlives

theorem abort (h : OwnEntries s) {unwound : ℕ} {dead : List Ptr}
    (hen : (TracingAct.abort unwound dead).Enabled s) (hok : AbortsOwn s (.abort unwound dead)) :
    OwnEntries (s.next (.abort unwound dead)) := by
  have hst := h.stamped.step hen
  obtain ⟨⟨top, rest, hlevels, -⟩, -⟩ := hen
  by_cases hrest : rest = []
  · exact h.abort_outermost hst (hrest ▸ hlevels)
  · exact h.abort_inner hst hlevels hrest hok

/-- What is pushed leaves the entries of the other queries. -/
theorem mem_pushStmtSpan (h : OwnEntries s) {q : Query} (hq : q ∈ s.queries) {ref : OtelSpanRef}
    (href : q.pushed = some ref) (key : Ptr) (ref' : OtelSpanRef) (detached : Bool)
    (level : NestLevel) : ∃ e ∈ (s.trace.pushStmtSpan key ref' detached level).1.stmtStack,
      e.key = q.ptr ∧ e.ref = ref ∧ e.subxactLevel.sub = q.sub := by
  obtain ⟨e, he, hrest⟩ := h.own q hq ref href
  refine ⟨e, ?_, hrest⟩
  rw [pushStmtSpan_stack]
  split_ifs
  · exact List.mem_cons_of_mem _ he
  · exact he

/-- A query that starts has its own entry, if it pushed one. -/
theorem executorStart (h : OwnEntries s) {addr : ℕ} {isCursor : Bool} {ref : OtelSpanRef}
    (hen : (TracingAct.executorStart addr isCursor ref).Enabled s) :
    OwnEntries (s.next (.executorStart addr isCursor ref)) := by
  refine ⟨h.stamped.step hen,
    dated_push h.dated hen.2 (fun p hp => (List.mem_cons.1 hp).symm) ref isCursor,
    List.forall_mem_cons.2 ⟨fun ref' href' => ?_,
      fun q hq ref' href' => h.mem_pushStmtSpan hq href' _ _ _ _⟩⟩
  have hstack := pushStmtSpan_stack s.trace (s.newPtr addr) ref isCursor s.currentLevel
  change (if s.trace.pushesStmt ref then some ref else none) = some ref' at href'
  split_ifs at href' with hp
  obtain rfl := Option.some.inj href'
  rw [if_pos hp] at hstack
  exact ⟨⟨s.newPtr addr, ref, s.currentLevel, isCursor⟩, hstack ▸ List.mem_cons_self, rfl, rfl, rfl⟩

/-- A query that ends takes its own entry along. -/
theorem executorEnd (h : OwnEntries s) {query : Ptr} {planspans : Bool}
    (hen : (TracingAct.executorEnd query planspans).Enabled s) :
    OwnEntries (s.next (.executorEnd query planspans)) := by
  have hstack : (s.next (.executorEnd query planspans)).trace.stmtStack =
      remove StmtSpanEntry.key query s.trace.stmtStack := nodeEnds_stmtStack planspans _ _
  have hfilter := List.filter_sublist (l := s.queries) (p := fun q => q.ptr ≠ query)
  refine h.keep (h.stamped.step hen) (hstack ▸ remove_sublist query)
    ((hfilter.map _).append (List.Sublist.refl _)).subset (Nat.le_refl _) fun q hq => ?_
  obtain ⟨hq₀, hne⟩ := List.mem_filter.1 hq
  refine ⟨q, hq₀, rfl, rfl, rfl, fun e he hkey _ => ?_⟩
  obtain ⟨-, ⟨q', hq', rfl⟩, -⟩ := hen
  rw [hstack]
  refine mem_remove he fun haddr => of_decide_eq_true hne ?_
  rw [hkey] at haddr
  exact h.stamped.core.distinct.eq_of_same (List.mem_append_left _ (List.mem_map_of_mem hq₀))
    (List.mem_append_left _ (List.mem_map_of_mem hq')) haddr

theorem utilityBegin (h : OwnEntries s) {addr : ℕ} {toplevel : Bool} {ref : OtelSpanRef}
    (hen : (TracingAct.utilityBegin addr toplevel ref).Enabled s) :
    OwnEntries (s.next (.utilityBegin addr toplevel ref)) := by
  have hst := h.stamped.step hen
  cases toplevel with
  | false =>
    exact h.same hst rfl rfl (Nat.le_succ _) fun q hq => ⟨q, hq, rfl, rfl, rfl⟩
  | true =>
    refine ⟨hst, dated_push h.dated hen.2 (fun p hp => ?_) ref false,
      fun q hq ref' href' => h.mem_pushStmtSpan hq href' _ _ _ _⟩
    exact (List.mem_cons.1 (List.perm_middle.mem_iff.1 hp)).symm

theorem utilityEnd (h : OwnEntries s) (hen : TracingAct.utilityEnd.Enabled s) :
    OwnEntries (s.next .utilityEnd) := by
  have hst := h.stamped.step hen
  obtain ⟨token, toplevel, sub, rest, hfs⟩ := hen
  have hlive := livePtrs_drop s 1
  rw [hfs] at hlive
  simp only [next, hfs] at hst ⊢
  refine h.keep hst (catchError_sublist _ _) hlive (Nat.le_refl _) fun q hq =>
    ⟨q, hq, rfl, rfl, rfl, fun e he hkey _ => ?_⟩
  exact h.mem_caught_own [.utility token toplevel sub] (by rw [hfs]; simp) hq he hkey

theorem step (h : OwnEntries s) {a : TracingAct} (hen : a.Enabled s) (hok : AbortsOwn s a) :
    OwnEntries (s.next a) := by
  have hst := h.stamped.step hen
  have hself : ∀ q ∈ s.queries, ∃ q₀ ∈ s.queries, q₀.ptr = q.ptr ∧ q₀.sub = q.sub ∧
      q₀.pushed = q.pushed := fun q hq => ⟨q, hq, rfl, rfl, rfl⟩
  cases a with
  | begin => exact h.same hst rfl rfl (Nat.le_refl _) hself
  | savepoint => exact h.same hst rfl rfl (Nat.le_refl _) hself
  | release =>
    obtain ⟨top, parent, rest, hlevels, -⟩ := hen
    simp only [next, hlevels] at hst ⊢
    rw [otelPgtracingSubxactCallback_other _ (by decide)] at hst ⊢
    exact h.same hst rfl rfl (Nat.le_refl _) hself
  | commit prepare =>
    refine h.same hst ?_ rfl (Nat.le_refl _) hself
    cases prepare <;> rfl
  | abort unwound dead => exact h.abort hen hok
  | cleanup => exact h.same hst rfl rfl (Nat.le_refl _) hself
  | executorStart addr isCursor ref => exact h.executorStart hen
  | nodeBegin query addr tag planspans fdw =>
    refine h.same hst (nodeBegin_stmtStack _ _ _ _ _) ?_ (Nat.le_succ _) fun q hq => ?_
    · exact livePtrs_nodeBegin s query addr tag planspans fdw
    · obtain ⟨q₀, hq₀, rfl⟩ := List.mem_map.1 hq
      refine ⟨q₀, hq₀, ?_⟩
      split_ifs <;> exact ⟨rfl, rfl, rfl⟩
  | nodeEnd query node =>
    refine h.same hst rfl ?_ (Nat.le_refl _) fun q hq => ?_
    · exact livePtrs_nodeEnd s query node
    · obtain ⟨q₀, hq₀, rfl⟩ := List.mem_map.1 hq
      refine ⟨q₀, hq₀, ?_⟩
      split_ifs <;> exact ⟨rfl, rfl, rfl⟩
  | executorEnd query planspans => exact h.executorEnd hen
  | runBegin query => exact h.same hst rfl rfl (Nat.le_refl _) hself
  | runEnd =>
    obtain ⟨query, sub, rest, hfs⟩ := hen
    refine h.same hst rfl ?_ (Nat.le_refl _) hself
    simp only [livePtrs, next, hfs]
    rfl
  | utilityBegin addr toplevel ref => exact h.utilityBegin hen
  | utilityEnd => exact h.utilityEnd hen
  | errorWhenAborted unwound =>
    refine h.keep hst (caught_sublist _ _) (livePtrs_drop s unwound) (Nat.le_refl _) fun q hq =>
      ⟨q, hq, rfl, rfl, rfl, fun e he hkey _ => ?_⟩
    exact h.mem_caught_own _ (List.take_subset _ _) hq he hkey

/-- The end of a query finds the query's own entry. -/
theorem pop_own (h : OwnEntries s) {q : Query} (hq : q ∈ s.queries) {ref : OtelSpanRef}
    (href : q.pushed = some ref) : (s.trace.popStmtSpan q.ptr).2 = ref := by
  obtain ⟨e, he, hkey, rfl, -⟩ := h.own q hq ref href
  have hlive : e.key ∈ s.livePtrs := hkey ▸ List.mem_append_left _ (List.mem_map_of_mem hq)
  have hfind := h.dated.find_own he hlive
  rw [hkey] at hfind
  change ((find StmtSpanEntry.key q.ptr s.trace.stmtStack).map StmtSpanEntry.ref).getD _ = _
  rw [hfind]
  rfl

end OwnEntries

theorem reachable_ownEntries {s : TracingSt} (h : tracing.ReachBy AbortsOwn s) : OwnEntries s :=
  Machine.ReachBy.invariant (I := OwnEntries) .init (fun _ _ hi he ho => hi.step he ho) h

/-- In runs whose aborts of subtransactions find, with their level or a deeper one, no entry of a
subtransaction that was released into another: such an abort drops only entries pushed inside the
aborting subtransaction or inside one committed into it, from any of the four stacks, and the end of
every query that pushed an entry finds that entry. -/
theorem subxact_aborts_scoped {s : TracingSt} (h : tracing.ReachBy AbortsOwn s) :
    (∀ unwound dead top rest, (TracingAct.abort unwound dead).Enabled s →
      AbortsOwn s (.abort unwound dead) → s.levels = top :: rest → rest ≠ [] →
      ∀ n, (s.caught unwound).Drops (s.next (.abort unwound dead)).trace n → n.sub ∈ top.members) ∧
    ∀ q ∈ s.queries, ∀ ref, q.pushed = some ref → (s.trace.popStmtSpan q.ptr).2 = ref := by
  have hown := reachable_ownEntries h
  refine ⟨fun unwound dead top rest _ hok hlevels hrest => ?_, fun q hq ref href =>
    hown.pop_own hq href⟩
  exact (drops_own_iff hown.stamped hlevels hrest unwound dead).2 hok

/-- A cursor is open, and a statement runs in a subtransaction. -/
def statementInSubxact : TracingSt :=
  [TracingAct.begin, .executorStart 1 true ⟨1⟩, .savepoint, .executorStart 2 false ⟨2⟩].foldl
    TracingSt.next {}

theorem reachBy_statementInSubxact : tracing.ReachBy AbortsOwn statementInSubxact :=
  Machine.ReachBy.run (m := tracing) .init
    ⟨rfl, trivial, ⟨⟨_, _, rfl, rfl⟩, by decide⟩, trivial, ⟨_, _, rfl, rfl⟩, trivial,
      ⟨⟨_, _, rfl, rfl⟩, by decide⟩, trivial, trivial⟩

theorem abortsOwn_statementInSubxact : AbortsOwn statementInSubxact (.abort 0 []) := by
  intro top rest hlevels _ n hn hle hnot
  obtain ⟨rfl, -⟩ := List.cons.inj hlevels
  have hstamps : (statementInSubxact.caught 0).stamps = [⟨2, 1⟩, ⟨1, 0⟩] := by decide
  rw [hstamps] at hn
  rcases List.mem_cons.1 hn with rfl | hn
  · exact absurd (show (1 : ℕ) ∈ statementInSubxact.levels.map Subxact.id by decide) hnot
  · obtain rfl := List.mem_singleton.1 hn
    exact absurd hle (by decide)

theorem subxact_aborts_scoped_statementInSubxact :
    (TracingAct.abort 0 []).Enabled statementInSubxact ∧
      (statementInSubxact.next (.abort 0 [])).trace.stmtStack.map StmtSpanEntry.ref = [⟨1⟩] ∧
      (∀ n, (statementInSubxact.caught 0).Drops (statementInSubxact.next (.abort 0 [])).trace n →
        n.sub ∈ [1]) ∧
      (statementInSubxact.trace.popStmtSpan ⟨2, 1⟩).2 = ⟨2⟩ := by
  have hen : (TracingAct.abort 0 []).Enabled statementInSubxact :=
    ⟨⟨_, _, rfl, rfl⟩, fun _ => rfl, fun _ h => absurd h List.not_mem_nil,
      fun _ h => absurd h List.not_mem_nil⟩
  have h := subxact_aborts_scoped reachBy_statementInSubxact
  exact ⟨hen, by decide,
    h.1 0 [] _ _ hen abortsOwn_statementInSubxact rfl (List.cons_ne_nil _ _),
    h.2 _ List.mem_cons_self ⟨2⟩ (by decide)⟩

/-- A cursor with a foreign scan, a sort and a function scan was opened in a subtransaction that has
been released, and a sibling at the same level is in progress. -/
def releasedSibling : TracingSt :=
  [TracingAct.begin, .savepoint, .executorStart 1 true ⟨1⟩,
    .nodeBegin ⟨1, 0⟩ 10 .foreignScanState (some ⟨0⟩) (some ⟨2⟩),
    .nodeBegin ⟨1, 0⟩ 11 .sortState (some ⟨0⟩) none,
    .nodeBegin ⟨1, 0⟩ 12 .functionScanState (some ⟨3⟩) none, .release, .savepoint].foldl
    TracingSt.next {}

theorem reachable_releasedSibling : tracing.Reachable releasedSibling :=
  Machine.ReachBy.run (m := tracing) .init
    ⟨rfl, trivial, ⟨_, _, rfl, rfl⟩, trivial, ⟨⟨_, _, rfl, rfl⟩, by decide⟩, trivial,
      ⟨⟨_, _, rfl, rfl⟩, by decide, by decide⟩, trivial,
      ⟨⟨_, _, rfl, rfl⟩, by decide, by decide⟩, trivial,
      ⟨⟨_, _, rfl, rfl⟩, by decide, by decide⟩, trivial,
      ⟨_, _, _, rfl, rfl, by decide⟩, trivial, ⟨_, _, rfl, rfl⟩, trivial, trivial⟩

/-- The sibling's abort drops every entry of the cursor, whose query lives on; its `ExecutorEnd` finds
no span to end, and its sort no wrapper entry. -/
theorem sibling_abort_drops_cursor :
    tracing.Reachable releasedSibling ∧ (TracingAct.abort 0 []).Enabled releasedSibling ∧
      (releasedSibling.next (.abort 0 [])).queries.map Query.ptr = [⟨1, 0⟩] ∧
      releasedSibling.trace.stmtStack.map StmtSpanEntry.subxactLevel = [⟨2, 1⟩] ∧
      releasedSibling.levels.map Subxact.members = [[2], [0, 1]] ∧
      (releasedSibling.next (.abort 0 [])).trace = {} ∧
      ((releasedSibling.next (.abort 0 [])).trace.popStmtSpan ⟨1, 0⟩).2 = otelSpanNone ∧
      (releasedSibling.next (.abort 0 [])).trace.sortwrapFind ⟨11, 2⟩ = none :=
  ⟨reachable_releasedSibling,
    ⟨⟨_, _, rfl, rfl⟩, fun _ => rfl, fun _ h => absurd h List.not_mem_nil,
      fun _ h => absurd h List.not_mem_nil⟩,
    by decide, by decide, by decide, by decide, by decide, by decide⟩

end PostgresOtel
