import Mathlib.Data.List.Nodup
import Mathlib.Data.List.Perm.Basic
import Mathlib.Data.List.Range
import Mathlib.Order.Defs.LinearOrder
import PostgresOtel.Producer.Types

/-!
# The producer as its clients see it

What a module that starts and ends spans relies on: which spans are open, which of them a resource
owner would end, and how each started span left.  Spans are numbered by their start, so the open
spans that are not detached are the active stack, the newest on top.

`Spans.close` is the one way a span leaves; ending, discarding and an owner's release are instances.
-/

set_option autoImplicit false

namespace PostgresOtel

/-- An open span: its handle, whether it belongs to the session instead of a resource owner, the
transaction nest level it was started at, which its resource owner belongs to, and whether it keeps
off the active stack. -/
structure OpenSpan where
  ref : OtelSpanRef
  session : Bool
  level : ℕ
  detached : Bool := false
  deriving DecidableEq

/-- How a span left. -/
inductive SpanEnd
  | ended
  | discarded
  /-- By the end of a span below it on the active stack. -/
  | unwound
  /-- By its resource owner on abort. -/
  | released
  /-- By its resource owner on commit. -/
  | leaked
  deriving DecidableEq

/-- The open spans, the newest first, and the record of those that left and of the handles that were
ended or discarded without being open. -/
structure Spans where
  opened : List OpenSpan := []
  count : ℕ := 0
  log : List (OtelSpanRef × SpanEnd) := []
  stale : List OtelSpanRef := []
  deriving DecidableEq

/-- The handle of the span with this number. -/
def spanHandle (n : ℕ) : OtelSpanRef := ⟨n + 1⟩

namespace Spans

/-- `otel_span_start`, when it opens a span. -/
def start (s : Spans) (session : Bool) (level : ℕ) (detached : Bool) : Spans :=
  { s with
    opened := ⟨spanHandle s.count, session, level, detached⟩ :: s.opened
    count := s.count + 1 }

/-- The spans with `p` leave. -/
def close (s : Spans) (p : OpenSpan → Bool) (how : SpanEnd) : Spans :=
  { s with
    opened := s.opened.filter fun o => !p o
    log := s.log ++ (s.opened.filter p).map fun o => (o.ref, how) }

def IsOpen (s : Spans) (ref : OtelSpanRef) : Prop := ref ∈ s.opened.map OpenSpan.ref

instance (s : Spans) (ref : OtelSpanRef) : Decidable (s.IsOpen ref) :=
  inferInstanceAs (Decidable (_ ∈ _))

/-- The span is above `ref` on the active stack, unless `ref` is not on it. -/
def above (s : Spans) (ref : OtelSpanRef) (o : OpenSpan) : Bool :=
  !o.detached && decide (ref.v < o.ref.v) &&
    s.opened.any fun x => x.ref = ref ∧ x.detached = false

/-- `otel_span_end`: what is above the span on the active stack is unwound first. -/
def finish (s : Spans) (ref : OtelSpanRef) : Spans :=
  if ref.v = 0 then
    s
  else if s.IsOpen ref then
    (s.close (s.above ref) .unwound).close (fun o => o.ref = ref) .ended
  else
    { s with stale := ref :: s.stale }

/-- `otel_span_discard`. -/
def discard (s : Spans) (ref : OtelSpanRef) : Spans :=
  if ref.v = 0 then
    s
  else if s.IsOpen ref then
    s.close (fun o => o.ref = ref) .discarded
  else
    { s with stale := ref :: s.stale }

/-- The resource owners of the transaction levels from `level` on are released. -/
def release (s : Spans) (isCommit : Bool) (level : ℕ) : Spans :=
  s.close (fun o => !o.session && decide (level ≤ o.level)) (if isCommit then .leaked else .released)

/-! ## Every span leaves once -/

/-- Every started span is open or has left, once. -/
def Tally (s : Spans) : Prop :=
  (s.opened.map OpenSpan.ref ++ s.log.map Prod.fst).Perm ((List.range s.count).map spanHandle)

/-- The open spans are listed from the newest on. -/
def Ordered (s : Spans) : Prop :=
  s.opened.Pairwise (fun o o' => o'.ref.v < o.ref.v) ∧ ∀ o ∈ s.opened, 0 < o.ref.v ∧
    o.ref.v ≤ s.count

variable {s : Spans} {ref : OtelSpanRef} {p : OpenSpan → Bool} {how : SpanEnd}

theorem spanHandle_injective : Function.Injective spanHandle := by
  intro m n h
  have : (m : ℤ) + 1 = n + 1 := congrArg OtelSpanRef.v h
  omega

theorem spanHandle_ne_zero (n : ℕ) : (spanHandle n).v ≠ 0 := by
  change (n : ℤ) + 1 ≠ 0
  omega

theorem tally_init : Tally {} := .refl _

theorem Tally.start (h : s.Tally) (session detached : Bool) (level : ℕ) :
    (s.start session level detached).Tally := by
  unfold Tally at h ⊢
  rw [Spans.start, List.range_succ, List.map_append, List.map_cons, List.cons_append]
  exact (h.cons _).trans (List.perm_append_singleton _ _).symm

theorem Tally.close (h : s.Tally) (p : OpenSpan → Bool) (how : SpanEnd) : (s.close p how).Tally := by
  unfold Tally at h ⊢
  refine List.Perm.trans ?_ h
  have hmap : ((s.opened.filter p).map fun o => (o.ref, how)).map Prod.fst =
      (s.opened.filter p).map OpenSpan.ref := by
    rw [List.map_map]
    rfl
  rw [Spans.close, List.map_append, hmap]
  have hsplit := (List.filter_append_perm p s.opened).map OpenSpan.ref
  rw [List.map_append] at hsplit
  refine List.Perm.trans ?_ (hsplit.append_right _)
  rw [← List.append_assoc, List.append_assoc _ (s.log.map Prod.fst)]
  exact (List.perm_append_comm.append_left _).trans (by
    rw [← List.append_assoc]
    exact List.perm_append_comm.append_right _)

theorem Tally.finish (h : s.Tally) (ref : OtelSpanRef) : (s.finish ref).Tally := by
  unfold Spans.finish
  split_ifs
  · exact h
  · exact (h.close _ _).close _ _
  · exact h

theorem Tally.nodup (h : s.Tally) : (s.opened.map OpenSpan.ref ++ s.log.map Prod.fst).Nodup :=
  h.nodup_iff.2 (List.Nodup.map spanHandle_injective List.nodup_range)

/-- A tally says of each handle how often it is listed. -/
theorem Tally.once (h : s.Tally) {n : ℕ} (hn : n < s.count) :
    (s.opened.map OpenSpan.ref).count (spanHandle n) + (s.log.map Prod.fst).count (spanHandle n) =
      1 := by
  rw [← List.count_append]
  exact List.count_eq_one_of_mem h.nodup
    (h.mem_iff.2 (List.mem_map_of_mem (List.mem_range.2 hn)))

/-- A span that left is logged once. -/
theorem Tally.log_once (h : s.Tally) {x : OtelSpanRef × SpanEnd} (hx : x ∈ s.log) :
    s.log.filter (fun y => y.1 = x.1) = [x] := by
  have hnd := (List.nodup_append.1 h.nodup).2.1
  obtain ⟨l₁, l₂, hlog⟩ := List.append_of_mem hx
  rw [hlog, List.map_append, List.map_cons] at hnd
  have hnot := (List.nodup_middle.1 hnd).notMem
  rw [← List.map_append] at hnot
  have hnone : ∀ l ⊆ l₁ ++ l₂, l.filter (fun y => y.1 = x.1) = [] := fun l hl =>
    List.filter_eq_nil_iff.2 fun y hy heq => hnot (List.mem_map.2 ⟨y, hl hy, of_decide_eq_true heq⟩)
  rw [hlog, List.filter_append, List.filter_cons_of_pos (by simp),
    hnone l₁ (List.subset_append_left _ _), hnone l₂ (List.subset_append_right _ _), List.nil_append]

/-! ## The order of the open spans -/

theorem ordered_init : Ordered {} := ⟨List.Pairwise.nil, fun _ h => absurd h List.not_mem_nil⟩

theorem Ordered.start (h : s.Ordered) (session detached : Bool) (level : ℕ) :
    (s.start session level detached).Ordered := by
  have hnew : (spanHandle s.count).v = s.count + 1 := rfl
  refine ⟨List.pairwise_cons.2 ⟨fun o ho => ?_, h.1⟩, List.forall_mem_cons.2 ⟨⟨?_, ?_⟩, ?_⟩⟩
  · change o.ref.v < (spanHandle s.count).v
    have := (h.2 o ho).2
    omega
  · change 0 < (spanHandle s.count).v
    omega
  · change (spanHandle s.count).v ≤ ((s.count + 1 : ℕ) : ℤ)
    omega
  · intro o ho
    have := h.2 o ho
    refine ⟨this.1, ?_⟩
    change o.ref.v ≤ ((s.count + 1 : ℕ) : ℤ)
    omega

theorem Ordered.close (h : s.Ordered) (p : OpenSpan → Bool) (how : SpanEnd) :
    (s.close p how).Ordered :=
  ⟨h.1.filter _, fun o ho => h.2 o (List.mem_of_mem_filter ho)⟩

theorem Ordered.finish (h : s.Ordered) (ref : OtelSpanRef) : (s.finish ref).Ordered := by
  unfold Spans.finish
  split_ifs
  · exact h
  · exact (h.close _ _).close _ _
  · exact h

theorem Ordered.discard (h : s.Ordered) (ref : OtelSpanRef) : (s.discard ref).Ordered := by
  unfold Spans.discard
  split_ifs
  · exact h
  · exact h.close _ _
  · exact h

/-! ## What stays open -/

theorem mem_close {o : OpenSpan} (h : o ∈ (s.close p how).opened) : o ∈ s.opened ∧ p o = false := by
  simpa [Spans.close] using h

/-- What is open after an end was open before and is another span. -/
theorem mem_finish (hs : s.Ordered) {o : OpenSpan} (h : o ∈ (s.finish ref).opened) :
    o ∈ s.opened ∧ o.ref ≠ ref := by
  unfold Spans.finish at h
  split_ifs at h with hv hopen
  · refine ⟨h, fun heq => ?_⟩
    have := (hs.2 o h).1
    rw [heq] at this
    omega
  · obtain ⟨ho, hne⟩ := mem_close h
    exact ⟨(mem_close ho).1, of_decide_eq_false hne⟩
  · exact ⟨h, fun heq => hopen (heq ▸ List.mem_map_of_mem h)⟩

theorem mem_discard (hs : s.Ordered) {o : OpenSpan} (h : o ∈ (s.discard ref).opened) :
    o ∈ s.opened ∧ o.ref ≠ ref := by
  unfold Spans.discard at h
  split_ifs at h with hv hopen
  · refine ⟨h, fun heq => ?_⟩
    have := (hs.2 o h).1
    rw [heq] at this
    omega
  · obtain ⟨ho, hne⟩ := mem_close h
    exact ⟨ho, of_decide_eq_false hne⟩
  · exact ⟨h, fun heq => hopen (heq ▸ List.mem_map_of_mem h)⟩

theorem Ordered.discards (hs : s.Ordered) (refs : List OtelSpanRef) :
    (refs.foldl Spans.discard s).Ordered := by
  induction refs generalizing s with
  | nil => exact hs
  | cons ref refs ih => exact ih (hs.discard ref)

theorem mem_discards (hs : s.Ordered) {refs : List OtelSpanRef} {o : OpenSpan}
    (h : o ∈ (refs.foldl Spans.discard s).opened) : o ∈ s.opened ∧ o.ref ∉ refs := by
  induction refs generalizing s with
  | nil => exact ⟨h, List.not_mem_nil⟩
  | cons ref refs ih =>
    obtain ⟨ho, hrest⟩ := ih (hs.discard ref) h
    obtain ⟨ho', hne⟩ := mem_discard hs ho
    exact ⟨ho', fun hm => (List.mem_cons.1 hm).elim hne hrest⟩

@[simp] theorem finish_count : (s.finish ref).count = s.count := by
  unfold Spans.finish
  split_ifs <;> rfl

@[simp] theorem discard_count : (s.discard ref).count = s.count := by
  unfold Spans.discard
  split_ifs <;> rfl

@[simp] theorem discards_count (refs : List OtelSpanRef) :
    (refs.foldl Spans.discard s).count = s.count := by
  induction refs generalizing s with
  | nil => rfl
  | cons ref refs ih => exact ih.trans discard_count

/-! ## Closing the newest spans -/

/-- Nothing to close. -/
theorem close_none (h : ∀ o ∈ s.opened, p o = false) : s.close p how = s := by
  have hnone : s.opened.filter p = [] := List.filter_eq_nil_iff.2 fun o ho => by simp [h o ho]
  have hall : (s.opened.filter fun o => !p o) = s.opened :=
    List.filter_eq_self.2 fun o ho => by simp [h o ho]
  unfold Spans.close
  rw [hnone, hall, List.map_nil, List.append_nil]

/-- The newest spans leave and the others stay. -/
theorem close_append {new old : List OpenSpan} (hs : s.opened = new ++ old)
    (hnew : ∀ o ∈ new, p o = true) (hold : ∀ o ∈ old, p o = false) :
    s.close p how =
      { s with opened := old, log := s.log ++ new.map fun o => (o.ref, how) } := by
  have h1 : s.opened.filter p = new := by
    rw [hs, List.filter_append, List.filter_eq_self.2 hnew,
      List.filter_eq_nil_iff.2 fun o ho => by simp [hold o ho], List.append_nil]
  have h2 : (s.opened.filter fun o => !p o) = old := by
    rw [hs, List.filter_append, List.filter_eq_nil_iff.2 fun o ho => by simp [hnew o ho],
      List.filter_eq_self.2 fun o ho => by simp [hold o ho], List.nil_append]
  unfold Spans.close
  rw [h1, h2]

/-- Ending a span with nothing above it ends it, if it is open, and nothing else. -/
theorem finish_alone (h : s.Ordered) (hnone : ∀ x ∈ s.opened, s.above ref x = false) :
    (s.finish ref).opened = (s.close (fun o => o.ref = ref) .ended).opened ∧
      (s.finish ref).log = (s.close (fun o => o.ref = ref) .ended).log := by
  have hclosed (hnot : ¬s.IsOpen ref) : s.close (fun o => o.ref = ref) .ended = s :=
    close_none fun o ho => decide_eq_false fun heq => hnot (heq ▸ List.mem_map_of_mem ho)
  unfold Spans.finish
  split_ifs with hv hopen
  · have hnot : ¬s.IsOpen ref := by
      intro hin
      obtain ⟨o, ho, rfl⟩ := List.mem_map.1 hin
      have := (h.2 o ho).1
      omega
    rw [hclosed hnot]
    exact ⟨rfl, rfl⟩
  · rw [close_none hnone]
    exact ⟨rfl, rfl⟩
  · rw [hclosed hopen]
    exact ⟨rfl, rfl⟩

/-- Ending the newest span ends it and nothing else. -/
theorem finish_newest {o : OpenSpan} {rest : List OpenSpan} (h : s.Ordered)
    (hs : s.opened = o :: rest) :
    s.finish o.ref = { s with opened := rest, log := s.log ++ [(o.ref, .ended)] } := by
  have hord := h.1
  rw [hs, List.pairwise_cons] at hord
  have hpos : o.ref.v ≠ 0 := by
    have := (h.2 o (by rw [hs]; exact List.mem_cons_self)).1
    omega
  have hopen : s.IsOpen o.ref := by
    rw [IsOpen, hs]
    exact List.mem_cons_self
  have hnone : s.close (s.above o.ref) .unwound = s := by
    refine close_none fun x hx => ?_
    have hle : x.ref.v ≤ o.ref.v := by
      rw [hs] at hx
      rcases List.mem_cons.1 hx with rfl | hx
      · exact Int.le_refl _
      · exact Int.le_of_lt (hord.1 x hx)
    simp [above, Int.not_lt.2 hle]
  rw [Spans.finish, if_neg hpos, if_pos hopen, hnone]
  refine close_append (show s.opened = [o] ++ rest from hs) (by simp) fun x hx => ?_
  have hne : x.ref ≠ o.ref := fun heq => absurd (hord.1 x hx) (by rw [heq]; exact Int.lt_irrefl _)
  simp [hne]

end Spans

end PostgresOtel
