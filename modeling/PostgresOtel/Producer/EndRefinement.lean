import PostgresOtel.Producer.Refinement

/-!
# Ends, discards, activations and releases as paths

The calls that take spans off the active stack, and the callbacks that do it for them.  `endedBy`
functions say, from the state before a call, which recording spans it ends.
-/

set_option autoImplicit false

namespace PostgresOtel

open Exec

variable (env : Env)

/-! ## Lookups -/

namespace Lifecycle

/-- The slot a positive handle names, if its span is open. -/
def slotOf (c : Lifecycle) (ref : OtelSpanRef) : Option ℕ :=
  if refIdx ref < c.slots.used ∧ (c.slots.cell (refIdx ref)).gen = refGen ref then
    some (refIdx ref)
  else
    none

/-- The entry a negative handle names, if its span is open. -/
def nrecOf (c : Lifecycle) (ref : OtelSpanRef) : Option ℕ :=
  if refIdx ref < c.nrecs.used ∧ (c.nrecs.cell (refIdx ref)).gen = refGen ref then
    some (refIdx ref)
  else
    none

/-- What a handle that is not null names. -/
def entryOf (c : Lifecycle) (ref : OtelSpanRef) : Option StackRef :=
  if 0 < ref.v then (c.slotOf ref).map .slot else (c.nrecOf ref).map .nrec

/-- The stack entries above the one naming `e`; none if there is no such entry. -/
def above (c : Lifecycle) (e : StackRef) : List StackEntry :=
  if e ∈ c.spanStack.map StackEntry.entry then c.spanStack.takeWhile fun x => x.entry ≠ e else []

/-- A call that changes something is refused. -/
def refuses (c : Lifecycle) (env : Env) : Bool :=
  decide (env.critSectionCount ≠ 0) || decide (0 < c.dispatchDepth)

theorem live_of_slotOf {c : Lifecycle} {ref : OtelSpanRef} {i : ℕ} (hg : 0 < refGen ref)
    (h : c.slotOf ref = some i) : c.LiveSlot i := by
  unfold slotOf at h
  split_ifs at h with hc
  obtain rfl := Option.some.inj h
  refine ⟨hc.1, fun hf => ?_⟩
  have : (c.slots.cell (refIdx ref)).gen = 0 := hf
  omega

theorem live_of_nrecOf {c : Lifecycle} {ref : OtelSpanRef} {i : ℕ} (hg : 0 < refGen ref)
    (h : c.nrecOf ref = some i) : c.LiveNrec i := by
  unfold nrecOf at h
  split_ifs at h with hc
  obtain rfl := Option.some.inj h
  refine ⟨hc.1, fun hf => ?_⟩
  have : (c.nrecs.cell (refIdx ref)).gen = 0 := hf
  omega

theorem live_of_entryOf {c : Lifecycle} {ref : OtelSpanRef} {e : StackRef} (hg : 0 < refGen ref)
    (h : c.entryOf ref = some e) : c.Live e := by
  unfold entryOf at h
  split_ifs at h
  · obtain ⟨i, hi, rfl⟩ := Option.map_eq_some_iff.1 h
    exact live_of_slotOf hg hi
  · obtain ⟨i, hi, rfl⟩ := Option.map_eq_some_iff.1 h
    exact live_of_nrecOf hg hi

end Lifecycle

theorem wp_slotForRef {ref : OtelSpanRef} {Q : Option ℕ → St → Prop} {E : Exn → St → Prop} {s : St}
    (h : ∀ s', s'.core = s.core → Q (s.life.slotOf ref) s') : Wp (slotForRef ref) Q E s := by
  unfold slotForRef
  rw [wp_bind, wp_get, wp_ite]
  refine ⟨fun hc => ?_, fun hc => ?_⟩
  · have : s.life.slotOf ref = some (refIdx ref) := if_pos hc
    rw [this] at h
    exact h s rfl
  · have : s.life.slotOf ref = none := if_neg hc
    rw [this] at h
    rw [wp_ite]
    exact ⟨fun _ => h s rfl, fun _ => h _ rfl⟩

theorem wp_nrecForRef {ref : OtelSpanRef} {Q : Option ℕ → St → Prop} {E : Exn → St → Prop} {s : St}
    (h : ∀ s', s'.core = s.core → Q (s.life.nrecOf ref) s') : Wp (nrecForRef ref) Q E s := by
  unfold nrecForRef
  rw [wp_bind, wp_get, wp_ite]
  refine ⟨fun hc => ?_, fun hc => ?_⟩
  · have : s.life.nrecOf ref = some (refIdx ref) := if_pos hc
    rw [this] at h
    exact h s rfl
  · have : s.life.nrecOf ref = none := if_neg hc
    rw [this] at h
    rw [wp_ite]
    exact ⟨fun _ => h s rfl, fun _ => h _ rfl⟩

theorem wp_callRefused {Q : Bool → St → Prop} {E : Exn → St → Prop} {s : St}
    (h : ∀ s', s'.core = s.core → Q (s.life.refuses env) s') :
    Wp (callRefused env false) Q E s := by
  have hd : s.life.dispatchDepth = s.dispatchDepth := rfl
  unfold callRefused
  rw [wp_bind, wp_get, wp_ite]
  refine ⟨fun hc => ?_, fun hc => ?_⟩
  · have hr : s.life.refuses env = true := by simp [Lifecycle.refuses, hc]
    rw [hr] at h
    exact h _ rfl
  · rw [wp_ite]
    refine ⟨fun hp => ?_, fun hp => ?_⟩
    · have hr : s.life.refuses env = true := by simp [Lifecycle.refuses, hd, hp.1]
      rw [hr] at h
      exact h _ rfl
    · have hr : s.life.refuses env = false := by
        have hp' : ¬ 0 < s.dispatchDepth := fun h0 => hp ⟨h0, rfl⟩
        simpa [Lifecycle.refuses, hd, hc] using hp'
      rw [hr] at h
      exact h s rfl

/-! ## The active stack -/

theorem findIdx_stack (stack : List StackEntry) (e : StackRef) :
    match stack.findIdx? (fun x => x.entry = e) with
    | none => e ∉ stack.map StackEntry.entry
    | some pos => ∃ above x rest, stack = above ++ x :: rest ∧ above.length = pos ∧ x.entry = e ∧
        e ∈ stack.map StackEntry.entry ∧ above = stack.takeWhile fun x => x.entry ≠ e := by
  induction stack with
  | nil => simp
  | cons x stack ih =>
    rw [List.findIdx?_cons]
    by_cases hx : x.entry = e
    · simp only [hx, decide_true, if_true]
      exact ⟨[], x, stack, rfl, rfl, hx, by simp [hx], by simp [hx]⟩
    · simp only [hx, decide_false, Bool.false_eq_true, if_false]
      cases hf : stack.findIdx? fun x => x.entry = e with
      | none =>
        rw [hf] at ih
        simpa [Ne.symm hx] using ih
      | some pos =>
        rw [hf] at ih
        obtain ⟨above, y, rest, hstack, hlen, hy, hmem, habove⟩ := ih
        refine ⟨x :: above, y, rest, by rw [hstack]; rfl, by simp [hlen], hy, ?_, ?_⟩
        · rw [List.map_cons]
          exact List.mem_cons_of_mem _ hmem
        · rw [List.takeWhile_cons, if_pos (by simpa using hx), ← habove]

/-- `stackRemove` takes the entry off the stack and nothing else. -/
theorem wp_stackRemove (e : StackRef) {Q : Unit → St → Prop} {E : Exn → St → Prop} {s : St}
    (hnd : (s.life.spanStack.map StackEntry.entry).Nodup)
    (h : ∀ s' l, s'.life = { s.life with spanStack := l } → l.Sublist s.life.spanStack →
      e ∉ l.map StackEntry.entry → (∀ x ∈ s.life.spanStack, x.entry ≠ e → x ∈ l) →
      s'.backend.errorStack = s.backend.errorStack → Q () s') : Wp (stackRemove e) Q E s := by
  have hfind := findIdx_stack s.life.spanStack e
  unfold stackRemove stackFind
  rw [wp_bind, wp_bind, wp_get, wp_pure]
  rw [show s.spanStack = s.life.spanStack from rfl]
  cases hf : s.life.spanStack.findIdx? fun x => x.entry = e with
  | none =>
    rw [hf] at hfind
    exact h s _ rfl (List.Sublist.refl _) hfind (fun _ hx _ => hx) rfl
  | some pos =>
    rw [hf] at hfind
    obtain ⟨above, x, rest, hstack, hlen, hx, -, -⟩ := hfind
    have herase : s.life.spanStack.eraseIdx pos = above ++ rest := by
      rw [hstack, ← hlen]
      simp [List.eraseIdx_append_of_length_le]
    refine h _ (above ++ rest) ?_ ?_ ?_ ?_ rfl
    · rw [← herase]
      rfl
    · rw [hstack]
      exact (List.Sublist.refl above).append (List.sublist_cons_self x rest)
    · rw [hstack, List.map_append, List.map_cons, hx] at hnd
      rw [List.map_append]
      exact (List.nodup_middle.1 hnd).notMem
    · intro y hy hye
      rw [hstack, List.mem_append, List.mem_cons] at hy
      rw [List.mem_append]
      rcases hy with hy | rfl | hy
      · exact .inl hy
      · exact absurd hx hye
      · exact .inr hy

theorem wp_nonlifoWarning (what : String) (pos : ℕ) (s : St) :
    Wp (nonlifoWarning env what pos)
      (fun _ s' => s'.life = { s.life with nonLifoEnd := s.life.nonLifoEnd + 1 } ∧
        s'.backend.errorStack = s.backend.errorStack) (fun _ _ => False) s := by
  unfold nonlifoWarning
  rw [wp_bind]
  change Wp _ _ _ { s with counters := { s.counters with nonLifoEnd := s.counters.nonLifoEnd + 1 } }
  rw [wp_bind, wp_get, wp_ite]
  refine ⟨fun _ => ⟨rfl, rfl⟩, fun _ => ?_⟩
  rw [wp_bind, wp_modify]
  refine (tame_reportWarning env _).quiet.wp fun _ s' h => ?_
  obtain ⟨hl, he⟩ := St.core_eq h
  exact ⟨hl, he⟩

/-- Taking the entry of an open span off the stack ends what is above it. -/
theorem wp_popEntryAt (what reason : String) (above rest : List StackEntry) (x : StackEntry)
    {s : St} (hstack : s.life.spanStack = above ++ x :: rest) (hinv : PoolInv s.life)
    (hd : s.life.dispatchDepth = 0) :
    Wp (popEntryAt env above.length what reason)
      (fun _ s' => LifePath env.sink s.life s'.life ∧ s'.life.spanStack = rest ∧
        s'.life.dispatchDepth = 0 ∧ s'.life.Live x.entry ∧
        s'.backend.errorStack =
          env.errorsAfter (s.life.endedSerials above) s.backend.errorStack ∧
        ∀ i, StackRef.slot i ∉ above.map StackEntry.entry →
          s'.life.slots.cell i = s.life.slots.cell i)
      (fun _ s' => LifePath env.sink s.life s'.life) s := by
  -- The last pop, from a state whose stack is down to the entry.
  have hpop (s₁ : St) (hstack₁ : s₁.life.spanStack = x :: rest) (hinv₁ : PoolInv s₁.life) :
      LifePath env.sink s₁.life { s₁.life with spanStack := s₁.life.spanStack.tail } ∧
        s₁.life.spanStack.tail = rest ∧ s₁.life.Live x.entry := by
    refine ⟨.single (.unstack s₁.life _ (List.tail_sublist _)), by rw [hstack₁]; rfl, ?_⟩
    exact hinv₁.stack_live x (by rw [hstack₁]; exact List.mem_cons_self)
  unfold popEntryAt
  rw [wp_bind, wp_runIf]
  constructor
  · intro _
    unfold endAbove stackUnwindAbove
    rw [wp_bind]
    refine (wp_nonlifoWarning env what _ s).mono (fun _ s₁ h₁ => ?_) fun _ _ h => h.elim
    have hp₁ : LifePath env.sink s.life s₁.life := by
      rw [h₁.1]
      exact .single (.tally s.life _ s.life.unwound s.life.activationUnwound)
    have hstack₁ : s₁.life.spanStack = above ++ x :: rest := by rw [h₁.1]; exact hstack
    have hkeep : s₁.spanStack.length - above.length = (x :: rest).length := by
      have hs : s₁.spanStack = above ++ x :: rest := hstack₁
      simp [hs]
    have hfuel : above.length ≤ s₁.spanStack.length := by
      have hs : s₁.spanStack = above ++ x :: rest := hstack₁
      simp [hs]
    rw [wp_bind, wp_get, hkeep]
    refine (wp_unwindTo env (cstr reason) (x :: rest) above hstack₁ hfuel (hinv.path hp₁)
      (by rw [h₁.1]; exact hd)).mono (fun _ s₂ h₂ => ?_) fun _ _ h => hp₁.trans h
    obtain ⟨hp₂, hs₂, hd₂, he₂, hc₂⟩ := h₂
    obtain ⟨hp₃, hs₃, hl₃⟩ := hpop s₂ hs₂ ((hinv.path hp₁).path hp₂)
    refine ⟨(hp₁.trans hp₂).trans hp₃, hs₃, hd₂, hl₃, ?_, fun i hi => ?_⟩
    · have hsame : s₁.life.endedSerials above = s.life.endedSerials above :=
        Lifecycle.endedSerials_congr fun i _ => by rw [h₁.1]
      rw [← hsame, ← h₁.2]
      exact he₂
    · have := hc₂ i hi
      rw [h₁.1] at this
      exact this
  · intro hne
    have hnil : above = [] := List.eq_nil_of_length_eq_zero (by simpa using hne)
    subst hnil
    obtain ⟨hp, hs, hl⟩ := hpop s hstack hinv
    exact ⟨hp, hs, hd, hl, rfl, fun _ _ => rfl⟩

theorem Lifecycle.not_mem_above {c : Lifecycle} {e : StackRef} :
    e ∉ (c.above e).map StackEntry.entry := by
  unfold Lifecycle.above
  split_ifs
  · intro h
    obtain ⟨x, hx, rfl⟩ := List.mem_map.1 h
    simpa using List.all_eq_true.1 List.all_takeWhile x hx
  · simp

/-- Taking an ended span off the stack, wherever on it or off it the span is. -/
theorem wp_popEnded (e : StackRef) (what : String) {s : St} (hinv : PoolInv s.life)
    (hd : s.life.dispatchDepth = 0) (hl : s.life.Live e) :
    Wp (popEnded env e what)
      (fun _ s' => LifePath env.sink s.life s'.life ∧ s'.life.Live e ∧ ¬ s'.life.OnStack e ∧
        s'.life.dispatchDepth = 0 ∧
        s'.backend.errorStack =
          env.errorsAfter (s.life.endedSerials (s.life.above e)) s.backend.errorStack ∧
        ∀ i, e = .slot i → s'.life.slots.cell i = s.life.slots.cell i)
      (fun _ s' => LifePath env.sink s.life s'.life) s := by
  have hfind := findIdx_stack s.life.spanStack e
  unfold popEnded stackFind
  rw [wp_bind, wp_bind, wp_get, wp_pure]
  rw [show s.spanStack = s.life.spanStack from rfl]
  cases hf : s.life.spanStack.findIdx? fun x => x.entry = e with
  | none =>
    rw [hf] at hfind
    have habove : s.life.above e = [] := if_neg hfind
    rw [habove]
    exact ⟨.refl, hl, hfind, hd, rfl, fun _ _ => rfl⟩
  | some pos =>
    rw [hf] at hfind
    obtain ⟨above, x, rest, hstack, rfl, rfl, hmem, habove⟩ := hfind
    have habove' : s.life.above x.entry = above := (if_pos hmem).trans habove.symm
    have hnot := Lifecycle.not_mem_above (c := s.life) (e := x.entry)
    rw [habove'] at hnot ⊢
    refine (wp_popEntryAt env what _ above rest x hstack hinv hd).mono (fun _ s' h => ?_)
      fun _ _ h => h
    obtain ⟨hp, hs, hd', hl', he, hc⟩ := h
    refine ⟨hp, hl', ?_, hd', he, fun i hi => hc i (hi ▸ hnot)⟩
    have hnd := hinv.stack_nodup
    rw [hstack, List.map_append, List.map_cons] at hnd
    have hnm := (List.nodup_middle.1 hnd).notMem
    unfold Lifecycle.OnStack
    rw [hs]
    exact fun hm => hnm (List.mem_append_right _ hm)

/-! ## `api_span_end` -/

/-- The serial of the span an entry names; a non-recording span has none. -/
def Lifecycle.serials (c : Lifecycle) : StackRef → List ℕ
  | .slot i => [(c.slots.cell i).serial]
  | .nrec _ => []

/-- The recording spans that `api_span_end` ends. -/
def Lifecycle.endedByEnd (c : Lifecycle) (env : Env) (ref : OtelSpanRef) : List ℕ :=
  if c.refuses env ∨ ref.v = 0 then
    []
  else
    match c.entryOf ref with
    | none => []
    | some e => c.endedSerials (c.above e) ++ c.serials e

theorem Lifecycle.depth_of_not_refuses {c : Lifecycle} (h : ¬ c.refuses env = true) :
    c.dispatchDepth = 0 := by
  simp only [Lifecycle.refuses, Bool.or_eq_true, decide_eq_true_eq, not_or] at h
  omega

theorem OtelSpanRef.Issued.gen_pos {ref : OtelSpanRef} (h : ref.Issued) (hv : ref.v ≠ 0) :
    0 < refGen ref := h.resolve_left hv

theorem follows_apiSpanEnd (ref : OtelSpanRef) (endTime : TimestampTz) {s : St}
    (hinv : PoolInv s.life) (href : ref.Issued) :
    Follows env s (s.life.endedByEnd env ref) (apiSpanEnd env ref endTime) := by
  unfold apiSpanEnd Follows Lifecycle.endedByEnd
  rw [wp_bind]
  refine wp_callRefused env fun s₁ h₁ => ?_
  obtain ⟨hl₁, he₁⟩ := St.core_eq h₁
  rw [wp_ite]
  refine ⟨fun hr => ?_, fun hr => ?_⟩
  · rw [if_pos hr]
    exact ⟨.of_eq hl₁, he₁⟩
  rw [if_neg hr]
  rw [not_or] at hr
  have hg := href.gen_pos hr.2
  have hd : s.life.dispatchDepth = 0 := Lifecycle.depth_of_not_refuses env hr.1
  rw [← hl₁] at hinv hd ⊢
  rw [← he₁]
  rw [wp_ite]
  constructor
  · intro hneg
    have hentry : s₁.life.entryOf ref = (s₁.life.nrecOf ref).map .nrec := if_neg (by omega)
    rw [hentry, wp_bind]
    refine wp_nrecForRef fun s₂ h₂ => ?_
    obtain ⟨hl₂, he₂⟩ := St.core_eq h₂
    cases hn : s₁.life.nrecOf ref with
    | none => exact ⟨.of_eq hl₂, he₂⟩
    | some i =>
      have hlive : s₂.life.Live (.nrec i) := by
        rw [hl₂]
        exact Lifecycle.live_of_nrecOf hg hn
      rw [← hl₂] at hinv hd ⊢
      rw [← he₂]
      rw [wp_bind]
      refine (wp_popEnded env (.nrec i) _ hinv hd hlive).mono (fun _ s₃ h₃ => ?_) fun _ _ h => h
      obtain ⟨hp₃, hl₃, ho₃, -, he₃, -⟩ := h₃
      refine wp_freeNrec i false fun s₄ hs₄ he₄ => ⟨?_, ?_⟩
      · rw [hs₄]
        exact hp₃.tail (.freeNrec s₃.life i _ hl₃ ho₃)
      · rw [he₄, he₃]
        simp [Lifecycle.serials]
  · intro hpos
    have hentry : s₁.life.entryOf ref = (s₁.life.slotOf ref).map .slot :=
      if_pos (by have := hr.2; omega)
    rw [hentry, wp_bind]
    refine wp_slotForRef fun s₂ h₂ => ?_
    obtain ⟨hl₂, he₂⟩ := St.core_eq h₂
    cases hn : s₁.life.slotOf ref with
    | none => exact ⟨.of_eq hl₂, he₂⟩
    | some i =>
      have hlive : s₂.life.Live (.slot i) := by
        rw [hl₂]
        exact Lifecycle.live_of_slotOf hg hn
      rw [← hl₂] at hinv hd ⊢
      rw [← he₂]
      rw [wp_bind]
      refine (wp_popEnded env (.slot i) _ hinv hd hlive).mono (fun _ s₃ h₃ => ?_) fun _ _ h => h
      obtain ⟨hp₃, hl₃, ho₃, hd₃, he₃, hc₃⟩ := h₃
      have hnd := (hinv.path hp₃).not_dispatching hd₃ i hl₃
      refine (follows_endSlot env i endTime false none hl₃ ho₃ hnd).mono
        (fun _ s₄ h₄ => ⟨hp₃.trans h₄.1, ?_⟩) fun _ _ h => hp₃.trans h
      rw [h₄.2, he₃, Env.errorsAfter_append, hc₃ i rfl]
      rfl

/-! ## `api_span_discard` -/

theorem follows_apiSpanDiscard (ref : OtelSpanRef) {s : St} (hinv : PoolInv s.life)
    (href : ref.Issued) : Follows env s [] (apiSpanDiscard env ref) := by
  unfold apiSpanDiscard Follows
  rw [wp_bind]
  refine wp_callRefused env fun s₁ h₁ => ?_
  obtain ⟨hl₁, he₁⟩ := St.core_eq h₁
  rw [wp_ite]
  refine ⟨fun _ => ⟨.of_eq hl₁, he₁⟩, fun hr => ?_⟩
  rw [not_or] at hr
  have hg := href.gen_pos hr.2
  have hd : s.life.dispatchDepth = 0 := Lifecycle.depth_of_not_refuses env hr.1
  rw [← hl₁] at hinv hd ⊢
  rw [← he₁, Env.errorsAfter_nil, wp_ite]
  constructor
  · intro hneg
    rw [wp_bind]
    refine wp_nrecForRef fun s₂ h₂ => ?_
    obtain ⟨hl₂, he₂⟩ := St.core_eq h₂
    cases hn : s₁.life.nrecOf ref with
    | none => exact ⟨.of_eq hl₂, he₂⟩
    | some i =>
      have hlive : s₂.life.LiveNrec i := by
        rw [hl₂]
        exact Lifecycle.live_of_nrecOf hg hn
      rw [← hl₂] at hinv ⊢
      rw [← he₂]
      rw [wp_bind]
      refine wp_stackRemove (.nrec i) hinv.stack_nodup fun s₃ l hl₃ hsub hoff _ he₃ => ?_
      have hp₃ : LifePath env.sink s₂.life s₃.life := by
        rw [hl₃]
        exact .single (.unstack s₂.life l hsub)
      rw [wp_bind]
      refine wp_freeNrec i false fun s₄ hs₄ he₄ => ⟨?_, he₄.trans he₃⟩
      refine hp₃.tail ?_
      change LifeStep env.sink s₃.life s₄.life
      rw [hs₄]
      exact .freeNrec s₃.life i _ (by rw [hl₃]; exact hlive) (by rw [hl₃]; exact hoff)
  · intro hpos
    rw [wp_bind]
    refine wp_slotForRef fun s₂ h₂ => ?_
    obtain ⟨hl₂, he₂⟩ := St.core_eq h₂
    cases hn : s₁.life.slotOf ref with
    | none => exact ⟨.of_eq hl₂, he₂⟩
    | some i =>
      have hlive : s₂.life.LiveSlot i := by
        rw [hl₂]
        exact Lifecycle.live_of_slotOf hg hn
      rw [← hl₂] at hinv hd ⊢
      rw [← he₂]
      rw [wp_bind]
      refine wp_stackRemove (.slot i) hinv.stack_nodup fun s₃ l hl₃ hsub hoff _ he₃ => ?_
      have hp₃ : LifePath env.sink s₂.life s₃.life := by
        rw [hl₃]
        exact .single (.unstack s₂.life l hsub)
      rw [wp_bind]
      refine (wp_releaseSlot env i false .discarded s₃).mono (fun _ s₄ h₄ => ⟨?_, h₄.2.trans he₃⟩)
        fun _ s₄ h₄ => ?_
      · refine hp₃.tail ?_
        change LifeStep env.sink s₃.life s₄.life
        rw [h₄.1]
        exact .discard s₃.life i (by rw [hl₃]; exact hlive) (by rw [hl₃]; exact hoff)
          (by rw [hl₃]; exact hinv.not_dispatching hd i hlive)
      · rw [h₄.2.2.2]
        exact hp₃

/-! ## Activations -/

theorem wp_activationTarget {ref : OtelSpanRef} {Q : Option ActivationTarget → St → Prop}
    {E : Exn → St → Prop} {s : St}
    (h : ∀ s' t, s'.core = s.core →
      t.map ActivationTarget.entry = s.life.entryOf ref →
      (∀ x, t = some x → x.detached = s.life.detached x.entry) → Q t s') :
    Wp (activationTarget ref) Q E s := by
  unfold activationTarget
  unfold Lifecycle.entryOf at h
  rw [wp_ite]
  refine ⟨fun hv => ?_, fun hv => ?_⟩
  · rw [wp_bind]
    refine wp_slotForRef fun s' hs' => ?_
    obtain ⟨hl, -⟩ := St.core_eq hs'
    cases hi : s.life.slotOf ref with
    | none => exact h s' none hs' (by rw [if_pos hv, hi]; rfl) (by simp)
    | some i =>
      refine h s' _ hs' (by rw [if_pos hv, hi]; rfl) fun x hx => ?_
      obtain rfl := Option.some.inj hx
      change (s'.life.slots.cell i).detached = (s.life.slots.cell i).detached
      rw [hl]
  · rw [wp_bind]
    refine wp_nrecForRef fun s' hs' => ?_
    obtain ⟨hl, -⟩ := St.core_eq hs'
    cases hi : s.life.nrecOf ref with
    | none => exact h s' none hs' (by rw [if_neg hv, hi]; rfl) (by simp)
    | some i =>
      refine h s' _ hs' (by rw [if_neg hv, hi]; rfl) fun x hx => ?_
      obtain rfl := Option.some.inj hx
      change (s'.life.nrecs.cell i).detached = (s.life.nrecs.cell i).detached
      rw [hl]

theorem follows_apiSpanActivate (ref : OtelSpanRef) {s : St} (href : ref.Issued) :
    Follows env s [] (apiSpanActivate env ref) := by
  unfold apiSpanActivate Follows
  rw [wp_bind, Env.errorsAfter_nil]
  refine wp_callRefused env fun s₁ h₁ => ?_
  obtain ⟨hl₁, he₁⟩ := St.core_eq h₁
  rw [wp_ite]
  refine ⟨fun _ => ⟨.of_eq hl₁, he₁⟩, fun hr => ?_⟩
  rw [not_or] at hr
  rw [wp_bind]
  refine wp_activationTarget fun s₂ t h₂ ht hdet => ?_
  obtain ⟨hl₂, he₂⟩ := St.core_eq h₂
  have hl : s₂.life = s.life := hl₂.trans hl₁
  have he : s₂.backend.errorStack = s.backend.errorStack := he₂.trans he₁
  cases t with
  | none => exact ⟨.of_eq hl, he⟩
  | some t =>
    have hlive : s₂.life.Live t.entry := by
      rw [hl₂]
      exact Lifecycle.live_of_entryOf (href.gen_pos hr.2) ht.symm
    change Wp (if (!t.detached) = true then _ else _) _ _ s₂
    rw [wp_ite]
    refine ⟨fun _ => ⟨.of_eq hl, he⟩, fun hd => ?_⟩
    unfold stackFind
    rw [wp_bind, wp_bind, wp_get, wp_pure, wp_bind, wp_get, wp_ite]
    refine ⟨fun _ => ⟨.of_eq hl, he⟩, fun hfind => ?_⟩
    rw [wp_ite]
    refine ⟨fun _ => ⟨.of_eq hl, he⟩, fun hlt => ⟨?_, he⟩⟩
    rw [← hl]
    refine .single (.push s₂.life ⟨t.entry, true, env.currentTransactionNestLevel⟩ hlive ?_ ?_ ?_)
    · have hnone := findIdx_stack s₂.life.spanStack t.entry
      have hf : s₂.life.spanStack.findIdx? (fun x => x.entry = t.entry) = none := by
        have hfind' : ¬ (s₂.life.spanStack.findIdx? fun x => x.entry = t.entry).isSome := hfind
        simpa using hfind'
      rw [hf] at hnone
      exact hnone
    · exact Nat.lt_of_not_le hlt
    · have := hdet t rfl
      rw [← hl₂] at this
      rw [← this]
      simpa using hd

/-- The recording spans that `api_span_deactivate` ends. -/
def Lifecycle.endedByDeactivate (c : Lifecycle) (env : Env) (tok : OtelActivation) : List ℕ :=
  if c.refuses env ∨ tok.v = 0 then
    []
  else
    match c.entryOf ⟨tok.v⟩ with
    | none => []
    | some e => c.endedSerials (c.above e)

theorem wp_entryForRef {ref : OtelSpanRef} {Q : Option StackRef → St → Prop} {E : Exn → St → Prop}
    {s : St} (h : ∀ s', s'.core = s.core → Q (s.life.entryOf ref) s') :
    Wp (entryForRef ref) Q E s := by
  unfold entryForRef
  unfold Lifecycle.entryOf at h
  rw [wp_ite]
  refine ⟨fun hv => ?_, fun hv => ?_⟩
  · rw [if_pos hv] at h
    rw [wp_bind]
    exact wp_slotForRef fun s' hs' => h s' hs'
  · rw [if_neg hv] at h
    rw [wp_bind]
    exact wp_nrecForRef fun s' hs' => h s' hs'

theorem follows_apiSpanDeactivate (tok : OtelActivation) {s : St} (hinv : PoolInv s.life) :
    Follows env s (s.life.endedByDeactivate env tok) (apiSpanDeactivate env tok) := by
  unfold apiSpanDeactivate Follows Lifecycle.endedByDeactivate
  rw [wp_bind]
  refine wp_callRefused env fun s₁ h₁ => ?_
  obtain ⟨hl₁, he₁⟩ := St.core_eq h₁
  rw [wp_ite]
  refine ⟨fun hr => ?_, fun hr => ?_⟩
  · rw [if_pos hr]
    exact ⟨.of_eq hl₁, he₁⟩
  rw [if_neg hr]
  rw [not_or] at hr
  have hd : s.life.dispatchDepth = 0 := Lifecycle.depth_of_not_refuses env hr.1
  rw [wp_bind]
  refine wp_entryForRef fun s₂ h₂ => ?_
  obtain ⟨hl₂, he₂⟩ := St.core_eq h₂
  have hl : s₂.life = s.life := hl₂.trans hl₁
  rw [hl₁]
  rw [← hl] at hinv hd ⊢
  rw [← he₁, ← he₂]
  cases s₂.life.entryOf ⟨tok.v⟩ with
  | none => exact ⟨.refl, rfl⟩
  | some e =>
    have hfind := findIdx_stack s₂.life.spanStack e
    unfold stackFind
    dsimp only
    rw [wp_bind, wp_bind, wp_get, wp_pure]
    have hspan : s₂.spanStack = s₂.life.spanStack := rfl
    rw [hspan]
    cases hf : s₂.life.spanStack.findIdx? fun x => x.entry = e with
    | none =>
      rw [hf] at hfind
      have habove : s₂.life.above e = [] := if_neg hfind
      rw [habove]
      exact ⟨.refl, rfl⟩
    | some pos =>
      rw [hf] at hfind
      obtain ⟨above, x, rest, hstack, rfl, rfl, hmem, habove⟩ := hfind
      have habove' : s₂.life.above x.entry = above := (if_pos hmem).trans habove.symm
      rw [habove']
      exact (wp_popEntryAt env _ _ above rest x hstack hinv hd).mono
        (fun _ s' h => ⟨h.1, h.2.2.2.2.1⟩) fun _ _ h => h

/-! ## Release by the resource owner -/

/-- The recording span that its owner's release ends: one that is neither reported as leaked nor
being dispatched already. -/
def Lifecycle.endedByRelease (c : Lifecycle) (ref : OtelSpanRef) (isCommit : Bool) : List ℕ :=
  match c.slotOf ref with
  | none => []
  | some i => if isCommit ∨ (c.slots.cell i).dispatching then [] else [(c.slots.cell i).serial]

namespace Lifecycle

/-- Slot `i` loses its owner, and the stack shrinks to `l`. -/
def disown (c : Lifecycle) (i : ℕ) (l : List StackEntry) : Lifecycle :=
  { c with
    slots := c.slots.set i { c.slots.cell i with owner := none }
    spanStack := l }

/-- Slot `i` with its leak mark set to `b`. -/
def setLeaked (c : Lifecycle) (i : ℕ) (b : Bool) : Lifecycle :=
  { c with slots := c.slots.set i { c.slots.cell i with leaked := b } }

variable {c : Lifecycle} {i : ℕ} {l : List StackEntry} {b : Bool}

theorem disown_live : (c.disown i l).LiveSlot i ↔ c.LiveSlot i := Pool.live_set_iff Iff.rfl

theorem disown_cell : (c.disown i l).slots.cell i = { c.slots.cell i with owner := none } :=
  Pool.set_cell_self

theorem setLeaked_cell : (c.setLeaked i b).slots.cell i = { c.slots.cell i with leaked := b } :=
  Pool.set_cell_self

/-- A slot that is freed takes its leak mark with it. -/
theorem freeSlot_setLeaked (released : ℕ) (fate : Fate) :
    (c.setLeaked i b).freeSlot i released fate = c.freeSlot i released fate := by
  simp [setLeaked, freeSlot, Pool.set, Pool.put]

theorem setLeaked_self (h : (c.slots.cell i).leaked = b) : c.setLeaked i b = c := by
  unfold setLeaked
  rw [← h]
  exact congrArg (fun p => { c with slots := p }) Pool.set_eq_self

end Lifecycle

open Lifecycle

/-- Leaving the stack, losing the owner. -/
theorem path_disown {c : Lifecycle} {l : List StackEntry} (i : ℕ) (hsub : l.Sublist c.spanStack) :
    LifePath env.sink c (c.disown i l) :=
  .tail (.single (.mark c i (c.slots.cell i).ownerReleasedGen none)) (.unstack _ l hsub)

/-- The two ways in which a release callback frees a slot without dispatching its span. -/
theorem wp_countRelease (i : ℕ) (fate : Fate) (f : OtelApiCounters → OtelApiCounters) (s : St)
    (hf : ({ s with counters := f s.counters } : St).life =
      { s.life with
        leaked := if fate = .leaked then s.life.leaked + 1 else s.life.leaked
        dropped := if fate = .dropped then s.life.dropped + 1 else s.life.dropped }) :
    Wp (do
        modifyCounters f
        releaseSlot env i true fate)
      (fun _ s' => s'.life = s.life.freeSlot i (s.life.slots.cell i).gen fate ∧
        s'.backend.errorStack = s.backend.errorStack)
      (fun _ _ => False) s := by
  rw [wp_bind]
  change Wp _ _ _ { s with counters := f s.counters }
  refine (wp_releaseSlot env i true fate _).mono (fun _ s' h => ⟨?_, h.2⟩) fun _ s' h => ?_
  · rw [h.1, hf]
    rfl
  · exact absurd h.2.1 (by decide)

/-- The release callback, for a span with or without the mark of a leak.  The path goes through the
states without the mark, which nothing but the callback itself looks at. -/
theorem wp_releaseSpan (ref : OtelSpanRef) {c : Lifecycle} {i : ℕ} {leaked : Bool} {s : St}
    (hs : s.life = c.setLeaked i leaked) (hinv : PoolInv c) (hi : c.slotOf ref = some i)
    (hl : c.LiveSlot i) (hdisp : leaked = true → (c.slots.cell i).dispatching = false) :
    Wp (otelSpanReleaseResource env ref)
      (fun _ s' => LifePath env.sink c s'.life ∧
        s'.backend.errorStack = env.errorsAfter
          (if leaked ∨ (c.slots.cell i).dispatching then [] else [(c.slots.cell i).serial])
          s.backend.errorStack)
      (fun _ s' => LifePath env.sink c s'.life) s := by
  unfold Lifecycle.slotOf at hi
  split_ifs at hi with hmatch
  obtain rfl := Option.some.inj hi
  have hcell : (s.slots (refIdx ref)).toSlotLife =
      { c.slots.cell (refIdx ref) with leaked := leaked } := by
    change s.life.slots.cell (refIdx ref) = _
    rw [hs, setLeaked_cell]
  have hmatch' : refIdx ref < s.slotsUsed ∧ (s.slots (refIdx ref)).gen = refGen ref := by
    refine ⟨?_, (congrArg SlotLife.gen hcell).trans hmatch.2⟩
    change refIdx ref < s.life.slots.used
    rw [hs]
    exact hmatch.1
  unfold otelSpanReleaseResource
  rw [wp_bind, wp_get, wp_ite]
  refine ⟨fun hn => absurd hmatch' hn, fun _ => ?_⟩
  rw [wp_bind]
  refine wp_modifySlot fun s₁ hl₁ he₁ => ?_
  have hlife₁ : s₁.life = (c.disown (refIdx ref) c.spanStack).setLeaked (refIdx ref) leaked := by
    rw [hl₁]
    simp only [hcell, hs]
    simp [setLeaked, disown, Pool.set]
  rw [wp_bind]
  refine wp_stackRemove (.slot (refIdx ref)) (by rw [hlife₁]; exact hinv.stack_nodup)
    fun s₂ l hl₂ hsub hoff _ he₂ => ?_
  have hlife₂ : s₂.life = (c.disown (refIdx ref) l).setLeaked (refIdx ref) leaked := by
    rw [hl₂, hlife₁]
    rfl
  rw [hlife₁] at hsub
  have herr : s₂.backend.errorStack = s.backend.errorStack := he₂.trans he₁
  have hpath := path_disown env (c := c) (refIdx ref) hsub
  have hlive := disown_live (c := c) (i := refIdx ref) (l := l)
  have hoff' : ¬ (c.disown (refIdx ref) l).OnStack (.slot (refIdx ref)) := hoff
  have hgen : (s₂.life.slots.cell (refIdx ref)).gen =
      ((c.disown (refIdx ref) l).slots.cell (refIdx ref)).gen := by
    rw [hlife₂, setLeaked_cell]
  have hdispatching : ((c.disown (refIdx ref) l).slots.cell (refIdx ref)).dispatching =
      (c.slots.cell (refIdx ref)).dispatching := by rw [disown_cell]
  rw [wp_ite, congrArg SlotLife.leaked hcell]
  refine ⟨fun hk => ?_, fun hk => ?_⟩
  · refine (wp_countRelease env _ .leaked _ s₂ rfl).mono (fun _ s₃ h₃ => ⟨hpath.tail ?_, ?_⟩)
      fun _ _ h => h.elim
    · rw [h₃.1, hgen, hlife₂, freeSlot_setLeaked]
      exact .leak _ _ (hlive.2 hl) hoff' (hdispatching.trans (hdisp hk))
    · rw [h₃.2, if_pos (.inl hk), herr, Env.errorsAfter_nil]
  rw [wp_ite, congrArg SlotLife.dispatching hcell]
  refine ⟨fun hd => ?_, fun hd => ?_⟩
  · refine (wp_countRelease env _ .dropped _ s₂ rfl).mono (fun _ s₃ h₃ => ⟨hpath.tail ?_, ?_⟩)
      fun _ _ h => h.elim
    · rw [h₃.1, hgen, hlife₂, freeSlot_setLeaked]
      exact .drop _ _ (hlive.2 hl) hoff' (hdispatching.trans hd)
    · rw [h₃.2, if_pos (.inr hd), herr, Env.errorsAfter_nil]
  · have hk' : leaked = false := by simpa using hk
    have hd' : (c.slots.cell (refIdx ref)).dispatching = false := by simpa using hd
    have hlife₂' : s₂.life = c.disown (refIdx ref) l := by
      rw [hlife₂, hk']
      refine setLeaked_self ?_
      rw [disown_cell]
      exact (hinv.unmarked _ hl.1).1
    rw [← hlife₂'] at hpath hlive hdispatching hoff'
    have hserial : (s₂.life.slots.cell (refIdx ref)).serial =
        (c.slots.cell (refIdx ref)).serial := by rw [hlife₂', disown_cell]
    rw [wp_bind]
    refine (follows_endSlot env (refIdx ref) 0 true _ (hlive.2 hl) hoff'
      (hdispatching.trans hd')).mono (fun _ s₃ h₃ => ?_) fun _ _ h => hpath.trans h
    refine wp_modifySlot fun s₄ hl₄ he₄ => ⟨(hpath.trans h₃.1).tail ?_, ?_⟩
    · rw [hl₄]
      exact .mark s₃.life (refIdx ref) (s.slots (refIdx ref)).gen
        (s₃.life.slots.cell (refIdx ref)).owner
    · rw [he₄, h₃.2, herr, hserial, if_neg (by simp [hk', hd'])]

theorem wp_reportLeak (ref : OtelSpanRef) (s : St) :
    Wp (reportLeak env ref)
      (fun _ s' => s'.life = (match s.life.slotOf ref with
          | none => s.life
          | some i => s.life.setLeaked i true) ∧
        s'.backend.errorStack = s.backend.errorStack) (fun _ _ => False) s := by
  unfold reportLeak otelSpanDebugPrint Lifecycle.slotOf
  rw [wp_bind, wp_bind, wp_get]
  by_cases hmatch : refIdx ref < s.slotsUsed ∧ (s.slots (refIdx ref)).gen = refGen ref
  · have hmatch' : refIdx ref < s.life.slots.used ∧
        (s.life.slots.cell (refIdx ref)).gen = refGen ref := hmatch
    simp only [hmatch, and_self, if_true]
    rw [if_pos hmatch', wp_bind]
    refine wp_modifySlot fun s₁ hl₁ he₁ => (tame_reportWarning env _).quiet.wp fun _ s₂ h₂ => ?_
    obtain ⟨hl₂, he₂⟩ := St.core_eq h₂
    exact ⟨hl₂.trans hl₁, he₂.trans he₁⟩
  · have hmatch' : ¬ (refIdx ref < s.life.slots.used ∧
        (s.life.slots.cell (refIdx ref)).gen = refGen ref) := hmatch
    simp only [hmatch, if_false]
    rw [if_neg hmatch']
    exact (tame_reportWarning env _).quiet.wp fun _ s₂ h₂ => St.core_eq h₂

/-- One resource released by its owner.  A commit does not come after a `FATAL`. -/
theorem follows_resourceOwnerRelease (owner : ResourceOwner) (ref : OwnedRef) (isCommit : Bool)
    {s : St} (hinv : PoolInv s.life) (hd : isCommit = true → s.life.dispatchDepth = 0) :
    Follows env s (s.life.endedByRelease ref.1 isCommit)
      (resourceOwnerRelease env owner ref isCommit) := by
  have hforget (s' : St) : Wp (modify fun s : St => { s with
      owners := Function.update s.owners owner ((s.owners owner).erase ref) } : M Unit)
      (fun _ s'' => s''.life = s'.life ∧ s''.backend.errorStack = s'.backend.errorStack)
      (fun _ _ => False) s' := ⟨rfl, rfl⟩
  have hreport : Wp (runIf (isCommit = true) (reportLeak env ref.1))
      (fun _ s' => s'.life = (match s.life.slotOf ref.1 with
          | none => s.life
          | some i => if isCommit then s.life.setLeaked i true else s.life) ∧
        s'.backend.errorStack = s.backend.errorStack) (fun _ _ => False) s := by
    rw [wp_runIf]
    constructor
    · intro hc
      simp only [hc, if_true]
      exact wp_reportLeak env ref.1 s
    · intro hc
      cases s.life.slotOf ref.1 <;> simp [hc]
  unfold resourceOwnerRelease Follows
  rw [wp_bind]
  refine hreport.mono (fun _ s₁ h₁ => ?_) fun _ _ h => h.elim
  rw [wp_bind]
  unfold Lifecycle.endedByRelease
  cases hi : s.life.slotOf ref.1 with
  | none =>
    rw [hi] at h₁
    have hmiss : ¬ (refIdx ref.1 < s₁.slotsUsed ∧
        (s₁.slots (refIdx ref.1)).gen = refGen ref.1) := by
      intro hm
      have : s₁.life.slotOf ref.1 = some (refIdx ref.1) := if_pos hm
      rw [h₁.1, hi] at this
      cases this
    unfold otelSpanReleaseResource
    rw [wp_bind, wp_get, wp_ite]
    exact ⟨fun _ => ⟨.of_eq h₁.1, h₁.2⟩, fun hn => absurd hmiss hn⟩
  | some i =>
    rw [hi] at h₁
    have hl : s.life.LiveSlot i := live_of_slotOf ref.2 hi
    have hlife : s₁.life = s.life.setLeaked i isCommit := by
      rw [h₁.1]
      cases isCommit with
      | true => rfl
      | false => exact (setLeaked_self (hinv.unmarked i hl.1).1).symm
    refine (wp_releaseSpan env ref.1 hlife hinv hi hl
      fun hc => hinv.not_dispatching (hd hc) i hl).mono (fun _ s₂ h₂ => ?_) fun _ _ h => h
    refine (hforget s₂).mono (fun _ s₃ h₃ => ?_) fun _ _ h => h.elim
    rw [h₃.1, h₃.2, ← h₁.2]
    exact h₂

/-! ## Transaction callbacks -/

/-- No non-recording span on the stack is from level `level` or deeper. -/
def Lifecycle.NrecsBelow (c : Lifecycle) (level : ℕ) : Prop :=
  ∀ i, c.OnStack (.nrec i) → (c.nrecs.cell i).nestLevel < level

theorem follows_freeNrecsFromLevel (level : ℕ) (idxs : List ℕ) {s : St}
    (hidx : ∀ i ∈ idxs, i < s.life.nrecs.used) (hb : s.life.NrecsBelow level) :
    Follows env s [] (freeNrecsFromLevel level idxs) := by
  induction idxs generalizing s with
  | nil => exact ⟨.refl, rfl⟩
  | cons i rest ih =>
    have hrest : ∀ j ∈ rest, j < s.life.nrecs.used := fun j hj => hidx j (List.mem_cons_of_mem _ hj)
    unfold freeNrecsFromLevel Follows
    rw [wp_bind, wp_get, wp_bind, wp_runIf]
    refine ⟨fun hc => ?_, fun _ => ih hrest hb⟩
    refine wp_freeNrec i true fun s₁ hl₁ he₁ => ?_
    have hgen : ¬ (s.life.nrecs.cell i).Free := hc.1
    have hlevel : level ≤ (s.life.nrecs.cell i).nestLevel := hc.2
    have hoff : ¬ s.life.OnStack (.nrec i) := fun hon => absurd (hb i hon) (by omega)
    have hstep : LifePath env.sink s.life s₁.life := by
      rw [hl₁]
      exact .single (.freeNrec s.life i _ ⟨hidx i List.mem_cons_self, hgen⟩ hoff)
    have hb₁ : s₁.life.NrecsBelow level := by
      intro j hj
      rw [hl₁] at hj ⊢
      have hji : j ≠ i := by
        rintro rfl
        exact hoff hj
      have hcell : ((s.life.freeNrec i (s.life.nrecs.cell i).gen).nrecs.cell j) =
          s.life.nrecs.cell j := Pool.put_cell_of_ne hji
      simp only [if_true, hcell]
      exact hb j hj
    refine (ih (by rw [hl₁]; exact hrest) hb₁).mono (fun _ s₂ h₂ => ?_) fun _ _ h => hstep.trans h
    exact ⟨hstep.trans h₂.1, h₂.2.trans he₁⟩

theorem follows_dropNrecsFromLevel (level : ℕ) (s : St) :
    Follows env s [] (dropNrecsFromLevel level) := by
  unfold dropNrecsFromLevel Follows
  rw [wp_bind, wp_modify, wp_bind, wp_get]
  have hstep : LifePath env.sink s.life
      { s.life with spanStack := s.spanStack.filter fun e => !nrecFromLevel s level e } :=
    .single (.unstack s.life _ List.filter_sublist)
  refine (follows_freeNrecsFromLevel env level _ ?_ ?_).mono
    (fun _ s₂ h₂ => ⟨hstep.trans h₂.1, h₂.2⟩) fun _ _ h => hstep.trans h
  · exact fun i hi => List.mem_range.1 hi
  · intro i hi
    obtain ⟨e, he, hei⟩ := List.mem_map.1 hi
    have hlevel := (List.mem_filter.1 he).2
    change (s.nrecs i).nestLevel < level
    simpa [nrecFromLevel, hei] using hlevel

theorem follows_dropActivationsFromLevel (level : ℕ) (isLeak : Bool) (s : St) :
    Follows env s [] (dropActivationsFromLevel level isLeak) := by
  unfold dropActivationsFromLevel Follows
  rw [wp_bind, wp_get, wp_bind, wp_modify, wp_runIf]
  have hstep (l : List StackEntry) (h : l.Sublist s.spanStack) :
      LifePath env.sink s.life { s.life with spanStack := l } := .single (.unstack s.life _ h)
  exact ⟨fun _ => ⟨hstep _ List.filter_sublist, rfl⟩, fun _ => ⟨hstep _ List.filter_sublist, rfl⟩⟩

theorem follows_dropFromLevel (level : ℕ) (isLeak : Bool) (s : St) :
    Follows env s [] (do
      dropNrecsFromLevel level
      dropActivationsFromLevel level isLeak) := by
  unfold Follows
  rw [wp_bind]
  refine (follows_dropNrecsFromLevel env level s).mono (fun _ s₁ h₁ => ?_) fun _ _ h => h
  refine (follows_dropActivationsFromLevel env level isLeak s₁).mono (fun _ s₂ h₂ => ?_)
    fun _ _ h => h₁.1.trans h
  exact ⟨h₁.1.trans h₂.1, h₂.2.trans h₁.2⟩

theorem follows_otelXactCallback (event : XactEvent) (s : St) :
    Follows env s [] (otelXactCallback event) := by
  cases event with
  | commit => exact follows_dropFromLevel env 1 true s
  | parallelCommit => exact follows_dropFromLevel env 1 true s
  | prepare => exact follows_dropFromLevel env 1 true s
  | abort => exact follows_dropFromLevel env 1 false s
  | parallelAbort => exact follows_dropFromLevel env 1 false s
  | preCommit => exact ⟨.refl, rfl⟩
  | parallelPreCommit => exact ⟨.refl, rfl⟩
  | prePrepare => exact ⟨.refl, rfl⟩

theorem follows_otelSubxactCallback (event : SubXactEvent) (s : St) :
    Follows env s [] (otelSubxactCallback env event) := by
  cases event with
  | abortSub => exact follows_dropFromLevel env _ false s
  | startSub => exact ⟨.refl, rfl⟩
  | commitSub => exact ⟨.refl, rfl⟩
  | preCommitSub => exact ⟨.refl, rfl⟩

end PostgresOtel
