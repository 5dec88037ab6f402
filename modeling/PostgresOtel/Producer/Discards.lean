import PostgresOtel.Producer.Calls
import PostgresOtel.Producer.Guarantees
import PostgresOtel.Producer.Owners

/-!
# Discards

`api_span_discard` takes the span off the active stack, has its owner forget it and frees its slot, in
this order.  The owner may refuse with an `ERROR`, and by then the stack entry is gone.
-/

set_option autoImplicit false

namespace PostgresOtel

open Exec

variable (env : Env)

/-! ## What a discard does, and what it leaves -/

/-- The stack without the entry naming `e`. -/
def St.unstack (e : StackRef) (s : St) : St :=
  { s with spanStack := s.spanStack.filter fun x => x.entry ≠ e }

/-- The owner of slot `i` raises when it is to forget the span: it is being released, or it does not
hold the handle. -/
def Env.SlotForgetFails (s : St) (i : ℕ) : Prop := ∃ owner, (s.slots i).owner = some owner ∧
  (env.forgetRaises (makeRef (s.slots i).gen i true) = true ∨
    ∀ r ∈ s.owners owner, r.1 ≠ makeRef (s.slots i).gen i true)

/-- The same of an open span; a span that is not recorded has no owner. -/
def Env.ForgetFails (s : St) : StackRef → Prop
  | .slot i => env.SlotForgetFails s i
  | .nrec _ => False

/-- The span of `e` is gone and has not been exported; nothing else has changed. -/
structure SpanRemoved (e : StackRef) (s s' : St) : Prop where
  spanStack : s'.spanStack = s.spanStack.filter fun x => x.entry ≠ e
  slots : ∀ i, e ≠ .slot i → s'.slots i = s.slots i
  nrecs : ∀ i, e ≠ .nrec i → s'.nrecs i = s.nrecs i
  dispatches : s'.dispatches = s.dispatches
  freed : ¬ s'.life.Live e

/-- The active stack, the slots and the bookkeeping of the owners are as before. -/
structure SpanKept (s s' : St) : Prop where
  spanStack : s'.spanStack = s.spanStack
  slots : s'.slots = s.slots
  nrecs : s'.nrecs = s.nrecs
  owners : s'.owners = s.owners
  slotFreeHead : s'.slotFreeHead = s.slotFreeHead
  sessionSpansOpen : s'.sessionSpansOpen = s.sessionSpansOpen

/-- A discard removes exactly the span of `e`, or raises and removes nothing. -/
def DiscardsExactly (ref : OtelSpanRef) (e : StackRef) (s : St) : Prop :=
  Wp (apiSpanDiscard env ref) (fun _ s' => SpanRemoved e s s') (fun _ s' => SpanKept s s') s

/-! ## Its three parts -/

section

variable {Q : Unit → St → Prop} {E : Exn → St → Prop} {s : St}

/-- No postcondition accepts nothing. -/
theorem wp_false {α : Type} {x : M α} : ¬ Wp x (fun _ _ => False) (fun _ _ => False) s :=
  fun h => Wp.endState (I := fun _ => False) h

theorem wp_stackRemove_iff {e : StackRef} (hnodup : (s.spanStack.map StackEntry.entry).Nodup) :
    Wp (stackRemove e) Q E s ↔ Q () (s.unstack e) := by
  have hfind := findIdx_stack s.spanStack e
  unfold stackRemove stackFind St.unstack
  rw [wp_bind, wp_bind, wp_get, wp_pure]
  cases hpos : s.spanStack.findIdx? fun x => x.entry = e with
  | none =>
    rw [hpos] at hfind
    have hall : s.spanStack.filter (fun x => x.entry ≠ e) = s.spanStack := by
      rw [List.filter_eq_self]
      intro x hx
      exact decide_eq_true fun he => hfind (he ▸ List.mem_map_of_mem hx)
    rw [hall]
    exact wp_pure _ _ _ _
  | some pos =>
    rw [hpos] at hfind
    obtain ⟨above, x, rest, hstack, hlen, hx, -, -⟩ := hfind
    rw [hstack, List.map_append, List.map_cons, hx] at hnodup
    have hnot := (List.nodup_middle.1 hnodup).notMem
    rw [← List.map_append] at hnot
    have hall (y : StackEntry) (hy : y ∈ above ++ rest) : y.entry ≠ e := fun he =>
      hnot (he ▸ List.mem_map_of_mem hy)
    have hfilter : s.spanStack.filter (fun y => y.entry ≠ e) = s.spanStack.eraseIdx pos := by
      rw [hstack, ← hlen, List.eraseIdx_append_of_length_le (le_refl _)]
      simp only [Nat.sub_self, List.eraseIdx_cons_zero, List.filter_append, List.filter_cons, hx]
      rw [List.filter_eq_self.2 fun y hy => decide_eq_true (hall y (List.mem_append_left _ hy)),
        List.filter_eq_self.2 fun y hy => decide_eq_true (hall y (List.mem_append_right _ hy))]
      simp
    rw [hfilter]
    exact wp_modify _ _ _ _

theorem wp_forgetSlot_fails {i : ℕ} (h : env.SlotForgetFails s i)
    (hE : ∀ b, E .error { s with backend := b }) : Wp (forgetSlot env i (s.slots i)) Q E s := by
  obtain ⟨owner, howner, hfails⟩ := h
  unfold forgetSlot resourceOwnerForget raiseError modifyBackend
  rw [howner]
  dsimp only
  rw [wp_bind, wp_get, if_pos hfails, wp_bind, wp_modify]
  exact hE _

theorem wp_forgetSlot_succeeds {i : ℕ} (h : ¬ env.SlotForgetFails s i)
    (hQ : ∀ owners, Q () { s with owners := owners }) :
    Wp (forgetSlot env i (s.slots i)) Q E s := by
  unfold forgetSlot
  cases howner : (s.slots i).owner with
  | none => exact hQ s.owners
  | some owner =>
    have hholds : ¬ (env.forgetRaises (makeRef (s.slots i).gen i true) = true ∨
        ∀ r ∈ s.owners owner, r.1 ≠ makeRef (s.slots i).gen i true) :=
      fun hfails => h ⟨owner, howner, hfails⟩
    unfold resourceOwnerForget
    rw [wp_bind, wp_get, if_neg hholds]
    exact hQ _

/-- Once its owner has forgotten it, nothing keeps a span from leaving its slot. -/
theorem wp_releaseSlot_removes {i : ℕ} {fate : Fate} (h : ¬ env.SlotForgetFails s i)
    (hQ : ∀ s', s'.spanStack = s.spanStack → (∀ j, j ≠ i → s'.slots j = s.slots j) →
      s'.nrecs = s.nrecs → s'.dispatches = s.dispatches → (s'.slots i).gen = 0 → Q () s') :
    Wp (releaseSlot env i false fate) Q E s := by
  unfold releaseSlot
  rw [wp_bind, wp_get, wp_bind, wp_runIf]
  refine ⟨fun _ => ?_, fun hby => absurd rfl hby⟩
  refine wp_forgetSlot_succeeds env h fun owners => ?_
  rw [wp_bind, wp_runIf]
  have hother (j : ℕ) (hj : j ≠ i) (l : OtelSlot) : Function.update s.slots i l j = s.slots j :=
    Function.update_of_ne hj _ _
  constructor <;> intro
  · exact hQ _ rfl (fun j hj => hother j hj _) rfl rfl (by simp)
  · exact hQ _ rfl (fun j hj => hother j hj _) rfl rfl (by simp)

/-! ## The whole call -/

variable {ref : OtelSpanRef} {e : StackRef}

/-- The lookup of a discard that is not refused finds the span. -/
theorem wp_apiSpanDiscard_finds (hpass : s.life.refuses env = false) (hv : ref.v ≠ 0)
    (hnamed : s.life.entryOf ref = some e)
    (hnrec : ∀ i, e = .nrec i → Wp (do
      stackRemove (.nrec i)
      freeNrec i false
      modifyCounters fun c => { c with spansDiscarded := c.spansDiscarded + 1 }) Q E s)
    (hslot : ∀ i, e = .slot i → Wp (do
      stackRemove (.slot i)
      releaseSlot env i false .discarded
      modifyCounters fun c => { c with spansDiscarded := c.spansDiscarded + 1 }) Q E s) :
    Wp (apiSpanDiscard env ref) Q E s := by
  have hquiet : env.critSectionCount = 0 ∧ s.dispatchDepth = 0 := by
    have hdepth : s.life.dispatchDepth = s.dispatchDepth := rfl
    simpa [Lifecycle.refuses, hdepth] using hpass
  have hnames : s.life.Names ref := .inr ⟨e, hnamed⟩
  unfold apiSpanDiscard
  apply wp_not_refused env hquiet.1 hquiet.2 hv
  rw [wp_ite]
  unfold Lifecycle.entryOf at hnamed
  refine ⟨fun hneg => ?_, fun hpos => ?_⟩
  · rw [if_neg (by omega)] at hnamed
    obtain ⟨i, hi, he⟩ := Option.map_eq_some_iff.1 hnamed
    rw [wp_bind]
    refine wp_nrecForRef_names hnames hneg fun j hj => ?_
    obtain rfl := Option.some.inj (hi.symm.trans hj)
    exact hnrec i he.symm
  · have hpos : 0 < ref.v := by omega
    rw [if_pos hpos] at hnamed
    obtain ⟨i, hi, he⟩ := Option.map_eq_some_iff.1 hnamed
    rw [wp_bind]
    refine wp_slotForRef_names hnames hpos fun j hj => ?_
    obtain rfl := Option.some.inj (hi.symm.trans hj)
    exact hslot i he.symm

variable (hnodup : (s.spanStack.map StackEntry.entry).Nodup)
  (hpass : s.life.refuses env = false) (hv : ref.v ≠ 0) (hnamed : s.life.entryOf ref = some e)

include hnodup hpass hv hnamed

theorem wp_apiSpanDiscard_removes (hforget : ¬ env.ForgetFails s e) :
    Wp (apiSpanDiscard env ref) (fun _ s' => SpanRemoved e s s') (fun _ _ => False) s := by
  apply wp_apiSpanDiscard_finds env hpass hv hnamed
  · rintro i rfl
    rw [wp_bind, wp_stackRemove_iff hnodup, wp_bind]
    unfold freeNrec modifyCounters
    rw [wp_modify, wp_modify]
    refine ⟨rfl, fun _ _ => rfl, fun j hj => ?_, rfl, fun hlive => ?_⟩
    · exact Function.update_of_ne (fun h => hj (by rw [h])) _ _
    · apply (Lifecycle.live_iff.1 hlive).2
      simp [Lifecycle.gen, St.life]
  · rintro i rfl
    rw [wp_bind, wp_stackRemove_iff hnodup, wp_bind]
    refine wp_releaseSlot_removes env (s := s.unstack (.slot i)) hforget
      fun s' hstack hslots hnrecs hdispatches hgen => ?_
    refine ⟨hstack, fun j hj => hslots j fun h => hj (by rw [h]), fun j _ => ?_, hdispatches,
      fun hlive => (Lifecycle.live_iff.1 hlive).2 hgen⟩
    exact congrFun hnrecs j

/-- When the owner refuses, the stack entry has been taken off and nothing else has changed. -/
theorem wp_apiSpanDiscard_raises (hforget : env.ForgetFails s e) :
    Wp (apiSpanDiscard env ref) (fun _ _ => False)
      (fun _ s' => ∃ b, s' = { s.unstack e with backend := b }) s := by
  apply wp_apiSpanDiscard_finds env hpass hv hnamed
  · rintro i rfl
    exact hforget.elim
  · rintro i rfl
    rw [wp_bind, wp_stackRemove_iff hnodup, wp_bind]
    unfold releaseSlot
    rw [wp_bind, wp_get, wp_bind, wp_runIf]
    refine ⟨fun _ => ?_, fun hby => absurd rfl hby⟩
    exact wp_forgetSlot_fails env (s := s.unstack (.slot i)) hforget fun b => ⟨b, rfl⟩

theorem discardsExactly_iff :
    DiscardsExactly env ref e s ↔ ¬ (env.ForgetFails s e ∧ s.life.OnStack e) := by
  by_cases hforget : env.ForgetFails s e
  · have hraises := wp_apiSpanDiscard_raises env hnodup hpass hv hnamed hforget
    rw [not_and]
    constructor
    · intro hexact _ honstack
      refine wp_false ((hexact.and hraises).mono (fun _ _ h => h.2) fun _ s' ⟨hkept, b, hs'⟩ => ?_)
      obtain ⟨x, hx, hentry⟩ := Lifecycle.onStack_iff.1 honstack
      have hstack := hkept.spanStack
      rw [hs'] at hstack
      have hne := List.filter_eq_self.1 hstack x hx
      simp [hentry] at hne
    · intro hoff
      refine hraises.mono (fun _ _ h => h.elim) fun _ s' ⟨b, hs'⟩ => ?_
      have hstack : s.spanStack.filter (fun x => x.entry ≠ e) = s.spanStack := by
        refine List.filter_eq_self.2 fun x hx => decide_eq_true fun hentry => ?_
        exact hoff hforget (Lifecycle.onStack_iff.2 ⟨x, hx, hentry⟩)
      rw [hs']
      exact ⟨hstack, rfl, rfl, rfl, rfl, rfl⟩
  · have hremoves := wp_apiSpanDiscard_removes env hnodup hpass hv hnamed hforget
    refine ⟨fun _ h => hforget h.1, fun _ => ?_⟩
    exact hremoves.mono (fun _ _ h => h) fun _ _ h => h.elim

end

/-! ## Runs -/

variable {garbage : ℕ → OtelSlot} {s : St} {ref : OtelSpanRef} {e : StackRef}

/-- Only a handle that is not null names an open span. -/
theorem entryOf_ne_null (hopen : s.life.Live e) (hnamed : s.life.entryOf ref = some e) :
    ref.v ≠ 0 := by
  intro hzero
  unfold Lifecycle.entryOf at hnamed
  rw [if_neg (by omega)] at hnamed
  obtain ⟨i, hi, rfl⟩ := Option.map_eq_some_iff.1 hnamed
  unfold Lifecycle.nrecOf at hi
  split_ifs at hi with hfound
  obtain rfl := Option.some.inj hi
  apply (Lifecycle.live_iff.1 hopen).2
  have hgen : refGen ref = 0 := by simp [refGen, hzero]
  exact hfound.2.trans hgen

/-- In every run, a discard of an open span takes exactly this span, or raises and takes nothing, just
when it is not so that the owner refuses and the span is on the active stack. -/
theorem discard_exact_iff (h : (producer garbage).Reachable s) (b : Backend)
    (hnamed : s.life.entryOf ref = some e) (hopen : s.life.Live e)
    (hpass : s.life.refuses env = false) :
    DiscardsExactly env ref e { s with backend := b } ↔
      ¬ (env.ForgetFails s e ∧ s.life.OnStack e) :=
  discardsExactly_iff env (s := { s with backend := b }) (reachable_poolInv h).stack_nodup hpass
    (entryOf_ne_null hopen hnamed) hnamed

/-- A span that belongs to an owner is open. -/
def ownedSpanOpen : St := (producer fun _ => {}).next (initSt fun _ => {}) (startCall "query")

theorem reachable_ownedSpanOpen : (producer fun _ => {}).Reachable ownedSpanOpen :=
  Machine.Reachable.step (m := producer fun _ => {}) (startCall "query") .init trivial

theorem live_ownedSpanOpen : ownedSpanOpen.life.Live (.slot 0) :=
  Lifecycle.live_iff.2 ⟨show 0 < ownedSpanOpen.slotsUsed by decide +kernel,
    show (ownedSpanOpen.slots 0).gen ≠ 0 by decide +kernel⟩

theorem discard_exact_iff_owned :
    DiscardsExactly {} (makeRef 1 0 true) (.slot 0) { ownedSpanOpen with backend := {} } := by
  refine (discard_exact_iff {} reachable_ownedSpanOpen {} (by decide +kernel) live_ownedSpanOpen
    (by decide +kernel)).2 fun ⟨⟨owner, howner, hfails⟩, _⟩ => ?_
  have hfirst : some owner = some 1 := howner.symm.trans (by decide +kernel)
  obtain rfl := Option.some.inj hfirst
  revert hfails
  decide +kernel

/-- An owner that is being released. -/
def refusingEnv : Env := { forgetRaises := fun _ => true }

/-- The stack entry is lost, and the span stays open. -/
theorem refused_discard_pops :
    ¬ ∀ (garbage : ℕ → OtelSlot) (s : St), (producer garbage).Reachable s →
      ∀ (env : Env) (ref : OtelSpanRef) (e : StackRef), s.life.entryOf ref = some e →
      s.life.Live e → s.life.refuses env = false → DiscardsExactly env ref e s := by
  intro h
  have hexact := h (fun _ => {}) ownedSpanOpen reachable_ownedSpanOpen refusingEnv
    (makeRef 1 0 true) (.slot 0) (by decide +kernel) live_ownedSpanOpen (by decide +kernel)
  rw [discardsExactly_iff refusingEnv (reachable_poolInv reachable_ownedSpanOpen).stack_nodup
    (by decide +kernel) (by decide) (by decide +kernel)] at hexact
  refine hexact ⟨⟨1, by decide +kernel, .inl rfl⟩, ?_⟩
  decide +kernel

end PostgresOtel
