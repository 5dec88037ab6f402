import Mathlib.Data.List.TakeWhile
import PostgresOtel.Producer.Discards
import PostgresOtel.Producer.Subxacts
import PostgresOtel.Producer.Unwinding

/-!
# Which spans a call takes

What a call that returns does to the open spans and to the active stack, exactly: which spans leave,
in their order and with the fate of those that are recorded, and what is left of the stack.  `Leaves`
says the first, and one lemma for each function says both.
-/

set_option autoImplicit false

namespace PostgresOtel

open Exec

variable (env : Env)

/-! ## Leaving -/

/-- The spans at `gone` leave, the recorded ones with this fate and in this order, and the others stay
as they are. -/
structure Leaves (gone : List StackRef) (fate : Fate) (c c' : Lifecycle) : Prop where
  live : ∀ e, c'.Live e ↔ c.Live e ∧ e ∉ gone
  same : ∀ e, e ∉ gone → c'.gen e = c.gen e ∧ c'.detached e = c.detached e ∧
    c'.serials e = c.serials e
  fates : c'.fates = c.fates ++ (gone.flatMap c.serials).map fun n => (n, fate)
  started : c'.started = c.started
  depth : c'.dispatchDepth = c.dispatchDepth

/-- No spans leave but those at `gone`. -/
def TakesOnly (gone : List StackRef) (c c' : Lifecycle) : Prop :=
  ∀ e, c.Live e → e ∉ gone → c'.Live e

/-- The counters of what left the stack from below other entries. -/
def Lifecycle.tallies (c : Lifecycle) : ℕ × ℕ := (c.nonLifoEnd, c.activationUnwound)

section Leaves

variable {c c' c'' : Lifecycle} {gone gone' : List StackRef} {fate : Fate} {i : ℕ}

theorem Leaves.refl (fate : Fate) (c : Lifecycle) : Leaves [] fate c c where
  live e := by simp
  same _ _ := ⟨rfl, rfl, rfl⟩
  fates := by simp
  started := rfl
  depth := rfl

/-- Other spans leave after that. -/
theorem Leaves.trans (h : Leaves gone fate c c') (h' : Leaves gone' fate c' c'')
    (hother : ∀ e ∈ gone', e ∉ gone) : Leaves (gone ++ gone') fate c c'' where
  live e := by
    rw [h'.live, h.live, List.mem_append]
    tauto
  same e he := by
    rw [List.mem_append, not_or] at he
    obtain ⟨hgen, hdetached, hserials⟩ := h.same e he.1
    obtain ⟨hgen', hdetached', hserials'⟩ := h'.same e he.2
    exact ⟨hgen'.trans hgen, hdetached'.trans hdetached, hserials'.trans hserials⟩
  fates := by
    have hsame : gone'.flatMap c'.serials = gone'.flatMap c.serials :=
      List.flatMap_congr fun e he => (h.same e (hother e he)).2.2
    rw [h'.fates, h.fates, hsame, List.flatMap_append, List.map_append, List.append_assoc]
  started := h'.started.trans h.started
  depth := h'.depth.trans h.depth

/-- What is taken after that, by a call that may not get to its end. -/
theorem Leaves.takes (h : Leaves gone fate c c') (h' : TakesOnly gone' c' c'')
    {taken : List StackRef} (hgone : gone ⊆ taken) (hgone' : gone' ⊆ taken) :
    TakesOnly taken c c'' := fun e he hno =>
  h' e ((h.live e).2 ⟨he, fun hmem => hno (hgone hmem)⟩) fun hmem => hno (hgone' hmem)

theorem TakesOnly.mono (h : TakesOnly gone c c') (hsub : gone ⊆ gone') : TakesOnly gone' c c' :=
  fun e he hno => h e he fun hmem => hno (hsub hmem)

theorem TakesOnly.of_eq (h : c' = c) : TakesOnly gone c c' := fun _ he _ => h ▸ he

theorem leaves_freeSlot (c : Lifecycle) (i released : ℕ) (fate : Fate) :
    Leaves [.slot i] fate c (c.freeSlot i released fate) where
  live e := by
    cases e with
    | slot j =>
      have hput : (c.freeSlot i released fate).LiveSlot j ↔ j ≠ i ∧ c.LiveSlot j :=
        Pool.live_put_iff rfl
      rw [List.mem_singleton, StackRef.slot.injEq, and_comm]
      exact hput
    | nrec j =>
      refine ⟨fun h => ⟨h, ?_⟩, fun h => h.1⟩
      simp
  same e he := by
    cases e with
    | slot j =>
      have hj : j ≠ i := fun h => he (by rw [h]; exact List.mem_singleton_self _)
      have hcell : (c.freeSlot i released fate).slots.cell j = c.slots.cell j :=
        Pool.put_cell_of_ne hj
      simp only [Lifecycle.gen, Lifecycle.detached, Lifecycle.serials, hcell, and_self]
    | nrec j => exact ⟨rfl, rfl, rfl⟩
  fates := rfl
  started := rfl
  depth := rfl

theorem leaves_freeNrec (c : Lifecycle) (i released : ℕ) (fate : Fate) :
    Leaves [.nrec i] fate c (c.freeNrec i released) where
  live e := by
    cases e with
    | slot j =>
      refine ⟨fun h => ⟨h, ?_⟩, fun h => h.1⟩
      simp
    | nrec j =>
      have hput : (c.freeNrec i released).LiveNrec j ↔ j ≠ i ∧ c.LiveNrec j :=
        Pool.live_put_iff rfl
      rw [List.mem_singleton, StackRef.nrec.injEq, and_comm]
      exact hput
  same e he := by
    cases e with
    | slot j => exact ⟨rfl, rfl, rfl⟩
    | nrec j =>
      have hj : j ≠ i := fun h => he (by rw [h]; exact List.mem_singleton_self _)
      have hcell : (c.freeNrec i released).nrecs.cell j = c.nrecs.cell j := Pool.put_cell_of_ne hj
      simp only [Lifecycle.gen, Lifecycle.detached, Lifecycle.serials, hcell, and_self]
  fates := by simp [Lifecycle.freeNrec, Lifecycle.serials]
  started := rfl
  depth := rfl

/-- A slot is changed in ways that are not about where its span is. -/
theorem leaves_setSlot {l : SlotLife} (fate : Fate)
    (hgen : l.gen = (c.slots.cell i).gen) (hdetached : l.detached = (c.slots.cell i).detached)
    (hserial : l.serial = (c.slots.cell i).serial) :
    Leaves [] fate c { c with slots := c.slots.set i l } where
  live e := by
    cases e with
    | slot j =>
      have hset : (c.slots.set i l).Live SlotLife.Free j ↔ c.LiveSlot j :=
        Pool.live_set_iff (by rw [SlotLife.Free, SlotLife.Free, hgen])
      exact hset.trans ⟨fun h => ⟨h, List.not_mem_nil⟩, fun h => h.1⟩
    | nrec j => exact ⟨fun h => ⟨h, List.not_mem_nil⟩, fun h => h.1⟩
  same e _ := by
    cases e with
    | slot j =>
      by_cases hj : j = i
      · subst hj
        simp only [Lifecycle.gen, Lifecycle.detached, Lifecycle.serials, Pool.set_cell_self, hgen,
          hdetached, hserial, and_self]
      · simp only [Lifecycle.gen, Lifecycle.detached, Lifecycle.serials, Pool.set_cell_of_ne hj,
          and_self]
    | nrec j => exact ⟨rfl, rfl, rfl⟩
  fates := by simp
  started := rfl
  depth := rfl

theorem leaves_endSlot (c : Lifecycle) (sink unwinding : Bool) (i : ℕ) :
    Leaves [.slot i] .dispatched c ((c.countUnwound unwinding).dispatchSlot sink i) :=
  { leaves_freeSlot (c.countUnwound unwinding) i
      ((c.countUnwound unwinding).slots.cell i).ownerReleasedGen .dispatched with }

/-- An end that raises leaves the span where it is. -/
theorem takesOnly_endSlot {unwinding : Bool} {x : Exn}
    (h : (x = .error ∧ c' = c) ∨ (x = .fatal ∧ c' = (c.countUnwound unwinding).cutShort i)) :
    TakesOnly [] c c' := by
  rcases h with ⟨-, h⟩ | ⟨-, rfl⟩
  · exact .of_eq h
  · have hset := leaves_setSlot (c := c.countUnwound unwinding) (i := i)
      (l := { (c.countUnwound unwinding).slots.cell i with owner := none, dispatching := true })
      .dispatched rfl rfl rfl
    exact fun e he hno => (hset.live e).2 ⟨he, hno⟩

end Leaves

/-! ## Unwinding -/

/-- One turn of `stack_unwind_above`. -/
theorem wp_unwindEntry_leaves (e : StackEntry) (reason : CString) (s : St) :
    Wp (unwindEntry env e reason)
      (fun _ s' => Leaves (startEntries [e]) .dispatched s.life s'.life ∧
        s'.spanStack = s.spanStack ∧ s'.life.tallies = (s.life.nonLifoEnd,
          s.life.activationUnwound + [e].countP StackEntry.isActivation))
      (fun _ s' => TakesOnly [] s.life s'.life) s := by
  unfold unwindEntry
  rw [wp_ite]
  constructor
  · intro hact
    have hnone : startEntries [e] = [] := by simp [startEntries, hact]
    rw [hnone]
    refine ⟨{ Leaves.refl .dispatched s.life with }, rfl, ?_⟩
    simp [Lifecycle.tallies, St.life, hact]
  · intro hact
    have hone : startEntries [e] = [e.entry] := by simp [startEntries, hact]
    have hcount : [e].countP StackEntry.isActivation = 0 := by simp [hact]
    rw [hone, hcount]
    cases he : e.entry with
    | slot i =>
      refine (wp_endSlot env i 0 true (some reason) s).mono (fun _ s' h => ?_) fun _ _ h =>
        takesOnly_endSlot h
      have hstack : s'.life.spanStack = s.life.spanStack := by
        rw [h.1]
        rfl
      refine ⟨?_, hstack, ?_⟩
      · rw [h.1]
        exact leaves_endSlot s.life env.sink true i
      · rw [h.1]
        rfl
    | nrec i =>
      refine wp_freeNrec i false fun s' hs' _ => ?_
      have hstack : s'.life.spanStack = s.life.spanStack := by
        rw [hs']
        rfl
      refine ⟨?_, hstack, ?_⟩
      · rw [hs']
        exact leaves_freeNrec s.life i _ .dispatched
      · rw [hs']
        rfl

theorem wp_unwindTo_leaves (reason : CString) (below above : List StackEntry) {fuel : ℕ} {s : St}
    (hstack : s.spanStack = above ++ below) (hfuel : above.length ≤ fuel)
    (hnodup : (above.map StackEntry.entry).Nodup) :
    Wp (unwindTo env below.length reason fuel)
      (fun _ s' => s'.spanStack = below ∧ Leaves (startEntries above) .dispatched s.life s'.life ∧
        s'.life.tallies = (s.life.nonLifoEnd,
          s.life.activationUnwound + above.countP StackEntry.isActivation))
      (fun _ s' => TakesOnly (startEntries above) s.life s'.life) s := by
  refine (wp_unwindTo_turns env (I := fun rest s' => ∃ done, above = done ++ rest ∧
    Leaves (startEntries done) .dispatched s.life s'.life ∧ s'.life.tallies = (s.life.nonLifoEnd,
      s.life.activationUnwound + done.countP StackEntry.isActivation))
    (E := fun _ s' => TakesOnly (startEntries above) s.life s'.life) reason
    below ?_ above hstack hfuel ⟨[], rfl, .refl _ _, rfl⟩).mono (fun _ s' h => ?_) fun _ _ h => h
  · rintro e rest s₁ - ⟨done, rfl, h₁, htallies⟩
    have hpop : Leaves (startEntries done) .dispatched s.life
        ({ s₁ with spanStack := rest ++ below } : St).life := { h₁ with }
    refine (wp_unwindEntry_leaves env e reason { s₁ with spanStack := rest ++ below }).mono
      (fun _ s₂ h₂ => ?_) fun _ s₂ h₂ => ?_
    case refine_2 =>
      refine hpop.takes h₂ ?_ (List.nil_subset _)
      rw [startEntries_append]
      exact List.subset_append_left _ _
    obtain ⟨hleaves, hs₂, htallies₂⟩ := h₂
    refine ⟨hs₂, done ++ [e], by simp, ?_, ?_⟩
    · rw [startEntries_append]
      refine hpop.trans hleaves fun r hr hdone => ?_
      rw [List.map_append, List.map_cons] at hnodup
      have hentry : r = e.entry := by simpa using mem_startEntries hr
      exact (List.nodup_append.1 hnodup).2.2 _ (mem_startEntries hdone) _ List.mem_cons_self hentry
    · obtain ⟨hnonlifo, hacts⟩ := Prod.ext_iff.1 htallies
      refine htallies₂.trans (Prod.ext hnonlifo ?_)
      change s₁.life.activationUnwound + _ = _
      rw [List.countP_append, ← Nat.add_assoc]
      exact congrArg (· + _) hacts
  · obtain ⟨hs', done, habove, hdone⟩ := h
    rw [List.append_nil] at habove
    exact ⟨hs', habove ▸ hdone⟩

/-! ## Taking an entry off the stack -/

/-- What is below the entry naming `e`; the whole stack if there is none. -/
def Lifecycle.below (c : Lifecycle) (e : StackRef) : List StackEntry :=
  if c.OnStack e then (c.spanStack.dropWhile fun x => x.entry ≠ e).tail else c.spanStack

/-- The entry naming `e` is off the stack, if there was one, and with it what was above it. -/
structure PopsAt (e : StackRef) (c c' : Lifecycle) : Prop where
  leaves : Leaves (startEntries (c.above e)) .dispatched c c'
  stack : c'.spanStack = c.below e
  tallies : c'.tallies = (c.nonLifoEnd + if c.above e = [] then 0 else 1,
    c.activationUnwound + (c.above e).countP StackEntry.isActivation)

/-- An entry on the stack parts it. -/
theorem Lifecycle.split_onStack {c : Lifecycle} {e : StackRef} (h : c.OnStack e) :
    ∃ x, c.spanStack = c.above e ++ x :: c.below e ∧ x.entry = e := by
  have hne : (c.spanStack.dropWhile fun x => x.entry ≠ e) ≠ [] := by
    intro hnil
    obtain ⟨y, hy, rfl⟩ := List.mem_map.1 h
    exact of_decide_eq_true (List.dropWhile_eq_nil_iff.1 hnil y hy) rfl
  obtain ⟨x, rest, hdrop⟩ := List.exists_cons_of_ne_nil hne
  have hhead := List.head?_dropWhile_not (fun x : StackEntry => decide (x.entry ≠ e)) c.spanStack
  have habove : c.above e = c.spanStack.takeWhile fun x => x.entry ≠ e := if_pos h
  have hbelow : c.below e = rest := by
    rw [Lifecycle.below, if_pos h, hdrop]
    rfl
  refine ⟨x, ?_, ?_⟩
  · rw [habove, hbelow, ← hdrop, List.takeWhile_append_dropWhile]
  · rw [hdrop] at hhead
    simpa using hhead

theorem wp_popEntryAt_popsAt (what reason : String) {e : StackRef} {s : St} (hon : s.life.OnStack e)
    (hnodup : (s.life.spanStack.map StackEntry.entry).Nodup) :
    Wp (popEntryAt env (s.life.above e).length what reason) (fun _ s' => PopsAt e s.life s'.life)
      (fun _ s' => TakesOnly (startEntries (s.life.above e)) s.life s'.life) s := by
  obtain ⟨x, hstack, -⟩ := Lifecycle.split_onStack hon
  have habove : ((s.life.above e).map StackEntry.entry).Nodup := by
    rw [hstack, List.map_append] at hnodup
    exact (List.nodup_append.1 hnodup).1
  -- The last pop.
  have hpop (s₁ : St) (hs₁ : s₁.spanStack = x :: s.life.below e)
      (hleaves : Leaves (startEntries (s.life.above e)) .dispatched s.life s₁.life)
      (htallies : s₁.life.tallies = (s.life.nonLifoEnd + if s.life.above e = [] then 0 else 1,
        s.life.activationUnwound + (s.life.above e).countP StackEntry.isActivation)) :
      PopsAt e s.life ({ s₁ with spanStack := s₁.spanStack.tail } : St).life := by
    refine ⟨{ hleaves with }, ?_, htallies⟩
    change s₁.spanStack.tail = _
    rw [hs₁]
    rfl
  unfold popEntryAt endAbove stackUnwindAbove stackPop
  rw [wp_bind, wp_runIf]
  constructor
  · intro hne
    have hne' : s.life.above e ≠ [] := fun hnil => hne (by rw [hnil]; rfl)
    rw [wp_bind]
    refine (wp_nonlifoWarning env what _ s).mono (fun _ s₁ h₁ => ?_) fun _ _ h => h.elim
    have hstack₁ : s₁.spanStack = s.life.above e ++ x :: s.life.below e := by
      change s₁.life.spanStack = _
      rw [h₁.1]
      exact hstack
    have hkeep : s₁.spanStack.length - (s.life.above e).length = (x :: s.life.below e).length := by
      rw [hstack₁, List.length_append]
      omega
    rw [wp_bind, wp_get, hkeep]
    refine (wp_unwindTo_leaves env (cstr reason) (x :: s.life.below e) _ hstack₁
      (by simp [hstack₁]) habove).mono (fun _ s₂ h₂ => ?_) fun _ _ h => by rwa [h₁.1] at h
    obtain ⟨hs₂, hleaves, htallies⟩ := h₂
    rw [h₁.1] at hleaves htallies
    refine hpop s₂ hs₂ { hleaves with } ?_
    rw [if_neg hne']
    exact htallies
  · intro hne
    have hnil : s.life.above e = [] := List.eq_nil_of_length_eq_zero (by simpa using hne)
    rw [hnil] at hpop hstack
    refine hpop s hstack ?_ ?_
    · exact .refl _ _
    · rfl

theorem wp_popEnded_pops (e : StackRef) (what : String) {s : St}
    (hnodup : (s.life.spanStack.map StackEntry.entry).Nodup) :
    Wp (popEnded env e what) (fun _ s' => PopsAt e s.life s'.life)
      (fun _ s' => TakesOnly (startEntries (s.life.above e)) s.life s'.life) s := by
  have hfind := findIdx_stack s.life.spanStack e
  unfold popEnded stackFind
  rw [wp_bind, wp_bind, wp_get, wp_pure]
  rw [show s.spanStack = s.life.spanStack from rfl]
  cases hf : s.life.spanStack.findIdx? fun x => x.entry = e with
  | none =>
    rw [hf] at hfind
    have habove : s.life.above e = [] := if_neg hfind
    refine ⟨?_, (if_neg hfind).symm, ?_⟩
    · rw [habove]
      exact .refl _ _
    · rw [habove]
      rfl
  | some pos =>
    rw [hf] at hfind
    obtain ⟨above, x, rest, hstack, rfl, hx, hon, habove⟩ := hfind
    have habove' : s.life.above e = above := (if_pos hon).trans habove.symm
    rw [← habove']
    exact wp_popEntryAt_popsAt env what _ hon hnodup

/-! ## The calls -/

/-- The span that a call which changes something is about; none if it is refused or there is no such
span. -/
def Lifecycle.subject (c : Lifecycle) (env : Env) (ref : OtelSpanRef) : Option StackRef :=
  if c.refuses env ∨ ref.v = 0 then none else c.entryOf ref

theorem Lifecycle.subject_none {c : Lifecycle} {ref : OtelSpanRef}
    (h : c.refuses env = true ∨ ref.v = 0) : c.subject env ref = none := if_pos h

theorem Lifecycle.subject_some {c : Lifecycle} {ref : OtelSpanRef}
    (h : ¬(c.refuses env = true ∨ ref.v = 0)) : c.subject env ref = c.entryOf ref := if_neg h

/-- The spans that leave when the entry naming `e` is taken off the stack. -/
def Lifecycle.startsAbove (c : Lifecycle) (e : StackRef) : List StackRef := startEntries (c.above e)

/-- The spans that leave when the one at `e` ends. -/
def Lifecycle.endsWith (c : Lifecycle) (e : StackRef) : List StackRef := c.startsAbove e ++ [e]

/-- The span at `e` ends, and what is above it on the stack before it. -/
structure EndsAt (e : StackRef) (c c' : Lifecycle) : Prop where
  leaves : Leaves (startEntries (c.above e) ++ [e]) .dispatched c c'
  stack : c'.spanStack = c.below e
  tallies : c'.tallies = (c.nonLifoEnd + if c.above e = [] then 0 else 1,
    c.activationUnwound + (c.above e).countP StackEntry.isActivation)

theorem PopsAt.ends {e : StackRef} {c c₁ c' : Lifecycle} (h : PopsAt e c c₁)
    (hlast : Leaves [e] .dispatched c₁ c') (hstack : c'.spanStack = c₁.spanStack)
    (htallies : c'.tallies = c₁.tallies) : EndsAt e c c' where
  leaves := h.leaves.trans hlast fun r hr hmem => by
    rw [List.mem_singleton] at hr
    exact Lifecycle.not_mem_above (mem_startEntries (hr ▸ hmem))
  stack := hstack.trans h.stack
  tallies := htallies.trans h.tallies

/-- The span at `e` leaves, and nothing else happens to the stack. -/
structure LeavesAlone (e : StackRef) (fate : Fate) (c c' : Lifecycle) : Prop where
  leaves : Leaves [e] fate c c'
  stack : c'.spanStack = c.spanStack.filter fun x => x.entry ≠ e
  tallies : c'.tallies = c.tallies

section Calls

variable {s : St}

theorem wp_apiSpanEnd_ends (ref : OtelSpanRef) (endTime : TimestampTz) (hinv : PoolInv s.life) :
    Wp (apiSpanEnd env ref endTime)
      (fun _ s' => (s.life.subject env ref = none → s'.life = s.life) ∧
        ∀ e, s.life.subject env ref = some e → EndsAt e s.life s'.life)
      (fun _ s' => TakesOnly ((s.life.subject env ref).elim [] s.life.endsWith) s.life s'.life) s := by
  unfold apiSpanEnd
  rw [wp_bind]
  refine wp_callRefused env fun s₁ h₁ => ?_
  obtain ⟨hl₁, -⟩ := St.core_eq h₁
  rw [wp_ite]
  refine ⟨fun hr => ?_, fun hr => ?_⟩
  · rw [Lifecycle.subject_none env hr]
    exact ⟨fun _ => hl₁, nofun⟩
  rw [Lifecycle.subject_some env hr]
  rw [not_or] at hr
  rw [← hl₁] at hinv ⊢
  rw [wp_ite]
  constructor
  · intro hneg
    have hentry : s₁.life.entryOf ref = (s₁.life.nrecOf ref).map .nrec := if_neg (by omega)
    rw [hentry, wp_bind]
    refine wp_nrecForRef fun s₂ h₂ => ?_
    obtain ⟨hl₂, -⟩ := St.core_eq h₂
    rw [← hl₂] at hinv ⊢
    cases s₂.life.nrecOf ref with
    | none => exact ⟨fun _ => rfl, nofun⟩
    | some i =>
      dsimp only
      rw [wp_bind]
      refine (wp_popEnded_pops env (.nrec i) _ hinv.stack_nodup).mono (fun _ s₃ h₃ => ?_)
        fun _ _ h => h.mono (List.subset_append_left _ _)
      refine wp_freeNrec i false fun s₄ hs₄ _ => ⟨nofun, fun e he => ?_⟩
      obtain rfl := Option.some.inj he
      refine h₃.ends ?_ ?_ ?_
      · rw [hs₄]
        exact leaves_freeNrec s₃.life i _ .dispatched
      · rw [hs₄]
        rfl
      · rw [hs₄]
        rfl
  · intro hpos
    have hentry : s₁.life.entryOf ref = (s₁.life.slotOf ref).map .slot :=
      if_pos (by have := hr.2; omega)
    rw [hentry, wp_bind]
    refine wp_slotForRef fun s₂ h₂ => ?_
    obtain ⟨hl₂, -⟩ := St.core_eq h₂
    rw [← hl₂] at hinv ⊢
    cases s₂.life.slotOf ref with
    | none => exact ⟨fun _ => rfl, nofun⟩
    | some i =>
      dsimp only
      rw [wp_bind]
      refine (wp_popEnded_pops env (.slot i) _ hinv.stack_nodup).mono (fun _ s₃ h₃ => ?_)
        fun _ _ h => h.mono (List.subset_append_left _ _)
      refine (wp_endSlot env i endTime false none s₃).mono (fun _ s₄ h₄ => ?_) fun _ _ h₄ =>
        h₃.leaves.takes (takesOnly_endSlot h₄) (List.subset_append_left _ _) (List.nil_subset _)
      refine ⟨nofun, fun e he => ?_⟩
      obtain rfl := Option.some.inj he
      refine h₃.ends ?_ ?_ ?_
      · rw [h₄.1]
        exact leaves_endSlot s₃.life env.sink false i
      · rw [h₄.1]
        rfl
      · rw [h₄.1]
        rfl

theorem wp_apiSpanDiscard_leaves (ref : OtelSpanRef) (hinv : PoolInv s.life) :
    Wp (apiSpanDiscard env ref)
      (fun _ s' => (s.life.subject env ref = none → s'.life = s.life) ∧
        ∀ e, s.life.subject env ref = some e → LeavesAlone e .discarded s.life s'.life)
      (fun _ s' => TakesOnly [] s.life s'.life) s := by
  unfold apiSpanDiscard
  rw [wp_bind]
  refine wp_callRefused env fun s₁ h₁ => ?_
  obtain ⟨hl₁, -⟩ := St.core_eq h₁
  rw [wp_ite]
  refine ⟨fun hr => ?_, fun hr => ?_⟩
  · rw [Lifecycle.subject_none env hr]
    exact ⟨fun _ => hl₁, nofun⟩
  rw [Lifecycle.subject_some env hr]
  rw [not_or] at hr
  rw [← hl₁] at hinv ⊢
  rw [wp_ite]
  constructor
  · intro hneg
    have hentry : s₁.life.entryOf ref = (s₁.life.nrecOf ref).map .nrec := if_neg (by omega)
    rw [hentry, wp_bind]
    refine wp_nrecForRef fun s₂ h₂ => ?_
    obtain ⟨hl₂, -⟩ := St.core_eq h₂
    rw [← hl₂] at hinv ⊢
    cases s₂.life.nrecOf ref with
    | none => exact ⟨fun _ => rfl, nofun⟩
    | some i =>
      dsimp only
      rw [wp_bind, wp_stackRemove_iff hinv.stack_nodup, wp_bind]
      refine wp_freeNrec i false fun s₃ hs₃ _ => ?_
      change _ ∧ ∀ e, _ → LeavesAlone e .discarded s₂.life s₃.life
      refine ⟨nofun, fun e he => ?_⟩
      obtain rfl := Option.some.inj he
      rw [hs₃]
      exact ⟨{ leaves_freeNrec s₂.life i _ .discarded with }, rfl, rfl⟩
  · intro hpos
    have hentry : s₁.life.entryOf ref = (s₁.life.slotOf ref).map .slot :=
      if_pos (by have := hr.2; omega)
    rw [hentry, wp_bind]
    refine wp_slotForRef fun s₂ h₂ => ?_
    obtain ⟨hl₂, -⟩ := St.core_eq h₂
    rw [← hl₂] at hinv ⊢
    cases s₂.life.slotOf ref with
    | none => exact ⟨fun _ => rfl, nofun⟩
    | some i =>
      dsimp only
      rw [wp_bind, wp_stackRemove_iff hinv.stack_nodup, wp_bind]
      refine (wp_releaseSlot env i false .discarded _).mono (fun _ s₃ h₃ => ?_) fun _ s₃ h₃ => ?_
      case refine_2 =>
        rw [h₃.2.2.2]
        exact fun e he _ => he
      change _ ∧ ∀ e, _ → LeavesAlone e .discarded s₂.life s₃.life
      refine ⟨nofun, fun e he => ?_⟩
      obtain rfl := Option.some.inj he
      rw [h₃.1]
      exact ⟨{ leaves_freeSlot s₂.life i _ .discarded with }, rfl, rfl⟩

/-- What an activation of the span at `e` leads to. -/
def Lifecycle.activated (c : Lifecycle) (env : Env) (e : StackRef) : Lifecycle :=
  if c.detached e ∧ ¬c.OnStack e ∧ c.spanStack.length < otelMaxStackDepth then
    c.push ⟨e, true, env.currentTransactionNestLevel⟩
  else c

theorem wp_apiSpanActivate_pushes (ref : OtelSpanRef) :
    Wp (apiSpanActivate env ref)
      (fun _ s' => s'.life = (s.life.subject env ref).elim s.life (s.life.activated env))
      (fun _ _ => False) s := by
  unfold apiSpanActivate
  rw [wp_bind]
  refine wp_callRefused env fun s₁ h₁ => ?_
  obtain ⟨hl₁, -⟩ := St.core_eq h₁
  rw [wp_ite]
  refine ⟨fun hr => ?_, fun hr => ?_⟩
  · rw [Lifecycle.subject_none env hr]
    exact hl₁
  rw [Lifecycle.subject_some env hr, wp_bind]
  refine wp_activationTarget fun s₂ t h₂ ht hdet => ?_
  obtain ⟨hl₂, -⟩ := St.core_eq h₂
  rw [← hl₁, ← ht]
  have hl : s₂.life = s₁.life := hl₂
  cases t with
  | none => exact hl
  | some t =>
    change Wp (if (!t.detached) = true then _ else _)
      (fun _ s' => s'.life = s₁.life.activated env t.entry) _ s₂
    have hdet' : t.detached = s₂.life.detached t.entry := (hdet t rfl).trans (by rw [hl])
    rw [← hl]
    -- Nothing is pushed.
    have hstays (hno : ¬(s₂.life.detached t.entry ∧ ¬s₂.life.OnStack t.entry ∧
        s₂.life.spanStack.length < otelMaxStackDepth)) : s₂.life = s₂.life.activated env t.entry :=
      (if_neg hno).symm
    have hfind := findIdx_stack s₂.life.spanStack t.entry
    rw [wp_ite]
    refine ⟨fun hd => hstays fun h => ?_, fun hd => ?_⟩
    · rw [← hdet'] at h
      simp [h.1] at hd
    unfold stackFind
    rw [wp_bind, wp_bind, wp_get, wp_pure, wp_bind, wp_get, wp_ite]
    refine ⟨fun hsome => hstays fun h => ?_, fun hnone => ?_⟩
    · obtain ⟨pos, hpos⟩ := Option.isSome_iff_exists.1 hsome
      rw [show s₂.spanStack = s₂.life.spanStack from rfl] at hpos
      rw [hpos] at hfind
      obtain ⟨-, -, -, -, -, -, hon, -⟩ := hfind
      exact h.2.1 hon
    rw [wp_ite]
    refine ⟨fun hfull => hstays fun h => absurd h.2.2 (Nat.not_lt.2 hfull), fun hroom => ?_⟩
    have hpush : s₂.life.activated env t.entry =
        s₂.life.push ⟨t.entry, true, env.currentTransactionNestLevel⟩ := by
      refine if_pos ⟨?_, not_onStack_of_findIdx hnone, Nat.lt_of_not_le hroom⟩
      rw [← hdet']
      simpa using hd
    rw [hpush]
    rfl

theorem wp_apiSpanDeactivate_popsAt (tok : OtelActivation) (hinv : PoolInv s.life) :
    Wp (apiSpanDeactivate env tok)
      (fun _ s' => (s.life.subject env ⟨tok.v⟩ = none → s'.life = s.life) ∧
        ∀ e, s.life.subject env ⟨tok.v⟩ = some e → PopsAt e s.life s'.life)
      (fun _ s' =>
        TakesOnly ((s.life.subject env ⟨tok.v⟩).elim [] s.life.startsAbove) s.life s'.life) s := by
  unfold apiSpanDeactivate
  rw [wp_bind]
  refine wp_callRefused env fun s₁ h₁ => ?_
  obtain ⟨hl₁, -⟩ := St.core_eq h₁
  rw [wp_ite]
  refine ⟨fun hr => ?_, fun hr => ?_⟩
  · rw [Lifecycle.subject_none env hr]
    exact ⟨fun _ => hl₁, nofun⟩
  rw [Lifecycle.subject_some env hr, wp_bind]
  refine wp_entryForRef fun s₂ h₂ => ?_
  obtain ⟨hl₂, -⟩ := St.core_eq h₂
  have hl : s₂.life = s.life := hl₂.trans hl₁
  rw [hl₁]
  rw [← hl] at hinv ⊢
  cases s₂.life.entryOf ⟨tok.v⟩ with
  | none => exact ⟨fun _ => rfl, nofun⟩
  | some e =>
    have hfind := findIdx_stack s₂.life.spanStack e
    -- Off the stack there is nothing to pop.
    have hoff (h : ¬s₂.life.OnStack e) : PopsAt e s₂.life s₂.life := by
      have habove : s₂.life.above e = [] := if_neg h
      refine ⟨?_, (if_neg h).symm, ?_⟩
      · rw [habove]
        exact .refl _ _
      · rw [habove]
        rfl
    have hcases {c : Lifecycle} (h : PopsAt e s₂.life c) : (some e = none → c = s₂.life) ∧
        ∀ e', some e = some e' → PopsAt e' s₂.life c :=
      ⟨nofun, fun e' he => Option.some.inj he ▸ h⟩
    unfold stackFind
    rw [wp_bind, wp_bind, wp_get, wp_pure]
    rw [show s₂.spanStack = s₂.life.spanStack from rfl]
    cases hf : s₂.life.spanStack.findIdx? fun x => x.entry = e with
    | none =>
      rw [hf] at hfind
      exact hcases (hoff hfind)
    | some pos =>
      rw [hf] at hfind
      obtain ⟨above, x, rest, hstack, rfl, hx, hon, habove⟩ := hfind
      have habove' : s₂.life.above e = above := (if_pos hon).trans habove.symm
      rw [← habove']
      exact (wp_popEntryAt_popsAt env _ _ hon hinv.stack_nodup).mono (fun _ _ h => hcases h)
        fun _ _ h => h

end Calls

/-! ## Releases -/

theorem leaves_disown (c : Lifecycle) (i : ℕ) (l : List StackEntry) (fate : Fate) :
    Leaves [] fate c (c.disown i l) := by
  have hset := leaves_setSlot (c := c) (i := i) (l := { c.slots.cell i with owner := none }) fate rfl
    rfl rfl
  exact { hset with }

/-- What becomes of the span in slot `i` when its owner releases it. -/
def Lifecycle.releaseFate (c : Lifecycle) (i : ℕ) (leaked : Bool) : Fate :=
  if leaked then .leaked else if (c.slots.cell i).dispatching then .dropped else .dispatched

/-- In no dispatch there is no span to drop. -/
theorem Lifecycle.releaseFate_calm {c : Lifecycle} {i : ℕ} {ref : OwnedRef} (hinv : PoolInv c)
    (hd : c.dispatchDepth = 0) (hi : c.slotOf ref.1 = some i) (leaked : Bool) :
    c.releaseFate i leaked = if leaked then .leaked else .dispatched := by
  have hcell := hinv.not_dispatching hd i (Lifecycle.live_of_slotOf ref.2 hi)
  simp [Lifecycle.releaseFate, hcell]

/-- The release callback, for a span that is reported as leaked or not. -/
theorem wp_otelSpanReleaseResource_leaves {ref : OtelSpanRef} {c : Lifecycle} {i : ℕ} {leaked : Bool}
    {s : St} (hs : s.life = c.setLeaked i leaked) (hnodup : (c.spanStack.map StackEntry.entry).Nodup)
    (hi : c.slotOf ref = some i) :
    Wp (otelSpanReleaseResource env ref)
      (fun _ s' => LeavesAlone (.slot i) (c.releaseFate i leaked) c s'.life)
      (fun _ s' => TakesOnly [] c s'.life) s := by
  unfold Lifecycle.slotOf at hi
  split_ifs at hi with hmatch
  obtain rfl := Option.some.inj hi
  have hcell : (s.slots (refIdx ref)).toSlotLife =
      { c.slots.cell (refIdx ref) with leaked := leaked } := by
    change s.life.slots.cell (refIdx ref) = _
    rw [hs, Lifecycle.setLeaked_cell]
  have hmatch' : refIdx ref < s.slotsUsed ∧ (s.slots (refIdx ref)).gen = refGen ref := by
    refine ⟨?_, (congrArg SlotLife.gen hcell).trans hmatch.2⟩
    change refIdx ref < s.life.slots.used
    rw [hs]
    exact hmatch.1
  unfold otelSpanReleaseResource
  rw [wp_bind, wp_get, wp_ite]
  refine ⟨fun hn => absurd hmatch' hn, fun _ => ?_⟩
  rw [wp_bind]
  refine wp_modifySlot fun s₁ hl₁ _ => ?_
  have hlife₁ : s₁.life = (c.setLeaked (refIdx ref) leaked).disown (refIdx ref) c.spanStack := by
    rw [hl₁]
    simp only [hcell, hs]
    simp [Lifecycle.setLeaked, Lifecycle.disown, Pool.set]
  have hnodup₁ : (s₁.spanStack.map StackEntry.entry).Nodup := by
    change (s₁.life.spanStack.map StackEntry.entry).Nodup
    rw [hlife₁]
    exact hnodup
  rw [wp_bind, wp_stackRemove_iff hnodup₁]
  -- The span has lost its owner and is off the stack.
  have hbefore (fate : Fate) : Leaves [] fate c (s₁.unstack (.slot (refIdx ref))).life := by
    have hleaked : Leaves [] fate c (c.setLeaked (refIdx ref) leaked) :=
      leaves_setSlot fate rfl rfl rfl
    have hdisowned : Leaves [] fate c s₁.life := by
      rw [hlife₁]
      exact hleaked.trans (leaves_disown _ _ _ fate) fun _ h => absurd h List.not_mem_nil
    exact { hdisowned with }
  have hstack₂ : (s₁.unstack (.slot (refIdx ref))).spanStack =
      c.spanStack.filter fun x => x.entry ≠ .slot (refIdx ref) := by
    change s₁.life.spanStack.filter _ = _
    rw [hlife₁]
    rfl
  have htallies₂ : (s₁.unstack (.slot (refIdx ref))).life.tallies = c.tallies := by
    change s₁.life.tallies = _
    rw [hlife₁]
    rfl
  generalize s₁.unstack (.slot (refIdx ref)) = s₂ at hbefore hstack₂ htallies₂ ⊢
  have hgone {fate : Fate} {c' : Lifecycle} (h : Leaves [.slot (refIdx ref)] fate s₂.life c')
      (hstack : c'.spanStack = s₂.life.spanStack) (htallies : c'.tallies = s₂.life.tallies) :
      LeavesAlone (.slot (refIdx ref)) fate c c' :=
    ⟨(hbefore fate).trans h fun _ _ => List.not_mem_nil, hstack.trans hstack₂,
      htallies.trans htallies₂⟩
  rw [wp_ite, congrArg SlotLife.leaked hcell]
  refine ⟨fun hk => ?_, fun hk => ?_⟩
  · refine (wp_countRelease env _ .leaked _ s₂ rfl).mono (fun _ s₃ h₃ => ?_) fun _ _ h => h.elim
    rw [Lifecycle.releaseFate, if_pos hk, h₃.1]
    exact hgone (leaves_freeSlot s₂.life _ _ .leaked) rfl rfl
  rw [wp_ite, congrArg SlotLife.dispatching hcell, Lifecycle.releaseFate, if_neg hk]
  refine ⟨fun hd => ?_, fun hd => ?_⟩
  · refine (wp_countRelease env _ .dropped _ s₂ rfl).mono (fun _ s₃ h₃ => ?_) fun _ _ h => h.elim
    rw [if_pos hd, h₃.1]
    exact hgone (leaves_freeSlot s₂.life _ _ .dropped) rfl rfl
  · rw [wp_bind, if_neg hd]
    refine (wp_endSlot env (refIdx ref) 0 true _ s₂).mono (fun _ s₃ h₃ => ?_) fun _ _ h₃ =>
      (hbefore .dispatched).takes (takesOnly_endSlot h₃) (List.nil_subset _) (List.nil_subset _)
    refine wp_modifySlot fun s₄ hl₄ _ => ?_
    have hended : LeavesAlone (.slot (refIdx ref)) .dispatched c s₃.life := by
      rw [h₃.1]
      exact hgone (leaves_endSlot s₂.life env.sink true _) rfl rfl
    rw [hl₄]
    have hmark := leaves_setSlot (c := s₃.life) (i := refIdx ref) (l := { s₃.life.slots.cell
      (refIdx ref) with ownerReleasedGen := (s.slots (refIdx ref)).gen }) .dispatched rfl rfl rfl
    exact ⟨hended.leaves.trans hmark fun _ h => absurd h List.not_mem_nil, hended.stack,
      hended.tallies⟩

/-- One resource released by its owner. -/
theorem wp_resourceOwnerRelease_leaves (owner : ResourceOwner) (ref : OwnedRef) (isCommit : Bool)
    {s : St} (hinv : PoolInv s.life) :
    Wp (resourceOwnerRelease env owner ref isCommit)
      (fun _ s' => (s.life.slotOf ref.1 = none → s'.life = s.life) ∧
        ∀ i, s.life.slotOf ref.1 = some i →
          LeavesAlone (.slot i) (s.life.releaseFate i isCommit) s.life s'.life)
      (fun _ s' => TakesOnly [] s.life s'.life) s := by
  have hreport : Wp (runIf (isCommit = true) (reportLeak env ref.1))
      (fun _ s' => s'.life = (s.life.slotOf ref.1).elim s.life fun i =>
        if isCommit then s.life.setLeaked i true else s.life) (fun _ _ => False) s := by
    rw [wp_runIf]
    constructor
    · intro hc
      refine (wp_reportLeak env ref.1 s).mono (fun _ _ h => h.1.trans ?_) fun _ _ h => h
      cases s.life.slotOf ref.1 <;> simp [hc]
    · intro hc
      cases s.life.slotOf ref.1 <;> simp [hc]
  unfold resourceOwnerRelease
  rw [wp_bind]
  refine hreport.mono (fun _ s₁ h₁ => ?_) fun _ _ h => h.elim
  rw [wp_bind]
  cases hi : s.life.slotOf ref.1 with
  | none =>
    rw [hi, Option.elim_none] at h₁
    have hmiss : ¬ (refIdx ref.1 < s₁.slotsUsed ∧
        (s₁.slots (refIdx ref.1)).gen = refGen ref.1) := by
      intro hm
      have : s₁.life.slotOf ref.1 = some (refIdx ref.1) := if_pos hm
      rw [h₁, hi] at this
      cases this
    unfold otelSpanReleaseResource
    rw [wp_bind, wp_get, wp_ite]
    exact ⟨fun _ => ⟨fun _ => h₁, nofun⟩, fun hn => absurd hmiss hn⟩
  | some i =>
    rw [hi, Option.elim_some] at h₁
    have hl : s.life.LiveSlot i := Lifecycle.live_of_slotOf ref.2 hi
    have hlife : s₁.life = s.life.setLeaked i isCommit := by
      rw [h₁]
      cases isCommit with
      | true => rfl
      | false => exact (Lifecycle.setLeaked_self (hinv.unmarked i hl.1).1).symm
    refine (wp_otelSpanReleaseResource_leaves env hlife hinv.stack_nodup hi).mono
      (fun _ s₂ h₂ => ?_) fun _ _ h => h
    rw [wp_modify]
    refine ⟨nofun, fun j hj => ?_⟩
    obtain rfl := Option.some.inj hj
    exact h₂

/-! ## The ends of transactions -/

/-- The entry holds a non-recording span of transaction level `level` or deeper. -/
def NrecLife.isFrom (level : ℕ) (n : NrecLife) : Bool := decide (n.gen ≠ 0 ∧ level ≤ n.nestLevel)

/-- The non-recording spans of transaction level `level` or deeper. -/
def Lifecycle.nrecsFrom (c : Lifecycle) (level : ℕ) : List StackRef :=
  ((List.range c.nrecs.used).filter fun i => (c.nrecs.cell i).isFrom level).map .nrec

theorem wp_freeNrecsFromLevel_leaves (level : ℕ) (fate : Fate) (idxs : List ℕ)
    (hnodup : idxs.Nodup) (s : St) :
    Wp (freeNrecsFromLevel level idxs)
      (fun _ s' => Leaves ((idxs.filter fun i => (s.life.nrecs.cell i).isFrom level).map .nrec) fate
        s.life s'.life ∧ s'.life.tallies = s.life.tallies) (fun _ _ => False) s := by
  induction idxs generalizing s with
  | nil => exact ⟨.refl fate _, rfl⟩
  | cons i rest ih =>
    obtain ⟨hi, hrest⟩ := List.nodup_cons.1 hnodup
    unfold freeNrecsFromLevel
    rw [wp_bind, wp_get, wp_bind, wp_runIf, List.filter_cons]
    refine ⟨fun hc => ?_, fun hc => ?_⟩
    · have hfrom : (s.life.nrecs.cell i).isFrom level = true := decide_eq_true hc
      rw [if_pos hfrom]
      refine wp_freeNrec i true fun s₁ hl₁ _ => ?_
      -- What is left to look at is as it was.
      have hsame : (rest.filter fun j => (s₁.life.nrecs.cell j).isFrom level) =
          rest.filter fun j => (s.life.nrecs.cell j).isFrom level := by
        refine List.filter_congr fun j hj => ?_
        have hcell : s₁.life.nrecs.cell j = s.life.nrecs.cell j := by
          rw [hl₁]
          exact Pool.put_cell_of_ne fun h => hi (h ▸ hj)
        rw [hcell]
      have hih := ih hrest s₁
      rw [hsame] at hih
      refine hih.mono (fun _ s₂ h₂ => ?_) fun _ _ h => h
      have hfirst : Leaves [.nrec i] fate s.life s₁.life := by
        rw [hl₁]
        exact leaves_freeNrec s.life i _ fate
      refine ⟨hfirst.trans h₂.1 fun e he hmem => ?_, h₂.2.trans ?_⟩
      · obtain ⟨j, hj, rfl⟩ := List.mem_map.1 he
        rw [List.mem_singleton, StackRef.nrec.injEq] at hmem
        exact hi (hmem ▸ (List.mem_filter.1 hj).1)
      · rw [hl₁]
        rfl
    · have hfrom : ¬(s.life.nrecs.cell i).isFrom level = true := fun h => hc (of_decide_eq_true h)
      rw [if_neg hfrom]
      exact ih hrest s

/-- What the end of a transaction level takes. -/
structure LevelEnds (level : ℕ) (fate : Fate) (s s' : St) : Prop where
  leaves : Leaves (s.life.nrecsFrom level) fate s.life s'.life
  stack : s'.spanStack = s.spanStack.filter fun e => !s.takenFrom level e
  tallies : s'.life.tallies = s.life.tallies

theorem wp_dropFromLevel_ends (level : ℕ) (isLeak : Bool) (fate : Fate) (s : St) :
    Wp (do dropNrecsFromLevel level; dropActivationsFromLevel level isLeak)
      (fun _ s' => LevelEnds level fate s s') (fun _ _ => False) s := by
  have hspans : Wp (do dropNrecsFromLevel level; dropActivationsFromLevel level isLeak)
      (fun _ s' => Leaves (s.life.nrecsFrom level) fate s.life s'.life ∧
        s'.life.tallies = s.life.tallies) (fun _ _ => False) s := by
    unfold dropNrecsFromLevel dropActivationsFromLevel
    rw [wp_bind, wp_bind, wp_modify, wp_bind, wp_get]
    refine (wp_freeNrecsFromLevel_leaves level fate _ List.nodup_range _).mono (fun _ s₁ h₁ => ?_)
      fun _ _ h => h.elim
    rw [wp_bind, wp_get, wp_bind, wp_modify, wp_runIf]
    exact ⟨fun _ => ⟨{ h₁.1 with }, h₁.2⟩, fun _ => ⟨{ h₁.1 with }, h₁.2⟩⟩
  exact (hspans.and (wp_dropFromLevel level isLeak s)).mono
    (fun _ _ h => ⟨h.1.1, h.2.stack, h.1.2⟩) fun _ _ h => h.1

/-! ## Starts -/

/-- A span that is started at `e`, as far as the record of serials and fates goes. -/
structure Arrives (e : StackRef) (c c' : Lifecycle) : Prop where
  free : ¬c.Live e
  live : c'.Live e
  serials : ∀ e', c.Live e' → c'.serials e' = c.serials e'
  serial : ∀ i, e = .slot i → (c'.slots.cell i).serial = c.started
  started : c'.started = c.started + (c'.serials e).length
  fates : c'.fates = c.fates
  tallies : c'.tallies = c.tallies
  depth : c'.dispatchDepth = c.dispatchDepth

/-- Whether the span is pushed does not matter to that. -/
theorem Arrives.pushUnless {e : StackRef} {c c' : Lifecycle} (h : Arrives e c c') (detached : Bool) :
    Arrives e c (c'.pushUnless detached e) := by
  cases detached with
  | true => exact h
  | false => exact { h with }

/-- A start that returns a handle starts a span, and one that does not changes nothing here. -/
theorem StartOutcome.arrives {c c' : Lifecycle} {detached : Bool} {ref : OtelSpanRef}
    (h : StartOutcome c detached ref c') (hinv : PoolInv c) :
    (ref = otelSpanNone ∧ Leaves [] .dispatched c c' ∧ c'.spanStack = c.spanStack ∧
      c'.tallies = c.tallies) ∨ ∃ e, Arrives e c c' := by
  have hprepared {c₀ : Lifecycle} (hp : c.Prepared c₀) : Leaves [] .dispatched c c₀ := by
    rcases hp with rfl | ⟨-, n, ok, rfl⟩
    · exact .refl _ _
    · exact { Leaves.refl .dispatched c with }
  cases h with
  | refused _ hp =>
    refine .inl ⟨rfl, hprepared hp, hp.spanStack, ?_⟩
    rcases hp with rfl | ⟨-, n, ok, rfl⟩ <;> rfl
  | nrec i t n ht hn _ _ =>
    have htk := hinv.nrecs_valid.taken ht
    have harrives : Arrives (.nrec i) c { c with nrecs := t.set i n } :=
      { free := htk.not_live
        live := (htk.live_set hn).2 (.inl rfl)
        serials := fun e' _ => by cases e' <;> rfl
        serial := fun _ h => by cases h
        started := rfl
        fates := rfl
        tallies := rfl
        depth := rfl }
    exact .inr ⟨.nrec i, harrives.pushUnless detached⟩
  | slot c₀ i t l hp hr ht hl hk hdisp hser _ _ =>
    have hinv₀ := hinv.path (hp.path {})
    have htk := hinv₀.taken ht
    have hlive : (c₀.openSlot t i l).Live (.slot i) := (htk.live_set hl).2 (.inl rfl)
    have hfree : ¬c.Live (.slot i) := fun h => htk.not_live ((hp.live (.slot i)).2 h)
    have hslots : c₀.slots = c.slots ∧ c₀.started = c.started ∧ c₀.fates = c.fates ∧
        c₀.tallies = c.tallies ∧ c₀.dispatchDepth = c.dispatchDepth := by
      rcases hp with rfl | ⟨-, n, ok, rfl⟩ <;> exact ⟨rfl, rfl, rfl, rfl, rfl⟩
    obtain ⟨hslots, hstarted, hfates, htallies, hdepth⟩ := hslots
    have harrives : Arrives (.slot i) c (c₀.openSlot t i l) :=
      { free := hfree
        live := hlive
        serials := fun e' he' => by
          cases e' with
          | slot j =>
            have hj : j ≠ i := fun h => hfree (h ▸ he')
            have hcell : (c₀.openSlot t i l).slots.cell j = c.slots.cell j := by
              rw [← hslots]
              exact (Pool.set_cell_of_ne hj).trans (htk.same j hj)
            simp only [Lifecycle.serials, hcell]
          | nrec j => rfl
        serial := fun j hj => by
          obtain rfl : i = j := by injection hj
          have hcell : (c₀.openSlot t i l).slots.cell i = l := Pool.set_cell_self
          rw [hcell, hser, hstarted]
        started := congrArg (· + 1) hstarted
        fates := hfates
        tallies := htallies
        depth := hdepth }
    exact .inr ⟨.slot i, harrives.pushUnless detached⟩

/-! ## Calls that take nothing -/

/-- The calls that may start or end a span, or change the stack. -/
def ProducerOp.aboutSpans : ProducerOp → Bool
  | .spanStart _ | .spanEnd .. | .spanDiscard _ | .spanActivate _ | .spanDeactivate _
  | .ownerRelease .. | .xactCallback _ | .subxactCallback _ => true
  | _ => false

theorem wp_runOp_still {op : ProducerOp} (h : op.aboutSpans = false) (s : St) :
    Wp (runOp env op) (fun _ s' => s'.life = s.life) (fun _ s' => s'.life = s.life) s := by
  have quiet {α : Type} {x : M α} (hx : Quiet x) :
      Wp x (fun _ s' => s'.life = s.life) (fun _ s' => s'.life = s.life) s :=
    hx.wp fun _ _ h => (St.core_eq h).1
  have discards {α : Type} {x : M α} (hx : Quiet x) :
      Wp (discardResult x) (fun _ s' => s'.life = s.life) (fun _ s' => s'.life = s.life) s := by
    unfold discardResult
    rw [wp_bind]
    exact quiet hx
  cases op with
  | spanStart | spanEnd | spanDiscard | spanActivate | spanDeactivate | ownerRelease | xactCallback
  | subxactCallback => cases h
  | spanSetStr ref key val => exact quiet (setter_apiSpanSetStr env ref key val).quiet
  | spanSetInt ref key val => exact quiet (setter_setScalar env ref key _).quiet
  | spanSetDouble ref key val => exact quiet (setter_setScalar env ref key _).quiet
  | spanSetBool ref key val => exact quiet (setter_setScalar env ref key _).quiet
  | spanSetVprintf ref key formatted =>
    exact quiet (setter_apiSpanSetVprintf env ref key formatted).quiet
  | spanSetName ref name => exact quiet (setter_apiSpanSetName env ref name).quiet
  | spanSetStatus ref code description =>
    exact quiet (setter_apiSpanSetStatus env ref code description).quiet
  | spanAddEvent ref name ts attrs => exact quiet (setter_apiSpanAddEvent env ref name ts attrs).quiet
  | spanAddLink ref target => exact quiet (setter_apiSpanAddLink env ref target).quiet
  | spanRecordError ref edata => exact quiet (setter_apiSpanRecordError env ref edata).quiet
  | spanCaptureError ref =>
    change Wp (apiSpanCaptureError env ref) _ _ s
    unfold apiSpanCaptureError
    rw [wp_bind]
    refine (quiet_setterSlot env ref).wp fun slot s₁ h₁ => ?_
    have hl₁ := (St.core_eq h₁).1
    cases slot with
    | none => exact hl₁
    | some i =>
      dsimp only
      rw [wp_bind, wp_get]
      cases s₁.backend.errorStack with
      | nil => exact wp_raiseError fun _ h => h.trans hl₁
      | cons edata _ =>
        dsimp only
        rw [wp_ite]
        refine ⟨fun _ => (tame_slotRecordError env i _).quiet.wp fun _ _ h₂ =>
          (St.core_eq h₂).1.trans hl₁, fun _ => ?_⟩
        rw [wp_ite]
        refine ⟨fun _ => ?_, fun _ => (tame_recordCopy env i edata).quiet.wp fun _ _ h₂ =>
          (St.core_eq h₂).1.trans hl₁⟩
        rw [wp_bind]
        exact (tame_request i _ 0).quiet.wp fun _ _ h₂ => wp_raiseError fun _ h =>
          h.trans ((St.core_eq h₂).1.trans hl₁)
  | spanCurrent => exact discards (tame_apiSpanCurrent env).quiet
  | spanContextOf ref => exact discards (quiet_apiSpanContextOf env ref)
  | emitLog edata => exact quiet (tame_otelEmitLogHook env edata).quiet
  | shmemExit => exact rfl

end PostgresOtel
