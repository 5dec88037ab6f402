import Mathlib.Data.Nat.Notation

/-!
# Machines and what holds along their runs

A `Machine` says where runs start, which labels a state allows and where each leads.  Its reachable
states are built one step at a time; `ReachBy ok` are those reached by steps that all satisfy `ok`,
so that a property of every run whose steps meet a condition is an induction on `ReachBy`.
-/

set_option autoImplicit false

/-- A labelled machine with states `S` and labels `A`. -/
structure Machine (S A : Type) where
  init : S
  enabled : S → A → Prop
  next : S → A → S

namespace Machine

variable {S A : Type} {m : Machine S A}

/-- The states reached by enabled steps that all satisfy `ok`. -/
inductive ReachBy (m : Machine S A) (ok : S → A → Prop) : S → Prop
  | init : ReachBy m ok m.init
  | step {s : S} (a : A) : ReachBy m ok s → m.enabled s a → ok s a → ReachBy m ok (m.next s a)

/-- The states of all runs. -/
abbrev Reachable (m : Machine S A) (s : S) : Prop := m.ReachBy (fun _ _ => True) s

/-- The labels can be taken one after another. -/
def Admits (m : Machine S A) (ok : S → A → Prop) : S → List A → Prop
  | _, [] => True
  | s, a :: as => m.enabled s a ∧ ok s a ∧ Admits m ok (m.next s a) as

instance decidableAdmits {ok : S → A → Prop} [∀ s a, Decidable (m.enabled s a)]
    [∀ s a, Decidable (ok s a)] : ∀ s as, Decidable (m.Admits ok s as)
  | _, [] => .isTrue trivial
  | s, a :: as =>
    have : Decidable (m.Admits ok (m.next s a) as) := decidableAdmits _ as
    inferInstanceAs (Decidable (m.enabled s a ∧ ok s a ∧ m.Admits ok (m.next s a) as))

theorem ReachBy.run {ok : S → A → Prop} {s : S} (hs : m.ReachBy ok s) {as : List A}
    (h : m.Admits ok s as) : m.ReachBy ok (as.foldl m.next s) := by
  induction as generalizing s with
  | nil => exact hs
  | cons a as ih => exact ih (hs.step a h.1 h.2.1) h.2.2

theorem ReachBy.mono {ok k : S → A → Prop} (h : ∀ s a, ok s a → k s a) {s : S}
    (hs : m.ReachBy ok s) : m.ReachBy k s := by
  induction hs with
  | init => exact .init
  | step a _ he ha ih => exact .step a ih he (h _ _ ha)

theorem ReachBy.reachable {ok : S → A → Prop} {s : S} (hs : m.ReachBy ok s) : m.Reachable s :=
  hs.mono fun _ _ _ => trivial

theorem Reachable.step {s : S} (a : A) (hs : m.Reachable s) (he : m.enabled s a) :
    m.Reachable (m.next s a) :=
  ReachBy.step a hs he trivial

/-- An invariant that holds at the start and that every accepted step preserves holds along every
accepted run. -/
theorem ReachBy.invariant {ok : S → A → Prop} {I : S → Prop} (hinit : I m.init)
    (hstep : ∀ s a, I s → m.enabled s a → ok s a → I (m.next s a)) {s : S} (hs : m.ReachBy ok s) :
    I s := by
  induction hs with
  | init => exact hinit
  | step a _ he ha ih => exact hstep _ a ih he ha

theorem Reachable.invariant {I : S → Prop} (hinit : I m.init)
    (hstep : ∀ s a, I s → m.enabled s a → I (m.next s a)) {s : S} (hs : m.Reachable s) : I s :=
  ReachBy.invariant hinit (fun s a hI he _ => hstep s a hI he) hs

/-- The steps of a run are enabled and taken where its invariants hold. -/
theorem ReachBy.withInvariant {ok : S → A → Prop} {I : S → Prop} (hI : ∀ s, m.ReachBy ok s → I s)
    {s : S} (hs : m.ReachBy ok s) : m.ReachBy (fun s a => ok s a ∧ m.enabled s a ∧ I s) s := by
  induction hs with
  | init => exact .init
  | step a hs he ha ih => exact ih.step a he ⟨ha, he, hI _ hs⟩

/-! ## Machines with more state -/

variable {E B : Type}

/-- The machine with a second state beside its own.  A label of the extension makes the machine take
the step it stands for, if any. -/
def extend (m : Machine S A) (init : E) (drives : B → Option A) (enabled : S × E → B → Prop)
    (update : S × E → B → E) : Machine (S × E) B where
  init := (m.init, init)
  enabled p b := (∀ a ∈ drives b, m.enabled p.1 a) ∧ enabled p b
  next p b := ((drives b).elim p.1 (m.next p.1), update p b)

variable {init : E} {drives : B → Option A} {enabled : S × E → B → Prop} {update : S × E → B → E}

/-- A run of the extension is a run of the machine. -/
theorem ReachBy.base {ok : S × E → B → Prop} {k : S → A → Prop}
    (hok : ∀ p b a, ok p b → a ∈ drives b → k p.1 a) {p : S × E}
    (h : (m.extend init drives enabled update).ReachBy ok p) : m.ReachBy k p.1 := by
  induction h with
  | init => exact .init
  | @step p b _ hen hb ih =>
    change m.ReachBy k ((drives b).elim p.1 (m.next p.1))
    cases ha : drives b with
    | none => exact ih
    | some a => exact ih.step a (hen.1 a ha) (hok p b a hb ha)

/-- An invariant of an extension, where the machine's own steps are known to be right. -/
theorem ReachBy.invariantOver {ok : S × E → B → Prop} {k : S → A → Prop} {I : S × E → Prop}
    (hok : ∀ p b a, ok p b → a ∈ drives b → k p.1 a) (hinit : I (m.init, init))
    (hstep : ∀ p b, m.ReachBy k p.1 → I p → (m.extend init drives enabled update).enabled p b →
      ok p b → I ((m.extend init drives enabled update).next p b)) {p : S × E}
    (h : (m.extend init drives enabled update).ReachBy ok p) : I p := by
  induction h with
  | init => exact hinit
  | step b hp hen hb ih => exact hstep _ b (hp.base hok) ih hen hb

end Machine
