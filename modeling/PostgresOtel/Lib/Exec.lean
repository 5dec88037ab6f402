import Mathlib.Data.Nat.Notation
import Mathlib.Logic.Function.Basic

/-!
# Weakest preconditions for state with exceptions

C code that can be left by a non-local exit is modelled in `EStateM`: a computation ends normally
with a value, or with an exception, and in both cases with the state it reached.  `Wp x Q E s` says
that `x`, started in `s`, ends normally in a state that `Q` accepts or by an exception in a state
that `E` accepts.
-/

set_option autoImplicit false

namespace Exec

variable {ε σ α β : Type}

/-- Every way out of `x` from `s` is accepted: by `Q` if normal, by `E` if by an exception. -/
def Wp (x : EStateM ε σ α) (Q : α → σ → Prop) (E : ε → σ → Prop) (s : σ) : Prop :=
  match x s with
  | .ok a s' => Q a s'
  | .error e s' => E e s'

/-- The state a computation ends in, however it ends. -/
def endState (x : EStateM ε σ α) (s : σ) : σ :=
  match x s with
  | .ok _ s' => s'
  | .error _ s' => s'

/-- The computation ends normally. -/
def returns (x : EStateM ε σ α) (s : σ) : Bool :=
  match x s with
  | .ok _ _ => true
  | .error _ _ => false

/-- The value a computation returns, if it returns one. -/
def value (x : EStateM ε σ α) (s : σ) : Option α :=
  match x s with
  | .ok a _ => some a
  | .error _ _ => none

variable (Q : α → σ → Prop) (E : ε → σ → Prop) (s : σ)

theorem wp_pure (a : α) : Wp (pure a) Q E s ↔ Q a s := Iff.rfl

theorem wp_bind (x : EStateM ε σ β) (f : β → EStateM ε σ α) :
    Wp (x >>= f) Q E s ↔ Wp x (fun b s' => Wp (f b) Q E s') E s := by
  change (match EStateM.bind x f s with
    | .ok a s' => Q a s'
    | .error e s' => E e s') ↔ _
  unfold EStateM.bind Wp
  cases x s <;> rfl

theorem wp_get (Q : σ → σ → Prop) : Wp (get : EStateM ε σ σ) Q E s ↔ Q s s := Iff.rfl

theorem wp_modify (Q : PUnit → σ → Prop) (f : σ → σ) :
    Wp (modify f : EStateM ε σ PUnit) Q E s ↔ Q ⟨⟩ (f s) := Iff.rfl

theorem wp_throw (e : ε) : Wp (throw e : EStateM ε σ α) Q E s ↔ E e s := Iff.rfl

theorem wp_tryCatch (x : EStateM ε σ α) (h : ε → EStateM ε σ α) :
    Wp (tryCatch x h) Q E s ↔ Wp x Q (fun e s' => Wp (h e) Q E s') s := by
  change (match EStateM.tryCatch x h s with
    | .ok a s' => Q a s'
    | .error e s' => E e s') ↔ _
  unfold EStateM.tryCatch Wp
  cases x s <;> rfl

theorem wp_ite (c : Prop) [Decidable c] (x y : EStateM ε σ α) :
    Wp (if c then x else y) Q E s ↔ (c → Wp x Q E s) ∧ (¬ c → Wp y Q E s) := by
  by_cases h : c <;> simp [h]

variable {Q E s}

/-- Consequence: both postconditions may be weakened. -/
theorem Wp.mono {x : EStateM ε σ α} {Q' : α → σ → Prop} {E' : ε → σ → Prop} (h : Wp x Q E s)
    (hQ : ∀ a s', Q a s' → Q' a s') (hE : ∀ e s', E e s' → E' e s') : Wp x Q' E' s := by
  unfold Wp at h ⊢
  cases hx : x s with
  | ok a s' =>
    rw [hx] at h
    exact hQ a s' h
  | error e s' =>
    rw [hx] at h
    exact hE e s' h

theorem Wp.of_forall {x : EStateM ε σ α} (hQ : ∀ a s', Q a s') (hE : ∀ e s', E e s') : Wp x Q E s := by
  unfold Wp
  cases x s with
  | ok a s' => exact hQ a s'
  | error e s' => exact hE e s'

/-- The postcondition holds of a result. -/
theorem Wp.result {x : EStateM ε σ α} {a : α} {s' : σ} (h : Wp x Q E s) (hx : x s = .ok a s') :
    Q a s' := by
  unfold Wp at h
  rw [hx] at h
  exact h

/-- A computation that no exception can leave returns. -/
theorem Wp.exists_ok {x : EStateM ε σ α} (h : Wp x Q (fun _ _ => False) s) :
    ∃ a s', x s = .ok a s' ∧ Q a s' := by
  unfold Wp at h
  cases hx : x s with
  | ok a s' =>
    rw [hx] at h
    exact ⟨a, s', rfl, h⟩
  | error e s' =>
    rw [hx] at h
    exact h.elim

theorem endState_ok {x : EStateM ε σ α} {a : α} {s' : σ} (hx : x s = .ok a s') :
    endState x s = s' := by
  unfold endState
  rw [hx]

theorem endState_bind_ok {x : EStateM ε σ β} {f : β → EStateM ε σ α} {b : β} {s' : σ}
    (hx : x s = .ok b s') : endState (x >>= f) s = endState (f b) s' := by
  change (match EStateM.bind x f s with
    | .ok _ s' => s'
    | .error _ s' => s') = _
  unfold EStateM.bind
  rw [hx]
  rfl

theorem ok_of_value {x : EStateM ε σ α} {a : α} (h : value x s = some a) :
    x s = .ok a (endState x s) := by
  unfold value at h
  unfold endState
  cases hx : x s with
  | ok b s' =>
    rw [hx] at h
    rw [Option.some.inj h]
  | error e s' =>
    rw [hx] at h
    cases h

theorem Wp.of_error {x : EStateM ε σ α} {e : ε} {s' : σ} (hx : x s = .error e s') (hE : E e s') :
    Wp x Q E s := by
  unfold Wp
  rw [hx]
  exact hE

theorem wp_endState (x : EStateM ε σ α) (s : σ) :
    Wp x (fun _ s' => s' = endState x s) (fun _ s' => s' = endState x s) s := by
  unfold Wp endState
  cases x s <;> rfl

/-- What both postconditions agree on holds of the final state. -/
theorem Wp.endState {x : EStateM ε σ α} {I : σ → Prop}
    (h : Wp x (fun _ s' => I s') (fun _ s' => I s') s) : I (endState x s) := by
  unfold Wp at h
  unfold Exec.endState
  cases hx : x s with
  | ok a s' =>
    rw [hx] at h
    exact h
  | error e s' =>
    rw [hx] at h
    exact h

/-- What holds of every normal end holds of the final state of a computation that returns. -/
theorem Wp.of_returns {x : EStateM ε σ α} {I : σ → Prop} (h : Wp x (fun _ s' => I s') E s)
    (hx : returns x s = true) : I (Exec.endState x s) := by
  unfold Wp at h
  unfold returns at hx
  unfold Exec.endState
  cases hr : x s with
  | ok a s' =>
    rw [hr] at h
    exact h
  | error e s' =>
    rw [hr] at hx
    cases hx

/-- Both postconditions of two triples hold together. -/
theorem Wp.and {x : EStateM ε σ α} {Q' : α → σ → Prop} {E' : ε → σ → Prop} (h : Wp x Q E s)
    (h' : Wp x Q' E' s) : Wp x (fun a s' => Q a s' ∧ Q' a s') (fun e s' => E e s' ∧ E' e s') s := by
  unfold Wp at h h' ⊢
  cases hx : x s with
  | ok a s' =>
    rw [hx] at h h'
    exact ⟨h, h'⟩
  | error e s' =>
    rw [hx] at h h'
    exact ⟨h, h'⟩

/-! ## Frames -/

/-- However `x` ends, it is within the relation: the state it reached is related to the one it was
started in.  For a preorder this is closed under the constructs of the monad. -/
def Within (R : σ → σ → Prop) (x : EStateM ε σ α) : Prop :=
  ∀ s, Wp x (fun _ s' => R s s') (fun _ s' => R s s') s

section Within

variable {R : σ → σ → Prop}

theorem within_pure [Std.Refl R] (a : α) : Within R (pure a : EStateM ε σ α) := fun s =>
  Std.Refl.refl s

theorem within_get [Std.Refl R] : Within R (get : EStateM ε σ σ) := fun s => Std.Refl.refl s

theorem within_throw [Std.Refl R] (e : ε) : Within R (throw e : EStateM ε σ α) := fun s =>
  Std.Refl.refl s

theorem within_modify {f : σ → σ} (h : ∀ s, R s (f s)) :
    Within R (modify f : EStateM ε σ PUnit) := h

/-- From where `x` has got to, `f` goes on. -/
theorem Within.bind_at [IsTrans σ R] {x : EStateM ε σ β} {f : β → EStateM ε σ α} {s : σ}
    (hx : Wp x (fun _ s' => R s s') (fun _ s' => R s s') s) (hf : ∀ b, Within R (f b)) :
    Wp (x >>= f) (fun _ s' => R s s') (fun _ s' => R s s') s := by
  rw [wp_bind]
  refine hx.mono (fun b s' hs' => ?_) fun _ _ h => h
  exact (hf b s').mono (fun _ _ h => IsTrans.trans _ _ _ hs' h) fun _ _ h =>
    IsTrans.trans _ _ _ hs' h

theorem Within.bind [IsTrans σ R] {x : EStateM ε σ β} {f : β → EStateM ε σ α} (hx : Within R x)
    (hf : ∀ b, Within R (f b)) : Within R (x >>= f) := fun s => Within.bind_at (hx s) hf

theorem Within.ite {c : Prop} [Decidable c] {x y : EStateM ε σ α} (hx : Within R x)
    (hy : Within R y) : Within R (if c then x else y) := by
  by_cases h : c
  · rwa [if_pos h]
  · rwa [if_neg h]

theorem Within.tryCatch [IsTrans σ R] {x : EStateM ε σ α} {h : ε → EStateM ε σ α}
    (hx : Within R x) (hh : ∀ e, Within R (h e)) : Within R (tryCatch x h) := by
  intro s
  rw [wp_tryCatch]
  refine (hx s).mono (fun _ _ h => h) fun e s' hs' => ?_
  exact (hh e s').mono (fun _ _ h => IsTrans.trans _ _ _ hs' h) fun _ _ h =>
    IsTrans.trans _ _ _ hs' h

end Within

end Exec
