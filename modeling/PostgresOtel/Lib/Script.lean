import Mathlib.Data.Option.Basic
import Mathlib.Tactic.ByContra
import Mathlib.Tactic.SplitIfs

/-!
# Programs against an interface

A `Script` is a program that makes calls and goes on with their answers.  What a call answers and what
it does is up to a `Server`; a call that does not return ends the script.  `Ensures` is the partial
correctness of a script on a server.
-/

set_option autoImplicit false

/-- A program that makes the calls of `Op`; the answer to `op` is in `Ans op`. -/
inductive Script (Op : Type) (Ans : Op → Type) (α : Type)
  | done (a : α)
  | call (op : Op) (next : Ans op → Script Op Ans α)

namespace Script

variable {Op : Type} {Ans : Op → Type} {α β S T : Type}

def bind : Script Op Ans α → (α → Script Op Ans β) → Script Op Ans β
  | .done a, f => f a
  | .call op next, f => .call op fun x => (next x).bind f

instance : Monad (Script Op Ans) where
  pure := .done
  bind := bind

/-- One call. -/
def send (op : Op) : Script Op Ans (Ans op) := .call op .done

/-- What serves the calls. -/
structure Server (S Op : Type) (Ans : Op → Type) where
  answer : S → (op : Op) → Option (Ans op)
  next : S → Op → S

/-- The value a script ends with, if all its calls return, and the state it leaves. -/
def run (srv : Server S Op Ans) : Script Op Ans α → S → Option α × S
  | .done a, s => (some a, s)
  | .call op next, s => (srv.answer s op).elim (none, srv.next s op) fun x =>
      (next x).run srv (srv.next s op)

/-- If the script returns, its value and the state it leaves satisfy `Q`. -/
def Ensures (srv : Server S Op Ans) (p : Script Op Ans α) (Q : α → S → Prop) (s : S) : Prop :=
  ∀ a ∈ (p.run srv s).1, Q a (p.run srv s).2

section Rules

variable (srv : Server S Op Ans) (Q : α → S → Prop) (s : S)

theorem ensures_pure (a : α) : Ensures srv (pure a) Q s ↔ Q a s :=
  ⟨fun h => h a rfl, fun h _ ha => Option.some.inj ha ▸ h⟩

theorem ensures_call (op : Op) (next : Ans op → Script Op Ans α) :
    Ensures srv (.call op next) Q s ↔ ∀ x ∈ srv.answer s op, Ensures srv (next x) Q (srv.next s op) := by
  unfold Ensures
  rw [run]
  cases srv.answer s op with
  | none => exact ⟨fun _ => nofun, fun _ => nofun⟩
  | some x => exact ⟨fun h _ hx => Option.some.inj hx ▸ h, fun h => h x rfl⟩

theorem ensures_bind (p : Script Op Ans β) (f : β → Script Op Ans α) :
    Ensures srv (p >>= f) Q s ↔ Ensures srv p (fun b => Ensures srv (f b) Q) s := by
  change Ensures srv (p.bind f) Q s ↔ _
  induction p generalizing s with
  | done b => exact (ensures_pure srv (fun b => Ensures srv (f b) Q) s b).symm
  | call op next ih =>
    rw [bind, ensures_call, ensures_call]
    exact forall₂_congr fun x _ => ih x _

theorem ensures_send (op : Op) (Q : Ans op → S → Prop) :
    Ensures srv (send op) Q s ↔ ∀ x ∈ srv.answer s op, Q x (srv.next s op) := by
  rw [send, ensures_call]
  exact forall₂_congr fun x _ => ensures_pure srv Q _ x

theorem ensures_ite (c : Prop) [Decidable c] (p q : Script Op Ans α) :
    Ensures srv (if c then p else q) Q s ↔ (c → Ensures srv p Q s) ∧ (¬ c → Ensures srv q Q s) := by
  split_ifs with h
  · exact ⟨fun hp => ⟨fun _ => hp, fun hn => absurd h hn⟩, fun hp => hp.1 h⟩
  · exact ⟨fun hq => ⟨fun hc => absurd hc h, fun _ => hq⟩, fun hq => hq.2 h⟩

end Rules

variable {srv : Server S Op Ans} {Q R : α → S → Prop} {s : S}

theorem Ensures.mono {p : Script Op Ans α} (h : Ensures srv p Q s) (hQ : ∀ a s', Q a s' → R a s') :
    Ensures srv p R s := fun a ha => hQ a _ (h a ha)

/-- What every call keeps, a script keeps, whether it returns or not. -/
theorem run_keeps {I : S → Prop} (hI : ∀ s op, I s → I (srv.next s op)) (p : Script Op Ans α) {s : S}
    (h : I s) : I (p.run srv s).2 := by
  induction p generalizing s with
  | done a => exact h
  | call op next ih =>
    rw [run]
    cases srv.answer s op with
    | none => exact hI s op h
    | some x => exact ih x (hI s op h)

/-! ## Servers that are watched -/

/-- The server as long as it gets to states with `g`: a call that leads elsewhere counts as one that does
not return. -/
def Server.guard (srv : Server S Op Ans) (g : S → Prop) [DecidablePred g] : Server S Op Ans where
  answer s op := if g (srv.next s op) then srv.answer s op else none
  next := srv.next

/-- If no call gets back into `g`, a script that ends there has never left it. -/
theorem run_guard {g : S → Prop} [DecidablePred g] (hg : ∀ s op, g (srv.next s op) → g s)
    (p : Script Op Ans α) {s : S} (h : g (p.run srv s).2) : p.run (srv.guard g) s = p.run srv s := by
  have hback (q : Script Op Ans α) {s : S} (h : g (q.run srv s).2) : g s := by
    by_contra hnot
    exact run_keeps (I := fun s => ¬ g s) (fun s op hs hn => hs (hg s op hn)) q hnot h
  induction p generalizing s with
  | done a => rfl
  | call op next ih =>
    have hanswer : (srv.guard g).answer s op = srv.answer s op := by
      refine if_pos ?_
      rw [run] at h
      cases hx : srv.answer s op with
      | none =>
        rw [hx] at h
        exact h
      | some x =>
        rw [hx] at h
        exact hback (next x) h
    rw [run] at h ⊢
    rw [run, hanswer]
    cases hx : srv.answer s op with
    | none => rfl
    | some x =>
      rw [hx] at h
      exact ih x h

end Script
