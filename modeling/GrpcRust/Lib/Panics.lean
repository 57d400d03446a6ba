import Mathlib.Tactic
/-!
# Calls that may panic

`Outcome x Q R`: if the call returns, then with `Q`, and if it panics, then with `R`. The rules follow the program.
-/

namespace Lib

universe u v w

variable {ε : Type u} {α β : Type v}

structure Outcome (x : Except ε α) (Q : α → Prop) (R : ε → Prop) : Prop where
  ok : ∀ a, x = .ok a → Q a
  error : ∀ e, x = .error e → R e

namespace Outcome
variable {Q Q' : α → Prop} {R R' : ε → Prop} {x : Except ε α}

theorem ret {a : α} (h : Q a) : Outcome (.ok a) Q R where
  ok _ he := by cases he; exact h
  error _ he := by cases he

theorem panic {e : ε} (h : R e) : Outcome (.error e) Q R where
  ok _ he := by cases he
  error _ he := by cases he; exact h

theorem mono (h : Outcome x Q R) (hQ : ∀ a, Q a → Q' a) (hR : ∀ e, R e → R' e) : Outcome x Q' R' where
  ok a he := hQ a (h.ok a he)
  error e he := hR e (h.error e he)

theorem any (x : Except ε α) : Outcome x (fun a => x = .ok a) fun _ => True where
  ok _ he := he
  error _ _ := trivial

theorem eqn (h : Outcome x Q R) : Outcome x (fun a => x = .ok a ∧ Q a) R where
  ok a he := ⟨he, h.ok a he⟩
  error := h.error

theorem bind {Q : β → Prop} {R : ε → Prop} {M : α → Prop} {f : α → Except ε β} (hx : Outcome x M R)
    (hf : ∀ a, M a → Outcome (f a) Q R) : Outcome (x >>= f) Q R := by
  cases x with
  | ok a => exact hf a (hx.ok a rfl)
  | error e => exact panic (hx.error e rfl)

theorem map {Q : β → Prop} {R : ε → Prop} {f : α → β} (hx : Outcome x (fun a => Q (f a)) R) :
    Outcome (x.map f) Q R := by
  cases x with
  | ok a => exact ret (hx.ok a rfl)
  | error e => exact panic (hx.error e rfl)

theorem mapError {ε' : Type w} {R : ε' → Prop} {f : ε → ε'} (hx : Outcome x Q fun e => R (f e)) :
    Outcome (x.mapError f) Q R := by
  cases x with
  | ok a => exact ret (hx.ok a rfl)
  | error e => exact panic (hx.error e rfl)

end Outcome

end Lib
