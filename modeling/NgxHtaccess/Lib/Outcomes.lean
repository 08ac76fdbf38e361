import Mathlib.Logic.Basic

/-!
Rules for computations that may fail. A computation yields a property if it ends in a value that
has the property or in a failure that is allowed, so a run is followed step by step and only the
failures that are not allowed need an argument.
-/
namespace Outcomes

universe u v

variable {ε : Type u} {α β : Type v} {allowed : ε → Prop}

def Yields (allowed : ε → Prop) (x : Except ε α) (P : α → Prop) : Prop :=
  match x with
  | .ok a => P a
  | .error e => allowed e

theorem yields_iff {x : Except ε α} {P : α → Prop} :
    Yields allowed x P ↔ (∃ e, x = .error e ∧ allowed e) ∨ ∃ a, x = .ok a ∧ P a := by
  cases x with
  | ok a => simp [Yields]
  | error e => simp [Yields]

theorem Yields.bind {x : Except ε α} {f : α → Except ε β} {P : α → Prop} {Q : β → Prop}
    (hx : Yields allowed x P) (hf : ∀ a, P a → Yields allowed (f a) Q) :
    Yields allowed (x >>= f) Q := by
  cases x with
  | ok a => exact hf a hx
  | error e => exact hx

theorem Yields.mono {x : Except ε α} {P Q : α → Prop} (hx : Yields allowed x P)
    (h : ∀ a, P a → Q a) : Yields allowed x Q := by
  cases x with
  | ok a => exact h a hx
  | error e => exact hx

theorem yields_ite {c : Prop} [Decidable c] {x y : Except ε α} {P : α → Prop}
    (hx : c → Yields allowed x P) (hy : ¬ c → Yields allowed y P) :
    Yields allowed (if c then x else y) P := by
  split
  · exact hx ‹_›
  · exact hy ‹_›

end Outcomes
