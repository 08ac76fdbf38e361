import Mathlib.Logic.Basic

/-!
Two fallible computations that fail together and otherwise yield related values,
as `Option.Rel` says it: the rules to compose such pairs.
-/
namespace OptionRel

universe u v w x

variable {α : Type u} {β : Type v} {γ : Type w} {δ : Type x}
  {R : α → β → Prop} {S : γ → δ → Prop}

theorem of_eq {R : α → α → Prop} (h : ∀ a, R a a) (x : Option α) : Option.Rel R x x := by
  cases x with
  | none => exact .none
  | some a => exact .some (h a)

theorem mono {T : α → β → Prop} {x : Option α} {y : Option β} (hxy : Option.Rel R x y)
    (h : ∀ a b, R a b → T a b) : Option.Rel T x y := by
  cases hxy with
  | none => exact .none
  | some hab => exact .some (h _ _ hab)

theorem bind {x : Option α} {y : Option β} {f : α → Option γ} {g : β → Option δ}
    (hxy : Option.Rel R x y) (h : ∀ a b, R a b → Option.Rel S (f a) (g b)) :
    Option.Rel S (x.bind f) (y.bind g) := by
  cases hxy with
  | none => exact .none
  | some hab => exact h _ _ hab

theorem map {x : Option α} {y : Option β} {f : α → γ} {g : β → δ}
    (hxy : Option.Rel R x y) (h : ∀ a b, R a b → S (f a) (g b)) :
    Option.Rel S (x.map f) (y.map g) := by
  cases hxy with
  | none => exact .none
  | some hab => exact .some (h _ _ hab)

theorem symm {x : Option α} {y : Option β} (hxy : Option.Rel R x y) :
    Option.Rel (fun b a => R a b) y x := by
  cases hxy with
  | none => exact .none
  | some hab => exact .some hab

theorem isSome_eq {x : Option α} {y : Option β} (hxy : Option.Rel R x y) :
    x.isSome = y.isSome := by
  cases hxy <;> rfl

end OptionRel
