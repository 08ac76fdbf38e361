import Mathlib.Logic.Function.Basic

/-!
Families of machines that share nothing. An event is for one machine; a machine
takes a step and may answer.
-/
namespace Components

universe u v w x

variable {ι : Type u} [DecidableEq ι] {σ : Type v} {ε : Type w} {ρ : Type x}

def answers (step : σ → ε → σ) (answer : σ → ε → ρ) : (ι → σ) → List (ι × ε) → List ρ
  | _, [] => []
  | machines, e :: events =>
      answer (machines e.1) e.2 ::
        answers step answer (Function.update machines e.1 (step (machines e.1) e.2)) events

/-- A condition on states and events, met wherever an event finds its machine. -/
def Along (step : σ → ε → σ) (C : σ → ε → Prop) : (ι → σ) → List (ι × ε) → Prop
  | _, [] => True
  | machines, e :: events =>
      C (machines e.1) e.2 ∧
        Along step C (Function.update machines e.1 (step (machines e.1) e.2)) events

instance Along.decidable (step : σ → ε → σ) (C : σ → ε → Prop) [∀ s e, Decidable (C s e)] :
    ∀ (machines : ι → σ) (events : List (ι × ε)), Decidable (Along step C machines events)
  | _, [] => instDecidableTrue
  | machines, e :: events =>
      let _ := Along.decidable step C
        (Function.update machines e.1 (step (machines e.1) e.2)) events
      inferInstanceAs (Decidable (_ ∧ _))

variable {step : σ → ε → σ}

end Components
