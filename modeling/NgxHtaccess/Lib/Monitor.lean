import Mathlib.Data.List.Basic

/-!
Monitors of event logs. A state follows the events of a log, and a log is
accepted when every event is good in the state that it meets.
-/
namespace Monitor

universe u v

variable {σ : Type u} {ε : Type v}

def Accepts (next : σ → ε → σ) (good : σ → ε → Prop) : σ → List ε → Prop
  | _, [] => True
  | s, e :: es => good s e ∧ Accepts next good (next s e) es

instance Accepts.decidable (next : σ → ε → σ) (good : σ → ε → Prop)
    [∀ s e, Decidable (good s e)] (s : σ) (es : List ε) : Decidable (Accepts next good s es) :=
  match es with
  | [] => .isTrue trivial
  | e :: es =>
      have := Accepts.decidable next good (next s e) es
      inferInstanceAs (Decidable (good s e ∧ _))

variable {next : σ → ε → σ} {good good' : σ → ε → Prop}

theorem accepts_append (s : σ) (es fs : List ε) :
    Accepts next good s (es ++ fs) ↔
      Accepts next good s es ∧ Accepts next good (es.foldl next s) fs := by
  induction es generalizing s with
  | nil => simp only [List.nil_append, Accepts, List.foldl_nil, true_and]
  | cons e es ih => simp only [List.cons_append, Accepts, List.foldl_cons, ih, and_assoc]

theorem foldl_of_stutter {s : σ} {es : List ε} (h : ∀ e ∈ es, next s e = s) :
    es.foldl next s = s := by
  induction es with
  | nil => rfl
  | cons e es ih =>
      rw [List.foldl_cons, h e List.mem_cons_self]
      exact ih fun f hf => h f (List.mem_cons_of_mem _ hf)

/-- Events that leave the state alone are judged in it one by one. -/
theorem accepts_of_stutter {s : σ} {es : List ε} (h : ∀ e ∈ es, next s e = s) :
    Accepts next good s es ↔ ∀ e ∈ es, good s e := by
  induction es with
  | nil => simp only [Accepts, List.not_mem_nil, false_implies, implies_true]
  | cons e es ih =>
      rw [Accepts, h e List.mem_cons_self, ih fun f hf => h f (List.mem_cons_of_mem _ hf),
        List.forall_mem_cons]

/-- From states of `inv` two notions of good accept the same segments, and the
segment leads to states of `inv'`. -/
def Agree (next : σ → ε → σ) (good good' : σ → ε → Prop) (inv inv' : σ → Prop) (es : List ε) :
    Prop :=
  ∀ s, inv s →
    (Accepts next good s es ↔ Accepts next good' s es) ∧ inv' (es.foldl next s)

theorem agree_nil {inv inv' : σ → Prop} (h : ∀ s, inv s → inv' s) :
    Agree next good good' inv inv' [] :=
  fun s hs => ⟨Iff.rfl, h s hs⟩

theorem agree_append {inv inv' inv'' : σ → Prop} {es fs : List ε}
    (hes : Agree next good good' inv inv' es) (hfs : Agree next good good' inv' inv'' fs) :
    Agree next good good' inv inv'' (es ++ fs) := by
  intro s hs
  obtain ⟨hiff, hmid⟩ := hes s hs
  obtain ⟨hiff', hend⟩ := hfs _ hmid
  rw [accepts_append, accepts_append, hiff, hiff', List.foldl_append]
  exact ⟨Iff.rfl, hend⟩

end Monitor
