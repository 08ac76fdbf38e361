import Mathlib.Logic.Basic
import Mathlib.Logic.Relation
import Mathlib.Order.Basic

/-!
Loops with a bound on their rounds. A round either stops with a result or goes
on from a new state; when the rounds are used up the loop yields what `spent`
makes of the state it is left in.
-/
namespace BoundedLoop

universe u v w x y z

inductive Round (σ : Type u) (ρ : Type v) where
  | stop (r : ρ)
  | again (s : σ)

variable {σ : Type u} {ρ : Type v}

/-- The state that a round goes on from. -/
def Round.next : Round σ ρ → Option σ
  | .stop _ => none
  | .again s => some s

theorem Round.next_eq_some {round : Round σ ρ} {s : σ} (h : round.next = some s) :
    round = .again s := by
  cases round with
  | stop r => cases h
  | again t =>
      injection h with h
      rw [h]

def run (step : σ → Round σ ρ) (spent : σ → ρ) : Nat → σ → ρ
  | 0, s => spent s
  | n + 1, s =>
      match step s with
      | .stop r => r
      | .again t => run step spent n t

/-- `Visits step n s t`: of at most `n` rounds from `s`, one starts at `t`. -/
inductive Visits (step : σ → Round σ ρ) : Nat → σ → σ → Prop where
  | here (n : Nat) (s : σ) : Visits step (n + 1) s s
  | later {n : Nat} {s t u : σ} :
      step s = .again t → Visits step n t u → Visits step (n + 1) s u

/-- `Exhausts step n s t`: all `n` rounds from `s` go on, and the last leaves `t`. -/
inductive Exhausts (step : σ → Round σ ρ) : Nat → σ → σ → Prop where
  | done (s : σ) : Exhausts step 0 s s
  | round {n : Nat} {s t u : σ} :
      step s = .again t → Exhausts step n t u → Exhausts step (n + 1) s u

/-- `VisitsThen step n s t u`: of at most `n` rounds from `s`, one starts at `t` and a
later one at `u`. -/
inductive VisitsThen (step : σ → Round σ ρ) : Nat → σ → σ → σ → Prop where
  | here {n : Nat} {s t u : σ} :
      step s = .again t → Visits step n t u → VisitsThen step (n + 1) s s u
  | later {n : Nat} {s t u v : σ} :
      step s = .again t → VisitsThen step n t u v → VisitsThen step (n + 1) s u v

/-- What the visited rounds of a loop give, in their order. -/
def collect {ε : Type w} (step : σ → Round σ ρ) (entries : σ → List ε) : Nat → σ → List ε
  | 0, _ => []
  | n + 1, s =>
      entries s ++
        match step s with
        | .stop _ => []
        | .again t => collect step entries n t

theorem mem_collect {ε : Type w} {step : σ → Round σ ρ} {entries : σ → List ε} {n : Nat} {s t : σ}
    {e : ε} (hvisit : Visits step n s t) (he : e ∈ entries t) : e ∈ collect step entries n s := by
  induction hvisit with
  | here n s =>
      rw [collect]
      exact List.mem_append_left _ he
  | later hstep _ ih =>
      rw [collect, hstep]
      exact List.mem_append_right _ (ih he)

theorem run_of_exhausts {step : σ → Round σ ρ} {spent : σ → ρ} {n : Nat} {s t : σ}
    (h : Exhausts step n s t) : run step spent n s = spent t := by
  induction h with
  | done s => rfl
  | round hs _ ih => simpa only [run, hs] using ih

theorem VisitsThen.first {step : σ → Round σ ρ} {n : Nat} {s t u : σ}
    (h : VisitsThen step n s t u) : Visits step n s t := by
  induction h with
  | here _ _ => exact .here _ _
  | later hs _ ih => exact .later hs ih

theorem run_of_visits_stop {step : σ → Round σ ρ} {spent : σ → ρ} {n : Nat} {s t : σ} {r : ρ}
    (h : Visits step n s t) (ht : step t = .stop r) : run step spent n s = r := by
  induction h with
  | here n s => simp only [run, ht]
  | later hs _ ih => simpa only [run, hs] using ih ht

theorem stops_or_exhausts (step : σ → Round σ ρ) (n : Nat) (s : σ) :
    (∃ t r, Visits step n s t ∧ step t = .stop r) ∨ ∃ t, Exhausts step n s t := by
  induction n generalizing s with
  | zero => exact .inr ⟨s, .done s⟩
  | succ n ih =>
      cases hs : step s with
      | stop r => exact .inl ⟨s, r, .here n s, hs⟩
      | again t =>
          rcases ih t with ⟨u, r, hv, hu⟩ | ⟨u, he⟩
          · exact .inl ⟨u, r, .later hs hv, hu⟩
          · exact .inr ⟨u, .round hs he⟩

theorem visits_stop_unique {step : σ → Round σ ρ} {n : Nat} {s t u : σ} {r q : ρ}
    (ht : Visits step n s t) (hr : step t = .stop r)
    (hu : Visits step n s u) (hq : step u = .stop q) : t = u := by
  induction ht with
  | here n s =>
      cases hu with
      | here => rfl
      | later hs _ => rw [hr] at hs; cases hs
  | later hs _ ih =>
      cases hu with
      | here => rw [hs] at hq; cases hq
      | later hs' hv =>
          rw [hs] at hs'
          cases hs'
          exact ih hr hv

theorem eq_of_visits_stop {step : σ → Round σ ρ} {n : Nat} {s t : σ} {r : ρ}
    (hs : step s = .stop r) (h : Visits step n s t) : t = s := by
  cases h with
  | here => rfl
  | later ht _ => rw [hs] at ht; cases ht

/-- An invariant of the rounds holds wherever a round starts. -/
theorem invariant_of_visits {step : σ → Round σ ρ} {P : σ → Prop}
    (keep : ∀ s t, P s → step s = .again t → P t) {n : Nat} {s t : σ}
    (h : Visits step n s t) (hs : P s) : P t := by
  induction h with
  | here => exact hs
  | later hst _ ih => exact ih (keep _ _ hs hst)

theorem invariant_of_exhausts {step : σ → Round σ ρ} {P : σ → Prop}
    (keep : ∀ s t, P s → step s = .again t → P t) {n : Nat} {s t : σ}
    (h : Exhausts step n s t) (hs : P s) : P t := by
  induction h with
  | done => exact hs
  | round hst _ ih => exact ih (keep _ _ hs hst)

theorem visits_or_exhausts {step : σ → Round σ ρ} {n : Nat} {s t u : σ}
    (h : Visits step n s t) (ht : step t = .again u) :
    Visits step n s u ∨ Exhausts step n s u := by
  induction h with
  | here n s =>
      cases n with
      | zero => exact .inr (.round ht (.done u))
      | succ n => exact .inl (.later ht (.here n u))
  | later hs _ ih =>
      rcases ih ht with hv | he
      · exact .inl (.later hs hv)
      · exact .inr (.round hs he)

/-- What the visited rounds keep holds wherever a round starts and in the state that is
left. -/
theorem visits_invariant {step : σ → Round σ ρ} {P : σ → Prop} {n : Nat} {s : σ}
    (keep : ∀ t u, Visits step n s t → P t → step t = .again u → P u) (hs : P s) :
    (∀ t, Visits step n s t → P t) ∧ ∀ t, Exhausts step n s t → P t := by
  induction n generalizing s with
  | zero =>
      refine ⟨fun t hv => ?_, fun t he => ?_⟩
      · cases hv
      · cases he
        exact hs
  | succ n ih =>
      refine ⟨fun t hv => ?_, fun t he => ?_⟩
      · cases hv with
        | here => exact hs
        | later hst hv =>
            exact (ih (fun t u hv => keep t u (.later hst hv))
              (keep _ _ (.here n s) hs hst)).1 t hv
      · cases he with
        | round hst he =>
            exact (ih (fun t u hv => keep t u (.later hst hv))
              (keep _ _ (.here n s) hs hst)).2 t he

theorem exhausts_after_round {step : σ → Round σ ρ} {P : σ → Prop}
    (after : ∀ s t, step s = .again t → P t) {n : Nat} {s t u : σ}
    (h : Exhausts step n s t) (hv : Visits step n s u) : P t := by
  cases h with
  | done => cases hv
  | round hst he => exact invariant_of_exhausts (fun s t _ => after s t) he (after _ _ hst)

/-- What every round carries on to the next state or to its result holds of the
result of the loop. -/
theorem run_invariant {step : σ → Round σ ρ} {spent : σ → ρ} {P : σ → Prop} {Q : ρ → Prop}
    (again : ∀ s t, P s → step s = .again t → P t) (stop : ∀ s r, P s → step s = .stop r → Q r)
    (last : ∀ s, P s → Q (spent s)) (n : Nat) {s : σ} (hs : P s) : Q (run step spent n s) := by
  rcases stops_or_exhausts step n s with ⟨t, r, hv, ht⟩ | ⟨t, he⟩
  · rw [run_of_visits_stop hv ht]
    exact stop t r (invariant_of_visits again hv hs) ht
  · rw [run_of_exhausts he]
    exact last t (invariant_of_exhausts again he hs)

theorem run_congr {step step' : σ → Round σ ρ} {spent : σ → ρ} {n : Nat} {s : σ}
    (h : ∀ t, Visits step n s t → step' t = step t) : run step' spent n s = run step spent n s := by
  induction n generalizing s with
  | zero => rfl
  | succ n ih =>
      have hfirst := h s (.here n s)
      cases hround : step s with
      | stop r => simp only [run, hfirst, hround]
      | again t =>
          simp only [run, hfirst, hround]
          exact ih fun u hv => h u (.later hround hv)

theorem run_cost {step : σ → Round σ ρ} {spent : σ → ρ} {cost : σ → Nat} {costOf : ρ → Nat}
    {c n : Nat} {s : σ}
    (again : ∀ t u, Visits step n s t → step t = .again u → cost u ≤ cost t + c)
    (stop : ∀ t r, Visits step n s t → step t = .stop r → costOf r ≤ cost t + c)
    (last : ∀ t, costOf (spent t) = cost t) :
    costOf (run step spent n s) ≤ cost s + n * c := by
  induction n generalizing s with
  | zero =>
      rw [Nat.zero_mul, Nat.add_zero]
      exact Nat.le_of_eq (last s)
  | succ n ih =>
      rw [Nat.succ_mul, Nat.add_comm (n * c), ← Nat.add_assoc]
      cases hround : step s with
      | stop r =>
          simp only [run, hround]
          exact Nat.le_trans (stop s r (.here n s) hround) (Nat.le_add_right _ _)
      | again t =>
          simp only [run, hround]
          have hrest := ih (fun u v hv => again u v (.later hround hv))
            fun u r hv => stop u r (.later hround hv)
          exact Nat.le_trans hrest (Nat.add_le_add_right (again s t (.here n s) hround) _)

/-- Let `A` say that something has happened and `B` that it happens in the round.
The result tells whether it had happened at the start or happens in a visited round. -/
theorem happens_run {step : σ → Round σ ρ} {spent : σ → ρ} {P A B : σ → Prop}
    {Q : ρ → Prop}
    (again : ∀ s t, P s → step s = .again t → P t ∧ (A t ↔ A s ∨ B s))
    (stop : ∀ s r, P s → step s = .stop r → (Q r ↔ A s ∨ B s))
    (last : ∀ s, P s → (Q (spent s) ↔ A s)) (n : Nat) {s : σ} (hs : P s) :
    Q (run step spent n s) ↔ A s ∨ ∃ t, Visits step n s t ∧ B t := by
  induction n generalizing s with
  | zero =>
      rw [run, last s hs]
      refine ⟨.inl, fun h => h.resolve_right ?_⟩
      rintro ⟨t, hv, _⟩
      cases hv
  | succ n ih =>
      cases hround : step s with
      | stop r =>
          simp only [run, hround, stop s r hs hround]
          refine or_congr_right ⟨fun h => ⟨s, .here n s, h⟩, ?_⟩
          rintro ⟨t, hv, ht⟩
          cases hv with
          | here => exact ht
          | later hu _ => rw [hround] at hu; cases hu
      | again t =>
          obtain ⟨ht, hA⟩ := again s t hs hround
          simp only [run, hround, ih ht, hA, or_assoc]
          refine or_congr_right ⟨?_, ?_⟩
          · rintro (h | ⟨u, hv, hu⟩)
            · exact ⟨s, .here n s, h⟩
            · exact ⟨u, .later hround hv, hu⟩
          · rintro ⟨u, hv, hu⟩
            cases hv with
            | here => exact .inl hu
            | later hs' hv =>
                rw [hround] at hs'
                cases hs'
                exact .inr ⟨u, hv, hu⟩

/-- Where every round appends its own entries to a log, the log of the result holds
what it held at the start and what the visited rounds appended. -/
theorem mem_log_run {ε : Type w} {step : σ → Round σ ρ} {spent : σ → ρ} (log : σ → List ε)
    (logOf : ρ → List ε) {entries : σ → List ε}
    (again : ∀ s t, step s = .again t → log t = log s ++ entries s)
    (stop : ∀ s r, step s = .stop r → logOf r = log s ++ entries s)
    (last : ∀ s, logOf (spent s) = log s) (n : Nat) (s : σ) (e : ε) :
    e ∈ logOf (run step spent n s) ↔
      e ∈ log s ∨ ∃ t, Visits step n s t ∧ e ∈ entries t :=
  happens_run (P := fun _ => True) (A := fun s => e ∈ log s) (B := fun s => e ∈ entries s)
    (Q := fun r => e ∈ logOf r)
    (fun s t _ h => ⟨trivial, by rw [again s t h, List.mem_append]⟩)
    (fun s r _ h => by rw [stop s r h, List.mem_append])
    (fun s _ => by rw [last s]) n trivial

/-- Related rounds: both stop with related results or go on to related states. -/
def RoundRel {σ' : Type w} {ρ' : Type x} (S : σ → σ' → Prop) (R : ρ → ρ' → Prop) :
    Round σ ρ → Round σ' ρ' → Prop
  | .stop r, .stop r' => R r r'
  | .again s, .again s' => S s s'
  | _, _ => False

section RoundRel
variable {σ' : Type w} {ρ' : Type x} {S S' : σ → σ' → Prop} {R R' : ρ → ρ' → Prop}
  {round : Round σ ρ} {round' : Round σ' ρ'}

theorem RoundRel.imp (h : RoundRel S R round round')
    (again : ∀ s s', round = .again s → round' = .again s' → S s s' → S' s s')
    (stop : ∀ r r', round = .stop r → round' = .stop r' → R r r' → R' r r') :
    RoundRel S' R' round round' := by
  cases round with
  | stop r =>
      cases round' with
      | stop r' => exact stop r r' rfl rfl h
      | again _ => exact h.elim
  | again s =>
      cases round' with
      | stop _ => exact h.elim
      | again s' => exact again s s' rfl rfl h

theorem RoundRel.swap (h : RoundRel S R round round') :
    RoundRel (flip S) (flip R) round' round := by
  cases round <;> cases round' <;> exact h

/-- Rounds that are related to one round are related to each other. -/
theorem RoundRel.comp {σ'' : Type y} {ρ'' : Type z} {T : σ' → σ'' → Prop} {Q : ρ' → ρ'' → Prop}
    {round'' : Round σ'' ρ''} (h : RoundRel S R round round')
    (h' : RoundRel T Q round' round'') :
    RoundRel (Relation.Comp S T) (Relation.Comp R Q) round round'' := by
  cases round' with
  | stop r' =>
      cases round with
      | again _ => exact h.elim
      | stop r =>
          cases round'' with
          | again _ => exact h'.elim
          | stop r'' => exact ⟨r', h, h'⟩
  | again s' =>
      cases round with
      | stop _ => exact h.elim
      | again s =>
          cases round'' with
          | stop _ => exact h'.elim
          | again s'' => exact ⟨s', h, h'⟩

end RoundRel

/-- Two loops yield related results when the rounds that they visit keep a relation. -/
theorem run_rel_both {σ' : Type w} {ρ' : Type x} {step : σ → Round σ ρ}
    {step' : σ' → Round σ' ρ'} {spent : σ → ρ} {spent' : σ' → ρ'} {S : σ → σ' → Prop}
    {R : ρ → ρ' → Prop} (last : ∀ s s', S s s' → R (spent s) (spent' s')) {n : Nat} {s : σ}
    {s' : σ'} (keep : ∀ t t', Visits step n s t → Visits step' n s' t' → S t t' →
      RoundRel S R (step t) (step' t'))
    (h : S s s') : R (run step spent n s) (run step' spent' n s') := by
  induction n generalizing s s' with
  | zero => exact last s s' h
  | succ n ih =>
      have hk := keep s s' (.here n s) (.here n s') h
      cases hs : step s <;> cases hs' : step' s' <;> rw [hs, hs'] at hk <;>
        simp only [RoundRel] at hk
      · simpa only [run, hs, hs'] using hk
      · simp only [run, hs, hs']
        exact ih (fun t t' hv hv' => keep t t' (.later hs hv) (.later hs' hv')) hk

theorem run_rel {σ' : Type w} {ρ' : Type x} {step : σ → Round σ ρ} {step' : σ' → Round σ' ρ'}
    {spent : σ → ρ} {spent' : σ' → ρ'} {S : σ → σ' → Prop} {R : ρ → ρ' → Prop}
    (last : ∀ s s', S s s' → R (spent s) (spent' s')) {n : Nat} {s : σ} {s' : σ'}
    (keep : ∀ t t', Visits step n s t → S t t' → RoundRel S R (step t) (step' t'))
    (h : S s s') : R (run step spent n s) (run step' spent' n s') :=
  run_rel_both last (fun t t' hv _ => keep t t' hv) h

end BoundedLoop
