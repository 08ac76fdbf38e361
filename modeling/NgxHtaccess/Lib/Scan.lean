import NgxHtaccess.Lib.BoundedLoop
import Mathlib.Data.List.Basic

/-!
Scans of a list that carry a state and may stop at an item. The trace of a scan
lists the items that it reaches, each with the state in which it is reached.
-/
namespace Scan
open BoundedLoop

universe u v w x z

variable {α : Type u} {σ : Type v} {ρ : Type w}

def scan (step : α → σ → Round σ ρ) : List α → σ → Round σ ρ
  | [], s => .again s
  | a :: as, s =>
      match step a s with
      | .again t => scan step as t
      | .stop r => .stop r

def trace (step : α → σ → Round σ ρ) : List α → σ → List (α × σ)
  | [], _ => []
  | a :: as, s =>
      (a, s) ::
        match step a s with
        | .again t => trace step as t
        | .stop _ => []

variable {step : α → σ → Round σ ρ}

theorem scan_append (as bs : List α) (s : σ) :
    scan step (as ++ bs) s =
      match scan step as s with
      | .again t => scan step bs t
      | .stop r => .stop r := by
  induction as generalizing s with
  | nil => rfl
  | cons a as ih =>
      rw [List.cons_append, scan, scan]
      cases step a s with
      | again t => exact ih t
      | stop r => rfl

theorem scan_filterMap {β : Type x} (pick : α → Option β) {step' : β → σ → Round σ ρ}
    (hskip : ∀ a s, pick a = none → step a s = .again s)
    (htake : ∀ a b s, pick a = some b → step a s = step' b s) (as : List α) (s : σ) :
    scan step as s = scan step' (as.filterMap pick) s := by
  induction as generalizing s with
  | nil => rfl
  | cons a as ih =>
      rw [scan]
      cases hpick : pick a with
      | none =>
          rw [hskip a s hpick, List.filterMap_cons_none hpick]
          exact ih s
      | some b =>
          rw [htake a b s hpick, List.filterMap_cons_some hpick, scan]
          cases step' b s with
          | again t => exact ih t
          | stop r => rfl

theorem scan_eq_stop_iff {as : List α} {s : σ} {r : ρ} :
    scan step as s = .stop r ↔ ∃ y ∈ trace step as s, step y.1 y.2 = .stop r := by
  induction as generalizing s with
  | nil =>
      refine iff_of_false (fun h => by cases h) ?_
      rintro ⟨y, hy, -⟩
      cases hy
  | cons a as ih =>
      rw [scan, trace]
      simp only [List.mem_cons, exists_eq_or_imp]
      cases hround : step a s with
      | again t => rw [ih, or_iff_right (fun h => by cases h)]
      | stop q =>
          refine (or_iff_left ?_).symm
          rintro ⟨y, hy, -⟩
          cases hy

theorem scan_congr {step' : α → σ → Round σ ρ} {as : List α} {s : σ}
    (h : ∀ y ∈ trace step as s, step' y.1 y.2 = step y.1 y.2) :
    scan step' as s = scan step as s := by
  induction as generalizing s with
  | nil => rfl
  | cons a as ih =>
      rw [trace] at h
      have hfirst := h (a, s) List.mem_cons_self
      rw [scan, scan, hfirst]
      cases hround : step a s with
      | stop r => rfl
      | again t =>
          rw [hround] at h
          exact ih fun y hy => h y (List.mem_cons_of_mem _ hy)

/-- Scans end alike when the steps that the first one takes keep a relation. -/
theorem scan_rel {σ' : Type x} {ρ' : Type z} {step' : α → σ' → Round σ' ρ'} {S : σ → σ' → Prop}
    {R : ρ → ρ' → Prop} {as : List α} {s : σ} {s' : σ'}
    (keep : ∀ y ∈ trace step as s, ∀ t', S y.2 t' → RoundRel S R (step y.1 y.2) (step' y.1 t'))
    (h : S s s') : RoundRel S R (scan step as s) (scan step' as s') := by
  induction as generalizing s s' with
  | nil => exact h
  | cons a as ih =>
      rw [trace] at keep
      have hfirst := keep (a, s) List.mem_cons_self s' h
      rw [scan, scan]
      cases hround : step a s with
      | stop r =>
          cases hround' : step' a s' with
          | stop r' => simpa only [hround, hround'] using hfirst
          | again t' => simp only [hround, hround', RoundRel] at hfirst
      | again t =>
          cases hround' : step' a s' with
          | stop r' => simp only [hround, hround', RoundRel] at hfirst
          | again t' =>
              simp only [hround, hround', RoundRel] at hfirst keep
              exact ih (fun y hy => keep y (List.mem_cons_of_mem _ hy)) hfirst

/-- What a round goes on with or stops with. -/
def Holds (P : σ → Prop) (Q : ρ → Prop) : Round σ ρ → Prop
  | .again s => P s
  | .stop r => Q r

/-- What every reached item carries on holds at every reached item and in the end. -/
theorem scan_invariant {P : σ → Prop} {Q : ρ → Prop} {as : List α} {s : σ}
    (keep : ∀ y ∈ trace step as s, P y.2 → Holds P Q (step y.1 y.2)) (hs : P s) :
    (∀ y ∈ trace step as s, P y.2) ∧ Holds P Q (scan step as s) := by
  induction as generalizing s with
  | nil =>
      refine ⟨fun y hy => ?_, hs⟩
      cases hy
  | cons a as ih =>
      have hstep := keep (a, s) List.mem_cons_self hs
      rw [trace] at keep ⊢
      rw [scan]
      cases hround : step a s with
      | again t =>
          rw [hround] at hstep keep
          obtain ⟨hall, hend⟩ := ih (fun y hy => keep y (List.mem_cons_of_mem _ hy)) hstep
          exact ⟨List.forall_mem_cons.mpr ⟨hs, hall⟩, hend⟩
      | stop r =>
          rw [hround] at hstep
          exact ⟨List.forall_mem_cons.mpr ⟨hs, fun y hy => by cases hy⟩, hstep⟩

/-- What some reached items bring about and every reached item carries on holds in the
end if it holds at the start or such an item is reached. -/
theorem scan_latch {P : σ → Prop} {Q : ρ → Prop} {B : α × σ → Prop} {as : List α} {s : σ}
    (keep : ∀ y ∈ trace step as s, B y ∨ P y.2 → Holds P Q (step y.1 y.2))
    (hs : (∃ y ∈ trace step as s, B y) ∨ P s) : Holds P Q (scan step as s) := by
  induction as generalizing s with
  | nil =>
      refine hs.resolve_left ?_
      rintro ⟨y, hy, _⟩
      cases hy
  | cons a as ih =>
      have hfirst := keep (a, s) List.mem_cons_self
      rw [trace] at keep hs
      rw [scan]
      cases hround : step a s with
      | again t =>
          rw [hround] at keep hs hfirst
          refine ih (fun y hy => keep y (List.mem_cons_of_mem _ hy)) ?_
          rcases hs with ⟨y, hy, hB⟩ | hs
          · rcases List.mem_cons.mp hy with rfl | hy
            · exact .inr (hfirst (.inl hB))
            · exact .inl ⟨y, hy, hB⟩
          · exact .inr (hfirst (.inr hs))
      | stop r =>
          rw [hround] at hs hfirst
          refine hfirst (hs.imp_left ?_)
          rintro ⟨y, hy, hB⟩
          rcases List.mem_cons.mp hy with rfl | hy
          · exact hB
          · cases hy

/-- A field that items overwrite is left as the last of them that did has set it. -/
theorem scan_overwrite {β : Type x} (field : σ → β) (fieldOf : ρ → β) (pick : α × σ → Option β)
    (h : ∀ a s, Holds (fun t => field t = (pick (a, s)).getD (field s))
      (fun r => fieldOf r = (pick (a, s)).getD (field s)) (step a s))
    (as : List α) (s : σ) :
    Holds (fun t => field t = ((trace step as s).filterMap pick).getLast?.getD (field s))
      (fun r => fieldOf r = ((trace step as s).filterMap pick).getLast?.getD (field s))
      (scan step as s) := by
  induction as generalizing s with
  | nil => rfl
  | cons a as ih =>
      have hstep := h a s
      rw [trace, scan, List.filterMap_cons]
      cases hround : step a s with
      | again t =>
          rw [hround] at hstep
          have hrest := ih t
          simp only [Holds] at hstep
          rw [hstep] at hrest
          cases hp : pick (a, s) with
          | none => simpa only [hp, Option.getD_none] using hrest
          | some b => simpa only [hp, Option.getD_some, List.getLast?_cons] using hrest
      | stop r =>
          rw [hround] at hstep
          simp only [Holds, List.filterMap_nil] at hstep ⊢
          rw [hstep]
          cases pick (a, s) <;> rfl

theorem trace_overwrite {β : Type x} (field : σ → β) (pick : α × σ → Option β)
    (h : ∀ a s t, step a s = .again t → field t = (pick (a, s)).getD (field s)) {as : List α}
    {s : σ} {before after : List (α × σ)} {y : α × σ}
    (htrace : trace step as s = before ++ y :: after) :
    field y.2 = (before.filterMap pick).getLast?.getD (field s) := by
  induction as generalizing s before with
  | nil => exact absurd htrace.symm (List.append_ne_nil_of_right_ne_nil _ (List.cons_ne_nil _ _))
  | cons a as ih =>
      rw [trace] at htrace
      cases before with
      | nil =>
          rw [← (List.cons.inj htrace).1]
          rfl
      | cons z before =>
          obtain ⟨rfl, hrest⟩ := List.cons.inj htrace
          cases hround : step a s with
          | stop r =>
              rw [hround] at hrest
              exact absurd hrest.symm
                (List.append_ne_nil_of_right_ne_nil _ (List.cons_ne_nil _ _))
          | again t =>
              rw [hround] at hrest
              rw [ih hrest, h a s t hround, List.filterMap_cons]
              cases pick (a, s) with
              | none => rfl
              | some b => rw [List.getLast?_cons, Option.getD_some, Option.getD_some]

theorem mem_of_mem_trace {as : List α} {s : σ} {y : α × σ} (h : y ∈ trace step as s) :
    y.1 ∈ as := by
  induction as generalizing s with
  | nil => cases h
  | cons a as ih =>
      rw [trace] at h
      rcases List.mem_cons.mp h with rfl | hlater
      · exact List.mem_cons_self
      · cases hround : step a s with
        | stop r =>
            rw [hround] at hlater
            cases hlater
        | again t =>
            rw [hround] at hlater
            exact List.mem_cons_of_mem a (ih hlater)

end Scan
