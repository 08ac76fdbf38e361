import Mathlib.Data.List.Basic
import Mathlib.Data.List.SplitBy
import Mathlib.Data.List.TakeWhile

/-!
Lists in which a mark joins an item to the one behind it. The maximal groups of joined
items are read as disjunctions, the list as their conjunction.
-/
namespace OrGroups

universe u

variable {α : Type u} (joined : α → Bool) (ok : α → Prop)

/-- The maximal groups of joined items. -/
def groups (as : List α) : List (List α) := as.splitBy fun a _ => joined a

/-- The last item joins nothing. -/
def Closed (as : List α) : Prop := ∀ a ∈ as.getLast?, joined a = false

def Satisfied (group : List α) : Prop := ∃ a ∈ group, ok a

/-- Some group fails, and a group before the first that does holds by an item that is
joined to the next one. -/
def Shortcut (gs : List (List α)) : Prop :=
  ∃ before failing after, gs = before ++ failing :: after ∧
    (∀ g ∈ before, Satisfied ok g) ∧ ¬ Satisfied ok failing ∧
    ∃ g ∈ before, ∃ a ∈ g, joined a = true ∧ ok a

variable {joined ok}

theorem isChain_group {init : List α} {a : α} (hinit : ∀ x ∈ init, joined x = true) :
    (init ++ [a]).IsChain fun x _ => joined x = true := by
  induction init with
  | nil => exact List.isChain_singleton a
  | cons x init ih =>
      obtain ⟨hx, hinit⟩ := List.forall_mem_cons.mp hinit
      rw [List.cons_append, List.isChain_cons]
      exact ⟨fun _ _ => hx, ih hinit⟩

theorem groups_append {init rest : List α} {a : α} (hinit : ∀ x ∈ init, joined x = true)
    (ha : joined a = false) :
    groups joined (init ++ a :: rest) = (init ++ [a]) :: groups joined rest := by
  have hne : init ++ [a] ≠ [] := by simp
  have hend : ∀ x ∈ (init ++ [a]).getLast?, ∀ y ∈ rest.head?, joined x = false := by
    intro x hx y _
    rw [List.getLast?_concat] at hx
    cases hx
    exact ha
  rw [groups, List.append_cons, List.splitBy_append hend,
    List.splitBy_of_isChain hne (isChain_group hinit)]
  rfl

/-- Induction over the groups of a list whose last item joins nothing. -/
theorem closed_induction {motive : List α → Prop} (nil : motive [])
    (group : ∀ init a rest, (∀ x ∈ init, joined x = true) → joined a = false →
      motive rest → motive (init ++ a :: rest))
    {as : List α} (h : Closed joined as) : motive as := by
  induction hn : as.length using Nat.strongRecOn generalizing as with
  | ind n ih =>
      have hinit : ∀ x ∈ as.takeWhile joined, joined x = true := fun x hx =>
        List.mem_takeWhile_imp hx
      have hsplit := List.takeWhile_append_dropWhile (p := joined) (l := as)
      cases hrest : as.dropWhile joined with
      | nil =>
          rw [hrest, List.append_nil] at hsplit
          rw [hsplit] at hinit
          cases hlast : as.getLast? with
          | none =>
              rw [List.getLast?_eq_none_iff.mp hlast]
              exact nil
          | some a =>
              have hfalse := h a hlast
              rw [hinit a (List.mem_of_getLast? hlast)] at hfalse
              cases hfalse
      | cons a rest =>
          have ha : joined a = false := by
            have hhead := List.head?_dropWhile_not joined as
            rw [hrest] at hhead
            simpa using hhead
          rw [hrest] at hsplit
          rw [← hsplit]
          refine group _ a rest hinit ha (ih rest.length ?_ ?_ rfl)
          · rw [← hn, ← hsplit, List.length_append, List.length_cons]
            omega
          · intro x hx
            apply h x
            rw [← hsplit, List.getLast?_append, List.getLast?_cons, hx]
            rfl

theorem exists_first_failing {gs : List (List α)} (h : ¬ ∀ g ∈ gs, Satisfied ok g) :
    ∃ before failing after, gs = before ++ failing :: after ∧
      (∀ g ∈ before, Satisfied ok g) ∧ ¬ Satisfied ok failing := by
  induction gs with
  | nil => exact absurd (List.forall_mem_nil _) h
  | cons g gs ih =>
      by_cases hg : Satisfied ok g
      · obtain ⟨before, failing, after, rfl, hbefore, hfailing⟩ :=
          ih fun hall => h (List.forall_mem_cons.mpr ⟨hg, hall⟩)
        exact ⟨g :: before, failing, after, rfl, List.forall_mem_cons.mpr ⟨hg, hbefore⟩, hfailing⟩
      · exact ⟨[], g, gs, rfl, List.forall_mem_nil _, hg⟩

theorem not_shortcut_nil : ¬ Shortcut joined ok [] := by
  rintro ⟨before, failing, after, heq, _⟩
  cases before <;> cases heq

theorem shortcut_cons (g : List α) (gs : List (List α)) :
    Shortcut joined ok (g :: gs) ↔
      Satisfied ok g ∧ (Shortcut joined ok gs ∨
        (∃ a ∈ g, joined a = true ∧ ok a) ∧ ¬ ∀ h ∈ gs, Satisfied ok h) := by
  constructor
  · rintro ⟨before, failing, after, heq, hbefore, hfailing, h, hmem, a, ha, hjoined⟩
    cases before with
    | nil => cases hmem
    | cons g' before =>
        injection heq with hg hgs
        subst hg hgs
        obtain ⟨hg, hbefore⟩ := List.forall_mem_cons.mp hbefore
        refine ⟨hg, ?_⟩
        rcases List.mem_cons.mp hmem with rfl | hmem
        · refine .inr ⟨⟨a, ha, hjoined⟩, fun hall => hfailing ?_⟩
          exact hall failing (List.mem_append_right _ List.mem_cons_self)
        · exact .inl ⟨before, failing, after, rfl, hbefore, hfailing, h, hmem, a, ha, hjoined⟩
  · rintro ⟨hg, ⟨before, failing, after, rfl, hbefore, hfailing, h, hmem, hjoined⟩ |
      ⟨hjoined, hfails⟩⟩
    · exact ⟨g :: before, failing, after, rfl, List.forall_mem_cons.mpr ⟨hg, hbefore⟩, hfailing,
        h, List.mem_cons_of_mem _ hmem, hjoined⟩
    · obtain ⟨before, failing, after, rfl, hbefore, hfailing⟩ := exists_first_failing hfails
      exact ⟨g :: before, failing, after, rfl, List.forall_mem_cons.mpr ⟨hg, hbefore⟩, hfailing,
        g, List.mem_cons_self, hjoined⟩

/-- A failing group stands behind every shortcut. -/
theorem Shortcut.fails {gs : List (List α)} (h : Shortcut joined ok gs) :
    ¬ ∀ g ∈ gs, Satisfied ok g := by
  obtain ⟨before, failing, after, rfl, _, hfailing, _⟩ := h
  exact fun hall => hfailing (hall failing (List.mem_append_right _ List.mem_cons_self))

end OrGroups
