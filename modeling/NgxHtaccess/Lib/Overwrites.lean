import Mathlib.Data.List.Basic
import Mathlib.Data.List.Induction

/-!
Writes that replace, on a store that can only append. A write gives its key one value or none;
the appending store keeps what it had and adds the value. The two agree exactly as long as
every write finds nothing under its key.
-/
namespace Overwrites

universe u v

structure Write (κ : Type u) (ν : Type v) where
  key : κ
  value : Option ν

variable {κ : Type u} {ν : Type v} [DecidableEq κ]

/-- What is stored under `n` after a write that replaces. -/
def apply (n : κ) (stored : List ν) (w : Write κ ν) : List ν :=
  if w.key = n then w.value.toList else stored

/-- What writes that append add under `n`. -/
def added (n : κ) (ws : List (Write κ ν)) : List ν :=
  ws.flatMap fun w => if w.key = n then w.value.toList else []

theorem added_append (n : κ) (ws ws' : List (Write κ ν)) :
    added n (ws ++ ws') = added n ws ++ added n ws' := List.flatMap_append

theorem added_concat (n : κ) (ws : List (Write κ ν)) (w : Write κ ν) :
    added n (ws ++ [w]) = added n ws ++ if w.key = n then w.value.toList else [] := by
  rw [added_append]
  exact congrArg _ (List.flatMap_singleton _ w)

/-- Every write to `n` finds nothing there. -/
def FindsNone (n : κ) (stored : List ν) (ws : List (Write κ ν)) : Prop :=
  ∀ before w after, ws = before ++ w :: after → w.key = n → stored ++ added n before = []

theorem findsNone_concat (n : κ) (stored : List ν) (ws : List (Write κ ν)) (w : Write κ ν) :
    FindsNone n stored (ws ++ [w]) ↔
      FindsNone n stored ws ∧ (w.key = n → stored ++ added n ws = []) := by
  constructor
  · intro h
    refine ⟨fun before x after hsplit => h before x (after ++ [w]) ?_, h ws w [] rfl⟩
    rw [hsplit, List.append_assoc, List.cons_append]
  · rintro ⟨hfront, hlast⟩ before x after hsplit hx
    rcases List.eq_nil_or_concat' after with rfl | ⟨after, y, rfl⟩
    · obtain ⟨rfl, hw⟩ := List.append_inj' hsplit rfl
      cases hw
      exact hlast hx
    · rw [← List.cons_append, ← List.append_assoc] at hsplit
      obtain ⟨rfl, -⟩ := List.append_inj' hsplit rfl
      exact hfront before x after rfl hx

theorem findsNone_of_empty {n : κ} {stored : List ν} {ws : List (Write κ ν)}
    (h : stored ++ added n ws = []) : FindsNone n stored ws := by
  rintro before w after rfl -
  rw [added_append, ← List.append_assoc] at h
  exact (List.append_eq_nil_iff.mp h).1

theorem foldl_apply_eq_iff (n : κ) (stored : List ν) (ws : List (Write κ ν)) :
    ws.foldl (apply n) stored = stored ++ added n ws ↔ FindsNone n stored ws := by
  induction ws using List.reverseRecOn with
  | nil =>
      refine iff_of_true (List.append_nil stored).symm fun before w after hsplit => ?_
      cases List.append_ne_nil_of_right_ne_nil before (List.cons_ne_nil w after) hsplit.symm
  | append_singleton ws w ih =>
      rw [List.foldl_append, List.foldl_cons, List.foldl_nil, apply, added_concat,
        findsNone_concat]
      by_cases hw : w.key = n
      · rw [if_pos hw, if_pos hw, ← List.append_assoc]
        constructor
        · intro heq
          have hempty : stored ++ added n ws = [] := List.self_eq_append_left.mp heq
          exact ⟨findsNone_of_empty hempty, fun _ => hempty⟩
        · rintro ⟨-, hempty⟩
          rw [hempty hw, List.nil_append]
      · rw [if_neg hw, if_neg hw, List.append_nil, ih]
        exact ⟨fun h => ⟨h, fun hkey => absurd hkey hw⟩, fun h => h.1⟩

end Overwrites
