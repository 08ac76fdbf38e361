import Mathlib.Data.List.Induction

/-!
Settings of nested blocks. A block that does not set a value takes it over from the
block around it, and the outermost takes a default.
-/
namespace Inheritance

universe u v

variable {α : Type u}

/-- What the innermost block that sets the value sets it to; the outermost comes first. -/
def nearest (blocks : List (Option α)) : Option α := blocks.reverse.findSome? id

theorem nearest_concat (blocks : List (Option α)) (inner : Option α) :
    nearest (blocks ++ [inner]) = inner.or (nearest blocks) := by
  rw [nearest, List.reverse_concat, List.findSome?_cons]
  cases inner <;> rfl

/-- The value of a block after it has been merged with the block around it. -/
def merge (default : α) (outer inner : Option α) : Option α :=
  some (inner.getD (outer.getD default))

/-- Merging from the outside in leaves the nearest value. -/
theorem foldl_merge (default : α) (outer : Option α) (blocks : List (Option α)) :
    (blocks.foldl (merge default) outer).getD default =
      (nearest (outer :: blocks)).getD default := by
  induction blocks using List.reverseRecOn with
  | nil => cases outer <;> rfl
  | append_singleton blocks inner ih =>
      rw [List.foldl_append, List.foldl_cons, List.foldl_nil, ← List.cons_append, nearest_concat]
      cases inner with
      | none => exact ih
      | some a => rfl

theorem field_foldl_merge {ρ : Type v} {mergeRecord : ρ → ρ → ρ} {field : ρ → Option α}
    {default : α} (h : ∀ outer inner,
      field (mergeRecord outer inner) = merge default (field outer) (field inner))
    (outer : ρ) (blocks : List ρ) :
    (field (blocks.foldl mergeRecord outer)).getD default =
      (nearest ((outer :: blocks).map field)).getD default := by
  have hfield : field (blocks.foldl mergeRecord outer) =
      (blocks.map field).foldl (merge default) (field outer) := by
    rw [List.foldl_map]
    exact (List.foldl_hom field fun outer inner => (h outer inner).symm).symm
  rw [hfield, foldl_merge, List.map_cons]

end Inheritance
