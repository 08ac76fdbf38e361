import Mathlib.Data.List.Basic

/-!
Output into a buffer of a fixed size. A write that does not fit fails and leaves the writer
without a result, so a sequence of writes succeeds exactly when all of it fits.
-/
namespace BoundedBuffer

universe u

variable {α : Type u} (limit : Nat)

/-- Append unless the buffer is too small. -/
def put (dst src : List α) : Option (List α) :=
  if limit < dst.length + src.length then none else some (dst ++ src)

def putAll (dst : List α) : List (List α) → Option (List α)
  | [] => some dst
  | src :: srcs => (put limit dst src).bind fun dst => putAll dst srcs

variable {limit} {dst src out : List α}

theorem put_eq_some : put limit dst src = some out ↔
    dst.length + src.length ≤ limit ∧ out = dst ++ src := by
  unfold put
  split
  · rename_i hfull
    exact iff_of_false (fun h => by cases h) fun h => absurd h.1 (Nat.not_le_of_lt hfull)
  · rename_i hfits
    rw [Option.some_inj, eq_comm, iff_and_self]
    exact fun _ => Nat.not_lt.mp hfits

theorem put_nil (h : dst.length ≤ limit) : put limit dst [] = some dst :=
  put_eq_some.mpr ⟨h, (List.append_nil dst).symm⟩

/-- Writes one after the other succeed exactly when all of them fit. -/
theorem putAll_eq (h : dst.length ≤ limit) (srcs : List (List α)) :
    putAll limit dst srcs =
      if (dst ++ srcs.flatten).length ≤ limit then some (dst ++ srcs.flatten) else none := by
  induction srcs generalizing dst with
  | nil => rw [putAll, List.flatten_nil, List.append_nil, if_pos h]
  | cons src srcs ih =>
      rw [putAll, List.flatten_cons, ← List.append_assoc]
      by_cases hfits : dst.length + src.length ≤ limit
      · have hput : put limit dst src = some (dst ++ src) := put_eq_some.mpr ⟨hfits, rfl⟩
        rw [hput, Option.bind_some, ih (by rw [List.length_append]; exact hfits)]
      · have hput : put limit dst src = none := if_pos (Nat.not_le.mp hfits)
        have hlong : ¬ (dst ++ src ++ srcs.flatten).length ≤ limit := by
          rw [List.length_append, List.length_append]
          omega
        rw [hput, Option.bind_none, if_neg hlong]

end BoundedBuffer
