import Mathlib.Data.List.Basic
import Mathlib.Order.Basic

/-!
Queues ordered by recency. An operation touches an entry, which moves it to the
head, pushes a new entry at the head or evicts the entry at the tail. A timed
queue keeps the time of the last touch beside every entry; by its own invariant
the entry at the tail is the one touched least recently.
-/
namespace RecencyQueue

universe u

inductive Op (α : Type u) where
  | touch (p : α → Bool)
  | push (a : α)
  | evict

variable {α : Type u}

def Op.run (q : List α) : Op α → List α
  | .touch p =>
      match q.find? p with
      | none => q
      | some a => a :: q.eraseP p
  | .push a => a :: q
  | .evict => q.dropLast

/-- Entries with the time of their last touch, newest first. -/
structure TimedQueue (α : Type u) where
  clock : Nat
  entries : List (Nat × α)
  newest_first : entries.Pairwise fun x y => y.1 < x.1
  past : ∀ x ∈ entries, x.1 < clock

namespace TimedQueue

def empty : TimedQueue α where
  clock := 0
  entries := []
  newest_first := .nil
  past := by simp

def values (q : TimedQueue α) : List α := q.entries.map (·.2)

/-- A part of the queue with an entry that is touched now at its head. -/
def toHead (q : TimedQueue α) (a : α) (rest : List (Nat × α)) (h : rest.Sublist q.entries) :
    TimedQueue α where
  clock := q.clock + 1
  entries := (q.clock, a) :: rest
  newest_first := List.pairwise_cons.mpr
    ⟨fun x hx => q.past x (h.subset hx), q.newest_first.sublist h⟩
  past := by
    intro x hx
    rcases List.mem_cons.mp hx with rfl | hx
    · exact Nat.lt_succ_self _
    · exact Nat.lt_succ_of_lt (q.past x (h.subset hx))

def dropLast (q : TimedQueue α) : TimedQueue α where
  clock := q.clock
  entries := q.entries.dropLast
  newest_first := q.newest_first.sublist (List.dropLast_sublist _)
  past := fun x hx => q.past x (List.dropLast_subset _ hx)

def run (q : TimedQueue α) : Op α → TimedQueue α
  | .touch p =>
      match q.entries.find? fun x => p x.2 with
      | none => q
      | some x => q.toHead x.2 (q.entries.eraseP fun x => p x.2) List.eraseP_sublist
  | .push a => q.toHead a q.entries (List.Sublist.refl _)
  | .evict => q.dropLast

theorem values_run (q : TimedQueue α) (op : Op α) : (q.run op).values = op.run q.values := by
  cases op with
  | touch p =>
      simp only [run, Op.run, values, List.find?_map, List.eraseP_map]
      have hp : (p ∘ fun x : Nat × α => x.2) = fun x => p x.2 := rfl
      rw [hp]
      cases q.entries.find? fun x => p x.2 <;> rfl
  | push a => rfl
  | evict => exact List.map_dropLast

theorem values_foldl (q : TimedQueue α) (ops : List (Op α)) :
    (ops.foldl run q).values = ops.foldl Op.run q.values := by
  induction ops generalizing q with
  | nil => rfl
  | cons op ops ih => rw [List.foldl_cons, ih, values_run, List.foldl_cons]

/-- The entry at the tail is the one touched least recently. -/
theorem oldest_at_tail {q : TimedQueue α} {rest : List (Nat × α)} {x : Nat × α}
    (h : q.entries = rest ++ [x]) : ∀ y ∈ rest, x.1 < y.1 := by
  have hsorted := q.newest_first
  rw [h, List.pairwise_append] at hsorted
  exact fun y hy => hsorted.2.2 y hy x (List.mem_singleton_self x)

end TimedQueue

end RecencyQueue
