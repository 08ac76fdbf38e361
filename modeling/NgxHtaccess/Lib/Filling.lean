import Mathlib.Data.List.Basic

/-!
Allocations that are filled from the front, and cursors into them. A store that reaches past the
end of the allocation has no result, nor has one that would leave a gap behind what is written.
-/
namespace Filling

universe u

variable {α : Type u}

/-- An allocation with the bytes that are written, the rest being as it was allocated. -/
structure Buffer (α : Type u) where
  size : Nat
  written : List α
  fits : written.length ≤ size

namespace Buffer

def alloc (size : Nat) : Buffer α where
  size := size
  written := []
  fits := Nat.zero_le size

/-- A text that lies in memory as it is. -/
def full (s : List α) : Buffer α where
  size := s.length
  written := s
  fits := Nat.le_refl _

def store (b : Buffer α) (off : Nat) (src : List α) : Option (Buffer α) :=
  if h : off ≤ b.written.length ∧ off + src.length ≤ b.size then
    some {
      size := b.size
      written := b.written.take off ++ (src ++ b.written.drop (off + src.length))
      fits := by
        have hfits := b.fits
        simp only [List.length_append, List.length_take, List.length_drop]
        omega }
  else none

theorem store_eq {b : Buffer α} {off : Nat} {src : List α} (hoff : off ≤ b.written.length)
    (hroom : off + src.length ≤ b.size) :
    ∃ b', b.store off src = some b' ∧ b'.size = b.size ∧
      b'.written = b.written.take off ++ (src ++ b.written.drop (off + src.length)) :=
  ⟨_, dif_pos ⟨hoff, hroom⟩, rfl, rfl⟩

theorem store_front (b : Buffer α) {src : List α} (h : src.length ≤ b.size) :
    ∃ b', b.store 0 src = some b' ∧ b'.size = b.size ∧ b'.written.take src.length = src ∧
      src.length ≤ b'.written.length := by
  obtain ⟨b', hstore, hsize, hwritten⟩ :=
    @store_eq α b 0 src (Nat.zero_le _) (by rwa [Nat.zero_add])
  rw [List.take_zero, List.nil_append] at hwritten
  refine ⟨b', hstore, hsize, ?_, ?_⟩
  · rw [hwritten, List.take_left]
  · rw [hwritten, List.length_append]
    exact Nat.le_add_right _ _

end Buffer

/-- A pointer into an allocation. -/
structure Cursor (α : Type u) where
  buffer : Buffer α
  pos : Nat

namespace Cursor

def start (size : Nat) : Cursor α := ⟨.alloc size, 0⟩

/-- Store at the cursor, which goes on behind the text. -/
def copy (p : Cursor α) (src : List α) : Option (Cursor α) :=
  (p.buffer.store p.pos src).map fun b => ⟨b, p.pos + src.length⟩

/-- The cursor stands behind the text that fills the allocation so far. -/
structure Behind (p : Cursor α) (size : Nat) (s : List α) : Prop where
  size : p.buffer.size = size
  written : p.buffer.written = s
  pos : p.pos = s.length

theorem behind_start (size : Nat) : (start size : Cursor α).Behind size [] := ⟨rfl, rfl, rfl⟩

/-- Stores one behind the other append, as long as there is room. -/
theorem Behind.copy {p : Cursor α} {size : Nat} {s : List α} (h : p.Behind size s) {src : List α}
    (hroom : (s ++ src).length ≤ size) : ∃ q, p.copy src = some q ∧ q.Behind size (s ++ src) := by
  have hoff : p.pos ≤ p.buffer.written.length := Nat.le_of_eq (by rw [h.pos, h.written])
  have hfits : p.pos + src.length ≤ p.buffer.size := by
    rwa [h.pos, h.size, ← List.length_append]
  obtain ⟨b, hstore, hsize, hwritten⟩ := Buffer.store_eq hoff hfits
  refine ⟨⟨b, p.pos + src.length⟩, by rw [Cursor.copy, hstore]; rfl, hsize.trans h.size, ?_, ?_⟩
  · rw [h.written, h.pos, List.take_length, List.drop_of_length_le (Nat.le_add_right _ _),
      List.append_nil] at hwritten
    exact hwritten
  · rw [List.length_append, ← h.pos]

end Cursor

end Filling
