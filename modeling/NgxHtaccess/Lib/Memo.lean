import NgxHtaccess.Lib.Scan

/-!
Values that are computed when they are asked for first and kept beside their keys, and scans
of a list of keys that ask for some of them. A failed computation is not kept. A scan ends as
if every value were computed where it is used, and no value is computed twice.
-/
namespace Memo
open BoundedLoop Scan

universe u v w x

variable {κ : Type u} {α : Type v} {σ : Type w} {ρ : Type x}

/-- A key with its value, if it is there, and how often it has been computed. -/
structure Cell (κ : Type u) (α : Type v) where
  key : κ
  value : Option α
  computed : Nat

def Cell.unset (key : κ) : Cell κ α := ⟨key, none, 0⟩

section Fetch
variable (compute : κ → Option α)

/-- The value of a cell, which is computed and kept if it is not there. -/
def fetch (c : Cell κ α) : Option α × Cell κ α :=
  match c.value with
  | some a => (some a, c)
  | none =>
      match compute c.key with
      | none => (none, c)
      | some a => (some a, { c with value := some a, computed := c.computed + 1 })

/-- A cell that holds the value of its key, computed once, or has not been computed. -/
structure Cell.Sound (c : Cell κ α) : Prop where
  value : ∀ a ∈ c.value, compute c.key = some a
  computed : c.computed = if c.value.isSome then 1 else 0

variable {compute}

theorem Cell.sound_unset (key : κ) : (Cell.unset key : Cell κ α).Sound compute := by
  refine ⟨fun a h => ?_, rfl⟩
  cases h

theorem Cell.Sound.once {c : Cell κ α} (h : c.Sound compute) : c.computed ≤ 1 := by
  rw [h.computed]
  split
  · exact Nat.le_refl 1
  · exact Nat.zero_le 1

theorem fetch_spec {c : Cell κ α} (h : c.Sound compute) :
    (fetch compute c).1 = compute c.key ∧ (fetch compute c).2.key = c.key ∧
      (fetch compute c).2.Sound compute := by
  unfold fetch
  cases hvalue : c.value with
  | some a => exact ⟨(h.value a hvalue).symm, rfl, h⟩
  | none =>
      cases hcompute : compute c.key with
      | none => exact ⟨rfl, rfl, h⟩
      | some a =>
          have hzero : c.computed = 0 := by rw [h.computed, hvalue]; rfl
          refine ⟨rfl, rfl, fun b hb => ?_, ?_⟩
          · cases hb
            exact hcompute
          · rw [hzero]
            rfl

end Fetch

section Scan
variable (compute : κ → Option α) (asks : κ → σ → Bool) (use : κ → Option α → σ → Round σ ρ)

/-- What a key asks for is computed where it is used. -/
def plainStep (key : κ) (s : σ) : Round σ ρ := use key (if asks key s then compute key else none) s

/-- The scan with the values from the cells, and the cells as it leaves them. -/
def cellScan : List (Cell κ α) → σ → Round σ ρ × List (Cell κ α)
  | [], s => (.again s, [])
  | c :: cs, s =>
      let (value, c) := if asks c.key s then fetch compute c else (none, c)
      match use c.key value s with
      | .stop r => (.stop r, c :: cs)
      | .again t =>
          let (round, cs) := cellScan cs t
          (round, c :: cs)

/-- The cells of the keys, all of them sound. -/
structure CellsOf (keys : List κ) (cells : List (Cell κ α)) : Prop where
  keys : cells.map (·.key) = keys
  sound : ∀ c ∈ cells, c.Sound compute

variable {compute}

theorem cellsOf_unset (keys : List κ) : CellsOf compute keys (keys.map Cell.unset) := by
  refine ⟨?_, fun c hc => ?_⟩
  · rw [List.map_map]
    exact List.map_id keys
  · obtain ⟨key, -, rfl⟩ := List.mem_map.mp hc
    exact Cell.sound_unset key

/-- A scan over the cells of a list is the scan of the list. -/
theorem cellScan_spec {keys : List κ} {cells : List (Cell κ α)} (h : CellsOf compute keys cells)
    (s : σ) :
    (cellScan compute asks use cells s).1 = scan (plainStep compute asks use) keys s ∧
      CellsOf compute keys (cellScan compute asks use cells s).2 := by
  obtain ⟨rfl, hsound⟩ := h
  induction cells generalizing s with
  | nil => exact ⟨rfl, rfl, hsound⟩
  | cons c cs ih =>
      obtain ⟨hc, hcs⟩ := List.forall_mem_cons.mp hsound
      have hasked : ∃ c', (if asks c.key s then fetch compute c else (none, c)) =
          (if asks c.key s then compute c.key else none, c') ∧ c'.key = c.key ∧
            c'.Sound compute := by
        obtain ⟨hvalue, hkey, hkept⟩ := fetch_spec hc
        split
        · exact ⟨_, Prod.ext hvalue rfl, hkey, hkept⟩
        · exact ⟨c, rfl, rfl, hc⟩
      obtain ⟨c', heq, hkey, hkept⟩ := hasked
      rw [cellScan, heq, List.map_cons, scan, plainStep, ← hkey]
      simp only
      cases use c'.key (if asks c'.key s then compute c'.key else none) s with
      | stop r => exact ⟨rfl, rfl, List.forall_mem_cons.mpr ⟨hkept, hcs⟩⟩
      | again t =>
          obtain ⟨hround, hkeys, hrest⟩ := ih t hcs
          exact ⟨hround, congrArg (c'.key :: ·) hkeys, List.forall_mem_cons.mpr ⟨hkept, hrest⟩⟩

end Scan

end Memo
