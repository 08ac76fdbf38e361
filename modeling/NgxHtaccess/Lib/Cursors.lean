import NgxHtaccess.Lib.Outcomes
import NgxHtaccess.Lib.Scan

/-!
Cursors that walk over a list. An item is read in front of the end only, and a loop that has
used up its rounds before it is over is a fault as well. A loop whose rounds move the cursor on
needs no more rounds than there are items in front of it.
-/
namespace Cursors
open BoundedLoop Outcomes

inductive Fault where
  | outside (i : Nat)
  | endless
  deriving DecidableEq

abbrev Run (β : Type) := Except Fault β

/-- The run ends without a fault, in a value that has the property. -/
abbrev Gives {β : Type} (x : Run β) (P : β → Prop) : Prop :=
  Yields (fun _ : Fault => False) x P

variable {α β σ ρ : Type}

theorem gives_iff {x : Run β} {P : β → Prop} : Gives x P ↔ ∃ b, x = .ok b ∧ P b := by
  refine yields_iff.trans (or_iff_right ?_)
  rintro ⟨_, _, hfalse⟩
  exact hfalse

def readAt (text : List α) (i : Nat) : Run α :=
  match text[i]? with
  | some a => .ok a
  | none => .error (.outside i)

def readsFrom (text : List α) (p : Nat) : Nat → Run (List α)
  | 0 => .ok []
  | len + 1 => do
      let a ← readAt text p
      let rest ← readsFrom text (p + 1) len
      return a :: rest

/-- `while (p < stop)`, for at most `rounds` rounds; `leave` is what a loop that is not left
by a round ends in. -/
def whileBefore (stop : Nat) (body : Nat → σ → Run (Round (Nat × σ) ρ)) (leave : Nat → σ → ρ) :
    Nat → Nat → σ → Run ρ
  | 0, p, s => if p < stop then .error .endless else .ok (leave p s)
  | rounds + 1, p, s =>
      if p < stop then do
        match ← body p s with
        | .stop r => return r
        | .again (q, t) => whileBefore stop body leave rounds q t
      else .ok (leave p s)

/-- `while (p < stop && test(*p)) p++` -/
def skipWhile (text : List α) (test : α → Bool) (p : Nat) : Run Nat :=
  whileBefore text.length
    (fun p _ => do
      let a ← readAt text p
      return if test a then .again (p + 1, ()) else .stop p)
    (fun p _ => p) text.length p ()

theorem readAt_cons {text : List α} {p : Nat} (h : p < text.length) :
    ∃ a rest, text.drop p = a :: rest ∧ text.drop (p + 1) = rest ∧ readAt text p = .ok a := by
  refine ⟨text[p], text.drop (p + 1), List.drop_eq_getElem_cons h, rfl, ?_⟩
  rw [readAt, List.getElem?_eq_getElem h]

theorem gives_read {text : List α} {p : Nat} {a : α} (hread : readAt text p = .ok a)
    {f : α → Run β} {P : β → Prop} (h : Gives (f a) P) : Gives (readAt text p >>= f) P := by
  rw [hread]
  exact h

section Test
variable {x : Run Bool} {y z : Run β} {P : β → Prop}

theorem gives_if_true (hx : x = .ok true) (h : Gives y P) :
    Gives (x >>= fun b => if b = true then y else z) P := by
  rw [hx]
  exact h

theorem gives_if_false (hx : x = .ok false) (h : Gives z P) :
    Gives (x >>= fun b => if b = true then y else z) P := by
  rw [hx]
  exact h

end Test

theorem readsFrom_eq (text : List α) {p len : Nat} (h : p + len ≤ text.length) :
    readsFrom text p len = .ok ((text.drop p).take len) := by
  induction len generalizing p with
  | zero => rfl
  | succ len ih =>
      obtain ⟨a, rest, hcons, hrest, hread⟩ := @readAt_cons α text p (by omega)
      rw [readsFrom, hread, ih (by omega), hcons, hrest, List.take_succ_cons]
      rfl

/-- A loop whose rounds move the cursor on is over after as many rounds as there are places
in front of the end. -/
theorem whileBefore_gives {stop : Nat} {body : Nat → σ → Run (Round (Nat × σ) ρ)}
    {leave : Nat → σ → ρ} (Inv : Nat → σ → Prop) {Post : ρ → Prop}
    (round : ∀ p s, p < stop → Inv p s →
      Gives (body p s) (Scan.Holds (fun t => p < t.1 ∧ t.1 ≤ stop ∧ Inv t.1 t.2) Post))
    (ends : ∀ s, Inv stop s → Post (leave stop s)) {rounds p : Nat} {s : σ}
    (hrounds : stop ≤ p + rounds) (hp : p ≤ stop) (hs : Inv p s) :
    Gives (whileBefore stop body leave rounds p s) Post := by
  induction rounds generalizing p s with
  | zero =>
      obtain rfl : p = stop := Nat.le_antisymm hp hrounds
      rw [whileBefore, if_neg (Nat.lt_irrefl p)]
      exact ends s hs
  | succ rounds ih =>
      rw [whileBefore]
      by_cases hlt : p < stop
      · rw [if_pos hlt]
        refine (round p s hlt hs).bind fun r hr => ?_
        cases r with
        | stop r => exact hr
        | again t =>
            obtain ⟨hstep, hstop, hinv⟩ := hr
            exact ih (by omega) hstop hinv
      · obtain rfl : p = stop := Nat.le_antisymm hp (Nat.le_of_not_lt hlt)
        rw [if_neg hlt]
        exact ends s hs

/-- From `p` the cursor has come to `q`, and `rest` is behind it. -/
structure Moves (text : List α) (p : Nat) (rest : List α) (q : Nat) : Prop where
  le : p ≤ q
  bound : q ≤ text.length
  rest : text.drop q = rest

theorem Moves.length {text rest : List α} {p q : Nat} (h : Moves text p rest q) :
    q + rest.length = text.length := by
  rw [← h.rest, List.length_drop]
  exact Nat.add_sub_cancel' h.bound

theorem Moves.lt {text rest : List α} {p q : Nat} (h : Moves text p rest q)
    (hless : rest.length < (text.drop p).length) : p < q := by
  have hlen := h.length
  rw [List.length_drop] at hless
  omega

theorem Moves.passed {text taken rest : List α} {p q : Nat} (h : Moves text p rest q)
    (hsplit : text.drop p = taken ++ rest) : (text.drop p).take (q - p) = taken := by
  have hlen := congrArg List.length hsplit
  rw [List.length_drop, List.length_append, ← h.length] at hlen
  have hle := h.le
  rw [hsplit, List.take_left' (by omega)]

theorem skipWhile_gives {text : List α} (test : α → Bool) {p : Nat} (hp : p ≤ text.length) :
    Gives (skipWhile text test p) (Moves text p ((text.drop p).dropWhile test)) := by
  refine whileBefore_gives
    (fun q _ => p ≤ q ∧ (text.drop q).dropWhile test = (text.drop p).dropWhile test)
    (fun q _ hq hinv => ?_) (fun _ hinv => ?_) (Nat.le_add_left _ _) hp ⟨Nat.le_refl p, rfl⟩
  · obtain ⟨a, rest, hcons, hrest, hread⟩ := readAt_cons hq
    obtain ⟨hle, hdrop⟩ := hinv
    rw [hcons, List.dropWhile_cons] at hdrop
    refine gives_read hread ?_
    cases htest : test a with
    | true =>
        rw [htest, if_pos rfl] at hdrop
        refine ⟨Nat.lt_succ_self q, hq, Nat.le_succ_of_le hle, ?_⟩
        rw [hrest]
        exact hdrop
    | false =>
        rw [htest, if_neg Bool.false_ne_true] at hdrop
        refine ⟨hle, Nat.le_of_lt hq, ?_⟩
        rw [hcons]
        exact hdrop
  · obtain ⟨hle, hdrop⟩ := hinv
    refine ⟨hle, Nat.le_refl _, ?_⟩
    rwa [List.drop_length] at hdrop ⊢

end Cursors
