import Mathlib.Data.List.Induction

/-!
A store that a write appends to and a read scans from the front. Keys are told apart by a
test that need not be equality. The store is a map in which the last write wins exactly as
long as no write is hidden by an earlier one with another value, and no key is taken for
another one.
-/
namespace AppendStore

universe u v

variable {κ : Type u} {ν : Type v} (same : κ → κ → Bool)

def get (store : List (κ × ν)) (k : κ) : Option ν :=
  (store.find? fun x => same x.1 k).map (·.2)

/-- Writing `v` to `n` behaves as in a map. -/
structure MapWrite (store : List (κ × ν)) (n : κ) (v : ν) : Prop where
  own : get same (store ++ [(n, v)]) n = some v
  others : ∀ m, m ≠ n → get same (store ++ [(n, v)]) m = get same store m

variable {same} {store : List (κ × ν)} {n : κ} {v : ν}

theorem get_append (m : κ) :
    get same (store ++ [(n, v)]) m =
      (get same store m).or (if same n m then some v else none) := by
  unfold get
  rw [List.find?_append]
  cases store.find? fun x => same x.1 m with
  | some x => rfl
  | none =>
      rw [Option.none_or, List.find?_cons, Option.map_none, Option.none_or]
      cases same n m <;> rfl

theorem get_congr (htrans : ∀ a b c, same a b → same b c → same a c)
    (hsymm : ∀ a b, same a b → same b a) {m : κ} (h : same n m) :
    get same store m = get same store n := by
  have htest : (fun x : κ × ν => same x.1 m) = fun x => same x.1 n := by
    funext x
    rw [Bool.eq_iff_iff]
    exact ⟨fun hx => htrans _ _ _ hx (hsymm _ _ h), fun hx => htrans _ _ _ hx h⟩
  rw [get, get, htest]

theorem get_append_self (hrefl : ∀ a, same a a) :
    get same (store ++ [(n, v)]) n = some v ↔
      get same store n = none ∨ get same store n = some v := by
  rw [get_append, if_pos (hrefl n)]
  cases get same store n <;> simp

theorem get_append_others (htrans : ∀ a b c, same a b → same b c → same a c)
    (hsymm : ∀ a b, same a b → same b a) :
    (∀ m, m ≠ n → get same (store ++ [(n, v)]) m = get same store m) ↔
      get same store n ≠ none ∨ ∀ m, same n m → m = n := by
  constructor
  · intro h
    by_contra hnot
    rw [not_or, not_not] at hnot
    obtain ⟨hnone, hother⟩ := hnot
    push Not at hother
    obtain ⟨m, hm, hne⟩ := hother
    have hkept := h m hne
    rw [get_append, if_pos hm, get_congr htrans hsymm hm, hnone] at hkept
    cases hkept
  · intro h m hne
    rw [get_append]
    by_cases hm : same n m = true
    · rcases h with hsome | hother
      · obtain ⟨w, hw⟩ := Option.ne_none_iff_exists'.mp hsome
        rw [get_congr htrans hsymm hm, hw]
        rfl
      · exact absurd (hother m hm) hne
    · rw [if_neg hm, Option.or_none]

/-- A write behaves as in a map exactly when its key is new and no other key is taken for it,
or the first write to the key had the same value. -/
theorem mapWrite_iff (hrefl : ∀ a, same a a) (htrans : ∀ a b c, same a b → same b c → same a c)
    (hsymm : ∀ a b, same a b → same b a) :
    MapWrite same store n v ↔
      (get same store n = none ∧ ∀ m, same n m → m = n) ∨ get same store n = some v := by
  constructor
  · rintro ⟨hsame, hothers⟩
    rcases (get_append_self hrefl).mp hsame with hnone | hsome
    · exact .inl ⟨hnone,
        ((get_append_others htrans hsymm).mp hothers).resolve_left fun h => h hnone⟩
    · exact .inr hsome
  · rintro (⟨hnone, hother⟩ | hsome)
    · exact ⟨(get_append_self hrefl).mpr (.inl hnone),
        (get_append_others htrans hsymm).mpr (.inr hother)⟩
    · refine ⟨(get_append_self hrefl).mpr (.inr hsome),
        (get_append_others htrans hsymm).mpr (.inl ?_)⟩
      rw [hsome]
      exact Option.some_ne_none v

variable (same) in
theorem get_eq_last [DecidableEq κ] (store : List (κ × ν))
    (h : ∀ before n v after, store = before ++ (n, v) :: after → MapWrite same before n v)
    (m : κ) :
    get same store m = (store.reverse.find? fun x => x.1 = m).map (·.2) := by
  induction store using List.reverseRecOn with
  | nil => rfl
  | append_singleton store x ih =>
      obtain ⟨n, v⟩ := x
      have hlast := h store n v [] rfl
      have hstore := ih fun before n' v' after heq =>
        h before n' v' (after ++ [(n, v)]) (by rw [heq, List.append_assoc]; rfl)
      rw [List.reverse_append, List.reverse_singleton, List.singleton_append, List.find?_cons]
      by_cases hm : n = m
      · rw [decide_eq_true hm]
        exact hm ▸ hlast.own
      · rw [decide_eq_false hm, hlast.others m fun heq => hm heq.symm]
        exact hstore

end AppendStore
