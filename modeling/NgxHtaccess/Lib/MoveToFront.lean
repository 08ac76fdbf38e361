import Mathlib.Data.List.Dedup
import Mathlib.Data.List.Infix

/-!
Move-to-front lists. The distinct items of a history, the one used last in front, are a
stack: a cache of `n` items that drops the item used least recently holds its first `n`.
Caches of different sizes are nested, so a larger one never faults where a smaller one
does not.
-/
namespace MoveToFront

universe u v
variable {α : Type u}

theorem take_cons_eq_dropLast {n : Nat} {l : List α} (a : α) (hn : 1 ≤ n) (h : l.length = n) :
    (a :: l).take n = a :: l.dropLast := by
  subst h
  obtain ⟨m, hm⟩ := Nat.exists_eq_add_of_le' hn
  rw [hm, List.take_succ_cons, List.dropLast_eq_take, hm, Nat.add_sub_cancel]

variable [DecidableEq α]

def touch (l : List α) (a : α) : List α := a :: l.erase a

/-- The distinct items of a history, the one used last in front. -/
def recent (as : List α) : List α := as.dedup.reverse

/-- What a cache of `n` items holds after a history. -/
def cached (n : Nat) (as : List α) : List α := (recent as).take n

/-- How often the items of `as` that `p` selects are not in a cache of `n` items, when the
history before them is `past`. -/
def faults (n : Nat) (p : α → Bool) : List α → List α → Nat
  | _, [] => 0
  | past, a :: as =>
      (if p a ∧ a ∉ cached n past then 1 else 0) + faults n p (past ++ [a]) as

section Stack

theorem foldr_insert_singleton (as : List α) (a : α) :
    as.foldr List.insert [a] = as.dedup.erase a ++ [a] := by
  induction as with
  | nil => rfl
  | cons b as ih =>
      rw [List.foldr_cons, ih]
      by_cases hba : b = a
      · subst hba
        rw [List.insert_of_mem (List.mem_append_right _ List.mem_cons_self)]
        by_cases hmem : b ∈ as
        · rw [List.dedup_cons_of_mem hmem]
        · rw [List.dedup_cons_of_notMem hmem, List.erase_cons_head,
            List.erase_of_not_mem (mt List.mem_dedup.mp hmem)]
      · by_cases hmem : b ∈ as
        · have hin : b ∈ as.dedup.erase a ++ [a] :=
            List.mem_append_left _ ((List.mem_erase_of_ne hba).mpr (List.mem_dedup.mpr hmem))
          rw [List.insert_of_mem hin, List.dedup_cons_of_mem hmem]
        · have hout : b ∉ as.dedup.erase a ++ [a] := by
            rw [List.mem_append, List.mem_erase_of_ne hba, List.mem_dedup, List.mem_singleton]
            exact not_or.mpr ⟨hmem, hba⟩
          rw [List.insert_of_not_mem hout, List.dedup_cons_of_notMem hmem,
            List.erase_cons_tail (by simpa using hba), List.cons_append]

theorem reverse_erase {l : List α} (h : l.Nodup) (a : α) :
    (l.erase a).reverse = l.reverse.erase a := by
  rw [h.erase_eq_filter, (List.nodup_reverse.mpr h).erase_eq_filter, List.filter_reverse]

theorem recent_concat (as : List α) (a : α) : recent (as ++ [a]) = touch (recent as) a := by
  have hunion : (as ++ [a]).dedup = as.dedup.erase a ++ [a] := by
    rw [List.dedup_append]
    exact foldr_insert_singleton as a
  rw [recent, hunion, List.reverse_append, reverse_erase (List.nodup_dedup as)]
  rfl

theorem take_erase (n : Nat) (l : List α) (a : α) :
    ((l.take (n + 1)).erase a).take n = (l.erase a).take n := by
  induction l generalizing n with
  | nil => rfl
  | cons b l ih =>
      rw [List.take_succ_cons]
      by_cases hba : b = a
      · subst hba
        rw [List.erase_cons_head, List.erase_cons_head, List.take_take, min_self]
      · have hne : ¬ (b == a) = true := by simpa using hba
        rw [List.erase_cons_tail hne, List.erase_cons_tail hne]
        cases n with
        | zero => rfl
        | succ n => rw [List.take_succ_cons, List.take_succ_cons, ih]

/-- A cache can forget what is behind its last item. -/
theorem cached_concat (n : Nat) (as : List α) (a : α) :
    cached n (as ++ [a]) = (touch (cached n as) a).take n := by
  rw [cached, recent_concat]
  cases n with
  | zero => rfl
  | succ n => rw [touch, touch, List.take_succ_cons, List.take_succ_cons, cached, take_erase]

theorem map_toFront {β : Type v} (key : β → α) {b : β} {a : α} (hb : key b = a) (l : List β) :
    (b :: l.eraseP (fun x => decide (key x = a))).map key = touch (l.map key) a := by
  have herase : (l.eraseP (fun x => decide (key x = a))).map key = (l.map key).erase a := by
    induction l with
    | nil => rfl
    | cons x l ih =>
        by_cases hx : key x = a
        · simp [hx]
        · simp [hx, ih]
  rw [List.map_cons, hb, herase, touch]

theorem length_cached_le (n : Nat) (as : List α) : (cached n as).length ≤ n :=
  List.length_take_le n _

theorem cached_concat_of_mem {n : Nat} {as : List α} {a : α} (h : a ∈ cached n as) :
    cached n (as ++ [a]) = touch (cached n as) a := by
  rw [cached_concat]
  refine List.take_of_length_le ?_
  rw [touch, List.length_cons, List.length_erase_of_mem h,
    Nat.sub_add_cancel (List.length_pos_of_mem h)]
  exact length_cached_le n as

theorem cached_concat_of_notMem {n : Nat} {as : List α} {a : α} (h : a ∉ cached n as) :
    cached n (as ++ [a]) = (a :: cached n as).take n := by
  rw [cached_concat, touch, List.erase_of_not_mem h]

theorem cached_mono {n m : Nat} (h : n ≤ m) (as : List α) : cached n as <+: cached m as :=
  List.take_prefix_take_left h

/-- What is used lately is held as long as not too many other items are used. -/
theorem mem_cached_append {n : Nat} (as : List α) {bs : List α} (h : bs.dedup.length ≤ n)
    {b : α} (hb : b ∈ bs) : b ∈ cached n (as ++ bs) := by
  obtain ⟨before, hbefore⟩ : bs.dedup <:+ as ∪ bs.dedup := List.suffix_union_right as bs.dedup
  have hrecent : recent (as ++ bs) = bs.dedup.reverse ++ before.reverse := by
    rw [recent, List.dedup_append, ← hbefore, List.reverse_append]
  have hlength : bs.dedup.reverse.length ≤ n := by
    rw [List.length_reverse]
    exact h
  rw [cached, hrecent, List.take_append, List.take_of_length_le hlength]
  exact List.mem_append_left _ (List.mem_reverse.mpr (List.mem_dedup.mpr hb))

end Stack

section Faults
variable (p : α → Bool)

theorem faults_append (n : Nat) (past as bs : List α) :
    faults n p past (as ++ bs) = faults n p past as + faults n p (past ++ as) bs := by
  induction as generalizing past with
  | nil => simp only [List.nil_append, List.append_nil, faults, Nat.zero_add]
  | cons a as ih =>
      simp only [List.cons_append, faults, ih, List.append_assoc, List.nil_append, Nat.add_assoc]

theorem faults_concat (n : Nat) (as : List α) (a : α) :
    faults n p [] (as ++ [a]) =
      faults n p [] as + if p a ∧ a ∉ cached n as then 1 else 0 := by
  rw [faults_append, List.nil_append]
  rfl

theorem faults_antitone {n m : Nat} (h : n ≤ m) (past as : List α) :
    faults m p past as ≤ faults n p past as := by
  induction as generalizing past with
  | nil => exact Nat.le_refl _
  | cons a as ih =>
      refine Nat.add_le_add ?_ (ih _)
      by_cases hfault : p a = true ∧ a ∉ cached m past
      · have hsmall : p a = true ∧ a ∉ cached n past :=
          ⟨hfault.1, fun hin => hfault.2 ((cached_mono h past).subset hin)⟩
        rw [if_pos hfault, if_pos hsmall]
      · rw [if_neg hfault]
        exact Nat.zero_le _

theorem faults_repeat {n : Nat} (past as : List α) (h : as.dedup.length ≤ n) :
    faults n p (past ++ as) as = 0 := by
  have hgo : ∀ done todo, as = done ++ todo → faults n p (past ++ as ++ done) todo = 0 := by
    intro done todo
    induction todo generalizing done with
    | nil => exact fun _ => rfl
    | cons a todo ih =>
        intro has
        have hmem : ∀ b, b ∈ as ++ done ↔ b ∈ as := fun b => by
          rw [List.mem_append]
          exact ⟨fun hb => hb.elim id fun hb => has ▸ List.mem_append_left _ hb, .inl⟩
        have hperm : (as ++ done).dedup.Perm as.dedup :=
          (List.perm_ext_iff_of_nodup (List.nodup_dedup _) (List.nodup_dedup _)).mpr fun b => by
            rw [List.mem_dedup, List.mem_dedup, hmem]
        have hin : a ∈ cached n (past ++ as ++ done) := by
          rw [List.append_assoc]
          refine mem_cached_append past (hperm.length_eq ▸ h) ?_
          exact List.mem_append_left _ (has ▸ List.mem_append_right _ List.mem_cons_self)
        have hnone : ¬ (p a = true ∧ a ∉ cached n (past ++ as ++ done)) := fun hf => hf.2 hin
        have hrest := ih (done ++ [a]) (by rw [has, List.append_assoc]; rfl)
        rw [faults, if_neg hnone, Nat.zero_add, List.append_assoc (past ++ as)]
        exact hrest
  simpa only [List.append_nil] using hgo [] as rfl

end Faults

end MoveToFront
