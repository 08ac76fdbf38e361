import Mathlib.Data.List.Basic
import Mathlib.Data.List.DropRight

/-!
Byte strings and the nginx string functions that the module calls.

An `ngx_str_t` is its list of bytes. A comparison is modelled by the test the
source makes on its result, `== 0`; both comparisons stop at a shared NUL, and
a byte past the end of a list reads as that terminator.
-/
namespace NgxHtaccess

abbrev NgxStr := List UInt8

/-- The byte of a character constant. -/
def ch (c : Char) : UInt8 := c.toNat.toUInt8

/-- The bytes of a string constant, without its terminator. -/
def lit (s : String) : NgxStr := s.toList.map ch

def ngxTolower (c : UInt8) : UInt8 :=
  if ch 'A' ≤ c ∧ c ≤ ch 'Z' then c ||| 0x20 else c

/-- `ngx_strncasecmp(s, t, n) == 0`. -/
def ngxStrncasecmpEq : NgxStr → NgxStr → Nat → Bool
  | _, _, 0 => true
  | s, t, n + 1 =>
      if ngxTolower (s.headD 0) = ngxTolower (t.headD 0) then
        if ngxTolower (s.headD 0) = 0 then true
        else ngxStrncasecmpEq s.tail t.tail n
      else false

/-- `ngx_strncmp(s, t, n) == 0`. -/
def ngxStrncmpEq : NgxStr → NgxStr → Nat → Bool
  | _, _, 0 => true
  | s, t, n + 1 =>
      if s.headD 0 = t.headD 0 then
        if s.headD 0 = 0 then true else ngxStrncmpEq s.tail t.tail n
      else false

/-- `ngx_strlchr`: the bytes before the first `c` and the bytes after it. -/
def ngxStrlchr (s : NgxStr) (c : UInt8) : Option (NgxStr × NgxStr) :=
  match s.dropWhile (· ≠ c) with
  | [] => none
  | _ :: rest => some (s.takeWhile (· ≠ c), rest)

/-- `NGX_MAX_INT_T_VALUE` of a 64-bit build. -/
def ngxMaxInt : Nat := 0x7FFFFFFFFFFFFFFF

def ngxAtoiLoop : NgxStr → Nat → Option Nat
  | [], value => some value
  | c :: line, value =>
      if c < ch '0' ∨ ch '9' < c then none
      else
        let digit := (c - ch '0').toNat
        if ngxMaxInt / 10 ≤ value ∧ (ngxMaxInt / 10 < value ∨ ngxMaxInt % 10 < digit) then none
        else ngxAtoiLoop line (value * 10 + digit)

/-- `ngx_atoi`; `none` is `NGX_ERROR`. -/
def ngxAtoi (line : NgxStr) : Option Nat :=
  if line = [] then none else ngxAtoiLoop line 0

/-- What a C function reads of a buffer: the bytes before the first NUL. -/
def cString (s : NgxStr) : NgxStr := s.takeWhile (· ≠ 0)

/-- Equality of two strings up to ASCII case, as `htaccess_directive_id` tests it. -/
def eqIgnoreCase (s t : NgxStr) : Bool :=
  s.length = t.length && ngxStrncasecmpEq s t s.length

theorem ngxStrncasecmpEq_symm (s t : NgxStr) (n : Nat)
    (h : ngxStrncasecmpEq s t n = true) : ngxStrncasecmpEq t s n = true := by
  induction n generalizing s t with
  | zero => rfl
  | succ n ih =>
      simp only [ngxStrncasecmpEq] at h ⊢
      split at h
      · rename_i same
        rw [if_pos same.symm, ← same]
        by_cases h0 : ngxTolower (s.headD 0) = 0
        · rw [if_pos h0]
        · rw [if_neg h0] at h ⊢
          exact ih _ _ h
      · cases h

theorem ngxStrncasecmpEq_trans (s t u : NgxStr) (n : Nat)
    (hst : ngxStrncasecmpEq s t n = true) (htu : ngxStrncasecmpEq t u n = true) :
    ngxStrncasecmpEq s u n = true := by
  induction n generalizing s t u with
  | zero => rfl
  | succ n ih =>
      simp only [ngxStrncasecmpEq] at hst htu ⊢
      split at hst
      · rename_i same
        rw [← same] at htu
        split at htu
        · rename_i same'
          rw [if_pos same']
          by_cases h0 : ngxTolower (s.headD 0) = 0
          · rw [if_pos h0]
          · rw [if_neg h0] at hst htu ⊢
            exact ih _ _ _ hst htu
        · cases htu
      · cases hst

theorem ngxStrncasecmpEq_le (s t : NgxStr) {m n : Nat} (hmn : m ≤ n)
    (h : ngxStrncasecmpEq s t n = true) : ngxStrncasecmpEq s t m = true := by
  induction m generalizing s t n with
  | zero => rfl
  | succ m ih =>
      obtain ⟨n, rfl⟩ : ∃ k, n = k + 1 := ⟨n - 1, by omega⟩
      simp only [ngxStrncasecmpEq] at h ⊢
      split at h
      · rename_i same
        rw [if_pos same]
        by_cases h0 : ngxTolower (s.headD 0) = 0
        · rw [if_pos h0]
        · rw [if_neg h0] at h ⊢
          exact ih _ _ (by omega) h
      · cases h

theorem ngxStrncasecmpEq_append (s t u : NgxStr) {n : Nat} (h : n ≤ s.length) :
    ngxStrncasecmpEq (s ++ t) u n = ngxStrncasecmpEq s u n := by
  induction n generalizing s u with
  | zero => rfl
  | succ n ih =>
      cases s with
      | nil => cases h
      | cons c s =>
          simp only [ngxStrncasecmpEq, List.cons_append, List.headD_cons, List.tail_cons]
          rw [ih s u.tail (Nat.le_of_succ_le_succ h)]
          rfl

theorem ngxStrncasecmpEq_prefix_false (pre rest keyword : NgxStr) {n : Nat}
    (hle : pre.length ≤ n) (h : ngxStrncasecmpEq pre keyword pre.length = false) :
    ngxStrncasecmpEq (pre ++ rest) keyword n = false := by
  by_contra htrue
  rw [Bool.not_eq_false] at htrue
  have hshort := ngxStrncasecmpEq_le _ _ hle htrue
  rw [ngxStrncasecmpEq_append _ _ _ (le_refl _), h] at hshort
  cases hshort

theorem ngxStrncmpEq_append_self (s t : NgxStr) : ngxStrncmpEq (s ++ t) s s.length = true := by
  induction s with
  | nil => rfl
  | cons c s ih =>
      rw [List.cons_append, List.length_cons, ngxStrncmpEq, List.headD_cons, List.headD_cons,
        if_pos rfl]
      by_cases hc : c = 0
      · rw [if_pos hc]
      · rw [if_neg hc]
        exact ih

theorem ngxStrncmpEq_self (s : NgxStr) : ngxStrncmpEq s s s.length = true := by
  have hself := ngxStrncmpEq_append_self s []
  rwa [List.append_nil] at hself

section FirstByte
variable {s : NgxStr} {c : UInt8}

theorem ne_of_not_mem (h : c ∉ s) : ∀ x ∈ s, decide (x ≠ c) = true := fun _ hx =>
  decide_eq_true fun heq => h (heq ▸ hx)

theorem takeWhile_ne_of_not_mem (h : c ∉ s) : s.takeWhile (· ≠ c) = s :=
  List.takeWhile_eq_self_iff.mpr (ne_of_not_mem h)

theorem dropWhile_ne_of_not_mem (h : c ∉ s) : s.dropWhile (· ≠ c) = [] :=
  List.dropWhile_eq_nil_iff.mpr (ne_of_not_mem h)

theorem takeWhile_ne_cut (s : NgxStr) (c : UInt8) (rest : NgxStr) :
    (s ++ c :: rest).takeWhile (· ≠ c) = s.takeWhile (· ≠ c) := by
  induction s with
  | nil => simp
  | cons d s ih => rw [List.cons_append, List.takeWhile_cons, List.takeWhile_cons, ih]

theorem takeWhile_ne_append (h : c ∉ s) (rest : NgxStr) :
    (s ++ c :: rest).takeWhile (· ≠ c) = s := by
  rw [takeWhile_ne_cut, takeWhile_ne_of_not_mem h]

theorem dropWhile_ne_append (h : c ∉ s) (rest : NgxStr) :
    (s ++ c :: rest).dropWhile (· ≠ c) = c :: rest := by
  rw [List.dropWhile_append_of_pos (ne_of_not_mem h)]
  simp

theorem not_mem_takeWhile_ne (s : NgxStr) (c : UInt8) : c ∉ s.takeWhile (· ≠ c) := by
  intro hmem
  have hne := List.mem_takeWhile_imp hmem
  exact absurd rfl (of_decide_eq_true hne)

theorem cString_of_noNul (h : 0 ∉ s) : cString s = s := takeWhile_ne_of_not_mem h

theorem cString_append (h : 0 ∉ s) (rest : NgxStr) : cString (s ++ 0 :: rest) = s :=
  takeWhile_ne_append h rest

end FirstByte

theorem ngxStrlchr_append (s rest : NgxStr) {c : UInt8} (h : c ∉ s) :
    ngxStrlchr (s ++ c :: rest) c = some (s, rest) := by
  rw [ngxStrlchr, dropWhile_ne_append h, takeWhile_ne_append h]

theorem ngxStrlchr_cons (d : UInt8) (s : NgxStr) (c : UInt8) :
    ngxStrlchr (d :: s) c =
      if d = c then some ([], s) else (ngxStrlchr s c).map fun parts => (d :: parts.1, parts.2) := by
  unfold ngxStrlchr
  by_cases hd : d = c
  · simp [hd]
  · have hkeep : decide (d ≠ c) = true := decide_eq_true hd
    rw [if_neg hd, List.dropWhile_cons, List.takeWhile_cons, if_pos hkeep, if_pos hkeep]
    cases s.dropWhile (· ≠ c) <;> rfl

theorem ngxStrlchr_eq_none {s : NgxStr} {c : UInt8} : ngxStrlchr s c = none ↔ c ∉ s := by
  constructor
  · intro hnone hmem
    unfold ngxStrlchr at hnone
    split at hnone
    · rename_i hdrop
      have hall := List.dropWhile_eq_nil_iff.mp hdrop c hmem
      simp at hall
    · cases hnone
  · intro hmem
    rw [ngxStrlchr, dropWhile_ne_of_not_mem hmem]

theorem ngxStrlchr_eq_some {s before after : NgxStr} {c : UInt8}
    (h : ngxStrlchr s c = some (before, after)) : s = before ++ c :: after ∧ c ∉ before := by
  have hsplit := List.takeWhile_append_dropWhile (p := fun x => decide (x ≠ c)) (l := s)
  unfold ngxStrlchr at h
  split at h
  · cases h
  · rename_i d rest hdrop
    cases h
    have hd : d = c := by
      have hhead := List.head?_dropWhile_not (fun x => decide (x ≠ c)) s
      rw [hdrop] at hhead
      simpa using hhead
    rw [hdrop, hd] at hsplit
    exact ⟨hsplit.symm, not_mem_takeWhile_ne s c⟩

end NgxHtaccess
