import NgxHtaccess.Parser

/-!
The flag list of a condition. `htaccess_parse_rewrite_cond` does not split it: it looks for
OR at the start of what the brackets hold, so OR behind another flag is lost.
-/
namespace NgxHtaccess

def flagList (parts : List NgxStr) : NgxStr := ch '[' :: ((lit ",").intercalate parts ++ [ch ']'])

/-- A flag of a condition, in letters of any case. -/
structure CondFlag where
  text : NgxStr
  known : eqIgnoreCase text (lit "NC") = true ∨ eqIgnoreCase text (lit "OR") = true

def CondFlag.isOr (f : CondFlag) : Bool := eqIgnoreCase f.text (lit "OR")

def condFlagList (fs : List CondFlag) : NgxStr := flagList (fs.map CondFlag.text)

theorem eqIgnoreCase_length {s t : NgxStr} (h : eqIgnoreCase s t = true) : s.length = t.length := by
  unfold eqIgnoreCase at h
  rw [Bool.and_eq_true, decide_eq_true_eq] at h
  exact h.1

theorem CondFlag.length_text (f : CondFlag) : f.text.length = 2 :=
  f.known.elim eqIgnoreCase_length eqIgnoreCase_length

theorem CondFlag.compare_append (f : CondFlag) (rest : NgxStr) :
    ngxStrncasecmpEq (f.text ++ rest) (lit "OR") 2 = f.isOr := by
  rw [ngxStrncasecmpEq_append _ _ _ (by rw [f.length_text])]
  unfold CondFlag.isOr eqIgnoreCase
  rw [f.length_text]
  rfl

theorem condOrNext_flagList (parts : List NgxStr) :
    condOrNext (flagList parts) =
      (2 ≤ ((lit ",").intercalate parts).length &&
        ngxStrncasecmpEq ((lit ",").intercalate parts) (lit "OR") 2) := by
  unfold condOrNext flagList
  generalize (lit ",").intercalate parts = inner
  have hspace : ¬ ch '[' = ch ' ' := by decide
  rw [List.dropWhile_cons_of_neg (by simpa using hspace)]
  have hlast : (ch '[' :: (inner ++ [ch ']'])).getLast? = some (ch ']') := by
    rw [← List.cons_append, List.getLast?_concat]
  have hlength : 2 ≤ (ch '[' :: (inner ++ [ch ']'])).length := by simp
  simp only [hlast, hlength, List.head?_cons, and_self, if_true, List.tail_cons,
    List.dropLast_concat]

/-- Only the first flag of a list counts. -/
theorem condOrNext_condFlagList (fs : List CondFlag) :
    condOrNext (condFlagList fs) = fs.head?.any CondFlag.isOr := by
  rw [condFlagList, condOrNext_flagList]
  cases fs with
  | nil => rfl
  | cons f fs =>
      obtain ⟨rest, hrest⟩ : ∃ rest, (lit ",").intercalate ((f :: fs).map CondFlag.text) =
          f.text ++ rest := by
        cases fs with
        | nil => exact ⟨[], by simp⟩
        | cons g fs =>
            refine ⟨lit "," ++ (lit ",").intercalate ((g :: fs).map CondFlag.text), ?_⟩
            rw [List.map_cons, List.map_cons, List.intercalate_cons_cons, List.append_assoc]
      have hlength : 2 ≤ (f.text ++ rest).length := by
        rw [List.length_append, f.length_text]
        exact Nat.le_add_right 2 _
      rw [hrest, f.compare_append, decide_eq_true hlength]
      rfl

theorem htaccessParseRewriteCond_flags {name test value flags : NgxStr} {more : List NgxStr}
    {cond : RewriteCond}
    (h : htaccessParseRewriteCond (name :: test :: value :: flags :: more) = some cond) :
    (∀ flags', htaccessParseRewriteCond (name :: test :: value :: flags' :: more) =
      some { cond with orNext := condOrNext flags' }) ∧ cond.orNext = condOrNext flags := by
  obtain ⟨parsed, htest, heq⟩ := Option.map_eq_some_iff.mp h
  subst heq
  exact ⟨fun flags' => by simp only [htaccessParseRewriteCond, htest, Option.map_some], rfl⟩

theorem head_any_perm_iff {α : Type} (p : α → Bool) (l : List α) :
    (∀ l' : List α, l'.Perm l → l'.head?.any p = l.any p) ↔
      ¬ ((∃ a ∈ l, p a = true) ∧ ∃ a ∈ l, p a = false) := by
  constructor
  · rintro hperm ⟨⟨a, ha, hpa⟩, b, hb, hpb⟩
    have hfront : ∀ x ∈ l, p x = l.any p := by
      intro x hx
      obtain ⟨before, after, hsplit⟩ := List.append_of_mem hx
      exact hperm (x :: (before ++ after)) (hsplit ▸ List.perm_middle.symm)
    have hab := (hfront a ha).trans (hfront b hb).symm
    rw [hpa, hpb] at hab
    cases hab
  · intro hnot l' hl'
    cases l' with
    | nil => rw [hl'.nil_eq.symm]; rfl
    | cons a l' =>
        have ha : a ∈ l := hl'.subset List.mem_cons_self
        show p a = l.any p
        cases hpa : p a with
        | true => exact (List.any_eq_true.mpr ⟨a, ha, hpa⟩).symm
        | false =>
            refine (List.any_eq_false.mpr fun b hb => ?_).symm
            exact fun hpb => hnot ⟨⟨b, hb, hpb⟩, a, ha, hpa⟩

/-- OR is found in the flag list of a condition, whatever the order of the list, exactly
when the list does not hold both OR and NC. -/
theorem or_found_iff {name test value : NgxStr} {more : List NgxStr} {cond : RewriteCond}
    (fs : List CondFlag)
    (h : htaccessParseRewriteCond (name :: test :: value :: condFlagList fs :: more) = some cond) :
    ((cond.orNext = true ↔ ∃ f ∈ fs, f.isOr = true) ∧
      ∀ gs : List CondFlag, gs.Perm fs →
        htaccessParseRewriteCond (name :: test :: value :: condFlagList gs :: more) = some cond) ↔
    ¬ ((∃ f ∈ fs, f.isOr = true) ∧ ∃ f ∈ fs, f.isOr = false) := by
  obtain ⟨hall, hor⟩ := htaccessParseRewriteCond_flags h
  rw [condOrNext_condFlagList] at hor
  have hsame : ∀ gs : List CondFlag,
      htaccessParseRewriteCond (name :: test :: value :: condFlagList gs :: more) = some cond ↔
        gs.head?.any CondFlag.isOr = cond.orNext := by
    intro gs
    rw [hall, condOrNext_condFlagList]
    constructor
    · intro hcond
      injection hcond with hcond
      exact congrArg RewriteCond.orNext hcond
    · intro hhead
      rw [hhead]
  simp only [hsame]
  rw [← head_any_perm_iff, ← List.any_eq_true, ← Bool.eq_iff_iff]
  constructor
  · rintro ⟨hfound, hperm⟩ gs hgs
    exact (hperm gs hgs).trans hfound
  · intro hperm
    have hfound : cond.orNext = fs.any CondFlag.isOr := hor.trans (hperm fs (List.Perm.refl fs))
    exact ⟨hfound, fun gs hgs => (hperm gs hgs).trans hfound.symm⟩

def condFlagNC : CondFlag where
  text := lit "NC"
  known := .inl (by decide)

def condFlagOR : CondFlag where
  text := lit "OR"
  known := .inr (by decide)

/-- `RewriteCond %{HTTP:A} 1` with a flag list. -/
def flaggedCond (fs : List CondFlag) : List NgxStr :=
  [lit "RewriteCond", lit "%{HTTP:A}", lit "1", condFlagList fs]

def parsedCond (orNext : Bool) : RewriteCond where
  test := .http
  name := lit "A"
  op := .regex
  value := lit "1"
  orNext := orNext

def condFlagOr : CondFlag where
  text := lit "or"
  known := .inr (by decide)

theorem or_found_alone :
    ((parsedCond true).orNext = true ↔ ∃ f ∈ [condFlagOR, condFlagOr], f.isOr = true) ∧
      ∀ gs : List CondFlag, gs.Perm [condFlagOR, condFlagOr] →
        htaccessParseRewriteCond (flaggedCond gs) = some (parsedCond true) :=
  (or_found_iff [condFlagOR, condFlagOr] (by decide)).mpr (by decide)

/-- OR behind NC is not found. -/
theorem or_behind_nc_lost :
    htaccessParseRewriteCond (flaggedCond [condFlagNC, condFlagOR]) = some (parsedCond false) ∧
      ∃ f ∈ [condFlagNC, condFlagOR], f.isOr = true := by
  decide

end NgxHtaccess
