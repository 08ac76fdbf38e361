import NgxHtaccess.Rewrite
import NgxHtaccess.Site
import NgxHtaccess.Lib.OrGroups

/-!
The conditions of a rule as a conjunction of OR groups. `htaccess_match_conditions`
returns at the first condition with the OR flag that holds, so it decides the conjunction
unless a group behind such a condition is the first to fail.
-/
namespace NgxHtaccess
open OrGroups

section Conditions
variable (sys : Sys) (conf : LocConf) (r : Request) (state : RequestState)

def CondHolds (cond : RewriteCond) : Prop := htaccessTestCond sys conf r state cond = ngxOk

/-- The groups of the conditions that the OR flag joins. -/
def condGroups (conds : List RewriteCond) : List (List RewriteCond) :=
  groups RewriteCond.orNext conds

variable {sys conf r state}

/-- A condition with the OR flag that holds decides the list. -/
theorem matchConds_or_holds {init rest : List RewriteCond}
    (hinit : ∀ c ∈ init, c.orNext = true) (h : ∃ c ∈ init, CondHolds sys conf r state c) :
    matchConds sys conf r state (init ++ rest) = ngxOk := by
  induction init with
  | nil =>
      obtain ⟨c, hc, _⟩ := h
      cases hc
  | cons c init ih =>
      obtain ⟨hc, hinit⟩ := List.forall_mem_cons.mp hinit
      rw [List.cons_append, matchConds]
      simp only [hc, if_true]
      by_cases hholds : htaccessTestCond sys conf r state c = ngxOk
      · rw [if_pos hholds]
      · rw [if_neg hholds]
        obtain ⟨d, hd, hdholds⟩ := h
        rcases List.mem_cons.mp hd with rfl | hd
        · exact absurd hdholds hholds
        · exact ih hinit ⟨d, hd, hdholds⟩

theorem matchConds_or_fails {init rest : List RewriteCond}
    (hinit : ∀ c ∈ init, c.orNext = true) (h : ¬ ∃ c ∈ init, CondHolds sys conf r state c) :
    matchConds sys conf r state (init ++ rest) = matchConds sys conf r state rest := by
  induction init with
  | nil => rfl
  | cons c init ih =>
      obtain ⟨hc, hinit⟩ := List.forall_mem_cons.mp hinit
      rw [List.cons_append, matchConds]
      have hfails : ¬ htaccessTestCond sys conf r state c = ngxOk := fun hholds =>
        h ⟨c, List.mem_cons_self, hholds⟩
      simp only [hc, if_true, if_neg hfails]
      exact ih hinit fun ⟨d, hd, hholds⟩ => h ⟨d, List.mem_cons_of_mem _ hd, hholds⟩

theorem matchConds_last {c : RewriteCond} {rest : List RewriteCond} (hc : c.orNext = false) :
    matchConds sys conf r state (c :: rest) = ngxOk ↔
      CondHolds sys conf r state c ∧ matchConds sys conf r state rest = ngxOk := by
  rw [matchConds]
  simp only [hc, Bool.false_eq_true, if_false]
  unfold CondHolds
  by_cases hholds : htaccessTestCond sys conf r state c = ngxOk
  · rw [if_neg (not_not_intro hholds), and_iff_right hholds]
  · rw [if_pos hholds]
    exact iff_of_false (by decide) fun h => hholds h.1

theorem satisfied_group {init : List RewriteCond} {c : RewriteCond} :
    Satisfied (CondHolds sys conf r state) (init ++ [c]) ↔
      (∃ d ∈ init, CondHolds sys conf r state d) ∨ CondHolds sys conf r state c := by
  unfold Satisfied
  simp only [List.mem_append, List.mem_singleton, or_and_right, exists_or, exists_eq_left]

theorem joined_in_group {init : List RewriteCond} {c : RewriteCond}
    (hinit : ∀ d ∈ init, d.orNext = true) (hc : c.orNext = false) :
    (∃ d ∈ init ++ [c], d.orNext = true ∧ CondHolds sys conf r state d) ↔
      ∃ d ∈ init, CondHolds sys conf r state d := by
  constructor
  · rintro ⟨d, hd, hor, hholds⟩
    rcases List.mem_append.mp hd with hd | hd
    · exact ⟨d, hd, hholds⟩
    · rw [List.mem_singleton.mp hd, hc] at hor
      cases hor
  · rintro ⟨d, hd, hholds⟩
    exact ⟨d, List.mem_append_left _ hd, hinit d hd, hholds⟩

theorem matchConds_iff {conds : List RewriteCond} (hlast : Closed RewriteCond.orNext conds) :
    (matchConds sys conf r state conds = ngxOk ↔
      ∀ g ∈ condGroups conds, Satisfied (CondHolds sys conf r state) g) ↔
    ¬ Shortcut RewriteCond.orNext (CondHolds sys conf r state) (condGroups conds) := by
  refine closed_induction (motive := fun conds =>
    (matchConds sys conf r state conds = ngxOk ↔
      ∀ g ∈ condGroups conds, Satisfied (CondHolds sys conf r state) g) ↔
    ¬ Shortcut RewriteCond.orNext (CondHolds sys conf r state) (condGroups conds))
    ?nil ?group hlast
  case nil =>
    refine iff_of_true ?_ not_shortcut_nil
    exact iff_of_true rfl (List.forall_mem_nil _)
  case group =>
    intro init c rest hinit hc ih
    have hgroups : condGroups (init ++ c :: rest) = (init ++ [c]) :: condGroups rest :=
      groups_append hinit hc
    rw [hgroups, shortcut_cons, List.forall_mem_cons, joined_in_group hinit hc, satisfied_group]
    by_cases hor : ∃ d ∈ init, CondHolds sys conf r state d
    · -- the code stops here, whatever the other groups are
      have hcode : matchConds sys conf r state (init ++ c :: rest) = ngxOk :=
        matchConds_or_holds hinit hor
      have hfails : Shortcut RewriteCond.orNext (CondHolds sys conf r state) (condGroups rest) →
          ¬ ∀ g ∈ condGroups rest, Satisfied (CondHolds sys conf r state) g := Shortcut.fails
      simp only [hcode, hor, true_or, true_and, true_iff]
      constructor
      · exact fun hall h => h.elim (fun hs => hfails hs hall) fun hnot => hnot hall
      · exact fun h => not_not.mp fun hnot => h (.inr hnot)
    · rw [matchConds_or_fails hinit hor, matchConds_last hc]
      by_cases hholds : CondHolds sys conf r state c
      · simpa only [hor, hholds, or_true, true_and, false_and, or_false] using ih
      · simp only [hor, hholds, or_self, false_and, not_false_eq_true]

variable (sys conf r state)

/-- The conditions of a rule are decided as a conjunction of OR groups exactly when no
condition with the OR flag holds in a group before the first one that fails. -/
theorem match_conditions_iff (rule : RewriteRule)
    (hlast : ∀ c ∈ (rule.conditions.getD []).getLast?, c.orNext = false) :
    (htaccessMatchConditions sys conf r state rule = ngxOk ↔
      ∀ g ∈ condGroups (rule.conditions.getD []),
        ∃ c ∈ g, htaccessTestCond sys conf r state c = ngxOk) ↔
    ¬ Shortcut RewriteCond.orNext (CondHolds sys conf r state)
        (condGroups (rule.conditions.getD [])) :=
  matchConds_iff hlast

end Conditions

/-- `RewriteCond %{HTTP:A} 1 [OR]`, then the same for `B` without the flag and for `C`. -/
def groupedRule : RewriteRule where
  pattern := lit "x"
  substitution := lit "/y"
  conditions := some
    [{ test := .http, name := lit "A", op := .regex, value := lit "1", orNext := true },
     { test := .http, name := lit "B", op := .regex, value := lit "1", orNext := false },
     { test := .http, name := lit "C", op := .regex, value := lit "1", orNext := false }]

def groupedRequest : Request := { siteRequest "/x" with headersIn := [(lit "A", lit "1")] }

theorem match_conditions_grouped :
    (htaccessMatchConditions (siteSys (siteFs 0 [])) (siteConf 10) groupedRequest (siteState "/x")
        groupedRule = ngxOk ↔
      ∀ g ∈ condGroups (groupedRule.conditions.getD []),
        ∃ c ∈ g, htaccessTestCond (siteSys (siteFs 0 [])) (siteConf 10) groupedRequest
          (siteState "/x") c = ngxOk) ↔
    ¬ Shortcut RewriteCond.orNext
        (CondHolds (siteSys (siteFs 0 [])) (siteConf 10) groupedRequest (siteState "/x"))
        (condGroups (groupedRule.conditions.getD [])) :=
  match_conditions_iff (siteSys (siteFs 0 [])) (siteConf 10) groupedRequest (siteState "/x")
    groupedRule fun c hc => by
      cases hc
      rfl

/-- The header `A` decides, though the group of `C` fails. -/
theorem later_group_skipped :
    ¬ ((∀ c ∈ (groupedRule.conditions.getD []).getLast?, c.orNext = false) →
      (htaccessMatchConditions (siteSys (siteFs 0 [])) (siteConf 10) groupedRequest (siteState "/x")
          groupedRule = ngxOk ↔
        ∀ g ∈ condGroups (groupedRule.conditions.getD []),
          ∃ c ∈ g, htaccessTestCond (siteSys (siteFs 0 [])) (siteConf 10) groupedRequest
            (siteState "/x") c = ngxOk)) := by
  decide +kernel

end NgxHtaccess
