import NgxHtaccess.ParseAppend
import NgxHtaccess.SameView

/-!
Which conditions a rule gets. The array of waiting conditions goes through lines, blocks and
other directives by pointer; at every line it holds the conditions since the last rule.
-/
namespace NgxHtaccess

def isRuleLine (line : List NgxStr) : Bool := lineId line = some .rewriteRule

def isCondLine (line : List NgxStr) : Bool := lineId line = some .rewriteCond

/-- The conditions of a run of lines, as they are parsed. -/
def parsedConds (lines : List (List NgxStr)) : List (Option RewriteCond) :=
  (lines.filter isCondLine).map htaccessParseRewriteCond

/-- The conditions in front of every RewriteRule line, back to the one before it. -/
def condRuns (lines : List (List NgxStr)) : List (List (Option RewriteCond)) :=
  (lines.splitOnP isRuleLine).dropLast.map parsedConds

/-- The conditions of the rules among the directives. -/
def ruleConds (ds : List Directive) : List (List (Option RewriteCond)) :=
  (ds.filterMap Directive.ruleOf).map fun rule => (rule.conditions.getD []).map some

section Runs
variable {line : List NgxStr} (lines : List (List NgxStr))

theorem dropLast_modifyHead {α : Type} (f : α → α) (l : List α) :
    (l.modifyHead f).dropLast = l.dropLast.modifyHead f := by
  cases l with
  | nil => rfl
  | cons a l => cases l <;> rfl

theorem condRuns_rule (h : isRuleLine line = true) :
    condRuns (line :: lines) = [] :: condRuns lines := by
  unfold condRuns
  rw [List.splitOnP_cons_eq_if_modifyHead, if_pos h,
    List.dropLast_cons_of_ne_nil (List.splitOnP_ne_nil _ _)]
  rfl

theorem condRuns_line (h : isRuleLine line = false) :
    condRuns (line :: lines) = (condRuns lines).modifyHead (parsedConds [line] ++ ·) := by
  unfold condRuns
  rw [List.splitOnP_cons_eq_if_modifyHead, if_neg (by rw [h]; exact Bool.false_ne_true),
    dropLast_modifyHead]
  cases (lines.splitOnP isRuleLine).dropLast with
  | nil => rfl
  | cons run runs =>
      have hrun : parsedConds (line :: run) = parsedConds [line] ++ parsedConds run := by
        unfold parsedConds
        rw [← List.singleton_append, List.filter_append, List.map_append]
      simp only [List.modifyHead_cons, List.map_cons, hrun]

end Runs

section Lines
variable (sys : Sys) (pool : PoolId) {st st' : ParserState} {line : List NgxStr}

theorem parseLine_rule (hst : Nested st) (hline : lineId line = some .rewriteRule)
    (h : parseLine sys pool st line = some st') :
    ruleConds st'.directives =
      ruleConds st.directives ++ [(st.pendingConds.getD []).map some] := by
  rw [parseLine_of_lineId sys pool hline, if_pos (hst.on _ (Nat.le_refl _)),
    htaccessPushDirective, if_neg (by decide)] at h
  obtain ⟨u, hdata, rfl⟩ := Option.map_eq_some_iff.mp h
  obtain ⟨rule, rfl, hconds⟩ : ∃ rule, u = .rewriteRule rule ∧
      rule.conditions.getD [] = st.pendingConds.getD [] := by
    simp only [directiveData] at hdata
    split at hdata
    · injection hdata with hdata
      refine ⟨_, hdata.symm, ?_⟩
      simp only
      split
      · rename_i hnone
        exact hnone.symm
      · rfl
    · cases hdata
  simp only [ruleConds, List.filterMap_append, List.map_append, ← hconds]
  rfl

theorem parseLine_cond (hst : Nested st) (hline : lineId line = some .rewriteCond)
    (h : parseLine sys pool st line = some st') :
    ruleConds st'.directives = ruleConds st.directives ∧
      (st'.pendingConds.getD []).map some =
        (st.pendingConds.getD []).map some ++ [htaccessParseRewriteCond line] := by
  rw [parseLine_of_lineId sys pool hline, if_pos (hst.on _ (Nat.le_refl _)),
    htaccessPushDirective, if_pos rfl] at h
  obtain ⟨cond, hcond, rfl⟩ := Option.map_eq_some_iff.mp h
  refine ⟨rfl, ?_⟩
  rw [hcond, ngxArrayPush_getD, List.map_append]
  rfl

theorem parseLine_other (hline : lineId line ≠ some .rewriteRule)
    (h : parseLine sys pool st line = some st') :
    ruleConds st'.directives = ruleConds st.directives := by
  rcases parseLine_directives sys pool h with hsame | ⟨t, rest, d, hline', hid, hpush⟩
  · rw [hsame]
  · have hnone : d.ruleOf = none := by
      unfold Directive.ruleOf
      split
      · rename_i rule hu
        rw [hu] at hid
        refine absurd ?_ hline
        rw [hline']
        exact hid
      · rfl
    rw [hpush, ruleConds, List.filterMap_append, List.filterMap_cons, hnone,
      List.filterMap_nil, List.append_nil, ruleConds]

/-- The lines give every rule the conditions of its run; the first rule also gets those that
wait at the start. -/
theorem parseLines_ruleConds {lines : List (List NgxStr)} (hst : Nested st)
    (hconds : st.pendingConds ≠ some []) (h : parseLines sys pool lines st = some st') :
    ruleConds st'.directives =
      ruleConds st.directives ++
        (condRuns lines).modifyHead ((st.pendingConds.getD []).map some ++ ·) := by
  induction lines generalizing st with
  | nil =>
      cases h
      exact (List.append_nil _).symm
  | cons line lines ih =>
      rw [parseLines_cons] at h
      obtain ⟨mid, hline, hrest⟩ := Option.bind_eq_some_iff.mp h
      have hpending := parseLine_pendingConds sys pool hst hconds hline
      rw [ih (parseLine_nested sys pool hst hline) hpending.1 hrest]
      by_cases hrule : lineId line = some .rewriteRule
      · have hnone : mid.pendingConds = none := by
          rw [hpending.2 (by rw [hrule]; decide), if_pos hrule]
        rw [parseLine_rule sys pool hst hrule hline, hnone, condRuns_rule _ (decide_eq_true hrule)]
        cases condRuns lines <;> simp
      by_cases hcond : lineId line = some .rewriteCond
      · obtain ⟨hdirectives, hwaits⟩ := parseLine_cond sys pool hst hcond hline
        have hone : parsedConds [line] = [htaccessParseRewriteCond line] := by
          simp [parsedConds, isCondLine, hcond]
        rw [hdirectives, hwaits, condRuns_line _ (decide_eq_false hrule), hone]
        cases condRuns lines <;> simp
      · have hone : parsedConds [line] = [] := by
          simp [parsedConds, isCondLine, hcond]
        rw [parseLine_other sys pool hrule hline, hpending.2 hcond, if_neg hrule,
          condRuns_line _ (decide_eq_false hrule), hone]
        cases condRuns lines <;> rfl

/-- The rules of a parsed file have, one after the other, the conditions of the lines in
front of them, back to the RewriteRule line before. -/
theorem conditions_attached {text : NgxStr} {file : ParsedFile}
    (h : htaccessParse sys pool text = some file) :
    (file.directives.filterMap Directive.ruleOf).map
        (fun rule => (rule.conditions.getD []).map some) =
      ((lexedText text).1.splitOnP isRuleLine).dropLast.map parsedConds := by
  rw [htaccessParse_lexed] at h
  split at h
  · obtain ⟨st, hst, rfl⟩ := Option.map_eq_some_iff.mp h
    have hconds := parseLines_ruleConds sys pool nested_initial (Option.some_ne_none _).symm hst
    refine hconds.trans ?_
    show [] ++ (condRuns (lexedText text).1).modifyHead ([] ++ ·) = condRuns (lexedText text).1
    cases condRuns (lexedText text).1 <;> rfl
  · cases h

end Lines

/-- Two rules with conditions, one of them across a block. -/
def condText : NgxStr :=
  lit ("RewriteCond %{ENV:a} 1\n<IfModule mod_x.c>\nRequire all granted\n" ++
    "RewriteCond %{ENV:b} 1\n</IfModule>\nRewriteRule x /y\n" ++
    "RewriteCond %{ENV:c} 1\nRewriteRule y /z\n")

theorem conditions_attached_text :
    ∃ file, htaccessParse (siteSys (siteFs 0 [])) 0 condText = some file ∧
      (file.directives.filterMap Directive.ruleOf).map
          (fun rule => (rule.conditions.getD []).map some) =
        ((lexedText condText).1.splitOnP isRuleLine).dropLast.map parsedConds := by
  have hsome : (htaccessParse (siteSys (siteFs 0 [])) 0 condText).isSome = true := by
    decide +kernel
  obtain ⟨file, hfile⟩ := Option.isSome_iff_exists.mp hsome
  exact ⟨file, hfile, conditions_attached (siteSys (siteFs 0 [])) 0 hfile⟩

end NgxHtaccess
