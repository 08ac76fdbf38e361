import NgxHtaccess.RuleScan
import NgxHtaccess.Site

/-!
What the C flag does to the rule that has it. The engine expands the substitution of a
chained rule and goes on before the target is used, unless L or END is set too: the
rewrite, or the redirect, of the rule without the flag is lost.
-/
namespace NgxHtaccess
open BoundedLoop Scan

/-- What a rule does to the request, without the flag of the chain. -/
def RuleOutcome.effect : RuleOutcome → Option HtaccessResult × Request × RequestState
  | .next s => (none, s.r, s.state)
  | .result v s => (some v, s.r, s.state)

def RewriteRule.unchained (rule : RewriteRule) : RewriteRule := { rule with chain := false }

section Rule
variable (sys : Sys) (conf : LocConf) (dir : DirCtx) (rule : RewriteRule) (s : RewriteState)
  (m : MatchCtx)

/-- The target of a matched rule, once its substitution is expanded. -/
def expandedTarget : Option NgxStr :=
  (htaccessExpand sys s.r s.state rule.substitution (some m)).map (ruleTarget sys dir rule s m)

/-- What using the target does, but for the flag of the chain. -/
def targetEffect (r : Request) (state : RequestState) :
    Option NgxStr → Option HtaccessResult × Request × RequestState
  | none => (some .error, r, state)
  | some out =>
      if rule.redirect then
        (some .redirect, r, { state with
          uri := out
          redirectCode := if rule.redirectCode ≠ 0 then rule.redirectCode
            else ngxHttpMovedTemporarily })
      else
        (if rule.last || rule.endFlag then some .ok else none,
          htaccessApplyTargetUri r state out rule.qsa)

/-- The engine does not go on before the target of the chained rule, or loses nothing by it:
the target cannot be expanded, or is written over a request that it leaves as it is. -/
def TargetKept : Prop :=
  rule.last = true ∨ rule.endFlag = true ∨
    ∀ out ∈ expandedTarget sys dir rule (matchedState sys rule s m) m,
      rule.redirect = false ∧
        htaccessApplyTargetUri s.r (matchedState sys rule s m).state out rule.qsa =
          (s.r, (matchedState sys rule s m).state)

variable {sys conf dir rule s m}

theorem applyMatchedRule_effect (hsub : rule.substitution ≠ lit "-") :
    (applyMatchedRule sys dir rule s m).effect =
      if (rule.chain && !rule.last && !rule.endFlag && (expandedTarget sys dir rule s m).isSome) =
          true then
        (none, s.r, s.state)
      else targetEffect rule s.r s.state (expandedTarget sys dir rule s m) := by
  unfold applyMatchedRule expandedTarget
  rw [if_neg hsub]
  cases htaccessExpand sys s.r s.state rule.substitution (some m) with
  | none => simp only [Option.map_none, Option.isSome_none, Bool.and_false, Bool.false_eq_true,
      if_false, targetEffect, RuleOutcome.effect]
  | some sub =>
      simp only [Option.map_some, Option.isSome_some, Bool.and_true, targetEffect]
      cases rule.chain && !rule.last && !rule.endFlag with
      | true => rfl
      | false =>
          cases rule.redirect with
          | true => rfl
          | false => cases rule.last || rule.endFlag <;> rfl

theorem effect_unchained (hsub : rule.substitution ≠ lit "-")
    (hm : ruleMatch sys conf dir rule s = some m) :
    (tryRule sys conf dir rule.unchained s).effect =
      targetEffect rule s.r (matchedState sys rule s m).state
        (expandedTarget sys dir rule (matchedState sys rule s m) m) := by
  have hsame : ruleMatch sys conf dir rule.unchained s = some m := hm
  have hsub' : rule.unchained.substitution ≠ lit "-" := hsub
  rw [tryRule_of_match sys conf dir rule.unchained s hsame, applyMatchedRule_effect hsub']
  rfl

/-- With the C flag it is used only if L or END is set too. -/
theorem effect_chained (hchain : rule.chain = true) (hsub : rule.substitution ≠ lit "-")
    (hm : ruleMatch sys conf dir rule s = some m) :
    (tryRule sys conf dir rule s).effect =
      if rule.last = true ∨ rule.endFlag = true ∨
          expandedTarget sys dir rule (matchedState sys rule s m) m = none then
        targetEffect rule s.r (matchedState sys rule s m).state
          (expandedTarget sys dir rule (matchedState sys rule s m) m)
      else (none, s.r, (matchedState sys rule s m).state) := by
  rw [tryRule_of_match sys conf dir rule s hm, applyMatchedRule_effect hsub, hchain]
  cases rule.last <;> cases rule.endFlag <;>
    cases expandedTarget sys dir rule (matchedState sys rule s m) m <;> rfl

theorem chained_step_iff (hchain : rule.chain = true) (hsub : rule.substitution ≠ lit "-")
    (hm : ruleMatch sys conf dir rule s = some m) :
    (tryRule sys conf dir rule s).effect = (tryRule sys conf dir rule.unchained s).effect ↔
      TargetKept sys dir rule s m := by
  rw [effect_chained hchain hsub hm, effect_unchained hsub hm]
  unfold TargetKept
  by_cases hends : rule.last = true ∨ rule.endFlag = true
  · have hpos : rule.last = true ∨ rule.endFlag = true ∨
        expandedTarget sys dir rule (matchedState sys rule s m) m = none :=
      hends.imp_right .inl
    rw [if_pos hpos]
    exact iff_of_true rfl (hends.imp_right .inl)
  · obtain ⟨hlast, hend⟩ := not_or.mp hends
    cases htarget : expandedTarget sys dir rule (matchedState sys rule s m) m with
    | none => simp
    | some out =>
        have hneg : ¬ (rule.last = true ∨ rule.endFlag = true ∨ some out = none) := by
          simp [hlast, hend]
        rw [if_neg hneg, or_iff_right hlast, or_iff_right hend]
        simp only [Option.mem_def, Option.some.injEq, forall_eq']
        cases hredirect : rule.redirect with
        | true => simp [targetEffect, hredirect]
        | false =>
            have hstop : ¬ (rule.last || rule.endFlag) = true := by simp [hlast, hend]
            simp only [targetEffect, hredirect, Bool.false_eq_true, if_false, if_neg hstop,
              Prod.mk.injEq, true_and]
            exact eq_comm

end Rule

/-- Every attempted rule with the C flag and a substitution has the effect that it has
without the flag exactly when every such rule keeps its target. -/
theorem chained_rule_rewrites_iff (sys : Sys) (conf : LocConf) (r : Request) (dirs : List DirCtx)
    (state : RequestState) :
    (∀ y ∈ trace (ruleStep sys conf) (scannedRules dirs) (rewriteStart sys r state), ∀ m,
      y.1.2.chain = true → y.1.2.substitution ≠ lit "-" →
      ruleMatch sys conf y.1.1 y.1.2 y.2 = some m →
        (tryRule sys conf y.1.1 y.1.2 y.2).effect =
          (tryRule sys conf y.1.1 y.1.2.unchained y.2).effect) ↔
    ∀ y ∈ trace (ruleStep sys conf) (scannedRules dirs) (rewriteStart sys r state), ∀ m,
      y.1.2.chain = true → y.1.2.substitution ≠ lit "-" →
      ruleMatch sys conf y.1.1 y.1.2 y.2 = some m →
        TargetKept sys y.1.1 y.1.2 y.2 m :=
  forall₂_congr fun _ _ => forall₄_congr fun _ hchain hsub hm => chained_step_iff hchain hsub hm

def chainedRewriteDir : DirCtx where
  dirPath := lit "/w"
  urlPrefix := []
  rewriteBase := lit "/"
  rewriteEngine := true
  directives := some
    [⟨[], .rewriteRule { pattern := lit "old", substitution := lit "/new", chain := true }⟩]

/-- `RewriteRule old /new [C]` leaves `/old` alone. -/
theorem chained_rewrite_lost :
    ¬ ∀ y ∈ trace (ruleStep (siteSys (siteFs 0 [])) (siteConf 10))
        (scannedRules [chainedRewriteDir])
        (rewriteStart (siteSys (siteFs 0 [])) (siteRequest "/old") (siteState "/old")), ∀ m,
      y.1.2.chain = true → y.1.2.substitution ≠ lit "-" →
      ruleMatch (siteSys (siteFs 0 [])) (siteConf 10) y.1.1 y.1.2 y.2 = some m →
        (tryRule (siteSys (siteFs 0 [])) (siteConf 10) y.1.1 y.1.2 y.2).effect =
          (tryRule (siteSys (siteFs 0 [])) (siteConf 10) y.1.1 y.1.2.unchained y.2).effect := by
  intro hall
  have hfirst := hall _ List.mem_cons_self
  have hmatch : (ruleMatch (siteSys (siteFs 0 [])) (siteConf 10) chainedRewriteDir
      { pattern := lit "old", substitution := lit "/new", chain := true }
      (rewriteStart (siteSys (siteFs 0 [])) (siteRequest "/old")
        (siteState "/old"))).isSome = true := by
    decide +kernel
  obtain ⟨m, hm⟩ := Option.isSome_iff_exists.mp hmatch
  have heffect := hfirst m rfl (by decide) hm
  revert heffect
  decide +kernel

end NgxHtaccess
