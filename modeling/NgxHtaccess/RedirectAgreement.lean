import NgxHtaccess.TargetResolution
import NgxHtaccess.Execute

/-!
The two ways to a local target. An internal rewrite splits the target into path and
arguments, appends the old query for QSA and puts a slash in front of the path; a redirect
sends the target as the Location, with a slash in front unless it begins with an `h`.
-/
namespace NgxHtaccess

def RewriteRule.internalOnly (rule : RewriteRule) : RewriteRule := { rule with redirect := false }

/-- The Location that is sent for what a rule does. -/
def sentLocation (effect : Option HtaccessResult × Request × RequestState) : Option NgxStr :=
  if effect.1 = some .redirect then
    (htaccessSendRedirect effect.2.1 effect.2.2).2.location.map (·.value)
  else none

/-- What stands behind the path of a target. -/
def targetTail (target : NgxStr) : NgxStr := target.dropWhile (· ≠ ch '?')

def querySuffix (args : NgxStr) : NgxStr := if args = [] then [] else ch '?' :: args

section Target
variable (target : NgxStr)

theorem unparsedOf_eq (uri args : NgxStr) : unparsedOf uri args = uri ++ querySuffix args := by
  unfold unparsedOf querySuffix
  split
  · exact (List.append_nil uri).symm
  · rfl

theorem unparsedOf_target (r : Request) (state : RequestState) (qsa : Bool) :
    unparsedOf (htaccessApplyTargetUri r state target qsa).1.uri
        (htaccessApplyTargetUri r state target qsa).1.args =
      targetUri target ++ querySuffix (mergedArgs target state.queryString qsa) := by
  rw [unparsedOf_eq, htaccessApplyTargetUri_mergedArgs]
  rfl

theorem targetTail_eq :
    targetTail target = if ch '?' ∈ target then ch '?' :: targetArgs target else [] := by
  unfold targetTail targetArgs
  cases hsplit : ngxStrlchr target (ch '?') with
  | none =>
      have hnone := ngxStrlchr_eq_none.mp hsplit
      rw [if_neg hnone, dropWhile_ne_of_not_mem hnone]
  | some parts =>
      obtain ⟨path, args⟩ := parts
      obtain ⟨rfl, hpath⟩ := ngxStrlchr_eq_some hsplit
      rw [if_pos (List.mem_append_right _ List.mem_cons_self), dropWhile_ne_append hpath]
      rfl

theorem targetTail_iff (query : NgxStr) (qsa : Bool) :
    targetTail target = querySuffix (mergedArgs target query qsa) ↔
      ¬ (qsa = true ∧ query ≠ []) ∧ (ch '?' ∈ target → targetArgs target ≠ []) := by
  have hnone : ch '?' ∉ target → targetArgs target = [] := fun h => by
    rw [targetArgs, ngxStrlchr_eq_none.mpr h]
    rfl
  rw [targetTail_eq, mergedArgs, querySuffix]
  by_cases hquery : qsa = true ∧ query ≠ []
  · rw [if_pos hquery]
    refine iff_of_false (fun heq => ?_) fun h => h.1 hquery
    have hold : targetArgs target = [] →
        (if targetArgs target ≠ [] then targetArgs target ++ ch '&' :: query else query) =
          query := fun hargs => if_neg fun hne => hne hargs
    by_cases hmark : ch '?' ∈ target
    · rw [if_pos hmark] at heq
      by_cases hargs : targetArgs target = []
      · rw [hold hargs, if_neg hquery.2, hargs] at heq
        exact hquery.2 (List.cons.inj heq).2.symm
      · have hmerged : targetArgs target ++ ch '&' :: query ≠ [] :=
          List.append_ne_nil_of_left_ne_nil hargs _
        rw [if_pos hargs, if_neg hmerged] at heq
        exact absurd (List.self_eq_append_right.mp (List.cons.inj heq).2) (List.cons_ne_nil _ _)
    · rw [if_neg hmark, hold (hnone hmark), if_neg hquery.2] at heq
      cases heq
  · rw [if_neg hquery]
    by_cases hmark : ch '?' ∈ target
    · by_cases hargs : targetArgs target = [] <;> simp [hargs, hmark, hquery]
    · simp [hnone hmark, hmark, hquery]

theorem locationHeader_withSlash (hnil : target ≠ []) (hh : target.head? ≠ some (ch 'h')) :
    (locationHeader target).value = withSlash target := by
  unfold locationHeader withSlash
  by_cases hslash : target.head? = some (ch '/')
  · simp [hslash]
  · simp [hslash, hnil, hh]

theorem location_begins_iff :
    (locationHeader target).value.head? = some (ch '/') ↔
      target ≠ [] ∧ target.head? ≠ some (ch 'h') := by
  constructor
  · intro h
    constructor
    · rintro rfl
      cases h
    · intro hh
      have hvalue : (locationHeader target).value = target := by simp [locationHeader, hh]
      rw [hvalue, hh] at h
      exact absurd h (by decide)
  · rintro ⟨hnil, hh⟩
    rw [locationHeader_withSlash target hnil hh, withSlash]
    split
    · assumption
    · rfl

theorem withSlash_append {path : NgxStr} (h : path ≠ []) (rest : NgxStr) :
    withSlash (path ++ rest) = withSlash path ++ rest := by
  cases path with
  | nil => exact absurd rfl h
  | cons c path =>
      unfold withSlash
      rw [List.cons_append, List.head?_cons, List.head?_cons]
      split <;> rfl

/-- A redirect to a target is to what the internal rewrite to it leaves exactly when the
target has a path and does not begin with an `h`, no old query is appended to it, and a
question mark in it has something behind it. -/
theorem location_agrees_iff (r : Request) (state : RequestState) (qsa : Bool) :
    ((locationHeader target).value =
          unparsedOf (htaccessApplyTargetUri r state target qsa).1.uri
            (htaccessApplyTargetUri r state target qsa).1.args ∧
        (locationHeader target).value.head? = some (ch '/')) ↔
      targetPath target ≠ [] ∧ target.head? ≠ some (ch 'h') ∧
        ¬ (qsa = true ∧ state.queryString ≠ []) ∧
        (ch '?' ∈ target → targetArgs target ≠ []) := by
  rw [unparsedOf_target, location_begins_iff, ← targetTail_iff]
  have hsplit : targetPath target ++ targetTail target = target :=
    List.takeWhile_append_dropWhile
  by_cases hpath : targetPath target = []
  · refine iff_of_false (fun h => ?_) fun h => h.1 hpath
    obtain ⟨heq, hnil, hh⟩ := h
    have hbegins := (location_begins_iff target).mpr ⟨hnil, hh⟩
    have huri : targetUri target = [] := by
      have hempty : target.takeWhile (· ≠ ch '?') = [] := hpath
      rw [targetUri_eq, hempty]
      rfl
    rw [heq, huri, List.nil_append, querySuffix] at hbegins
    split at hbegins
    · cases hbegins
    · exact absurd hbegins (by rw [List.head?_cons, Option.some_inj]; decide)
  · have hnil : target ≠ [] := by
      rintro rfl
      exact hpath rfl
    by_cases hh : target.head? = some (ch 'h')
    · exact iff_of_false (fun h => h.2.2 hh) fun h => h.2.1 hh
    · rw [locationHeader_withSlash target hnil hh, (targetUri_eq_withSlash target).mpr hpath]
      nth_rewrite 1 [← hsplit]
      rw [withSlash_append hpath, List.append_cancel_left_eq]
      exact ⟨fun h => ⟨hpath, hh, h.1⟩, fun h => ⟨h.2.2, hnil, hh⟩⟩

end Target

/-- The law for two effects of the same target: the Location of the one is the URI and the
arguments of the other, and it begins with a slash. -/
def SameTarget (redirected rewritten : Option HtaccessResult × Request × RequestState) : Prop :=
  ∃ value, sentLocation redirected = some value ∧
    value = unparsedOf rewritten.2.1.uri rewritten.2.1.args ∧ value.head? = some (ch '/')

/-- The redirect of a matched rule with R agrees with the rewrite of the rule without it under
the condition on its target and on the old query. -/
theorem redirect_agrees_iff (sys : Sys) (conf : LocConf) (dir : DirCtx) (rule : RewriteRule)
    (s t : RewriteState) (m : MatchCtx) (sub out : NgxStr)
    (hm : ruleMatch sys conf dir rule s = some m) (ht : matchedState sys rule s m = t)
    (hredirect : rule.redirect = true) (hused : rule.internalOnly.writesNothing = false)
    (hsub : htaccessExpand sys t.r t.state rule.substitution (some m) = some sub)
    (hout : ruleTarget sys dir rule t m sub = out) :
    SameTarget (tryRule sys conf dir rule s).effect
        (tryRule sys conf dir rule.internalOnly s).effect ↔
      targetPath out ≠ [] ∧ out.head? ≠ some (ch 'h') ∧
        ¬ (rule.qsa = true ∧ s.state.queryString ≠ []) ∧
        (ch '?' ∈ out → targetArgs out ≠ []) := by
  subst ht
  subst hout
  obtain ⟨env, henv⟩ := htaccessApplyEnvFlags_eq sys s.r s.state m (rule.envVars.getD [])
  have hstate : (matchedState sys rule s m).state = { s.state with env } := henv
  have hquery : (matchedState sys rule s m).state.queryString = s.state.queryString := by
    rw [hstate]
  have hinternal := @tryRule_writes sys conf dir rule.internalOnly s m sub hm hused hsub
  simp only [RewriteRule.writesNothing, RewriteRule.internalOnly, Bool.or_eq_false_iff] at hused
  have hredirected := effect_usedTarget sys conf dir rule s hm (of_decide_eq_false hused.1.1) hsub
  rw [usedTarget, if_neg (Bool.eq_false_iff.mp hused.2), Option.elim_some, targetEffect,
    if_pos hredirect] at hredirected
  unfold SameTarget
  rw [hredirected, hinternal, ← hquery]
  have hagrees := location_agrees_iff
    (ruleTarget sys dir rule (matchedState sys rule s m) m sub) s.r
    (matchedState sys rule s m).state rule.qsa
  rw [← hagrees]
  constructor
  · rintro ⟨value, hvalue, heq, hslash⟩
    cases Option.some.inj hvalue
    exact ⟨heq, hslash⟩
  · rintro ⟨heq, hslash⟩
    exact ⟨_, rfl, heq, hslash⟩

/-- `RewriteRule old /new [R=302,QSA]`. -/
def appendRule : RewriteRule where
  pattern := lit "old"
  substitution := lit "/new"
  qsa := true
  redirect := true
  redirectCode := 302

def visitorStart : RewriteState :=
  rewriteStart (siteSys (siteFs 0 [])) { siteRequest "/old" with args := lit "a=1" } visitorState

/-- For `/old?a=1` the line redirects to `/new`, where it would rewrite to `/new?a=1`. -/
theorem redirect_drops_query :
    directiveData (siteSys (siteFs 0 [])) 0 .rewriteRule
        [lit "RewriteRule", lit "old", lit "/new", lit "[R=302,QSA]"] none =
      some (.rewriteRule appendRule) ∧
    ¬ SameTarget
      (tryRule (siteSys (siteFs 0 [])) (siteConf 10) captureDir appendRule visitorStart).effect
      (tryRule (siteSys (siteFs 0 [])) (siteConf 10) captureDir appendRule.internalOnly
        visitorStart).effect := by
  refine ⟨by decide +kernel, ?_⟩
  rintro ⟨value, hvalue, heq, -⟩
  have hsame : sentLocation (tryRule (siteSys (siteFs 0 [])) (siteConf 10) captureDir appendRule
      visitorStart).effect = some (lit "/new?a=1") := by
    rw [hvalue, heq]
    decide +kernel
  revert hsame
  decide +kernel

theorem redirect_without_query :
    SameTarget
      (tryRule (siteSys (siteFs 0 [])) (siteConf 10) captureDir appendRule oldStart).effect
      (tryRule (siteSys (siteFs 0 [])) (siteConf 10) captureDir appendRule.internalOnly
        oldStart).effect :=
  (redirect_agrees_iff (siteSys (siteFs 0 [])) (siteConf 10) captureDir appendRule
    oldStart _ oldMatch (lit "/new") (lit "/new") (oldStart_match rfl rfl rfl rfl rfl) rfl rfl
    (by decide) (by decide +kernel) rfl).mpr (by decide +kernel)

end NgxHtaccess
