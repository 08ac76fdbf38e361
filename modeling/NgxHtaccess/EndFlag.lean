import NgxHtaccess.UriMirror
import NgxHtaccess.Site

/-!
What follows a rule with the END flag. The engine returns on END as it does on L, and the
loop runs it again on the URI that it leaves: no rule is applied after END exactly when
none matches the URI that a later pass starts with.
-/
namespace NgxHtaccess
open BoundedLoop Scan

section Engine
variable (sys : Sys) (conf : LocConf)

/-- No rule of the list matches on the state, up to one whose regex fails. -/
def NoRuleMatches (s : RewriteState) : List (DirCtx × RewriteRule) → Prop
  | [] => True
  | x :: xs =>
      ruleMatch sys conf x.1 x.2 s = none ∧
        (ruleErrs sys conf x.1 x.2 s = false → NoRuleMatches s xs)

variable {sys conf}

theorem ruleStep_of_no_match {x : DirCtx × RewriteRule} {s : RewriteState}
    (hchain : s.chainActive = false) (h : ruleMatch sys conf x.1 x.2 s = none) :
    ruleStep sys conf x s =
      if ruleErrs sys conf x.1 x.2 s then .stop (.error, s) else .again s := by
  obtain ⟨t, hr, hstate, hcaptures, hactive, htry⟩ :=
    tryRule_of_no_match sys conf x.1 x.2 s h
  have hts : t = s := by
    obtain ⟨r, state, captures, chainActive⟩ := t
    obtain ⟨r', state', captures', chainActive'⟩ := s
    simp only at hr hstate hcaptures hactive hchain
    subst hr hstate hcaptures hchain
    cases chainActive with
    | false => rfl
    | true => cases hactive rfl
  rw [ruleStep, htry, hts]
  split <;> rfl

theorem trace_no_match_iff {s : RewriteState} (hchain : s.chainActive = false)
    (xs : List (DirCtx × RewriteRule)) :
    (∀ y ∈ trace (ruleStep sys conf) xs s, ruleMatch sys conf y.1.1 y.1.2 y.2 = none) ↔
      NoRuleMatches sys conf s xs := by
  induction xs with
  | nil => simp [trace, NoRuleMatches]
  | cons x xs ih =>
      rw [trace, List.forall_mem_cons, NoRuleMatches]
      refine and_congr_right fun hx => ?_
      rw [ruleStep_of_no_match hchain hx]
      cases ruleErrs sys conf x.1 x.2 s with
      | false => simpa using ih
      | true => simp

theorem scan_of_no_match {s : RewriteState} (hchain : s.chainActive = false)
    {xs : List (DirCtx × RewriteRule)} (h : NoRuleMatches sys conf s xs) :
    scan (ruleStep sys conf) xs s = .again s ∨
      scan (ruleStep sys conf) xs s = .stop (.error, s) := by
  induction xs with
  | nil => exact .inl rfl
  | cons x xs ih =>
      obtain ⟨hx, hxs⟩ := h
      rw [scan, ruleStep_of_no_match hchain hx]
      cases herrs : ruleErrs sys conf x.1 x.2 s with
      | false => exact ih (hxs herrs)
      | true => exact .inr rfl

end Engine

section Run
variable (sys : Sys) (conf : LocConf) (r : Request) (w : Worker)

/-- No rule of the files along the URI of the pass matches when it starts. -/
def PassMatchesNothing (s : LoopState) : Prop :=
  NoRuleMatches sys conf (rewriteStart sys s.r s.state) (scannedRules (passCtx sys conf s).dirs)

/-- The rule makes the engine return, without a redirect and without an error. -/
def RuleOutcome.ends : RuleOutcome → Bool
  | .result .declined _ | .result .ok _ => true
  | _ => false

/-- The engine of the pass returns because a matching rule has the END flag. -/
def EndedByEnd (s : LoopState) : Prop :=
  RunsEngine sys conf r.uri s ∧ ∃ y ∈ ruleSteps sys conf s, y.1.2.endFlag = true ∧
    (ruleMatch sys conf y.1.1 y.1.2 y.2).isSome = true ∧
    (tryRule sys conf y.1.1 y.1.2 y.2).ends = true

/-- After a pass that END has ended no rule is applied, and the access check of the pass
that follows it has the URI and the arguments that END has left. -/
structure EndFinal (s t : LoopState) : Prop where
  unapplied : RunsEngine sys conf r.uri t →
    ∀ y ∈ ruleSteps sys conf t, ruleMatch sys conf y.1.1 y.1.2 y.2 = none
  checked : htaccessPass sys conf r.uri s = .again t → (passRewrite sys conf s).1 = .ok →
    ReachesAccess sys conf r.uri t →
      (passRewrite sys conf t).2.1.uri = (passRewrite sys conf s).2.1.uri ∧
        (passRewrite sys conf t).2.1.args = (passRewrite sys conf s).2.1.args

variable {sys conf r w}

theorem passRewrite_of_no_match {s : LoopState} (h : PassMatchesNothing sys conf s) :
    (passRewrite sys conf s).2.1 = s.r := by
  rw [passRewrite_eq]
  rcases scan_of_no_match rfl h with hscan | hscan <;> rw [hscan] <;> rfl

/-- A pass that a rule restarts hands its URI and its arguments on. -/
theorem request_of_restart {s t : LoopState} (hm : Mirrored s.r s.state)
    (hpass : htaccessPass sys conf r.uri s = .again t) (hok : (passRewrite sys conf s).1 = .ok) :
    t.r.uri = (passRewrite sys conf s).2.1.uri ∧ t.r.args = (passRewrite sys conf s).2.1.args := by
  obtain ⟨_, _, _, rfl⟩ | ⟨code, uri, hreach, _, _, rfl⟩ :=
    htaccessPass_again_cases sys conf r.uri s hpass
  · exact ⟨((passRewrite_mirrored hm).2 (by rw [hok]; decide)).uri, rfl⟩
  · exact absurd hok hreach.2.2.2

variable (sys conf r w) in
/-- END is final in a run exactly when no rule matches at the start of a pass that comes
after one that END has ended. -/
theorem end_final_iff :
    (∀ s t, VisitsThen (htaccessPass sys conf r.uri) conf.maxRedirects (.initial conf r w) s t →
      EndedByEnd sys conf r s → EndFinal sys conf r s t) ↔
    ∀ s t, VisitsThen (htaccessPass sys conf r.uri) conf.maxRedirects (.initial conf r w) s t →
      EndedByEnd sys conf r s → RunsEngine sys conf r.uri t → PassMatchesNothing sys conf t := by
  constructor
  · intro hfinal s t hvisits hend hruns
    exact (trace_no_match_iff rfl _).mp ((hfinal s t hvisits hend).unapplied hruns)
  · intro hmatch s t hvisits hend
    have hnone := hmatch s t hvisits hend
    refine ⟨fun hruns => (trace_no_match_iff rfl _).mpr (hnone hruns),
      fun hpass hok hreach => ?_⟩
    have hm := (passStart_of_visits sys conf r w hvisits.first).mirrored
    rw [passRewrite_of_no_match (hnone ⟨hreach.1, hreach.2.1⟩)]
    exact request_of_restart hm hpass hok

end Run

/-- A rule with END leads to a URI that another rule of the file matches. -/
def endRuleSys : Sys :=
  siteSys (siteFs 0 [("/w/.htaccess",
    "RewriteEngine On\nRewriteRule old /new [END]\nRewriteRule new /other [L]\n")])

/-- The pass after the END rule applies the other rule. -/
theorem rule_applied_after_end :
    ¬ ∀ s t, VisitsThen (htaccessPass endRuleSys (siteConf htaccessMaxRedirectsDefault)
        (siteRequest "/old").uri) htaccessMaxRedirectsDefault
        (.initial (siteConf htaccessMaxRedirectsDefault) (siteRequest "/old") (siteWorker 0)) s t →
      EndedByEnd endRuleSys (siteConf htaccessMaxRedirectsDefault) (siteRequest "/old") s →
      EndFinal endRuleSys (siteConf htaccessMaxRedirectsDefault) (siteRequest "/old") s t := by
  intro hfinal
  have hend : EndedByEnd endRuleSys (siteConf htaccessMaxRedirectsDefault) (siteRequest "/old")
      (.initial (siteConf htaccessMaxRedirectsDefault) (siteRequest "/old") (siteWorker 0)) := by
    unfold EndedByEnd
    decide +kernel
  obtain ⟨t, hnext, hruns, y, hy, hmatch⟩ : ∃ t ∈ (htaccessPass endRuleSys
      (siteConf htaccessMaxRedirectsDefault) (siteRequest "/old").uri
      (.initial (siteConf htaccessMaxRedirectsDefault) (siteRequest "/old") (siteWorker 0))).next,
      RunsEngine endRuleSys (siteConf htaccessMaxRedirectsDefault) (siteRequest "/old").uri t ∧
        ∃ y ∈ ruleSteps endRuleSys (siteConf htaccessMaxRedirectsDefault) t,
          (ruleMatch endRuleSys (siteConf htaccessMaxRedirectsDefault) y.1.1 y.1.2 y.2).isSome =
            true := by
    decide +kernel
  have hvisits := VisitsThen.here (n := 9) (Round.next_eq_some hnext) (.here 8 t)
  have hnone := (hfinal _ t hvisits hend).unapplied hruns y hy
  rw [hnone] at hmatch
  cases hmatch

end NgxHtaccess
