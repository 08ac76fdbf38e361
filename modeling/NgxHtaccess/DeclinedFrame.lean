import NgxHtaccess.ChainedRules
import NgxHtaccess.QueryString

/-!
What a declined rewrite leaves. A rule without L or END writes its target and the scan goes
on, and both ways to the end of the scan return DECLINED, so the request is declined with
another URI than it came with.
-/
namespace NgxHtaccess
open BoundedLoop Scan

/-- The fields that a target is written to. -/
def targetFields (r : Request) (state : RequestState) :
    NgxStr × NgxStr × NgxStr × NgxStr × NgxStr :=
  (r.uri, r.args, r.unparsedUri, state.uri, state.queryString)

/-- What a target that is written over an old query leaves in them. -/
def fieldsAfter (target query : NgxStr) (qsa : Bool) :
    NgxStr × NgxStr × NgxStr × NgxStr × NgxStr :=
  (targetUri target, mergedArgs target query qsa,
    unparsedOf (targetUri target) (mergedArgs target query qsa),
    targetUri target, mergedArgs target query qsa)

theorem targetFields_applyTargetUri (r : Request) (state : RequestState) (target : NgxStr)
    (qsa : Bool) :
    targetFields (htaccessApplyTargetUri r state target qsa).1
        (htaccessApplyTargetUri r state target qsa).2 =
      fieldsAfter target state.queryString qsa := by
  rw [fieldsAfter, ← htaccessApplyTargetUri_mergedArgs r state target qsa]
  rfl

section Step
variable (sys : Sys) (conf : LocConf) (y : (DirCtx × RewriteRule) × RewriteState)

/-- The fields as the rule leaves them if it writes a target. -/
def stepWrites : Option (NgxStr × NgxStr × NgxStr × NgxStr × NgxStr) :=
  (stepTarget sys conf y).map fun target => fieldsAfter target y.2.state.queryString y.1.2.qsa

/-- A rule that ends the scan, and not as DECLINED: its regex fails, or it has a match and a
substitution that does not expand, or that it goes on with and stops behind. -/
inductive StepEnds : Prop where
  | regexError : ruleErrs sys conf y.1.1 y.1.2 y.2 = true → StepEnds
  | noExpansion (m : MatchCtx) : ruleMatch sys conf y.1.1 y.1.2 y.2 = some m →
      y.1.2.substitution ≠ lit "-" →
      htaccessExpand sys y.2.r (matchedState sys y.1.2 y.2 m).state y.1.2.substitution (some m) =
        none → StepEnds
  | flagged (m : MatchCtx) : ruleMatch sys conf y.1.1 y.1.2 y.2 = some m →
      y.1.2.substitution ≠ lit "-" →
      (y.1.2.last || y.1.2.endFlag || y.1.2.redirect && !y.1.2.chain) = true → StepEnds

theorem targetEffect_ends_iff (rule : RewriteRule) (r : Request) (state : RequestState)
    (out : NgxStr) :
    (∃ v ∈ (if (rule.chain && !rule.last && !rule.endFlag) = true then (none, r, state)
        else targetEffect rule r state (some out)).1, v ≠ .declined) ↔
      (rule.last || rule.endFlag || rule.redirect && !rule.chain) = true := by
  unfold targetEffect
  cases rule.chain <;> cases rule.last <;> cases rule.endFlag <;> cases rule.redirect <;> simp

section Ends
variable {sys conf y}

theorem stepEnds_of_no_match (hm : ruleMatch sys conf y.1.1 y.1.2 y.2 = none) :
    StepEnds sys conf y ↔ ruleErrs sys conf y.1.1 y.1.2 y.2 = true := by
  constructor
  · rintro (herrs | ⟨m, hsome, -, -⟩ | ⟨m, hsome, -, -⟩)
    · exact herrs
    · exact absurd (hm.symm.trans hsome) (Option.some_ne_none m).symm
    · exact absurd (hm.symm.trans hsome) (Option.some_ne_none m).symm
  · exact .regexError

theorem stepEnds_of_match {m : MatchCtx} (hm : ruleMatch sys conf y.1.1 y.1.2 y.2 = some m) :
    StepEnds sys conf y ↔
      y.1.2.substitution ≠ lit "-" ∧
        (htaccessExpand sys y.2.r (matchedState sys y.1.2 y.2 m).state y.1.2.substitution
            (some m) = none ∨
          (y.1.2.last || y.1.2.endFlag || y.1.2.redirect && !y.1.2.chain) = true) := by
  constructor
  · rintro (herrs | ⟨m', hm', hdash, hexpand⟩ | ⟨_, _, hdash, hflags⟩)
    · rw [ruleErrs_of_match sys conf _ _ _ hm] at herrs
      cases herrs
    · cases Option.some.inj (hm.symm.trans hm')
      exact ⟨hdash, .inl hexpand⟩
    · exact ⟨hdash, .inr hflags⟩
  · rintro ⟨hdash, hexpand | hflags⟩
    · exact .noExpansion m hm hdash hexpand
    · exact .flagged m hm hdash hflags

end Ends

theorem stepEnds_iff :
    StepEnds sys conf y ↔ ∃ v ∈ (tryRule sys conf y.1.1 y.1.2 y.2).effect.1, v ≠ .declined := by
  cases hm : ruleMatch sys conf y.1.1 y.1.2 y.2 with
  | none =>
      obtain ⟨t, -, -, -, -, htry⟩ := tryRule_of_no_match sys conf y.1.1 y.1.2 y.2 hm
      rw [stepEnds_of_no_match hm, htry]
      cases ruleErrs sys conf y.1.1 y.1.2 y.2 <;> simp [RuleOutcome.effect]
  | some m =>
      have hr : (matchedState sys y.1.2 y.2 m).r = y.2.r := rfl
      rw [stepEnds_of_match hm, tryRule_of_match sys conf y.1.1 y.1.2 y.2 hm]
      by_cases hdash : y.1.2.substitution = lit "-"
      · rw [applyMatchedRule, if_pos hdash]
        cases y.1.2.last || y.1.2.endFlag <;> simp [RuleOutcome.effect, hdash]
      · rw [applyMatchedRule_effect hdash, expandedTarget, hr]
        cases htaccessExpand sys y.2.r (matchedState sys y.1.2 y.2 m).state y.1.2.substitution
          (some m) with
        | none => simp [targetEffect, hdash]
        | some sub =>
            simp only [Option.map_some, Option.isSome_some, Bool.and_true]
            rw [targetEffect_ends_iff]
            simp [hdash]

/-- The fields as the rule leaves them if it changes any. -/
def stepChanges : Option (NgxStr × NgxStr × NgxStr × NgxStr × NgxStr) :=
  if (tryRule sys conf y.1.1 y.1.2 y.2).effect.1 = some .redirect then
    some (targetFields (tryRule sys conf y.1.1 y.1.2 y.2).left.r
      (tryRule sys conf y.1.1 y.1.2 y.2).left.state)
  else stepWrites sys conf y

theorem stepChanges_spec :
    Holds (fun t => targetFields t.r t.state =
        (stepChanges sys conf y).getD (targetFields y.2.r y.2.state))
      (fun out => targetFields out.2.r out.2.state =
        (stepChanges sys conf y).getD (targetFields y.2.r y.2.state))
      (ruleStep sys conf y.1 y.2) := by
  have hleft : targetFields (tryRule sys conf y.1.1 y.1.2 y.2).left.r
      (tryRule sys conf y.1.1 y.1.2 y.2).left.state =
        (stepChanges sys conf y).getD (targetFields y.2.r y.2.state) := by
    have hcase := tryRule_case sys conf y.1.1 y.1.2 y.2
    unfold stepChanges stepWrites stepTarget
    generalize tryRule sys conf y.1.1 y.1.2 y.2 = outcome at hcase
    cases hcase with
    | kept _ hnone hr hstate hkind =>
        have hne : outcome.effect.1 ≠ some .redirect := by
          rcases hkind with h | h | h <;> rw [h] <;> simp [RuleOutcome.effect]
        obtain ⟨env, henv⟩ := hstate
        rw [if_neg hne, hnone, hr, henv]
        rfl
    | redirected t hnone hr _ => rfl
    | wrote out env t hsome heq =>
        have hfields : targetFields t.r t.state =
            fieldsAfter out y.2.state.queryString y.1.2.qsa :=
          (congrArg (fun p : Request × RequestState => targetFields p.1 p.2) heq).trans
            (targetFields_applyTargetUri y.2.r { y.2.state with env } out y.1.2.qsa)
        rw [hsome]
        split <;> exact hfields
  unfold ruleStep
  generalize tryRule sys conf y.1.1 y.1.2 y.2 = outcome at hleft
  cases outcome <;> exact hleft

end Step

section Engine
variable (sys : Sys) (conf : LocConf) (r : Request) (merged : MergedCtx) (state : RequestState)

def engineSteps : List ((DirCtx × RewriteRule) × RewriteState) :=
  trace (ruleStep sys conf) (scannedRules merged.dirs) (rewriteStart sys r state)

/-- The engine declines exactly when no rule ends it otherwise. -/
theorem declined_iff :
    (htaccessApplyRewrite sys conf r merged state).1 = .declined ↔
      ¬ ∃ y ∈ engineSteps sys conf r merged state, StepEnds sys conf y := by
  have hends (y : (DirCtx × RewriteRule) × RewriteState) : StepEnds sys conf y ↔
      ∃ v t, v ≠ .declined ∧ ruleStep sys conf y.1 y.2 = .stop (v, t) := by
    rw [stepEnds_iff, ruleStep]
    cases tryRule sys conf y.1.1 y.1.2 y.2 with
    | next t => simp [RuleOutcome.effect, RuleOutcome.round]
    | result v t => simp [RuleOutcome.effect, RuleOutcome.round]
  rw [htaccessApplyRewrite_eq]
  constructor
  · rintro hdeclined ⟨y, hy, hend⟩
    obtain ⟨v, t, hv, hstop⟩ := (hends y).mp hend
    rw [scan_eq_stop_iff.mpr ⟨y, hy, hstop⟩] at hdeclined
    exact hv hdeclined
  · intro hnone
    cases hscan : scan (ruleStep sys conf) (scannedRules merged.dirs) (rewriteStart sys r state) with
    | again t => rfl
    | stop out =>
        obtain ⟨v, t⟩ := out
        obtain ⟨y, hy, hstop⟩ := scan_eq_stop_iff.mp hscan
        by_contra hv
        exact hnone ⟨y, hy, (hends y).mpr ⟨v, t, hv, hstop⟩⟩

theorem engine_fields :
    targetFields (htaccessApplyRewrite sys conf r merged state).2.1
        (htaccessApplyRewrite sys conf r merged state).2.2 =
      ((engineSteps sys conf r merged state).filterMap (stepChanges sys conf)).getLast?.getD
        (targetFields r state) := by
  have hend := scan_overwrite (fun t : RewriteState => targetFields t.r t.state)
    (fun out : HtaccessResult × RewriteState => targetFields out.2.r out.2.state)
    (stepChanges sys conf) (fun x t => stepChanges_spec sys conf (x, t))
    (scannedRules merged.dirs) (rewriteStart sys r state)
  rw [htaccessApplyRewrite_eq]
  unfold engineSteps
  generalize scan _ _ _ = round at hend
  cases round <;> exact hend

/-- A rewrite that declines leaves the request as it was exactly when a rule ends it otherwise,
or no target is written, or the last one written puts back what was there. -/
theorem declined_untouched_iff :
    ((htaccessApplyRewrite sys conf r merged state).1 = .declined →
      targetFields (htaccessApplyRewrite sys conf r merged state).2.1
        (htaccessApplyRewrite sys conf r merged state).2.2 = targetFields r state) ↔
    (∃ y ∈ engineSteps sys conf r merged state, StepEnds sys conf y) ∨
      ∀ fields ∈ ((engineSteps sys conf r merged state).filterMap (stepWrites sys conf)).getLast?,
        fields = targetFields r state := by
  rw [declined_iff, engine_fields]
  by_cases hends : ∃ y ∈ engineSteps sys conf r merged state, StepEnds sys conf y
  · exact iff_of_true (fun h => absurd hends h) (.inl hends)
  · have hsame : (engineSteps sys conf r merged state).filterMap (stepChanges sys conf) =
        (engineSteps sys conf r merged state).filterMap (stepWrites sys conf) := by
      refine List.filterMap_congr fun y hy => if_neg fun hredirect => ?_
      exact hends ⟨y, hy, (stepEnds_iff sys conf y).mpr ⟨.redirect, hredirect, by decide⟩⟩
    rw [hsame, or_iff_right hends]
    generalize ((engineSteps sys conf r merged state).filterMap (stepWrites sys conf)).getLast? =
      last
    cases last with
    | none => simp
    | some fields => simp [hends]

end Engine

def plainRuleDir : DirCtx where
  dirPath := lit "/w"
  urlPrefix := []
  rewriteBase := lit "/"
  rewriteEngine := true
  directives := some [⟨[], .rewriteRule { pattern := lit "old", substitution := lit "/new" }⟩]

def oneDirCtx (dir : DirCtx) : MergedCtx := { dirs := [dir] }

/-- `RewriteRule old /new` declines `/old` and leaves it as `/new`. -/
theorem declined_rewritten :
    ¬ ((htaccessApplyRewrite (siteSys (siteFs 0 [])) (siteConf 10) (siteRequest "/old")
          (oneDirCtx plainRuleDir) (siteState "/old")).1 = .declined →
        targetFields
          (htaccessApplyRewrite (siteSys (siteFs 0 [])) (siteConf 10) (siteRequest "/old")
            (oneDirCtx plainRuleDir) (siteState "/old")).2.1
          (htaccessApplyRewrite (siteSys (siteFs 0 [])) (siteConf 10) (siteRequest "/old")
            (oneDirCtx plainRuleDir) (siteState "/old")).2.2 =
        targetFields (siteRequest "/old") (siteState "/old")) := by
  decide +kernel

end NgxHtaccess
