import NgxHtaccess.SameView
import NgxHtaccess.Lib.Scan

/-!
The rewrite engine as one scan over the rules of all directories, and what a rule
does to the request and its state: it leaves the URI alone, redirects, or writes
a target.
-/
namespace NgxHtaccess
open BoundedLoop Scan

def RuleOutcome.left : RuleOutcome → RewriteState
  | .next s => s
  | .result _ s => s

section Rule
variable (sys : Sys) (conf : LocConf) (dir : DirCtx) (rule : RewriteRule) (s : RewriteState)

/-- The match of a rule that is tried on the state. -/
def ruleMatch : Option MatchCtx :=
  if rule.chainIn && !s.chainActive then none
  else if !sys.regexCompile rule.pattern rule.nocase then none
  else if htaccessMatchConditions sys conf s.r s.state rule ≠ ngxOk then none
  else
    let rel := htaccessRelativeUri s.state.uri dir.urlPrefix
    match sys.regexExec rule.pattern rule.nocase rel with
    | .matched pairs =>
        some { subject := rel, captures := writeCaptures s.captures 20 pairs, ncaptures := 20 }
    | _ => none

/-- The state of a matched rule once its E flags are applied. -/
def matchedState (m : MatchCtx) : RewriteState :=
  { s with
    state := htaccessApplyEnvFlags sys s.r s.state m (rule.envVars.getD [])
    captures := m.captures
    chainActive := if rule.chain then true else s.chainActive }

/-- A matched rule of this kind has no target to write. -/
def RewriteRule.writesNothing (rule : RewriteRule) : Bool :=
  rule.substitution = lit "-" || rule.redirect || (rule.chain && !rule.last && !rule.endFlag)

/-- The target that the rule writes to the request. -/
def writtenTarget : Option NgxStr :=
  (ruleMatch sys conf dir rule s).bind fun m =>
    if rule.writesNothing then none
    else
      let s := matchedState sys rule s m
      (htaccessExpand sys s.r s.state rule.substitution (some m)).map
        (ruleTarget sys dir rule s m)

theorem htaccessApplyEnvFlags_eq (r : Request) (state : RequestState) (m : MatchCtx)
    (vars : List NgxStr) :
    ∃ env, htaccessApplyEnvFlags sys r state m vars = { state with env } := by
  induction vars generalizing state with
  | nil => exact ⟨state.env, rfl⟩
  | cons var vars ih =>
      rw [htaccessApplyEnvFlags]
      cases ngxStrlchr var (ch ':') with
      | none => exact ih state
      | some parts =>
          simp only
          cases htaccessExpand sys r state parts.2 (some m) with
          | none => exact ih state
          | some expanded =>
              obtain ⟨env, henv⟩ := ih (htaccessEnvSet state parts.1 expanded)
              exact ⟨env, henv⟩

theorem tryRule_of_match {m : MatchCtx} (h : ruleMatch sys conf dir rule s = some m) :
    tryRule sys conf dir rule s =
      applyMatchedRule sys dir rule (matchedState sys rule s m) m := by
  unfold ruleMatch at h
  unfold tryRule
  split at h
  · cases h
  · rename_i hchain
    rw [if_neg hchain]
    split at h
    · cases h
    · rename_i hcompile
      rw [if_neg hcompile]
      split at h
      · cases h
      · rename_i hconds
        rw [if_neg hconds]
        simp only at h ⊢
        split at h
        · rename_i pairs hexec
          injection h with h
          subst h
          simp only [hexec]
          rfl
        · cases h

/-- The regex of a rule that is tried on the state fails. -/
def ruleErrs : Bool :=
  !(rule.chainIn && !s.chainActive) && sys.regexCompile rule.pattern rule.nocase &&
    htaccessMatchConditions sys conf s.r s.state rule = ngxOk &&
    match sys.regexExec rule.pattern rule.nocase
      (htaccessRelativeUri s.state.uri dir.urlPrefix) with
    | .error => true
    | _ => false

theorem ruleErrs_of_match {m : MatchCtx} (h : ruleMatch sys conf dir rule s = some m) :
    ruleErrs sys conf dir rule s = false := by
  unfold ruleMatch at h
  unfold ruleErrs
  split at h
  · cases h
  split at h
  · cases h
  split at h
  · cases h
  simp only at h
  split at h
  · rename_i pairs hexec
    rw [hexec, Bool.and_false]
  · cases h

theorem ruleFailed_spec :
    (s.ruleFailed rule).r = s.r ∧ (s.ruleFailed rule).state = s.state ∧
      (s.ruleFailed rule).captures = s.captures ∧
      ((s.ruleFailed rule).chainActive = true → s.chainActive = true) := by
  unfold RewriteState.ruleFailed
  cases rule.chain <;> simp

theorem tryRule_of_no_match (h : ruleMatch sys conf dir rule s = none) :
    ∃ t : RewriteState, t.r = s.r ∧ t.state = s.state ∧ t.captures = s.captures ∧
      (t.chainActive = true → s.chainActive = true) ∧
      tryRule sys conf dir rule s =
        if ruleErrs sys conf dir rule s then .result .error t else .next t := by
  obtain ⟨hr, hstate, hcaptures, hchainActive⟩ := ruleFailed_spec rule s
  unfold ruleMatch at h
  unfold tryRule ruleErrs
  cases hchain : rule.chainIn && !s.chainActive with
  | true => exact ⟨s, rfl, rfl, rfl, id, rfl⟩
  | false =>
      rw [hchain] at h
      cases hcompile : sys.regexCompile rule.pattern rule.nocase with
      | false => exact ⟨_, hr, hstate, hcaptures, hchainActive, rfl⟩
      | true =>
          rw [hcompile] at h
          by_cases hconds : htaccessMatchConditions sys conf s.r s.state rule = ngxOk
          · simp only [hconds, ne_eq, not_true_eq_false, if_false, Bool.not_true,
              Bool.false_eq_true, Bool.not_false, Bool.true_and, decide_true] at h ⊢
            cases hexec : sys.regexExec rule.pattern rule.nocase
              (htaccessRelativeUri s.state.uri dir.urlPrefix) with
            | matched pairs =>
                rw [hexec] at h
                cases h
            | noMatched => exact ⟨_, hr, hstate, hcaptures, hchainActive, rfl⟩
            | error => exact ⟨s, rfl, rfl, rfl, id, rfl⟩
          · refine ⟨_, hr, hstate, hcaptures, hchainActive, ?_⟩
            simp [hconds]

/-- What a rule can do. -/
inductive RuleCase : RuleOutcome → Prop where
  | kept (outcome : RuleOutcome) : writtenTarget sys conf dir rule s = none →
      outcome.left.r = s.r → (∃ env, outcome.left.state = { s.state with env }) →
      (outcome = .next outcome.left ∨ outcome = .result .declined outcome.left ∨
        outcome = .result .error outcome.left) → RuleCase outcome
  | redirected (t : RewriteState) : writtenTarget sys conf dir rule s = none →
      t.r = s.r → t.state.filename = s.state.filename → RuleCase (.result .redirect t)
  | wrote (out : NgxStr) (env : Option (List EnvVar)) (t : RewriteState) :
      writtenTarget sys conf dir rule s = some out →
      (t.r, t.state) = htaccessApplyTargetUri s.r { s.state with env } out rule.qsa →
      RuleCase (if rule.last || rule.endFlag then .result .ok t else .next t)

theorem tryRule_case : RuleCase sys conf dir rule s (tryRule sys conf dir rule s) := by
  cases hm : ruleMatch sys conf dir rule s with
  | none =>
      have hnone : writtenTarget sys conf dir rule s = none := by
        rw [writtenTarget, hm, Option.bind_none]
      obtain ⟨t, hr, hstate, _, _, htry⟩ := tryRule_of_no_match sys conf dir rule s hm
      rw [htry]
      split
      · exact .kept _ hnone hr ⟨s.state.env, hstate⟩ (.inr (.inr rfl))
      · exact .kept _ hnone hr ⟨s.state.env, hstate⟩ (.inl rfl)
  | some m =>
      obtain ⟨env, henv⟩ := htaccessApplyEnvFlags_eq sys s.r s.state m (rule.envVars.getD [])
      have hstate : (matchedState sys rule s m).state = { s.state with env } := henv
      have hr : (matchedState sys rule s m).r = s.r := rfl
      rw [tryRule_of_match sys conf dir rule s hm, applyMatchedRule]
      have htarget : writtenTarget sys conf dir rule s =
          if rule.writesNothing then none
          else (htaccessExpand sys (matchedState sys rule s m).r (matchedState sys rule s m).state
            rule.substitution (some m)).map
              (ruleTarget sys dir rule (matchedState sys rule s m) m) := by
        rw [writtenTarget, hm, Option.bind_some]
      generalize matchedState sys rule s m = t at hstate hr htarget ⊢
      by_cases hdash : rule.substitution = lit "-"
      · rw [RewriteRule.writesNothing, decide_eq_true hdash, Bool.true_or, Bool.true_or] at htarget
        rw [if_pos hdash]
        split
        · exact .kept _ htarget hr ⟨env, hstate⟩ (.inr (.inl rfl))
        · exact .kept _ htarget hr ⟨env, hstate⟩ (.inl rfl)
      · rw [if_neg hdash]
        cases hexpand : htaccessExpand sys t.r t.state rule.substitution (some m) with
        | none =>
            rw [hexpand, Option.map_none, ite_self] at htarget
            exact .kept _ htarget hr ⟨env, hstate⟩ (.inr (.inr rfl))
        | some sub =>
            rw [hexpand, Option.map_some] at htarget
            simp only [RewriteRule.writesNothing, hdash, decide_false, Bool.false_or] at htarget
            simp only
            by_cases hchained : (rule.chain && !rule.last && !rule.endFlag) = true
            · rw [hchained, Bool.or_true] at htarget
              rw [if_pos hchained]
              exact .kept _ htarget hr ⟨env, hstate⟩ (.inl rfl)
            · rw [if_neg hchained]
              cases hredirect : rule.redirect with
              | true =>
                  rw [hredirect, Bool.true_or] at htarget
                  refine .redirected _ htarget hr ?_
                  rw [hstate]
              | false =>
                  rw [hredirect, Bool.not_eq_true _ |>.mp hchained, Bool.false_or] at htarget
                  refine .wrote _ env { t with
                    r := (htaccessApplyTargetUri t.r t.state (ruleTarget sys dir rule t m sub)
                      rule.qsa).1
                    state := (htaccessApplyTargetUri t.r t.state (ruleTarget sys dir rule t m sub)
                      rule.qsa).2
                    chainActive := false } htarget ?_
                  rw [hr, hstate]

end Rule

section Target

/-- The URI that writing a target leaves. -/
def targetUri (target : NgxStr) : NgxStr :=
  let uri := ((ngxStrlchr target (ch '?')).getD (target, [])).1
  if uri ≠ [] ∧ uri.head? ≠ some (ch '/') then ch '/' :: uri else uri

theorem targetUri_eq (target : NgxStr) :
    targetUri target =
      if target.takeWhile (· ≠ ch '?') ≠ [] ∧
          (target.takeWhile (· ≠ ch '?')).head? ≠ some (ch '/') then
        ch '/' :: target.takeWhile (· ≠ ch '?')
      else target.takeWhile (· ≠ ch '?') := by
  have hpath : ((ngxStrlchr target (ch '?')).getD (target, [])).1 =
      target.takeWhile (· ≠ ch '?') := by
    unfold ngxStrlchr
    cases hrest : target.dropWhile (· ≠ ch '?') with
    | nil =>
        have hall := List.takeWhile_append_dropWhile (p := (· ≠ ch '?')) (l := target)
        rw [hrest, List.append_nil] at hall
        simp only [Option.getD_none, hall]
    | cons c rest => rfl
  rw [targetUri, hpath]

end Target

/-- A rule leaves the URI or the one of its target. -/
theorem tryRule_uri (sys : Sys) (conf : LocConf) (dir : DirCtx) (rule : RewriteRule)
    (s : RewriteState) :
    (tryRule sys conf dir rule s).left.r.uri =
      ((writtenTarget sys conf dir rule s).map targetUri).getD s.r.uri := by
  have hcase := tryRule_case sys conf dir rule s
  generalize tryRule sys conf dir rule s = outcome at hcase
  cases hcase with
  | kept _ hnone hr _ _ => rw [hnone, hr, Option.map_none, Option.getD_none]
  | redirected t hnone hr _ =>
      rw [hnone]
      exact congrArg Request.uri hr
  | wrote out env t hsome heq =>
      have hleft : t.r.uri = targetUri out := congrArg (fun p => p.1.uri) heq
      rw [hsome]
      split <;> exact hleft

section Engine
variable (sys : Sys) (conf : LocConf)

def RuleOutcome.round : RuleOutcome → Round RewriteState (HtaccessResult × RewriteState)
  | .next s => .again s
  | .result v s => .stop (v, s)

/-- The rules of the directories whose engine is on, in the order of the scan. -/
def scannedRules (dirs : List DirCtx) : List (DirCtx × RewriteRule) :=
  dirs.flatMap fun dir => if dir.rewriteEngine then dir.rules.map (Prod.mk dir) else []

def ruleStep (x : DirCtx × RewriteRule) (s : RewriteState) :
    Round RewriteState (HtaccessResult × RewriteState) :=
  (tryRule sys conf x.1 x.2 s).round

theorem rewriteRules_eq_scan (dir : DirCtx) (rules : List RewriteRule) (s : RewriteState) :
    (rewriteRules sys conf dir rules s).round =
      scan (ruleStep sys conf) (rules.map (Prod.mk dir)) s := by
  induction rules generalizing s with
  | nil => rfl
  | cons rule rules ih =>
      rw [rewriteRules, List.map_cons, scan, ruleStep]
      cases tryRule sys conf dir rule s with
      | next t => exact ih t
      | result v t => rfl

theorem rewriteDirs_eq_scan (dirs : List DirCtx) (s : RewriteState) :
    (rewriteDirs sys conf dirs s).round = scan (ruleStep sys conf) (scannedRules dirs) s := by
  induction dirs generalizing s with
  | nil => rfl
  | cons dir dirs ih =>
      rw [rewriteDirs, scannedRules, List.flatMap_cons, scan_append]
      cases dir.rewriteEngine with
      | false => exact ih s
      | true =>
          simp only [if_true]
          rw [rewriteDirectives_eq, ← DirCtx.rules, ← rewriteRules_eq_scan]
          cases rewriteRules sys conf dir dir.rules s with
          | next t => exact ih t
          | result v t => rfl

def rewriteStart (sys : Sys) (r : Request) (state : RequestState) : RewriteState where
  r := r
  state := state
  captures := sys.staleCaptures
  chainActive := false

theorem htaccessApplyRewrite_eq (r : Request) (merged : MergedCtx) (state : RequestState) :
    htaccessApplyRewrite sys conf r merged state =
      match scan (ruleStep sys conf) (scannedRules merged.dirs) (rewriteStart sys r state) with
      | .again s => (.declined, s.r, s.state)
      | .stop (v, s) => (v, s.r, s.state) := by
  rw [← rewriteDirs_eq_scan, htaccessApplyRewrite, rewriteStart]
  cases rewriteDirs sys conf merged.dirs _ <;> rfl

end Engine

section Pass
variable (sys : Sys) (conf : LocConf) (requestUri : NgxStr) (s : LoopState)

/-- The rules that the engine tries in the pass, each with the state it is tried on. -/
def ruleSteps : List ((DirCtx × RewriteRule) × RewriteState) :=
  trace (ruleStep sys conf) (scannedRules (passCtx sys conf s).dirs)
    (rewriteStart sys s.r s.state)

/-- The pass gets as far as the rewrite engine. -/
def RunsEngine : Prop :=
  ¬ DeniedAtOnce sys conf requestUri s ∧ (passAlias sys conf s).1 ≠ .redirect

instance : Decidable (RunsEngine sys conf requestUri s) := inferInstanceAs (Decidable (_ ∧ _))

def stepTarget (y : (DirCtx × RewriteRule) × RewriteState) : Option NgxStr :=
  writtenTarget sys conf y.1.1 y.1.2 y.2

/-- The targets that the pass writes to the request, in order. -/
def passTargets : List NgxStr := (ruleSteps sys conf s).filterMap (stepTarget sys conf)

/-- A property of the request and its state that E flags do not touch. -/
def EnvBlind (P : Request → RequestState → Prop) : Prop :=
  ∀ r state env, P r state → P r { state with env }

variable {sys conf s} in
theorem holds_ruleStep {P : Request → RequestState → Prop} (henv : EnvBlind P)
    {y : (DirCtx × RewriteRule) × RewriteState}
    (hkeep : stepTarget sys conf y = none → P y.2.r y.2.state)
    (hwrite : ∀ out env, stepTarget sys conf y = some out →
      P (htaccessApplyTargetUri y.2.r { y.2.state with env } out y.1.2.qsa).1
        (htaccessApplyTargetUri y.2.r { y.2.state with env } out y.1.2.qsa).2) :
    Holds (fun t => P t.r t.state) (fun out => out.1 = .redirect ∨ P out.2.r out.2.state)
      (ruleStep sys conf y.1 y.2) := by
  have hcase := tryRule_case sys conf y.1.1 y.1.2 y.2
  unfold ruleStep
  generalize tryRule sys conf y.1.1 y.1.2 y.2 = outcome at hcase
  cases hcase with
  | kept _ hnone hr hstate hkind =>
      obtain ⟨env, henv'⟩ := hstate
      have hleft : P outcome.left.r outcome.left.state := by
        rw [hr, henv']
        exact henv _ _ env (hkeep hnone)
      rcases hkind with h | h | h <;> rw [h]
      · exact hleft
      · exact .inr hleft
      · exact .inr hleft
  | redirected t _ _ _ => exact .inl rfl
  | wrote out env t hsome heq =>
      have hleft : P t.r t.state := by
        have hw := hwrite out env hsome
        rw [← heq] at hw
        exact hw
      split
      · exact .inr hleft
      · exact hleft

theorem passRewrite_eq :
    passRewrite sys conf s =
      match scan (ruleStep sys conf) (scannedRules (passCtx sys conf s).dirs)
        (rewriteStart sys s.r s.state) with
      | .again t => (.declined, t.r, t.state)
      | .stop (v, t) => (v, t.r, t.state) :=
  htaccessApplyRewrite_eq sys conf s.r (passCtx sys conf s) s.state

variable {sys conf s} in
/-- What every written target keeps holds at every rule and after the engine. -/
theorem passRewrite_invariant {P : Request → RequestState → Prop} (henv : EnvBlind P)
    (hwrite : ∀ y ∈ ruleSteps sys conf s, P y.2.r y.2.state → ∀ out env,
      stepTarget sys conf y = some out →
        P (htaccessApplyTargetUri y.2.r { y.2.state with env } out y.1.2.qsa).1
          (htaccessApplyTargetUri y.2.r { y.2.state with env } out y.1.2.qsa).2)
    (hs : P s.r s.state) :
    (∀ y ∈ ruleSteps sys conf s, P y.2.r y.2.state) ∧
      ((passRewrite sys conf s).1 ≠ .redirect →
        P (passRewrite sys conf s).2.1 (passRewrite sys conf s).2.2) := by
  obtain ⟨hall, hend⟩ := scan_invariant (P := fun t : RewriteState => P t.r t.state)
    (Q := fun out : HtaccessResult × RewriteState => out.1 = .redirect ∨ P out.2.r out.2.state)
    (fun y hy hP => holds_ruleStep henv (fun _ => hP) (hwrite y hy hP))
    (s := rewriteStart sys s.r s.state) hs
  refine ⟨hall, ?_⟩
  rw [passRewrite_eq]
  generalize scan _ _ _ = round at hend
  cases round with
  | again t => exact fun _ => hend
  | stop out => exact fun hne => hend.resolve_left hne

variable {sys conf s} in
/-- What every written target brings about holds after the engine if one is written. -/
theorem passRewrite_latch {P : Request → RequestState → Prop} (henv : EnvBlind P)
    (hwrite : ∀ y ∈ ruleSteps sys conf s, ∀ out env, stepTarget sys conf y = some out →
      P (htaccessApplyTargetUri y.2.r { y.2.state with env } out y.1.2.qsa).1
        (htaccessApplyTargetUri y.2.r { y.2.state with env } out y.1.2.qsa).2)
    (hs : passTargets sys conf s ≠ [] ∨ P s.r s.state)
    (hne : (passRewrite sys conf s).1 ≠ .redirect) :
    P (passRewrite sys conf s).2.1 (passRewrite sys conf s).2.2 := by
  have hend := scan_latch (P := fun t : RewriteState => P t.r t.state)
    (Q := fun out : HtaccessResult × RewriteState => out.1 = .redirect ∨ P out.2.r out.2.state)
    (fun y hy hP => holds_ruleStep henv
      (fun hnone => hP.resolve_left fun hsome => by
        rw [hnone] at hsome
        cases hsome)
      (hwrite y hy))
    (B := fun y => (stepTarget sys conf y).isSome = true)
    (s := rewriteStart sys s.r s.state) ?_
  · rw [passRewrite_eq] at hne ⊢
    generalize scan _ _ _ = round at hend hne
    cases round with
    | again t => exact hend
    | stop out => exact hend.resolve_left hne
  · refine hs.imp_left fun htargets => ?_
    obtain ⟨out, hout⟩ := List.exists_mem_of_ne_nil _ htargets
    obtain ⟨y, hy, hsome⟩ := List.mem_filterMap.mp hout
    exact ⟨y, hy, by rw [hsome]; rfl⟩

theorem passRewrite_uri :
    (passRewrite sys conf s).2.1.uri =
      ((passTargets sys conf s).getLast?.map targetUri).getD s.r.uri := by
  have hstep : ∀ x t, Holds
      (fun t' => t'.r.uri = ((stepTarget sys conf (x, t)).map targetUri).getD t.r.uri)
      (fun out => out.2.r.uri = ((stepTarget sys conf (x, t)).map targetUri).getD t.r.uri)
      (ruleStep sys conf x t) := by
    intro x t
    have huri := tryRule_uri sys conf x.1 x.2 t
    unfold ruleStep stepTarget
    generalize tryRule sys conf x.1 x.2 t = outcome at huri
    cases outcome <;> exact huri
  have hend := scan_overwrite (fun t : RewriteState => t.r.uri)
    (fun out : HtaccessResult × RewriteState => out.2.r.uri)
    (fun y => (stepTarget sys conf y).map targetUri) hstep
    (scannedRules (passCtx sys conf s).dirs) (rewriteStart sys s.r s.state)
  rw [passTargets, ruleSteps, ← List.getLast?_map, List.map_filterMap, passRewrite_eq]
  generalize scan _ _ _ = round at hend
  cases round with
  | again t => exact hend
  | stop out => exact hend

end Pass

end NgxHtaccess
