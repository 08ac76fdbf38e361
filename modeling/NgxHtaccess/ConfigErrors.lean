import NgxHtaccess.Answers
import NgxHtaccess.Chain
import NgxHtaccess.CacheOps
import NgxHtaccess.Site

/-!
What a file that does not parse, or a FilesMatch pattern that does not compile,
does to a run: nothing. The walk goes on without the file and the deny check
without the rule, so the run refuses only what is refused without them.
-/
namespace NgxHtaccess
open BoundedLoop

/-- The rule refuses by name but its pattern does not compile. -/
def FilesRule.broken (sys : Sys) (rule : FilesRule) : Bool :=
  rule.deny && !sys.regexCompile rule.pattern true

/-- The file is there, but it cannot be opened, read or parsed, or a FilesMatch
block of it denies all under a pattern that does not compile. -/
def brokenFile (sys : Sys) (path : NgxStr) : Bool :=
  (sys.fs.fileInfo path).isSome &&
    match htaccessParseFile sys 0 path with
    | (rc, parsed) => rc ≠ ngxOk ||
        parsed.any fun file => file.directives.any fun d => d.filesRule.any (·.broken sys)

/-- A broken file on the chain of the URI. -/
def ConfigError (sys : Sys) (conf : LocConf) (uri : NgxStr) : Prop :=
  ∃ d ∈ walkDirs conf uri, brokenFile sys d.path = true

instance (sys : Sys) (conf : LocConf) (uri : NgxStr) : Decidable (ConfigError sys conf uri) :=
  inferInstanceAs (Decidable (∃ d ∈ walkDirs conf uri, _))

def MergedCtx.withoutBroken (sys : Sys) (merged : MergedCtx) : MergedCtx :=
  { merged with filesRules := merged.filesRules.map (·.filter fun rule => !rule.broken sys) }

section
variable (sys : Sys) (conf : LocConf)

/-- The context of a pass without its broken rules, merged from the files that
the walk could load. -/
def soundCtx (s : LoopState) : MergedCtx :=
  (mergeChain (uriChain sys conf s.worker s.r.uri)).withoutBroken sys

theorem htaccessFilesDeny_withoutBroken (merged : MergedCtx) (uri : NgxStr) :
    htaccessFilesDeny sys (merged.withoutBroken sys) uri = htaccessFilesDeny sys merged uri := by
  unfold htaccessFilesDeny
  suffices h : ((merged.withoutBroken sys).filesRules.getD []).any
      (filesRuleDenies sys (filesTarget uri)) =
      (merged.filesRules.getD []).any (filesRuleDenies sys (filesTarget uri)) by rw [h]
  cases hrules : merged.filesRules with
  | none => simp [MergedCtx.withoutBroken, hrules]
  | some rules =>
      simp only [MergedCtx.withoutBroken, hrules, Option.map_some, Option.getD_some]
      rw [List.any_filter]
      refine congrArg (List.any rules) (funext fun rule => ?_)
      unfold FilesRule.broken filesRuleDenies
      cases rule.deny <;> cases sys.regexCompile rule.pattern true <;> simp

theorem htaccessApplyAuth_withoutBroken (r : Request) (merged : MergedCtx) :
    htaccessApplyAuth sys r (merged.withoutBroken sys) = htaccessApplyAuth sys r merged := by
  have hscan : ∀ reqs, scanRequires sys r (merged.withoutBroken sys) reqs =
      scanRequires sys r merged reqs := by
    intro reqs
    induction reqs with
    | nil => rfl
    | cons req reqs ih => simp only [scanRequires, ih]; rfl
  have hsat : htaccessRequireSatisfied sys r (merged.withoutBroken sys) =
      htaccessRequireSatisfied sys r merged := by
    simp only [htaccessRequireSatisfied, hscan]
    rfl
  unfold htaccessApplyAuth
  rw [htaccessFilesDeny_withoutBroken, hsat]
  rfl

theorem answerOn_withoutBroken (requestUri : NgxStr) (merged : MergedCtx) (s : LoopState) :
    answerOn sys conf requestUri (merged.withoutBroken sys) s =
      answerOn sys conf requestUri merged s := by
  have hfiles : htaccessApplyFilesDeny sys (merged.withoutBroken sys) requestUri =
      htaccessApplyFilesDeny sys merged requestUri := by
    simp only [htaccessApplyFilesDeny, htaccessFilesDeny_withoutBroken]
  have halias : htaccessApplyAlias sys (merged.withoutBroken sys) s.state =
      htaccessApplyAlias sys merged s.state := rfl
  have hrewrite : htaccessApplyRewrite sys conf s.r (merged.withoutBroken sys) s.state =
      htaccessApplyRewrite sys conf s.r merged s.state := rfl
  simp only [answerOn, hfiles, halias, hrewrite, htaccessApplyAuth_withoutBroken]
  rfl

theorem passAnswer_eq_soundCtx (requestUri : NgxStr) (s : LoopState) :
    passAnswer sys conf requestUri s = answerOn sys conf requestUri (soundCtx sys conf s) s := by
  rw [soundCtx, answerOn_withoutBroken, ← htaccessBuildMergedCtx_eq]
  rfl

end

/-- The stages of a pass that answer a request on a context. -/
inductive StageAnswers (sys : Sys) (conf : LocConf) (requestUri : NgxStr) (merged : MergedCtx)
    (s : LoopState) : Prop where
  /-- Before the first pass a FilesMatch rule forbids the name of the file. -/
  | filesDeny : s.pass = 0 → htaccessApplyFilesDeny sys merged requestUri = .forbidden →
      StageAnswers sys conf requestUri merged s
  | redirect : (htaccessApplyAlias sys merged s.state).1 = .redirect →
      StageAnswers sys conf requestUri merged s
  | rewriteRule : (htaccessApplyRewrite sys conf s.r merged s.state).1 = .redirect →
      StageAnswers sys conf requestUri merged s
  /-- The access check refuses, and no ErrorDocument is there to go on with. -/
  | access {code : Nat} : (htaccessApplyRewrite sys conf s.r merged s.state).1 ≠ .ok →
      refusalCode (htaccessApplyAuth sys
        (htaccessApplyRewrite sys conf s.r merged s.state).2.1 merged).1 = some code →
      htaccessErrorUri merged code = none → StageAnswers sys conf requestUri merged s

theorem answerOn_iff {sys : Sys} {conf : LocConf} {requestUri : NgxStr} {merged : MergedCtx}
    {s : LoopState} :
    (∃ status, answerOn sys conf requestUri merged s = some status) ↔
      StageAnswers sys conf requestUri merged s := by
  simp only [answerOn]
  constructor
  · rintro ⟨status, h⟩
    split_ifs at h with hdeny halias hrule hok
    · exact .filesDeny hdeny.1 hdeny.2
    · exact .redirect halias
    · exact .rewriteRule hrule
    · obtain ⟨code, hcode, hdoc⟩ := Option.bind_eq_some_iff.mp h
      split_ifs at hdoc with hnone
      exact .access hok hcode hnone
  · intro h
    split_ifs with hdeny halias hrule hok
    · exact ⟨_, rfl⟩
    · exact ⟨_, rfl⟩
    · exact ⟨_, rfl⟩
    all_goals
      cases h with
      | filesDeny hpass hforbidden => exact absurd ⟨hpass, hforbidden⟩ hdeny
      | redirect hredirect => exact absurd hredirect halias
      | rewriteRule hredirect => exact absurd hredirect hrule
      | access hgoes hcode hnone =>
          first
            | exact absurd hok hgoes
            | exact ⟨_, by rw [hcode, Option.bind_some, if_pos hnone]⟩

/-- With a broken file on its chain a request is kept from nginx exactly when a stage of some
pass answers it on what is left without the broken files and rules. -/
theorem config_error_closed_iff (sys : Sys) (conf : LocConf) (r : Request) (w : Worker) :
    (ConfigError sys conf r.uri → (htaccessExecute sys conf r w).rc ≠ ngxDeclined) ↔
      (ConfigError sys conf r.uri →
        ∃ s, Visits (htaccessPass sys conf r.uri) conf.maxRedirects (.initial conf r w) s ∧
          StageAnswers sys conf r.uri (soundCtx sys conf s) s) := by
  rw [rc_ne_declined_iff]
  simp only [passAnswer_eq_soundCtx, answerOn_iff]

/-- An unclosed quote, and a pattern that does not compile, each open a directory
that denies everybody. -/
theorem config_errors_served :
    (ConfigError (siteSys (siteFs 0
          [("/w/.htaccess", "Require all denied\nAuthName \"Members only\n")]))
        (siteConf htaccessMaxRedirectsDefault) (siteRequest "/x").uri ∧
      (siteRun [("/w/.htaccess", "Require all denied\nAuthName \"Members only\n")] "/x").rc =
        ngxDeclined) ∧
    ConfigError (siteSys (siteFs 0
          [("/w/.htaccess", "<FilesMatch \"(\">\nRequire all denied\n</FilesMatch>\n")]))
        (siteConf htaccessMaxRedirectsDefault) (siteRequest "/x").uri ∧
      (siteRun [("/w/.htaccess", "<FilesMatch \"(\">\nRequire all denied\n</FilesMatch>\n")]
        "/x").rc = ngxDeclined := by
  decide +kernel

end NgxHtaccess
