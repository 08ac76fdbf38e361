import NgxHtaccess.Lib.Memo
import NgxHtaccess.RuleScan

/-!
The `regex` fields of rules, redirects and FilesMatch rules: a pattern is compiled when it is
tried first, and the regex is kept in the merged context for as long as that lives. A handler
that keeps them answers as one that compiles at every use, and compiles no pattern twice in
a pass.
-/
namespace NgxHtaccess
open BoundedLoop Scan Memo

/-- `ngx_regex_t`: a pattern that is compiled. -/
structure Regex where
  pattern : NgxStr
  caseless : Bool

section Compile
variable (sys : Sys)

def ngxRegexCompile (pattern : NgxStr) (caseless : Bool) : Option Regex :=
  if sys.regexCompile pattern caseless then some { pattern, caseless } else none

def ngxRegexExec (regex : Regex) (subject : NgxStr) : RegexRc :=
  sys.regexExec regex.pattern regex.caseless subject

/-- What `htaccess_compile_rule` compiles for a rule without a regex. -/
def htaccessCompileRule (rule : RewriteRule) : Option Regex :=
  ngxRegexCompile sys rule.pattern rule.nocase

def htaccessCompileAlias (redir : AliasRedirect) : Option Regex :=
  ngxRegexCompile sys redir.source false

def htaccessCompileFilesRule (rule : FilesRule) : Option Regex :=
  ngxRegexCompile sys rule.pattern true

/-- The regex of the union of a directive. -/
def compileDirective (x : DirCtx × Directive) : Option Regex :=
  match x.2.u with
  | .rewriteRule rule => htaccessCompileRule sys rule
  | .redirectMatch redir => htaccessCompileAlias sys redir
  | _ => none

end Compile

/-- The directives of all directories. -/
def contextDirectives (dirs : List DirCtx) : List (DirCtx × Directive) :=
  dirs.flatMap fun dir => (dir.directives.getD []).map (Prod.mk dir)

/-- The `regex` fields of a merged context. -/
structure KeptRegexes where
  directives : List (Cell (DirCtx × Directive) Regex)
  filesRules : List (Cell FilesRule Regex)

/-- A context as it is built: the directives are copies of parsed ones, whose fields are zero. -/
def KeptRegexes.fresh (merged : MergedCtx) : KeptRegexes where
  directives := (contextDirectives merged.dirs).map Cell.unset
  filesRules := (merged.filesRules.getD []).map Cell.unset

section Engines
variable (sys : Sys) (conf : LocConf) (kept : KeptRegexes)

def filesRuleAsks (rule : FilesRule) (_ : Unit) : Bool := rule.deny

/-- A round of `htaccess_files_deny`. -/
def filesRuleUse (target : NgxStr) (rule : FilesRule) (regex : Option Regex) (s : Unit) :
    Round Unit Unit :=
  if !rule.deny then .again s
  else
    match regex with
    | none => .again s
    | some regex =>
        match ngxRegexExec sys regex target with
        | .matched _ => .stop ()
        | _ => .again s

def htaccessFilesDenyKept (uri : NgxStr) : Int × KeptRegexes :=
  match cellScan (htaccessCompileFilesRule sys) filesRuleAsks
    (filesRuleUse sys (filesTarget uri)) kept.filesRules () with
  | (.stop _, cells) => (ngxHttpForbidden, { kept with filesRules := cells })
  | (.again _, cells) => (ngxDeclined, { kept with filesRules := cells })

def htaccessApplyFilesDenyKept (uri : NgxStr) : HtaccessResult × KeptRegexes :=
  match htaccessFilesDenyKept sys kept uri with
  | (rc, kept) => (if rc = ngxHttpForbidden then .forbidden else .declined, kept)

/-- `htaccess_alias_match` with the regex of the redirect. -/
def htaccessAliasMatchKept (redir : AliasRedirect) (uri : NgxStr) (isRegex : Bool)
    (regex : Option Regex) : Int × NgxStr :=
  if isRegex then
    match regex with
    | none => (ngxError, [])
    | some regex =>
        match ngxRegexExec sys regex uri with
        | .noMatched => (ngxDeclined, [])
        | .error => (ngxError, [])
        | .matched _ => (ngxOk, redir.target)
  else htaccessAliasMatch sys redir uri false

def aliasAsks (x : DirCtx × Directive) (_ : Unit) : Bool :=
  match x.2.aliasOf with
  | some (_, isRegex) => isRegex
  | none => false

def aliasUse (uri : NgxStr) (x : DirCtx × Directive) (regex : Option Regex) (s : Unit) :
    Round Unit (AliasRedirect × NgxStr) :=
  match x.2.aliasOf with
  | none => .again s
  | some (redir, isRegex) =>
      match htaccessAliasMatchKept sys redir uri isRegex regex with
      | (rc, out) => if rc ≠ ngxOk then .again s else .stop (redir, out)

def htaccessApplyAliasKept (state : RequestState) :
    (HtaccessResult × RequestState) × KeptRegexes :=
  match cellScan (compileDirective sys) aliasAsks (aliasUse sys state.uri) kept.directives () with
  | (.again _, cells) => ((.declined, state), { kept with directives := cells })
  | (.stop (redir, out), cells) =>
      ((.redirect, { state with
        uri := out
        redirectCode := if redir.permanent then ngxHttpMovedPermanently
          else ngxHttpMovedTemporarily }), { kept with directives := cells })

/-- The loop body of `htaccess_apply_rewrite` for one RewriteRule and its regex. -/
def tryRuleKept (dir : DirCtx) (rule : RewriteRule) (regex : Option Regex) (s : RewriteState) :
    RuleOutcome :=
  if rule.chainIn && !s.chainActive then .next s
  else
    match regex with
    | none => .next (s.ruleFailed rule)
    | some regex =>
        if htaccessMatchConditions sys conf s.r s.state rule ≠ ngxOk then
          .next (s.ruleFailed rule)
        else
          let rel := htaccessRelativeUri s.state.uri dir.urlPrefix
          match ngxRegexExec sys regex rel with
          | .noMatched => .next (s.ruleFailed rule)
          | .error => .result .error s
          | .matched pairs =>
              let captures := writeCaptures s.captures 20 pairs
              let m : MatchCtx := { subject := rel, captures, ncaptures := 20 }
              let state := htaccessApplyEnvFlags sys s.r s.state m (rule.envVars.getD [])
              applyMatchedRule sys dir rule
                { s with
                  state, captures
                  chainActive := if rule.chain then true else s.chainActive } m

def ruleAsks (x : DirCtx × Directive) (s : RewriteState) : Bool :=
  x.1.rewriteEngine &&
    match x.2.ruleOf with
    | some rule => !(rule.chainIn && !s.chainActive)
    | none => false

def ruleUse (x : DirCtx × Directive) (regex : Option Regex) (s : RewriteState) :
    Round RewriteState (HtaccessResult × RewriteState) :=
  if x.1.rewriteEngine then
    match x.2.ruleOf with
    | none => .again s
    | some rule => (tryRuleKept sys conf x.1 rule regex s).round
  else .again s

def htaccessApplyRewriteKept (r : Request) (state : RequestState) :
    (HtaccessResult × Request × RequestState) × KeptRegexes :=
  match cellScan (compileDirective sys) ruleAsks (ruleUse sys conf) kept.directives
    (rewriteStart sys r state) with
  | (.again s, cells) => ((.declined, s.r, s.state), { kept with directives := cells })
  | (.stop (result, s), cells) => ((result, s.r, s.state), { kept with directives := cells })

def htaccessApplyAuthKept (r : Request) (merged : MergedCtx) :
    (HtaccessResult × Request) × KeptRegexes :=
  match htaccessFilesDenyKept sys kept r.uri with
  | (denied, kept) =>
      (if denied = ngxHttpForbidden then (.forbidden, r)
      else if merged.authType = [] ∧ merged.requires = none ∧ merged.allows = none ∧
          merged.denies = none then (.declined, r)
      else
        let rc := htaccessRequireSatisfied sys r merged
        if rc = ngxHttpUnauthorized then
          (.unauthorized,
            if merged.authName = [] then r
            else
              let h := authenticateHeader merged.authName
              { r with headersOut := r.headersOut ++ [h], wwwAuthenticate := some h })
        else if rc = ngxHttpForbidden then (.forbidden, r)
        else (.declined, r), kept)

end Engines

/-- The fields hold what the directives of the context compile to, as far as they are set. -/
structure Keeps (sys : Sys) (merged : MergedCtx) (kept : KeptRegexes) : Prop where
  directives : CellsOf (compileDirective sys) (contextDirectives merged.dirs) kept.directives
  filesRules : CellsOf (htaccessCompileFilesRule sys) (merged.filesRules.getD []) kept.filesRules

theorem keeps_fresh (sys : Sys) (merged : MergedCtx) : Keeps sys merged (.fresh merged) :=
  ⟨cellsOf_unset _, cellsOf_unset _⟩

section Agree
variable {sys : Sys} {conf : LocConf} {merged : MergedCtx} {kept : KeptRegexes}

theorem filesRuleUse_plain (target : NgxStr) (rule : FilesRule) (s : Unit) :
    plainStep (htaccessCompileFilesRule sys) filesRuleAsks (filesRuleUse sys target) rule s =
      if filesRuleDenies sys target rule then .stop () else .again () := by
  unfold plainStep filesRuleAsks filesRuleUse filesRuleDenies htaccessCompileFilesRule
    ngxRegexCompile
  cases rule.deny with
  | false => rfl
  | true =>
      cases sys.regexCompile rule.pattern true with
      | false => rfl
      | true =>
          cases hexec : sys.regexExec rule.pattern true target <;>
            simp only [ngxRegexExec, Bool.not_true, Bool.false_eq_true, if_false, if_true,
              Bool.true_and, hexec]

theorem scan_filesRules (target : NgxStr) (rules : List FilesRule) :
    scan (plainStep (htaccessCompileFilesRule sys) filesRuleAsks
      (filesRuleUse sys target)) rules () =
        if rules.any (filesRuleDenies sys target) then .stop () else .again () := by
  induction rules with
  | nil => rfl
  | cons rule rules ih =>
      rw [scan, filesRuleUse_plain, List.any_cons]
      cases filesRuleDenies sys target rule with
      | true => rfl
      | false => exact ih

theorem htaccessFilesDenyKept_spec (h : Keeps sys merged kept) (uri : NgxStr) :
    (htaccessFilesDenyKept sys kept uri).1 = htaccessFilesDeny sys merged uri ∧
      Keeps sys merged (htaccessFilesDenyKept sys kept uri).2 := by
  obtain ⟨hround, hcells⟩ := cellScan_spec filesRuleAsks (filesRuleUse sys (filesTarget uri))
    h.filesRules ()
  rw [scan_filesRules] at hround
  unfold htaccessFilesDenyKept htaccessFilesDeny
  generalize cellScan _ _ _ _ _ = out at hround hcells
  obtain ⟨round, cells⟩ := out
  simp only at hround hcells
  subst hround
  cases (merged.filesRules.getD []).any (filesRuleDenies sys (filesTarget uri)) with
  | true => exact ⟨rfl, h.directives, hcells⟩
  | false => exact ⟨rfl, h.directives, hcells⟩

theorem htaccessApplyFilesDenyKept_spec (h : Keeps sys merged kept) (uri : NgxStr) :
    (htaccessApplyFilesDenyKept sys kept uri).1 = htaccessApplyFilesDeny sys merged uri ∧
      Keeps sys merged (htaccessApplyFilesDenyKept sys kept uri).2 := by
  obtain ⟨hrc, hkept⟩ := htaccessFilesDenyKept_spec h uri
  unfold htaccessApplyFilesDenyKept htaccessApplyFilesDeny
  generalize htaccessFilesDenyKept sys kept uri = out at hrc hkept
  obtain ⟨rc, kept'⟩ := out
  simp only at hrc hkept ⊢
  rw [hrc]
  exact ⟨rfl, hkept⟩

theorem aliasUse_plain (uri : NgxStr) (x : DirCtx × Directive) (s : Unit) :
    plainStep (compileDirective sys) aliasAsks (aliasUse sys uri) x s =
      match x.2.aliasOf with
      | none => .again s
      | some (redir, isRegex) =>
          match htaccessAliasMatch sys redir uri isRegex with
          | (rc, out) => if rc ≠ ngxOk then .again s else .stop (redir, out) := by
  obtain ⟨dir, scope, u⟩ := x
  have hplain : ∀ redir : AliasRedirect,
      htaccessAliasMatchKept sys redir uri true (htaccessCompileAlias sys redir) =
        htaccessAliasMatch sys redir uri true := by
    intro redir
    unfold htaccessAliasMatchKept htaccessAliasMatch htaccessCompileAlias ngxRegexCompile
    cases sys.regexCompile redir.source false with
    | false => rfl
    | true =>
        cases hexec : sys.regexExec redir.source false uri <;>
          simp only [ngxRegexExec, if_true, Bool.not_true, Bool.false_eq_true, if_false, hexec]
  unfold plainStep aliasUse aliasAsks compileDirective
  cases u with
  | redirectMatch redir => simp only [Directive.aliasOf, if_true, hplain]
  | _ => rfl

theorem scan_aliases (uri : NgxStr) (dirs : List DirCtx) :
    scan (plainStep (compileDirective sys) aliasAsks (aliasUse sys uri))
        (contextDirectives dirs) () =
      match findAliasDirs sys uri dirs with
      | none => .again ()
      | some hit => .stop hit := by
  have hdir : ∀ (dir : DirCtx) (ds : List Directive),
      scan (plainStep (compileDirective sys) aliasAsks (aliasUse sys uri))
          (ds.map (Prod.mk dir)) () =
        match findAlias sys uri ds with
        | none => .again ()
        | some hit => .stop hit := by
    intro dir ds
    induction ds with
    | nil => rfl
    | cons d ds ih =>
        rw [List.map_cons, scan, aliasUse_plain, findAlias]
        cases d.aliasOf with
        | none => exact ih
        | some hit =>
            by_cases hmiss : (htaccessAliasMatch sys hit.1 uri hit.2).1 ≠ ngxOk
            · simp only [if_pos hmiss]
              exact ih
            · simp only [if_neg hmiss]
  induction dirs with
  | nil => rfl
  | cons dir dirs ih =>
      rw [contextDirectives, List.flatMap_cons, scan_append, hdir, findAliasDirs]
      cases findAlias sys uri (dir.directives.getD []) with
      | none => exact ih
      | some hit => rfl

theorem htaccessApplyAliasKept_spec (h : Keeps sys merged kept) (state : RequestState) :
    (htaccessApplyAliasKept sys kept state).1 = htaccessApplyAlias sys merged state ∧
      Keeps sys merged (htaccessApplyAliasKept sys kept state).2 := by
  obtain ⟨hround, hcells⟩ := cellScan_spec aliasAsks (aliasUse sys state.uri) h.directives ()
  rw [scan_aliases] at hround
  unfold htaccessApplyAliasKept htaccessApplyAlias
  generalize cellScan _ _ _ _ _ = out at hround hcells
  obtain ⟨round, cells⟩ := out
  simp only at hround hcells
  subst hround
  cases findAliasDirs sys state.uri merged.dirs with
  | none => exact ⟨rfl, hcells, h.filesRules⟩
  | some hit => exact ⟨rfl, hcells, h.filesRules⟩

theorem tryRuleKept_compiled (dir : DirCtx) (rule : RewriteRule) (s : RewriteState)
    {regex : Option Regex}
    (h : (!(rule.chainIn && !s.chainActive)) = true → regex = htaccessCompileRule sys rule) :
    tryRuleKept sys conf dir rule regex s = tryRule sys conf dir rule s := by
  unfold tryRuleKept tryRule
  cases hchain : rule.chainIn && !s.chainActive with
  | true => rfl
  | false =>
      rw [hchain] at h
      rw [h rfl, htaccessCompileRule, ngxRegexCompile]
      cases sys.regexCompile rule.pattern rule.nocase with
      | false => rfl
      | true => rfl

/-- The rule that the engine tries at a directive. -/
def tried (x : DirCtx × Directive) : Option (DirCtx × RewriteRule) :=
  if x.1.rewriteEngine then x.2.ruleOf.map (Prod.mk x.1) else none

theorem scannedRules_eq (dirs : List DirCtx) :
    scannedRules dirs = (contextDirectives dirs).filterMap tried := by
  induction dirs with
  | nil => rfl
  | cons dir dirs ih =>
      have hdir : (if dir.rewriteEngine then dir.rules.map (Prod.mk dir) else []) =
          ((dir.directives.getD []).map (Prod.mk dir)).filterMap tried := by
        rw [List.filterMap_map]
        cases hengine : dir.rewriteEngine with
        | true =>
            simp only [if_true, DirCtx.rules, List.map_filterMap, Function.comp_def, tried, hengine]
        | false => simp [Function.comp_def, tried, hengine]
      rw [scannedRules, List.flatMap_cons, contextDirectives, List.flatMap_cons,
        List.filterMap_append, hdir]
      exact congrArg _ ih

theorem scan_rules (dirs : List DirCtx) (s : RewriteState) :
    scan (plainStep (compileDirective sys) ruleAsks (ruleUse sys conf))
        (contextDirectives dirs) s =
      scan (ruleStep sys conf) (scannedRules dirs) s := by
  rw [scannedRules_eq]
  refine scan_filterMap tried ?_ ?_ (contextDirectives dirs) s
  · rintro ⟨dir, d⟩ s hskip
    unfold tried at hskip
    unfold plainStep ruleUse
    cases hengine : dir.rewriteEngine with
    | false => rfl
    | true =>
        simp only [hengine, if_true, Option.map_eq_none_iff] at hskip
        simp only [if_true, hskip]
  · rintro ⟨dir, d⟩ ⟨_, rule⟩ s htake
    unfold tried at htake
    cases hengine : dir.rewriteEngine with
    | false => simp [hengine] at htake
    | true =>
        simp only [hengine, if_true, Option.map_eq_some_iff, Prod.mk.injEq] at htake
        obtain ⟨rule', hrule, rfl, rfl⟩ := htake
        have hcompile : compileDirective sys (dir, d) = htaccessCompileRule sys rule' := by
          unfold Directive.ruleOf at hrule
          unfold compileDirective
          split at hrule
          · rename_i heq
            cases hrule
            simp only [heq]
          · cases hrule
        simp only [plainStep, ruleUse, hengine, if_true, hrule, ruleStep]
        refine congrArg RuleOutcome.round (tryRuleKept_compiled dir rule' s fun hasks => ?_)
        rw [if_pos, hcompile]
        simp only [ruleAsks, hengine, hrule, Bool.true_and, hasks]

theorem htaccessApplyRewriteKept_spec (h : Keeps sys merged kept) (r : Request)
    (state : RequestState) :
    (htaccessApplyRewriteKept sys conf kept r state).1 =
        htaccessApplyRewrite sys conf r merged state ∧
      Keeps sys merged (htaccessApplyRewriteKept sys conf kept r state).2 := by
  obtain ⟨hround, hcells⟩ := cellScan_spec ruleAsks (ruleUse sys conf) h.directives
    (rewriteStart sys r state)
  rw [scan_rules] at hround
  rw [htaccessApplyRewrite_eq, ← hround]
  unfold htaccessApplyRewriteKept
  generalize cellScan _ _ _ _ _ = out at hcells
  obtain ⟨round, cells⟩ := out
  cases round with
  | again s => exact ⟨rfl, hcells, h.filesRules⟩
  | stop x => exact ⟨rfl, hcells, h.filesRules⟩

theorem htaccessApplyAuthKept_spec (h : Keeps sys merged kept) (r : Request) :
    (htaccessApplyAuthKept sys kept r merged).1 = htaccessApplyAuth sys r merged ∧
      Keeps sys merged (htaccessApplyAuthKept sys kept r merged).2 := by
  obtain ⟨hdenied, hkept⟩ := htaccessFilesDenyKept_spec h r.uri
  unfold htaccessApplyAuthKept htaccessApplyAuth
  rw [← hdenied]
  exact ⟨rfl, hkept⟩

end Agree

section Pass
variable (sys : Sys) (conf : LocConf) (merged : MergedCtx)

def accessCheckKept (start : Worker) (kept : KeptRegexes) (s : LoopState) :
    Round LoopState ExecResult × KeptRegexes :=
  match htaccessApplyAuthKept sys kept s.r merged with
  | ((result, r), kept) =>
      let s' := { s with r, trace := s.trace ++ [.auth start merged s.r.uri result] }
      match result with
      | .unauthorized => (refuse merged ngxHttpUnauthorized s', kept)
      | .forbidden => (refuse merged ngxHttpForbidden s', kept)
      | _ => (.stop (serve sys conf merged s'), kept)

def rewriteStageKept (start : Worker) (kept : KeptRegexes) (s : LoopState) :
    Round LoopState ExecResult × KeptRegexes :=
  match htaccessApplyRewriteKept sys conf kept s.r s.state with
  | ((result, r, state), kept) =>
      let s := { s with r, state, trace := s.trace ++ [.rewrite result] }
      match result with
      | .redirect => (.stop (sendRedirect s), kept)
      | .ok =>
          (.again { s with
            pass := s.pass + 1
            r := htaccessApplyUri s.r s.state
            state := htaccessResolveFilename conf s.state }, kept)
      | _ => accessCheckKept sys conf merged start kept s

def aliasStageKept (start : Worker) (kept : KeptRegexes) (s : LoopState) :
    Round LoopState ExecResult × KeptRegexes :=
  match htaccessApplyAliasKept sys kept s.state with
  | ((result, state), kept) =>
      let s := { s with state, trace := s.trace ++ [.alias result] }
      match result with
      | .redirect => (.stop (sendRedirect s), kept)
      | _ => rewriteStageKept sys conf merged start kept s

def passOnKept (requestUri : NgxStr) (start : Worker) (kept : KeptRegexes) (s : LoopState) :
    Round LoopState ExecResult × KeptRegexes :=
  if s.pass = 0 then
    match htaccessApplyFilesDenyKept sys kept requestUri with
    | (result, kept) =>
        let s := { s with trace := s.trace ++ [.filesDeny result] }
        match result with
        | .forbidden => (.stop { s with rc := ngxHttpForbidden }, kept)
        | _ => aliasStageKept sys conf merged start kept s
  else aliasStageKept sys conf merged start kept s

/-- One pass of the loop of `htaccess_execute`, and the regexes that it leaves. -/
def htaccessPassKept (requestUri : NgxStr) (s : LoopState) :
    Round LoopState ExecResult × KeptRegexes :=
  match htaccessBuildMergedCtx sys conf s.worker s.r.uri with
  | (merged, worker) =>
      passOnKept sys conf merged requestUri s.worker (.fresh merged) { s with worker }

def htaccessExecuteKept (r : Request) (w : Worker) : ExecResult :=
  run (fun s => (htaccessPassKept sys conf r.uri s).1) LoopState.spent conf.maxRedirects
    (.initial conf r w)

def ngxHttpHtaccessHandlerKept (request : Nat) (r : Request) (w : Worker) :
    Int × Request × Worker :=
  if !conf.enable then (ngxDeclined, r, w)
  else
    let out := htaccessExecuteKept sys conf r (w.emit (.start request))
    (out.rc, out.r, out.worker.emit .finish)

variable {sys conf merged}

theorem accessCheckKept_spec {kept : KeptRegexes} (h : Keeps sys merged kept) (start : Worker)
    (s : LoopState) :
    (accessCheckKept sys conf merged start kept s).1 = accessCheck sys conf merged start s ∧
      Keeps sys merged (accessCheckKept sys conf merged start kept s).2 := by
  obtain ⟨hauth, hkept⟩ := htaccessApplyAuthKept_spec h s.r
  unfold accessCheckKept accessCheck
  rw [← hauth]
  generalize htaccessApplyAuthKept sys kept s.r merged = out at hkept
  obtain ⟨⟨result, r⟩, kept'⟩ := out
  cases result <;> exact ⟨rfl, hkept⟩

theorem rewriteStageKept_spec {kept : KeptRegexes} (h : Keeps sys merged kept) (start : Worker)
    (s : LoopState) :
    (rewriteStageKept sys conf merged start kept s).1 = rewriteStage sys conf merged start s ∧
      Keeps sys merged (rewriteStageKept sys conf merged start kept s).2 := by
  obtain ⟨hrewrite, hkept⟩ := @htaccessApplyRewriteKept_spec sys conf merged kept h s.r s.state
  unfold rewriteStageKept rewriteStage
  rw [← hrewrite]
  generalize htaccessApplyRewriteKept sys conf kept s.r s.state = out at hkept
  obtain ⟨⟨result, r, state⟩, kept'⟩ := out
  cases result with
  | redirect | ok => exact ⟨rfl, hkept⟩
  | declined | forbidden | unauthorized | error => exact accessCheckKept_spec hkept start _

theorem aliasStageKept_spec {kept : KeptRegexes} (h : Keeps sys merged kept) (start : Worker)
    (s : LoopState) :
    (aliasStageKept sys conf merged start kept s).1 = aliasStage sys conf merged start s ∧
      Keeps sys merged (aliasStageKept sys conf merged start kept s).2 := by
  obtain ⟨halias, hkept⟩ := htaccessApplyAliasKept_spec h s.state
  unfold aliasStageKept aliasStage
  rw [← halias]
  generalize htaccessApplyAliasKept sys kept s.state = out at hkept
  obtain ⟨⟨result, state⟩, kept'⟩ := out
  cases result with
  | redirect => exact ⟨rfl, hkept⟩
  | declined | ok | forbidden | unauthorized | error => exact rewriteStageKept_spec hkept start _

theorem passOnKept_spec {kept : KeptRegexes} (h : Keeps sys merged kept) (requestUri : NgxStr)
    (start : Worker) (s : LoopState) :
    (passOnKept sys conf merged requestUri start kept s).1 =
        passOn sys conf requestUri merged start s ∧
      Keeps sys merged (passOnKept sys conf merged requestUri start kept s).2 := by
  obtain ⟨hdeny, hkept⟩ := htaccessApplyFilesDenyKept_spec h requestUri
  unfold passOnKept passOn
  split
  · rw [← hdeny]
    generalize htaccessApplyFilesDenyKept sys kept requestUri = out at hkept
    obtain ⟨result, kept'⟩ := out
    cases result with
    | forbidden => exact ⟨rfl, hkept⟩
    | declined | ok | redirect | unauthorized | error => exact aliasStageKept_spec hkept start _
  · exact aliasStageKept_spec h start s

/-- A pass with kept regexes is a pass, and its fields are those of its context. -/
theorem htaccessPassKept_spec (requestUri : NgxStr) (s : LoopState) :
    (htaccessPassKept sys conf requestUri s).1 = htaccessPass sys conf requestUri s ∧
      Keeps sys (passCtx sys conf s) (htaccessPassKept sys conf requestUri s).2 :=
  passOnKept_spec (keeps_fresh sys (passCtx sys conf s)) requestUri s.worker _

theorem passCtx_pattern (s : LoopState) :
    ∀ rule ∈ (passCtx sys conf s).filesRules.getD [], rule.pattern ≠ [] := by
  intro rule hrule
  rw [passCtx, htaccessBuildMergedCtx_eq, mergeChain_filesRules, foldl_ngxArrayPush_getD,
    Option.getD_none, List.nil_append] at hrule
  obtain ⟨d, -, hd⟩ := List.mem_filterMap.mp hrule
  unfold Directive.filesRule at hd
  split at hd
  · split at hd
    · rename_i hscope
      cases hd
      exact hscope
    · cases hd
  · cases hd

/-- Keeping the regexes changes nothing about a handler run. In every pass a pattern is compiled
once at most, and no FilesMatch rule is tried without a regex for want of a pattern. -/
theorem handlerKept_agrees (sys : Sys) (conf : LocConf) (request : Nat) (r : Request)
    (w : Worker) :
    ngxHttpHtaccessHandlerKept sys conf request r w = ngxHttpHtaccessHandler sys conf request r w ∧
      ∀ s : LoopState,
        (∀ c ∈ (htaccessPassKept sys conf r.uri s).2.directives, c.computed ≤ 1) ∧
          ∀ c ∈ (htaccessPassKept sys conf r.uri s).2.filesRules,
            c.computed ≤ 1 ∧ c.key.pattern ≠ [] := by
  constructor
  · have hrun : ∀ w, htaccessExecuteKept sys conf r w = htaccessExecute sys conf r w := fun w =>
      run_congr fun s _ => (htaccessPassKept_spec r.uri s).1
    simp only [ngxHttpHtaccessHandlerKept, hrun, ngxHttpHtaccessHandler]
  · intro s
    obtain ⟨-, hdirectives, hfiles⟩ := @htaccessPassKept_spec sys conf r.uri s
    have hpattern := @passCtx_pattern sys conf s
    rw [← hfiles.keys] at hpattern
    exact ⟨fun c hc => (hdirectives.sound c hc).once, fun c hc =>
      ⟨(hfiles.sound c hc).once, hpattern c.key (List.mem_map.mpr ⟨c, hc, rfl⟩)⟩⟩

end Pass

end NgxHtaccess
