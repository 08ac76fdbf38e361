import Mathlib.Data.List.Forall2
import NgxHtaccess.Chain
import NgxHtaccess.Passes

/-!
Two merged contexts that no stage can tell apart, and the stages on them.

The stages read the rules and the redirects of a directory each in their own
order, never one against the other, and a FilesMatch rule that does not fire is
as good as none. The two runs may also differ in the contents of files, as long
as a path is the same kind of file in both.
-/
namespace NgxHtaccess

/-- What the module asks `ngx_file_info` for beside time and size. -/
def fileKind (info : Option FileInfo) : Option (Bool × Bool) :=
  info.map fun fi => (fi.isDir, fi.isLink)

def KindsAlike (fs fs' : FileSystem) : Prop :=
  ∀ path, fileKind (fs.fileInfo path) = fileKind (fs'.fileInfo path)

theorem isSome_of_fileKind {info info' : Option FileInfo} (h : fileKind info = fileKind info') :
    info.isSome = info'.isSome := by
  cases info <;> cases info' <;> first | rfl | cases h

theorem htaccessFileTest_of_kind {info info' : Option FileInfo}
    (h : fileKind info = fileKind info') (op : CondOp) :
    htaccessFileTest info op = htaccessFileTest info' op := by
  cases info with
  | none =>
      cases info' with
      | none => rfl
      | some fi' => cases h
  | some fi =>
      cases info' with
      | none => cases h
      | some fi' =>
          simp only [fileKind, Option.map_some, Option.some.injEq, Prod.mk.injEq] at h
          cases op <;> simp [htaccessFileTest, h.1, h.2]

def Directive.ruleOf (d : Directive) : Option RewriteRule :=
  match d.u with
  | .rewriteRule rule => some rule
  | _ => none

def DirCtx.rules (dir : DirCtx) : List RewriteRule :=
  (dir.directives.getD []).filterMap Directive.ruleOf

def DirCtx.aliases (dir : DirCtx) : List (AliasRedirect × Bool) :=
  (dir.directives.getD []).filterMap Directive.aliasOf

structure SameRules (dir dir' : DirCtx) : Prop where
  urlPrefix : dir.urlPrefix = dir'.urlPrefix
  rewriteBase : dir.rewriteBase = dir'.rewriteBase
  rewriteEngine : dir.rewriteEngine = dir'.rewriteEngine
  rules : dir.rules = dir'.rules

structure SameDir (dir dir' : DirCtx) : Prop where
  urlPrefix : dir.urlPrefix = dir'.urlPrefix
  rewriteBase : dir.rewriteBase = dir'.rewriteBase
  rewriteEngine : dir.rewriteEngine = dir'.rewriteEngine
  rules : dir.rules = dir'.rules
  aliases : dir.aliases = dir'.aliases

theorem SameDir.sameRules {dir dir' : DirCtx} (h : SameDir dir dir') : SameRules dir dir' :=
  ⟨h.urlPrefix, h.rewriteBase, h.rewriteEngine, h.rules⟩

/-- The fields of a merged context that every reader sees as they are. -/
def MergedCtx.core (merged : MergedCtx) : MergedCtx :=
  { merged with dirs := [], filesRules := none }

/-- The contexts differ in nothing that a stage reads, but for rules that are inert. -/
structure SameView (inert : FilesRule → Bool) (m m' : MergedCtx) : Prop where
  core : m.core = m'.core
  dirs : List.Forall₂ SameDir m.dirs m'.dirs
  filesRules : (m.filesRules.getD []).filter (!inert ·) = (m'.filesRules.getD []).filter (!inert ·)

theorem SameView.field {inert : FilesRule → Bool} {m m' : MergedCtx} (h : SameView inert m m')
    {α : Type} (field : MergedCtx → α) (hcore : ∀ m : MergedCtx, field m.core = field m) :
    field m = field m' := by
  rw [← hcore m, ← hcore m', h.core]

section Expand
variable (sys : Sys) (fs' : FileSystem)

theorem htaccessExpandLoop_withFs (r : Request) (state : RequestState) (m : Option MatchCtx)
    (limit fuel : Nat) (p dst : NgxStr) :
    htaccessExpandLoop (sys.withFs fs') r state m limit fuel p dst =
      htaccessExpandLoop sys r state m limit fuel p dst := by
  induction fuel generalizing p dst with
  | zero => rfl
  | succ fuel ih =>
      have hfun : ∀ p, htaccessExpandLoop (sys.withFs fs') r state m limit fuel p =
          htaccessExpandLoop sys r state m limit fuel p := fun p => funext (ih p)
      match p with
      | [] => rfl
      | [c] => simp only [htaccessExpandLoop, hfun]
      | c :: d :: p =>
          simp only [htaccessExpandLoop, hfun]
          rfl

theorem htaccessExpand_withFs (r : Request) (state : RequestState) (tpl : NgxStr)
    (m : Option MatchCtx) :
    htaccessExpand (sys.withFs fs') r state tpl m = htaccessExpand sys r state tpl m :=
  htaccessExpandLoop_withFs sys fs' r state m _ _ _ _

theorem htaccessApplyEnvFlags_withFs (r : Request) (state : RequestState) (m : MatchCtx)
    (vars : List NgxStr) :
    htaccessApplyEnvFlags (sys.withFs fs') r state m vars =
      htaccessApplyEnvFlags sys r state m vars := by
  induction vars generalizing state with
  | nil => rfl
  | cons env vars ih => simp only [htaccessApplyEnvFlags, htaccessExpand_withFs, ih]

end Expand

section Rules
variable (sys : Sys) (conf : LocConf) (dir : DirCtx)

def rewriteRules : List RewriteRule → RewriteState → RuleOutcome
  | [], s => .next s
  | rule :: rules, s =>
      match tryRule sys conf dir rule s with
      | .next s => rewriteRules rules s
      | .result result s => .result result s

theorem rewriteDirectives_eq (ds : List Directive) (s : RewriteState) :
    rewriteDirectives sys conf dir ds s =
      rewriteRules sys conf dir (ds.filterMap Directive.ruleOf) s := by
  induction ds generalizing s with
  | nil => rfl
  | cons d ds ih =>
      rw [rewriteDirectives, List.filterMap_cons]
      cases hu : d.u with
      | rewriteRule rule =>
          cases htry : tryRule sys conf dir rule s <;>
            simp only [Directive.ruleOf, hu, rewriteRules, ih, htry]
      | _ => simp only [Directive.ruleOf, hu, ih]

end Rules

section Rewrite
variable (sys : Sys) {fs' : FileSystem} (hkinds : KindsAlike sys.fs fs') (conf : LocConf)
include hkinds

theorem htaccessTestCond_withFs (r : Request) (state : RequestState) (cond : RewriteCond) :
    htaccessTestCond (sys.withFs fs') conf r state cond =
      htaccessTestCond sys conf r state cond := by
  have hname : fileKind (filenameInfo (sys.withFs fs') state) =
      fileKind (filenameInfo sys state) := by
    unfold filenameInfo
    split
    · rfl
    · exact (hkinds _).symm
  unfold htaccessTestCond
  split
  · exact htaccessFileTest_of_kind hname cond.op
  · split
    · rw [htaccessExpand_withFs]
      split
      · rfl
      · exact htaccessFileTest_of_kind (hkinds _).symm cond.op
    · rfl

theorem matchConds_withFs (r : Request) (state : RequestState) (conds : List RewriteCond) :
    matchConds (sys.withFs fs') conf r state conds = matchConds sys conf r state conds := by
  induction conds with
  | nil => rfl
  | cons cond conds ih =>
      simp only [matchConds, htaccessTestCond_withFs sys hkinds conf, ih]

omit hkinds in
theorem applyMatchedRule_sameRules {dir dir' : DirCtx} (h : SameRules dir dir') (rule : RewriteRule)
    (s : RewriteState) (m : MatchCtx) :
    applyMatchedRule (sys.withFs fs') dir' rule s m = applyMatchedRule sys dir rule s m := by
  simp only [applyMatchedRule, ruleTarget, htaccessExpand_withFs, h.rewriteBase]

theorem tryRule_sameRules {dir dir' : DirCtx} (h : SameRules dir dir') (rule : RewriteRule)
    (s : RewriteState) :
    tryRule (sys.withFs fs') conf dir' rule s = tryRule sys conf dir rule s := by
  simp only [tryRule, htaccessMatchConditions, matchConds_withFs sys hkinds conf,
    htaccessApplyEnvFlags_withFs, applyMatchedRule_sameRules sys h, h.urlPrefix]
  rfl

theorem rewriteRules_sameRules {dir dir' : DirCtx} (h : SameRules dir dir')
    (rules : List RewriteRule)
    (s : RewriteState) :
    rewriteRules (sys.withFs fs') conf dir' rules s = rewriteRules sys conf dir rules s := by
  induction rules generalizing s with
  | nil => rfl
  | cons rule rules ih =>
      simp only [rewriteRules, tryRule_sameRules sys hkinds conf h]
      cases tryRule sys conf dir rule s with
      | next s => exact ih s
      | result result s => rfl

theorem rewriteDirs_sameRules {dirs dirs' : List DirCtx} (h : List.Forall₂ SameRules dirs dirs')
    (s : RewriteState) :
    rewriteDirs (sys.withFs fs') conf dirs' s = rewriteDirs sys conf dirs s := by
  induction h generalizing s with
  | nil => rfl
  | cons hdir _ ih =>
      have hrules := hdir.rules
      simp only [DirCtx.rules] at hrules
      simp only [rewriteDirs, rewriteDirectives_eq, ← hdir.rewriteEngine, ← hrules,
        rewriteRules_sameRules sys hkinds conf hdir]
      split
      · split
        · exact ih _
        · rfl
      · exact ih s

theorem htaccessApplyRewrite_sameView {inert : FilesRule → Bool} {m m' : MergedCtx}
    (h : SameView inert m m') (r : Request) (state : RequestState) :
    htaccessApplyRewrite (sys.withFs fs') conf r m' state =
      htaccessApplyRewrite sys conf r m state := by
  unfold htaccessApplyRewrite
  rw [rewriteDirs_sameRules sys hkinds conf (h.dirs.imp fun _ _ => SameDir.sameRules)]
  rfl

end Rewrite

section Alias
variable (sys : Sys) (fs' : FileSystem)

def findAliasIn (uri : NgxStr) : List (AliasRedirect × Bool) → Option (AliasRedirect × NgxStr)
  | [] => none
  | (redir, regex) :: aliases =>
      match htaccessAliasMatch sys redir uri regex with
      | (rc, out) => if rc ≠ ngxOk then findAliasIn uri aliases else some (redir, out)

theorem findAlias_eq (uri : NgxStr) (ds : List Directive) :
    findAlias sys uri ds = findAliasIn sys uri (ds.filterMap Directive.aliasOf) := by
  induction ds with
  | nil => rfl
  | cons d ds ih =>
      rw [findAlias, List.filterMap_cons]
      cases d.aliasOf with
      | none => exact ih
      | some hit =>
          obtain ⟨redir, regex⟩ := hit
          simp only [findAliasIn, ih]

theorem findAliasIn_withFs (uri : NgxStr) (aliases : List (AliasRedirect × Bool)) :
    findAliasIn (sys.withFs fs') uri aliases = findAliasIn sys uri aliases := by
  induction aliases with
  | nil => rfl
  | cons hit aliases ih =>
      obtain ⟨redir, regex⟩ := hit
      simp only [findAliasIn, ih]
      rfl

theorem findAliasDirs_sameAliases (uri : NgxStr) {dirs dirs' : List DirCtx}
    (h : List.Forall₂ (fun dir dir' : DirCtx => dir.aliases = dir'.aliases) dirs dirs') :
    findAliasDirs (sys.withFs fs') uri dirs' = findAliasDirs sys uri dirs := by
  induction h with
  | nil => rfl
  | cons haliases _ ih =>
      simp only [DirCtx.aliases] at haliases
      simp only [findAliasDirs, findAlias_eq, ← haliases, findAliasIn_withFs, ih]

theorem htaccessApplyAlias_sameView {inert : FilesRule → Bool} {m m' : MergedCtx}
    (h : SameView inert m m') (state : RequestState) :
    htaccessApplyAlias (sys.withFs fs') m' state = htaccessApplyAlias sys m state := by
  unfold htaccessApplyAlias
  rw [findAliasDirs_sameAliases sys fs' state.uri (h.dirs.imp fun _ _ => SameDir.aliases)]

end Alias

section Access
variable (sys : Sys) (fs' : FileSystem) {inert : FilesRule → Bool} {m m' : MergedCtx}

/-- The rules that are inert do not fire on the URI. -/
def InertOn (sys : Sys) (inert : FilesRule → Bool) (uri : NgxStr) : Prop :=
  ∀ rule, inert rule = true → filesRuleDenies sys (filesTarget uri) rule = false

theorem any_filter_inert {uri : NgxStr} (h : InertOn sys inert uri) (rules : List FilesRule) :
    (rules.filter (!inert ·)).any (filesRuleDenies sys (filesTarget uri)) =
      rules.any (filesRuleDenies sys (filesTarget uri)) := by
  rw [List.any_filter]
  refine congrArg rules.any (funext fun rule => ?_)
  cases hinert : inert rule with
  | true => simp [h rule hinert]
  | false => simp

theorem htaccessFilesDeny_sameView (h : SameView inert m m') {uri : NgxStr}
    (hinert : InertOn sys inert uri) :
    htaccessFilesDeny (sys.withFs fs') m' uri = htaccessFilesDeny sys m uri := by
  have hany : (m'.filesRules.getD []).any (filesRuleDenies sys (filesTarget uri)) =
      (m.filesRules.getD []).any (filesRuleDenies sys (filesTarget uri)) := by
    rw [← any_filter_inert sys hinert, ← h.filesRules, any_filter_inert sys hinert]
  simp only [htaccessFilesDeny, ← hany]
  rfl

theorem htaccessApplyFilesDeny_sameView (h : SameView inert m m') {uri : NgxStr}
    (hinert : InertOn sys inert uri) :
    htaccessApplyFilesDeny (sys.withFs fs') m' uri = htaccessApplyFilesDeny sys m uri := by
  rw [htaccessApplyFilesDeny, htaccessApplyFilesDeny, htaccessFilesDeny_sameView sys fs' h hinert]

theorem htpasswdLoop_withFs (user pass : NgxStr) (fuel : Nat) (p : NgxStr) :
    htpasswdLoop (sys.withFs fs') user pass fuel p = htpasswdLoop sys user pass fuel p := by
  induction fuel generalizing p with
  | zero => rfl
  | succ fuel ih =>
      simp only [htpasswdLoop, ih]
      rfl

/-- The password file of a context is the same in both file systems. -/
def SamePasswords (sys : Sys) (fs' : FileSystem) (merged : MergedCtx) : Prop :=
  sys.fs.openFile (sys.unterminated merged.authUserFile) =
    fs'.openFile (sys.unterminated merged.authUserFile)

theorem htaccessCheckHtpasswd_withFs {file : NgxStr}
    (h : sys.fs.openFile (sys.unterminated file) = fs'.openFile (sys.unterminated file))
    (user pass : NgxStr) :
    htaccessCheckHtpasswd (sys.withFs fs') file user pass =
      htaccessCheckHtpasswd sys file user pass := by
  have hopen : (sys.withFs fs').fs.openFile ((sys.withFs fs').unterminated file) =
      sys.fs.openFile (sys.unterminated file) := h.symm
  simp only [htaccessCheckHtpasswd, hopen, htpasswdLoop_withFs]

theorem scanRequires_sameView (h : SameView inert m m') (hpass : SamePasswords sys fs' m)
    (r : Request) (reqs : List NgxStr) :
    scanRequires (sys.withFs fs') r m' reqs = scanRequires sys r m reqs := by
  have hfile : m.authUserFile = m'.authUserFile := h.field MergedCtx.authUserFile fun _ => rfl
  have hvalid : validUserRc (sys.withFs fs') r m' = validUserRc sys r m := by
    simp only [validUserRc, ← hfile, htaccessCheckHtpasswd_withFs sys fs' hpass]
  induction reqs with
  | nil => rfl
  | cons req reqs ih => simp only [scanRequires, ih, hvalid]

theorem htaccessApplyAuth_sameView (h : SameView inert m m') (hpass : SamePasswords sys fs' m)
    {r : Request} (hinert : InertOn sys inert r.uri) :
    htaccessApplyAuth (sys.withFs fs') r m' = htaccessApplyAuth sys r m := by
  have hrequires : m.requires = m'.requires := h.field MergedCtx.requires fun _ => rfl
  have horder : m.order = m'.order := h.field MergedCtx.order fun _ => rfl
  have hallows : m.allows = m'.allows := h.field MergedCtx.allows fun _ => rfl
  have hdenies : m.denies = m'.denies := h.field MergedCtx.denies fun _ => rfl
  have htype : m.authType = m'.authType := h.field MergedCtx.authType fun _ => rfl
  have hname : m.authName = m'.authName := h.field MergedCtx.authName fun _ => rfl
  have hsat : htaccessRequireSatisfied (sys.withFs fs') r m' =
            htaccessRequireSatisfied sys r m := by
    simp only [htaccessRequireSatisfied, scanRequires_sameView sys fs' h hpass, orderRc,
      hrequires, horder, hallows, hdenies]
  simp only [htaccessApplyAuth, htaccessFilesDeny_sameView sys fs' h hinert, hsat, htype, hname,
    hrequires, hallows, hdenies]

theorem htaccessApplyHeaders_sameView (h : SameView inert m m') (r : Request) :
    htaccessApplyHeaders r m' = htaccessApplyHeaders r m := by
  have hheaders : m.headers = m'.headers := h.field MergedCtx.headers fun _ => rfl
  have hactive : m.expiresActive = m'.expiresActive := h.field MergedCtx.expiresActive fun _ => rfl
  have hexpires : m.expiresByType = m'.expiresByType := h.field MergedCtx.expiresByType fun _ => rfl
  simp only [htaccessApplyHeaders, hheaders, hactive, hexpires]

theorem htaccessErrorUri_sameView (h : SameView inert m m') (code : Nat) :
    htaccessErrorUri m' code = htaccessErrorUri m code := by
  have hdocs : m.errorDocuments = m'.errorDocuments := h.field MergedCtx.errorDocuments fun _ => rfl
  simp only [htaccessErrorUri, hdocs]

end Access

end NgxHtaccess
