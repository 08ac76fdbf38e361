import NgxHtaccess.Chain
import NgxHtaccess.ParsedLines
import NgxHtaccess.Site

/-!
Order, Allow and Deny from the text of the files to the decision.

`Allow from all` and `Deny from all` are stored as their first argument, the
word `from`, and the Order branch is behind a test that there are Require
entries. So files without a Require never forbid anything.
-/
namespace NgxHtaccess

inductive AccessLine where
  | order (denyFirst : Bool)
  | allowAll
  | denyAll
  deriving DecidableEq

/-- `Order deny,allow`, `Order allow,deny`, `Allow from all` and `Deny from all`. -/
def accessLine : List NgxStr → Option AccessLine
  | [cmd, arg] =>
      if !eqIgnoreCase cmd (lit "Order") then none
      else if eqIgnoreCase arg (lit "deny,allow") then some (.order true)
      else if eqIgnoreCase arg (lit "allow,deny") then some (.order false)
      else none
  | [cmd, arg, who] =>
      if !eqIgnoreCase arg (lit "from") || !eqIgnoreCase who (lit "all") then none
      else if eqIgnoreCase cmd (lit "Allow") then some .allowAll
      else if eqIgnoreCase cmd (lit "Deny") then some .denyAll
      else none
  | _ => none

/-- A line that is no Require and, if it is an Order, Allow or Deny, one of the
four plain forms. -/
def PlainAccess (line : List NgxStr) : Prop :=
  match line with
  | [] => True
  | t :: _ =>
      match htaccessDirectiveId t with
      | some .require => False
      | some .order | some .allow | some .deny => (accessLine line).isSome = true
      | _ => True

instance (line : List NgxStr) : Decidable (PlainAccess line) := by
  unfold PlainAccess
  split
  · exact .isTrue trivial
  · split <;> infer_instance

def AccessLine.denyFirst? : AccessLine → Option Bool
  | .order denyFirst => some denyFirst
  | _ => none

/-- What the lines ask for: under `allow,deny` a deny or the lack of an allow
forbids, otherwise a deny without an allow does. -/
def OrderDenies (lines : List AccessLine) : Prop :=
  if (lines.filterMap AccessLine.denyFirst?).getLast? = some false then
    .denyAll ∈ lines ∨ .allowAll ∉ lines
  else .denyAll ∈ lines ∧ .allowAll ∉ lines

instance (lines : List AccessLine) : Decidable (OrderDenies lines) :=
  inferInstanceAs (Decidable (ite _ _ _))

structure SourceFile where
  dir : WalkDir
  pool : PoolId
  text : NgxStr

def SourceFile.parse (sys : Sys) (f : SourceFile) : Option ChainFile :=
  (htaccessParse sys f.pool f.text).map fun parsed =>
    { dir := f.dir, directives := parsed.directives }

/-- The chain of the files, unless one of them does not parse. -/
def parseChain (sys : Sys) : List SourceFile → Option (List ChainFile)
  | [] => some []
  | f :: files => (f.parse sys).bind fun file => (parseChain sys files).map (file :: ·)

def SourceFile.lines (f : SourceFile) : List (List NgxStr) := (lexLines f.text).getD []

def accessLines (files : List SourceFile) : List AccessLine :=
  files.flatMap fun f => f.lines.filterMap accessLine

theorem SourceFile.parse_no_require {sys : Sys} {f : SourceFile} {file : ChainFile}
    (h : f.parse sys = some file) (hplain : ∀ line ∈ f.lines, PlainAccess line) :
    ∀ d ∈ file.directives, d.u.id ≠ .require := by
  obtain ⟨parsed, hparsed, rfl⟩ := Option.map_eq_some_iff.mp h
  rw [htaccessParse_eq] at hparsed
  obtain ⟨st, hst, rfl⟩ := Option.map_eq_some_iff.mp hparsed
  obtain ⟨lines, hlex, hlines⟩ := Option.bind_eq_some_iff.mp hst
  intro d hd hreq
  rcases parseLines_directives sys f.pool hlines d hd with hnone | ⟨line, hline, t, rest, rfl, hid⟩
  · cases hnone
  · have hp := hplain _ (by rw [SourceFile.lines, hlex]; exact hline)
    simp only [PlainAccess, hid, hreq] at hp

theorem exists_parse_of_parseChain {sys : Sys} {files : List SourceFile} {chain : List ChainFile}
    (h : parseChain sys files = some chain) {file : ChainFile} (hfile : file ∈ chain) :
    ∃ f ∈ files, f.parse sys = some file := by
  induction files generalizing chain with
  | nil =>
      cases h
      cases hfile
  | cons f files ih =>
      obtain ⟨first, hfirst, hrest⟩ := Option.bind_eq_some_iff.mp h
      obtain ⟨rest, hchain, rfl⟩ := Option.map_eq_some_iff.mp hrest
      rcases List.mem_cons.mp hfile with rfl | hmem
      · exact ⟨f, List.mem_cons_self, hfirst⟩
      · obtain ⟨g, hg, hparse⟩ := ih hchain hmem
        exact ⟨g, List.mem_cons_of_mem _ hg, hparse⟩

theorem parseChain_no_require {sys : Sys} {files : List SourceFile} {chain : List ChainFile}
    (h : parseChain sys files = some chain)
    (hplain : ∀ f ∈ files, ∀ line ∈ f.lines, PlainAccess line) :
    ∀ d ∈ chainDirectives chain, d.u.id ≠ .require := by
  intro d hd
  obtain ⟨file, hfile, hd⟩ := List.mem_flatMap.mp hd
  obtain ⟨f, hf, hparse⟩ := exists_parse_of_parseChain h hfile
  exact SourceFile.parse_no_require hparse (hplain f hf) d hd

/-- A context without Require entries and FilesMatch rules admits everybody. -/
theorem htaccessApplyAuth_of_no_require (sys : Sys) (r : Request) {merged : MergedCtx}
    (hreq : merged.requires = none) (hfiles : merged.filesRules = none) :
    htaccessApplyAuth sys r merged = (.declined, r) := by
  have hdeny : htaccessFilesDeny sys merged r.uri ≠ ngxHttpForbidden := by
    simp [htaccessFilesDeny, hfiles, ngxDeclined, ngxHttpForbidden]
  have hsat : htaccessRequireSatisfied sys r merged = ngxDeclined := by
    simp [htaccessRequireSatisfied, hreq]
  unfold htaccessApplyAuth
  rw [if_neg hdeny, hsat]
  split
  · rfl
  · simp [ngxDeclined, ngxHttpUnauthorized, ngxHttpForbidden]

/-- Files whose only access lines are plain ones are decided as the lines ask
exactly when the lines do not ask for a refusal. -/
theorem order_decision_iff (sys : Sys) (r : Request) (files : List SourceFile)
    (chain : List ChainFile) (hparse : parseChain sys files = some chain)
    (hplain : ∀ f ∈ files, ∀ line ∈ f.lines, PlainAccess line) :
    ((htaccessApplyAuth sys r (mergeChain chain)).1 = .forbidden ↔
        OrderDenies (accessLines files)) ↔
      ¬ OrderDenies (accessLines files) := by
  have hnone := parseChain_no_require hparse hplain
  have hreq : (mergeChain chain).requires = none := by
    rw [mergeChain_requires, foldl_ngxArrayPush_eq_none, List.filterMap_eq_nil_iff]
    exact fun d hd => requireOf_eq_none (hnone d hd)
  have hfiles : (mergeChain chain).filesRules = none := by
    rw [mergeChain_filesRules, foldl_ngxArrayPush_eq_none, List.filterMap_eq_nil_iff]
    exact fun d hd => filesRule_eq_none (hnone d hd)
  rw [htaccessApplyAuth_of_no_require sys r hreq hfiles]
  simp only [reduceCtorEq, false_iff]

/-- One file that lets everybody in. -/
theorem order_decision_allow :
    let sys := siteSys (siteFs 0 [])
    let files : List SourceFile :=
      [⟨walkRoot (siteConf 10), 0, lit "Order allow,deny\nAllow from all\n"⟩]
    ((htaccessApplyAuth sys (siteRequest "/x")
          (mergeChain ((parseChain sys files).getD []))).1 = .forbidden ↔
        OrderDenies (accessLines files)) ↔
      ¬ OrderDenies (accessLines files) :=
  order_decision_iff _ _ _ _ (by decide +kernel) (by decide +kernel)

/-- `Deny from all` alone asks for a refusal and is served. -/
theorem deny_from_all_ignored :
    let sys := siteSys (siteFs 0 [("/w/.htaccess", "Deny from all\n")])
    let files : List SourceFile :=
      [⟨walkRoot (siteConf 10), 0, lit "Deny from all\n"⟩]
    (∀ f ∈ files, ∀ line ∈ f.lines, PlainAccess line) ∧
      uriChain sys (siteConf 10) (siteWorker 0) (lit "/x") = (parseChain sys files).getD [] ∧
      OrderDenies (accessLines files) ∧
      (htaccessApplyAuth sys (siteRequest "/x")
        (htaccessBuildMergedCtx sys (siteConf 10) (siteWorker 0) (lit "/x")).1).1 ≠ .forbidden := by
  decide +kernel

end NgxHtaccess
