import NgxHtaccess.IdleDirectives
import NgxHtaccess.RuleScan

/-!
The files that a request depends on: those of the directories along the URIs that it
takes, those that the conditions of the rules tried on it name, and the password file of
an access check. Nothing that happens to other files changes the answer.
-/
namespace NgxHtaccess
open BoundedLoop Scan

/-- What a run reads of a file: the directives in it, what kind of file it is or its text. -/
inductive FileRead where
  | directives (path : NgxStr)
  | kind (path : NgxStr)
  | text (path : NgxStr)
  deriving DecidableEq

/-- The directives that a path has in force: none if there is no file or it cannot be parsed. -/
def readDirectives (sys : Sys) (path : NgxStr) : Option (List Directive) :=
  match readFile sys 0 path with
  | (rc, parsed) => if rc ≠ ngxOk then none else some ((parsed.map (·.directives)).getD [])

/-- The read finds the same in another state of the files. -/
def FileRead.Same (sys : Sys) (fs' : FileSystem) : FileRead → Prop
  | .directives path => readDirectives sys path = readDirectives (sys.withFs fs') path
  | .kind path => fileKind (sys.fs.fileInfo path) = fileKind (fs'.fileInfo path)
  | .text path => sys.fs.openFile path = fs'.openFile path

section Reads
variable (sys : Sys) (conf : LocConf)

/-- The path that a condition tests. -/
def condPath (r : Request) (state : RequestState) (cond : RewriteCond) : Option NgxStr :=
  if cond.test = .filename ∧ cond.op.isFileOp then
    if state.filename = [] then none else some (sys.unterminated state.filename)
  else if cond.test = .fspath then
    (htaccessExpand sys r state cond.name none).map fun expanded =>
      let slash := if conf.root.getLast? = some (ch '/') then [] else [ch '/']
      cString (conf.root ++ slash ++ expanded)
  else none

def ruleFileReads (y : (DirCtx × RewriteRule) × RewriteState) : List FileRead :=
  ((y.1.2.conditions.getD []).filterMap (condPath sys conf y.2.r y.2.state)).map .kind

/-- What the conditions of the rules tried in a pass read. -/
def engineReads (merged : MergedCtx) (s : SpecState) : List FileRead :=
  (trace (ruleStep sys conf) (scannedRules merged.dirs) (rewriteStart sys s.r s.state)).flatMap
    (ruleFileReads sys conf)

/-- The password file, where the access check has a user to look for in it. -/
def passwordReads (merged : MergedCtx) (r : Request) : List FileRead :=
  if r.user = [] ∨ merged.authUserFile = [] then []
  else [.text (sys.unterminated merged.authUserFile)]

/-- What the stages of a pass read, as far as it gets. -/
def stageReads (requestUri : NgxStr) (merged : MergedCtx) (s : SpecState) : List FileRead :=
  let rewritten := htaccessApplyRewrite sys conf s.r merged s.state
  if s.first ∧ htaccessApplyFilesDeny sys merged requestUri = .forbidden then []
  else if (htaccessApplyAlias sys merged s.state).1 = .redirect then []
  else engineReads sys conf merged s ++
    if rewritten.1 = .redirect then []
    else if rewritten.1 = .ok then []
    else passwordReads sys merged rewritten.2.1

def passReads (requestUri : NgxStr) (s : SpecState) : List FileRead :=
  (walkDirs conf s.r.uri).map (fun d => .directives d.path) ++
    stageReads sys conf requestUri (diskCtx sys conf s.r.uri) s

def runReads (requestUri : NgxStr) : Nat → SpecState → List FileRead
  | 0, _ => []
  | n + 1, s =>
      passReads sys conf requestUri s ++
        match specifiedPass sys conf requestUri s with
        | .stop _ => []
        | .again t => runReads requestUri n t

def HandlerCall.reads (call : HandlerCall) : List FileRead :=
  if !call.conf.enable then []
  else runReads call.sys call.conf call.r.uri call.conf.maxRedirects (.initial call.conf call.r)

end Reads

section Stages
variable (sys : Sys) {fs' : FileSystem} (conf : LocConf)

theorem diskFile_eq (d : WalkDir) :
    diskFile sys d = (readDirectives sys d.path).map fun directives => { dir := d, directives } := by
  unfold diskFile readDirectives
  generalize readFile sys 0 d.path = out
  obtain ⟨rc, parsed⟩ := out
  simp only
  split <;> rfl

theorem diskCtx_same {uri : NgxStr}
    (h : ∀ d ∈ walkDirs conf uri, (FileRead.directives d.path).Same sys fs') :
    diskCtx (sys.withFs fs') conf uri = diskCtx sys conf uri := by
  refine congrArg mergeChain (List.filterMap_congr fun d hd => ?_)
  rw [diskFile_eq, diskFile_eq, h d hd]

theorem htaccessTestCond_same {r : Request} {state : RequestState} {cond : RewriteCond}
    (h : ∀ path ∈ condPath sys conf r state cond, (FileRead.kind path).Same sys fs') :
    htaccessTestCond (sys.withFs fs') conf r state cond =
      htaccessTestCond sys conf r state cond := by
  unfold condPath at h
  unfold htaccessTestCond
  split
  · rename_i hfile
    rw [if_pos hfile] at h
    refine htaccessFileTest_of_kind ?_ cond.op
    unfold filenameInfo
    split
    · rfl
    · rename_i hname
      rw [if_neg hname] at h
      exact (h _ rfl).symm
  · rename_i hfile
    rw [if_neg hfile] at h
    split
    · rename_i hpath
      rw [if_pos hpath] at h
      rw [htaccessExpand_withFs]
      cases hexpand : htaccessExpand sys r state cond.name none with
      | none => rfl
      | some expanded =>
          rw [hexpand] at h
          exact htaccessFileTest_of_kind (h _ rfl).symm cond.op
    · rfl

theorem matchConds_same {r : Request} {state : RequestState} {conds : List RewriteCond}
    (h : ∀ path ∈ conds.filterMap (condPath sys conf r state), (FileRead.kind path).Same sys fs') :
    matchConds (sys.withFs fs') conf r state conds = matchConds sys conf r state conds := by
  induction conds with
  | nil => rfl
  | cons cond conds ih =>
      have hcond := htaccessTestCond_same sys conf fun path hpath =>
        h path (List.mem_filterMap.mpr ⟨cond, List.mem_cons_self, hpath⟩)
      have hrest := ih fun path hpath => by
        obtain ⟨other, hmem, hpath⟩ := List.mem_filterMap.mp hpath
        exact h path (List.mem_filterMap.mpr ⟨other, List.mem_cons_of_mem _ hmem, hpath⟩)
      simp only [matchConds, hcond, hrest]

theorem ruleStep_same {y : (DirCtx × RewriteRule) × RewriteState}
    (h : ∀ read ∈ ruleFileReads sys conf y, read.Same sys fs') :
    ruleStep (sys.withFs fs') conf y.1 y.2 = ruleStep sys conf y.1 y.2 := by
  have hsame : SameRules y.1.1 y.1.1 := SameDir.sameRules (.refl y.1.1)
  have hconds := fun path hpath => h (.kind path) (List.mem_map.mpr ⟨path, hpath, rfl⟩)
  have hrule : tryRule (sys.withFs fs') conf y.1.1 y.1.2 y.2 =
      tryRule sys conf y.1.1 y.1.2 y.2 := by
    simp only [tryRule, htaccessMatchConditions, matchConds_same sys conf hconds,
      htaccessApplyEnvFlags_withFs, applyMatchedRule_sameRules sys hsame]
    rfl
  rw [ruleStep, ruleStep, hrule]

theorem htaccessApplyRewrite_same {merged : MergedCtx} {s : SpecState}
    (h : ∀ read ∈ engineReads sys conf merged s, read.Same sys fs') :
    htaccessApplyRewrite (sys.withFs fs') conf s.r merged s.state =
      htaccessApplyRewrite sys conf s.r merged s.state := by
  have hscan := scan_congr fun y hy => ruleStep_same sys conf fun read hread =>
    h read (List.mem_flatMap.mpr ⟨y, hy, hread⟩)
  rw [htaccessApplyRewrite_eq, htaccessApplyRewrite_eq, ← hscan]
  rfl

theorem validUserRc_same {merged : MergedCtx} {r : Request}
    (h : ∀ read ∈ passwordReads sys merged r, read.Same sys fs') :
    validUserRc (sys.withFs fs') r merged = validUserRc sys r merged := by
  unfold passwordReads at h
  unfold validUserRc
  split
  · rfl
  · rename_i huser
    split
    · rfl
    · rename_i hfile
      rw [if_neg (not_or.mpr ⟨huser, hfile⟩)] at h
      rw [htaccessCheckHtpasswd_withFs sys fs' (h _ List.mem_cons_self)]

theorem htaccessApplyAuth_same {merged : MergedCtx} {r : Request}
    (h : ∀ read ∈ passwordReads sys merged r, read.Same sys fs') :
    htaccessApplyAuth (sys.withFs fs') r merged = htaccessApplyAuth sys r merged := by
  have hscan : ∀ reqs, scanRequires (sys.withFs fs') r merged reqs =
      scanRequires sys r merged reqs := by
    intro reqs
    induction reqs with
    | nil => rfl
    | cons req reqs ih => simp only [scanRequires, ih, validUserRc_same sys h]
  have hsat : htaccessRequireSatisfied (sys.withFs fs') r merged =
      htaccessRequireSatisfied sys r merged := by
    rw [htaccessRequireSatisfied, hscan, htaccessRequireSatisfied]
  have hdeny := htaccessFilesDeny_sameView sys fs' (SameView.refl _ merged)
    (inertOn_none sys r.uri)
  rw [htaccessApplyAuth, hdeny, hsat, htaccessApplyAuth]

theorem specifiedOn_same {requestUri : NgxStr} {merged : MergedCtx} {s : SpecState}
    (h : ∀ read ∈ stageReads sys conf requestUri merged s, read.Same sys fs') :
    specifiedOn (sys.withFs fs') conf requestUri merged s =
      specifiedOn sys conf requestUri merged s := by
  have hview := SameView.refl (fun _ => false) merged
  have halias := htaccessApplyAlias_sameView sys fs' hview s.state
  have hdeny := htaccessApplyFilesDeny_sameView sys fs' hview (inertOn_none sys requestUri)
  unfold stageReads at h
  simp only at h
  unfold specifiedOn
  rw [halias, hdeny]
  split
  · rfl
  · rename_i hdenied
    rw [if_neg hdenied] at h
    simp only
    split
    · rfl
    · rename_i hredirect
      rw [if_neg hredirect] at h
      have hrewrite := htaccessApplyRewrite_same sys conf fun read hread =>
        h read (List.mem_append_left _ hread)
      rw [hrewrite]
      split
      · rfl
      · rename_i hredirect
        rw [if_neg hredirect] at h
        split
        · rfl
        · rename_i hok
          rw [if_neg hok] at h
          have hauth := htaccessApplyAuth_same sys fun read hread =>
            h read (List.mem_append_right _ hread)
          rw [specifiedAccess, specifiedAccess, hauth]

theorem specifiedPass_same {requestUri : NgxStr} {s : SpecState}
    (h : ∀ read ∈ passReads sys conf requestUri s, read.Same sys fs') :
    specifiedPass (sys.withFs fs') conf requestUri s = specifiedPass sys conf requestUri s := by
  have hctx := @diskCtx_same sys fs' conf s.r.uri fun d hd =>
    h _ (List.mem_append_left _ (List.mem_map.mpr ⟨d, hd, rfl⟩))
  rw [specifiedPass, hctx]
  exact specifiedOn_same sys conf fun read hread => h read (List.mem_append_right _ hread)

theorem mem_runReads {requestUri : NgxStr} {n : Nat} {s t : SpecState}
    (hvisit : Visits (specifiedPass sys conf requestUri) n s t) {read : FileRead}
    (hread : read ∈ passReads sys conf requestUri t) :
    read ∈ runReads sys conf requestUri n s := by
  induction hvisit with
  | here n s =>
      rw [runReads]
      exact List.mem_append_left _ hread
  | later hpass _ ih =>
      rw [runReads, hpass]
      exact List.mem_append_right _ (ih hread)

/-- Runs that find the same in all that the first one reads end alike. -/
theorem run_same {requestUri : NgxStr} {n : Nat} {s : SpecState}
    (h : ∀ read ∈ runReads sys conf requestUri n s, read.Same sys fs') :
    run (specifiedPass (sys.withFs fs') conf requestUri) SpecState.spent n s =
      run (specifiedPass sys conf requestUri) SpecState.spent n s :=
  run_congr fun _ hvisit => specifiedPass_same sys conf fun read hread =>
    h read (mem_runReads sys conf hvisit hread)

end Stages

section Calls

structure SameReads (call call' : HandlerCall) : Prop where
  sys : call'.sys = call.sys.withFs call'.sys.fs
  conf : call'.conf = call.conf
  r : call'.r = call.r
  reads : ∀ read ∈ call.reads, read.Same call.sys call'.sys.fs

theorem SameReads.outcome {call call' : HandlerCall} (h : SameReads call call') :
    call'.outcome = call.outcome := by
  obtain ⟨hsys, hconf, hr, hreads⟩ := h
  unfold HandlerCall.reads at hreads
  unfold HandlerCall.outcome
  rw [hconf, hr]
  split
  · rfl
  · rename_i henabled
    rw [if_neg henabled] at hreads
    have hsame : specified (call.sys.withFs call'.sys.fs) call.conf call.r =
        specified call.sys call.conf call.r := run_same call.sys call.conf hreads
    rw [hsys, hsame]

theorem outcomes_of_sameReads {calls calls' : List HandlerCall}
    (h : List.Forall₂ SameReads calls calls') :
    calls.map HandlerCall.outcome = calls'.map HandlerCall.outcome := by
  induction h with
  | nil => rfl
  | cons hcall _ ih => rw [List.map_cons, List.map_cons, hcall.outcome, ih]

/-- Whatever happens to the files that the runs do not read, two workers with any caches give
the same answers. -/
theorem hostRuns_of_reads {content content' : Content} {maxEntries maxEntries' : Nat}
    {entryAllocs entryAllocs' : List Bool} {steps steps' : List HostStep}
    (h : SafeHost content maxEntries entryAllocs steps)
    (h' : SafeHost content' maxEntries' entryAllocs' steps')
    (hreads : List.Forall₂ SameReads (hostCalls steps) (hostCalls steps')) :
    ∃ answers, (hostRun maxEntries entryAllocs steps).map (·.answers) = some answers ∧
      (hostRun maxEntries' entryAllocs' steps').map (·.answers) = some answers :=
  h.agree h' (outcomes_of_sameReads hreads)

end Calls

def FileRead.path : FileRead → NgxStr
  | .directives path | .kind path | .text path => path

theorem FileRead.same_of_unchanged {sys : Sys} {fs' : FileSystem} (read : FileRead)
    (hkind : fileKind (sys.fs.fileInfo read.path) = fileKind (fs'.fileInfo read.path))
    (htext : sys.fs.openFile read.path = fs'.openFile read.path) : read.Same sys fs' := by
  cases read with
  | kind path => exact hkind
  | text path => exact htext
  | directives path =>
      have hparse : htaccessParseFile (sys.withFs fs') 0 path = htaccessParseFile sys 0 path :=
        htaccessParseFile_withFs sys htext.symm 0
      have hthere : _ = ((sys.withFs fs').fs.fileInfo path).isSome := isSome_of_fileKind hkind
      have hread : readFile (sys.withFs fs') 0 path = readFile sys 0 path := by
        unfold readFile
        rw [hparse]
        cases hinfo : sys.fs.fileInfo path <;>
          cases hinfo' : (sys.withFs fs').fs.fileInfo path <;>
          simp only [FileRead.path, hinfo, hinfo'] at hthere ⊢ <;> first | rfl | cases hthere
      rw [FileRead.Same, readDirectives, readDirectives, hread]

/-- A site with a rule that has a condition on a file. -/
def ruleFiles : List (String × String) :=
  [("/w/.htaccess", "RewriteEngine On\nRewriteCond f -f\nRewriteRule z /c [L]\n")]

/-- The site with a broken file in a directory and a file that closes the one beside it. -/
def ruleFilesBeside : List (String × String) :=
  ruleFiles ++ [("/w/a/.htaccess", "Require all denied\nAuthName \"x\n"),
    ("/w/b/.htaccess", "Require all denied\n")]

def besideCall (files : List (String × String)) (request : Nat) : HandlerCall where
  sys := siteSys (siteFs 0 files)
  conf := siteConf 10
  request := request
  r := siteRequest "/a/x"

def besideSteps (files : List (String × String)) : List HostStep :=
  [.handle (besideCall files 1), .handle (besideCall files 2)]

theorem sameReads_beside (request : Nat) :
    SameReads (besideCall ruleFiles request) (besideCall ruleFilesBeside request) := by
  have hlist : (besideCall ruleFiles request).reads =
      [.directives (lit "/w/.htaccess"), .directives (lit "/w/a/.htaccess"),
        .kind (lit "/w/a/x")] := by
    change (besideCall ruleFiles 0).reads = _
    decide +kernel
  have hreads : ∀ read ∈ (besideCall ruleFiles request).reads,
      siteFile ruleFiles read.path = siteFile ruleFilesBeside read.path ∨
        read = .directives (lit "/w/a/.htaccess") := by
    rw [hlist]
    decide +kernel
  have hbroken : (readDirectives (siteSys (siteFs 0 ruleFiles))
        (lit "/w/a/.htaccess")).isNone ∧
      (readDirectives ((siteSys (siteFs 0 ruleFiles)).withFs (siteFs 0 ruleFilesBeside))
        (lit "/w/a/.htaccess")).isNone := by
    decide +kernel
  refine ⟨rfl, rfl, rfl, fun read hread => ?_⟩
  rcases hreads read hread with hfile | rfl
  · refine read.same_of_unchanged ?_ ?_
    · simp only [besideCall, siteSys, siteFs, hfile]
    · simp only [besideCall, siteSys, siteFs, hfile]
  · exact (Option.isNone_iff_eq_none.mp hbroken.1).trans
      (Option.isNone_iff_eq_none.mp hbroken.2).symm

theorem hostRuns_of_reads_beside :
    ∃ answers, (hostRun 9 [] (besideSteps ruleFiles)).map (·.answers) = some answers ∧
      (hostRun 3 [] (besideSteps ruleFilesBeside)).map (·.answers) = some answers := by
  have hgiven : (∀ f ∈ ruleFiles, ArgsGiven (lexedText (lit f.2)).1) ∧
      ∀ f ∈ ruleFilesBeside, ArgsGiven (lexedText (lit f.2)).1 := by
    unfold ArgsGiven
    decide +kernel
  have hfiles : ∀ files, ∀ call ∈ hostCalls (besideSteps files),
      call.sys.fs = siteFs 0 files := by
    simp [hostCalls, HostStep.call, besideSteps, besideCall, siteSys]
  exact hostRuns_of_reads (safeHost_site (by decide +kernel) (hfiles _) hgiven.1)
    (safeHost_site (by decide +kernel) (hfiles _) hgiven.2)
    (.cons (sameReads_beside 1) (.cons (sameReads_beside 2) .nil))

end NgxHtaccess
