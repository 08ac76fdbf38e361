import NgxHtaccess.Walk
import NgxHtaccess.ParsedLines

/-!
The merged context as a function of the chain of files along a URI.

Merging a directive changes the context of the request and the context of its
directory independently of each other, so a field of the merged context collects
from the directives of the whole chain in root-to-leaf, top-to-bottom order.
-/
namespace NgxHtaccess

/-- A file that the walk has loaded, with its directory. -/
structure ChainFile where
  dir : WalkDir
  directives : List Directive
  deriving DecidableEq

/-- What a directive does to the context of the request. -/
def mergeGlobal (merged : MergedCtx) (d : Directive) : MergedCtx :=
  (htaccessMergeDirective merged (.fresh ⟨[], [], []⟩) d).1

/-- What a directive does to the context of its directory. -/
def mergeLocal (dir : DirCtx) (d : Directive) : DirCtx := (htaccessMergeDirective {} dir d).2

def ChainFile.dirCtx (f : ChainFile) : DirCtx := f.directives.foldl mergeLocal (.fresh f.dir)

def mergeFile (merged : MergedCtx) (f : ChainFile) : MergedCtx :=
  { f.directives.foldl mergeGlobal merged with dirs := merged.dirs ++ [f.dirCtx] }

def mergeChain (chain : List ChainFile) : MergedCtx := chain.foldl mergeFile {}

def chainDirectives (chain : List ChainFile) : List Directive := chain.flatMap (·.directives)

def visitWorker (sys : Sys) (conf : LocConf) (w : Worker) (d : WalkDir) : Worker :=
  (visitDir sys conf ({}, w) d).2

/-- The file of a directory when its load succeeds. -/
def loadedFile (sys : Sys) (conf : LocConf) (w : Worker) (d : WalkDir) : Option ChainFile :=
  match htaccessLoadFile sys conf w d.path with
  | (rc, parsed, _) =>
      if rc ≠ ngxOk then none
      else some { dir := d, directives := (parsed.map (·.directives)).getD [] }

/-- The files that a walk over the directories loads. -/
def loadChain (sys : Sys) (conf : LocConf) : Worker → List WalkDir → List ChainFile
  | _, [] => []
  | w, d :: ds =>
      (loadedFile sys conf w d).toList ++ loadChain sys conf (visitWorker sys conf w d) ds

def uriChain (sys : Sys) (conf : LocConf) (w : Worker) (uri : NgxStr) : List ChainFile :=
  loadChain sys conf (w.emit .context) (walkDirs conf uri)

theorem htaccessMergeDirective_eq (merged : MergedCtx) (dir : DirCtx) (d : Directive) :
    htaccessMergeDirective merged dir d = (mergeGlobal merged d, mergeLocal dir d) := by
  unfold mergeGlobal mergeLocal htaccessMergeDirective
  cases d.u with
  | require str => simp only; split <;> rfl
  | _ => rfl

theorem foldl_htaccessMergeDirective (ds : List Directive) (merged : MergedCtx) (dir : DirCtx) :
    ds.foldl (fun (m, dir) d => htaccessMergeDirective m dir d) (merged, dir) =
      (ds.foldl mergeGlobal merged, ds.foldl mergeLocal dir) := by
  induction ds generalizing merged dir with
  | nil => rfl
  | cons d ds ih =>
      rw [List.foldl_cons, List.foldl_cons, List.foldl_cons, ← ih, ← htaccessMergeDirective_eq]

theorem mergeGlobal_dirs (merged : MergedCtx) (dirs : List DirCtx) (d : Directive) :
    mergeGlobal { merged with dirs } d = { mergeGlobal merged d with dirs } := by
  unfold mergeGlobal htaccessMergeDirective
  cases d.u with
  | require str => simp only; split <;> rfl
  | _ => rfl

theorem foldl_mergeGlobal_dirs (ds : List Directive) (merged : MergedCtx) (dirs : List DirCtx) :
    ds.foldl mergeGlobal { merged with dirs } = { ds.foldl mergeGlobal merged with dirs } := by
  induction ds generalizing merged with
  | nil => rfl
  | cons d ds ih => rw [List.foldl_cons, List.foldl_cons, mergeGlobal_dirs, ih]

theorem htaccessMergeParsed_eq (merged : MergedCtx) (dir : DirCtx) (parsed : Option ParsedFile) :
    htaccessMergeParsed merged dir parsed =
      (((parsed.map (·.directives)).getD []).foldl mergeGlobal merged,
        ((parsed.map (·.directives)).getD []).foldl mergeLocal dir) := by
  cases parsed with
  | none => rfl
  | some file => exact foldl_htaccessMergeDirective file.directives merged dir

theorem visitDir_worker (sys : Sys) (conf : LocConf) (merged : MergedCtx) (w : Worker)
    (d : WalkDir) : (visitDir sys conf (merged, w) d).2 = visitWorker sys conf w d := by
  unfold visitWorker visitDir
  simp only
  split <;> rfl

theorem foldl_mergeGlobal_keeps_dirs (ds : List Directive) (merged : MergedCtx) :
    (ds.foldl mergeGlobal merged).dirs = merged.dirs := by
  have h := congrArg MergedCtx.dirs (foldl_mergeGlobal_dirs ds merged merged.dirs)
  exact h

theorem visitDir_merged (sys : Sys) (conf : LocConf) (merged : MergedCtx) (w : Worker)
    (d : WalkDir) :
    (visitDir sys conf (merged, w) d).1 =
      (loadedFile sys conf w d).toList.foldl mergeFile merged := by
  unfold visitDir loadedFile
  simp only
  split
  · rfl
  · simp only [htaccessMergeParsed_eq, Option.toList_some, List.foldl_cons, List.foldl_nil,
      mergeFile, ChainFile.dirCtx, foldl_mergeGlobal_keeps_dirs]

theorem foldl_visitDir (sys : Sys) (conf : LocConf) (ds : List WalkDir) (merged : MergedCtx)
    (w : Worker) :
    (ds.foldl (visitDir sys conf) (merged, w)).1 =
      (loadChain sys conf w ds).foldl mergeFile merged := by
  induction ds generalizing merged w with
  | nil => rfl
  | cons d ds ih =>
      have hstep : visitDir sys conf (merged, w) d =
          ((loadedFile sys conf w d).toList.foldl mergeFile merged, visitWorker sys conf w d) :=
        Prod.ext (visitDir_merged sys conf merged w d) (visitDir_worker sys conf merged w d)
      rw [List.foldl_cons, hstep, ih, loadChain, List.foldl_append]

/-- The merged context is the merge of the chain. -/
theorem htaccessBuildMergedCtx_eq (sys : Sys) (conf : LocConf) (w : Worker) (uri : NgxStr) :
    (htaccessBuildMergedCtx sys conf w uri).1 = mergeChain (uriChain sys conf w uri) :=
  foldl_visitDir sys conf (walkDirs conf uri) {} (w.emit .context)

theorem foldl_mergeFile (chain : List ChainFile) (merged : MergedCtx) :
    chain.foldl mergeFile merged =
      { (chainDirectives chain).foldl mergeGlobal merged with
        dirs := merged.dirs ++ chain.map ChainFile.dirCtx } := by
  induction chain generalizing merged with
  | nil =>
      simp only [chainDirectives, List.flatMap_nil, List.foldl_nil, List.map_nil, List.append_nil]
  | cons f chain ih =>
      simp only [List.foldl_cons, ih, chainDirectives, List.flatMap_cons, List.foldl_append,
        List.map_cons]
      simp only [mergeFile, foldl_mergeGlobal_dirs, List.append_assoc, List.cons_append,
        List.nil_append]

theorem mergeChain_eq (chain : List ChainFile) :
    mergeChain chain =
      { (chainDirectives chain).foldl mergeGlobal {} with
        dirs := chain.map ChainFile.dirCtx } :=
  foldl_mergeFile chain {}

section Collect
variable {α : Type}

theorem foldl_ngxArrayPush_getD (xs : List α) (a : Option (List α)) :
    (xs.foldl ngxArrayPush a).getD [] = a.getD [] ++ xs := by
  induction xs generalizing a with
  | nil => simp only [List.foldl_nil, List.append_nil]
  | cons x xs ih =>
      simp only [List.foldl_cons, ih, ngxArrayPush_getD, List.append_assoc, List.cons_append,
        List.nil_append]

theorem foldl_ngxArrayPush_eq_none (xs : List α) :
    xs.foldl ngxArrayPush none = none ↔ xs = [] := by
  cases xs with
  | nil => simp
  | cons x xs =>
      simp only [List.foldl_cons, reduceCtorEq, iff_false]
      have hsome : ∀ (ys : List α) (zs : List α), ys.foldl ngxArrayPush (some zs) ≠ none := by
        intro ys
        induction ys with
        | nil => simp
        | cons y ys ih => intro zs; exact ih _
      exact hsome xs _

theorem foldl_collect {field : MergedCtx → Option (List α)} {pick : Directive → Option α}
    (h : ∀ m d, field (mergeGlobal m d) = (pick d).toList.foldl ngxArrayPush (field m))
    (ds : List Directive) (merged : MergedCtx) :
    field (ds.foldl mergeGlobal merged) =
      (ds.filterMap pick).foldl ngxArrayPush (field merged) := by
  induction ds generalizing merged with
  | nil => rfl
  | cons d ds ih =>
      rw [List.foldl_cons, ih, h, List.filterMap_cons]
      cases pick d <;> rfl

theorem foldl_overwrite {σ : Type} {step : σ → Directive → σ} {field : σ → α}
    {pick : Directive → Option α} (h : ∀ m d, field (step m d) = (pick d).getD (field m))
    (ds : List Directive) (m : σ) :
    field (ds.foldl step m) = (ds.filterMap pick).getLast?.getD (field m) := by
  induction ds generalizing m with
  | nil => rfl
  | cons d ds ih =>
      rw [List.foldl_cons, ih, h, List.filterMap_cons]
      cases hp : pick d with
      | none => rfl
      | some x => cases hl : ds.filterMap pick <;> simp [List.getLast?_cons]

end Collect

section Select

/-- A Require outside any FilesMatch block. -/
def Directive.requireOf (d : Directive) : Option NgxStr :=
  match d.u with
  | .require str => if d.filesMatch ≠ [] then none else some str
  | _ => none

/-- The rule of a Require inside a FilesMatch block. -/
def Directive.filesRule (d : Directive) : Option FilesRule :=
  match d.u with
  | .require str => if d.filesMatch ≠ [] then some (filesRuleOf d.filesMatch str) else none
  | _ => none

def Directive.authTypeOf (d : Directive) : Option NgxStr :=
  match d.u with
  | .authType str => some str
  | _ => none

def Directive.authNameOf (d : Directive) : Option NgxStr :=
  match d.u with
  | .authName str => some str
  | _ => none

def Directive.authUserFileOf (d : Directive) : Option NgxStr :=
  match d.u with
  | .authUserFile str => some str
  | _ => none

def Directive.orderOf (d : Directive) : Option NgxStr :=
  match d.u with
  | .order str => some str
  | _ => none

def Directive.allowOf (d : Directive) : Option NgxStr :=
  match d.u with
  | .allow str => some str
  | _ => none

def Directive.denyOf (d : Directive) : Option NgxStr :=
  match d.u with
  | .deny str => some str
  | _ => none

def Directive.headerOf (d : Directive) : Option Header :=
  match d.u with
  | .header h => some h
  | _ => none

def Directive.expiresActiveOf (d : Directive) : Option Bool :=
  match d.u with
  | .expiresActive flag => some flag
  | _ => none

def Directive.expiresByTypeOf (d : Directive) : Option Header :=
  match d.u with
  | .expiresByType h => some h
  | _ => none

def Directive.expiresDefaultOf (d : Directive) : Option NgxStr :=
  match d.u with
  | .expiresDefault str => some str
  | _ => none

def Directive.errorDocumentOf (d : Directive) : Option ErrorDocument :=
  match d.u with
  | .errorDocument doc => some doc
  | _ => none

def Directive.optionsOf (d : Directive) : Option Bool :=
  match d.u with
  | .options flag => some flag
  | _ => none

def Directive.directoryIndexOf (d : Directive) : Option NgxStr :=
  match d.u with
  | .directoryIndex str => some str
  | _ => none

theorem requireOf_eq_none {d : Directive} (h : d.u.id ≠ .require) : d.requireOf = none := by
  obtain ⟨scope, u⟩ := d
  cases u <;> first | rfl | exact absurd rfl h

theorem filesRule_eq_none {d : Directive} (h : d.u.id ≠ .require) : d.filesRule = none := by
  obtain ⟨scope, u⟩ := d
  cases u <;> first | rfl | exact absurd rfl h

end Select

/-- The merge of a directive, field by field. -/
theorem mergeGlobal_eq (m : MergedCtx) (d : Directive) :
    mergeGlobal m d = {
      dirs := m.dirs
      authType := d.authTypeOf.getD m.authType
      authName := d.authNameOf.getD m.authName
      authUserFile := d.authUserFileOf.getD m.authUserFile
      requires := d.requireOf.toList.foldl ngxArrayPush m.requires
      order := d.orderOf.getD m.order
      allows := d.allowOf.toList.foldl ngxArrayPush m.allows
      denies := d.denyOf.toList.foldl ngxArrayPush m.denies
      headers := d.headerOf.toList.foldl ngxArrayPush m.headers
      expiresActive := d.expiresActiveOf.getD m.expiresActive
      expiresByType := d.expiresByTypeOf.toList.foldl ngxArrayPush m.expiresByType
      expiresDefault := d.expiresDefaultOf.getD m.expiresDefault
      errorDocuments := d.errorDocumentOf.toList.foldl ngxArrayPush m.errorDocuments
      options := d.optionsOf.elim m.options (m.options || ·)
      directoryIndex := d.directoryIndexOf.getD m.directoryIndex
      filesRules := d.filesRule.toList.foldl ngxArrayPush m.filesRules } := by
  obtain ⟨scope, u⟩ := d
  cases u with
  | require str =>
      by_cases hscope : scope ≠ [] <;>
        simp only [mergeGlobal, htaccessMergeDirective, Directive.requireOf, Directive.filesRule,
          if_pos hscope, if_neg hscope] <;> rfl
  | _ => rfl

section Fields
variable (chain : List ChainFile)

theorem mergeChain_requires :
    (mergeChain chain).requires =
      ((chainDirectives chain).filterMap Directive.requireOf).foldl ngxArrayPush none := by
  rw [mergeChain_eq]
  exact foldl_collect (fun m d => congrArg MergedCtx.requires (mergeGlobal_eq m d)) _ {}

theorem mergeChain_filesRules :
    (mergeChain chain).filesRules =
      ((chainDirectives chain).filterMap Directive.filesRule).foldl ngxArrayPush none := by
  rw [mergeChain_eq]
  exact foldl_collect (fun m d => congrArg MergedCtx.filesRules (mergeGlobal_eq m d)) _ {}

theorem mergeChain_errorDocuments :
    (mergeChain chain).errorDocuments =
      ((chainDirectives chain).filterMap Directive.errorDocumentOf).foldl ngxArrayPush none := by
  rw [mergeChain_eq]
  exact foldl_collect (fun m d => congrArg MergedCtx.errorDocuments (mergeGlobal_eq m d)) _ {}

end Fields

end NgxHtaccess
