import NgxHtaccess.Lib.OptionRel
import NgxHtaccess.Simulation
import NgxHtaccess.Site

/-!
When two lists of directives are alike.

A directory keeps its rules and its redirects in one array. The engines read the
rules in their order and the redirects in theirs, and the chain marks link a rule
to the rule before it, whatever stands between them; so a list acts on its
directory through its rules, its redirects and the last of either switch.
-/
namespace NgxHtaccess

/-- The chain marks on the rules alone. -/
def markRules (chained : Bool) : List RewriteRule → List RewriteRule
  | [] => []
  | rule :: rules =>
      { rule with chainIn := rule.chainIn || chained } :: markRules rule.chain rules

theorem markChains_rules (chained : Bool) (ds : List Directive) :
    (markChains chained ds).filterMap Directive.ruleOf =
      markRules chained (ds.filterMap Directive.ruleOf) := by
  induction ds generalizing chained with
  | nil => rfl
  | cons d ds ih =>
      rw [markChains]
      cases hu : d.u with
      | rewriteRule rule => simp only [Directive.ruleOf, hu, List.filterMap_cons, markRules, ih]
      | _ => simp only [Directive.ruleOf, hu, List.filterMap_cons, ih]

theorem markChains_aliases (chained : Bool) (ds : List Directive) :
    (markChains chained ds).filterMap Directive.aliasOf = ds.filterMap Directive.aliasOf := by
  induction ds generalizing chained with
  | nil => rfl
  | cons d ds ih =>
      rw [markChains]
      cases hu : d.u with
      | rewriteRule rule => simp only [Directive.aliasOf, hu, List.filterMap_cons, ih]
      | _ => simp only [Directive.aliasOf, hu, List.filterMap_cons, ih]

theorem markRules_marked (chained : Bool) (rules rules' : List RewriteRule) :
    markRules chained (markRules chained rules ++ rules') =
      markRules chained (rules ++ rules') := by
  induction rules generalizing chained with
  | nil => rfl
  | cons rule rules ih =>
      simp only [markRules, List.cons_append, ih, Bool.or_assoc, Bool.or_self]

section Local

def Directive.engineOf (d : Directive) : Option Bool :=
  match d.u with
  | .rewriteEngine flag => some flag
  | _ => none

def Directive.baseOf (d : Directive) : Option NgxStr :=
  match d.u with
  | .rewriteBase str => some str
  | _ => none

def pushLocal (directives : Option (List Directive)) (d : Directive) : Option (List Directive) :=
  match d.u with
  | .rewriteRule _ => (ngxArrayPush directives d).map htaccessMarkRewriteChains
  | .redirect _ | .redirectMatch _ | .redirectPermanent _ | .redirectTemp _ =>
      ngxArrayPush directives d
  | _ => directives

theorem mergeLocal_eq (dir : DirCtx) (d : Directive) :
    mergeLocal dir d = { dir with
      rewriteEngine := d.engineOf.getD dir.rewriteEngine
      rewriteBase := d.baseOf.getD dir.rewriteBase
      directives := pushLocal dir.directives d } := by
  obtain ⟨scope, u⟩ := d
  cases u with
  | require str =>
      simp only [mergeLocal, htaccessMergeDirective]
      split <;> rfl
  | _ => rfl

theorem pushLocal_aliases (directives : Option (List Directive)) (d : Directive) :
    ((pushLocal directives d).getD []).filterMap Directive.aliasOf =
      (directives.getD []).filterMap Directive.aliasOf ++ d.aliasOf.toList := by
  unfold pushLocal
  cases hu : d.u with
  | rewriteRule rule =>
      simp only [ngxArrayPush, Option.map_some, Option.getD_some, htaccessMarkRewriteChains,
        markChains_aliases, List.filterMap_append, Directive.aliasOf, hu, List.filterMap_cons,
        List.filterMap_nil, Option.toList_none]
  | redirect redir | redirectMatch redir | redirectPermanent redir | redirectTemp redir =>
      simp only [ngxArrayPush_getD, List.filterMap_append, Directive.aliasOf, hu,
        List.filterMap_cons, List.filterMap_nil, Option.toList_some]
  | _ => simp only [Directive.aliasOf, hu, Option.toList_none, List.append_nil]

theorem pushLocal_rules {directives : Option (List Directive)} {rules : List RewriteRule}
    (h : (directives.getD []).filterMap Directive.ruleOf = markRules false rules)
    (d : Directive) :
    ((pushLocal directives d).getD []).filterMap Directive.ruleOf =
      markRules false (rules ++ d.ruleOf.toList) := by
  unfold pushLocal
  cases hu : d.u with
  | rewriteRule rule =>
      simp only [ngxArrayPush, Option.map_some, Option.getD_some, htaccessMarkRewriteChains,
        markChains_rules, List.filterMap_append, h, markRules_marked, Directive.ruleOf, hu,
        List.filterMap_cons, List.filterMap_nil, Option.toList_some]
  | redirect redir | redirectMatch redir | redirectPermanent redir | redirectTemp redir =>
      simp only [ngxArrayPush_getD, List.filterMap_append, Directive.ruleOf, hu, h,
        List.filterMap_cons, List.filterMap_nil, Option.toList_none, List.append_nil]
  | _ => simp only [Directive.ruleOf, hu, h, Option.toList_none, List.append_nil]

variable (ds : List Directive)

theorem foldl_mergeLocal_urlPrefix (dir : DirCtx) :
    (ds.foldl mergeLocal dir).urlPrefix = dir.urlPrefix := by
  induction ds generalizing dir with
  | nil => rfl
  | cons d ds ih => rw [List.foldl_cons, ih, mergeLocal_eq]

theorem foldl_mergeLocal_aliases (dir : DirCtx) :
    (ds.foldl mergeLocal dir).aliases = dir.aliases ++ ds.filterMap Directive.aliasOf := by
  induction ds generalizing dir with
  | nil => simp only [List.foldl_nil, List.filterMap_nil, List.append_nil]
  | cons d ds ih =>
      rw [List.foldl_cons, ih, mergeLocal_eq, List.filterMap_cons]
      simp only [DirCtx.aliases, pushLocal_aliases, List.append_assoc]
      cases d.aliasOf <;> rfl

theorem foldl_mergeLocal_rules {dir : DirCtx} {rules : List RewriteRule}
    (h : dir.rules = markRules false rules) :
    (ds.foldl mergeLocal dir).rules = markRules false (rules ++ ds.filterMap Directive.ruleOf) := by
  induction ds generalizing dir rules with
  | nil => simpa only [List.foldl_nil, List.filterMap_nil, List.append_nil] using h
  | cons d ds ih =>
      have hnext : (mergeLocal dir d).rules = markRules false (rules ++ d.ruleOf.toList) := by
        rw [mergeLocal_eq]
        exact pushLocal_rules h d
      rw [List.foldl_cons, ih hnext, List.filterMap_cons, List.append_assoc]
      cases d.ruleOf <;> rfl

end Local

theorem sameRules_of_selectors {ds ds' : List Directive}
    (hrules : ds.filterMap Directive.ruleOf = ds'.filterMap Directive.ruleOf)
    (hengine : ds.filterMap Directive.engineOf = ds'.filterMap Directive.engineOf)
    (hbase : ds.filterMap Directive.baseOf = ds'.filterMap Directive.baseOf) (d : WalkDir) :
    SameRules (ds.foldl mergeLocal (.fresh d)) (ds'.foldl mergeLocal (.fresh d)) := by
  have hfresh : (DirCtx.fresh d).rules = markRules false [] := rfl
  have heng := fun ds => foldl_overwrite (fun m d => congrArg DirCtx.rewriteEngine
    (mergeLocal_eq m d)) ds (.fresh d)
  have hbas := fun ds => foldl_overwrite (fun m d => congrArg DirCtx.rewriteBase
    (mergeLocal_eq m d)) ds (.fresh d)
  refine ⟨?_, ?_, ?_, ?_⟩
  · rw [foldl_mergeLocal_urlPrefix, foldl_mergeLocal_urlPrefix]
  · rw [hbas, hbas, hbase]
  · rw [heng, heng, hengine]
  · rw [foldl_mergeLocal_rules ds hfresh, foldl_mergeLocal_rules ds' hfresh, hrules]

theorem sameDir_of_selectors {ds ds' : List Directive}
    (hrules : ds.filterMap Directive.ruleOf = ds'.filterMap Directive.ruleOf)
    (haliases : ds.filterMap Directive.aliasOf = ds'.filterMap Directive.aliasOf)
    (hengine : ds.filterMap Directive.engineOf = ds'.filterMap Directive.engineOf)
    (hbase : ds.filterMap Directive.baseOf = ds'.filterMap Directive.baseOf) (d : WalkDir) :
    SameDir (ds.foldl mergeLocal (.fresh d)) (ds'.foldl mergeLocal (.fresh d)) := by
  obtain ⟨hbegins, hbase, hengine, hrules⟩ := sameRules_of_selectors hrules hengine hbase d
  refine ⟨hbegins, hbase, hengine, hrules, ?_⟩
  rw [foldl_mergeLocal_aliases, foldl_mergeLocal_aliases, haliases]

/-- The file systems differ in the text of one file, which may have several names. -/
structure FileReplaced (fs fs' : FileSystem) (names : NgxStr → Prop) (text text' : NgxStr) :
    Prop where
  kinds : KindsAlike fs fs'
  others : ∀ path, ¬ names path → fs.openFile path = fs'.openFile path
  here : ∀ path, names path →
    fs.openFile path = some { fdSize := some text.length, read := some text }
  there : ∀ path, names path →
    fs'.openFile path = some { fdSize := some text'.length, read := some text' }

theorem FileReplaced.readsRel {sys : Sys} {fs' : FileSystem}
    {D : List Directive → List Directive → Prop} (hrefl : ∀ ds, D ds ds) {names : NgxStr → Prop}
    {text text' : NgxStr} (h : FileReplaced sys.fs fs' names text text') {path : NgxStr}
    (hparse : names path → ∀ pool, Option.Rel (FileRel D) (htaccessParse sys pool text)
      (htaccessParse sys pool text')) : ReadsRel sys fs' D path := by
  have hboth : ∀ pool,
      (htaccessParseFile sys pool path).1 = (htaccessParseFile (sys.withFs fs') pool path).1 ∧
        Option.Rel (FileRel D) (htaccessParseFile sys pool path).2
          (htaccessParseFile (sys.withFs fs') pool path).2 := by
    intro pool
    by_cases hname : names path
    · have hthere : (sys.withFs fs').fs.openFile path = _ := h.there path hname
      simp only [htaccessParseFile, h.here path hname, hthere, ne_eq, not_true_eq_false, if_false,
        htaccessParse_withFs]
      have hfiles := hparse hname pool
      generalize htaccessParse sys pool text = file at hfiles
      generalize htaccessParse sys pool text' = file' at hfiles
      cases hfiles with
      | none => exact ⟨rfl, .none⟩
      | some hfile => exact ⟨rfl, .some hfile⟩
    · rw [← htaccessParseFile_withFs sys (h.others path hname) pool]
      change _ ∧ Option.Rel _ _ (htaccessParseFile sys pool path).2
      exact ⟨rfl, OptionRel.of_eq (fun file => ⟨rfl, hrefl file.directives⟩) _⟩
  exact ⟨fun pool => (hboth pool).1, fun pool => (hboth pool).2⟩

theorem FileReplaced.readsAlike {sys : Sys} {fs' : FileSystem} {inert : FilesRule → Bool}
    {names : NgxStr → Prop} {text text' : NgxStr} (h : FileReplaced sys.fs fs' names text text')
    (hparse : ∀ pool, Option.Rel (FileRel (DirectivesAlike inert)) (htaccessParse sys pool text)
      (htaccessParse sys pool text')) : ReadsAlike sys fs' inert where
  kinds := h.kinds
  file _ := h.readsRel (.refl inert) fun _ => hparse

theorem FileReplaced.site (mtime : Int) (path text text' : String)
    (files : List (String × String)) :
    FileReplaced (siteFs mtime ((path, text) :: files)) (siteFs mtime ((path, text') :: files))
      (· = lit path) (lit text) (lit text') where
  kinds p := by
    by_cases hp : lit path = p <;> simp [siteFs, siteFile, List.find?_cons, hp, fileKind]
  others p hp := by
    have hne : ¬ lit path = p := fun h => hp h.symm
    simp [siteFs, siteFile, List.find?_cons, hne]
  here p hp := by simp [siteFs, siteFile, hp]
  there p hp := by simp [siteFs, siteFile, hp]

theorem WorkerAlike.cold {fs fs' : FileSystem} {inert : FilesRule → Bool} (maxEntries : Nat) :
    WorkerAlike fs fs' inert (siteWorker maxEntries) (siteWorker maxEntries) :=
  ⟨.nil, rfl, rfl, rfl, rfl⟩

end NgxHtaccess
