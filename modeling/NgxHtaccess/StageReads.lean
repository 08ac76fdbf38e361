import NgxHtaccess.AlikeLists
import NgxHtaccess.Stateless

/-!
The stages of a pass, and the directives that each of them reads.

A stage answers alike for two contexts whose files agree on the directives of its
kinds, whatever else is in them; and two passes end alike when every stage that the
first one comes to answers alike.
-/
namespace NgxHtaccess
open BoundedLoop

inductive Stage where
  | deny | aliases | rewrite | access | document | headers
  deriving DecidableEq

/-- The kinds of the directives that a stage reads. -/
def Stage.kinds : Stage → List DirectiveId
  | .deny => [.require]
  | .aliases => [.redirect, .redirectMatch, .redirectPermanent, .redirectTemp]
  | .rewrite => [.rewriteEngine, .rewriteBase, .rewriteCond, .rewriteRule]
  | .access => [.authType, .authName, .authUserFile, .require, .order, .allow, .deny]
  | .document => [.errorDocument]
  | .headers => [.header, .expiresActive, .expiresByType]

section Answers
variable (sys sys' : Sys) (conf : LocConf) (requestUri : NgxStr) (m m' : MergedCtx) (s : SpecState)

/-- A deny rule ends the pass at once. -/
def SpecState.Denied : Prop :=
  s.first ∧ htaccessApplyFilesDeny sys m requestUri = .forbidden

def SpecState.rewritten : HtaccessResult × Request × RequestState :=
  htaccessApplyRewrite sys conf s.r m s.state

def SpecState.access : HtaccessResult × Request :=
  htaccessApplyAuth sys (s.rewritten sys conf m).2.1 m

/-- The pass comes to the access check. -/
structure SpecState.Checks : Prop where
  denied : ¬ s.Denied sys requestUri m
  aliased : (htaccessApplyAlias sys m s.state).1 ≠ .redirect
  redirected : (s.rewritten sys conf m).1 ≠ .redirect
  restarted : (s.rewritten sys conf m).1 ≠ .ok

/-- The pass comes to the stage. -/
def Stage.Reached : Stage → Prop
  | .deny => s.first
  | .aliases => ¬ s.Denied sys requestUri m
  | .rewrite => ¬ s.Denied sys requestUri m ∧ (htaccessApplyAlias sys m s.state).1 ≠ .redirect
  | .access => s.Checks sys conf requestUri m
  | .document => s.Checks sys conf requestUri m ∧ refusalCode (s.access sys conf m).1 ≠ none
  | .headers => s.Checks sys conf requestUri m ∧ refusalCode (s.access sys conf m).1 = none

/-- What the stage answers in the one context it answers in the other. -/
def Stage.Agrees : Stage → Prop
  | .deny => htaccessApplyFilesDeny sys m requestUri = htaccessApplyFilesDeny sys' m' requestUri
  | .aliases => htaccessApplyAlias sys m s.state = htaccessApplyAlias sys' m' s.state
  | .rewrite => s.rewritten sys conf m = s.rewritten sys' conf m'
  | .access =>
      htaccessApplyAuth sys (s.rewritten sys conf m).2.1 m =
        htaccessApplyAuth sys' (s.rewritten sys conf m).2.1 m'
  | .document =>
      ∀ code ∈ refusalCode (s.access sys conf m).1,
        htaccessErrorUri m code = htaccessErrorUri m' code
  | .headers =>
      servedHeaders m (s.access sys conf m).2.contentType =
        servedHeaders m' (s.access sys conf m).2.contentType

instance Stage.Agrees.decidable : ∀ stage : Stage,
    Decidable (stage.Agrees sys sys' conf requestUri m m' s)
  | .deny | .aliases | .rewrite | .access | .headers => inferInstanceAs (Decidable (_ = _))
  | .document => inferInstanceAs (Decidable (∀ code ∈ refusalCode _, _))

variable {sys sys' conf requestUri m m' s}

end Answers

section Parts

def MergedCtx.accessPart (m : MergedCtx) : MergedCtx where
  authType := m.authType
  authName := m.authName
  authUserFile := m.authUserFile
  requires := m.requires
  order := m.order
  allows := m.allows
  denies := m.denies
  filesRules := m.filesRules

def MergedCtx.headersPart (m : MergedCtx) : MergedCtx where
  headers := m.headers
  expiresActive := m.expiresActive
  expiresByType := m.expiresByType

/-- The contexts have in common what the stage reads. -/
def Stage.Same (m m' : MergedCtx) : Stage → Prop
  | .deny => m.filesRules = m'.filesRules
  | .aliases => List.Forall₂ (fun dir dir' : DirCtx => dir.aliases = dir'.aliases) m.dirs m'.dirs
  | .rewrite => List.Forall₂ SameRules m.dirs m'.dirs
  | .access => m.accessPart = m'.accessPart
  | .document => m.errorDocuments = m'.errorDocuments
  | .headers => m.headersPart = m'.headersPart

variable {sys : Sys} {fs' : FileSystem} {conf : LocConf} {requestUri : NgxStr} {m m' : MergedCtx}
  {s : SpecState} {stage : Stage}

end Parts

section Lists

/-- The directive without a scope that the merge does not ask for. -/
def Directive.unscoped (d : Directive) : Directive :=
  if d.u.id = .require then d else { d with filesMatch := [] }

/-- What a stage sees of a directive. -/
def Stage.sees (stage : Stage) (d : Directive) : Option Directive :=
  if d.u.id ∈ stage.kinds then some d.unscoped else none

/-- The stage sees the same of both lists. -/
def Stage.SeesSame (stage : Stage) (ds ds' : List Directive) : Prop :=
  ds.filterMap stage.sees = ds'.filterMap stage.sees

variable {stage : Stage} {ds ds' : List Directive}

theorem Stage.SeesSame.filterMap {α : Type} (h : stage.SeesSame ds ds')
    {pick : Directive → Option α} (hpick : ∀ d, pick d = (stage.sees d).bind pick) :
    ds.filterMap pick = ds'.filterMap pick := by
  have hgo : ∀ ds : List Directive,
      ds.filterMap pick = (ds.filterMap stage.sees).filterMap pick := by
    intro ds
    rw [List.filterMap_filterMap]
    exact congrArg (List.filterMap · ds) (funext hpick)
  rw [hgo ds, hgo ds', h]

theorem Stage.SeesSame.collect {α : Type} (h : stage.SeesSame ds ds')
    {field : MergedCtx → Option (List α)} {pick : Directive → Option α}
    (hfield : ∀ m d, field (mergeGlobal m d) = (pick d).toList.foldl ngxArrayPush (field m))
    (hpick : ∀ d, pick d = (stage.sees d).bind pick) {m m' : MergedCtx} (hm : field m = field m') :
    field (ds.foldl mergeGlobal m) = field (ds'.foldl mergeGlobal m') := by
  rw [foldl_collect hfield, foldl_collect hfield, h.filterMap hpick, hm]

theorem Stage.SeesSame.overwrite {α : Type} (h : stage.SeesSame ds ds')
    {field : MergedCtx → α} {pick : Directive → Option α}
    (hfield : ∀ m d, field (mergeGlobal m d) = (pick d).getD (field m))
    (hpick : ∀ d, pick d = (stage.sees d).bind pick) {m m' : MergedCtx} (hm : field m = field m') :
    field (ds.foldl mergeGlobal m) = field (ds'.foldl mergeGlobal m') := by
  rw [foldl_overwrite hfield, foldl_overwrite hfield, h.filterMap hpick, hm]

/-- Merging files keeps in common what a stage reads when it sees the same of both. -/
theorem Stage.Same.mergeFile {m m' : MergedCtx} (h : stage.Same m m') (d : WalkDir)
    (hds : stage.SeesSame ds ds') : stage.Same (mergeFile m ⟨d, ds⟩) (mergeFile m' ⟨d, ds'⟩) := by
  cases stage with
  | deny =>
      exact hds.collect (fun m d => congrArg MergedCtx.filesRules (mergeGlobal_eq m d))
        (by rintro ⟨scope, u⟩; cases u <;> rfl) h
  | aliases =>
      have hpick : ds.filterMap Directive.aliasOf = ds'.filterMap Directive.aliasOf :=
        hds.filterMap (by rintro ⟨scope, u⟩; cases u <;> rfl)
      refine List.rel_append h (.cons ?_ .nil)
      simp only [ChainFile.dirCtx, foldl_mergeLocal_aliases, hpick]
  | rewrite =>
      exact List.rel_append h (.cons (sameRules_of_selectors
        (hds.filterMap (by rintro ⟨scope, u⟩; cases u <;> rfl))
        (hds.filterMap (by rintro ⟨scope, u⟩; cases u <;> rfl))
        (hds.filterMap (by rintro ⟨scope, u⟩; cases u <;> rfl)) d) .nil)
  | access =>
      have hpart : ∀ {α : Type} (field : MergedCtx → α),
          (∀ m : MergedCtx, field m.accessPart = field m) → field m = field m' := by
        intro α field hfield
        rw [← hfield m, show m.accessPart = m'.accessPart from h, hfield]
      have htype := hds.overwrite (fun m d => congrArg MergedCtx.authType (mergeGlobal_eq m d))
        (by rintro ⟨scope, u⟩; cases u <;> rfl) (hpart MergedCtx.authType fun _ => rfl)
      have hname := hds.overwrite (fun m d => congrArg MergedCtx.authName (mergeGlobal_eq m d))
        (by rintro ⟨scope, u⟩; cases u <;> rfl) (hpart MergedCtx.authName fun _ => rfl)
      have hfile := hds.overwrite (fun m d => congrArg MergedCtx.authUserFile (mergeGlobal_eq m d))
        (by rintro ⟨scope, u⟩; cases u <;> rfl) (hpart MergedCtx.authUserFile fun _ => rfl)
      have hrequires := hds.collect (fun m d => congrArg MergedCtx.requires (mergeGlobal_eq m d))
        (by rintro ⟨scope, u⟩; cases u <;> rfl) (hpart MergedCtx.requires fun _ => rfl)
      have horder := hds.overwrite (fun m d => congrArg MergedCtx.order (mergeGlobal_eq m d))
        (by rintro ⟨scope, u⟩; cases u <;> rfl) (hpart MergedCtx.order fun _ => rfl)
      have hallows := hds.collect (fun m d => congrArg MergedCtx.allows (mergeGlobal_eq m d))
        (by rintro ⟨scope, u⟩; cases u <;> rfl) (hpart MergedCtx.allows fun _ => rfl)
      have hdenies := hds.collect (fun m d => congrArg MergedCtx.denies (mergeGlobal_eq m d))
        (by rintro ⟨scope, u⟩; cases u <;> rfl) (hpart MergedCtx.denies fun _ => rfl)
      have hrules := hds.collect (fun m d => congrArg MergedCtx.filesRules (mergeGlobal_eq m d))
        (by rintro ⟨scope, u⟩; cases u <;> rfl) (hpart MergedCtx.filesRules fun _ => rfl)
      simp only [Stage.Same, MergedCtx.accessPart, NgxHtaccess.mergeFile, htype, hname, hfile,
        hrequires, horder, hallows, hdenies, hrules]
  | document =>
      exact hds.collect (fun m d => congrArg MergedCtx.errorDocuments (mergeGlobal_eq m d))
        (by rintro ⟨scope, u⟩; cases u <;> rfl) h
  | headers =>
      have hpart : ∀ {α : Type} (field : MergedCtx → α),
          (∀ m : MergedCtx, field m.headersPart = field m) → field m = field m' := by
        intro α field hfield
        rw [← hfield m, show m.headersPart = m'.headersPart from h, hfield]
      have hset := hds.collect (fun m d => congrArg MergedCtx.headers (mergeGlobal_eq m d))
        (by rintro ⟨scope, u⟩; cases u <;> rfl) (hpart MergedCtx.headers fun _ => rfl)
      have hactive := hds.overwrite
        (fun m d => congrArg MergedCtx.expiresActive (mergeGlobal_eq m d))
        (by rintro ⟨scope, u⟩; cases u <;> rfl) (hpart MergedCtx.expiresActive fun _ => rfl)
      have hexpires := hds.collect
        (fun m d => congrArg MergedCtx.expiresByType (mergeGlobal_eq m d))
        (by rintro ⟨scope, u⟩; cases u <;> rfl) (hpart MergedCtx.expiresByType fun _ => rfl)
      simp only [Stage.Same, MergedCtx.headersPart, NgxHtaccess.mergeFile, hset, hactive, hexpires]

end Lists

section Runs
variable {T : Stage → Prop} {sys : Sys} {fs' : FileSystem} {conf : LocConf}
  {requestUri : NgxStr}

/-- The stages but for some see the same of both lists. -/
def AlikeBut (T : Stage → Prop) (ds ds' : List Directive) : Prop :=
  ∀ stage, ¬ T stage → Stage.SeesSame stage ds ds'

theorem AlikeBut.refl (T : Stage → Prop) (ds : List Directive) : AlikeBut T ds ds :=
  fun _ _ => rfl

end Runs

end NgxHtaccess
