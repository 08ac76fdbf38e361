import NgxHtaccess.UriMirror
import NgxHtaccess.DirectoryChain

/-!
The subject of a rule in its directory. The prefix of the directory is cut off by its length,
from a URI that an earlier rule of the pass may have replaced; and the root directory gets
the URI `/` whole, where a directory below it gets the empty string.
-/
namespace NgxHtaccess
open BoundedLoop Scan

section Subject
variable {uri urlPrefix : NgxStr}

/-- The subject law: the URI is the prefix of the directory, a slash and the subject. -/
def SubjectLaw (uri urlPrefix : NgxStr) : Prop :=
  urlPrefix ++ ch '/' :: htaccessRelativeUri uri urlPrefix = uri

instance (uri urlPrefix : NgxStr) : Decidable (SubjectLaw uri urlPrefix) :=
  inferInstanceAs (Decidable (_ = _))

theorem subjectLaw_iff :
    SubjectLaw uri urlPrefix ↔
      urlPrefix ++ [ch '/'] <+: uri ∧ ¬ (urlPrefix = [] ∧ uri = [ch '/']) := by
  constructor
  · intro h
    refine ⟨⟨htaccessRelativeUri uri urlPrefix, ?_⟩, ?_⟩
    · rw [List.append_assoc]
      exact h
    · rintro ⟨rfl, rfl⟩
      revert h
      decide
  · rintro ⟨⟨rest, rfl⟩, hroot⟩
    have hdrop : (urlPrefix ++ [ch '/'] ++ rest).drop urlPrefix.length = ch '/' :: rest := by
      rw [List.append_assoc, List.drop_left]
      rfl
    have hslash : dropSlash (ch '/' :: rest) = rest := by rw [dropSlash, if_pos rfl]
    unfold SubjectLaw htaccessRelativeUri
    by_cases hrooted : urlPrefix = []
    · subst hrooted
      have hlong : 1 < ([] ++ [ch '/'] ++ rest : NgxStr).length := by
        cases rest with
        | nil => exact absurd ⟨rfl, rfl⟩ hroot
        | cons c rest => simp
      rw [if_pos (.inl rfl), if_pos hlong]
      show ch '/' :: dropSlash (ch '/' :: rest) = _
      rw [hslash]
      rfl
    · have hlen : ¬ (urlPrefix ++ [ch '/'] ++ rest).length ≤ urlPrefix.length := by
        simp only [List.length_append, List.length_singleton]
        omega
      rw [if_neg (not_or.mpr ⟨hrooted, hlen⟩), hdrop, hslash, List.append_assoc]
      rfl

end Subject

section Walk
variable (sys : Sys) (conf : LocConf)

theorem loadChain_dir {w : Worker} {ds : List WalkDir} {f : ChainFile}
    (h : f ∈ loadChain sys conf w ds) : f.dir ∈ ds := by
  induction ds generalizing w with
  | nil => cases h
  | cons d ds ih =>
      rw [loadChain, List.mem_append, Option.mem_toList] at h
      rcases h with hfirst | hlater
      · unfold loadedFile at hfirst
        split at hfirst
        split at hfirst
        · cases hfirst
        · cases hfirst
          exact List.mem_cons_self
      · exact List.mem_cons_of_mem d (ih hlater)

theorem walkDirs_prefix {uri : NgxStr} {d : WalkDir} (h : d ∈ walkDirs conf uri) :
    d.urlPrefix = [] ∨ d.urlPrefix ++ [ch '/'] <+: uri := by
  rcases List.mem_cons.mp h with rfl | hbelow
  · exact .inl rfl
  · obtain ⟨i, hi, rfl⟩ := List.mem_map.mp hbelow
    obtain ⟨hlt, -, hslash⟩ := mem_walkStops.mp hi
    refine .inr ⟨uri.drop (i + 1), ?_⟩
    show uri.take i ++ [ch '/'] ++ uri.drop (i + 1) = uri
    rw [List.getD_eq_getElem _ _ hlt] at hslash
    rw [← hslash, List.append_assoc, List.singleton_append, ← List.drop_eq_getElem_cons hlt,
      List.take_append_drop]

theorem passCtx_prefix {s : LoopState} {dir : DirCtx} (h : dir ∈ (passCtx sys conf s).dirs) :
    dir.urlPrefix = [] ∨ dir.urlPrefix ++ [ch '/'] <+: s.r.uri := by
  rw [passCtx, htaccessBuildMergedCtx_eq, mergeChain_eq] at h
  obtain ⟨f, hf, rfl⟩ := List.mem_map.mp h
  have hplace : f.dirCtx.urlPrefix = f.dir.urlPrefix := congrArg Prod.snd (dirCtx_place f)
  rw [hplace]
  exact walkDirs_prefix conf (loadChain_dir sys conf hf)

end Walk

section Pass
variable (sys : Sys) (conf : LocConf) {s : LoopState}

/-- The rule gets as far as its regex, which is handed the subject. -/
def HandsSubject (y : (DirCtx × RewriteRule) × RewriteState) : Prop :=
  (y.1.2.chainIn && !y.2.chainActive) = false ∧
    sys.regexCompile y.1.2.pattern y.1.2.nocase = true ∧
    htaccessMatchConditions sys conf y.2.r y.2.state y.1.2 = ngxOk

instance (y : (DirCtx × RewriteRule) × RewriteState) : Decidable (HandsSubject sys conf y) :=
  inferInstanceAs (Decidable (_ ∧ _ ∧ _))

/-- A rule after these has the subject of its directory: the target that they wrote last, if
they wrote one, leads into the directory; a pass of the root starts on a path; and the root
is not at `/` itself. -/
structure SubjectKept (s : LoopState) (before : List ((DirCtx × RewriteRule) × RewriteState))
    (y : (DirCtx × RewriteRule) × RewriteState) : Prop where
  written : ∀ out ∈ (before.filterMap (stepTarget sys conf)).getLast?,
    y.1.1.urlPrefix ++ [ch '/'] <+: targetUri out
  start : before.filterMap (stepTarget sys conf) = [] → y.1.1.urlPrefix = [] →
    s.r.uri.head? = some (ch '/')
  notRoot : y.1.1.urlPrefix = [] → y.2.state.uri ≠ [ch '/']

theorem step_uri {before after : List ((DirCtx × RewriteRule) × RewriteState)}
    {y : (DirCtx × RewriteRule) × RewriteState}
    (hsteps : ruleSteps sys conf s = before ++ y :: after) :
    y.2.state.uri =
      ((before.filterMap (stepTarget sys conf)).getLast?.map targetUri).getD s.state.uri := by
  have hstep : ∀ x t u, ruleStep sys conf x t = .again u →
      u.state.uri = ((stepTarget sys conf (x, t)).map targetUri).getD t.state.uri := by
    intro x t u hround
    have hcase := tryRule_case sys conf x.1 x.2 t
    unfold ruleStep at hround
    unfold stepTarget
    generalize tryRule sys conf x.1 x.2 t = outcome at hcase hround
    cases hcase with
    | kept _ hnone _ hstate hkind =>
        obtain ⟨env, henv⟩ := hstate
        rcases hkind with h | h | h <;> rw [h] at hround <;> cases hround
        rw [hnone, henv]
        rfl
    | redirected v _ _ _ => cases hround
    | wrote out env v hsome heq =>
        have huri : v.state.uri = targetUri out := congrArg (fun p => p.2.uri) heq
        rw [hsome]
        split at hround
        · cases hround
        · cases hround
          exact huri
  rw [← List.getLast?_map, List.map_filterMap]
  exact trace_overwrite (fun t : RewriteState => t.state.uri)
    (fun y => (stepTarget sys conf y).map targetUri) hstep hsteps

/-- The URI of the pass leads into the directory of every rule that is tried, unless that is
the root. -/
theorem ruleSteps_prefix {y : (DirCtx × RewriteRule) × RewriteState}
    (hy : y ∈ ruleSteps sys conf s) :
    y.1.1.urlPrefix = [] ∨ y.1.1.urlPrefix ++ [ch '/'] <+: s.r.uri := by
  obtain ⟨dir, hdir, hrule⟩ := List.mem_flatMap.mp (mem_of_mem_trace hy)
  split at hrule
  · obtain ⟨rule, -, heq⟩ := List.mem_map.mp hrule
    rw [← heq]
    exact passCtx_prefix sys conf hdir
  · cases hrule

theorem slash_prefix_iff {uri : NgxStr} : [ch '/'] <+: uri ↔ uri.head? = some (ch '/') := by
  cases uri with
  | nil => simp
  | cons c rest => simp [eq_comm]

/-- In a pass that starts on the URI of its request a rule has the subject of its directory
exactly when the rules before it have kept it. -/
theorem subject_step_iff (hm : Mirrored s.r s.state)
    {before after : List ((DirCtx × RewriteRule) × RewriteState)}
    {y : (DirCtx × RewriteRule) × RewriteState}
    (hsteps : ruleSteps sys conf s = before ++ y :: after) :
    SubjectLaw y.2.state.uri y.1.1.urlPrefix ↔ SubjectKept sys conf s before y := by
  have huri := step_uri sys conf hsteps
  have hdir := ruleSteps_prefix sys conf
    (hsteps ▸ List.mem_append_right before List.mem_cons_self : y ∈ ruleSteps sys conf s)
  rw [subjectLaw_iff, not_and]
  cases hlast : (before.filterMap (stepTarget sys conf)).getLast? with
  | none =>
      have hnone := List.getLast?_eq_none_iff.mp hlast
      rw [hlast, Option.map_none, Option.getD_none, hm.uri] at huri
      constructor
      · rintro ⟨hstart, hne⟩
        refine ⟨fun out hout => ?_, fun _ hrooted => ?_, hne⟩
        · rw [hlast] at hout
          cases hout
        · rw [hrooted, huri] at hstart
          exact slash_prefix_iff.mp hstart
      · intro h
        refine ⟨?_, h.notRoot⟩
        rw [huri]
        rcases hdir with hrooted | hbelow
        · rw [hrooted]
          exact slash_prefix_iff.mpr (h.start hnone hrooted)
        · exact hbelow
  | some out =>
      have hsome : before.filterMap (stepTarget sys conf) ≠ [] := by
        intro hnil
        rw [hnil] at hlast
        cases hlast
      rw [hlast, Option.map_some, Option.getD_some] at huri
      constructor
      · rintro ⟨hinto, hne⟩
        refine ⟨fun out' hout => ?_, fun hnil => absurd hnil hsome, hne⟩
        cases Option.mem_unique hlast hout
        rwa [← huri]
      · intro h
        refine ⟨?_, h.notRoot⟩
        rw [huri]
        exact h.written out hlast

end Pass

/-- A property of the rules that a run tries, in each pass that gets to the engine, with the
rules that the pass has tried before. -/
def EachRule (sys : Sys) (conf : LocConf) (r : Request) (w : Worker)
    (P : LoopState → List ((DirCtx × RewriteRule) × RewriteState) →
      (DirCtx × RewriteRule) × RewriteState → Prop) : Prop :=
  ∀ s, Visits (htaccessPass sys conf r.uri) conf.maxRedirects (.initial conf r w) s →
    RunsEngine sys conf r.uri s →
    ∀ before y after, ruleSteps sys conf s = before ++ y :: after → P s before y

/-- In a run every rule that is tried has the subject of its directory exactly when the rules
before it have kept it; so has every rule that gets as far as its regex. -/
theorem directory_subject_iff (sys : Sys) (conf : LocConf) (r : Request) (w : Worker) :
    (EachRule sys conf r w (fun _ _ y => SubjectLaw y.2.state.uri y.1.1.urlPrefix) ↔
      EachRule sys conf r w (SubjectKept sys conf)) ∧
    (EachRule sys conf r w
        (fun _ _ y => HandsSubject sys conf y → SubjectLaw y.2.state.uri y.1.1.urlPrefix) ↔
      EachRule sys conf r w
        fun s before y => HandsSubject sys conf y → SubjectKept sys conf s before y) := by
  have hrule : ∀ s, Visits (htaccessPass sys conf r.uri) conf.maxRedirects (.initial conf r w) s →
      ∀ before y after, ruleSteps sys conf s = before ++ y :: after →
        (SubjectLaw y.2.state.uri y.1.1.urlPrefix ↔ SubjectKept sys conf s before y) := by
    intro s hvisit before y after hsteps
    exact subject_step_iff sys conf (passStart_of_visits sys conf r w hvisit).mirrored hsteps
  constructor
  · exact forall₃_congr fun s hvisit _ => forall₄_congr fun before y after hsteps =>
      hrule s hvisit before y after hsteps
  · exact forall₃_congr fun s hvisit _ => forall₄_congr fun before y after hsteps =>
      imp_congr_right fun _ => hrule s hvisit before y after hsteps

/-- A directory whose first rule leads out of it. -/
def leavingFiles : List (String × String) :=
  [("/w/a/.htaccess", "RewriteEngine On\nRewriteRule old /new\nRewriteRule new /x\n")]

/-- The second rule of `/a` is handed the end of `/new`. -/
theorem subject_of_other_directory :
    ¬ EachRule (siteSys (siteFs 0 leavingFiles)) (siteConf 10) (siteRequest "/a/old") (siteWorker 0)
      fun _ _ y => HandsSubject (siteSys (siteFs 0 leavingFiles)) (siteConf 10) y →
        SubjectLaw y.2.state.uri y.1.1.urlPrefix := by
  intro hall
  have hruns : RunsEngine (siteSys (siteFs 0 leavingFiles)) (siteConf 10) (lit "/a/old")
      (.initial (siteConf 10) (siteRequest "/a/old") (siteWorker 0)) := by
    decide +kernel
  have hsteps : ∀ y ∈ ruleSteps (siteSys (siteFs 0 leavingFiles)) (siteConf 10)
      (.initial (siteConf 10) (siteRequest "/a/old") (siteWorker 0)),
      HandsSubject (siteSys (siteFs 0 leavingFiles)) (siteConf 10) y →
        SubjectLaw y.2.state.uri y.1.1.urlPrefix := by
    intro y hy
    obtain ⟨before, after, heq⟩ := List.append_of_mem hy
    exact hall _ (.here 9 _) hruns before y after heq
  revert hsteps
  decide +kernel

end NgxHtaccess
