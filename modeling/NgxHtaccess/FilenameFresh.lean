import NgxHtaccess.UriMirror
import NgxHtaccess.Site

/-!
The file name of the run against its URI. The name is derived at the start and when
a rule with L or END restarts the pass; a rule without them and an ErrorDocument
change the URI alone. A condition or a template meets a stale name exactly when the
path has changed since the last derivation.
-/
namespace NgxHtaccess
open BoundedLoop Scan

def filenameOf (conf : LocConf) (uri : NgxStr) : NgxStr :=
  conf.root ++ (if conf.root.getLast? = some (ch '/') then [] else [ch '/']) ++ dropSlash uri

section Looks
variable (sys : Sys) (conf : LocConf)

/-- The states in which a rule that the engine reaches tests a condition or expands a
template: the one it is tried on, those of its E flags in turn, and the one its
substitution is expanded in. -/
inductive LooksAt (y : (DirCtx × RewriteRule) × RewriteState) : RequestState → Prop where
  | condition : (y.1.2.chainIn && !y.2.chainActive) = false →
      sys.regexCompile y.1.2.pattern y.1.2.nocase = true → y.1.2.conditions.getD [] ≠ [] →
      LooksAt y y.2.state
  | flag (m : MatchCtx) (before after : List NgxStr) (env : NgxStr) :
      ruleMatch sys conf y.1.1 y.1.2 y.2 = some m →
      y.1.2.envVars.getD [] = before ++ env :: after → (ngxStrlchr env (ch ':')).isSome →
      LooksAt y (htaccessApplyEnvFlags sys y.2.r y.2.state m before)
  | substitution (m : MatchCtx) : ruleMatch sys conf y.1.1 y.1.2 y.2 = some m →
      y.1.2.substitution ≠ lit "-" → LooksAt y (matchedState sys y.1.2 y.2 m).state

theorem looksAt_eq {y : (DirCtx × RewriteRule) × RewriteState} {state : RequestState}
    (h : LooksAt sys conf y state) : ∃ env, state = { y.2.state with env } := by
  cases h with
  | condition _ _ _ => exact ⟨y.2.state.env, rfl⟩
  | flag m before _ _ _ _ _ => exact htaccessApplyEnvFlags_eq sys y.2.r y.2.state m before
  | substitution m _ _ => exact htaccessApplyEnvFlags_eq sys y.2.r y.2.state m _

end Looks

section Run
variable (sys : Sys) (conf : LocConf) (r : Request) (w : Worker)

/-- The file name of the pass that starts in the state was last derived for the URI. -/
inductive DerivedFor : LoopState → NgxStr → Prop where
  | start : DerivedFor (.initial conf r w) r.uri
  | restart (s t : LoopState) (uri : NgxStr) : DerivedFor s uri →
      htaccessPass sys conf r.uri s = .again t → (passRewrite sys conf s).1 = .ok →
      DerivedFor t t.state.uri
  | document (s t : LoopState) (uri : NgxStr) : DerivedFor s uri →
      htaccessPass sys conf r.uri s = .again t → (passRewrite sys conf s).1 ≠ .ok →
      DerivedFor t uri

theorem passRewrite_filename (s : LoopState) :
    (∀ y ∈ ruleSteps sys conf s, y.2.state.filename = s.state.filename) ∧
      ((passRewrite sys conf s).1 ≠ .redirect →
        (passRewrite sys conf s).2.2.filename = s.state.filename) :=
  passRewrite_invariant (P := fun _ state => state.filename = s.state.filename)
    (fun _ _ _ h => h) (fun _ _ h _ _ _ => h) rfl

theorem htaccessResolveFilename_filename (hroot : conf.root ≠ []) (state : RequestState) :
    (htaccessResolveFilename conf state).filename =
      conf.root ++ (if conf.root.getLast? = some (ch '/') then [] else [ch '/']) ++
        state.uri.drop 1 := by
  rw [htaccessResolveFilename, if_neg hroot]

theorem filename_of_derivedFor (hroot : conf.root ≠ []) {s : LoopState} {uri : NgxStr}
    (h : DerivedFor sys conf r w s uri) :
    s.state.filename =
      conf.root ++ (if conf.root.getLast? = some (ch '/') then [] else [ch '/']) ++
        uri.drop 1 := by
  induction h with
  | start => exact htaccessResolveFilename_filename conf hroot _
  | restart s t uri _ hpass hok _ =>
      obtain ⟨_, _, _, rfl⟩ | ⟨code, doc, hreach, _, _, rfl⟩ :=
        htaccessPass_again_cases sys conf r.uri s hpass
      · simp only [htaccessResolveFilename_filename conf hroot, htaccessResolveFilename_uri]
      · exact absurd hok hreach.2.2.2
  | document s t uri _ hpass hok ih =>
      obtain ⟨_, _, hok', rfl⟩ | ⟨code, doc, hreach, _, _, rfl⟩ :=
        htaccessPass_again_cases sys conf r.uri s hpass
      · exact absurd hok' hok
      · exact ((passRewrite_filename sys conf s).2 hreach.2.2.1).trans ih

/-- Every pass has a URI that its file name was derived for. -/
theorem exists_derivedFor {s : LoopState}
    (h : Visits (htaccessPass sys conf r.uri) conf.maxRedirects (.initial conf r w) s) :
    ∃ uri, DerivedFor sys conf r w s uri := by
  refine invariant_of_visits (P := fun s => ∃ uri, DerivedFor sys conf r w s uri)
    (fun s t hs hpass => ?_) h ⟨_, .start⟩
  obtain ⟨uri, hderived⟩ := hs
  by_cases hok : (passRewrite sys conf s).1 = .ok
  · exact ⟨_, .restart s t uri hderived hpass hok⟩
  · exact ⟨_, .document s t uri hderived hpass hok⟩

/-- A state in which a pass of the run tests a condition or expands a template. -/
inductive RunLooks (s : LoopState) (state : RequestState) : Prop where
  | intro (y : (DirCtx × RewriteRule) × RewriteState) :
      Visits (htaccessPass sys conf r.uri) conf.maxRedirects (.initial conf r w) s →
      RunsEngine sys conf r.uri s → y ∈ ruleSteps sys conf s → LooksAt sys conf y state →
      RunLooks s state

theorem filename_of_look (hroot : conf.root ≠ []) {s : LoopState} {state : RequestState}
    {uri : NgxStr} (hlook : RunLooks sys conf r w s state)
    (hderived : DerivedFor sys conf r w s uri) :
    state.filename = filenameOf conf state.uri ↔ dropSlash state.uri = uri.drop 1 := by
  obtain ⟨y, _, _, hy, hlooks⟩ := hlook
  obtain ⟨env, rfl⟩ := looksAt_eq sys conf hlooks
  have hname : y.2.state.filename = s.state.filename := (passRewrite_filename sys conf s).1 y hy
  simp only [hname, filename_of_derivedFor sys conf r w hroot hderived, filenameOf,
    List.append_cancel_left_eq]
  exact eq_comm

/-- In a run with a root no condition and no template meets a stale file name exactly
when each of them meets a URI whose path the name was last derived for. -/
theorem filename_fresh_iff (hroot : conf.root ≠ []) :
    (∀ s state, RunLooks sys conf r w s state → state.filename = filenameOf conf state.uri) ↔
      ∀ s state, RunLooks sys conf r w s state → ∀ uri, DerivedFor sys conf r w s uri →
        dropSlash state.uri = uri.drop 1 := by
  constructor
  · intro hfresh s state hlook uri hderived
    exact (filename_of_look sys conf r w hroot hlook hderived).mp (hfresh s state hlook)
  · intro hsame s state hlook
    obtain ⟨uri, hderived⟩ := exists_derivedFor sys conf r w (by obtain ⟨_, h, _⟩ := hlook; exact h)
    exact (filename_of_look sys conf r w hroot hlook hderived).mpr (hsame s state hlook uri hderived)

end Run

/-- A rule that is not the last rewrites `/old`, and the next rule expands the file name. -/
def staleNameSys : Sys :=
  siteSys (siteFs 0 [("/w/.htaccess",
    "RewriteEngine On\nRewriteRule old /new\nRewriteRule new /%{REQUEST_FILENAME}\n")])

/-- The condition on a run is about runs that have a root. -/
theorem filename_fresh_iff_site :
    (∀ s state, RunLooks staleNameSys (siteConf htaccessMaxRedirectsDefault) (siteRequest "/old")
        (siteWorker 0) s state →
      state.filename = filenameOf (siteConf htaccessMaxRedirectsDefault) state.uri) ↔
    ∀ s state, RunLooks staleNameSys (siteConf htaccessMaxRedirectsDefault) (siteRequest "/old")
        (siteWorker 0) s state →
      ∀ uri, DerivedFor staleNameSys (siteConf htaccessMaxRedirectsDefault) (siteRequest "/old")
        (siteWorker 0) s uri → dropSlash state.uri = uri.drop 1 :=
  filename_fresh_iff staleNameSys (siteConf htaccessMaxRedirectsDefault) (siteRequest "/old")
    (siteWorker 0) (by decide)

/-- The second rule of the file expands the name of the URI before the first one. -/
theorem stale_filename_expanded :
    ¬ ∀ s state, RunLooks staleNameSys (siteConf htaccessMaxRedirectsDefault) (siteRequest "/old")
        (siteWorker 0) s state →
      state.filename = filenameOf (siteConf htaccessMaxRedirectsDefault) state.uri := by
  intro hfresh
  have hstale : ∃ y ∈ ruleSteps staleNameSys (siteConf htaccessMaxRedirectsDefault)
      (.initial (siteConf htaccessMaxRedirectsDefault) (siteRequest "/old") (siteWorker 0)),
      (ruleMatch staleNameSys (siteConf htaccessMaxRedirectsDefault) y.1.1 y.1.2 y.2).isSome ∧
        y.1.2.substitution ≠ lit "-" ∧
        y.2.state.filename ≠
          filenameOf (siteConf htaccessMaxRedirectsDefault) y.2.state.uri := by decide +kernel
  obtain ⟨y, hy, hmatch, hexpands, hname⟩ := hstale
  obtain ⟨m, hm⟩ := Option.isSome_iff_exists.mp hmatch
  have hlooks := LooksAt.substitution m hm hexpands
  obtain ⟨env, henv⟩ := looksAt_eq staleNameSys _ hlooks
  have hfilename := hfresh _ _ (.intro y (.here 9 _) (by decide +kernel) hy hlooks)
  rw [henv] at hfilename
  exact hname hfilename

end NgxHtaccess
