import NgxHtaccess.UriMirror

/-!
The URIs that a run reaches, and what writes them. A property of URIs that the
request starts with is kept by a run as far as the targets of its rules and the
documents of its refusals have it.
-/
namespace NgxHtaccess
open BoundedLoop

section Pass
variable {sys : Sys} {conf : LocConf} {requestUri : NgxStr} {s t : LoopState}

/-- The pass is refused and has an ErrorDocument for that. -/
inductive RefusedTo (sys : Sys) (conf : LocConf) (requestUri : NgxStr) (s : LoopState) :
    NgxStr → Prop where
  | intro (code : Nat) (uri : NgxStr) : ReachesAccess sys conf requestUri s →
      refusalCode (passAuth sys conf s).1 = some code →
      htaccessErrorUri (passCtx sys conf s) code = some uri → RefusedTo sys conf requestUri s uri

/-- The pass is restarted by a rule. -/
def Restarted (sys : Sys) (conf : LocConf) (requestUri : NgxStr) (s : LoopState) : Prop :=
  RunsEngine sys conf requestUri s ∧ (passRewrite sys conf s).1 = .ok

/-- The pass serves the request. -/
def Served (sys : Sys) (conf : LocConf) (requestUri : NgxStr) (s : LoopState) : Prop :=
  ReachesAccess sys conf requestUri s ∧ (passAuth sys conf s).1 = .declined

theorem uri_of_again (hm : Mirrored s.r s.state)
    (h : htaccessPass sys conf requestUri s = .again t) :
    (Restarted sys conf requestUri s ∧ t.r.uri = (passRewrite sys conf s).2.1.uri) ∨
      RefusedTo sys conf requestUri s t.r.uri := by
  obtain ⟨hd, ha, hok, rfl⟩ | ⟨code, uri, hreach, hcode, hdoc, rfl⟩ :=
    htaccessPass_again_cases sys conf requestUri s h
  · have hmirror := (passRewrite_mirrored hm).2 (by rw [hok]; decide)
    exact .inl ⟨⟨⟨hd, ha⟩, hok⟩, hmirror.uri⟩
  · exact .inr (.intro code uri hreach hcode hdoc)

theorem exists_again_of_restarted (hm : Mirrored s.r s.state)
    (h : Restarted sys conf requestUri s) :
    ∃ t, htaccessPass sys conf requestUri s = .again t ∧
      t.r.uri = (passRewrite sys conf s).2.1.uri := by
  obtain ⟨⟨hd, ha⟩, hok⟩ := h
  have hmirror := (passRewrite_mirrored hm).2 (by rw [hok]; decide)
  have hpass := htaccessPass_of_no_alias sys conf requestUri s hd ha
  simp only [passRewrite] at hok hmirror ⊢
  simp only [rewriteStage, hok] at hpass
  exact ⟨_, hpass, hmirror.uri⟩

theorem exists_again_of_refused {uri : NgxStr} (h : RefusedTo sys conf requestUri s uri) :
    ∃ t, htaccessPass sys conf requestUri s = .again t ∧ t.r.uri = uri := by
  obtain ⟨code, _, hreach, hcode, hdoc⟩ := h
  have hpass := htaccessPass_of_refused sys conf requestUri s hreach hcode
  rw [refuse, hdoc] at hpass
  exact ⟨_, hpass, rfl⟩

end Pass

section Run
variable (sys : Sys) (conf : LocConf) (r : Request) (w : Worker) (P : NgxStr → Prop)

/-- The URI of the request has the property at the start of every pass and at a return
of `NGX_DECLINED`. -/
structure AtBoundaries : Prop where
  start : ∀ s, Visits (htaccessPass sys conf r.uri) conf.maxRedirects (.initial conf r w) s →
    P s.r.uri
  declined : (htaccessExecute sys conf r w).rc = ngxDeclined →
    P (htaccessExecute sys conf r w).r.uri

/-- What a pass leaves has the property: the target that it wrote last, if it goes on or
serves, and the document that it is refused to. -/
structure LastWriteHas (s : LoopState) : Prop where
  target : Restarted sys conf r.uri s ∨ Served sys conf r.uri s →
    ∀ out, (passTargets sys conf s).getLast? = some out → P (targetUri out)
  document : ∀ uri, RefusedTo sys conf r.uri s uri → P uri

variable {sys conf r w P}

theorem boundary_of_again (h : AtBoundaries sys conf r w P) {s t : LoopState}
    (hvisit : Visits (htaccessPass sys conf r.uri) conf.maxRedirects (.initial conf r w) s)
    (hpass : htaccessPass sys conf r.uri s = .again t) : P t.r.uri := by
  rcases visits_or_exhausts hvisit hpass with hv | he
  · exact h.start t hv
  · have hend := h.declined
    rw [htaccessExecute, run_of_exhausts he] at hend
    exact hend rfl

theorem htaccessExecute_of_served {s : LoopState}
    (hvisit : Visits (htaccessPass sys conf r.uri) conf.maxRedirects (.initial conf r w) s)
    (h : Served sys conf r.uri s) :
    (htaccessExecute sys conf r w).rc = ngxDeclined ∧
      (htaccessExecute sys conf r w).r.uri = (passRewrite sys conf s).2.1.uri := by
  obtain ⟨headersOut, hserved⟩ := serve_request sys conf r.uri h.2
  rw [htaccessExecute, run_of_visits_stop hvisit (htaccessPass_of_served sys conf r.uri s h.1 h.2),
    hserved]
  exact ⟨rfl, rfl⟩

theorem atBoundaries_iff (h : P r.uri) :
    AtBoundaries sys conf r w P ↔
      ∀ s, Visits (htaccessPass sys conf r.uri) conf.maxRedirects (.initial conf r w) s →
        LastWriteHas sys conf r P s := by
  constructor
  · intro hall s hvisit
    have hm := (passStart_of_visits sys conf r w hvisit).mirrored
    refine ⟨fun hleft out hout => ?_, fun uri hrefused => ?_⟩
    · have huri := passRewrite_uri sys conf s
      rw [hout, Option.map_some, Option.getD_some] at huri
      rcases hleft with hrestart | hserved
      · obtain ⟨t, hpass, ht⟩ := exists_again_of_restarted hm hrestart
        rw [← huri, ← ht]
        exact boundary_of_again hall hvisit hpass
      · obtain ⟨hrc, hend⟩ := htaccessExecute_of_served hvisit hserved
        rw [← huri, ← hend]
        exact hall.declined hrc
    · obtain ⟨t, hpass, ht⟩ := exists_again_of_refused hrefused
      rw [← ht]
      exact boundary_of_again hall hvisit hpass
  · intro hwrites
    have hleft : ∀ s, Visits (htaccessPass sys conf r.uri) conf.maxRedirects
        (.initial conf r w) s → P s.r.uri → Restarted sys conf r.uri s ∨ Served sys conf r.uri s →
        P (passRewrite sys conf s).2.1.uri := by
      intro s hvisit hs hgoes
      rw [passRewrite_uri]
      cases hlast : (passTargets sys conf s).getLast? with
      | none => exact hs
      | some out => exact (hwrites s hvisit).target hgoes out hlast
    have hruns := visits_invariant (P := fun s : LoopState => P s.r.uri)
      (fun s t hvisit hs hpass => by
        have hm := (passStart_of_visits sys conf r w hvisit).mirrored
        rcases uri_of_again hm hpass with ⟨hrestart, huri⟩ | hrefused
        · rw [huri]
          exact hleft s hvisit hs (.inl hrestart)
        · exact (hwrites s hvisit).document _ hrefused) (s := .initial conf r w) h
    refine ⟨hruns.1, fun hrc => ?_⟩
    have hcase := htaccessExecute_declined_case sys conf r w hrc
    generalize htaccessExecute sys conf r w = out at hcase
    cases hcase with
    | served s hvisit hreach hauth =>
        obtain ⟨headersOut, hserved⟩ := serve_request sys conf r.uri hauth
        rw [hserved]
        exact hleft s hvisit (hruns.1 s hvisit) (.inr ⟨hreach, hauth⟩)
    | spent t he => exact hruns.2 t he

variable (sys conf r w) in
/-- The URIs that the request has in a run: at the start of a pass, after a rule of a
pass, and when the passes are used up. -/
inductive ReachesUri : NgxStr → Prop where
  | start (s : LoopState) :
      Visits (htaccessPass sys conf r.uri) conf.maxRedirects (.initial conf r w) s →
      ReachesUri s.r.uri
  | rule (s : LoopState) (y : (DirCtx × RewriteRule) × RewriteState) :
      Visits (htaccessPass sys conf r.uri) conf.maxRedirects (.initial conf r w) s →
      RunsEngine sys conf r.uri s → y ∈ ruleSteps sys conf s →
      ReachesUri (tryRule sys conf y.1.1 y.1.2 y.2).left.r.uri
  | spent (t : LoopState) :
      Exhausts (htaccessPass sys conf r.uri) conf.maxRedirects (.initial conf r w) t →
      ReachesUri t.r.uri

/-- A property that the ErrorDocuments have holds of every URI that a run reaches
exactly when every target that a rule writes leaves a URI with it. -/
theorem reachesUri_iff (h : P r.uri)
    (hdocs : ∀ s, Visits (htaccessPass sys conf r.uri) conf.maxRedirects (.initial conf r w) s →
      ∀ uri, RefusedTo sys conf r.uri s uri → P uri) :
    (∀ uri, ReachesUri sys conf r w uri → P uri) ↔
      ∀ s, Visits (htaccessPass sys conf r.uri) conf.maxRedirects (.initial conf r w) s →
        RunsEngine sys conf r.uri s → ∀ out ∈ passTargets sys conf s, P (targetUri out) := by
  constructor
  · intro hall s hvisit hengine out hout
    obtain ⟨y, hy, htarget⟩ := List.mem_filterMap.mp hout
    have huri := tryRule_uri sys conf y.1.1 y.1.2 y.2
    rw [show writtenTarget sys conf y.1.1 y.1.2 y.2 = some out from htarget] at huri
    rw [Option.map_some, Option.getD_some] at huri
    rw [← huri]
    exact hall _ (.rule s y hvisit hengine hy)
  · intro htargets
    -- at every rule of a pass that starts well, and after the engine
    have hengine : ∀ s, Visits (htaccessPass sys conf r.uri) conf.maxRedirects
        (.initial conf r w) s → RunsEngine sys conf r.uri s → P s.r.uri →
        (∀ y ∈ ruleSteps sys conf s, P y.2.r.uri) ∧
          ((passRewrite sys conf s).1 ≠ .redirect → P (passRewrite sys conf s).2.1.uri) :=
      fun s hvisit hruns hs => passRewrite_invariant (P := fun r _ => P r.uri)
        (fun _ _ _ h => h)
        (fun y hy _ out env htarget =>
          htargets s hvisit hruns out (List.mem_filterMap.mpr ⟨y, hy, htarget⟩)) hs
    have hruns := visits_invariant (P := fun s : LoopState => P s.r.uri)
      (fun s t hvisit hs hpass => by
        have hm := (passStart_of_visits sys conf r w hvisit).mirrored
        rcases uri_of_again hm hpass with ⟨⟨hruns, hok⟩, huri⟩ | hrefused
        · rw [huri]
          exact (hengine s hvisit hruns hs).2 (by rw [hok]; decide)
        · exact hdocs s hvisit _ hrefused) (s := .initial conf r w) h
    intro uri hreaches
    cases hreaches with
    | start s hvisit => exact hruns.1 s hvisit
    | spent t he => exact hruns.2 t he
    | rule s y hvisit hruns' hy =>
        rw [tryRule_uri]
        cases htarget : writtenTarget sys conf y.1.1 y.1.2 y.2 with
        | none => exact (hengine s hvisit hruns' (hruns.1 s hvisit)).1 y hy
        | some out =>
            exact htargets s hvisit hruns' out (List.mem_filterMap.mpr ⟨y, hy, htarget⟩)

theorem reachesUri_of_declined (hrc : (htaccessExecute sys conf r w).rc = ngxDeclined) :
    ReachesUri sys conf r w (htaccessExecute sys conf r w).r.uri := by
  have hcase := htaccessExecute_declined_case sys conf r w hrc
  generalize htaccessExecute sys conf r w = out at hcase
  cases hcase with
  | spent t he => exact .spent t he
  | served s hvisit hreach hauth =>
      obtain ⟨headersOut, hserved⟩ := serve_request sys conf r.uri hauth
      have huri := passRewrite_uri sys conf s
      rw [hserved]
      change ReachesUri sys conf r w (passRewrite sys conf s).2.1.uri
      cases hlast : (passTargets sys conf s).getLast? with
      | none =>
          rw [hlast, Option.map_none, Option.getD_none] at huri
          rw [huri]
          exact .start s hvisit
      | some out =>
          obtain ⟨y, hy, htarget⟩ := List.mem_filterMap.mp (List.mem_of_getLast? hlast)
          have hstep := tryRule_uri sys conf y.1.1 y.1.2 y.2
          rw [show writtenTarget sys conf y.1.1 y.1.2 y.2 = some out from htarget] at hstep
          rw [hlast, Option.map_some, Option.getD_some] at huri
          rw [Option.map_some, Option.getD_some, ← huri] at hstep
          rw [← hstep]
          exact .rule s y hvisit ⟨hreach.1, hreach.2.1⟩ hy

end Run

end NgxHtaccess
