import NgxHtaccess.Answers
import NgxHtaccess.RuleScan

/-!
The URI of the request against the one the engines work on. Both are written by
every rule with a target and between passes; `unparsed_uri` follows every write.
-/
namespace NgxHtaccess
open BoundedLoop

/-- The state of the run has the URI and the arguments of the request. -/
structure Mirrored (r : Request) (state : RequestState) : Prop where
  uri : state.uri = r.uri
  queryString : state.queryString = r.args

/-- `unparsed_uri` is the URI of the request with its arguments. -/
def UnparsedFollows (r : Request) : Prop := r.unparsedUri = unparsedOf r.uri r.args

section Write
variable (r : Request) (state : RequestState)

theorem mirrored_envBlind : EnvBlind Mirrored := fun _ _ _ h => ⟨h.uri, h.queryString⟩

theorem htaccessApplyTargetUri_mirrored (target : NgxStr) (qsa : Bool) :
    Mirrored (htaccessApplyTargetUri r state target qsa).1
      (htaccessApplyTargetUri r state target qsa).2 := ⟨rfl, rfl⟩

theorem htaccessApplyTargetUri_unparsed (target : NgxStr) (qsa : Bool) :
    UnparsedFollows (htaccessApplyTargetUri r state target qsa).1 := rfl

end Write

section Pass
variable {sys : Sys} {conf : LocConf} {requestUri : NgxStr} {s t : LoopState}

/-- The two copies agree at every rule of a pass and after the engine. -/
theorem passRewrite_mirrored (h : Mirrored s.r s.state) :
    (∀ y ∈ ruleSteps sys conf s, Mirrored y.2.r y.2.state) ∧
      ((passRewrite sys conf s).1 ≠ .redirect →
        Mirrored (passRewrite sys conf s).2.1 (passRewrite sys conf s).2.2) :=
  passRewrite_invariant mirrored_envBlind
    (fun y _ _ out env _ => htaccessApplyTargetUri_mirrored y.2.r { y.2.state with env } out _) h

theorem passRewrite_unparsed (h : passTargets sys conf s ≠ [] ∨ UnparsedFollows s.r)
    (hne : (passRewrite sys conf s).1 ≠ .redirect) :
    UnparsedFollows (passRewrite sys conf s).2.1 :=
  passRewrite_latch (P := fun r _ => UnparsedFollows r) (fun _ _ _ h => h)
    (fun y _ out env _ => htaccessApplyTargetUri_unparsed y.2.r { y.2.state with env } out _)
    h hne

theorem mirrored_of_again (h : Mirrored s.r s.state)
    (hpass : htaccessPass sys conf requestUri s = .again t) :
    Mirrored t.r t.state ∧ UnparsedFollows t.r := by
  have hrewrite := (@passRewrite_mirrored sys conf s h).2
  obtain ⟨_, _, hok, rfl⟩ | ⟨code, uri, hreach, _, _, rfl⟩ :=
    htaccessPass_again_cases sys conf requestUri s hpass
  · have hm := hrewrite (by rw [hok]; decide)
    exact ⟨⟨htaccessResolveFilename_uri _ _,
      (htaccessResolveFilename_queryString _ _).trans hm.queryString⟩, rfl⟩
  · have hm := hrewrite hreach.2.2.1
    obtain ⟨_, _, hauth⟩ :=
      htaccessApplyAuth_eq sys (passRewrite sys conf s).2.1 (passCtx sys conf s)
    exact ⟨⟨rfl, hm.queryString.trans (congrArg Request.args hauth).symm⟩, rfl⟩

end Pass

section Run
variable (sys : Sys) (conf : LocConf) (r : Request) (w : Worker)

/-- What holds at the start of a pass. A later pass follows a write of the URI. -/
structure PassStart (s : LoopState) : Prop where
  mirrored : Mirrored s.r s.state
  unparsed : s.pass ≠ 0 → UnparsedFollows s.r

theorem passStart_initial : PassStart (.initial conf r w) where
  mirrored := ⟨htaccessResolveFilename_uri conf _, htaccessResolveFilename_queryString conf _⟩
  unparsed h := absurd rfl h

theorem passStart_again (s t : LoopState) (h : PassStart s)
    (hpass : htaccessPass sys conf r.uri s = .again t) : PassStart t := by
  obtain ⟨hm, hu⟩ := mirrored_of_again h.mirrored hpass
  exact ⟨hm, fun _ => hu⟩

theorem passStart_of_visits {s : LoopState}
    (h : Visits (htaccessPass sys conf r.uri) conf.maxRedirects (.initial conf r w) s) :
    PassStart s :=
  invariant_of_visits (passStart_again sys conf r) h (passStart_initial conf r w)

/-- The pass writes the URI: a rule of it writes a target, or it goes on. -/
def WritesUri (s : LoopState) : Prop :=
  (RunsEngine sys conf r.uri s ∧ passTargets sys conf s ≠ []) ∨
    ∃ t, htaccessPass sys conf r.uri s = .again t

/-- The run has a pass that writes the URI. -/
def RunWritesUri : Prop :=
  ∃ s, Visits (htaccessPass sys conf r.uri) conf.maxRedirects (.initial conf r w) s ∧
    WritesUri sys conf r s

theorem eq_initial_or_pass_pos {s : LoopState}
    (h : Visits (htaccessPass sys conf r.uri) conf.maxRedirects (.initial conf r w) s) :
    s = .initial conf r w ∨ s.pass ≠ 0 := by
  refine invariant_of_visits (P := fun t => t = .initial conf r w ∨ t.pass ≠ 0)
    (fun s t _ hst => .inr ?_) h (.inl rfl)
  rw [pass_of_again sys conf r.uri s hst]
  exact Nat.succ_ne_zero _

theorem unparsed_of_served {s : LoopState}
    (hvisit : Visits (htaccessPass sys conf r.uri) conf.maxRedirects (.initial conf r w) s)
    (hreach : ReachesAccess sys conf r.uri s) (hauth : (passAuth sys conf s).1 = .declined)
    (hwrites : RunWritesUri sys conf r w) : UnparsedFollows (passRewrite sys conf s).2.1 := by
  have hstop := htaccessPass_of_served sys conf r.uri s hreach hauth
  refine passRewrite_unparsed ?_ hreach.2.2.1
  rcases eq_initial_or_pass_pos sys conf r w hvisit with hfirst | hpass
  · -- the first pass serves, so it is the one that writes, and it does not go on
    obtain ⟨s', hvisit', hwrite⟩ := hwrites
    rw [← hfirst] at hvisit'
    rw [eq_of_visits_stop hstop hvisit'] at hwrite
    rcases hwrite with ⟨_, htargets⟩ | ⟨t, hagain⟩
    · exact .inl htargets
    · rw [hstop] at hagain
      cases hagain
  · exact .inr ((passStart_of_visits sys conf r w hvisit).unparsed hpass)

/-- What holds at a return of `NGX_DECLINED`. -/
structure DeclinedEnd (out : ExecResult) : Prop where
  mirrored : Mirrored out.r out.state
  unparsed : RunWritesUri sys conf r w → UnparsedFollows out.r

theorem declinedEnd_of_declined (hrc : (htaccessExecute sys conf r w).rc = ngxDeclined) :
    DeclinedEnd sys conf r w (htaccessExecute sys conf r w) := by
  have hcase := htaccessExecute_declined_case sys conf r w hrc
  generalize htaccessExecute sys conf r w = out at hcase
  cases hcase with
  | served s hvisit hreach hauth =>
      obtain ⟨headersOut, hserved⟩ := serve_request sys conf r.uri hauth
      have hm := (@passRewrite_mirrored sys conf s
        (passStart_of_visits sys conf r w hvisit).mirrored).2 hreach.2.2.1
      refine ⟨?_, fun hwrites => ?_⟩
      · rw [hserved]
        exact ⟨hm.uri, hm.queryString⟩
      · rw [hserved]
        exact unparsed_of_served sys conf r w hvisit hreach hauth hwrites
  | spent t hexhaust =>
      have ht : PassStart t :=
        invariant_of_exhausts (passStart_again sys conf r) hexhaust (passStart_initial conf r w)
      refine ⟨ht.mirrored, fun hwrites => ht.unparsed ?_⟩
      obtain ⟨s, hvisit, _⟩ := hwrites
      refine exhausts_after_round (P := fun t : LoopState => t.pass ≠ 0) (fun s t hst => ?_)
        hexhaust hvisit
      rw [pass_of_again sys conf r.uri s hst]
      exact Nat.succ_ne_zero _

/-- In every run the two copies of URI and arguments agree at the start of every pass
and at every return of `NGX_DECLINED`, and `unparsed_uri` follows once the URI has been
written. -/
theorem uri_mirrored :
    (∀ s, Visits (htaccessPass sys conf r.uri) conf.maxRedirects (.initial conf r w) s →
      PassStart s) ∧
    ((htaccessExecute sys conf r w).rc = ngxDeclined →
      DeclinedEnd sys conf r w (htaccessExecute sys conf r w)) :=
  ⟨fun _ => passStart_of_visits sys conf r w, declinedEnd_of_declined sys conf r w⟩

end Run

end NgxHtaccess
