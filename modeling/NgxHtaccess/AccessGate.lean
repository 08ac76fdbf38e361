import NgxHtaccess.Answers
import NgxHtaccess.Site

/-!
The access check as a gate: when a run ends with `NGX_DECLINED`, was the URI
that nginx goes on to serve admitted on its own directory chain?

It was when the loop ends before its passes run out and the pass that admits
the request has a context that is still the one of the URI. A pass whose rules
rewrite the URI without ending the scan keeps the context of the old URI, and a
loop whose last pass restarts never asks about the new one.
-/
namespace NgxHtaccess
open BoundedLoop

/-- The event is an admission of the URI on the context built for that URI. -/
def StageEvent.admits (sys : Sys) (conf : LocConf) (uri : NgxStr) : StageEvent → Bool
  | .auth w merged u result =>
      u = uri && result = .declined && merged = (htaccessBuildMergedCtx sys conf w uri).1
  | _ => false

/-- The run evaluated `htaccess_apply_auth` on the context of its final URI, and
it admitted the request. -/
def AdmittedFor (sys : Sys) (conf : LocConf) (out : ExecResult) : Prop :=
  ∃ e ∈ out.trace, e.admits sys conf out.r.uri = true

instance (sys : Sys) (conf : LocConf) (out : ExecResult) :
    Decidable (AdmittedFor sys conf out) :=
  inferInstanceAs (Decidable (∃ e ∈ out.trace, e.admits sys conf out.r.uri = true))

section
variable (sys : Sys) (conf : LocConf) (requestUri : NgxStr)

/-- If the pass admits the request, the URI that its rules leave has the same
context as the URI it started on. -/
def KeepsContext (s : LoopState) : Prop :=
  ReachesAccess sys conf requestUri s → (passAuth sys conf s).1 = .declined →
    (htaccessBuildMergedCtx sys conf s.worker (passRewrite sys conf s).2.1.uri).1 =
      passCtx sys conf s

/-- Some pass within the bound ends the loop. -/
def StopsInTime (n : Nat) (s : LoopState) : Prop :=
  ∃ t out, Visits (htaccessPass sys conf requestUri) n s t ∧
    htaccessPass sys conf requestUri t = .stop out

def ServesAdmitted (s : LoopState) : Prop :=
  ReachesAccess sys conf requestUri s ∧ (passAuth sys conf s).1 = .declined ∧
    (htaccessBuildMergedCtx sys conf s.worker (passRewrite sys conf s).2.1.uri).1 =
      passCtx sys conf s

theorem serve_uri (s : LoopState) :
    (serve sys conf (passCtx sys conf s) (checked sys conf requestUri s)).r.uri =
      (passRewrite sys conf s).2.1.uri := by
  simp only [serve, htaccessApplyHeaders_uri, checked, passAuth, htaccessApplyAuth_uri]

theorem admits_passEvents {s : LoopState} {uri : NgxStr} {e : StageEvent}
    (he : e ∈ passEvents sys conf requestUri s) (hadm : e.admits sys conf uri = true) :
    ReachesAccess sys conf requestUri s ∧ (passAuth sys conf s).1 = .declined ∧
      (passRewrite sys conf s).2.1.uri = uri ∧
      (htaccessBuildMergedCtx sys conf s.worker uri).1 = passCtx sys conf s := by
  rcases (mem_passEvents_iff sys conf requestUri s).mp he with
    hdeny | ⟨_, rfl | ⟨_, rfl⟩⟩ | ⟨hreach, rfl | ⟨_, rfl⟩⟩
  · unfold denyEvents at hdeny
    split at hdeny
    · rw [List.mem_singleton.mp hdeny] at hadm
      cases hadm
    · cases hdeny
  · cases hadm
  · cases hadm
  · simp only [StageEvent.admits, Bool.and_eq_true, decide_eq_true_eq] at hadm
    obtain ⟨⟨huri, hv⟩, hctx⟩ := hadm
    exact ⟨hreach, hv, huri, hctx.symm⟩
  · cases hadm

theorem exists_admits_passEvents {s : LoopState} (h : ServesAdmitted sys conf requestUri s) :
    ∃ e ∈ passEvents sys conf requestUri s,
      e.admits sys conf (passRewrite sys conf s).2.1.uri = true := by
  obtain ⟨hreach, hv, hctx⟩ := h
  refine ⟨_, (mem_passEvents_iff sys conf requestUri s).mpr (.inr (.inr ⟨hreach, .inl rfl⟩)), ?_⟩
  simp only [StageEvent.admits, hctx, hv, decide_true, Bool.and_self]

end

section
variable (sys : Sys) (conf : LocConf) (r : Request) (w : Worker)

/-- A run admits its final URI when one of its passes serves it so. -/
theorem admittedFor_iff :
    AdmittedFor sys conf (htaccessExecute sys conf r w) ↔
      ∃ s, Visits (htaccessPass sys conf r.uri) conf.maxRedirects (.initial conf r w) s ∧
        ServesAdmitted sys conf r.uri s := by
  have hfinal : ∀ s, Visits (htaccessPass sys conf r.uri) conf.maxRedirects (.initial conf r w) s →
      ReachesAccess sys conf r.uri s → (passAuth sys conf s).1 = .declined →
        (htaccessExecute sys conf r w).r.uri = (passRewrite sys conf s).2.1.uri := by
    intro s hvisit hreach hv
    rw [htaccessExecute,
      run_of_visits_stop hvisit (htaccessPass_of_served sys conf r.uri s hreach hv), serve_uri]
  constructor
  · rintro ⟨e, he, hadm⟩
    obtain ⟨s, hvisit, hs⟩ := (mem_trace_iff sys conf r w e).mp he
    obtain ⟨hreach, hv, huri, hctx⟩ := admits_passEvents sys conf r.uri hs hadm
    exact ⟨s, hvisit, hreach, hv, huri ▸ hctx⟩
  · rintro ⟨s, hvisit, hserves⟩
    obtain ⟨e, he, hadm⟩ := exists_admits_passEvents sys conf r.uri hserves
    refine ⟨e, (mem_trace_iff sys conf r w e).mpr ⟨s, hvisit, he⟩, ?_⟩
    rw [hfinal s hvisit hserves.1 hserves.2.1]
    exact hadm

end

/-- A run that returns `NGX_DECLINED` has admitted its final URI exactly when
the loop stops in time and the admitting pass keeps its context. -/
theorem access_gate_iff (sys : Sys) (conf : LocConf) (r : Request) (w : Worker) :
    ((htaccessExecute sys conf r w).rc = ngxDeclined →
      AdmittedFor sys conf (htaccessExecute sys conf r w)) ↔
    StopsInTime sys conf r.uri conf.maxRedirects (.initial conf r w) ∧
      ∀ s, Visits (htaccessPass sys conf r.uri) conf.maxRedirects (.initial conf r w) s →
        KeepsContext sys conf r.uri s := by
  rw [admittedFor_iff]
  constructor
  · intro hgate
    constructor
    · cases stops_or_exhausts (htaccessPass sys conf r.uri) conf.maxRedirects
        (.initial conf r w) with
      | inl hstop => exact hstop
      | inr hspent =>
          -- a loop that is used up serves, so the gate names a pass that stops
          obtain ⟨t, hexhausts⟩ := hspent
          have hrun : htaccessExecute sys conf r w = t.spent := run_of_exhausts hexhausts
          rw [hrun] at hgate
          obtain ⟨s, hvisit, hreach, hv, _⟩ := hgate rfl
          exact ⟨s, _, hvisit, htaccessPass_of_served sys conf r.uri s hreach hv⟩
    · intro s hvisit hreach hv
      have hpass := htaccessPass_of_served sys conf r.uri s hreach hv
      have hrun : htaccessExecute sys conf r w = _ := run_of_visits_stop hvisit hpass
      rw [hrun] at hgate
      obtain ⟨t, hvisit', hreach', hv', hctx⟩ := hgate rfl
      have hpass' := htaccessPass_of_served sys conf r.uri t hreach' hv'
      rw [visits_stop_unique hvisit hpass hvisit' hpass']
      exact hctx
  · rintro ⟨⟨s, out, hvisit, hpass⟩, hkeeps⟩ hrc
    have hanswer := passAnswer_of_declined sys conf r w hrc hvisit
    obtain ⟨hreach, hv, _⟩ := htaccessPass_of_no_answer sys conf r.uri s hanswer hpass
    exact ⟨s, hvisit, hreach, hv, hkeeps s hvisit hreach hv⟩

/-- A rule without L moves the request below a directory that denies it; the
access check never sees that directory and the URI is served. -/
theorem access_gate_bypassed :
    (siteRun [("/w/.htaccess", "RewriteEngine On\nRewriteRule pub /secret/x\n"),
        ("/w/secret/.htaccess", "Require all denied\n")] "/pub").rc = ngxDeclined ∧
      (siteRun [("/w/.htaccess", "RewriteEngine On\nRewriteRule pub /secret/x\n"),
        ("/w/secret/.htaccess", "Require all denied\n")] "/pub").r.uri = lit "/secret/x" ∧
      ¬ AdmittedFor
        (siteSys (siteFs 0 [("/w/.htaccess", "RewriteEngine On\nRewriteRule pub /secret/x\n"),
          ("/w/secret/.htaccess", "Require all denied\n")]))
        (siteConf htaccessMaxRedirectsDefault)
        (siteRun [("/w/.htaccess", "RewriteEngine On\nRewriteRule pub /secret/x\n"),
          ("/w/secret/.htaccess", "Require all denied\n")] "/pub") := by
  decide +kernel

end NgxHtaccess
