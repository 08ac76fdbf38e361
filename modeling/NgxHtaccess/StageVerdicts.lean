import NgxHtaccess.Answers
import NgxHtaccess.RuleScan
import NgxHtaccess.Site

/-!
Does every refusal of a stage reach the client?

Three verdicts are dropped on the way: an error of the rewriter goes on to the
access check, a refusal with an ErrorDocument restarts the loop without setting
a status, and nobody reads the result of `htaccess_apply_options`. What the run
makes up for a dropped verdict comes from the answer of some pass.
-/
namespace NgxHtaccess
open BoundedLoop

/-- The statuses that a verdict calls for; none of the other results calls for one. -/
def HtaccessResult.calls : HtaccessResult → Int → Prop
  | .forbidden, status => status = ngxHttpForbidden
  | .unauthorized, status => status = ngxHttpUnauthorized
  | .error, status => status = ngxError ∨ 400 ≤ status
  | _, _ => True

instance (v : HtaccessResult) (status : Int) : Decidable (v.calls status) := by
  cases v <;> simp only [HtaccessResult.calls] <;> infer_instance

def HtaccessResult.isVerdict : HtaccessResult → Bool
  | .forbidden | .unauthorized | .error => true
  | _ => false

/-- The status of the response: what the handler returns, or behind
`NGX_DECLINED` what the request carries. -/
def ExecResult.status (out : ExecResult) : Int :=
  if out.rc = ngxDeclined then out.r.status else out.rc

/-- Every verdict in the run is the one that the client gets. -/
def VerdictsKept (out : ExecResult) : Prop :=
  ∀ e ∈ out.trace, e.result.isVerdict = true →
    e.result.calls out.status ∧ ¬ (out.rc = ngxDeclined ∧ out.r.status = 0)

instance (out : ExecResult) : Decidable (VerdictsKept out) :=
  inferInstanceAs (Decidable (∀ e ∈ out.trace, _))

section Status

variable (sys : Sys) (conf : LocConf)

theorem passRewrite_status {s : LoopState} (hne : (passRewrite sys conf s).1 ≠ .redirect) :
    (passRewrite sys conf s).2.1.status = s.r.status :=
  (passRewrite_invariant (P := fun r _ => r.status = s.r.status) (fun _ _ _ h => h)
    (fun _ _ h _ _ _ => h) rfl).2 hne

variable (requestUri : NgxStr)

theorem status_of_again {s t : LoopState} (h : htaccessPass sys conf requestUri s = .again t) :
    t.r.status = s.r.status := by
  obtain ⟨_, _, hok, rfl⟩ | ⟨code, uri, hreach, _, _, rfl⟩ :=
    htaccessPass_again_cases sys conf requestUri s h
  · exact passRewrite_status sys conf (by rw [hok]; decide)
  · obtain ⟨_, _, hauth⟩ :=
      htaccessApplyAuth_eq sys (passRewrite sys conf s).2.1 (passCtx sys conf s)
    exact (congrArg Request.status hauth).trans (passRewrite_status sys conf hreach.2.2.1)

theorem status_of_declined (r : Request) (w : Worker)
    (hrc : (htaccessExecute sys conf r w).rc = ngxDeclined) :
    (htaccessExecute sys conf r w).r.status = r.status := by
  have hkeep : ∀ s t : LoopState, s.r.status = r.status →
      htaccessPass sys conf r.uri s = .again t → t.r.status = r.status :=
    fun s t hs h => (status_of_again sys conf r.uri h).trans hs
  have hcase := htaccessExecute_declined_case sys conf r w hrc
  generalize htaccessExecute sys conf r w = out at hcase
  cases hcase with
  | served s hvisit hreach hauth =>
      obtain ⟨headersOut, hserved⟩ := serve_request sys conf r.uri hauth
      rw [hserved]
      exact (passRewrite_status sys conf hreach.2.2.1).trans (invariant_of_visits hkeep hvisit rfl)
  | spent t hexhaust => exact invariant_of_exhausts hkeep hexhaust rfl

end Status

section
variable (sys : Sys) (conf : LocConf)

/-- A verdict of the pass that the pass does not act on: an error of the rewriter,
a refusal that has an ErrorDocument, or what the options stage says. -/
def DropsVerdict (requestUri : NgxStr) (s : LoopState) (v : HtaccessResult) : Prop :=
  ReachesAccess sys conf requestUri s ∧
    (v = (passRewrite sys conf s).1 ∧ v.isVerdict = true ∨
      v = (passAuth sys conf s).1 ∧ (∃ code, refusalCode v = some code ∧
        htaccessErrorUri (passCtx sys conf s) code ≠ none) ∨
      v = .forbidden ∧ (passAuth sys conf s).1 = .declined ∧ passOptions sys conf s = .forbidden)

/-- Some pass of the run answers with what the verdict calls for, or no pass
answers and the request came with such a status. -/
def MadeUp (r : Request) (w : Worker) (v : HtaccessResult) : Prop :=
  (∃ s status, Visits (htaccessPass sys conf r.uri) conf.maxRedirects (.initial conf r w) s ∧
      passAnswer sys conf r.uri s = some status ∧ v.calls status) ∨
    (∀ s, Visits (htaccessPass sys conf r.uri) conf.maxRedirects (.initial conf r w) s →
      passAnswer sys conf r.uri s = none) ∧ v.calls r.status ∧ r.status ≠ 0

theorem htaccessApplyOptions_cases (r : Request) (merged : MergedCtx) :
    htaccessApplyOptions sys conf r merged = .declined ∨
      htaccessApplyOptions sys conf r merged = .forbidden := by
  unfold htaccessApplyOptions
  split_ifs <;> simp

theorem denyEvents_verdict (requestUri : NgxStr) {s : LoopState} {e : StageEvent}
    (he : e ∈ denyEvents sys conf requestUri s) (hv : e.result.isVerdict = true) :
    DeniedAtOnce sys conf requestUri s ∧ e.result = .forbidden := by
  unfold denyEvents at he
  split at he
  · rename_i hp
    rw [List.mem_singleton.mp he] at hv ⊢
    simp only [StageEvent.result, htaccessApplyFilesDeny] at hv ⊢
    split at hv
    · rename_i hf
      exact ⟨⟨hp, by rw [htaccessApplyFilesDeny, if_pos hf]⟩, if_pos hf⟩
    · cases hv
  · cases he

theorem verdict_of_refusalCode {v : HtaccessResult} {code : Nat}
    (h : refusalCode v = some code) : v.isVerdict = true ∧ v.calls code := by
  cases v <;> cases h <;> exact ⟨rfl, rfl⟩

theorem passAuth_verdict (requestUri : NgxStr) {s : LoopState}
    (hreach : ReachesAccess sys conf requestUri s)
    (hv : (passAuth sys conf s).1.isVerdict = true) :
    (∃ status, passAnswer sys conf requestUri s = some status ∧
        (passAuth sys conf s).1.calls status) ∨
      DropsVerdict sys conf requestUri s (passAuth sys conf s).1 := by
  have hreach' := hreach
  obtain ⟨hd, ha, hr, hk⟩ := hreach'
  rcases htaccessApplyAuth_cases sys (passRewrite sys conf s).2.1 (passCtx sys conf s) with
    ⟨code, hcode⟩ | hdeclined
  · change refusalCode (passAuth sys conf s).1 = some code at hcode
    by_cases hdoc : htaccessErrorUri (passCtx sys conf s) code = none
    · refine .inl ⟨code, ?_, (verdict_of_refusalCode hcode).2⟩
      rw [passAnswer_eq, if_neg hd, if_neg ha, if_neg hr, if_neg hk, hcode, Option.bind_some,
        if_pos hdoc]
    · exact .inr ⟨hreach, .inr (.inl ⟨rfl, code, hcode, hdoc⟩)⟩
  · change passAuth sys conf s = _ at hdeclined
    rw [hdeclined] at hv
    cases hv

/-- A verdict of a pass is the answer of the pass or it is dropped. -/
theorem answered_or_dropped (requestUri : NgxStr) {s : LoopState} {e : StageEvent}
    (he : e ∈ passEvents sys conf requestUri s) (hv : e.result.isVerdict = true) :
    (∃ status, passAnswer sys conf requestUri s = some status ∧ e.result.calls status) ∨
      DropsVerdict sys conf requestUri s e.result := by
  rcases (mem_passEvents_iff sys conf requestUri s).mp he with
    hdeny | ⟨hd, rfl | ⟨ha, rfl⟩⟩ | ⟨hreach, rfl | ⟨hauth, rfl⟩⟩
  · obtain ⟨hd, hresult⟩ := denyEvents_verdict sys conf requestUri hdeny hv
    refine .inl ⟨ngxHttpForbidden, by rw [passAnswer_eq, if_pos hd], ?_⟩
    rw [hresult]
    rfl
  · -- the alias stage declines or redirects
    rcases htaccessApplyAlias_cases sys (passCtx sys conf s) s.state with ha | ha <;>
      simp [StageEvent.result, passAlias, ha, HtaccessResult.isVerdict] at hv
  · have hne : ∀ v : HtaccessResult, v.isVerdict = false → (passRewrite sys conf s).1 ≠ v := by
      rintro v hnot rfl
      rw [StageEvent.result, hnot] at hv
      cases hv
    exact .inr ⟨⟨hd, ha, hne .redirect rfl, hne .ok rfl⟩, .inl ⟨rfl, hv⟩⟩
  · exact passAuth_verdict sys conf requestUri hreach hv
  · rcases htaccessApplyOptions_cases sys conf
        (htaccessApplyHeaders (passAuth sys conf s).2 (passCtx sys conf s))
        (passCtx sys conf s) with ho | ho
    · simp [StageEvent.result, passOptions, ho, HtaccessResult.isVerdict] at hv
    · exact .inr ⟨hreach, .inr (.inr ⟨ho, hauth, ho⟩)⟩

theorem exists_event_of_drops (requestUri : NgxStr) {s : LoopState} {v : HtaccessResult}
    (h : DropsVerdict sys conf requestUri s v) :
    v.isVerdict = true ∧ ∃ e ∈ passEvents sys conf requestUri s, e.result = v := by
  have hmem := fun e => (mem_passEvents_iff sys conf requestUri s (e := e)).mpr
  obtain ⟨hreach, h⟩ := h
  rcases h with ⟨rfl, hv⟩ | ⟨rfl, code, hcode, _⟩ | ⟨rfl, hauth, ho⟩
  · exact ⟨hv, _, hmem _ (.inr (.inl ⟨hreach.1, .inr ⟨hreach.2.1, rfl⟩⟩)), rfl⟩
  · exact ⟨(verdict_of_refusalCode hcode).1, _, hmem _ (.inr (.inr ⟨hreach, .inl rfl⟩)), rfl⟩
  · exact ⟨rfl, _, hmem _ (.inr (.inr ⟨hreach, .inr ⟨hauth, rfl⟩⟩)), ho⟩

end

/-- The client gets every verdict of a run exactly when every verdict that a pass
drops is made up for by the end of the run. -/
theorem verdicts_kept_iff (sys : Sys) (conf : LocConf) (r : Request) (w : Worker) :
    VerdictsKept (htaccessExecute sys conf r w) ↔
      ∀ s v, Visits (htaccessPass sys conf r.uri) conf.maxRedirects (.initial conf r w) s →
        DropsVerdict sys conf r.uri s v → MadeUp sys conf r w v := by
  constructor
  · intro hkept s v hvisit hdrop
    obtain ⟨hv, e, he, rfl⟩ := exists_event_of_drops sys conf r.uri hdrop
    obtain ⟨hcalls, hset⟩ := hkept e ((mem_trace_iff sys conf r w e).mpr ⟨s, hvisit, he⟩) hv
    by_cases hrc : (htaccessExecute sys conf r w).rc = ngxDeclined
    · have hstatus := status_of_declined sys conf r w hrc
      rw [ExecResult.status, if_pos hrc, hstatus] at hcalls
      exact .inr ⟨fun t => passAnswer_of_declined sys conf r w hrc, hcalls,
        fun h0 => hset ⟨hrc, hstatus.trans h0⟩⟩
    · obtain ⟨t, ht, status, hanswer⟩ := (rc_ne_declined_iff sys conf r w).mp hrc
      rw [ExecResult.status, if_neg hrc, (rc_of_answer sys conf r w ht hanswer).1] at hcalls
      exact .inl ⟨t, status, ht, hanswer, hcalls⟩
  · intro hmade e he hv
    obtain ⟨s, hvisit, hs⟩ := (mem_trace_iff sys conf r w e).mp he
    have hanswered : ∀ t status,
        Visits (htaccessPass sys conf r.uri) conf.maxRedirects (.initial conf r w) t →
        passAnswer sys conf r.uri t = some status → e.result.calls status →
        e.result.calls (htaccessExecute sys conf r w).status ∧
          ¬ ((htaccessExecute sys conf r w).rc = ngxDeclined ∧
            (htaccessExecute sys conf r w).r.status = 0) := by
      intro t status ht hanswer hcalls
      obtain ⟨hrc, hpos⟩ := rc_of_answer sys conf r w ht hanswer
      have hne : (htaccessExecute sys conf r w).rc ≠ ngxDeclined := by
        rw [hrc, ngxDeclined]
        omega
      refine ⟨?_, fun h => hne h.1⟩
      rw [ExecResult.status, if_neg hne, hrc]
      exact hcalls
    rcases answered_or_dropped sys conf r.uri hs hv with ⟨status, hanswer, hcalls⟩ | hdrop
    · exact hanswered s status hvisit hanswer hcalls
    · rcases hmade s _ hvisit hdrop with ⟨t, status, ht, hanswer, hcalls⟩ | ⟨hnone, hcalls, h0⟩
      · exact hanswered t status ht hanswer hcalls
      · have hrc := rc_of_no_answer sys conf r w hnone
        have hstatus := status_of_declined sys conf r w hrc
        refine ⟨?_, fun h => h0 (hstatus ▸ h.2)⟩
        rw [ExecResult.status, if_pos hrc, hstatus]
        exact hcalls

/-- The refusal of a directory listing is not read, and a refusal that has an
ErrorDocument is served as that page; neither sets a status. -/
theorem refusals_served :
    let listing := siteRun [("/w/.htaccess", "Options -Indexes\n"), ("/w/d/", "")] "/d/"
    let page := siteRun [("/w/.htaccess", "ErrorDocument 403 /open/403.html\n"),
      ("/w/private/.htaccess", "Require all denied\n")] "/private/x"
    (listing.rc = ngxDeclined ∧ listing.r.status = 0 ∧ ¬ VerdictsKept listing) ∧
      page.rc = ngxDeclined ∧ page.r.status = 0 ∧ ¬ VerdictsKept page := by
  decide +kernel

end NgxHtaccess
