import NgxHtaccess.Passes

/-!
How a run answers. A pass answers the request itself, with the status of a
redirect or of a refusal, or it leaves the request to nginx or to a later pass;
a run ends with `NGX_DECLINED` exactly when none of its passes answers.
-/
namespace NgxHtaccess
open BoundedLoop

def redirectStatus (state : RequestState) : Int :=
  if state.redirectCode ≠ 0 then state.redirectCode else ngxHttpMovedTemporarily

section
variable (sys : Sys) (conf : LocConf) (requestUri : NgxStr)

/-- The status that a pass on the context answers with, if it answers. -/
def answerOn (merged : MergedCtx) (s : LoopState) : Option Int :=
  let (aliasResult, aliasState) := htaccessApplyAlias sys merged s.state
  let (rewriteResult, r, state) := htaccessApplyRewrite sys conf s.r merged s.state
  if s.pass = 0 ∧ htaccessApplyFilesDeny sys merged requestUri = .forbidden then
    some ngxHttpForbidden
  else if aliasResult = .redirect then some (redirectStatus aliasState)
  else if rewriteResult = .redirect then some (redirectStatus state)
  else if rewriteResult = .ok then none
  else (refusalCode (htaccessApplyAuth sys r merged).1).bind fun code =>
    if htaccessErrorUri merged code = none then some (code : Int) else none

variable (s : LoopState)

def passAnswer : Option Int := answerOn sys conf requestUri (passCtx sys conf s) s

def passOptions : HtaccessResult :=
  htaccessApplyOptions sys conf (htaccessApplyHeaders (passAuth sys conf s).2 (passCtx sys conf s))
    (passCtx sys conf s)

def passEvents : List StageEvent :=
  denyEvents sys conf requestUri s ++
    if DeniedAtOnce sys conf requestUri s then []
    else .alias (passAlias sys conf s).1 ::
      if (passAlias sys conf s).1 = .redirect then []
      else .rewrite (passRewrite sys conf s).1 ::
        if (passRewrite sys conf s).1 = .redirect ∨ (passRewrite sys conf s).1 = .ok then []
        else .auth s.worker (passCtx sys conf s) (passRewrite sys conf s).2.1.uri
            (passAuth sys conf s).1 ::
          if (passAuth sys conf s).1 = .declined then [.options (passOptions sys conf s)] else []

/-- How far a pass got when it made an event. -/
theorem mem_passEvents_iff {e : StageEvent} :
    e ∈ passEvents sys conf requestUri s ↔
      e ∈ denyEvents sys conf requestUri s ∨
      ¬ DeniedAtOnce sys conf requestUri s ∧
        (e = .alias (passAlias sys conf s).1 ∨
          (passAlias sys conf s).1 ≠ .redirect ∧ e = .rewrite (passRewrite sys conf s).1) ∨
      ReachesAccess sys conf requestUri s ∧
        (e = .auth s.worker (passCtx sys conf s) (passRewrite sys conf s).2.1.uri
            (passAuth sys conf s).1 ∨
          (passAuth sys conf s).1 = .declined ∧ e = .options (passOptions sys conf s)) := by
  simp only [passEvents, ReachesAccess, List.mem_append]
  refine or_congr_right ?_
  by_cases hd : DeniedAtOnce sys conf requestUri s
  · simp [hd]
  by_cases ha : (passAlias sys conf s).1 = .redirect
  · simp [hd, ha]
  by_cases hrk : (passRewrite sys conf s).1 = .redirect ∨ (passRewrite sys conf s).1 = .ok
  · rcases hrk with h | h <;> simp [hd, ha, h]
  · obtain ⟨hr, hk⟩ := not_or.mp hrk
    by_cases hv : (passAuth sys conf s).1 = .declined <;> simp [hd, ha, hr, hk, hv, or_assoc]

theorem passAnswer_eq :
    passAnswer sys conf requestUri s =
      if DeniedAtOnce sys conf requestUri s then some (ngxHttpForbidden : Int)
      else if (passAlias sys conf s).1 = .redirect then
        some (redirectStatus (passAlias sys conf s).2)
      else if (passRewrite sys conf s).1 = .redirect then
        some (redirectStatus (passRewrite sys conf s).2.2)
      else if (passRewrite sys conf s).1 = .ok then none
      else (refusalCode (passAuth sys conf s).1).bind fun code =>
        if htaccessErrorUri (passCtx sys conf s) code = none then some (code : Int) else none := rfl

theorem sendRedirect_rc (t : LoopState) : (sendRedirect t).rc = redirectStatus t.state := by
  simp only [sendRedirect, htaccessSendRedirect, redirectStatus]
  split <;> rfl

theorem redirectStatus_pos (state : RequestState) : 0 < redirectStatus state := by
  unfold redirectStatus
  split
  · omega
  · decide

theorem refusalCode_pos {result : HtaccessResult} {code : Nat}
    (h : refusalCode result = some code) :
    0 < code := by
  cases result <;> cases h <;> decide

theorem htaccessPass_of_answer {status : Int}
    (h : passAnswer sys conf requestUri s = some status) :
    0 < status ∧ ∃ out, htaccessPass sys conf requestUri s = .stop out ∧ out.rc = status := by
  have hcase := htaccessPass_case sys conf requestUri s
  generalize htaccessPass sys conf requestUri s = round at hcase
  rw [passAnswer_eq] at h
  cases hcase with
  | denied hd =>
      rw [if_pos hd, Option.some.injEq] at h
      exact ⟨by rw [← h]; decide, _, rfl, h⟩
  | aliasRedirect hd ha =>
      rw [if_neg hd, if_pos ha, Option.some.injEq] at h
      exact ⟨h ▸ redirectStatus_pos _, _, rfl, (sendRedirect_rc _).trans h⟩
  | ruleRedirect hd ha hr =>
      rw [if_neg hd, if_neg ha, if_pos hr, Option.some.injEq] at h
      exact ⟨h ▸ redirectStatus_pos _, _, rfl, (sendRedirect_rc _).trans h⟩
  | restarted hd ha hk =>
      rw [if_neg hd, if_neg ha, if_neg (by rw [hk]; decide), if_pos hk] at h
      cases h
  | refused code hreach hcode =>
      obtain ⟨hd, ha, hr, hk⟩ := hreach
      rw [if_neg hd, if_neg ha, if_neg hr, if_neg hk, hcode, Option.bind_some] at h
      split at h
      · rename_i hdoc
        injection h with h
        have hpos := refusalCode_pos hcode
        exact ⟨by omega, { checked sys conf requestUri s with rc := code },
          by simp only [refuse, hdoc], h⟩
      · cases h
  | served hreach hv =>
      obtain ⟨hd, ha, hr, hk⟩ := hreach
      rw [if_neg hd, if_neg ha, if_neg hr, if_neg hk, hv] at h
      cases h

theorem htaccessPass_of_no_answer (h : passAnswer sys conf requestUri s = none)
    {out : ExecResult} (hstop : htaccessPass sys conf requestUri s = .stop out) :
    ReachesAccess sys conf requestUri s ∧ (passAuth sys conf s).1 = .declined ∧
      out = serve sys conf (passCtx sys conf s) (checked sys conf requestUri s) := by
  rw [passAnswer_eq] at h
  obtain ⟨hd, _⟩ | ⟨hd, ha, _⟩ | ⟨hd, ha, hr, _⟩ |
      ⟨code, ⟨hd, ha, hr, hk⟩, hcode, hdoc, _⟩ | hserved :=
    htaccessPass_stop_cases sys conf requestUri s hstop
  · rw [if_pos hd] at h
    cases h
  · rw [if_neg hd, if_pos ha] at h
    cases h
  · rw [if_neg hd, if_neg ha, if_pos hr] at h
    cases h
  · rw [if_neg hd, if_neg ha, if_neg hr, if_neg hk, hcode, Option.bind_some, if_pos hdoc] at h
    cases h
  · exact hserved

theorem passAlias_declined (ha : (passAlias sys conf s).1 ≠ .redirect) :
    (passAlias sys conf s).1 = .declined :=
  congrArg Prod.fst
    ((htaccessApplyAlias_cases sys (passCtx sys conf s) s.state).resolve_right ha)

theorem passEvents_of_reaches (h : ReachesAccess sys conf requestUri s) :
    passEvents sys conf requestUri s =
      denyEvents sys conf requestUri s ++
        [.alias .declined, .rewrite (passRewrite sys conf s).1,
          .auth s.worker (passCtx sys conf s) (passRewrite sys conf s).2.1.uri
            (passAuth sys conf s).1] ++
        if (passAuth sys conf s).1 = .declined then [.options (passOptions sys conf s)] else [] := by
  obtain ⟨hd, ha, hr, hk⟩ := h
  simp only [passEvents, hd, hr, hk, if_false, or_self, passAlias_declined sys conf s ha,
    reduceCtorEq, List.append_assoc, List.cons_append, List.nil_append]

theorem checked_trace (h : ReachesAccess sys conf requestUri s)
    (hv : (passAuth sys conf s).1 ≠ .declined) :
    (checked sys conf requestUri s).trace = s.trace ++ passEvents sys conf requestUri s := by
  rw [passEvents_of_reaches sys conf requestUri s h, if_neg hv]
  simp only [checked, rewritten, List.append_assoc, List.cons_append, List.nil_append,
    List.append_nil]

theorem declined_of_not_refused {code : Nat} (h : refusalCode (passAuth sys conf s).1 = some code) :
    (passAuth sys conf s).1 ≠ .declined := by
  intro hv
  rw [hv] at h
  cases h

theorem trace_of_again {t : LoopState} (h : htaccessPass sys conf requestUri s = .again t) :
    t.trace = s.trace ++ passEvents sys conf requestUri s := by
  obtain ⟨hd, ha, hk, rfl⟩ | ⟨code, uri, hreach, hcode, _, rfl⟩ :=
    htaccessPass_again_cases sys conf requestUri s h
  · rw [passEvents, if_neg hd, if_neg ha, if_pos (.inr hk), passAlias_declined sys conf s ha]
    simp only [rewritten, List.append_assoc]
  · exact checked_trace sys conf requestUri s hreach (declined_of_not_refused sys conf s hcode)

theorem trace_of_stop {out : ExecResult} (h : htaccessPass sys conf requestUri s = .stop out) :
    out.trace = s.trace ++ passEvents sys conf requestUri s := by
  obtain ⟨hd, rfl⟩ | ⟨hd, ha, rfl⟩ | ⟨hd, ha, hr, rfl⟩ | ⟨code, hreach, hcode, _, rfl⟩ |
    ⟨hreach, hv, rfl⟩ := htaccessPass_stop_cases sys conf requestUri s h
  · rw [passEvents, if_pos hd, List.append_nil]
  · rw [passEvents, if_neg hd, if_pos ha]
    simp only [sendRedirect, aliased, List.append_assoc]
  · rw [passEvents, if_neg hd, if_neg ha, if_pos (.inl hr), passAlias_declined sys conf s ha]
    simp only [sendRedirect, rewritten, List.append_assoc]
  · exact checked_trace sys conf requestUri s hreach (declined_of_not_refused sys conf s hcode)
  · rw [passEvents_of_reaches sys conf requestUri s hreach, if_pos hv]
    simp only [serve, checked, rewritten, passOptions, List.append_assoc, List.cons_append,
      List.nil_append]

end

section
variable (sys : Sys) (conf : LocConf) (r : Request) (w : Worker)

theorem mem_trace_iff (e : StageEvent) :
    e ∈ (htaccessExecute sys conf r w).trace ↔
      ∃ s, Visits (htaccessPass sys conf r.uri) conf.maxRedirects (.initial conf r w) s ∧
        e ∈ passEvents sys conf r.uri s := by
  rw [htaccessExecute, mem_log_run LoopState.trace ExecResult.trace
    (fun s t => trace_of_again sys conf r.uri s) (fun s out => trace_of_stop sys conf r.uri s)
    (fun s => rfl)]
  simp [LoopState.initial]

theorem rc_of_answer {s : LoopState} {status : Int}
    (hvisit : Visits (htaccessPass sys conf r.uri) conf.maxRedirects (.initial conf r w) s)
    (hanswer : passAnswer sys conf r.uri s = some status) :
    (htaccessExecute sys conf r w).rc = status ∧ 0 < status := by
  obtain ⟨hpos, out, hstop, hrc⟩ := htaccessPass_of_answer sys conf r.uri s hanswer
  refine ⟨?_, hpos⟩
  rw [htaccessExecute, run_of_visits_stop hvisit hstop, hrc]

theorem rc_of_no_answer
    (h : ∀ s, Visits (htaccessPass sys conf r.uri) conf.maxRedirects (.initial conf r w) s →
      passAnswer sys conf r.uri s = none) :
    (htaccessExecute sys conf r w).rc = ngxDeclined := by
  rcases stops_or_exhausts (htaccessPass sys conf r.uri) conf.maxRedirects
    (.initial conf r w) with ⟨s, out, hvisit, hstop⟩ | ⟨t, hexhaust⟩
  · rw [htaccessExecute, run_of_visits_stop hvisit hstop,
      (htaccessPass_of_no_answer sys conf r.uri s (h s hvisit) hstop).2.2]
    rfl
  · rw [htaccessExecute, run_of_exhausts hexhaust]
    rfl

/-- A run is handed on to nginx exactly when no pass of it answers. -/
theorem rc_ne_declined_iff :
    (htaccessExecute sys conf r w).rc ≠ ngxDeclined ↔
      ∃ s, Visits (htaccessPass sys conf r.uri) conf.maxRedirects (.initial conf r w) s ∧
        ∃ status, passAnswer sys conf r.uri s = some status := by
  constructor
  · intro hrc
    by_contra hnone
    push Not at hnone
    refine hrc (rc_of_no_answer sys conf r w fun s hvisit => ?_)
    exact Option.eq_none_iff_forall_ne_some.mpr (hnone s hvisit)
  · rintro ⟨s, hvisit, status, hanswer⟩ hrc
    obtain ⟨hstatus, hpos⟩ := rc_of_answer sys conf r w hvisit hanswer
    rw [hrc, ngxDeclined] at hstatus
    omega

theorem passAnswer_of_declined (hrc : (htaccessExecute sys conf r w).rc = ngxDeclined)
    {s : LoopState}
    (hvisit : Visits (htaccessPass sys conf r.uri) conf.maxRedirects (.initial conf r w) s) :
    passAnswer sys conf r.uri s = none := by
  cases hanswer : passAnswer sys conf r.uri s with
  | none => rfl
  | some status =>
      exact absurd hrc ((rc_ne_declined_iff sys conf r w).mpr ⟨s, hvisit, status, hanswer⟩)

/-- The two ways in which a run ends with `NGX_DECLINED`: a pass serves the request,
or the passes are used up. -/
inductive DeclinedCase : ExecResult → Prop where
  | served (s : LoopState) :
      Visits (htaccessPass sys conf r.uri) conf.maxRedirects (.initial conf r w) s →
      ReachesAccess sys conf r.uri s → (passAuth sys conf s).1 = .declined →
      DeclinedCase (serve sys conf (passCtx sys conf s) (checked sys conf r.uri s))
  | spent (t : LoopState) :
      Exhausts (htaccessPass sys conf r.uri) conf.maxRedirects (.initial conf r w) t →
      DeclinedCase t.spent

theorem htaccessExecute_declined_case (hrc : (htaccessExecute sys conf r w).rc = ngxDeclined) :
    DeclinedCase sys conf r w (htaccessExecute sys conf r w) := by
  rcases stops_or_exhausts (htaccessPass sys conf r.uri) conf.maxRedirects
    (.initial conf r w) with ⟨s, out, hvisit, hstop⟩ | ⟨t, hexhaust⟩
  · obtain ⟨hreach, hauth, heq⟩ := htaccessPass_of_no_answer sys conf r.uri s
      (passAnswer_of_declined sys conf r w hrc hvisit) hstop
    rw [htaccessExecute, run_of_visits_stop hvisit hstop, heq]
    exact .served s hvisit hreach hauth
  · rw [htaccessExecute, run_of_exhausts hexhaust]
    exact .spent t hexhaust

theorem serve_request (requestUri : NgxStr) {s : LoopState}
    (h : (passAuth sys conf s).1 = .declined) :
    ∃ headersOut, (serve sys conf (passCtx sys conf s) (checked sys conf requestUri s)).r =
      { (passRewrite sys conf s).2.1 with headersOut } := by
  have hr : (passAuth sys conf s).2 = (passRewrite sys conf s).2.1 := by
    rcases htaccessApplyAuth_cases sys (passRewrite sys conf s).2.1 (passCtx sys conf s) with
      ⟨code, hcode⟩ | hdeclined
    · rw [passAuth] at h
      rw [h] at hcode
      cases hcode
    · exact congrArg Prod.snd hdeclined
  obtain ⟨added, _, heq⟩ := htaccessApplyHeaders_eq (passAuth sys conf s).2 (passCtx sys conf s)
  exact ⟨_, by rw [serve, checked, heq, hr]⟩

end

end NgxHtaccess
