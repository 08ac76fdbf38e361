import NgxHtaccess.Execute

/-!
The anatomy of one pass of `htaccess_execute`: what its stages are evaluated on
and the ways in which it can end. Results about a whole run go through
`htaccessPass_case` and its two inversions and do not unfold the stages.
-/
namespace NgxHtaccess
open BoundedLoop

theorem htaccessApplyAlias_cases (sys : Sys) (merged : MergedCtx) (state : RequestState) :
    htaccessApplyAlias sys merged state = (.declined, state) ∨
      (htaccessApplyAlias sys merged state).1 = .redirect := by
  unfold htaccessApplyAlias
  cases findAliasDirs sys state.uri merged.dirs with
  | none => exact .inl rfl
  | some hit => exact .inr rfl

/-- The code that a refusal is answered with. -/
def refusalCode : HtaccessResult → Option Nat
  | .unauthorized => some ngxHttpUnauthorized
  | .forbidden => some ngxHttpForbidden
  | _ => none

theorem htaccessApplyAuth_cases (sys : Sys) (r : Request) (merged : MergedCtx) :
    (∃ code, refusalCode (htaccessApplyAuth sys r merged).1 = some code) ∨
      htaccessApplyAuth sys r merged = (.declined, r) := by
  unfold htaccessApplyAuth
  simp only
  repeat' split
  all_goals first | exact .inr rfl | exact .inl ⟨_, rfl⟩

theorem htaccessApplyAuth_request (sys : Sys) (r : Request) (merged : MergedCtx) :
    (htaccessApplyAuth sys r merged).2 = r ∨
      htaccessApplyAuth sys r merged = (.unauthorized, { r with
        headersOut := r.headersOut ++ [authenticateHeader merged.authName]
        wwwAuthenticate := some (authenticateHeader merged.authName) }) := by
  unfold htaccessApplyAuth
  simp only
  split
  · exact .inl rfl
  · split
    · exact .inl rfl
    · split
      · split
        · exact .inl rfl
        · exact .inr rfl
      · split <;> exact .inl rfl

/-- Whatever the access check returns, it leaves all but the response headers. -/
theorem htaccessApplyAuth_eq (sys : Sys) (r : Request) (merged : MergedCtx) :
    ∃ headersOut wwwAuthenticate,
      (htaccessApplyAuth sys r merged).2 = { r with headersOut, wwwAuthenticate } := by
  cases htaccessApplyAuth_request sys r merged with
  | inl hkept => exact ⟨_, _, hkept⟩
  | inr hchallenged => exact ⟨_, _, congrArg Prod.snd hchallenged⟩

@[simp] theorem htaccessApplyAuth_uri (sys : Sys) (r : Request) (merged : MergedCtx) :
    (htaccessApplyAuth sys r merged).2.uri = r.uri := by
  obtain ⟨_, _, hkept⟩ := htaccessApplyAuth_eq sys r merged
  rw [hkept]

@[simp] theorem htaccessResolveFilename_uri (conf : LocConf) (state : RequestState) :
    (htaccessResolveFilename conf state).uri = state.uri := by
  unfold htaccessResolveFilename
  split <;> rfl

@[simp] theorem htaccessResolveFilename_queryString (conf : LocConf) (state : RequestState) :
    (htaccessResolveFilename conf state).queryString = state.queryString := by
  unfold htaccessResolveFilename
  split <;> rfl

theorem foldl_setHeader_eq (keep : Request → Header → Bool) (value : Header → NgxStr × NgxStr)
    (hs : List Header) (r : Request) :
    ∃ added : List TableElt, (∀ e ∈ added, ∃ h ∈ hs, e.pool = some h.pool) ∧
      hs.foldl (fun r h => if keep r h then
        htaccessSetHeader r (value h).1 (value h).2 h.pool else r) r =
      { r with headersOut := r.headersOut ++ added } := by
  induction hs generalizing r with
  | nil => exact ⟨[], by simp, by simp⟩
  | cons h hs ih =>
      rw [List.foldl_cons]
      split
      · obtain ⟨added, hpools, heq⟩ := ih (htaccessSetHeader r (value h).1 (value h).2 h.pool)
        refine ⟨{ hash := 1, key := (value h).1, value := (value h).2, pool := some h.pool } ::
          added, ?_, ?_⟩
        · intro e he
          rcases List.mem_cons.mp he with rfl | he
          · exact ⟨h, List.mem_cons_self, rfl⟩
          · obtain ⟨h', hmem, hpool⟩ := hpools e he
            exact ⟨h', List.mem_cons_of_mem _ hmem, hpool⟩
        · rw [heq]
          simp only [htaccessSetHeader, List.append_assoc, List.cons_append, List.nil_append]
      · obtain ⟨added, hpools, heq⟩ := ih r
        refine ⟨added, fun e he => ?_, heq⟩
        obtain ⟨h', hmem, hpool⟩ := hpools e he
        exact ⟨h', List.mem_cons_of_mem _ hmem, hpool⟩

theorem htaccessApplyHeaders_eq (r : Request) (merged : MergedCtx) :
    ∃ added : List TableElt,
      (∀ e ∈ added, ∃ h ∈ merged.headers.getD [] ++ merged.expiresByType.getD [],
        e.pool = some h.pool) ∧
      htaccessApplyHeaders r merged = { r with headersOut := r.headersOut ++ added } := by
  obtain ⟨set, hset, heq⟩ := foldl_setHeader_eq (fun _ h => setsHeader h)
    (fun h => (h.name, h.value)) (merged.headers.getD []) r
  have hleft : ∀ e ∈ set, ∃ h ∈ merged.headers.getD [] ++ merged.expiresByType.getD [],
      e.pool = some h.pool := by
    intro e he
    obtain ⟨h, hmem, hpool⟩ := hset e he
    exact ⟨h, List.mem_append_left _ hmem, hpool⟩
  unfold htaccessApplyHeaders
  simp only
  rw [heq]
  split
  · obtain ⟨expires, hexpires, heq'⟩ := foldl_setHeader_eq
      (fun r h => expiresApplies r.contentType h) (fun h => (lit "Expires", h.value))
      (merged.expiresByType.getD []) { r with headersOut := r.headersOut ++ set }
    refine ⟨set ++ expires, fun e he => ?_, ?_⟩
    · rcases List.mem_append.mp he with he | he
      · exact hleft e he
      · obtain ⟨h, hmem, hpool⟩ := hexpires e he
        exact ⟨h, List.mem_append_right _ hmem, hpool⟩
    · rw [heq', List.append_assoc]
  · exact ⟨set, hleft, rfl⟩

@[simp] theorem htaccessApplyHeaders_uri (r : Request) (merged : MergedCtx) :
    (htaccessApplyHeaders r merged).uri = r.uri := by
  obtain ⟨added, _, heq⟩ := htaccessApplyHeaders_eq r merged
  rw [heq]

section
variable (sys : Sys) (conf : LocConf) (requestUri : NgxStr) (s : LoopState)

/-- The context that the pass starting in `s` is evaluated on. -/
def passCtx : MergedCtx := (htaccessBuildMergedCtx sys conf s.worker s.r.uri).1

def passWorker : Worker := (htaccessBuildMergedCtx sys conf s.worker s.r.uri).2

/-- Only the first pass asks `htaccess_apply_files_deny`. -/
def DeniedAtOnce : Prop :=
  s.pass = 0 ∧ htaccessApplyFilesDeny sys (passCtx sys conf s) requestUri = .forbidden

instance : Decidable (DeniedAtOnce sys conf requestUri s) :=
  inferInstanceAs (Decidable (_ ∧ _))

def denyEvents : List StageEvent :=
  if s.pass = 0 then [.filesDeny (htaccessApplyFilesDeny sys (passCtx sys conf s) requestUri)]
  else []

def passAlias : HtaccessResult × RequestState :=
  htaccessApplyAlias sys (passCtx sys conf s) s.state

def passRewrite : HtaccessResult × Request × RequestState :=
  htaccessApplyRewrite sys conf s.r (passCtx sys conf s) s.state

def aliased : LoopState :=
  { s with
    worker := passWorker sys conf s
    state := (passAlias sys conf s).2
    trace := s.trace ++ denyEvents sys conf requestUri s ++ [.alias (passAlias sys conf s).1] }

def rewritten : LoopState :=
  { s with
    worker := passWorker sys conf s
    r := (passRewrite sys conf s).2.1
    state := (passRewrite sys conf s).2.2
    trace := s.trace ++ denyEvents sys conf requestUri s ++
      [.alias .declined, .rewrite (passRewrite sys conf s).1] }

def passAuth : HtaccessResult × Request :=
  htaccessApplyAuth sys (passRewrite sys conf s).2.1 (passCtx sys conf s)

def checked : LoopState :=
  { rewritten sys conf requestUri s with
    r := (passAuth sys conf s).2
    trace := (rewritten sys conf requestUri s).trace ++
      [.auth s.worker (passCtx sys conf s) (passRewrite sys conf s).2.1.uri
        (passAuth sys conf s).1] }

/-- The pass gets as far as the access check. -/
def ReachesAccess : Prop :=
  ¬ DeniedAtOnce sys conf requestUri s ∧ (passAlias sys conf s).1 ≠ .redirect ∧
    (passRewrite sys conf s).1 ≠ .redirect ∧ (passRewrite sys conf s).1 ≠ .ok

instance : Decidable (ReachesAccess sys conf requestUri s) :=
  inferInstanceAs (Decidable (_ ∧ _ ∧ _ ∧ _))

/-- Every way in which a pass can end. -/
inductive PassCase : Round LoopState ExecResult → Prop where
  | denied : DeniedAtOnce sys conf requestUri s →
      PassCase (.stop { s with
        worker := passWorker sys conf s, rc := ngxHttpForbidden
        trace := s.trace ++ denyEvents sys conf requestUri s })
  | aliasRedirect : ¬ DeniedAtOnce sys conf requestUri s →
      (passAlias sys conf s).1 = .redirect →
      PassCase (.stop (sendRedirect (aliased sys conf requestUri s)))
  | ruleRedirect : ¬ DeniedAtOnce sys conf requestUri s →
      (passAlias sys conf s).1 ≠ .redirect → (passRewrite sys conf s).1 = .redirect →
      PassCase (.stop (sendRedirect (rewritten sys conf requestUri s)))
  | restarted : ¬ DeniedAtOnce sys conf requestUri s →
      (passAlias sys conf s).1 ≠ .redirect → (passRewrite sys conf s).1 = .ok →
      PassCase (.again { rewritten sys conf requestUri s with
        pass := s.pass + 1
        r := htaccessApplyUri (passRewrite sys conf s).2.1 (passRewrite sys conf s).2.2
        state := htaccessResolveFilename conf (passRewrite sys conf s).2.2 })
  | refused (code : Nat) : ReachesAccess sys conf requestUri s →
      refusalCode (passAuth sys conf s).1 = some code →
      PassCase (refuse (passCtx sys conf s) code (checked sys conf requestUri s))
  | served : ReachesAccess sys conf requestUri s → (passAuth sys conf s).1 = .declined →
      PassCase (.stop (serve sys conf (passCtx sys conf s) (checked sys conf requestUri s)))

theorem htaccessPass_eq_passOn :
    htaccessPass sys conf requestUri s =
      passOn sys conf requestUri (passCtx sys conf s) s.worker
        { s with worker := passWorker sys conf s } := rfl

theorem htaccessPass_of_denied (h : DeniedAtOnce sys conf requestUri s) :
    htaccessPass sys conf requestUri s = .stop { s with
      worker := passWorker sys conf s, rc := ngxHttpForbidden
      trace := s.trace ++ denyEvents sys conf requestUri s } := by
  simp only [htaccessPass_eq_passOn, passOn, denyEvents, h.1, h.2, if_pos]

theorem htaccessPass_of_not_denied (h : ¬ DeniedAtOnce sys conf requestUri s) :
    htaccessPass sys conf requestUri s =
      aliasStage sys conf (passCtx sys conf s) s.worker
        { s with
          worker := passWorker sys conf s
          trace := s.trace ++ denyEvents sys conf requestUri s } := by
  rw [htaccessPass_eq_passOn, passOn]
  by_cases hp : s.pass = 0
  · have hd : htaccessApplyFilesDeny sys (passCtx sys conf s) requestUri ≠ .forbidden :=
      fun hf => h ⟨hp, hf⟩
    simp only [hp, if_pos, denyEvents]
  · simp only [hp, if_false, denyEvents, List.append_nil]

theorem htaccessPass_of_no_alias (h : ¬ DeniedAtOnce sys conf requestUri s)
    (ha : (passAlias sys conf s).1 ≠ .redirect) :
    htaccessPass sys conf requestUri s =
      rewriteStage sys conf (passCtx sys conf s) s.worker
        { s with
          worker := passWorker sys conf s
          trace := s.trace ++ denyEvents sys conf requestUri s ++ [.alias .declined] } := by
  rw [htaccessPass_of_not_denied sys conf requestUri s h, aliasStage]
  have hd := (htaccessApplyAlias_cases sys (passCtx sys conf s) s.state).resolve_right ha
  simp only [hd]

theorem htaccessPass_of_reaches (h : ReachesAccess sys conf requestUri s) :
    htaccessPass sys conf requestUri s =
      accessCheck sys conf (passCtx sys conf s) s.worker (rewritten sys conf requestUri s) := by
  obtain ⟨hd, ha, hr, hk⟩ := h
  rw [htaccessPass_of_no_alias sys conf requestUri s hd ha]
  unfold rewriteStage
  simp only [passRewrite] at hr hk
  simp only [rewritten, passRewrite, List.append_assoc, List.cons_append, List.nil_append]

theorem htaccessPass_of_served (h : ReachesAccess sys conf requestUri s)
    (ha : (passAuth sys conf s).1 = .declined) :
    htaccessPass sys conf requestUri s =
      .stop (serve sys conf (passCtx sys conf s) (checked sys conf requestUri s)) := by
  rw [htaccessPass_of_reaches sys conf requestUri s h, accessCheck]
  simp only [passAuth] at ha
  simp only [checked, rewritten, passAuth, ha]

theorem htaccessPass_of_refused {code : Nat} (h : ReachesAccess sys conf requestUri s)
    (ha : refusalCode (passAuth sys conf s).1 = some code) :
    htaccessPass sys conf requestUri s =
      refuse (passCtx sys conf s) code (checked sys conf requestUri s) := by
  rw [htaccessPass_of_reaches sys conf requestUri s h, accessCheck]
  simp only [passAuth] at ha
  simp only [checked, rewritten, passAuth]
  cases hv : (htaccessApplyAuth sys (passRewrite sys conf s).2.1 (passCtx sys conf s)).1 <;>
    rw [hv] at ha <;> cases ha <;> rfl

theorem htaccessPass_case :
    PassCase sys conf requestUri s (htaccessPass sys conf requestUri s) := by
  by_cases hd : DeniedAtOnce sys conf requestUri s
  · rw [htaccessPass_of_denied sys conf requestUri s hd]
    exact .denied hd
  by_cases ha : (passAlias sys conf s).1 = .redirect
  · rw [htaccessPass_of_not_denied sys conf requestUri s hd]
    have := @PassCase.aliasRedirect sys conf requestUri s hd ha
    simp only [passAlias] at ha
    simpa only [aliasStage, aliased, passAlias, ha] using this
  by_cases hr : (passRewrite sys conf s).1 = .redirect
  · rw [htaccessPass_of_no_alias sys conf requestUri s hd ha]
    have := PassCase.ruleRedirect hd ha hr
    simp only [passRewrite] at hr
    simpa only [rewriteStage, rewritten, passRewrite, hr, List.append_assoc,
      List.cons_append, List.nil_append] using this
  by_cases hk : (passRewrite sys conf s).1 = .ok
  · rw [htaccessPass_of_no_alias sys conf requestUri s hd ha]
    have := PassCase.restarted hd ha hk
    simp only [passRewrite] at hk
    simpa only [rewriteStage, rewritten, passRewrite, hk, List.append_assoc,
      List.cons_append, List.nil_append] using this
  have h : ReachesAccess sys conf requestUri s := ⟨hd, ha, hr, hk⟩
  rcases htaccessApplyAuth_cases sys (passRewrite sys conf s).2.1 (passCtx sys conf s) with
    ⟨code, hc⟩ | hv
  · rw [htaccessPass_of_refused sys conf requestUri s h hc]
    exact .refused code h hc
  · have hv' : (passAuth sys conf s).1 = .declined := congrArg Prod.fst hv
    rw [htaccessPass_of_served sys conf requestUri s h hv']
    exact .served h hv'

theorem htaccessPass_again_cases {t : LoopState}
    (h : htaccessPass sys conf requestUri s = .again t) :
    (¬ DeniedAtOnce sys conf requestUri s ∧ (passAlias sys conf s).1 ≠ .redirect ∧
      (passRewrite sys conf s).1 = .ok ∧
      t = { rewritten sys conf requestUri s with
        pass := s.pass + 1
        r := htaccessApplyUri (passRewrite sys conf s).2.1 (passRewrite sys conf s).2.2
        state := htaccessResolveFilename conf (passRewrite sys conf s).2.2 }) ∨
    ∃ code uri, ReachesAccess sys conf requestUri s ∧
      refusalCode (passAuth sys conf s).1 = some code ∧
      htaccessErrorUri (passCtx sys conf s) code = some uri ∧
      t = { checked sys conf requestUri s with
        pass := s.pass + 1
        r := htaccessApplyUri (passAuth sys conf s).2 { (passRewrite sys conf s).2.2 with uri }
        state := { (passRewrite sys conf s).2.2 with uri } } := by
  have hcase := htaccessPass_case sys conf requestUri s
  rw [h] at hcase
  generalize hround : Round.again t = round at hcase
  cases hcase with
  | denied _ | aliasRedirect _ _ | ruleRedirect _ _ _ | served _ _ => cases hround
  | restarted hd ha hk =>
      injection hround with hround
      exact .inl ⟨hd, ha, hk, hround⟩
  | refused code hreach hcode =>
      unfold refuse at hround
      cases hdoc : htaccessErrorUri (passCtx sys conf s) code with
      | none => rw [hdoc] at hround; cases hround
      | some uri =>
          rw [hdoc] at hround
          injection hround with hround
          exact .inr ⟨code, uri, hreach, hcode, hdoc, hround⟩

theorem pass_of_again {t : LoopState} (h : htaccessPass sys conf requestUri s = .again t) :
    t.pass = s.pass + 1 := by
  obtain ⟨_, _, _, rfl⟩ | ⟨code, uri, _, _, _, rfl⟩ :=
    htaccessPass_again_cases sys conf requestUri s h
  · rfl
  · rfl

/-- A pass that ends the run denies it, redirects it, refuses it or serves it. -/
theorem htaccessPass_stop_cases {out : ExecResult}
    (h : htaccessPass sys conf requestUri s = .stop out) :
    (DeniedAtOnce sys conf requestUri s ∧
      out = { s with
        worker := passWorker sys conf s, rc := ngxHttpForbidden
        trace := s.trace ++ denyEvents sys conf requestUri s }) ∨
    (¬ DeniedAtOnce sys conf requestUri s ∧ (passAlias sys conf s).1 = .redirect ∧
      out = sendRedirect (aliased sys conf requestUri s)) ∨
    (¬ DeniedAtOnce sys conf requestUri s ∧ (passAlias sys conf s).1 ≠ .redirect ∧
      (passRewrite sys conf s).1 = .redirect ∧
      out = sendRedirect (rewritten sys conf requestUri s)) ∨
    (∃ code : Nat, ReachesAccess sys conf requestUri s ∧
      refusalCode (passAuth sys conf s).1 = some code ∧
      htaccessErrorUri (passCtx sys conf s) code = none ∧
      out = { checked sys conf requestUri s with rc := code }) ∨
    (ReachesAccess sys conf requestUri s ∧ (passAuth sys conf s).1 = .declined ∧
      out = serve sys conf (passCtx sys conf s) (checked sys conf requestUri s)) := by
  have hcase := htaccessPass_case sys conf requestUri s
  rw [h] at hcase
  generalize hround : Round.stop out = round at hcase
  cases hcase with
  | denied hd =>
      injection hround with hround
      exact .inl ⟨hd, hround⟩
  | aliasRedirect hd ha =>
      injection hround with hround
      exact .inr (.inl ⟨hd, ha, hround⟩)
  | ruleRedirect hd ha hr =>
      injection hround with hround
      exact .inr (.inr (.inl ⟨hd, ha, hr, hround⟩))
  | restarted _ _ _ => cases hround
  | refused code hreach hcode =>
      unfold refuse at hround
      cases hdoc : htaccessErrorUri (passCtx sys conf s) code with
      | none =>
          rw [hdoc] at hround
          injection hround with hround
          exact .inr (.inr (.inr (.inl ⟨code, hreach, hcode, hdoc, hround⟩)))
      | some uri => rw [hdoc] at hround; cases hround
  | served hreach hv =>
      injection hround with hround
      exact .inr (.inr (.inr (.inr ⟨hreach, hv, hround⟩)))

end

end NgxHtaccess
