import NgxHtaccess.ParsedLines
import NgxHtaccess.Rewrite
import NgxHtaccess.Site

/-!
The two resolvers of `%{NAME}`: the parser and the test of a condition on one side, the
expansion of a template on the other. They read the same request and the same state, but
the length guards of the parser leave out three names, and only the expansion falls back
on the server name for a request without a Host header.
-/
namespace NgxHtaccess

/-- The names that both resolvers know. -/
inductive VarName where
  | requestFilename
  | requestUri
  | queryString
  | httpHost
  | http (header : NgxStr) (h : ch '}' ∉ header)
  | env (name : NgxStr) (h : ch '}' ∉ name)

def VarName.text : VarName → NgxStr
  | .requestFilename => lit "REQUEST_FILENAME"
  | .requestUri => lit "REQUEST_URI"
  | .queryString => lit "QUERY_STRING"
  | .httpHost => lit "HTTP_HOST"
  | .http header _ => lit "HTTP:" ++ header
  | .env name _ => lit "ENV:" ++ name

def VarName.template (n : VarName) : NgxStr := ch '%' :: ch '{' :: (n.text ++ [ch '}'])

theorem VarName.not_mem_text (n : VarName) : ch '}' ∉ n.text := by
  cases n with
  | http header h =>
      rw [text, List.mem_append, not_or]
      exact ⟨by decide, h⟩
  | env name h =>
      rw [text, List.mem_append, not_or]
      exact ⟨by decide, h⟩
  | _ => rw [text]; decide

def VarName.expansion (r : Request) (state : RequestState) : VarName → NgxStr
  | .requestFilename => state.filename
  | .requestUri => state.uri
  | .queryString => state.queryString
  | .httpHost => r.server
  | .http header _ => htaccessGetHttpHeader r header
  | .env name _ => (htaccessEnvGet state name).getD []

/-- The test and the name that a condition on the name is parsed to. -/
def VarName.condition : VarName → CondTest × NgxStr
  | .requestFilename | .requestUri | .queryString => (.other, [])
  | .httpHost => (.http, lit "Host")
  | .http header _ => (.http, header)
  | .env name _ => (.env, name)

/-- The value of the request's first Host header. -/
def hostHeader (r : Request) : NgxStr :=
  ((r.headersIn.find? fun h => eqIgnoreCase h.1 (lit "Host")).map (·.2)).getD []

/-- When a condition on the name reads what a template does. -/
def VarName.AgreesWhen (r : Request) : VarName → Prop
  | .requestFilename | .requestUri | .queryString => False
  | .httpHost => hostHeader r = r.server
  | .http header _ =>
      eqIgnoreCase header (lit "Host") → (∀ h ∈ r.headersIn, !eqIgnoreCase h.1 header) →
        r.server = []
  | .env _ _ => True

theorem condTest_braced {name : NgxStr} (h : ch '}' ∉ name) :
    condTest (ch '%' :: ch '{' :: (name ++ [ch '}'])) = some (condVariable name) := by
  obtain ⟨e, rest, htext⟩ : ∃ e rest, name ++ [ch '}'] = e :: rest := by
    cases htext : name ++ [ch '}'] with
    | nil => simp at htext
    | cons e rest => exact ⟨e, rest, rfl⟩
  have hlchr : ngxStrlchr (e :: rest) (ch '}') = some (name, []) := by
    rw [← htext]
    exact ngxStrlchr_append _ _ h
  rw [htext]
  simp only [condTest, and_self, if_true, hlchr, Option.map_some]

theorem condVariable_front {front : NgxStr} (hlen : front.length ≤ 9)
    (hfile : ngxStrncasecmpEq front (lit "REQUEST_FILENAME") front.length = false)
    (huri : ngxStrncasecmpEq front (lit "REQUEST_URI") front.length = false)
    (hquery : ngxStrncasecmpEq front (lit "QUERY_STRING") front.length = false)
    (hhost : ngxStrncasecmpEq front (lit "HTTP_HOST") front.length = false) (rest : NgxStr) :
    condVariable (front ++ rest) =
      if 5 ≤ (front ++ rest).length ∧ ngxStrncasecmpEq (front ++ rest) (lit "HTTP:") 5 then
        (.http, (front ++ rest).drop 5)
      else if 4 ≤ (front ++ rest).length ∧ ngxStrncasecmpEq (front ++ rest) (lit "ENV:") 4 then
        (.env, (front ++ rest).drop 4)
      else (.other, []) := by
  rw [condVariable, ngxStrncasecmpEq_prefix_false _ _ _ (by omega) hfile,
    ngxStrncasecmpEq_prefix_false _ _ _ (by omega) huri,
    ngxStrncasecmpEq_prefix_false _ _ _ (by omega) hquery,
    ngxStrncasecmpEq_prefix_false _ _ _ hlen hhost]
  simp only [Bool.false_eq_true, and_false, if_false]

section Resolve
variable (sys : Sys) (r : Request) (state : RequestState) (n : VarName)

theorem condVariable_text : condVariable n.text = n.condition := by
  cases n with
  | requestFilename | requestUri | queryString | httpHost =>
      rw [VarName.text, VarName.condition]
      decide
  | http header h =>
      have hlength : 5 ≤ (lit "HTTP:" ++ header).length := by
        rw [List.length_append]
        exact Nat.le_add_right 5 _
      rw [VarName.text, VarName.condition,
        condVariable_front (by decide) (by decide) (by decide) (by decide) (by decide),
        ngxStrncasecmpEq_append _ _ _ (by decide), if_pos ⟨hlength, by decide⟩]
      rfl
  | env name h =>
      have hlength : 4 ≤ (lit "ENV:" ++ name).length := by
        rw [List.length_append]
        exact Nat.le_add_right 4 _
      rw [VarName.text, VarName.condition,
        condVariable_front (by decide) (by decide) (by decide) (by decide) (by decide),
        ngxStrncasecmpEq_prefix_false _ _ (lit "HTTP:") (by decide) (by decide),
        if_neg (fun h => absurd h.2 (by decide)),
        ngxStrncasecmpEq_append _ _ _ (by decide), if_pos ⟨hlength, by decide⟩]
      rfl

theorem condTest_template : condTest n.template = some n.condition := by
  rw [VarName.template, condTest_braced n.not_mem_text, condVariable_text]

theorem expandVariable_text : expandVariable r state n.text = some (n.expansion r state) := by
  cases n with
  | requestFilename | requestUri | queryString | httpHost =>
      rw [VarName.text, VarName.expansion, expandVariable]
      rfl
  | env name h =>
      have hlength : 4 ≤ (lit "ENV:" ++ name).length := by
        rw [List.length_append]
        exact Nat.le_add_right 4 _
      rw [VarName.text, VarName.expansion, expandVariable,
        ngxStrncasecmpEq_append _ _ _ (by decide), if_pos ⟨hlength, by decide⟩]
      rfl
  | http header h =>
      have hlength : 5 ≤ (lit "HTTP:" ++ header).length := by
        rw [List.length_append]
        exact Nat.le_add_right 5 _
      rw [VarName.text, VarName.expansion, expandVariable,
        ngxStrncasecmpEq_append _ _ _ (by decide), if_neg (fun h => absurd h.2 (by decide)),
        ngxStrncasecmpEq_prefix_false _ _ (lit "HTTP_HOST") (by decide) (by decide),
        if_neg (fun h => absurd h.2 (by decide)),
        ngxStrncasecmpEq_append _ _ _ (by decide), if_pos ⟨hlength, by decide⟩]
      rfl

theorem htaccessExpand_template {m : Option MatchCtx} {out : NgxStr}
    (h : htaccessExpand sys r state n.template m = some out) :
    out = n.expansion r state := by
  rw [htaccessExpand, VarName.template, List.length_cons, List.length_cons] at h
  unfold htaccessExpandLoop at h
  rw [if_neg (by decide), if_neg (by decide), if_pos ⟨rfl, rfl⟩,
    ngxStrlchr_append _ _ n.not_mem_text] at h
  simp only [expandVariable_text] at h
  obtain ⟨dst, hcopy, hrest⟩ := Option.bind_eq_some_iff.mp h
  unfold htaccessExpandCopy at hcopy
  split at hcopy
  · cases hcopy
  · cases hcopy
    unfold htaccessExpandLoop at hrest
    simpa using hrest.symm

end Resolve

section HeaderScan
variable (r : Request)

theorem findHeader_eq (name : NgxStr) :
    findHeader r name = (r.headersIn.find? fun h => eqIgnoreCase h.1 name).map (·.2) := by
  have htest : (fun h : NgxStr × NgxStr =>
      decide (h.1.length = name.length) && ngxStrncasecmpEq h.1 name name.length) =
      fun h => eqIgnoreCase h.1 name := by
    funext h
    unfold eqIgnoreCase
    by_cases hlength : h.1.length = name.length
    · rw [hlength]
    · simp only [hlength, decide_false, Bool.false_and]
  rw [findHeader, htest]

theorem findHeader_eq_none_iff (name : NgxStr) :
    findHeader r name = none ↔ ∀ h ∈ r.headersIn, !eqIgnoreCase h.1 name := by
  rw [findHeader_eq, Option.map_eq_none_iff, List.find?_eq_none]
  simp only [Bool.not_eq_true, Bool.not_eq_true']

theorem eqIgnoreCase_host_iff (name : NgxStr) :
    eqIgnoreCase name (lit "Host") = true ↔
      name.length = 4 ∧ ngxStrncasecmpEq name (lit "Host") 4 := by
  have hfour : (lit "Host").length = 4 := by decide
  rw [eqIgnoreCase, Bool.and_eq_true, decide_eq_true_iff, hfour]
  exact and_congr_right fun hlength => by rw [hlength]

/-- With the fallback of the template, and without it. -/
theorem httpHeader_agrees_iff (name : NgxStr) :
    (findHeader r name).getD [] = htaccessGetHttpHeader r name ↔
      (eqIgnoreCase name (lit "Host") → (∀ h ∈ r.headersIn, !eqIgnoreCase h.1 name) →
        r.server = []) := by
  rw [← findHeader_eq_none_iff, eqIgnoreCase_host_iff, htaccessGetHttpHeader]
  cases hfind : findHeader r name with
  | some value =>
      have hsome : some value ≠ (none : Option NgxStr) := Option.some_ne_none value
      simp only [Option.getD_some, hsome, false_implies, implies_true]
  | none =>
      simp only [Option.getD_none, true_implies]
      split
      · rename_i hhost
        exact ⟨fun h _ => h.symm, fun h => (h hhost).symm⟩
      · rename_i hhost
        exact ⟨fun _ h => absurd h hhost, fun _ => rfl⟩

end HeaderScan

section Agreement
variable (sys : Sys) (r : Request) (state : RequestState) (n : VarName)

theorem condValue_condition {cond : RewriteCond} (h : (cond.test, cond.name) = n.condition) :
    condValue r state cond = some (n.expansion r state) ↔ n.AgreesWhen r := by
  obtain ⟨htest, hname⟩ := Prod.ext_iff.mp h
  simp only at htest hname
  cases n with
  | requestFilename | requestUri | queryString =>
      have hnone : condValue r state cond = none := by rw [condValue, htest]; rfl
      rw [hnone]
      exact ⟨nofun, False.elim⟩
  | httpHost =>
      have hvalue : condValue r state cond = some (hostHeader r) := by
        rw [condValue, htest, hname]
        exact congrArg (fun v => some (v.getD [])) (findHeader_eq r _)
      rw [hvalue, Option.some_inj]
      rfl
  | http header hfree =>
      have hvalue : condValue r state cond = some ((findHeader r header).getD []) := by
        rw [condValue, htest, hname]
        rfl
      rw [hvalue, Option.some_inj]
      exact httpHeader_agrees_iff r header
  | env name hfree =>
      have hvalue : condValue r state cond = some ((htaccessEnvGet state name).getD []) := by
        rw [condValue, htest, hname]
        rfl
      exact ⟨fun _ => trivial, fun _ => hvalue⟩

/-- A condition on `%{NAME}` always parses. What it is matched against is the expansion of
the same text exactly for the names of the environment, for a header that is not the Host
header the request lacks, and for a host that is the server name; the three names whose
guard asks for one byte more than they have are matched against nothing. -/
theorem condition_agrees_iff (directive : NgxStr) (rest : List NgxStr) (m : Option MatchCtx)
    {out : NgxStr} (h : htaccessExpand sys r state n.template m = some out) :
    ∃ cond, htaccessParseRewriteCond (directive :: n.template :: rest) = some cond ∧
      (condValue r state cond = some out ↔ n.AgreesWhen r) := by
  rw [htaccessExpand_template sys r state n h, htaccessParseRewriteCond, condTest_template,
    Option.map_some]
  refine ⟨_, rfl, condValue_condition r state n ?_⟩
  cases rest <;> rfl

end Agreement

def oldState : RequestState :=
  (LoopState.initial (siteConf htaccessMaxRedirectsDefault) (siteRequest "/old")
    (siteWorker 0)).state

/-- A request without a Host header, as HTTP/2 may send it: the condition reads nothing. -/
theorem condition_agrees_iff_host :
    ∃ cond, htaccessParseRewriteCond
        [lit "RewriteCond", VarName.httpHost.template, lit "^host$"] = some cond ∧
      (condValue (siteRequest "/old") oldState cond = some (lit "host") ↔
        VarName.httpHost.AgreesWhen (siteRequest "/old")) :=
  condition_agrees_iff (siteSys (siteFs 0 [])) (siteRequest "/old") oldState .httpHost
    (lit "RewriteCond") [lit "^host$"] none (by decide +kernel)

/-- A condition on `%{REQUEST_URI}` is not matched against the URI. -/
theorem request_uri_unmatched :
    ¬ ∀ (n : VarName) (cond : RewriteCond) (out : NgxStr),
      htaccessParseRewriteCond [lit "RewriteCond", n.template, lit "^/old$"] = some cond →
      htaccessExpand (siteSys (siteFs 0 [])) (siteRequest "/old") oldState n.template none =
        some out →
      condValue (siteRequest "/old") oldState cond = some out := by
  intro hagree
  have hvalue := hagree .requestUri
    { test := .other, name := [], op := .regex, value := lit "^/old$", orNext := false }
    (lit "/old") (by decide +kernel) (by decide +kernel)
  cases hvalue

end NgxHtaccess
