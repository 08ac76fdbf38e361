import NgxHtaccess.CaptureSlots
import NgxHtaccess.FileReads

/-!
What of a client's headers and credentials an answer depends on: the headers that the
conditions and templates of the rules tried on it name, and the user where a `valid-user`
decides. To every other header, and to their order and the case of their names, the module
is blind.
-/
namespace NgxHtaccess
open BoundedLoop Scan

/-- What a client sends beside the URI and its arguments. -/
structure ClientData where
  headersIn : List (NgxStr × NgxStr)
  user : NgxStr
  passwd : NgxStr

def Request.client (r : Request) : ClientData where
  headersIn := r.headersIn
  user := r.user
  passwd := r.passwd

def Request.withClient (r : Request) (client : ClientData) : Request :=
  { r with
    headersIn := client.headersIn
    user := client.user
    passwd := client.passwd }

inductive ClientRead where
  | header (name : NgxStr)
  | credentials
  deriving DecidableEq

/-- The read finds the same in the request with other data. -/
def ClientRead.Same (r : Request) (client : ClientData) : ClientRead → Prop
  | .header name => findHeader (r.withClient client) name = findHeader r name
  | .credentials => client.user = r.user ∧ client.passwd = r.passwd

section Reads
variable (sys : Sys) (conf : LocConf)

/-- The header that a piece of a template stands for. -/
def pieceHeaders : Piece → List ClientRead
  | .named name =>
      if 5 ≤ name.length ∧ ngxStrncasecmpEq name (lit "HTTP:") 5 then [.header (name.drop 5)]
      else []
  | .byte _ | .capture _ => []

def templateHeaders (tpl : NgxStr) : List ClientRead := (templatePieces tpl).flatMap pieceHeaders

def condHeaders (cond : RewriteCond) : List ClientRead :=
  if cond.test = .http then [.header cond.name]
  else if cond.test = .fspath then templateHeaders cond.name
  else []

def ruleHeaders (y : (DirCtx × RewriteRule) × RewriteState) : List ClientRead :=
  (y.1.2.conditions.getD []).flatMap condHeaders ++
    match ruleMatch sys conf y.1.1 y.1.2 y.2 with
    | none => []
    | some m => (ruleExpansions sys y.1.1 y.1.2 y.2 m).flatMap fun x => templateHeaders x.2

def engineHeaders (merged : MergedCtx) (s : SpecState) : List ClientRead :=
  (trace (ruleStep sys conf) (scannedRules merged.dirs) (rewriteStart sys s.r s.state)).flatMap
    (ruleHeaders sys conf)

/-- The first Require that the module knows is `valid-user`. -/
def asksUser : List NgxStr → Bool
  | [] => false
  | req :: reqs =>
      if isAllGranted req then false
      else if isAllDenied req then false
      else if isValidUser req then true
      else asksUser reqs

def accessReads (merged : MergedCtx) (r : Request) : List ClientRead :=
  if htaccessFilesDeny sys merged r.uri = ngxHttpForbidden then []
  else if asksUser (merged.requires.getD []) then [.credentials]
  else []

/-- What the stages of a pass read, as far as it gets. -/
def stageClient (requestUri : NgxStr) (merged : MergedCtx) (s : SpecState) : List ClientRead :=
  let rewritten := htaccessApplyRewrite sys conf s.r merged s.state
  if s.first ∧ htaccessApplyFilesDeny sys merged requestUri = .forbidden then []
  else if (htaccessApplyAlias sys merged s.state).1 = .redirect then []
  else engineHeaders sys conf merged s ++
    if rewritten.1 = .redirect then []
    else if rewritten.1 = .ok then []
    else accessReads sys merged rewritten.2.1

/-- What a run of the handler reads of the headers and the credentials. -/
def HandlerCall.clientReads (call : HandlerCall) : List ClientRead :=
  if !call.conf.enable then []
  else
    collect (specifiedPass call.sys call.conf call.r.uri)
      (fun s => stageClient call.sys call.conf call.r.uri
        (diskCtx call.sys call.conf s.r.uri) s)
      call.conf.maxRedirects (.initial call.conf call.r)

end Reads

section Rules
variable {sys : Sys} {conf : LocConf} {client : ClientData}

theorem ClientRead.Same.congr {r r' : Request} {read : ClientRead} (h : read.Same r client)
    (hclient : r'.client = r.client) : read.Same r' client := by
  injection hclient with hheaders huser hpasswd
  cases read with
  | header name =>
      have hfind : findHeader r' name = findHeader r name := by
        rw [findHeader, hheaders, findHeader]
      exact Eq.trans h hfind.symm
  | credentials => exact ⟨h.1.trans huser.symm, h.2.trans hpasswd.symm⟩

theorem expandVariable_client {r : Request} {state : RequestState} {name : NgxStr}
    (h : ∀ read ∈ pieceHeaders (.named name), read.Same r client) :
    expandVariable (r.withClient client) state name = expandVariable r state name := by
  have hheader : 5 ≤ name.length ∧ ngxStrncasecmpEq name (lit "HTTP:") 5 →
      htaccessGetHttpHeader (r.withClient client) (name.drop 5) =
        htaccessGetHttpHeader r (name.drop 5) := by
    intro hname
    have hfind : findHeader (r.withClient client) (name.drop 5) = findHeader r (name.drop 5) := by
      refine h (.header (name.drop 5)) ?_
      rw [pieceHeaders, if_pos hname]
      exact List.mem_cons_self
    rw [htaccessGetHttpHeader, hfind, htaccessGetHttpHeader]
    rfl
  unfold expandVariable
  split
  · rfl
  · split
    · rfl
    · split
      · rename_i hname
        rw [hheader hname]
      · rfl

theorem htaccessExpand_client {r : Request} {state : RequestState} {tpl : NgxStr}
    (m : Option MatchCtx) (h : ∀ read ∈ templateHeaders tpl, read.Same r client) :
    htaccessExpand sys (r.withClient client) state tpl m = htaccessExpand sys r state tpl m := by
  have htext : ∀ piece ∈ templatePieces tpl,
      piece.text sys (r.withClient client) state m = piece.text sys r state m := by
    intro piece hpiece
    cases piece with
    | byte c => rfl
    | capture d => rfl
    | named name =>
        rw [Piece.text, expandVariable_client fun read hread =>
          h read (List.mem_flatMap.mpr ⟨_, hpiece, hread⟩), Piece.text]
  rw [htaccessExpand_eq, htaccessExpand_eq, piecesText, piecesText, List.flatMap_def,
    List.map_congr_left htext, ← List.flatMap_def]

theorem htaccessTestCond_client {r : Request} {state : RequestState} {cond : RewriteCond}
    (h : ∀ read ∈ condHeaders cond, read.Same r client) :
    htaccessTestCond sys conf (r.withClient client) state cond =
      htaccessTestCond sys conf r state cond := by
  unfold condHeaders at h
  unfold htaccessTestCond
  split
  · rfl
  · split
    · rename_i hpath
      have hhttp : cond.test ≠ .http := by
        rw [hpath]
        decide
      rw [if_neg hhttp, if_pos hpath] at h
      rw [htaccessExpand_client none h]
    · have hvalue : condValue (r.withClient client) state cond = condValue r state cond := by
        unfold condValue
        split
        · rfl
        · rfl
        · rfl
        · rename_i hhttp
          rw [if_pos hhttp] at h
          have hfind : findHeader (r.withClient client) cond.name = findHeader r cond.name :=
            h (.header cond.name) List.mem_cons_self
          rw [hfind]
        · rfl
        · rfl
        · rfl
      rw [hvalue]

theorem matchConds_client {r : Request} {state : RequestState} {conds : List RewriteCond}
    (h : ∀ read ∈ conds.flatMap condHeaders, read.Same r client) :
    matchConds sys conf (r.withClient client) state conds = matchConds sys conf r state conds := by
  induction conds with
  | nil => rfl
  | cons cond conds ih =>
      rw [List.flatMap_cons] at h
      have hcond := @htaccessTestCond_client sys conf client r state cond fun read hread =>
        h read (List.mem_append_left _ hread)
      have hrest := ih fun read hread => h read (List.mem_append_right _ hread)
      simp only [matchConds, hcond, hrest]

theorem htaccessApplyEnvFlags_client {r : Request} {state : RequestState} {m : MatchCtx}
    {vars : List NgxStr}
    (h : ∀ x ∈ envExpansions sys r m state vars, ∀ read ∈ templateHeaders x.2,
      read.Same r client) :
    htaccessApplyEnvFlags sys (r.withClient client) state m vars =
      htaccessApplyEnvFlags sys r state m vars := by
  induction vars generalizing state with
  | nil => rfl
  | cons var vars ih =>
      rw [envExpansions] at h
      rw [htaccessApplyEnvFlags, htaccessApplyEnvFlags]
      cases hparts : ngxStrlchr var (ch ':') with
      | none =>
          rw [hparts] at h
          exact ih h
      | some parts =>
          obtain ⟨name, value⟩ := parts
          rw [hparts] at h
          obtain ⟨hvalue, hrest⟩ := List.forall_mem_cons.mp h
          simp only [htaccessExpand_client (some m) hvalue]
          cases hexpanded : htaccessExpand sys r state value (some m) with
          | none =>
              rw [hexpanded] at hrest
              exact ih hrest
          | some expanded =>
              rw [hexpanded] at hrest
              exact ih hrest

def RewriteState.withClient (s : RewriteState) (client : ClientData) : RewriteState :=
  { s with r := s.r.withClient client }

def RuleOutcome.withClient (client : ClientData) : RuleOutcome → RuleOutcome
  | .next s => .next (s.withClient client)
  | .result v s => .result v (s.withClient client)

section Match
variable {dir : DirCtx} {rule : RewriteRule} {s : RewriteState} {m : MatchCtx}

theorem ruleTarget_client {sub : NgxStr}
    (h : isRelativeTarget sub = true →
      ∀ read ∈ templateHeaders (htaccessApplySubstitution rule m.subject dir.rewriteBase),
        read.Same s.r client) :
    ruleTarget sys dir rule (s.withClient client) m sub = ruleTarget sys dir rule s m sub := by
  rw [ruleTarget_eq, ruleTarget_eq]
  split
  · rename_i hrelative
    simp only [RewriteState.withClient, htaccessExpand_client (some m) (h hrelative)]
  · rfl

theorem applyMatchedRule_client
    (h : ∀ tpl ∈ targetExpansions sys dir rule s m, ∀ read ∈ templateHeaders tpl,
      read.Same s.r client) :
    applyMatchedRule sys dir rule (s.withClient client) m =
      (applyMatchedRule sys dir rule s m).withClient client := by
  unfold targetExpansions at h
  unfold applyMatchedRule
  split
  · split <;> rfl
  · rename_i hdash
    rw [if_neg hdash] at h
    obtain ⟨hsub, hrest⟩ := List.forall_mem_cons.mp h
    have hexpand : htaccessExpand sys (s.withClient client).r (s.withClient client).state
        rule.substitution (some m) = htaccessExpand sys s.r s.state rule.substitution (some m) :=
      htaccessExpand_client (some m) hsub
    rw [hexpand]
    cases hexpanded : htaccessExpand sys s.r s.state rule.substitution (some m) with
    | none => rfl
    | some sub =>
        rw [hexpanded] at hrest
        simp only
        split
        · rfl
        · rename_i hchained
          have htarget := @ruleTarget_client sys client dir rule s m sub fun hrelative => by
            refine hrest _ ?_
            simp only [hrelative, Bool.not_true, Bool.or_false, hchained]
            exact List.mem_cons_self
          rw [htarget]
          split
          · rfl
          · split <;> rfl

theorem tryRule_client
    (h : ∀ read ∈ ruleHeaders sys conf ((dir, rule), s), read.Same s.r client) :
    tryRule sys conf dir rule (s.withClient client) =
      (tryRule sys conf dir rule s).withClient client := by
  have hconds : htaccessMatchConditions sys conf (s.withClient client).r
      (s.withClient client).state rule = htaccessMatchConditions sys conf s.r s.state rule :=
    matchConds_client fun read hread => h read (List.mem_append_left _ hread)
  have hfailed : (s.withClient client).ruleFailed rule = (s.ruleFailed rule).withClient client := by
    unfold RewriteState.ruleFailed
    split <;> rfl
  cases hm : ruleMatch sys conf dir rule s with
  | some m =>
      have hmatch : ruleMatch sys conf dir rule (s.withClient client) = some m := by
        rw [← hm, ruleMatch, hconds, ruleMatch]
        rfl
      have hreads : ∀ x ∈ ruleExpansions sys dir rule s m, ∀ read ∈ templateHeaders x.2,
          read.Same s.r client := by
        intro x hx read hread
        refine h read (List.mem_append_right _ ?_)
        simp only [hm]
        exact List.mem_flatMap.mpr ⟨x, hx, hread⟩
      have hmatched : matchedState sys rule (s.withClient client) m =
          (matchedState sys rule s m).withClient client := by
        have henv : htaccessApplyEnvFlags sys (s.r.withClient client) s.state m
            (rule.envVars.getD []) =
              htaccessApplyEnvFlags sys s.r s.state m (rule.envVars.getD []) :=
          htaccessApplyEnvFlags_client fun x hx => hreads x (List.mem_append_left _ hx)
        simp only [matchedState, RewriteState.withClient, henv]
      rw [tryRule_of_match _ _ _ _ _ hmatch, tryRule_of_match _ _ _ _ _ hm, hmatched]
      exact applyMatchedRule_client fun tpl htpl =>
        hreads _ (List.mem_append_right _ (List.mem_map.mpr ⟨tpl, htpl, rfl⟩))
  | none =>
      have hactive : (s.withClient client).chainActive = s.chainActive := rfl
      unfold ruleMatch at hm
      unfold tryRule
      rw [hconds, hfailed, hactive]
      split
      · rfl
      · rename_i hchain
        rw [if_neg hchain] at hm
        split
        · rfl
        · rename_i hcompiles
          rw [if_neg hcompiles] at hm
          split
          · rfl
          · rename_i hholds
            rw [if_neg hholds] at hm
            have hrel : htaccessRelativeUri (s.withClient client).state.uri dir.urlPrefix =
                htaccessRelativeUri s.state.uri dir.urlPrefix := rfl
            simp only [hrel] at hm ⊢
            cases hround : sys.regexExec rule.pattern rule.nocase
                (htaccessRelativeUri s.state.uri dir.urlPrefix) with
            | noMatched => rfl
            | error => rfl
            | matched pairs =>
                rw [hround] at hm
                cases hm

theorem tryRule_keepsClient : (tryRule sys conf dir rule s).left.r.client = s.r.client := by
  have hcase := tryRule_case sys conf dir rule s
  generalize tryRule sys conf dir rule s = outcome at hcase
  cases hcase with
  | kept _ _ hr _ _ => rw [hr]
  | redirected t _ hr _ => exact congrArg Request.client hr
  | wrote out env t _ heq =>
      have hleft : t.r.client = s.r.client := congrArg (fun p => p.1.client) heq
      split <;> exact hleft

end Match

end Rules

section Stages
variable {sys : Sys} {conf : LocConf} {client : ClientData}

/-- The engine on the request of another client. -/
theorem htaccessApplyRewrite_client {merged : MergedCtx} {s : SpecState}
    (h : ∀ read ∈ engineHeaders sys conf merged s, read.Same s.r client) :
    htaccessApplyRewrite sys conf (s.r.withClient client) merged s.state =
        ((htaccessApplyRewrite sys conf s.r merged s.state).1,
          (htaccessApplyRewrite sys conf s.r merged s.state).2.1.withClient client,
          (htaccessApplyRewrite sys conf s.r merged s.state).2.2) ∧
      (htaccessApplyRewrite sys conf s.r merged s.state).2.1.client = s.r.client := by
  have hscan : RoundRel
      (fun t t' : RewriteState => t' = t.withClient client ∧ t.r.client = s.r.client)
      (fun x x' : HtaccessResult × RewriteState =>
        x' = (x.1, x.2.withClient client) ∧ x.2.r.client = s.r.client)
      (scan (ruleStep sys conf) (scannedRules merged.dirs) (rewriteStart sys s.r s.state))
      (scan (ruleStep sys conf) (scannedRules merged.dirs)
        (rewriteStart sys (s.r.withClient client) s.state)) := by
    refine scan_rel (fun y hy t' ht => ?_) ⟨rfl, rfl⟩
    obtain ⟨rfl, hclient⟩ := ht
    have htry : tryRule sys conf y.1.1 y.1.2 (y.2.withClient client) =
        (tryRule sys conf y.1.1 y.1.2 y.2).withClient client :=
      tryRule_client fun read hread =>
        (h read (List.mem_flatMap.mpr ⟨y, hy, hread⟩)).congr hclient
    have hkept := @tryRule_keepsClient sys conf y.1.1 y.1.2 y.2
    rw [ruleStep, ruleStep, htry]
    generalize tryRule sys conf y.1.1 y.1.2 y.2 = outcome at hkept
    cases outcome with
    | next t => exact ⟨rfl, Eq.trans hkept hclient⟩
    | result v t => exact ⟨rfl, Eq.trans hkept hclient⟩
  rw [htaccessApplyRewrite_eq, htaccessApplyRewrite_eq]
  generalize scan _ _ (rewriteStart sys s.r s.state) = round at hscan ⊢
  generalize scan _ _ (rewriteStart sys (s.r.withClient client) s.state) = round' at hscan ⊢
  cases round with
  | again t =>
      cases round' with
      | stop _ => exact hscan.elim
      | again t' =>
          obtain ⟨rfl, hclient⟩ := hscan
          exact ⟨rfl, hclient⟩
  | stop x =>
      cases round' with
      | again _ => exact hscan.elim
      | stop x' =>
          obtain ⟨rfl, hclient⟩ := hscan
          exact ⟨rfl, hclient⟩

theorem scanRequires_client {r : Request} {merged : MergedCtx} {reqs : List NgxStr}
    (h : asksUser reqs = true → (ClientRead.credentials).Same r client) :
    scanRequires sys (r.withClient client) merged reqs = scanRequires sys r merged reqs := by
  induction reqs with
  | nil => rfl
  | cons req reqs ih =>
      rw [asksUser] at h
      rw [scanRequires, scanRequires]
      split
      · rfl
      · rename_i hgranted
        split
        · rfl
        · rename_i hdenied
          rw [if_neg hgranted, if_neg hdenied] at h
          split
          · rename_i huser
            rw [if_pos huser] at h
            obtain ⟨hname, hpass⟩ := h rfl
            simp only [validUserRc, Request.withClient, hname, hpass]
          · rename_i huser
            rw [if_neg huser] at h
            exact ih h

theorem htaccessApplyAuth_client {merged : MergedCtx} {r : Request}
    (h : ∀ read ∈ accessReads sys merged r, read.Same r client) :
    htaccessApplyAuth sys (r.withClient client) merged =
      ((htaccessApplyAuth sys r merged).1,
        (htaccessApplyAuth sys r merged).2.withClient client) := by
  have huri : (r.withClient client).uri = r.uri := rfl
  unfold accessReads at h
  unfold htaccessApplyAuth
  rw [huri]
  split
  · rfl
  · rename_i hopen
    rw [if_neg hopen] at h
    have hsat : htaccessRequireSatisfied sys (r.withClient client) merged =
        htaccessRequireSatisfied sys r merged := by
      rw [htaccessRequireSatisfied, scanRequires_client fun hasks => ?_, htaccessRequireSatisfied]
      rw [if_pos hasks] at h
      exact h .credentials List.mem_cons_self
    rw [hsat]
    split
    · rfl
    · simp only
      split
      · split <;> rfl
      · split <;> rfl

def SpecState.withClient (s : SpecState) (client : ClientData) : SpecState :=
  { s with r := s.r.withClient client }

def Answer.withClient (out : Answer) (client : ClientData) : Answer :=
  { out with r := out.r.withClient client }

/-- The rounds go on or end alike, each with the data of its own client. -/
abbrev RoundClient (client : ClientData) (r : Request) :
    Round SpecState Answer → Round SpecState Answer → Prop :=
  RoundRel (fun t t' => t' = t.withClient client ∧ t.r.client = r.client)
    (fun out out' => out' = out.withClient client)

theorem htaccessApplyAuth_keepsClient (sys : Sys) (r : Request) (merged : MergedCtx) :
    (htaccessApplyAuth sys r merged).2.client = r.client := by
  unfold htaccessApplyAuth
  split
  · rfl
  · split
    · rfl
    · simp only
      split
      · split <;> rfl
      · split <;> rfl

theorem specifiedAccess_client {merged : MergedCtx} {r : Request} {state : RequestState}
    (h : ∀ read ∈ accessReads sys merged r, read.Same r client) :
    RoundClient client r (specifiedAccess sys merged r state)
      (specifiedAccess sys merged (r.withClient client) state) := by
  have hkept := htaccessApplyAuth_keepsClient sys r merged
  unfold specifiedAccess
  rw [htaccessApplyAuth_client h]
  generalize htaccessApplyAuth sys r merged = access at hkept ⊢
  simp only
  cases refusalCode access.1 with
  | none => exact rfl
  | some code =>
      simp only
      cases htaccessErrorUri merged code with
      | none => exact rfl
      | some uri => exact ⟨rfl, hkept⟩

theorem specifiedOn_client {requestUri : NgxStr} {merged : MergedCtx} {s : SpecState}
    (h : ∀ read ∈ stageClient sys conf requestUri merged s, read.Same s.r client) :
    RoundClient client s.r (specifiedOn sys conf requestUri merged s)
      (specifiedOn sys conf requestUri merged (s.withClient client)) := by
  have hother : specifiedOn sys conf requestUri merged (s.withClient client) =
      if s.first ∧ htaccessApplyFilesDeny sys merged requestUri = .forbidden then
        .stop { s.withClient client with rc := ngxHttpForbidden }
      else if (htaccessApplyAlias sys merged s.state).1 = .redirect then
        .stop (specifiedRedirect (s.r.withClient client) (htaccessApplyAlias sys merged s.state).2)
      else
        let rewritten := htaccessApplyRewrite sys conf (s.r.withClient client) merged s.state
        if rewritten.1 = .redirect then .stop (specifiedRedirect rewritten.2.1 rewritten.2.2)
        else if rewritten.1 = .ok then
          .again {
            first := false, r := htaccessApplyUri rewritten.2.1 rewritten.2.2
            state := htaccessResolveFilename conf rewritten.2.2 }
        else specifiedAccess sys merged rewritten.2.1 rewritten.2.2 := rfl
  unfold stageClient at h
  simp only at h
  rw [hother]
  unfold specifiedOn
  simp only
  split
  · exact rfl
  · rename_i hdenied
    rw [if_neg hdenied] at h
    split
    · exact rfl
    · rename_i hredirect
      rw [if_neg hredirect] at h
      obtain ⟨hrewrite, hkept⟩ := htaccessApplyRewrite_client fun read hread =>
        h read (List.mem_append_left _ hread)
      rw [hrewrite]
      generalize htaccessApplyRewrite sys conf s.r merged s.state = rewritten at h hkept ⊢
      simp only
      split
      · exact rfl
      · rename_i hredirect
        rw [if_neg hredirect] at h
        split
        · exact ⟨rfl, hkept⟩
        · rename_i hok
          rw [if_neg hok] at h
          have haccess := @specifiedAccess_client sys client merged rewritten.2.1 rewritten.2.2
            fun read hread => (h read (List.mem_append_right _ hread)).congr hkept
          rw [RoundClient, hkept] at haccess
          exact haccess

end Stages

section Calls

def HandlerCall.withClient (call : HandlerCall) (client : ClientData) : HandlerCall :=
  { call with r := call.r.withClient client }

structure SameForClient (call call' : HandlerCall) : Prop where
  same : call' = call.withClient call'.r.client
  reads : ∀ read ∈ call.clientReads, read.Same call.r call'.r.client

/-- An answer as far as it is not what the client has sent. -/
def withoutClient (out : Int × Request) : Int × Request :=
  (out.1, out.2.withClient { headersIn := [], user := [], passwd := [] })

theorem specified_client {sys : Sys} {conf : LocConf} {r : Request} {client : ClientData}
    (h : ∀ read ∈ collect (specifiedPass sys conf r.uri)
      (fun s => stageClient sys conf r.uri (diskCtx sys conf s.r.uri) s) conf.maxRedirects
      (.initial conf r), read.Same r client) :
    specified sys conf (r.withClient client) = (specified sys conf r).withClient client := by
  refine @run_rel SpecState Answer SpecState Answer (specifiedPass sys conf r.uri)
    (specifiedPass sys conf r.uri) SpecState.spent SpecState.spent
    (fun t t' => t' = t.withClient client ∧ t.r.client = r.client)
    (fun out out' => out' = out.withClient client) ?_ conf.maxRedirects (.initial conf r)
    (.initial conf (r.withClient client)) ?_ ⟨rfl, rfl⟩
  · rintro t _ ⟨rfl, -⟩
    rfl
  · rintro t _ hvisit ⟨rfl, hclient⟩
    have hpass := @specifiedOn_client sys conf client r.uri (diskCtx sys conf t.r.uri) t
      fun read hread => (h read (mem_collect hvisit hread)).congr hclient
    rw [RoundClient, hclient] at hpass
    exact hpass

theorem SameForClient.outcome {call call' : HandlerCall} (h : SameForClient call call') :
    withoutClient call'.outcome = withoutClient call.outcome := by
  obtain ⟨hcall, hreads⟩ := h
  generalize call'.r.client = client at hcall hreads
  subst hcall
  unfold HandlerCall.clientReads at hreads
  unfold HandlerCall.outcome HandlerCall.withClient
  split
  · rfl
  · rename_i henabled
    rw [if_neg henabled] at hreads
    simp only [specified_client hreads]
    rfl

end Calls

end NgxHtaccess
