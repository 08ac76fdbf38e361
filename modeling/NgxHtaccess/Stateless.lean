import NgxHtaccess.CacheTransparency
import NgxHtaccess.EffectiveContext
import NgxHtaccess.Lifetime

/-!
What the module answers, stated without a worker.

The answer to a request is a function of the files, the configuration and the
request: every pass reads the files along its URI afresh, and nothing is kept from
one pass or request to the next but the request itself. The handler refines it: over
any sequence of runs, with a cache of any size in any setting, the answers are these.
-/
namespace NgxHtaccess
open BoundedLoop Monitor

section Spec
variable (sys : Sys) (conf : LocConf)

/-- The file of a directory as it can be read now. -/
def diskFile (d : WalkDir) : Option ChainFile :=
  match readFile sys 0 d.path with
  | (rc, parsed) =>
      if rc ≠ ngxOk then none
      else some { dir := d, directives := (parsed.map (·.directives)).getD [] }

/-- The files along a URI. -/
def diskChain (uri : NgxStr) : List ChainFile := (walkDirs conf uri).filterMap (diskFile sys)

/-- What is in force at a URI. -/
def diskCtx (uri : NgxStr) : MergedCtx := mergeChain (diskChain sys conf uri)

/-- Where a pass starts. -/
structure SpecState where
  first : Bool
  r : Request
  state : RequestState

structure Answer where
  rc : Int
  r : Request
  state : RequestState

def specifiedRedirect (r : Request) (state : RequestState) : Answer where
  rc := (htaccessSendRedirect r state).1
  r := (htaccessSendRedirect r state).2
  state := state

/-- The end of a pass that neither redirects nor restarts the request. -/
def specifiedAccess (merged : MergedCtx) (r : Request) (state : RequestState) :
    Round SpecState Answer :=
  let access := htaccessApplyAuth sys r merged
  match refusalCode access.1 with
  | none =>
      .stop {
        rc := ngxDeclined, state
        r := { access.2 with headersOut :=
          access.2.headersOut ++ servedHeaders merged access.2.contentType } }
  | some code =>
      match htaccessErrorUri merged code with
      | none => .stop { rc := code, r := access.2, state }
      | some uri =>
          .again {
            first := false, r := htaccessApplyUri access.2 { state with uri }
            state := { state with uri } }

/-- One pass under the context `merged`. -/
def specifiedOn (requestUri : NgxStr) (merged : MergedCtx) (s : SpecState) :
    Round SpecState Answer :=
  let aliased := htaccessApplyAlias sys merged s.state
  let rewritten := htaccessApplyRewrite sys conf s.r merged s.state
  if s.first ∧ htaccessApplyFilesDeny sys merged requestUri = .forbidden then
    .stop { s with rc := ngxHttpForbidden }
  else if aliased.1 = .redirect then .stop (specifiedRedirect s.r aliased.2)
  else if rewritten.1 = .redirect then .stop (specifiedRedirect rewritten.2.1 rewritten.2.2)
  else if rewritten.1 = .ok then
    .again {
      first := false, r := htaccessApplyUri rewritten.2.1 rewritten.2.2
      state := htaccessResolveFilename conf rewritten.2.2 }
  else specifiedAccess sys merged rewritten.2.1 rewritten.2.2

def specifiedPass (requestUri : NgxStr) (s : SpecState) : Round SpecState Answer :=
  specifiedOn sys conf requestUri (diskCtx sys conf s.r.uri) s

def SpecState.initial (r : Request) : SpecState where
  first := true
  r := r
  state := htaccessResolveFilename conf
    { uri := r.uri, filename := [], queryString := r.args, env := none, redirectCode := 0 }

def SpecState.spent (s : SpecState) : Answer := { s with rc := ngxDeclined }

def specified (r : Request) : Answer :=
  run (specifiedPass sys conf r.uri) SpecState.spent conf.maxRedirects (.initial conf r)

end Spec

section Stages
variable (sys : Sys) (conf : LocConf) (requestUri : NgxStr)

def Answer.withoutPools (out : Answer) : Answer := { out with r := out.r.withoutPools }

/-- Results that a client cannot tell apart. -/
def SameAnswer (out out' : Answer) : Prop := out.withoutPools = out'.withoutPools

abbrev SameRound : Round SpecState Answer → Round SpecState Answer → Prop :=
  RoundRel (· = ·) SameAnswer

theorem specifiedAccess_effective (merged : MergedCtx) (r : Request) (state : RequestState) :
    SameRound (specifiedAccess sys merged.effective r state)
      (specifiedAccess sys merged r state) := by
  unfold specifiedAccess
  simp only [htaccessApplyAuth_effective]
  cases hcode : refusalCode (htaccessApplyAuth sys r merged).1 with
  | none =>
      have hserved := servedHeaders_effective merged
        (htaccessApplyAuth sys r merged).2.contentType
      simp only [SameRound, RoundRel, SameAnswer, Answer.withoutPools,
        Request.withoutPools, List.map_append, hserved]
  | some code =>
      simp only [htaccessErrorUri_effective merged hcode]
      cases htaccessErrorUri merged code with
      | none => exact rfl
      | some uri => exact rfl

theorem specifiedOn_effective (merged : MergedCtx) (s : SpecState) :
    SameRound (specifiedOn sys conf requestUri merged.effective s)
      (specifiedOn sys conf requestUri merged s) := by
  have halias : htaccessApplyAlias sys merged.effective s.state =
      htaccessApplyAlias sys merged s.state := rfl
  have hrewrite : htaccessApplyRewrite sys conf s.r merged.effective s.state =
      htaccessApplyRewrite sys conf s.r merged s.state := rfl
  unfold specifiedOn
  rw [htaccessApplyFilesDeny_effective, halias, hrewrite]
  split
  · exact rfl
  · simp only
    split
    · exact rfl
    · split
      · exact rfl
      · split
        · exact rfl
        · exact specifiedAccess_effective sys merged _ _

/-- Contexts with the same effective part answer a pass alike. -/
theorem specifiedOn_of_effective {m m' : MergedCtx} (h : m.effective = m'.effective)
    (s : SpecState) :
    SameRound (specifiedOn sys conf requestUri m s) (specifiedOn sys conf requestUri m' s) := by
  have hleft := specifiedOn_effective sys conf requestUri m s
  have hright := specifiedOn_effective sys conf requestUri m' s
  rw [h] at hleft
  generalize specifiedOn sys conf requestUri m'.effective s = mid at hleft hright
  generalize specifiedOn sys conf requestUri m s = left at hleft ⊢
  generalize specifiedOn sys conf requestUri m' s = right at hright ⊢
  cases mid <;> cases left <;> cases right <;>
    first | exact hleft.elim | exact hright.elim | exact Eq.trans (Eq.symm hleft) hright

/-- The state of a pass without its worker and its trace. -/
def LoopState.start (s : LoopState) : SpecState where
  first := s.pass = 0
  r := s.r
  state := s.state

def ExecResult.answer (out : ExecResult) : Answer where
  rc := out.rc
  r := out.r
  state := out.state

/-- The rounds agree on all but the worker and the trace. -/
abbrev RoundAnswered : Round LoopState ExecResult → Round SpecState Answer → Prop :=
  RoundRel (fun t t' => t.start = t') (fun out out' => out.answer = out')

theorem refuse_specifiedAccess {s : LoopState} {code : Nat}
    (hcode : refusalCode (passAuth sys conf s).1 = some code) :
    RoundAnswered (refuse (passCtx sys conf s) code (checked sys conf requestUri s))
      (specifiedAccess sys (passCtx sys conf s) (passRewrite sys conf s).2.1
        (passRewrite sys conf s).2.2) := by
  have hcode' : refusalCode (htaccessApplyAuth sys (passRewrite sys conf s).2.1
    (passCtx sys conf s)).1 = some code := hcode
  unfold refuse specifiedAccess
  simp only [hcode']
  cases htaccessErrorUri (passCtx sys conf s) code with
  | none => rfl
  | some uri => rfl

theorem serve_specifiedAccess {s : LoopState} (hv : (passAuth sys conf s).1 = .declined) :
    RoundAnswered (.stop (serve sys conf (passCtx sys conf s) (checked sys conf requestUri s)))
      (specifiedAccess sys (passCtx sys conf s) (passRewrite sys conf s).2.1
        (passRewrite sys conf s).2.2) := by
  have hv' : refusalCode (htaccessApplyAuth sys (passRewrite sys conf s).2.1
    (passCtx sys conf s)).1 = none := congrArg refusalCode hv
  unfold specifiedAccess
  simp only [hv', RoundRel, serve, htaccessApplyHeaders_served]
  rfl

/-- A pass does what the specification says on the context that its walk builds. -/
theorem htaccessPass_specifiedOn (s : LoopState) :
    RoundAnswered (htaccessPass sys conf requestUri s)
      (specifiedOn sys conf requestUri (passCtx sys conf s) s.start) := by
  have hfirst : (s.start.first ∧
      htaccessApplyFilesDeny sys (passCtx sys conf s) requestUri = .forbidden) ↔
        DeniedAtOnce sys conf requestUri s := by
    simp only [LoopState.start, DeniedAtOnce, decide_eq_true_eq]
  have hreaches : ReachesAccess sys conf requestUri s →
      specifiedOn sys conf requestUri (passCtx sys conf s) s.start =
        specifiedAccess sys (passCtx sys conf s) (passRewrite sys conf s).2.1
          (passRewrite sys conf s).2.2 := by
    rintro ⟨hd, ha, hr, hk⟩
    exact (if_neg (mt hfirst.mp hd)).trans ((if_neg ha).trans ((if_neg hr).trans (if_neg hk)))
  have hcase := htaccessPass_case sys conf requestUri s
  generalize htaccessPass sys conf requestUri s = round at hcase
  cases hcase with
  | denied hd =>
      have heq : specifiedOn sys conf requestUri (passCtx sys conf s) s.start = _ :=
        if_pos (hfirst.mpr hd)
      rw [heq]
      rfl
  | aliasRedirect hd ha =>
      have heq : specifiedOn sys conf requestUri (passCtx sys conf s) s.start = _ :=
        (if_neg (mt hfirst.mp hd)).trans (if_pos ha)
      rw [heq]
      rfl
  | ruleRedirect hd ha hr =>
      have heq : specifiedOn sys conf requestUri (passCtx sys conf s) s.start = _ :=
        (if_neg (mt hfirst.mp hd)).trans ((if_neg ha).trans (if_pos hr))
      rw [heq]
      rfl
  | restarted hd ha hk =>
      have hr : (passRewrite sys conf s).1 ≠ .redirect := by
        rw [hk]
        decide
      have heq : specifiedOn sys conf requestUri (passCtx sys conf s) s.start = _ :=
        (if_neg (mt hfirst.mp hd)).trans ((if_neg ha).trans ((if_neg hr).trans (if_pos hk)))
      rw [heq]
      rfl
  | refused code hreach hcode =>
      rw [hreaches hreach]
      exact refuse_specifiedAccess sys conf requestUri hcode
  | served hreach hv =>
      rw [hreaches hreach]
      exact serve_specifiedAccess sys conf requestUri hv

end Stages

/-- Time and size of a file tell its content, and the lines of the files that a walk can read
have their arguments. -/
structure RegularFiles (content : Content) (sys : Sys) (conf : LocConf) : Prop where
  determined : Determined content sys.fs
  given : ∀ uri, ∀ d ∈ walkDirs conf uri, FileGiven (sys.fs.openFile d.path)

section Walk
variable {sys : Sys} {content : Content} {conf : LocConf} {w : Worker}

theorem CacheFaithful.emit (h : CacheFaithful content w) (e : PoolEvent) :
    CacheFaithful content (w.emit e) :=
  ⟨h.wf, h.entries⟩

theorem effectiveDirectives_inPool (pool : PoolId) (ds : List Directive) :
    effectiveDirectives (ds.map (Directive.inPool pool)) = effectiveDirectives ds := by
  have hd : ∀ d : Directive, (d.inPool pool).inPool 0 = d.inPool 0 := by
    rintro ⟨scope, u⟩
    cases u <;> rfl
  rw [effectiveDirectives, List.filter_map, List.map_map, effectiveDirectives]
  simp only [Function.comp_def, idle_inPool, hd]

theorem effectiveDirectives_of_inPool {parsed parsed' : Option ParsedFile}
    (h : parsed.map (ParsedFile.inPool 0) = parsed'.map (ParsedFile.inPool 0)) :
    effectiveDirectives ((parsed.map (·.directives)).getD []) =
      effectiveDirectives ((parsed'.map (·.directives)).getD []) := by
  have hgo : ∀ parsed : Option ParsedFile,
      effectiveDirectives ((parsed.map (·.directives)).getD []) =
        effectiveDirectives
          (((parsed.map (ParsedFile.inPool 0)).map (·.directives)).getD []) := by
    intro parsed
    cases parsed with
    | none => rfl
    | some file => exact (effectiveDirectives_inPool 0 file.directives).symm
  rw [hgo parsed, hgo parsed', h]

theorem loadedFile_effective (hfs : Determined content sys.fs) {d : WalkDir}
    (hgiven : FileGiven (sys.fs.openFile d.path)) (h : CacheFaithful content w) :
    (loadedFile sys conf w d).map ChainFile.effective =
      (diskFile sys d).map ChainFile.effective := by
  obtain ⟨hrc, hparsed⟩ := htaccessLoadFile_of_faithful content sys hfs hgiven conf h 0
  have hown : (readFile sys 0 d.path).2.map (ParsedFile.inPool 0) = (readFile sys 0 d.path).2 := by
    rw [← hparsed, Option.map_map]
    exact congrArg (Option.map · _) (funext (inPool_inPool 0 0))
  unfold loadedFile diskFile
  generalize htaccessLoadFile sys conf w d.path = loaded at hrc hparsed
  obtain ⟨rc, parsed, w'⟩ := loaded
  generalize readFile sys 0 d.path = onDisk at hrc hparsed hown
  obtain ⟨rc', parsed'⟩ := onDisk
  simp only at hrc hparsed hown ⊢
  rw [hrc]
  split
  · rfl
  · simp only [Option.map_some, ChainFile.effective,
      effectiveDirectives_of_inPool (hparsed.trans hown.symm)]

theorem visitDir_faithful (hfs : Determined content sys.fs) (h : CacheFaithful content w)
    (merged : MergedCtx) (d : WalkDir) :
    CacheFaithful content (visitDir sys conf (merged, w) d).2 := by
  have hload := htaccessLoadFile_faithful content sys hfs conf d.path h
  unfold visitDir
  generalize htaccessLoadFile sys conf w d.path = loaded at hload
  obtain ⟨rc, parsed, w'⟩ := loaded
  simp only
  split
  · exact hload
  · split
    · split
      · exact hload
      · exact hload.emit _
    · exact hload

theorem loadChain_effective (hfs : Determined content sys.fs) {ds : List WalkDir}
    (hgiven : ∀ d ∈ ds, FileGiven (sys.fs.openFile d.path)) (h : CacheFaithful content w) :
    (loadChain sys conf w ds).map ChainFile.effective =
      (ds.filterMap (diskFile sys)).map ChainFile.effective := by
  induction ds generalizing w with
  | nil => rfl
  | cons d ds ih =>
      obtain ⟨hd, hgiven⟩ := List.forall_mem_cons.mp hgiven
      have hfile := @loadedFile_effective sys content conf w hfs d hd h
      have hworker : CacheFaithful content (visitWorker sys conf w d) :=
        visitDir_faithful hfs h {} d
      rw [loadChain, List.map_append, ih hgiven hworker, List.filterMap_cons]
      generalize loadedFile sys conf w d = loaded at hfile
      generalize diskFile sys d = onDisk at hfile
      cases loaded with
      | none =>
          cases onDisk with
          | none => rfl
          | some f => cases hfile
      | some f =>
          cases onDisk with
          | none => cases hfile
          | some f' =>
              injection hfile with hfile
              simp only [Option.toList_some, List.map_cons, List.map_nil, hfile]
              rfl

section Passes
variable (hfiles : RegularFiles content sys conf)
include hfiles

theorem passCtx_effective {s : LoopState} (h : CacheFaithful content s.worker) :
    (passCtx sys conf s).effective =
      (diskCtx sys conf s.r.uri).effective := by
  rw [passCtx, htaccessBuildMergedCtx_eq, ← effective_mergeChain, uriChain,
    loadChain_effective hfiles.determined (hfiles.given s.r.uri) (h.emit _), effective_mergeChain]
  rfl

theorem passWorker_faithful {s : LoopState} (h : CacheFaithful content s.worker) :
    CacheFaithful content (passWorker sys conf s) := by
  have hwalk : ∀ (ds : List WalkDir) (merged : MergedCtx) (w : Worker),
      CacheFaithful content w →
        CacheFaithful content (ds.foldl (visitDir sys conf) (merged, w)).2 := by
    intro ds
    induction ds with
    | nil => exact fun _ _ hw => hw
    | cons d ds ih =>
        exact fun merged w hw => ih _ _ (visitDir_faithful hfiles.determined hw merged d)
  exact hwalk _ _ _ (h.emit _)

omit hfiles in
theorem foldl_emit_faithful (h : CacheFaithful content w) (pools : List PoolId) :
    CacheFaithful content (pools.foldl (fun w p => w.emit (.header p)) w) := by
  induction pools generalizing w with
  | nil => exact h
  | cons pool pools ih => exact ih (h.emit _)

/-- A state of the loop with a faithful cache, at the start of a specified pass. -/
structure Refines (content : Content) (s : LoopState) (p : SpecState) : Prop where
  start : s.start = p
  faithful : CacheFaithful content s.worker

structure ResultRefines (content : Content) (out : ExecResult) (a : Answer) :
    Prop where
  same : SameAnswer out.answer a
  faithful : CacheFaithful content out.worker

omit hfiles in
theorem worker_of_again {s t : LoopState} {requestUri : NgxStr}
    (h : htaccessPass sys conf requestUri s = .again t) : t.worker = passWorker sys conf s := by
  obtain ⟨_, _, _, rfl⟩ | ⟨code, uri, _, _, _, rfl⟩ :=
    htaccessPass_again_cases sys conf requestUri s h
  · rfl
  · rfl

omit hfiles in
theorem worker_of_stop {s : LoopState} {out : ExecResult} {requestUri : NgxStr}
    (h : htaccessPass sys conf requestUri s = .stop out) :
    ∃ pools : List PoolId,
      out.worker = pools.foldl (fun w p => w.emit (.header p)) (passWorker sys conf s) := by
  obtain ⟨_, rfl⟩ | ⟨_, _, rfl⟩ | ⟨_, _, _, rfl⟩ | ⟨code, _, _, _, rfl⟩ | ⟨_, _, rfl⟩ :=
    htaccessPass_stop_cases sys conf requestUri s h
  · exact ⟨[], rfl⟩
  · exact ⟨[], rfl⟩
  · exact ⟨[], rfl⟩
  · exact ⟨[], rfl⟩
  · exact ⟨_, rfl⟩

/-- One pass through a faithful cache refines one specified pass. -/
theorem htaccessPass_refines {s : LoopState} {p : SpecState} (h : Refines content s p)
    (requestUri : NgxStr) :
    RoundRel (Refines content) (ResultRefines content)
      (htaccessPass sys conf requestUri s)
      (specifiedPass sys conf requestUri p) := by
  obtain ⟨rfl, hs⟩ := h
  have hpass := htaccessPass_specifiedOn sys conf requestUri s
  have hdisk : SameRound _ (specifiedPass sys conf requestUri s.start) :=
    specifiedOn_of_effective sys conf requestUri (passCtx_effective hfiles hs) s.start
  refine (hpass.comp hdisk).imp (fun t p' ht _ hstart => ?_) fun out a hout _ hanswer => ?_
  · obtain ⟨_, rfl, rfl⟩ := hstart
    exact ⟨rfl, worker_of_again ht ▸ passWorker_faithful hfiles hs⟩
  · obtain ⟨_, rfl, hsame⟩ := hanswer
    obtain ⟨pools, hworker⟩ := worker_of_stop hout
    exact ⟨hsame, hworker ▸ foldl_emit_faithful (passWorker_faithful hfiles hs) pools⟩

/-- A run through a faithful cache gives the specified answer and keeps the cache faithful. -/
theorem htaccessExecute_refines (h : CacheFaithful content w) (r : Request) :
    ResultRefines content (htaccessExecute sys conf r w)
      (specified sys conf r) := by
  have hlast : ∀ s p, Refines content s p → ResultRefines content s.spent p.spent := by
    rintro s _ ⟨rfl, hs⟩
    exact ⟨rfl, hs⟩
  exact run_rel hlast (fun _ _ _ hs => htaccessPass_refines hfiles hs r.uri) ⟨rfl, h⟩

end Passes

end Walk

/-- The specified outcome of a run, as the client sees it. -/
def HandlerCall.outcome (call : HandlerCall) : Int × Request :=
  if !call.conf.enable then (ngxDeclined, call.r.withoutPools)
  else
    let out := specified call.sys call.conf call.r
    (out.rc, out.r.withoutPools)

/-- The files as the run finds them are regular. -/
def HandlerCall.Regular (content : Content) (call : HandlerCall) : Prop :=
  RegularFiles content call.sys call.conf

theorem HandlerCall.run_outcome {content : Content} {w : Worker} (h : CacheFaithful content w)
    {call : HandlerCall} (hcall : call.Regular content) :
    ((call.run w).1, (call.run w).2.1.withoutPools) = call.outcome ∧
      CacheFaithful content (call.run w).2.2 := by
  unfold HandlerCall.run HandlerCall.outcome ngxHttpHtaccessHandler
  split
  · exact ⟨rfl, h⟩
  · obtain ⟨hsame, hkept⟩ := htaccessExecute_refines hcall (h.emit (.start call.request)) call.r
    have hrc := congrArg Answer.rc hsame
    have hr := congrArg Answer.r hsame
    exact ⟨Prod.ext hrc hr, hkept.emit _⟩

theorem cacheFaithful_init (content : Content) {maxEntries : Nat} {w : Worker}
    (hinit : w.cache = htaccessCacheInit maxEntries) : CacheFaithful content w := by
  refine ⟨hinit ▸ wf_htaccessCacheInit maxEntries, fun e he => ?_⟩
  rw [hinit] at he
  cases he

theorem cacheFaithful_start (content : Content) (maxEntries : Nat) (entryAllocs : List Bool) :
    CacheFaithful content (startWorker maxEntries entryAllocs) :=
  cacheFaithful_init content rfl

section Host

def HostStep.call : HostStep → Option HandlerCall
  | .handle call => some call
  | .complete _ => none

def hostCalls (steps : List HostStep) : List HandlerCall := steps.filterMap HostStep.call

/-- What the runs return, one after the other, as their clients see it. -/
def hostOutcomes : Worker → List HostStep → List (Int × Request)
  | _, [] => []
  | w, .complete request :: steps => hostOutcomes (w.emit (.complete request)) steps
  | w, .handle call :: steps =>
      let out := call.run w
      (out.1, out.2.1.withoutPools) :: hostOutcomes out.2.2 steps

/-- What a worker process has done: its answers, and the worker that it has become. -/
structure HostRun where
  answers : List (Int × Request)
  worker : Worker

/-- The log of a worker process shows no pool destroyed that a live request refers to. -/
def NoneFreedInUse (w : Worker) : Prop := Accepts LiveRefs.next DestroysUnheld .none w.log

instance (w : Worker) : Decidable (NoneFreedInUse w) := inferInstanceAs (Decidable (Accepts ..))

/-- A worker process from its start. It is defined as long as no pool is destroyed that a live
request refers to: past that the module reads freed memory. -/
def hostRun (maxEntries : Nat) (entryAllocs : List Bool) (steps : List HostStep) :
    Option HostRun :=
  let start := startWorker maxEntries entryAllocs
  if NoneFreedInUse (runHost start steps) then
    some { answers := hostOutcomes start steps, worker := runHost start steps }
  else none

/-- No load of the process has to evict a pool that a live request refers to. -/
structure SafeLoads (maxEntries : Nat) (entryAllocs : List Bool) (steps : List HostStep) :
    Prop where
  victims : Accepts LiveRefs.next VictimsUnheld .none
    (runHost (startWorker maxEntries entryAllocs) steps).log

instance (maxEntries : Nat) (entryAllocs : List Bool) (steps : List HostStep) :
    Decidable (SafeLoads maxEntries entryAllocs steps) :=
  decidable_of_iff (Accepts LiveRefs.next VictimsUnheld .none
    (runHost (startWorker maxEntries entryAllocs) steps).log) ⟨.mk, SafeLoads.victims⟩

theorem SafeLoads.of_append {maxEntries : Nat} {entryAllocs : List Bool}
    {steps steps' : List HostStep} (h : SafeLoads maxEntries entryAllocs (steps ++ steps')) :
    SafeLoads maxEntries entryAllocs steps := by
  have hfirst := runHost_follows steps (cacheOwned_start maxEntries entryAllocs)
  obtain ⟨es, hlog, -⟩ := (runHost_follows steps' hfirst.owned).tracks
  have hsplit : runHost (startWorker maxEntries entryAllocs) (steps ++ steps') =
      runHost (runHost (startWorker maxEntries entryAllocs) steps) steps' := List.foldl_append
  have hvictims := h.victims
  rw [hsplit, hlog, accepts_append] at hvictims
  exact ⟨hvictims.1⟩

theorem hostRun_of_safe {maxEntries : Nat} {entryAllocs : List Bool} {steps : List HostStep}
    (h : SafeLoads maxEntries entryAllocs steps) :
    hostRun maxEntries entryAllocs steps = some {
      answers := hostOutcomes (startWorker maxEntries entryAllocs) steps
      worker := runHost (startWorker maxEntries entryAllocs) steps } :=
  if_pos <| (runHost_follows steps (cacheOwned_start maxEntries entryAllocs)).accepts_iff.mpr
    h.victims

theorem HostStep.run_faithful {content : Content} {w : Worker} (h : CacheFaithful content w)
    {step : HostStep} (hstep : ∀ call ∈ step.call, call.Regular content) :
    CacheFaithful content (step.run w) := by
  cases step with
  | handle call => exact (HandlerCall.run_outcome h (hstep call rfl)).2
  | complete request => exact h.emit _

theorem runHost_faithful {content : Content} {w : Worker} (h : CacheFaithful content w)
    {steps : List HostStep} (hsteps : ∀ call ∈ hostCalls steps, call.Regular content) :
    CacheFaithful content (runHost w steps) := by
  induction steps generalizing w with
  | nil => exact h
  | cons step steps ih =>
      have hstep : ∀ call ∈ step.call, call.Regular content := fun call hcall =>
        hsteps call (List.mem_filterMap.mpr ⟨step, List.mem_cons_self, hcall⟩)
      refine ih (HostStep.run_faithful h hstep) fun call hcall => ?_
      obtain ⟨s, hs, hcall⟩ := List.mem_filterMap.mp hcall
      exact hsteps call (List.mem_filterMap.mpr ⟨s, List.mem_cons_of_mem step hs, hcall⟩)

theorem hostOutcomes_append (w : Worker) (steps steps' : List HostStep) :
    hostOutcomes w (steps ++ steps') =
      hostOutcomes w steps ++ hostOutcomes (runHost w steps) steps' := by
  induction steps generalizing w with
  | nil => rfl
  | cons step steps ih =>
      cases step with
      | complete request => exact ih _
      | handle call => exact congrArg (List.cons _) (ih _)

theorem hostOutcomes_of_faithful {content : Content} {w : Worker} (h : CacheFaithful content w)
    {steps : List HostStep} (hsteps : ∀ call ∈ hostCalls steps, call.Regular content) :
    hostOutcomes w steps = (hostCalls steps).map HandlerCall.outcome := by
  induction steps generalizing w with
  | nil => rfl
  | cons step steps ih =>
      cases step with
      | complete request => exact ih (h.emit _) hsteps
      | handle call =>
          obtain ⟨hcall, hsteps⟩ := List.forall_mem_cons.mp hsteps
          obtain ⟨hout, hkept⟩ := HandlerCall.run_outcome h hcall
          exact congrArg₂ List.cons hout (ih hkept hsteps)

variable {content : Content} {maxEntries : Nat} {entryAllocs : List Bool} {steps : List HostStep}

/-- The process evicts no pool in use, and its runs find regular files. -/
structure SafeHost (content : Content) (maxEntries : Nat) (entryAllocs : List Bool)
    (steps : List HostStep) : Prop where
  safe : SafeLoads maxEntries entryAllocs steps
  regular : ∀ call ∈ hostCalls steps, call.Regular content

theorem SafeHost.agree (h : SafeHost content maxEntries entryAllocs steps) {content' : Content}
    {maxEntries' : Nat} {entryAllocs' : List Bool} {steps' : List HostStep}
    (h' : SafeHost content' maxEntries' entryAllocs' steps')
    (hsame : (hostCalls steps).map HandlerCall.outcome =
      (hostCalls steps').map HandlerCall.outcome) :
    ∃ answers, (hostRun maxEntries entryAllocs steps).map (·.answers) = some answers ∧
      (hostRun maxEntries' entryAllocs' steps').map (·.answers) = some answers := by
  refine ⟨_, congrArg _ (hostRun_of_safe h.safe), ?_⟩
  rw [hostRun_of_safe h'.safe, Option.map_some,
    hostOutcomes_of_faithful (cacheFaithful_start content' _ _) h'.regular, ← hsame,
    ← hostOutcomes_of_faithful (cacheFaithful_start content _ _) h.regular]

end Host

theorem regularFiles_site {files : Int → List (String × String)} {mtime : Int} {sys : Sys}
    {conf : LocConf} (hfs : sys.fs = siteFs mtime (files mtime))
    (h : ∀ f ∈ files mtime, ArgsGiven (lexedText (lit f.2)).1) :
    RegularFiles (fun path mtime _ => (siteFs mtime (files mtime)).openFile path) sys conf where
  determined := hfs ▸ determined_siteFs files mtime
  given _ d _ := hfs ▸ fileGiven_siteFs h d.path

/-- What a site holds whose files stay as they are. -/
def siteContent (files : List (String × String)) : Content :=
  fun path mtime _ => (siteFs mtime files).openFile path

theorem safeHost_site {files : List (String × String)} {maxEntries : Nat}
    {entryAllocs : List Bool} {steps : List HostStep}
    (hsafe : SafeLoads maxEntries entryAllocs steps)
    (hfs : ∀ call ∈ hostCalls steps, call.sys.fs = siteFs 0 files)
    (hgiven : ∀ f ∈ files, ArgsGiven (lexedText (lit f.2)).1) :
    SafeHost (siteContent files) maxEntries entryAllocs steps where
  safe := hsafe
  regular call hcall := @regularFiles_site (fun _ => files) 0 call.sys call.conf (hfs call hcall)
    hgiven

end NgxHtaccess
