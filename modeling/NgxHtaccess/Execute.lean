import NgxHtaccess.Engines
import NgxHtaccess.Lib.BoundedLoop

/-!
`htaccess_execute.c`: the passes of a handler run, and the handler itself.

A run keeps a trace of the results its stages return. Nothing reads the trace;
the results about refusals and about the access check are stated on it.
-/
namespace NgxHtaccess
open BoundedLoop

def htaccessResolveFilename (conf : LocConf) (state : RequestState) : RequestState :=
  if conf.root = [] then { state with filename := [] }
  else
    let slash := if conf.root.getLast? = some (ch '/') then [] else [ch '/']
    { state with filename := conf.root ++ slash ++ state.uri.drop 1 }

/-- A result that a stage returned. The access check is recorded with what it
was evaluated on: the worker at the start of its pass, the merged context and
the URI of the request. -/
inductive StageEvent where
  | filesDeny (result : HtaccessResult)
  | alias (result : HtaccessResult)
  | rewrite (result : HtaccessResult)
  | auth (worker : Worker) (merged : MergedCtx) (uri : NgxStr) (result : HtaccessResult)
  | options (result : HtaccessResult)

def StageEvent.result : StageEvent → HtaccessResult
  | .filesDeny v | .alias v | .rewrite v | .auth _ _ _ v | .options v => v

structure LoopState where
  pass : Nat
  r : Request
  state : RequestState
  worker : Worker
  trace : List StageEvent

structure ExecResult where
  rc : Int
  r : Request
  state : RequestState
  worker : Worker
  trace : List StageEvent

def locationHeader (uri : NgxStr) : TableElt where
  hash := 1
  key := lit "Location"
  value := if uri ≠ [] ∧ uri.head? ≠ some (ch '/') ∧ uri.head? ≠ some (ch 'h') then ch '/' :: uri
    else uri

/-- `htaccess_send_redirect`: the status it returns and the request. -/
def htaccessSendRedirect (r : Request) (state : RequestState) : Int × Request :=
  let h := locationHeader state.uri
  let status := if state.redirectCode ≠ 0 then state.redirectCode else ngxHttpMovedTemporarily
  (status, { r with
    headersOut := r.headersOut ++ [h], location := some h, status, contentLengthN := 0 })

def htaccessApplyUri (r : Request) (state : RequestState) : Request :=
  { r with
    uri := state.uri
    unparsedUri := unparsedOf state.uri r.args
    validUnparsedUri := false
    internal := true }

/-- The first ErrorDocument of the code. -/
def htaccessErrorUri (merged : MergedCtx) (code : Nat) : Option NgxStr :=
  ((merged.errorDocuments.getD []).find? (·.code = code)).map (·.uri)

/-- A refusal: a new pass on the ErrorDocument of the code, or the code. -/
def refuse (merged : MergedCtx) (code : Nat) (s : LoopState) : Round LoopState ExecResult :=
  match htaccessErrorUri merged code with
  | some uri =>
      let state := { s.state with uri }
      .again { s with pass := s.pass + 1, r := htaccessApplyUri s.r state, state }
  | none => .stop { s with rc := code }

/-- The pools that the headers pushed after the first `n` have values in. -/
def headerPools (n : Nat) (r : Request) : List PoolId := (r.headersOut.drop n).filterMap (·.pool)

/-- The end of an admitted pass: headers and options, then `NGX_DECLINED`
whatever `htaccess_apply_options` returned. -/
def serve (sys : Sys) (conf : LocConf) (merged : MergedCtx) (s : LoopState) : ExecResult :=
  let r := htaccessApplyHeaders s.r merged
  { rc := ngxDeclined, r, state := s.state
    worker := (headerPools s.r.headersOut.length r).foldl (fun w p => w.emit (.header p)) s.worker
    trace := s.trace ++ [.options (htaccessApplyOptions sys conf r merged)] }

/-- The access check and what follows it. `start` is the worker of the pass. -/
def accessCheck (sys : Sys) (conf : LocConf) (merged : MergedCtx) (start : Worker)
    (s : LoopState) : Round LoopState ExecResult :=
  match htaccessApplyAuth sys s.r merged with
  | (result, r) =>
      let s' := { s with r, trace := s.trace ++ [.auth start merged s.r.uri result] }
      match result with
      | .unauthorized => refuse merged ngxHttpUnauthorized s'
      | .forbidden => refuse merged ngxHttpForbidden s'
      | _ => .stop (serve sys conf merged s')

def sendRedirect (s : LoopState) : ExecResult :=
  let (rc, r) := htaccessSendRedirect s.r s.state
  { s with rc, r }

/-- The rewrite stage and what follows it. -/
def rewriteStage (sys : Sys) (conf : LocConf) (merged : MergedCtx) (start : Worker)
    (s : LoopState) : Round LoopState ExecResult :=
  match htaccessApplyRewrite sys conf s.r merged s.state with
  | (result, r, state) =>
      let s := { s with r, state, trace := s.trace ++ [.rewrite result] }
      match result with
      | .redirect => .stop (sendRedirect s)
      | .ok =>
          .again { s with
            pass := s.pass + 1
            r := htaccessApplyUri s.r s.state
            state := htaccessResolveFilename conf s.state }
      | _ => accessCheck sys conf merged start s

/-- The alias stage and what follows it. -/
def aliasStage (sys : Sys) (conf : LocConf) (merged : MergedCtx) (start : Worker)
    (s : LoopState) : Round LoopState ExecResult :=
  match htaccessApplyAlias sys merged s.state with
  | (result, state) =>
      let s := { s with state, trace := s.trace ++ [.alias result] }
      match result with
      | .redirect => .stop (sendRedirect s)
      | _ => rewriteStage sys conf merged start s

/-- One pass of `htaccess_execute` on a context that is already built. -/
def passOn (sys : Sys) (conf : LocConf) (requestUri : NgxStr) (merged : MergedCtx)
    (start : Worker) (s : LoopState) : Round LoopState ExecResult :=
  if s.pass = 0 then
    let result := htaccessApplyFilesDeny sys merged requestUri
    let s := { s with trace := s.trace ++ [.filesDeny result] }
    match result with
    | .forbidden => .stop { s with rc := ngxHttpForbidden }
    | _ => aliasStage sys conf merged start s
  else aliasStage sys conf merged start s

/-- One pass of the loop of `htaccess_execute`. -/
def htaccessPass (sys : Sys) (conf : LocConf) (requestUri : NgxStr) (s : LoopState) :
    Round LoopState ExecResult :=
  match htaccessBuildMergedCtx sys conf s.worker s.r.uri with
  | (merged, worker) => passOn sys conf requestUri merged s.worker { s with worker }

/-- The state in which `htaccess_execute` enters its loop. -/
def LoopState.initial (conf : LocConf) (r : Request) (w : Worker) : LoopState where
  pass := 0
  r := r
  state := htaccessResolveFilename conf
    { uri := r.uri, filename := [], queryString := r.args, env := none, redirectCode := 0 }
  worker := w
  trace := []

/-- What is returned when the passes are used up. -/
def LoopState.spent (s : LoopState) : ExecResult := { s with rc := ngxDeclined }

def htaccessExecute (sys : Sys) (conf : LocConf) (r : Request) (w : Worker) : ExecResult :=
  run (htaccessPass sys conf r.uri) LoopState.spent conf.maxRedirects (.initial conf r w)

/-- `ngx_http_htaccess_handler`, for the request numbered `request`. -/
def ngxHttpHtaccessHandler (sys : Sys) (conf : LocConf) (request : Nat) (r : Request)
    (w : Worker) : Int × Request × Worker :=
  if !conf.enable then (ngxDeclined, r, w)
  else
    let out := htaccessExecute sys conf r (w.emit (.start request))
    (out.rc, out.r, out.worker.emit .finish)

end NgxHtaccess
