import NgxHtaccess.Vars

/-!
`htaccess_rewrite.c`: conditions, targets and the rewrite engine.
-/
namespace NgxHtaccess

def cBool (b : Bool) : Int := if b then 1 else 0

/-- `htaccess_file_test` on what `ngx_file_info` reports. -/
def htaccessFileTest (info : Option FileInfo) (op : CondOp) : Int :=
  match op with
  | .file => cBool (info.any fun fi => !fi.isDir)
  | .notFile => cBool (info.all (·.isDir))
  | .dir => cBool (info.any (·.isDir))
  | .notDir => cBool (info.all fun fi => !fi.isDir)
  | .symlink => cBool (info.any (·.isLink))
  | .notSymlink => cBool (info.all fun fi => !fi.isLink)
  | .exist => cBool info.isSome
  | .notExist => cBool info.isNone
  | _ => ngxDeclined

def CondOp.isFileOp : CondOp → Bool
  | .file | .notFile | .dir | .notDir | .symlink | .notSymlink | .exist | .notExist => true
  | _ => false

/-- The file that `state->filename` names. It is not terminated, and it is a
null pointer until a root with a length gives it a buffer. -/
def filenameInfo (sys : Sys) (state : RequestState) : Option FileInfo :=
  if state.filename = [] then none
  else sys.fs.fileInfo (sys.unterminated state.filename)

/-- The string a condition is matched against, where it has one. -/
def condValue (r : Request) (state : RequestState) (cond : RewriteCond) : Option NgxStr :=
  match cond.test with
  | .filename => some state.filename
  | .uri => some state.uri
  | .queryString => some state.queryString
  | .http => some ((findHeader r cond.name).getD [])
  | .env => some ((htaccessEnvGet state cond.name).getD [])
  | .fspath | .other => none

/-- The end of `htaccess_test_cond`: the pattern or the prefix against the value. -/
def condMatches (sys : Sys) (cond : RewriteCond) (value : NgxStr) : Int :=
  if cond.op = .regex ∨ cond.op = .nregex then
    if !sys.regexCompile cond.value false then ngxError
    else
      match sys.regexExec cond.value false value, cond.op with
      | .noMatched, .nregex => ngxOk
      | _, .nregex => ngxDeclined
      | .matched _, _ => ngxOk
      | _, _ => ngxDeclined
  else if cond.value = [] then ngxOk
  else if cond.value.length ≤ value.length ∧
      ngxStrncmpEq value cond.value cond.value.length then ngxOk
  else ngxDeclined

def htaccessTestCond (sys : Sys) (conf : LocConf) (r : Request) (state : RequestState)
    (cond : RewriteCond) : Int :=
  if cond.test = .filename ∧ cond.op.isFileOp then
    htaccessFileTest (filenameInfo sys state) cond.op
  else if cond.test = .fspath then
    match htaccessExpand sys r state cond.name none with
    | none => ngxError
    | some expanded =>
        let slash := if conf.root.getLast? = some (ch '/') then [] else [ch '/']
        htaccessFileTest (sys.fs.fileInfo (cString (conf.root ++ slash ++ expanded))) cond.op
  else
    match condValue r state cond with
    | none => ngxDeclined
    | some value => condMatches sys cond value

/-- The loop of `htaccess_match_conditions`. -/
def matchConds (sys : Sys) (conf : LocConf) (r : Request) (state : RequestState) :
    List RewriteCond → Int
  | [] => ngxOk
  | cond :: conds =>
      let rc := htaccessTestCond sys conf r state cond
      if cond.orNext then
        if rc = ngxOk then ngxOk else matchConds sys conf r state conds
      else if rc ≠ ngxOk then ngxDeclined
      else matchConds sys conf r state conds

def htaccessMatchConditions (sys : Sys) (conf : LocConf) (r : Request) (state : RequestState)
    (rule : RewriteRule) : Int :=
  matchConds sys conf r state (rule.conditions.getD [])

def dropSlash : NgxStr → NgxStr
  | [] => []
  | c :: s => if c = ch '/' then s else c :: s

def htaccessRelativeUri (uri urlPrefix : NgxStr) : NgxStr :=
  if urlPrefix = [] ∨ uri.length ≤ urlPrefix.length then
    if 1 < uri.length then dropSlash uri else uri
  else dropSlash (uri.drop urlPrefix.length)

def isHttpUrl (s : NgxStr) : Bool := 7 < s.length && ngxStrncmpEq s (lit "http://") 7

def isHttpsUrl (s : NgxStr) : Bool := 8 < s.length && ngxStrncmpEq s (lit "https://") 8

def htaccessApplySubstitution (rule : RewriteRule) (input base : NgxStr) : NgxStr :=
  if rule.substitution = lit "-" then input
  else if rule.substitution.head? = some (ch '/') then rule.substitution
  else if isHttpUrl rule.substitution || isHttpsUrl rule.substitution then rule.substitution
  else base ++ rule.substitution

/-- `unparsed_uri` as both writers of `r->uri` leave it. -/
def unparsedOf (uri args : NgxStr) : NgxStr :=
  if args = [] then uri else uri ++ ch '?' :: args

def htaccessApplyTargetUri (r : Request) (state : RequestState) (target : NgxStr) (qsa : Bool) :
    Request × RequestState :=
  let (uri, args) := (ngxStrlchr target (ch '?')).getD (target, [])
  let args :=
    if qsa ∧ state.queryString ≠ [] then
      if args ≠ [] then args ++ ch '&' :: state.queryString else state.queryString
    else args
  let uri := if uri ≠ [] ∧ uri.head? ≠ some (ch '/') then ch '/' :: uri else uri
  ({ r with
      uri, args, unparsedUri := unparsedOf uri args
      validUnparsedUri := false, internal := true },
    { state with uri, queryString := args })

def htaccessApplyEnvFlags (sys : Sys) (r : Request) (state : RequestState) (m : MatchCtx) :
    List NgxStr → RequestState
  | [] => state
  | env :: vars =>
      match ngxStrlchr env (ch ':') with
      | none => htaccessApplyEnvFlags sys r state m vars
      | some (name, value) =>
          match htaccessExpand sys r state value (some m) with
          | none => htaccessApplyEnvFlags sys r state m vars
          | some expanded =>
              htaccessApplyEnvFlags sys r (htaccessEnvSet state name expanded) m vars

/-- `captures` after a match: at most the first `size / 3` pairs are written. -/
def writeCaptures (captures : Nat → Int) (size : Nat) (pairs : List (Int × Int)) : Nat → Int :=
  fun i =>
    match (pairs.take (size / 3))[i / 2]? with
    | none => captures i
    | some (start, stop) => if i % 2 = 0 then start else stop

structure RewriteState where
  r : Request
  state : RequestState
  captures : Nat → Int
  chainActive : Bool

/-- How one rule leaves the scan: on to the next rule, or out of the engine. -/
inductive RuleOutcome where
  | next (s : RewriteState)
  | result (result : HtaccessResult) (s : RewriteState)

/-- A chained rule that fails ends its chain. -/
def RewriteState.ruleFailed (s : RewriteState) (rule : RewriteRule) : RewriteState :=
  if rule.chain then { s with chainActive := false } else s

/-- The target of a rule from its expanded substitution `sub`. -/
def ruleTarget (sys : Sys) (dir : DirCtx) (rule : RewriteRule) (s : RewriteState) (m : MatchCtx)
    (sub : NgxStr) : NgxStr :=
  if sub ≠ [] ∧ sub.head? ≠ some (ch '/') ∧ !isHttpUrl sub ∧ !isHttpsUrl sub ∧
      ngxStrlchr sub (ch '?') = none then
    let out := htaccessApplySubstitution rule m.subject dir.rewriteBase
    (htaccessExpand sys s.r s.state out (some m)).getD out
  else sub

/-- What a matched rule does once its E flags are applied. -/
def applyMatchedRule (sys : Sys) (dir : DirCtx) (rule : RewriteRule) (s : RewriteState)
    (m : MatchCtx) : RuleOutcome :=
  if rule.substitution = lit "-" then
    if rule.last || rule.endFlag then .result .declined s else .next s
  else
    match htaccessExpand sys s.r s.state rule.substitution (some m) with
    | none => .result .error s
    | some sub =>
        if rule.chain && !rule.last && !rule.endFlag then .next s
        else
          let out := ruleTarget sys dir rule s m sub
          if rule.redirect then
            .result .redirect { s with state :=
              { s.state with
                uri := out
                redirectCode := if rule.redirectCode ≠ 0 then rule.redirectCode
                  else ngxHttpMovedTemporarily } }
          else
            let (r, state) := htaccessApplyTargetUri s.r s.state out rule.qsa
            let s := { s with r, state, chainActive := false }
            if rule.last || rule.endFlag then .result .ok s else .next s

/-- The loop body of `htaccess_apply_rewrite` for one RewriteRule. -/
def tryRule (sys : Sys) (conf : LocConf) (dir : DirCtx) (rule : RewriteRule) (s : RewriteState) :
    RuleOutcome :=
  if rule.chainIn && !s.chainActive then .next s
  else if !sys.regexCompile rule.pattern rule.nocase then .next (s.ruleFailed rule)
  else if htaccessMatchConditions sys conf s.r s.state rule ≠ ngxOk then .next (s.ruleFailed rule)
  else
    let rel := htaccessRelativeUri s.state.uri dir.urlPrefix
    match sys.regexExec rule.pattern rule.nocase rel with
    | .noMatched => .next (s.ruleFailed rule)
    | .error => .result .error s
    | .matched pairs =>
        let captures := writeCaptures s.captures 20 pairs
        let m : MatchCtx := { subject := rel, captures, ncaptures := 20 }
        let state := htaccessApplyEnvFlags sys s.r s.state m (rule.envVars.getD [])
        applyMatchedRule sys dir rule
          { s with state, captures, chainActive := if rule.chain then true else s.chainActive } m

/-- The rules of one directory; other directives are passed over. -/
def rewriteDirectives (sys : Sys) (conf : LocConf) (dir : DirCtx) :
    List Directive → RewriteState → RuleOutcome
  | [], s => .next s
  | d :: ds, s =>
      match d.u with
      | .rewriteRule rule =>
          match tryRule sys conf dir rule s with
          | .next s => rewriteDirectives sys conf dir ds s
          | .result result s => .result result s
      | _ => rewriteDirectives sys conf dir ds s

def rewriteDirs (sys : Sys) (conf : LocConf) : List DirCtx → RewriteState → RuleOutcome
  | [], s => .next s
  | dir :: dirs, s =>
      if dir.rewriteEngine then
        match rewriteDirectives sys conf dir (dir.directives.getD []) s with
        | .next s => rewriteDirs sys conf dirs s
        | .result result s => .result result s
      else rewriteDirs sys conf dirs s

def htaccessApplyRewrite (sys : Sys) (conf : LocConf) (r : Request) (merged : MergedCtx)
    (state : RequestState) : HtaccessResult × Request × RequestState :=
  match rewriteDirs sys conf merged.dirs
      { r, state, captures := sys.staleCaptures, chainActive := false } with
  | .next s => (.declined, s.r, s.state)
  | .result result s => (result, s.r, s.state)

end NgxHtaccess
