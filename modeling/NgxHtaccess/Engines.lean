import NgxHtaccess.Rewrite

/-!
The engines beside the rewriter: `htaccess_alias.c`, `htaccess_auth.c` and
`htaccess_headers.c`.
-/
namespace NgxHtaccess

/-- `htaccess_alias_match` with `regex` as its flag: the code and the target. -/
def htaccessAliasMatch (sys : Sys) (redir : AliasRedirect) (uri : NgxStr) (regex : Bool) :
    Int × NgxStr :=
  if regex then
    if !sys.regexCompile redir.source false then (ngxError, [])
    else
      match sys.regexExec redir.source false uri with
      | .noMatched => (ngxDeclined, [])
      | .error => (ngxError, [])
      | .matched _ => (ngxOk, redir.target)
  else if uri.length < redir.source.length then (ngxDeclined, [])
  else if !ngxStrncmpEq uri redir.source redir.source.length then (ngxDeclined, [])
  else
    let next := uri.getD redir.source.length 0
    if uri.length = redir.source.length ∨ next = ch '/' ∨ next = ch '?' then
      (ngxOk, redir.target)
    else (ngxDeclined, [])

/-- The redirect of a directive and whether it is a pattern. -/
def Directive.aliasOf (d : Directive) : Option (AliasRedirect × Bool) :=
  match d.u with
  | .redirect redir | .redirectPermanent redir | .redirectTemp redir => some (redir, false)
  | .redirectMatch redir => some (redir, true)
  | _ => none

/-- The scan of one directory for the first redirect that matches. -/
def findAlias (sys : Sys) (uri : NgxStr) : List Directive → Option (AliasRedirect × NgxStr)
  | [] => none
  | d :: ds =>
      match d.aliasOf with
      | none => findAlias sys uri ds
      | some (redir, regex) =>
          match htaccessAliasMatch sys redir uri regex with
          | (rc, out) => if rc ≠ ngxOk then findAlias sys uri ds else some (redir, out)

def findAliasDirs (sys : Sys) (uri : NgxStr) : List DirCtx → Option (AliasRedirect × NgxStr)
  | [] => none
  | dir :: dirs =>
      match findAlias sys uri (dir.directives.getD []) with
      | some hit => some hit
      | none => findAliasDirs sys uri dirs

def htaccessApplyAlias (sys : Sys) (merged : MergedCtx) (state : RequestState) :
    HtaccessResult × RequestState :=
  match findAliasDirs sys state.uri merged.dirs with
  | none => (.declined, state)
  | some (redir, out) =>
      (.redirect, { state with
        uri := out
        redirectCode := if redir.permanent then ngxHttpMovedPermanently
          else ngxHttpMovedTemporarily })

/-- A deny rule that compiles and matches; an empty pattern is never compiled,
but no rule has one. -/
def filesRuleDenies (sys : Sys) (target : NgxStr) (rule : FilesRule) : Bool :=
  rule.deny && sys.regexCompile rule.pattern true &&
    match sys.regexExec rule.pattern true target with
    | .matched _ => true
    | _ => false

/-- The whole path without its leading slash. -/
def filesTarget (uri : NgxStr) : NgxStr := if 1 < uri.length then dropSlash uri else uri

def htaccessFilesDeny (sys : Sys) (merged : MergedCtx) (uri : NgxStr) : Int :=
  if (merged.filesRules.getD []).any (filesRuleDenies sys (filesTarget uri)) then
    ngxHttpForbidden
  else ngxDeclined

def htaccessApplyFilesDeny (sys : Sys) (merged : MergedCtx) (uri : NgxStr) : HtaccessResult :=
  if htaccessFilesDeny sys merged uri = ngxHttpForbidden then .forbidden else .declined

/-- The scan of `htaccess_check_htpasswd` over the file from a position. An
entry takes at least its colon. `crypt` reads the rest of the buffer as salt. -/
def htpasswdLoop (sys : Sys) (user pass : NgxStr) : Nat → NgxStr → Int
  | 0, _ => ngxDeclined
  | fuel + 1, p =>
      match ngxStrlchr p (ch ':') with
      | none => ngxDeclined
      | some (u, p) =>
          let line := p.takeWhile (· ≠ ch '\n')
          let pw := line.rdropWhile isNewline
          let next := htpasswdLoop sys user pass fuel ((p.drop line.length).dropWhile isNewline)
          if u.length = user.length ∧ ngxStrncmpEq u user user.length then
            if pw.head? = some (ch '$') ∧ 256 ≤ pass.length then ngxDeclined
            else if pw.head? = some (ch '$') ∧
                sys.crypt (cString pass) (sys.unterminated p) = some pw then ngxOk
            else if pw.length = pass.length ∧ ngxStrncmpEq pw pass pass.length then ngxOk
            else next
          else next

def htaccessCheckHtpasswd (sys : Sys) (file user pass : NgxStr) : Int :=
  match sys.fs.openFile (sys.unterminated file) with
  | none => ngxDeclined
  | some opened =>
      match opened.fdSize, opened.read with
      | some _, some text => htpasswdLoop sys user pass text.length text
      | _, _ => ngxError

def isAllGranted (req : NgxStr) : Bool :=
  11 ≤ req.length && ngxStrncasecmpEq req (lit "all granted") 11

def isAllDenied (req : NgxStr) : Bool :=
  10 ≤ req.length && ngxStrncasecmpEq req (lit "all denied") 10

def isValidUser (req : NgxStr) : Bool :=
  11 ≤ req.length && ngxStrncasecmpEq req (lit "valid-user") 10

/-- The three tests that the `valid-user` branch makes in turn. -/
def validUserRc (sys : Sys) (r : Request) (merged : MergedCtx) : Int :=
  if r.user = [] then ngxHttpUnauthorized
  else if merged.authUserFile = [] then ngxHttpUnauthorized
  else if htaccessCheckHtpasswd sys merged.authUserFile r.user r.passwd ≠ ngxOk then
    ngxHttpUnauthorized
  else ngxOk

/-- The loop over `requires`: the first entry that it recognises decides. -/
def scanRequires (sys : Sys) (r : Request) (merged : MergedCtx) : List NgxStr → Option Int
  | [] => none
  | req :: reqs =>
      if isAllGranted req then some ngxOk
      else if isAllDenied req then some ngxHttpForbidden
      else if isValidUser req then some (validUserRc sys r merged)
      else scanRequires sys r merged reqs

def isAll (s : NgxStr) : Bool := s.length = 3 && ngxStrncmpEq s (lit "all") 3

/-- The Order branch behind the loop. -/
def orderRc (merged : MergedCtx) : Int :=
  if 4 ≤ merged.order.length ∧ ngxStrncasecmpEq merged.order (lit "deny") 4 then
    if (merged.denies.getD []).any isAll ∧ !(merged.allows.getD []).any isAll then
      ngxHttpForbidden
    else ngxDeclined
  else ngxDeclined

def htaccessRequireSatisfied (sys : Sys) (r : Request) (merged : MergedCtx) : Int :=
  if merged.requires.getD [] = [] then ngxDeclined
  else (scanRequires sys r merged (merged.requires.getD [])).getD (orderRc merged)

/-- The `WWW-Authenticate` header: the value has room for `auth_name.len + 7`
bytes and `ngx_snprintf` cuts it there. -/
def authenticateHeader (authName : NgxStr) : TableElt where
  hash := 1
  key := lit "WWW-Authenticate"
  value := (lit "Basic realm=\"" ++ authName ++ lit "\"").take (authName.length + 7)

def htaccessApplyAuth (sys : Sys) (r : Request) (merged : MergedCtx) : HtaccessResult × Request :=
  if htaccessFilesDeny sys merged r.uri = ngxHttpForbidden then (.forbidden, r)
  else if merged.authType = [] ∧ merged.requires = none ∧ merged.allows = none ∧
      merged.denies = none then (.declined, r)
  else
    let rc := htaccessRequireSatisfied sys r merged
    if rc = ngxHttpUnauthorized then
      (.unauthorized,
        if merged.authName = [] then r
        else
          let h := authenticateHeader merged.authName
          { r with headersOut := r.headersOut ++ [h], wwwAuthenticate := some h })
    else if rc = ngxHttpForbidden then (.forbidden, r)
    else (.declined, r)

def htaccessSetHeader (r : Request) (key value : NgxStr) (pool : PoolId) : Request :=
  { r with headersOut := r.headersOut ++ [{ hash := 1, key, value, pool := some pool }] }

/-- The Header directives that `htaccess_apply_headers` acts on. -/
def setsHeader (h : Header) : Bool :=
  h.name ≠ [] && 3 ≤ h.action.length && ngxStrncasecmpEq h.action (lit "set") 3

/-- The ExpiresByType entries whose type is a prefix of the content type. -/
def expiresApplies (contentType : NgxStr) (h : Header) : Bool :=
  contentType ≠ [] && h.name ≠ [] && h.name.length ≤ contentType.length &&
    ngxStrncmpEq contentType h.name h.name.length

def htaccessApplyHeaders (r : Request) (merged : MergedCtx) : Request :=
  let r := (merged.headers.getD []).foldl
    (fun r h => if setsHeader h then htaccessSetHeader r h.name h.value h.pool else r) r
  if merged.expiresActive then
    (merged.expiresByType.getD []).foldl
      (fun r h => if expiresApplies r.contentType h then
        htaccessSetHeader r (lit "Expires") h.value h.pool else r) r
  else r

def htaccessApplyOptions (sys : Sys) (conf : LocConf) (r : Request) (merged : MergedCtx) :
    HtaccessResult :=
  if merged.options ∧ 1 < r.uri.length ∧ r.uri.getLast? = some (ch '/') then
    if (sys.fs.fileInfo (sys.unterminated (conf.root ++ r.uri))).any (·.isDir) then .forbidden
    else .declined
  else .declined

end NgxHtaccess
