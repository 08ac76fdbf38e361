import NgxHtaccess.Walk

/-!
`htaccess_vars.c`: the expansion of `$n` and `%{NAME}` in a template.
-/
namespace NgxHtaccess

/-- The scan of `headers_in` that stops at the first header of the name. -/
def findHeader (r : Request) (name : NgxStr) : Option NgxStr :=
  (r.headersIn.find? fun h => h.1.length = name.length && ngxStrncasecmpEq h.1 name name.length).map
    (·.2)

def htaccessGetHttpHeader (r : Request) (name : NgxStr) : NgxStr :=
  match findHeader r name with
  | some value => value
  | none => if name.length = 4 ∧ ngxStrncasecmpEq name (lit "Host") 4 then r.server else []

def htaccessEnvGet (state : RequestState) (name : NgxStr) : Option NgxStr :=
  match state.env with
  | none => none
  | some vars =>
      (vars.find? fun v => v.name.length = name.length && ngxStrncmpEq v.name name name.length).map
        (·.value)

def htaccessEnvSet (state : RequestState) (name value : NgxStr) : RequestState :=
  { state with env := ngxArrayPush state.env { name, value } }

/-- The subject of a match with the `captures` array and its size. -/
structure MatchCtx where
  subject : NgxStr
  captures : Nat → Int
  ncaptures : Nat

/-- The bytes `match->data + start` up to `stop`. -/
def captureText (sys : Sys) (subject : NgxStr) (start stop : Int) : NgxStr :=
  if 0 ≤ start ∧ start ≤ stop ∧ stop ≤ subject.length then
    (subject.drop start.toNat).take (stop - start).toNat
  else sys.wild subject start stop

/-- The text of `$n`; nothing without a match or for a negative offset. -/
def captureRef (sys : Sys) (m : Option MatchCtx) (n : Nat) : NgxStr :=
  match m with
  | none => []
  | some m =>
      if n * 2 + 1 < m.ncaptures ∧ 0 ≤ m.captures (n * 2) then
        captureText sys m.subject (m.captures (n * 2)) (m.captures (n * 2 + 1))
      else []

/-- The value of `%{name}`; `none` for a name no keyword is a prefix of. -/
def expandVariable (r : Request) (state : RequestState) (name : NgxStr) : Option NgxStr :=
  if 4 ≤ name.length ∧ ngxStrncasecmpEq name (lit "ENV:") 4 then
    some ((htaccessEnvGet state (name.drop 4)).getD [])
  else if 9 ≤ name.length ∧ ngxStrncasecmpEq name (lit "HTTP_HOST") 9 then some r.server
  else if 5 ≤ name.length ∧ ngxStrncasecmpEq name (lit "HTTP:") 5 then
    some (htaccessGetHttpHeader r (name.drop 5))
  else if 12 ≤ name.length ∧ ngxStrncasecmpEq name (lit "QUERY_STRING") 12 then
    some state.queryString
  else if 16 ≤ name.length ∧ ngxStrncasecmpEq name (lit "REQUEST_FILENAME") 16 then
    some state.filename
  else if 11 ≤ name.length ∧ ngxStrncasecmpEq name (lit "REQUEST_URI") 11 then some state.uri
  else none

/-- `htaccess_expand_copy` into a buffer of `limit` bytes. -/
def htaccessExpandCopy (limit : Nat) (dst src : NgxStr) : Option NgxStr :=
  if limit < dst.length + src.length then none else some (dst ++ src)

def isDigit (c : UInt8) : Bool := ch '0' ≤ c && c ≤ ch '9'

/-- The loop of `htaccess_expand`; a round takes at least one template byte. -/
def htaccessExpandLoop (sys : Sys) (r : Request) (state : RequestState) (m : Option MatchCtx)
    (limit : Nat) : Nat → NgxStr → NgxStr → Option NgxStr
  | 0, _, dst => some dst
  | _ + 1, [], dst => some dst
  | fuel + 1, [c], dst =>
      (htaccessExpandCopy limit dst [c]).bind (htaccessExpandLoop sys r state m limit fuel [])
  | fuel + 1, c :: d :: p, dst =>
      if c = ch '\\' then
        (htaccessExpandCopy limit dst [d]).bind (htaccessExpandLoop sys r state m limit fuel p)
      else if c = ch '$' ∧ isDigit d then
        (htaccessExpandCopy limit dst (captureRef sys m (d - ch '0').toNat)).bind
          (htaccessExpandLoop sys r state m limit fuel p)
      else if c = ch '%' ∧ d = ch '{' then
        match ngxStrlchr p (ch '}') with
        | none => none
        | some (name, p) =>
            match expandVariable r state name with
            | none => htaccessExpandLoop sys r state m limit fuel p dst
            | some value =>
                (htaccessExpandCopy limit dst value).bind
                  (htaccessExpandLoop sys r state m limit fuel p)
      else
        (htaccessExpandCopy limit dst [c]).bind
          (htaccessExpandLoop sys r state m limit fuel (d :: p))

/-- `htaccess_expand`; `none` is `NGX_ERROR`. -/
def htaccessExpand (sys : Sys) (r : Request) (state : RequestState) (tpl : NgxStr)
    (m : Option MatchCtx) : Option NgxStr :=
  htaccessExpandLoop sys r state m (tpl.length * 4 + 256) tpl.length tpl []

end NgxHtaccess
