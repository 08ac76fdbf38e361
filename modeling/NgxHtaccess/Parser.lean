import NgxHtaccess.Lexer

/-!
`htaccess_parser.c`: from the bytes of a file to its directive list.

A line of a file is lexed into its tokens and then handled against the parser
state: the block depth with the two stacks of 16 slots, the directives so far
and the conditions that wait for their RewriteRule. `none` is `NGX_ERROR`, on
which `htaccess_parse` gives up the whole file.
-/
namespace NgxHtaccess

def directiveNames : List (String × DirectiveId) :=
  [("RewriteEngine", .rewriteEngine), ("RewriteBase", .rewriteBase),
   ("RewriteCond", .rewriteCond), ("RewriteRule", .rewriteRule),
   ("Redirect", .redirect), ("RedirectMatch", .redirectMatch),
   ("RedirectPermanent", .redirectPermanent), ("RedirectTemp", .redirectTemp),
   ("AuthType", .authType), ("AuthName", .authName), ("AuthUserFile", .authUserFile),
   ("Require", .require), ("Order", .order), ("Allow", .allow), ("Deny", .deny),
   ("Header", .header), ("ExpiresActive", .expiresActive),
   ("ExpiresByType", .expiresByType), ("ExpiresDefault", .expiresDefault),
   ("ErrorDocument", .errorDocument), ("Options", .options),
   ("DirectoryIndex", .directoryIndex)]

def htaccessDirectiveId (name : NgxStr) : Option DirectiveId :=
  (directiveNames.find? fun e => eqIgnoreCase name (lit e.1)).map (·.2)

/-- `args[k]`; past `nelts` it is whatever the slot of the array holds. -/
def argAt (sys : Sys) (pool : PoolId) (args : List NgxStr) (k : Nat) : NgxStr :=
  args.getD k (sys.staleArg pool args k)

def htaccessJoinArgs (args : List NgxStr) (start : Nat) : Option NgxStr :=
  if args.length ≤ start then none
  else some ((lit " ").intercalate (args.drop start))

/-- The variable inside `%{...}`: the test and the name it works on. The length
guards are the source's own. -/
def condVariable (p : NgxStr) : CondTest × NgxStr :=
  if 17 ≤ p.length ∧ ngxStrncasecmpEq p (lit "REQUEST_FILENAME") 16 then (.filename, [])
  else if 12 ≤ p.length ∧ ngxStrncasecmpEq p (lit "REQUEST_URI") 11 then (.uri, [])
  else if 13 ≤ p.length ∧ ngxStrncasecmpEq p (lit "QUERY_STRING") 12 then (.queryString, [])
  else if 9 ≤ p.length ∧ ngxStrncasecmpEq p (lit "HTTP_HOST") 9 then (.http, lit "Host")
  else if 5 ≤ p.length ∧ ngxStrncasecmpEq p (lit "HTTP:") 5 then (.http, p.drop 5)
  else if 4 ≤ p.length ∧ ngxStrncasecmpEq p (lit "ENV:") 4 then (.env, p.drop 4)
  else (.other, [])

/-- The test string of a RewriteCond. One without `%` keeps the zero value. -/
def condTest (test : NgxStr) : Option (CondTest × NgxStr) :=
  match test with
  | c :: d :: e :: rest =>
      if c = ch '%' ∧ d = ch '{' then
        (ngxStrlchr (e :: rest) (ch '}')).map fun (p, _) => condVariable p
      else if c = ch '%' then some (.fspath, d :: e :: rest)
      else some (.filename, [])
  | c :: rest => if c = ch '%' then some (.fspath, rest) else some (.filename, [])
  | [] => some (.filename, [])

def condOp (value : NgxStr) : CondOp :=
  if value = lit "-f" then .file
  else if value.length = 3 ∧ ngxStrncmpEq value (lit "-d") 2 then .dir
  else if value.length = 3 ∧ ngxStrncmpEq value (lit "-l") 2 then .symlink
  else if value.length = 3 ∧ ngxStrncmpEq value (lit "-s") 2 then .exist
  else if value.length = 4 ∧ ngxStrncmpEq value (lit "!-f") 3 then .notFile
  else if value.length = 4 ∧ ngxStrncmpEq value (lit "!-d") 3 then .notDir
  else if value.length = 4 ∧ ngxStrncmpEq value (lit "!-l") 3 then .notSymlink
  else if value.length = 4 ∧ ngxStrncmpEq value (lit "!-s") 3 then .notExist
  else .regex

def condOrNext (flags : NgxStr) : Bool :=
  let s := flags.dropWhile (· = ch ' ')
  let s := if 2 ≤ s.length ∧ s.head? = some (ch '[') ∧ s.getLast? = some (ch ']')
    then s.tail.dropLast else s
  2 ≤ s.length && ngxStrncasecmpEq s (lit "OR") 2

def htaccessParseRewriteCond (args : List NgxStr) : Option RewriteCond :=
  match args with
  | _ :: test :: rest =>
      (condTest test).map fun (t, name) =>
        match rest with
        | [] => { test := t, name, op := .eq, value := [], orNext := false }
        | value :: flags =>
            { test := t, name, op := condOp value, value,
              orNext := match flags with
                | [] => false
                | f :: _ => condOrNext f }
  | _ => none

/-- One part of a flag list, trimmed and non-empty. -/
def applyRuleFlag (part : NgxStr) (rule : RewriteRule) : RewriteRule :=
  if part = lit "L" then { rule with last := true }
  else if part.length = 3 ∧ ngxStrncasecmpEq part (lit "END") 3 then
    { rule with endFlag := true }
  else if part.length = 2 ∧ ngxStrncasecmpEq part (lit "NC") 2 then
    { rule with nocase := true }
  else if 2 ≤ part.length ∧ ngxStrncasecmpEq part (lit "R") 1 then
    { rule with
      redirect := true
      redirectCode := match ngxStrlchr part (ch '=') with
        | none => ngxHttpMovedTemporarily
        | some (_, code) => (ngxAtoi code).getD ngxHttpMovedTemporarily }
  else if part = lit "C" then { rule with chain := true }
  else if part.length = 3 ∧ ngxStrncasecmpEq part (lit "QSA") 3 then
    { rule with qsa := true }
  else if 2 ≤ part.length ∧ ngxStrncasecmpEq part (lit "E=") 2 then
    { rule with envVars := ngxArrayPush rule.envVars (part.drop 2) }
  else rule

def trimRuleFlag (part : NgxStr) : NgxStr :=
  (part.dropWhile fun c => c = ch ' ' || c = ch '[').rdropWhile
    fun c => c = ch ' ' || c = ch ']'

/-- The loop of `htaccess_parse_rule_flags`; a part takes at least one byte. -/
def htaccessParseRuleFlagsLoop : Nat → NgxStr → RewriteRule → RewriteRule
  | 0, _, rule => rule
  | fuel + 1, p, rule =>
      match p.dropWhile (fun c => c = ch ',' || c = ch ' ') with
      | [] => rule
      | c :: p =>
          let part := trimRuleFlag ((c :: p).takeWhile (· ≠ ch ','))
          let next := (c :: p).dropWhile (· ≠ ch ',')
          htaccessParseRuleFlagsLoop fuel next
            (if part = [] then rule else applyRuleFlag part rule)

def htaccessParseRuleFlags (flags : NgxStr) (rule : RewriteRule) : RewriteRule :=
  htaccessParseRuleFlagsLoop flags.length flags rule

structure ParserState where
  directives : List Directive
  depth : Nat
  enabled : List Bool
  filesMatch : List NgxStr
  pendingConds : Option (List RewriteCond)

/-- `ngx_strncasecmp(arg, "on", 2) == 0` on an argument of two bytes. -/
def isOn (arg : NgxStr) : Bool := arg.length = 2 && ngxStrncasecmpEq arg (lit "on") 2

/-- The `Redirect` family: two paths, and a status that only `Redirect` reads. -/
def redirectData (id : DirectiveId) (args : List NgxStr) : Option AliasRedirect :=
  match args with
  | _ :: source :: target :: rest =>
      some {
        source, target
        permanent := id = .redirectPermanent ||
          (id = .redirect && match rest with
            | status :: _ => 3 ≤ status.length && ngxStrncmpEq status (lit "301") 3
            | [] => false) }
  | _ => none

/-- The `Header` case, whose arguments shift behind an optional `always`. -/
def headerData (pool : PoolId) (args : List NgxStr) : Option Header :=
  if args.length < 3 then none
  else
    let first := args.getD 1 []
    let always := first.length = 6 && ngxStrncasecmpEq first (lit "always") 6
    let offset := if always then 2 else 1
    if args.length ≤ offset + 1 then none
    else some {
      action := args.getD offset [], name := args.getD (offset + 1) []
      value := args.getD (offset + 2) [], always, pool }

/-- The switch of `htaccess_push_directive`: the union of the new directive. -/
def directiveData (sys : Sys) (pool : PoolId) (id : DirectiveId) (args : List NgxStr)
    (pendingConds : Option (List RewriteCond)) : Option DirectiveData :=
  match id with
  | .rewriteEngine => some (.rewriteEngine (isOn (argAt sys pool args 1)))
  | .rewriteBase => some (.rewriteBase (argAt sys pool args 1))
  | .rewriteCond => none
  | .rewriteRule =>
      match args with
      | _ :: pattern :: substitution :: flags =>
          let rule : RewriteRule := { pattern, substitution }
          let rule := match flags with
            | [] => rule
            | f :: _ => htaccessParseRuleFlags f rule
          some (.rewriteRule
            { rule with conditions := if pendingConds.getD [] = [] then none else pendingConds })
      | _ => none
  | .redirect => (redirectData .redirect args).map .redirect
  | .redirectPermanent => (redirectData .redirectPermanent args).map .redirectPermanent
  | .redirectTemp => (redirectData .redirectTemp args).map .redirectTemp
  | .redirectMatch =>
      match args with
      | _ :: source :: target :: _ => some (.redirectMatch { source, target, permanent := true })
      | _ => none
  | .authType => some (.authType (argAt sys pool args 1))
  | .authName => some (.authName (argAt sys pool args 1))
  | .authUserFile => some (.authUserFile (argAt sys pool args 1))
  | .require =>
      if 2 < args.length then (htaccessJoinArgs args 1).map .require
      else some (.require (argAt sys pool args 1))
  | .order => some (.order (argAt sys pool args 1))
  | .allow => some (.allow (argAt sys pool args 1))
  | .deny => some (.deny (argAt sys pool args 1))
  | .expiresDefault => some (.expiresDefault (argAt sys pool args 1))
  | .directoryIndex => some (.directoryIndex (argAt sys pool args 1))
  | .expiresActive => some (.expiresActive (isOn (argAt sys pool args 1)))
  | .header => (headerData pool args).map .header
  | .expiresByType =>
      match args with
      | _ :: name :: value :: _ =>
          some (.expiresByType { action := [], name, value, always := false, pool })
      | _ => none
  | .errorDocument =>
      match args with
      | _ :: code :: uri :: _ =>
          -- `NGX_ERROR` becomes the largest `ngx_uint_t`
          some (.errorDocument { code := (ngxAtoi code).getD 0xFFFFFFFFFFFFFFFF, uri })
      | _ => none
  | .options =>
      let name := argAt sys pool args 1
      some (.options (8 ≤ name.length && ngxStrncasecmpEq name (lit "-Indexes") 8))

def htaccessPushDirective (sys : Sys) (pool : PoolId) (st : ParserState) (id : DirectiveId)
    (args : List NgxStr) : Option ParserState :=
  if id = .rewriteCond then
    (htaccessParseRewriteCond args).map fun cond =>
      { st with pendingConds := ngxArrayPush st.pendingConds cond }
  else
    (directiveData sys pool id args st.pendingConds).map fun u =>
      { st with
        directives := st.directives ++ [{ filesMatch := st.filesMatch.getD st.depth [], u }]
        pendingConds := if id = .rewriteRule ∧ st.pendingConds.getD [] ≠ [] then none
          else st.pendingConds }

/-- Every module counts as present, and both callers pass `in_rewrite` and
`in_files` as 1. -/
def htaccessBlockEnabled (block : NgxStr) (inRewrite inFiles : Bool) : Bool :=
  match block with
  | c :: p =>
      if block.length < 2 ∨ c ≠ ch '<' then true
      else if ngxStrncasecmpEq p (lit "IfModule") 8 then
        let p := (p.drop 8).dropWhile isBlank
        if 14 ≤ p.length ∧ ngxStrncasecmpEq p (lit "mod_rewrite.c") 13 then inRewrite
        else true
      else if ngxStrncasecmpEq p (lit "Files") 5 ∨ ngxStrncasecmpEq p (lit "FilesMatch") 10 then
        inFiles
      else true
  | [] => true

def htaccessParseFilesMatch (block : NgxStr) : NgxStr :=
  if block.length < 12 then []
  else
    let p := block.tail.dropLast
    if !ngxStrncasecmpEq p (lit "FilesMatch") 10 then []
    else match (p.drop 10).dropWhile isBlank with
      | c :: p => if c = ch '"' then p.takeWhile (· ≠ ch '"') else []
      | [] => []

def isTag (t : NgxStr) : Bool :=
  2 ≤ t.length && t.head? = some (ch '<') && t.getLast? = some (ch '>')

/-- The body of the loop of `htaccess_parse` on the tokens of a non-empty line. -/
def parseLine (sys : Sys) (pool : PoolId) (st : ParserState) (args : List NgxStr) :
    Option ParserState :=
  match args with
  | [] => some st
  | t :: _ =>
      if isTag t then
        if 3 ≤ t.length ∧ t.tail.head? = some (ch '/') then
          some { st with depth := st.depth - 1 }
        else if st.depth < 15 then
          some { st with
            depth := st.depth + 1
            enabled := st.enabled.set (st.depth + 1)
              (htaccessBlockEnabled t true true && st.enabled.getD st.depth false)
            filesMatch := st.filesMatch.set (st.depth + 1) (htaccessParseFilesMatch t) }
        else some st
      else if !st.enabled.getD st.depth false then some st
      else
        match htaccessDirectiveId t with
        | none => some st
        | some id => htaccessPushDirective sys pool st id args

def ParserState.initial : ParserState where
  directives := []
  depth := 0
  enabled := true :: List.replicate 15 false
  filesMatch := List.replicate 16 []
  pendingConds := none

/-- The loop of `htaccess_parse`; a line takes at least one byte. -/
def htaccessParseLoop (sys : Sys) (pool : PoolId) :
    Nat → NgxStr → ParserState → Option ParserState
  | 0, _, st => some st
  | _ + 1, [], st => some st
  | fuel + 1, c :: p, st =>
      match htaccessLexLine (c :: p) with
      | none => none
      | some (tokens, next) =>
          match parseLine sys pool st tokens with
          | none => none
          | some st => htaccessParseLoop sys pool fuel next st

def htaccessParse (sys : Sys) (pool : PoolId) (text : NgxStr) : Option ParsedFile :=
  (htaccessParseLoop sys pool text.length text .initial).map fun st =>
    { directives := st.directives, pool }

/-- `htaccess_parse_file`: the result code and the parsed file. -/
def htaccessParseFile (sys : Sys) (pool : PoolId) (path : NgxStr) : Int × Option ParsedFile :=
  match sys.fs.openFile path with
  | none => (ngxDeclined, none)
  | some file =>
      match file.fdSize, file.read with
      | none, _ => (ngxError, none)
      | some _, none => (ngxError, none)
      | some size, some text =>
          if text.length ≠ size then (ngxError, none)
          else match htaccessParse sys pool text with
            | none => (ngxError, none)
            | some parsed => (ngxOk, some parsed)

end NgxHtaccess
