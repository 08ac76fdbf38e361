import NgxHtaccess.Bytes

/-!
The data of `htaccess_directives.h`: parsed directives, the merged context of a
request, the request itself, and the system calls the module relies on.

A union with its discriminating `id` is one inductive type, so a payload always
belongs to its directive. An array pointer that the source compares with `NULL`
is an `Option`. The memo fields `regex` and `regex_nc` are left out: compiling
is a function of pattern and options here. Pool allocations succeed; only the
`ngx_alloc` of `htaccess_cache_store` has an outcome of its own.
-/
namespace NgxHtaccess

def ngxOk : Int := 0
def ngxError : Int := -1
def ngxDeclined : Int := -5

def ngxHttpMovedPermanently : Nat := 301
def ngxHttpMovedTemporarily : Nat := 302
def ngxHttpUnauthorized : Nat := 401
def ngxHttpForbidden : Nat := 403

def htaccessMaxRedirectsDefault : Nat := 10
def htaccessCacheMaxDefault : Nat := 1024

inductive DirectiveId where
  | rewriteEngine | rewriteBase | rewriteCond | rewriteRule
  | redirect | redirectMatch | redirectPermanent | redirectTemp
  | authType | authName | authUserFile | require | order | allow | deny
  | header | expiresActive | expiresByType | expiresDefault
  | errorDocument | options | directoryIndex
  deriving DecidableEq

inductive CondTest where
  | filename | uri | queryString | http | env | fspath | other
  deriving DecidableEq

inductive CondOp where
  | eq | ne | lt | gt | le | ge | regex | nregex
  | file | notFile | dir | notDir | symlink | notSymlink | exist | notExist
  deriving DecidableEq

structure RewriteCond where
  test : CondTest
  name : NgxStr
  op : CondOp
  value : NgxStr
  orNext : Bool
  deriving DecidableEq

structure RewriteRule where
  pattern : NgxStr
  substitution : NgxStr
  last : Bool := false
  endFlag : Bool := false
  nocase : Bool := false
  redirect : Bool := false
  redirectCode : Nat := 0
  chain : Bool := false
  chainIn : Bool := false
  qsa : Bool := false
  envVars : Option (List NgxStr) := none
  conditions : Option (List RewriteCond) := none
  deriving DecidableEq

structure AliasRedirect where
  source : NgxStr
  target : NgxStr
  permanent : Bool
  deriving DecidableEq

/-- A pool is known by the order of its creation. -/
abbrev PoolId := Nat

/-- `pool` is where the bytes of the three strings live. In the source it is
implied by their pointers; the lifetime of a copied value depends on it. -/
structure Header where
  action : NgxStr
  name : NgxStr
  value : NgxStr
  always : Bool
  pool : PoolId
  deriving DecidableEq

structure FilesRule where
  pattern : NgxStr
  deny : Bool
  deriving DecidableEq

structure ErrorDocument where
  code : Nat
  uri : NgxStr
  deriving DecidableEq

/-- The `id` of a directive with the member of the union that it selects. -/
inductive DirectiveData where
  | rewriteEngine (flag : Bool)
  | rewriteBase (str : NgxStr)
  | rewriteRule (rule : RewriteRule)
  | redirect (redir : AliasRedirect)
  | redirectMatch (redir : AliasRedirect)
  | redirectPermanent (redir : AliasRedirect)
  | redirectTemp (redir : AliasRedirect)
  | authType (str : NgxStr)
  | authName (str : NgxStr)
  | authUserFile (str : NgxStr)
  | require (str : NgxStr)
  | order (str : NgxStr)
  | allow (str : NgxStr)
  | deny (str : NgxStr)
  | header (header : Header)
  | expiresActive (flag : Bool)
  | expiresByType (header : Header)
  | expiresDefault (str : NgxStr)
  | errorDocument (doc : ErrorDocument)
  | options (flag : Bool)
  | directoryIndex (str : NgxStr)
  deriving DecidableEq

structure Directive where
  filesMatch : NgxStr
  u : DirectiveData
  deriving DecidableEq

structure ParsedFile where
  directives : List Directive
  pool : PoolId
  deriving DecidableEq

structure DirCtx where
  dirPath : NgxStr
  urlPrefix : NgxStr
  rewriteBase : NgxStr
  rewriteEngine : Bool
  directives : Option (List Directive)
  deriving DecidableEq

structure MergedCtx where
  dirs : List DirCtx := []
  authType : NgxStr := []
  authName : NgxStr := []
  authUserFile : NgxStr := []
  requires : Option (List NgxStr) := none
  order : NgxStr := []
  allows : Option (List NgxStr) := none
  denies : Option (List NgxStr) := none
  headers : Option (List Header) := none
  expiresActive : Bool := false
  expiresByType : Option (List Header) := none
  expiresDefault : NgxStr := []
  errorDocuments : Option (List ErrorDocument) := none
  options : Bool := false
  directoryIndex : NgxStr := []
  filesRules : Option (List FilesRule) := none
  deriving DecidableEq

/-- `root` is the document root of the core location configuration. -/
structure LocConf where
  enable : Bool
  filename : NgxStr
  cacheEnable : Bool
  maxRedirects : Nat
  root : NgxStr

inductive HtaccessResult where
  | declined | ok | redirect | forbidden | unauthorized | error
  deriving DecidableEq

/-- `pool` is the parse pool that the value's bytes live in, if any. -/
structure TableElt where
  hash : Nat
  key : NgxStr
  value : NgxStr
  pool : Option PoolId := none
  deriving DecidableEq

structure Request where
  uri : NgxStr
  args : NgxStr
  unparsedUri : NgxStr
  validUnparsedUri : Bool
  internal : Bool
  headersIn : List (NgxStr × NgxStr)
  server : NgxStr
  user : NgxStr
  passwd : NgxStr
  headersOut : List TableElt
  wwwAuthenticate : Option TableElt
  location : Option TableElt
  status : Nat
  contentLengthN : Int
  contentType : NgxStr
  deriving DecidableEq

structure EnvVar where
  name : NgxStr
  value : NgxStr
  deriving DecidableEq

structure RequestState where
  uri : NgxStr
  filename : NgxStr
  queryString : NgxStr
  env : Option (List EnvVar)
  redirectCode : Nat
  deriving DecidableEq

structure FileInfo where
  mtime : Int
  size : Nat
  isDir : Bool
  isLink : Bool
  deriving DecidableEq

/-- An opened file: the size that `ngx_fd_info` reports and the bytes that
`ngx_read_fd` delivers, either of which can fail. -/
structure OpenFile where
  fdSize : Option Nat
  read : Option NgxStr

/-- `ngx_file_info` and `ngx_open_file`, by the C string they are handed. -/
structure FileSystem where
  fileInfo : NgxStr → Option FileInfo
  openFile : NgxStr → Option OpenFile

/-- What `ngx_regex_exec` reports: the capture pairs of a match, or a failure. -/
inductive RegexRc where
  | matched (captures : List (Int × Int))
  | noMatched
  | error

/-- What the module finds outside itself. The last four fields stand for memory
that the code reads without having written it. -/
structure Sys where
  fs : FileSystem
  /-- `ngx_regex_compile` succeeds on the pattern, caseless or not. -/
  regexCompile : NgxStr → Bool → Bool
  regexExec : NgxStr → Bool → NgxStr → RegexRc
  crypt : NgxStr → NgxStr → Option NgxStr
  /-- The slot of a token array at an index past its `nelts`, in the pool of the parse. -/
  staleArg : PoolId → List NgxStr → Nat → NgxStr
  /-- The bytes behind a buffer that was left without a terminator. -/
  tail : NgxStr → NgxStr
  /-- The local `captures` array of `htaccess_apply_rewrite` at entry. -/
  staleCaptures : Nat → Int
  /-- The bytes at a capture range that does not lie inside its subject. -/
  wild : NgxStr → Int → Int → NgxStr

/-- The C string at a buffer that the code does not terminate. -/
def Sys.unterminated (sys : Sys) (s : NgxStr) : NgxStr := cString (s ++ sys.tail s)

/-- The system with another state of its files. -/
def Sys.withFs (sys : Sys) (fs : FileSystem) : Sys := { sys with fs }

/-- `ngx_array_push` on an array that is created at its first element. -/
def ngxArrayPush {α : Type} (a : Option (List α)) (x : α) : Option (List α) :=
  some (a.getD [] ++ [x])

@[simp] theorem ngxArrayPush_getD {α : Type} (a : Option (List α)) (x : α) :
    (ngxArrayPush a x).getD [] = a.getD [] ++ [x] := rfl

end NgxHtaccess
