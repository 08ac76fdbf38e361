import NgxHtaccess.Passes

/-!
A small site to run the module on: files by path, patterns that are literal
texts, and no memory left over from earlier use. The concrete runs of this
development are runs on such a site.
-/
namespace NgxHtaccess

/-- Where a literal pattern occurs first in the subject. -/
def literalFind (pattern : NgxStr) (caseless : Bool) (subject : NgxStr) : Option Nat :=
  (List.range (subject.length + 1)).find? fun i =>
    pattern.length ≤ (subject.drop i).length &&
      if caseless then ngxStrncasecmpEq (subject.drop i) pattern pattern.length
      else ngxStrncmpEq (subject.drop i) pattern pattern.length

def literalExec (pattern : NgxStr) (caseless : Bool) (subject : NgxStr) : RegexRc :=
  match literalFind pattern caseless subject with
  | none => .noMatched
  | some i => .matched [(i, i + pattern.length)]

def siteFile (files : List (String × String)) (path : NgxStr) : Option NgxStr :=
  (files.find? fun f => lit f.1 = path).map fun f => lit f.2

/-- The file system with the given files, all changed last at `mtime`. A path
with a slash at its end is a directory. -/
def siteFs (mtime : Int) (files : List (String × String)) : FileSystem where
  fileInfo path := (siteFile files path).map fun text =>
    { mtime, size := text.length, isDir := path.getLast? = some (ch '/'), isLink := false }
  openFile path := (siteFile files path).map fun text =>
    { fdSize := some text.length, read := some text }

/-- A lone opening parenthesis is the one pattern that does not compile. -/
def siteSys (fs : FileSystem) : Sys where
  fs := fs
  regexCompile pattern _ := pattern ≠ lit "("
  regexExec := literalExec
  crypt _ _ := none
  staleArg _ _ _ := []
  tail _ := []
  staleCaptures _ := -1
  wild _ _ _ := []

def siteConf (maxRedirects : Nat) : LocConf where
  enable := true
  filename := lit ".htaccess"
  cacheEnable := true
  maxRedirects := maxRedirects
  root := lit "/w"

def siteRequest (uri : String) : Request where
  uri := lit uri
  args := []
  unparsedUri := lit uri
  validUnparsedUri := true
  internal := false
  headersIn := []
  server := lit "host"
  user := []
  passwd := []
  headersOut := []
  wwwAuthenticate := none
  location := none
  status := 0
  contentLengthN := -1
  contentType := []

def siteState (uri : String) : RequestState where
  uri := lit uri
  filename := []
  queryString := []
  env := none
  redirectCode := 0

def siteWorker (maxEntries : Nat) : Worker where
  cache := htaccessCacheInit maxEntries
  nextPool := 0
  entryAllocs := []
  log := []

/-- A run on the files, with the default cache and pass limit. -/
def siteRun (files : List (String × String)) (uri : String) : ExecResult :=
  htaccessExecute (siteSys (siteFs 0 files)) (siteConf htaccessMaxRedirectsDefault)
    (siteRequest uri) (siteWorker 0)

example : (siteRun [("/w/.htaccess", "RewriteEngine On\nRewriteRule old /new [R=301,L]\n")]
    "/old").rc = 301 := by decide +kernel

end NgxHtaccess
