import NgxHtaccess.Cache

/-!
`htaccess_walk.c`: loading the files along the directories of a URI and merging
their directives into one context.
-/
namespace NgxHtaccess

def htaccessLoadFile (sys : Sys) (conf : LocConf) (w : Worker) (path : NgxStr) :
    Int × Option ParsedFile × Worker :=
  let w := w.emit (.load { sys, conf, path, cache := w.cache })
  match htaccessCacheLookup sys w path conf.cacheEnable with
  | (some entry, w) =>
      if entry.absent then (ngxDeclined, none, w) else (ngxOk, entry.parsed, w)
  | (none, w) =>
      match sys.fs.fileInfo path with
      | none =>
          (ngxDeclined, none,
            if conf.cacheEnable then htaccessCacheStore w path 0 0 true none else w)
      | some fi =>
          let (pool, w) := ngxCreatePool w
          let (rc, parsed) := htaccessParseFile sys pool path
          if rc ≠ ngxOk then
            let w := ngxDestroyPool w pool
            (rc, none,
              if rc = ngxDeclined ∧ conf.cacheEnable then
                htaccessCacheStore w path fi.mtime fi.size true none
              else w)
          else
            (ngxOk, parsed,
              if conf.cacheEnable then htaccessCacheStore w path fi.mtime fi.size false parsed
              else w)

/-- `htaccess_mark_rewrite_chains`: the RewriteRule after one with the C flag
gets `chain_in`. The mark is carried to the next rule in one pass, where the
source searches ahead from every chained rule. -/
def markChains (chained : Bool) : List Directive → List Directive
  | [] => []
  | d :: ds =>
      match d.u with
      | .rewriteRule rule =>
          { d with u := .rewriteRule { rule with chainIn := rule.chainIn || chained } } ::
            markChains rule.chain ds
      | _ => d :: markChains chained ds

def htaccessMarkRewriteChains (directives : List Directive) : List Directive :=
  markChains false directives

/-- The FilesMatch entry that a scoped Require leaves. -/
def filesRuleOf (pattern str : NgxStr) : FilesRule where
  pattern := pattern
  deny := 10 ≤ str.length && ngxStrncasecmpEq str (lit "all denied") 10

def htaccessMergeDirective (merged : MergedCtx) (dir : DirCtx) (d : Directive) :
    MergedCtx × DirCtx :=
  match d.u with
  | .rewriteEngine flag => (merged, { dir with rewriteEngine := flag })
  | .rewriteBase str => (merged, { dir with rewriteBase := str })
  | .rewriteRule _ =>
      (merged, { dir with
        directives := (ngxArrayPush dir.directives d).map htaccessMarkRewriteChains })
  | .redirect _ | .redirectMatch _ | .redirectPermanent _ | .redirectTemp _ =>
      (merged, { dir with directives := ngxArrayPush dir.directives d })
  | .authType str => ({ merged with authType := str }, dir)
  | .authName str => ({ merged with authName := str }, dir)
  | .authUserFile str => ({ merged with authUserFile := str }, dir)
  | .require str =>
      if d.filesMatch ≠ [] then
        ({ merged with
          filesRules := ngxArrayPush merged.filesRules (filesRuleOf d.filesMatch str) }, dir)
      else ({ merged with requires := ngxArrayPush merged.requires str }, dir)
  | .order str => ({ merged with order := str }, dir)
  | .allow str => ({ merged with allows := ngxArrayPush merged.allows str }, dir)
  | .deny str => ({ merged with denies := ngxArrayPush merged.denies str }, dir)
  | .header h => ({ merged with headers := ngxArrayPush merged.headers h }, dir)
  | .expiresActive flag => ({ merged with expiresActive := flag }, dir)
  | .expiresByType h =>
      ({ merged with expiresByType := ngxArrayPush merged.expiresByType h }, dir)
  | .expiresDefault str => ({ merged with expiresDefault := str }, dir)
  | .errorDocument doc =>
      ({ merged with errorDocuments := ngxArrayPush merged.errorDocuments doc }, dir)
  | .options flag => ({ merged with options := merged.options || flag }, dir)
  | .directoryIndex str => ({ merged with directoryIndex := str }, dir)

def htaccessMergeParsed (merged : MergedCtx) (dir : DirCtx) (parsed : Option ParsedFile) :
    MergedCtx × DirCtx :=
  match parsed with
  | none => (merged, dir)
  | some file =>
      file.directives.foldl (fun (m, dir) d => htaccessMergeDirective m dir d) (merged, dir)

/-- `htaccess_join_path`: the path and the length of its directory part. -/
def htaccessJoinPath (root suffix filename : NgxStr) : NgxStr × Nat :=
  let p := root ++ if root.getLast? = some (ch '/') then [] else [ch '/']
  let p := p ++
    if suffix = [] then []
    else suffix ++ if suffix.getLast? = some (ch '/') then [] else [ch '/']
  (p ++ filename, p.length)

structure WalkDir where
  path : NgxStr
  dirPath : NgxStr
  urlPrefix : NgxStr
  deriving DecidableEq

def walkRoot (conf : LocConf) : WalkDir where
  path := cString (htaccessJoinPath conf.root [] conf.filename).1
  dirPath := conf.root
  urlPrefix := []

/-- The loop body of `htaccess_build_merged_ctx` at `uri[i] == '/'`. -/
def walkAt (conf : LocConf) (uri : NgxStr) (i : Nat) : WalkDir :=
  let suffix := (uri.drop 1).take (i - 1)
  let joined := htaccessJoinPath conf.root suffix conf.filename
  { path := cString joined.1, dirPath := joined.1.take joined.2, urlPrefix := uri.take i }

/-- The directories that `htaccess_build_merged_ctx` visits, in its order. -/
def walkDirs (conf : LocConf) (uri : NgxStr) : List WalkDir :=
  walkRoot conf ::
    ((List.range uri.length).filter fun i => 1 ≤ i && uri.getD i 0 = ch '/').map
      (walkAt conf uri)

def DirCtx.fresh (d : WalkDir) : DirCtx where
  dirPath := d.dirPath
  urlPrefix := d.urlPrefix
  rewriteBase := lit "/"
  rewriteEngine := false
  directives := none

/-- Load the file of one directory and merge it, unless the load fails. -/
def visitDir (sys : Sys) (conf : LocConf) (acc : MergedCtx × Worker) (d : WalkDir) :
    MergedCtx × Worker :=
  match htaccessLoadFile sys conf acc.2 d.path with
  | (rc, parsed, w) =>
      if rc ≠ ngxOk then (acc.1, w)
      else
        let (merged, dir) := htaccessMergeParsed acc.1 (.fresh d) parsed
        ({ merged with dirs := merged.dirs ++ [dir] },
          match parsed with
          | some file => if file.directives = [] then w else w.emit (.merge file.pool)
          | none => w)

/-- `htaccess_build_merged_ctx`. Its error returns are failed allocations. -/
def htaccessBuildMergedCtx (sys : Sys) (conf : LocConf) (w : Worker) (uri : NgxStr) :
    MergedCtx × Worker :=
  (walkDirs conf uri).foldl (visitDir sys conf) ({}, w.emit .context)

end NgxHtaccess
