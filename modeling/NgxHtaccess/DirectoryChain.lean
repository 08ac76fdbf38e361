import NgxHtaccess.AlikeLists
import Mathlib.Data.List.GetD

/-!
The walk visits the directory chain of a URI: the root, then every directory that the URI
passes through, from the shortest to the longest. Each is loaded once, and the merged context
holds an entry for each file that loads.
-/
namespace NgxHtaccess

def rootSlash (root : NgxStr) : NgxStr :=
  root ++ if root.getLast? = some (ch '/') then [] else [ch '/']

/-- What the root of the chain loads and leaves. -/
def chainRoot (conf : LocConf) : WalkDir where
  path := rootSlash conf.root ++ conf.filename
  dirPath := conf.root
  urlPrefix := []

/-- What the directory `p` below the root loads and leaves. -/
def chainDir (conf : LocConf) (p : NgxStr) : WalkDir where
  path := rootSlash conf.root ++ (p ++ ch '/' :: conf.filename)
  dirPath := rootSlash conf.root ++ (p ++ [ch '/'])
  urlPrefix := ch '/' :: p

/-- The URI passes through the directory `p`. -/
def PassesThrough (uri p : NgxStr) : Prop := p ≠ [] ∧ ch '/' :: (p ++ [ch '/']) <+: uri

/-- A URI as the walk expects it. -/
structure PlainUri (uri : NgxStr) : Prop where
  absolute : uri.head? = some (ch '/')
  noDouble : ¬ lit "//" <:+: uri
  noNul : (0 : UInt8) ∉ uri

section Paths
variable {root suffix filename : NgxStr}

theorem htaccessJoinPath_root (root filename : NgxStr) :
    htaccessJoinPath root [] filename =
      (rootSlash root ++ filename, (rootSlash root).length) := by
  simp only [htaccessJoinPath, if_true, List.append_nil, rootSlash]

theorem htaccessJoinPath_suffix (hne : suffix ≠ []) (hlast : suffix.getLast? ≠ some (ch '/')) :
    htaccessJoinPath root suffix filename =
      (rootSlash root ++ (suffix ++ ch '/' :: filename),
        (rootSlash root ++ (suffix ++ [ch '/'])).length) := by
  simp only [htaccessJoinPath, if_neg hne, if_neg hlast, rootSlash, List.append_assoc,
    List.cons_append, List.nil_append]

theorem rootSlash_noNul (h : (0 : UInt8) ∉ root) : (0 : UInt8) ∉ rootSlash root := by
  rw [rootSlash, List.mem_append, not_or]
  refine ⟨h, ?_⟩
  split <;> decide

end Paths

section Uri
variable {uri p tail : NgxStr}

theorem slash_at {rest : NgxStr} {i : Nat} (hi : 1 ≤ i) (hlt : i < (ch '/' :: rest).length)
    (hslash : (ch '/' :: rest).getD i 0 = ch '/') :
    ∃ tail, rest = rest.take (i - 1) ++ ch '/' :: tail ∧ (rest.take (i - 1)).length = i - 1 := by
  obtain ⟨j, rfl⟩ : ∃ j, i = j + 1 := ⟨i - 1, by omega⟩
  have hj : j < rest.length := Nat.lt_of_succ_lt_succ hlt
  rw [List.getD_cons_succ, List.getD_eq_getElem _ _ hj] at hslash
  refine ⟨rest.drop (j + 1), ?_, List.length_take_of_le (by omega)⟩
  rw [Nat.add_sub_cancel]
  conv => lhs; rw [← List.take_append_drop j rest, List.drop_eq_getElem_cons hj, hslash]

theorem PlainUri.dir_ne_nil (h : PlainUri (ch '/' :: (p ++ ch '/' :: tail))) : p ≠ [] := by
  rintro rfl
  exact h.noDouble ⟨[], tail, rfl⟩

theorem PlainUri.dir_last (h : PlainUri (ch '/' :: (p ++ ch '/' :: tail))) :
    p.getLast? ≠ some (ch '/') := by
  intro hlast
  obtain ⟨init, rfl⟩ := List.getLast?_eq_some_iff.mp hlast
  refine h.noDouble ⟨ch '/' :: init, tail, ?_⟩
  simp only [List.cons_append, List.append_assoc]
  rfl

/-- The slashes that the walk stops at. -/
def walkStops (uri : NgxStr) : List Nat :=
  (List.range uri.length).filter fun i => 1 ≤ i && uri.getD i 0 = ch '/'

/-- The directories that a URI passes through, from the shortest to the longest. -/
def uriDirs (uri : NgxStr) : List NgxStr :=
  (walkStops uri).map fun i => (uri.drop 1).take (i - 1)

theorem mem_walkStops {i : Nat} :
    i ∈ walkStops uri ↔ i < uri.length ∧ 1 ≤ i ∧ uri.getD i 0 = ch '/' := by
  simp only [walkStops, List.mem_filter, List.mem_range, Bool.and_eq_true, decide_eq_true_eq]

theorem PlainUri.eq_cons (h : PlainUri uri) : ∃ rest, uri = ch '/' :: rest := by
  cases uri with
  | nil => cases h.absolute
  | cons c rest =>
      have hc := h.absolute
      injection hc with hc
      exact ⟨rest, by rw [hc]⟩

theorem uriDirs_shorter (h : PlainUri uri) :
    (uriDirs uri).Pairwise fun p q => p.length < q.length := by
  obtain ⟨rest, rfl⟩ := h.eq_cons
  rw [uriDirs, List.pairwise_map]
  have hsorted : (walkStops (ch '/' :: rest)).Pairwise (· < ·) :=
    List.Pairwise.filter _ List.pairwise_lt_range
  refine hsorted.imp_of_mem fun {i j} hi hj hij => ?_
  obtain ⟨hilt, hi, hislash⟩ := mem_walkStops.mp hi
  obtain ⟨hjlt, hj, hjslash⟩ := mem_walkStops.mp hj
  obtain ⟨_, _, hilength⟩ := slash_at hi hilt hislash
  obtain ⟨_, _, hjlength⟩ := slash_at hj hjlt hjslash
  show (rest.take (i - 1)).length < (rest.take (j - 1)).length
  rw [hilength, hjlength]
  omega

theorem mem_uriDirs (h : PlainUri uri) : p ∈ uriDirs uri ↔ PassesThrough uri p := by
  obtain ⟨rest, rfl⟩ := h.eq_cons
  rw [uriDirs, List.mem_map]
  constructor
  · rintro ⟨i, hi, rfl⟩
    obtain ⟨hlt, hi, hslash⟩ := mem_walkStops.mp hi
    obtain ⟨tail, hrest, _⟩ := slash_at hi hlt hslash
    show PassesThrough (ch '/' :: rest) (rest.take (i - 1))
    generalize rest.take (i - 1) = q at hrest
    rw [hrest] at h ⊢
    refine ⟨h.dir_ne_nil, tail, ?_⟩
    simp only [List.cons_append, List.append_assoc, List.nil_append]
  · rintro ⟨_, tail, htail⟩
    have hrest : rest = p ++ ch '/' :: tail := by
      have htail' : p ++ [ch '/'] ++ tail = rest := List.cons.inj htail |>.2
      rw [← htail', List.append_assoc]
      rfl
    subst hrest
    refine ⟨p.length + 1, mem_walkStops.mpr ⟨?_, Nat.le_add_left 1 _, ?_⟩, ?_⟩
    · simp
    · simp
    · simp

end Uri

section Walk
variable (conf : LocConf)

theorem walkRoot_eq (hroot : (0 : UInt8) ∉ conf.root) (hname : (0 : UInt8) ∉ conf.filename) :
    walkRoot conf = chainRoot conf := by
  have hpath : (0 : UInt8) ∉ rootSlash conf.root ++ conf.filename := by
    rw [List.mem_append, not_or]
    exact ⟨rootSlash_noNul hroot, hname⟩
  rw [walkRoot, htaccessJoinPath_root, cString_of_noNul hpath, chainRoot]

theorem walkAt_eq (hroot : (0 : UInt8) ∉ conf.root) (hname : (0 : UInt8) ∉ conf.filename)
    {p tail : NgxStr} (h : PlainUri (ch '/' :: (p ++ ch '/' :: tail))) :
    walkAt conf (ch '/' :: (p ++ ch '/' :: tail)) (p.length + 1) = chainDir conf p := by
  have hsuffix : ((ch '/' :: (p ++ ch '/' :: tail)).drop 1).take (p.length + 1 - 1) = p := by simp
  have hbegins : (ch '/' :: (p ++ ch '/' :: tail)).take (p.length + 1) = ch '/' :: p := by simp
  have hp : (0 : UInt8) ∉ p := fun hmem => h.noNul
    (List.mem_cons_of_mem _ (List.mem_append_left _ hmem))
  have hpath : (0 : UInt8) ∉ rootSlash conf.root ++ (p ++ ch '/' :: conf.filename) := by
    rw [List.mem_append, List.mem_append, List.mem_cons, not_or, not_or, not_or]
    exact ⟨rootSlash_noNul hroot, hp, by decide, hname⟩
  have hdir : (rootSlash conf.root ++ (p ++ ch '/' :: conf.filename)).take
      (rootSlash conf.root ++ (p ++ [ch '/'])).length = rootSlash conf.root ++ (p ++ [ch '/']) := by
    have hjoin : rootSlash conf.root ++ (p ++ ch '/' :: conf.filename) =
        (rootSlash conf.root ++ (p ++ [ch '/'])) ++ conf.filename := by
      simp only [List.append_assoc, List.singleton_append]
    rw [hjoin, List.take_left]
  unfold walkAt
  simp only [hsuffix, hbegins, htaccessJoinPath_suffix h.dir_ne_nil h.dir_last,
    cString_of_noNul hpath, hdir]
  rfl

/-- The walk visits the root and then the directories that the URI passes through. -/
theorem walkDirs_eq (hroot : (0 : UInt8) ∉ conf.root) (hname : (0 : UInt8) ∉ conf.filename)
    {uri : NgxStr} (h : PlainUri uri) :
    walkDirs conf uri = chainRoot conf :: (uriDirs uri).map (chainDir conf) := by
  rw [walkDirs, walkRoot_eq conf hroot hname, uriDirs, List.map_map]
  obtain ⟨rest, rfl⟩ := h.eq_cons
  refine congrArg _ (List.map_congr_left fun i hstop => ?_)
  obtain ⟨hlt, hi, hslash⟩ := mem_walkStops.mp hstop
  obtain ⟨tail, hrest, hlength⟩ := slash_at hi hlt hslash
  have hindex : i = (rest.take (i - 1)).length + 1 := by omega
  show walkAt conf (ch '/' :: rest) i = chainDir conf (rest.take (i - 1))
  generalize rest.take (i - 1) = p at hrest hindex
  rw [hrest] at h ⊢
  rw [hindex]
  exact walkAt_eq conf hroot hname h

end Walk

section Loads
variable (sys : Sys) (conf : LocConf)

def PoolEvent.loadPath : PoolEvent → Option NgxStr
  | .load call => some call.path
  | _ => none

def Worker.loads (w : Worker) : List NgxStr := w.log.filterMap PoolEvent.loadPath

theorem loads_emit (w : Worker) (e : PoolEvent) :
    (w.emit e).loads = w.loads ++ e.loadPath.toList := by
  unfold Worker.loads Worker.emit
  rw [List.filterMap_append]
  cases he : e.loadPath <;> simp [he]

theorem loads_destroy (w : Worker) (pool : PoolId) : (ngxDestroyPool w pool).loads = w.loads := by
  rw [ngxDestroyPool, loads_emit]
  exact List.append_nil _

theorem loads_evict (w : Worker) : (htaccessCacheEvict w).loads = w.loads := by
  unfold htaccessCacheEvict
  split
  · rfl
  · simp only
    split
    · exact loads_destroy _ _
    · rfl

theorem loads_evictLoop (fuel : Nat) (w : Worker) : (evictLoop fuel w).loads = w.loads := by
  induction fuel generalizing w with
  | zero => rfl
  | succ fuel ih =>
      rw [evictLoop]
      split
      · rw [ih, loads_evict]
      · rfl

theorem loads_store (w : Worker) (path : NgxStr) (mtime : Int) (size : Nat) (absent : Bool)
    (parsed : Option ParsedFile) :
    (htaccessCacheStore w path mtime size absent parsed).loads = w.loads := by
  have hloop := loads_evictLoop w.cache.count w
  unfold htaccessCacheStore
  simp only
  split <;> exact hloop

theorem loads_lookup (w : Worker) (path : NgxStr) (cacheEnable : Bool) :
    (htaccessCacheLookup sys w path cacheEnable).2.loads = w.loads := by
  unfold htaccessCacheLookup
  split
  · rfl
  · split
    · rfl
    · simp only
      split
      · rfl
      · exact loads_evict _

theorem loads_missWorker (w : Worker) (path : NgxStr) :
    (missWorker sys conf w path).loads = w.loads := by
  have hcreated : (ngxCreatePool w).2.loads = w.loads := by
    exact (loads_emit w (.create w.nextPool)).trans (List.append_nil _)
  unfold missWorker
  split
  · split
    · exact loads_store w path 0 0 true none
    · rfl
  · simp only
    split
    · split <;> simp only [loads_store, loads_destroy, hcreated]
    · split <;> simp only [loads_store, hcreated]

theorem loads_loadFile (w : Worker) (path : NgxStr) :
    (htaccessLoadFile sys conf w path).2.2.loads = w.loads ++ [path] := by
  have hstart : (loadStart sys conf w path).loads = w.loads ++ [path] :=
    loads_emit w (.load { sys, conf, path, cache := w.cache })
  have hlookup : (loadLookup sys conf w path).2.loads = w.loads ++ [path] := by
    rw [loadLookup, loads_lookup, hstart]
  rw [htaccessLoadFile_eq]
  generalize loadLookup sys conf w path = looked at hlookup
  obtain ⟨_ | e, w'⟩ := looked
  · exact (loads_missWorker sys conf w' path).trans hlookup
  · simp only
    split <;> exact hlookup

theorem loads_visitWorker (w : Worker) (d : WalkDir) :
    (visitWorker sys conf w d).loads = w.loads ++ [d.path] := by
  have hload := loads_loadFile sys conf w d.path
  unfold visitWorker visitDir
  simp only
  generalize htaccessLoadFile sys conf w d.path = loaded at hload
  obtain ⟨rc, parsed, w'⟩ := loaded
  have hmerge : ∀ pool, (w'.emit (.merge pool)).loads = w'.loads := fun pool => by
    rw [loads_emit]
    exact List.append_nil _
  simp only at hload ⊢
  split
  · exact hload
  · cases parsed with
    | none => exact hload
    | some file =>
        simp only
        split
        · exact hload
        · exact (hmerge file.pool).trans hload

/-- A walk loads the file of every directory once, in order. -/
theorem loads_walk (ds : List WalkDir) (merged : MergedCtx) (w : Worker) :
    (ds.foldl (visitDir sys conf) (merged, w)).2.loads = w.loads ++ ds.map (·.path) := by
  induction ds generalizing merged w with
  | nil => exact (List.append_nil _).symm
  | cons d ds ih =>
      have hvisit : visitDir sys conf (merged, w) d =
          ((visitDir sys conf (merged, w) d).1, visitWorker sys conf w d) :=
        Prod.ext rfl (visitDir_worker sys conf merged w d)
      rw [List.foldl_cons, hvisit, ih, loads_visitWorker, List.append_assoc, List.map_cons,
        List.singleton_append]

end Loads

section Entries

theorem foldl_mergeLocal_dirPath (dir : DirCtx) (ds : List Directive) :
    (ds.foldl mergeLocal dir).dirPath = dir.dirPath := by
  induction ds generalizing dir with
  | nil => rfl
  | cons d ds ih => rw [List.foldl_cons, ih, mergeLocal_eq]

def DirCtx.place (dir : DirCtx) : NgxStr × NgxStr := (dir.dirPath, dir.urlPrefix)

def WalkDir.place (d : WalkDir) : NgxStr × NgxStr := (d.dirPath, d.urlPrefix)

theorem dirCtx_place (f : ChainFile) : f.dirCtx.place = f.dir.place := by
  rw [DirCtx.place, ChainFile.dirCtx, foldl_mergeLocal_dirPath, foldl_mergeLocal_urlPrefix]
  rfl

end Entries

/-- The walk loads the root and then every directory that the URI passes through, from the
shortest to the longest, and leaves an entry for each file that loads. -/
theorem directory_chain (sys : Sys) (conf : LocConf) (w : Worker) (uri : NgxStr)
    (hroot : (0 : UInt8) ∉ conf.root) (hname : (0 : UInt8) ∉ conf.filename)
    (huri : PlainUri uri) :
    ∃ ps : List NgxStr,
      ps.Pairwise (fun p q => p.length < q.length) ∧
      (∀ p, p ∈ ps ↔ PassesThrough uri p) ∧
      (htaccessBuildMergedCtx sys conf w uri).2.loads =
        w.loads ++ (chainRoot conf :: ps.map (chainDir conf)).map (·.path) ∧
      (htaccessBuildMergedCtx sys conf w uri).1.dirs.map DirCtx.place =
        (loadChain sys conf (w.emit .context) (chainRoot conf :: ps.map (chainDir conf))).map
          (·.dir.place) := by
  have hwalk := walkDirs_eq conf hroot hname huri
  refine ⟨uriDirs uri, uriDirs_shorter huri, fun p => mem_uriDirs huri, ?_, ?_⟩
  · have hcontext : (w.emit .context).loads = w.loads :=
      (loads_emit w .context).trans (List.append_nil _)
    rw [htaccessBuildMergedCtx, loads_walk, hwalk, hcontext]
  · rw [htaccessBuildMergedCtx_eq, mergeChain_eq, uriChain, hwalk, List.map_map]
    exact List.map_congr_left fun f _ => dirCtx_place f

theorem directory_chain_nested :
    ∃ ps : List NgxStr,
      ps.Pairwise (fun p q => p.length < q.length) ∧
      (∀ p, p ∈ ps ↔ PassesThrough (lit "/a/b/c") p) ∧
      (htaccessBuildMergedCtx (siteSys (siteFs 0 [("/w/a/.htaccess", "")])) (siteConf 10)
          (siteWorker 0) (lit "/a/b/c")).2.loads =
        (siteWorker 0).loads ++
          (chainRoot (siteConf 10) :: ps.map (chainDir (siteConf 10))).map (·.path) ∧
      (htaccessBuildMergedCtx (siteSys (siteFs 0 [("/w/a/.htaccess", "")])) (siteConf 10)
          (siteWorker 0) (lit "/a/b/c")).1.dirs.map DirCtx.place =
        (loadChain (siteSys (siteFs 0 [("/w/a/.htaccess", "")])) (siteConf 10)
          ((siteWorker 0).emit .context)
          (chainRoot (siteConf 10) :: ps.map (chainDir (siteConf 10)))).map (·.dir.place) :=
  directory_chain _ _ _ _ (by decide) (by decide)
    { absolute := by decide
      noDouble := by decide
      noNul := by decide }

example : (htaccessBuildMergedCtx (siteSys (siteFs 0 [])) (siteConf 10) (siteWorker 0)
    (lit "/a/b/c")).2.loads =
      [lit "/w/.htaccess", lit "/w/a/.htaccess", lit "/w/a/b/.htaccess"] := by
  decide +kernel

end NgxHtaccess
