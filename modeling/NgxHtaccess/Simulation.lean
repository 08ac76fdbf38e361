import Mathlib.Data.List.Forall2
import NgxHtaccess.CacheOps
import NgxHtaccess.SameView

/-!
Two runs of the module on file systems whose files parse alike.

Lists of directives are alike when they merge into contexts of the same view. Any such
relation is carried through the cache and the walk, and this one through the passes of a
run, so two such runs return the same code and the same request.
-/
namespace NgxHtaccess
open BoundedLoop

/-- The lists merge into contexts that no stage can tell apart. -/
structure DirectivesAlike (inert : FilesRule → Bool) (ds ds' : List Directive) : Prop where
  core : ∀ m, (ds.foldl mergeGlobal m).core = (ds'.foldl mergeGlobal m).core
  filesRules : (ds.filterMap Directive.filesRule).filter (!inert ·) =
    (ds'.filterMap Directive.filesRule).filter (!inert ·)
  dir : ∀ d, SameDir (ds.foldl mergeLocal (.fresh d)) (ds'.foldl mergeLocal (.fresh d))

theorem SameDir.refl (dir : DirCtx) : SameDir dir dir := ⟨rfl, rfl, rfl, rfl, rfl⟩

theorem DirectivesAlike.refl (inert : FilesRule → Bool) (ds : List Directive) :
    DirectivesAlike inert ds ds :=
  ⟨fun _ => rfl, rfl, fun _ => .refl _⟩

section Merge
variable {inert : FilesRule → Bool}

theorem core_mergeGlobal (m : MergedCtx) (d : Directive) :
    (mergeGlobal m d).core = (mergeGlobal m.core d).core := by
  simp only [mergeGlobal_eq, MergedCtx.core]

theorem core_foldl_mergeGlobal (ds : List Directive) {m m' : MergedCtx} (h : m.core = m'.core) :
    (ds.foldl mergeGlobal m).core = (ds.foldl mergeGlobal m').core := by
  induction ds generalizing m m' with
  | nil => exact h
  | cons d ds ih =>
      refine ih ?_
      rw [core_mergeGlobal, h, ← core_mergeGlobal]

theorem mergeFile_sameView {m m' : MergedCtx} (h : SameView inert m m') (d : WalkDir)
    {ds ds' : List Directive} (hds : DirectivesAlike inert ds ds') :
    SameView inert (mergeFile m ⟨d, ds⟩) (mergeFile m' ⟨d, ds'⟩) := by
  have hrules := fun (ds : List Directive) (m : MergedCtx) =>
    foldl_collect (fun m d => congrArg MergedCtx.filesRules (mergeGlobal_eq m d)) ds m
  refine ⟨?_, ?_, ?_⟩
  · change (ds.foldl mergeGlobal m).core = (ds'.foldl mergeGlobal m').core
    rw [core_foldl_mergeGlobal ds h.core, hds.core]
  · exact List.rel_append h.dirs (.cons (hds.dir d) .nil)
  · simp only [mergeFile, hrules, foldl_ngxArrayPush_getD, List.filter_append, h.filesRules,
      hds.filesRules]

end Merge

section Cache
variable (fs fs' : FileSystem) (D : List Directive → List Directive → Prop)

/-- Files of the same pool whose directives are related. -/
def FileRel (file file' : ParsedFile) : Prop :=
  file.pool = file'.pool ∧ D file.directives file'.directives

structure EntryRel (e e' : CacheEntry) : Prop where
  path : e.path = e'.path
  absent : e.absent = e'.absent
  fresh : e.fresh (fs.fileInfo e.path) = e'.fresh (fs'.fileInfo e.path)
  parsed : Option.Rel (FileRel D) e.parsed e'.parsed

/-- The workers hold related files at the same places, whatever their logs say. -/
structure WorkerRel (w w' : Worker) : Prop where
  lru : List.Forall₂ (EntryRel fs fs' D) w.cache.lru w'.cache.lru
  count : w.cache.count = w'.cache.count
  maxEntries : w.cache.maxEntries = w'.cache.maxEntries
  nextPool : w.nextPool = w'.nextPool
  entryAllocs : w.entryAllocs = w'.entryAllocs

variable {fs fs' D} {w w' : Worker}

theorem WorkerRel.emit (h : WorkerRel fs fs' D w w') (e e' : PoolEvent) :
    WorkerRel fs fs' D (w.emit e) (w'.emit e') :=
  ⟨h.lru, h.count, h.maxEntries, h.nextPool, h.entryAllocs⟩

theorem WorkerRel.emit_left (h : WorkerRel fs fs' D w w') (e : PoolEvent) :
    WorkerRel fs fs' D (w.emit e) w' :=
  ⟨h.lru, h.count, h.maxEntries, h.nextPool, h.entryAllocs⟩

theorem WorkerRel.emit_right (h : WorkerRel fs fs' D w w') (e : PoolEvent) :
    WorkerRel fs fs' D w (w'.emit e) :=
  ⟨h.lru, h.count, h.maxEntries, h.nextPool, h.entryAllocs⟩

theorem forall₂_dropLast {α β : Type} {R : α → β → Prop} {xs : List α} {ys : List β}
    (h : List.Forall₂ R xs ys) : List.Forall₂ R xs.dropLast ys.dropLast := by
  rw [List.dropLast_eq_take, List.dropLast_eq_take, h.length_eq]
  exact List.forall₂_take _ h

theorem forall₂_getLast? {α β : Type} {R : α → β → Prop} {xs : List α} {ys : List β}
    (h : List.Forall₂ R xs ys) : Option.Rel R xs.getLast? ys.getLast? := by
  rw [List.getLast?_eq_head?_reverse, List.getLast?_eq_head?_reverse]
  have hreverse := List.rel_reverse h
  generalize xs.reverse = xs at hreverse
  generalize ys.reverse = ys at hreverse
  cases hreverse with
  | nil => exact .none
  | cons hxy _ => exact .some hxy

theorem htaccessCacheEvict_rel (h : WorkerRel fs fs' D w w') :
    WorkerRel fs fs' D (htaccessCacheEvict w) (htaccessCacheEvict w') := by
  have hdrop : WorkerRel fs fs' D { w with cache := w.cache.dropLast }
      { w' with cache := w'.cache.dropLast } :=
    ⟨forall₂_dropLast h.lru, by simp only [Cache.dropLast, h.count], h.maxEntries, h.nextPool,
      h.entryAllocs⟩
  have hlast := forall₂_getLast? h.lru
  unfold htaccessCacheEvict
  generalize w.cache.lru.getLast? = last at hlast
  generalize w'.cache.lru.getLast? = last' at hlast
  cases hlast with
  | none => exact h
  | @some e e' he =>
      have hparsed := he.parsed
      simp only
      generalize e.parsed = parsed at hparsed
      generalize e'.parsed = parsed' at hparsed
      cases hparsed with
      | none => exact hdrop
      | some _ => exact hdrop.emit _ _

theorem evictLoop_rel (fuel : Nat) (h : WorkerRel fs fs' D w w') :
    WorkerRel fs fs' D (evictLoop fuel w) (evictLoop fuel w') := by
  induction fuel generalizing w w' with
  | zero => exact h
  | succ fuel ih =>
      rw [evictLoop, evictLoop, h.count, h.maxEntries]
      split
      · exact ih (htaccessCacheEvict_rel h)
      · exact h

theorem htaccessCacheStore_rel (h : WorkerRel fs fs' D w w') {e e' : CacheEntry}
    (he : EntryRel fs fs' D e e') :
    WorkerRel fs fs' D (htaccessCacheStore w e.path e.mtime e.size e.absent e.parsed)
      (htaccessCacheStore w' e'.path e'.mtime e'.size e'.absent e'.parsed) := by
  have hroom := evictLoop_rel w.cache.count h
  unfold htaccessCacheStore
  rw [← h.count]
  simp only [← hroom.entryAllocs]
  split
  · exact ⟨hroom.lru, hroom.count, hroom.maxEntries, hroom.nextPool, rfl⟩
  · exact ⟨.cons he hroom.lru, by simp only [hroom.count], hroom.maxEntries, hroom.nextPool, rfl⟩

theorem htaccessCacheFind_rel {lru lru' : List CacheEntry} (path : NgxStr)
    (h : List.Forall₂ (EntryRel fs fs' D) lru lru') :
    Option.Rel (EntryRel fs fs' D) (lru.find? (·.path = path)) (lru'.find? (·.path = path)) ∧
      List.Forall₂ (EntryRel fs fs' D) (lru.eraseP (·.path = path))
        (lru'.eraseP (·.path = path)) := by
  induction h with
  | nil => exact ⟨.none, .nil⟩
  | @cons e e' lru lru' he hrest ih =>
      simp only [List.find?_cons, List.eraseP_cons, ← he.path]
      by_cases hpath : e.path = path
      · simp only [hpath, decide_true, cond_true]
        exact ⟨.some he, hrest⟩
      · simp only [hpath, decide_false, cond_false]
        exact ⟨ih.1, .cons he ih.2⟩

end Cache

section Load
variable (sys : Sys) (fs' : FileSystem) (D : List Directive → List Directive → Prop)
  (conf : LocConf)

/-- The files at a path parse to related directives, or both fail alike. -/
structure ReadsRel (path : NgxStr) : Prop where
  rc : ∀ pool, (htaccessParseFile sys pool path).1 =
    (htaccessParseFile (sys.withFs fs') pool path).1
  parsed : ∀ pool, Option.Rel (FileRel D) (htaccessParseFile sys pool path).2
    (htaccessParseFile (sys.withFs fs') pool path).2

variable {sys fs' D} (hkinds : KindsAlike sys.fs fs') {path : NgxStr}
  (hreads : ReadsRel sys fs' D path) {w w' : Worker}
include hkinds hreads

omit hkinds hreads in
theorem loadLookup_rel (path : NgxStr) (h : WorkerRel sys.fs fs' D w w') :
    Option.Rel (EntryRel sys.fs fs' D) (loadLookup sys conf w path).1
        (loadLookup (sys.withFs fs') conf w' path).1 ∧
      WorkerRel sys.fs fs' D (loadLookup sys conf w path).2
        (loadLookup (sys.withFs fs') conf w' path).2 := by
  obtain ⟨hfind, herase⟩ := htaccessCacheFind_rel path h.lru
  unfold loadLookup htaccessCacheLookup htaccessCacheFind loadStart
  simp only [emit_cache]
  split
  · exact ⟨.none, h.emit _ _⟩
  · generalize hhit : w.cache.lru.find? (·.path = path) = hit at hfind
    generalize w'.cache.lru.find? (·.path = path) = hit' at hfind
    cases hfind with
    | none => exact ⟨.none, h.emit _ _⟩
    | @some e e' he =>
        have hpath : e.path = path := by simpa using List.find?_some hhit
        have hmoved : ∀ ev ev', WorkerRel sys.fs fs' D
            { w.emit ev with cache :=
              { w.cache with lru := e :: w.cache.lru.eraseP (·.path = path) } }
            { w'.emit ev' with cache :=
              { w'.cache with lru := e' :: w'.cache.lru.eraseP (·.path = path) } } :=
          fun _ _ => ⟨.cons he herase, h.count, h.maxEntries, h.nextPool, h.entryAllocs⟩
        have hfresh : e.fresh (sys.fs.fileInfo path) =
            e'.fresh ((sys.withFs fs').fs.fileInfo path) := hpath ▸ he.fresh
        simp only [hfresh]
        split
        · exact ⟨.some he, hmoved _ _⟩
        · exact ⟨.none, htaccessCacheEvict_rel (hmoved _ _)⟩

theorem missWorker_rel (h : WorkerRel sys.fs fs' D w w') :
    WorkerRel sys.fs fs' D (missWorker sys conf w path)
      (missWorker (sys.withFs fs') conf w' path) := by
  have hkind : fileKind _ = fileKind ((sys.withFs fs').fs.fileInfo path) := hkinds path
  have hrc := hreads.rc w.nextPool
  have hparsed := hreads.parsed w.nextPool
  unfold missWorker
  rw [← h.nextPool]
  cases hinfo : sys.fs.fileInfo path with
  | none =>
      cases hinfo' : (sys.withFs fs').fs.fileInfo path with
      | some fi' => rw [hinfo, hinfo'] at hkind; cases hkind
      | none =>
          simp only
          split
          · have hentry : EntryRel sys.fs fs' D ⟨path, 0, 0, true, none⟩
                ⟨path, 0, 0, true, none⟩ :=
              ⟨rfl, rfl, by rw [hinfo, show fs'.fileInfo path = none from hinfo'], .none⟩
            exact htaccessCacheStore_rel h hentry
          · exact h
  | some fi =>
      cases hinfo' : (sys.withFs fs').fs.fileInfo path with
      | none => rw [hinfo, hinfo'] at hkind; cases hkind
      | some fi' =>
          have hinfo₂ : fs'.fileInfo path = some fi' := hinfo'
          have hcreated : WorkerRel sys.fs fs' D (ngxCreatePool w).2 (ngxCreatePool w').2 :=
            ⟨h.lru, h.count, h.maxEntries, congrArg (· + 1) h.nextPool, h.entryAllocs⟩
          have hdestroyed := hcreated.emit (.destroy w.nextPool) (.destroy w.nextPool)
          simp only [← hrc]
          split
          · split
            · have hentry : EntryRel sys.fs fs' D ⟨path, fi.mtime, fi.size, true, none⟩
                  ⟨path, fi'.mtime, fi'.size, true, none⟩ :=
                ⟨rfl, rfl, by simp only [hinfo, hinfo₂]; rfl, .none⟩
              exact htaccessCacheStore_rel hdestroyed hentry
            · exact hdestroyed
          · split
            · have hentry : EntryRel sys.fs fs' D
                  ⟨path, fi.mtime, fi.size, false, (htaccessParseFile sys w.nextPool path).2⟩
                  ⟨path, fi'.mtime, fi'.size, false,
                    (htaccessParseFile (sys.withFs fs') w.nextPool path).2⟩ :=
                ⟨rfl, rfl, by simp [CacheEntry.fresh, hinfo, hinfo₂], hparsed⟩
              exact htaccessCacheStore_rel hcreated hentry
            · exact hcreated

theorem readFile_rel (pool : PoolId) :
    (readFile sys pool path).1 = (readFile (sys.withFs fs') pool path).1 ∧
      Option.Rel (FileRel D) (readFile sys pool path).2
        (readFile (sys.withFs fs') pool path).2 := by
  have hkind : _ = ((sys.withFs fs').fs.fileInfo path).isSome :=
    isSome_of_fileKind (hkinds path)
  have hrc := hreads.rc pool
  have hparsed := hreads.parsed pool
  unfold readFile
  cases hinfo : sys.fs.fileInfo path <;> cases hinfo' : (sys.withFs fs').fs.fileInfo path <;>
    rw [hinfo, hinfo'] at hkind
  · exact ⟨rfl, .none⟩
  · cases hkind
  · cases hkind
  · simp only [← hrc]
    split
    · exact ⟨rfl, .none⟩
    · exact ⟨rfl, hparsed⟩

theorem htaccessLoadFile_rel (h : WorkerRel sys.fs fs' D w w') :
    (htaccessLoadFile sys conf w path).1 = (htaccessLoadFile (sys.withFs fs') conf w' path).1 ∧
      Option.Rel (FileRel D) (htaccessLoadFile sys conf w path).2.1
        (htaccessLoadFile (sys.withFs fs') conf w' path).2.1 ∧
      WorkerRel sys.fs fs' D (htaccessLoadFile sys conf w path).2.2
        (htaccessLoadFile (sys.withFs fs') conf w' path).2.2 := by
  obtain ⟨hfound, hleft⟩ := loadLookup_rel conf path h
  rw [htaccessLoadFile_eq, htaccessLoadFile_eq]
  generalize loadLookup sys conf w path = looked at hfound hleft
  generalize loadLookup (sys.withFs fs') conf w' path = looked' at hfound hleft
  obtain ⟨found, v⟩ := looked
  obtain ⟨found', v'⟩ := looked'
  cases hfound with
  | none =>
      have hread := readFile_rel hkinds hreads v.nextPool
      simp only at hleft ⊢
      rw [← hleft.nextPool]
      exact ⟨hread.1, hread.2, missWorker_rel conf hkinds hreads hleft⟩
  | @some e e' he =>
      simp only [← he.absent]
      split
      · exact ⟨rfl, .none, hleft⟩
      · exact ⟨rfl, he.parsed, hleft⟩

end Load

section Walk
variable {sys : Sys} {fs' : FileSystem} {D : List Directive → List Directive → Prop}
  {S : MergedCtx → MergedCtx → Prop} (conf : LocConf) (hkinds : KindsAlike sys.fs fs')
  (hnil : D [] []) (hmerge : ∀ {m m'}, S m m' → ∀ d {ds ds'}, D ds ds' →
    S (mergeFile m ⟨d, ds⟩) (mergeFile m' ⟨d, ds'⟩))
include hkinds hnil hmerge

theorem visitDir_rel {m m' : MergedCtx} {w w' : Worker} (hm : S m m')
    (hw : WorkerRel sys.fs fs' D w w') {d : WalkDir} (hreads : ReadsRel sys fs' D d.path) :
    S (visitDir sys conf (m, w) d).1 (visitDir (sys.withFs fs') conf (m', w') d).1 ∧
      WorkerRel sys.fs fs' D (visitDir sys conf (m, w) d).2
        (visitDir (sys.withFs fs') conf (m', w') d).2 := by
  obtain ⟨hrc, hparsed, hleft⟩ := htaccessLoadFile_rel conf hkinds hreads hw
  rw [visitDir_merged, visitDir_merged]
  unfold visitDir loadedFile
  generalize htaccessLoadFile sys conf w d.path = loaded at hrc hparsed hleft
  generalize htaccessLoadFile (sys.withFs fs') conf w' d.path = loaded' at hrc hparsed hleft
  obtain ⟨rc, parsed, v⟩ := loaded
  obtain ⟨rc', parsed', v'⟩ := loaded'
  obtain rfl : rc = rc' := hrc
  simp only at hparsed hleft ⊢
  split
  · exact ⟨hm, hleft⟩
  · simp only [Option.toList_some, List.foldl_cons, List.foldl_nil]
    cases hparsed with
    | none => exact ⟨hmerge hm d hnil, hleft⟩
    | @some file file' hfile =>
        refine ⟨hmerge hm d hfile.2, ?_⟩
        simp only
        split <;> split
        · exact hleft
        · exact hleft.emit_right _
        · exact hleft.emit_left _
        · exact hleft.emit _ _

theorem foldl_visitDir_rel (ds : List WalkDir) (hreads : ∀ d ∈ ds, ReadsRel sys fs' D d.path)
    {m m' : MergedCtx} {w w' : Worker} (hm : S m m') (hw : WorkerRel sys.fs fs' D w w') :
    S (ds.foldl (visitDir sys conf) (m, w)).1
        (ds.foldl (visitDir (sys.withFs fs') conf) (m', w')).1 ∧
      WorkerRel sys.fs fs' D (ds.foldl (visitDir sys conf) (m, w)).2
        (ds.foldl (visitDir (sys.withFs fs') conf) (m', w')).2 := by
  induction ds generalizing m m' w w' with
  | nil => exact ⟨hm, hw⟩
  | cons d ds ih =>
      obtain ⟨hd, hreads⟩ := List.forall_mem_cons.mp hreads
      obtain ⟨hm', hw'⟩ := visitDir_rel conf hkinds hnil hmerge hm hw hd
      exact ih hreads hm' hw'

/-- The walks of two related workers build related contexts. -/
theorem htaccessBuildMergedCtx_rel {w w' : Worker} (h : WorkerRel sys.fs fs' D w w')
    (hempty : S {} {}) (uri : NgxStr)
    (hreads : ∀ d ∈ walkDirs conf uri, ReadsRel sys fs' D d.path) :
    S (htaccessBuildMergedCtx sys conf w uri).1
        (htaccessBuildMergedCtx (sys.withFs fs') conf w' uri).1 ∧
      WorkerRel sys.fs fs' D (htaccessBuildMergedCtx sys conf w uri).2
        (htaccessBuildMergedCtx (sys.withFs fs') conf w' uri).2 :=
  foldl_visitDir_rel conf hkinds hnil hmerge _ hreads hempty (h.emit _ _)

end Walk

abbrev WorkerAlike (fs fs' : FileSystem) (inert : FilesRule → Bool) : Worker → Worker → Prop :=
  WorkerRel fs fs' (DirectivesAlike inert)

/-- The file at any path is the same kind of file, and it parses alike. -/
structure ReadsAlike (sys : Sys) (fs' : FileSystem) (inert : FilesRule → Bool) : Prop where
  kinds : KindsAlike sys.fs fs'
  file : ∀ path, ReadsRel sys fs' (DirectivesAlike inert) path

theorem htaccessBuildMergedCtx_alike {sys : Sys} {fs' : FileSystem} {inert : FilesRule → Bool}
    (conf : LocConf) (hreads : ReadsAlike sys fs' inert) {w w' : Worker}
    (h : WorkerAlike sys.fs fs' inert w w') (uri : NgxStr) :
    SameView inert (htaccessBuildMergedCtx sys conf w uri).1
        (htaccessBuildMergedCtx (sys.withFs fs') conf w' uri).1 ∧
      WorkerAlike sys.fs fs' inert (htaccessBuildMergedCtx sys conf w uri).2
        (htaccessBuildMergedCtx (sys.withFs fs') conf w' uri).2 :=
  htaccessBuildMergedCtx_rel conf hreads.kinds (.refl inert []) mergeFile_sameView h
    ⟨rfl, .nil, rfl⟩ uri fun d _ => hreads.file d.path

structure LoopAlike (fs fs' : FileSystem) (inert : FilesRule → Bool) (s s' : LoopState) :
    Prop where
  pass : s.pass = s'.pass
  r : s.r = s'.r
  state : s.state = s'.state
  worker : WorkerAlike fs fs' inert s.worker s'.worker

structure ExecAlike (fs fs' : FileSystem) (inert : FilesRule → Bool) (out out' : ExecResult) :
    Prop where
  rc : out.rc = out'.rc
  r : out.r = out'.r
  state : out.state = out'.state
  worker : WorkerAlike fs fs' inert out.worker out'.worker

section Stages
variable {sys : Sys} {fs' : FileSystem} {inert : FilesRule → Bool} (conf : LocConf)
  {m m' : MergedCtx} {s t : LoopState}

abbrev RoundsAlike (fs fs' : FileSystem) (inert : FilesRule → Bool) :
    Round LoopState ExecResult → Round LoopState ExecResult → Prop :=
  RoundRel (LoopAlike fs fs' inert) (ExecAlike fs fs' inert)

theorem foldl_header_alike {w w' : Worker} (h : WorkerAlike sys.fs fs' inert w w')
    (pools : List PoolId) :
    WorkerAlike sys.fs fs' inert (pools.foldl (fun w p => w.emit (.header p)) w)
      (pools.foldl (fun w p => w.emit (.header p)) w') := by
  induction pools generalizing w w' with
  | nil => exact h
  | cons pool pools ih => exact ih (h.emit _ _)

theorem refuse_alike (hm : SameView inert m m') (code : Nat)
    (h : LoopAlike sys.fs fs' inert s t) :
    RoundsAlike sys.fs fs' inert (refuse m code s) (refuse m' code t) := by
  unfold refuse
  rw [htaccessErrorUri_sameView hm]
  cases htaccessErrorUri m code with
  | none => exact ⟨rfl, h.r, h.state, h.worker⟩
  | some uri => exact ⟨by rw [h.pass], by rw [h.r, h.state], by rw [h.state], h.worker⟩

theorem sendRedirect_alike (h : LoopAlike sys.fs fs' inert s t) :
    ExecAlike sys.fs fs' inert (sendRedirect s) (sendRedirect t) := by
  unfold sendRedirect
  rw [h.r, h.state]
  exact ⟨rfl, rfl, rfl, h.worker⟩

theorem serve_alike (hm : SameView inert m m') (h : LoopAlike sys.fs fs' inert s t) :
    ExecAlike sys.fs fs' inert (serve sys conf m s) (serve (sys.withFs fs') conf m' t) := by
  unfold serve
  rw [htaccessApplyHeaders_sameView hm, h.r]
  exact ⟨rfl, rfl, h.state, foldl_header_alike h.worker _⟩

theorem accessCheck_alike (hm : SameView inert m m') (hpass : SamePasswords sys fs' m)
    (hinert : InertOn sys inert s.r.uri) (start start' : Worker)
    (h : LoopAlike sys.fs fs' inert s t) :
    RoundsAlike sys.fs fs' inert (accessCheck sys conf m start s)
      (accessCheck (sys.withFs fs') conf m' start' t) := by
  unfold accessCheck
  rw [← h.r, htaccessApplyAuth_sameView sys fs' hm hpass hinert]
  cases htaccessApplyAuth sys s.r m with
  | mk result r =>
      have hnext : ∀ us us', LoopAlike sys.fs fs' inert { s with r, trace := us }
          { t with r, trace := us' } := fun _ _ => ⟨h.pass, rfl, h.state, h.worker⟩
      cases result with
      | unauthorized => exact refuse_alike hm _ (hnext _ _)
      | forbidden => exact refuse_alike hm _ (hnext _ _)
      | _ => exact serve_alike conf hm (hnext _ _)

variable (hkinds : KindsAlike sys.fs fs')
include hkinds

theorem rewriteStage_alike (hm : SameView inert m m') (hpass : SamePasswords sys fs' m)
    (hinert : InertOn sys inert (htaccessApplyRewrite sys conf s.r m s.state).2.1.uri)
    (start start' : Worker) (h : LoopAlike sys.fs fs' inert s t) :
    RoundsAlike sys.fs fs' inert (rewriteStage sys conf m start s)
      (rewriteStage (sys.withFs fs') conf m' start' t) := by
  unfold rewriteStage
  rw [← h.r, ← h.state, htaccessApplyRewrite_sameView sys hkinds conf hm]
  generalize htaccessApplyRewrite sys conf s.r m s.state = outcome at hinert
  obtain ⟨result, r, state⟩ := outcome
  have hnext : ∀ us us', LoopAlike sys.fs fs' inert { s with r, state, trace := us }
      { t with r, state, trace := us' } := fun _ _ => ⟨h.pass, rfl, rfl, h.worker⟩
  cases result with
  | redirect => exact sendRedirect_alike (hnext _ _)
  | ok => exact ⟨by rw [h.pass], rfl, rfl, h.worker⟩
  | _ => exact accessCheck_alike conf hm hpass hinert start start' (hnext _ _)

theorem aliasStage_alike (hm : SameView inert m m') (hpass : SamePasswords sys fs' m)
    (hinert : (htaccessApplyAlias sys m s.state).1 ≠ .redirect →
      InertOn sys inert (htaccessApplyRewrite sys conf s.r m s.state).2.1.uri)
    (start start' : Worker) (h : LoopAlike sys.fs fs' inert s t) :
    RoundsAlike sys.fs fs' inert (aliasStage sys conf m start s)
      (aliasStage (sys.withFs fs') conf m' start' t) := by
  unfold aliasStage
  rw [← h.state, htaccessApplyAlias_sameView sys fs' hm]
  rcases htaccessApplyAlias_cases sys m s.state with halias | halias
  · rw [halias] at hinert ⊢
    have hnext : LoopAlike sys.fs fs' inert { s with trace := s.trace ++ [.alias .declined] }
        { t with state := s.state, trace := t.trace ++ [.alias .declined] } :=
      ⟨h.pass, h.r, rfl, h.worker⟩
    exact rewriteStage_alike (s := { s with trace := s.trace ++ [.alias .declined] }) conf hkinds hm
      hpass (hinert (by simp)) start start' hnext
  · generalize htaccessApplyAlias sys m s.state = outcome at halias
    obtain ⟨result, state⟩ := outcome
    obtain rfl : result = .redirect := halias
    exact sendRedirect_alike ⟨h.pass, h.r, rfl, h.worker⟩

end Stages

section Run
variable (sys : Sys) (fs' : FileSystem) (inert : FilesRule → Bool) (conf : LocConf)
  (requestUri : NgxStr)

/-- What a pass of the first run must not depend on: the password file is the same in
both file systems, and no inert rule fires on a URI that the pass checks. -/
structure PassSafe (s : LoopState) : Prop where
  passwords : SamePasswords sys fs' (passCtx sys conf s)
  first : s.pass = 0 → InertOn sys inert requestUri
  checked : InertOn sys inert (passRewrite sys conf s).2.1.uri

variable {sys fs' inert conf requestUri}

/-- One pass of two runs that are alike. -/
theorem htaccessPass_alike (hreads : ReadsAlike sys fs' inert) {s t : LoopState}
    (hsafe : PassSafe sys fs' inert conf requestUri s) (h : LoopAlike sys.fs fs' inert s t) :
    RoundsAlike sys.fs fs' inert (htaccessPass sys conf requestUri s)
      (htaccessPass (sys.withFs fs') conf requestUri t) := by
  obtain ⟨pass, r, state, w', trace'⟩ := t
  obtain ⟨rfl, rfl, rfl, hworker⟩ := h
  obtain ⟨hctx, hleft⟩ := htaccessBuildMergedCtx_alike conf hreads hworker s.r.uri
  have halias := fun us us' =>
    aliasStage_alike conf hreads.kinds
      (s := { s with worker := passWorker sys conf s, trace := us })
      (t := { s with worker := (htaccessBuildMergedCtx (sys.withFs fs') conf w' s.r.uri).2,
                      trace := us' })
      hctx hsafe.passwords (fun _ => hsafe.checked) s.worker w' ⟨rfl, rfl, rfl, hleft⟩
  rw [htaccessPass_eq_passOn, htaccessPass_eq_passOn]
  unfold passOn passCtx
  split
  · rename_i hfirst
    rw [htaccessApplyFilesDeny_sameView sys fs' hctx (hsafe.first hfirst)]
    simp only
    split
    · exact ⟨rfl, rfl, rfl, hleft⟩
    · exact halias _ _
  · exact halias _ _

/-- Two runs on alike workers return the same code and the same request when no pass of
the first depends on what differs. -/
theorem htaccessExecute_alike (hreads : ReadsAlike sys fs' inert) {r : Request} {w w' : Worker}
    (hsafe : ∀ s, Visits (htaccessPass sys conf r.uri) conf.maxRedirects (.initial conf r w) s →
      PassSafe sys fs' inert conf r.uri s)
    (h : WorkerAlike sys.fs fs' inert w w') :
    ExecAlike sys.fs fs' inert (htaccessExecute sys conf r w)
      (htaccessExecute (sys.withFs fs') conf r w') :=
  run_rel (fun _ _ h => ⟨rfl, h.r, h.state, h.worker⟩)
    (fun _ _ hvisit h => htaccessPass_alike hreads (hsafe _ hvisit) h) ⟨rfl, rfl, rfl, h⟩

end Run

end NgxHtaccess
