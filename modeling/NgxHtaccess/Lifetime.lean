import NgxHtaccess.PoolLog
import NgxHtaccess.Passes
import NgxHtaccess.Site

/-!
The lifetime of parsed files over runs of the handler and completions of
responses: a pool is destroyed under a live request exactly when some load finds
the pool of a live request at the tail of the queue that it has to shorten.
-/
namespace NgxHtaccess
open Monitor BoundedLoop

/-- From one worker to a later one: the log is tracked and the cache owns its
strings. -/
structure Follows (w w' : Worker) : Prop where
  tracks : Tracks w w'
  le : w.nextPool ≤ w'.nextPool
  owned : CacheOwned w'

theorem Follows.refl {w : Worker} (h : CacheOwned w) : Follows w w := ⟨.refl w, le_refl _, h⟩

theorem Follows.trans {w w' w'' : Worker} (h : Follows w w') (h' : Follows w' w'') :
    Follows w w'' :=
  ⟨h.tracks.trans h'.tracks, le_trans h.le h'.le, h'.owned⟩

theorem Follows.emit {w w' : Worker} {e : PoolEvent} (h : Follows w w')
    (he : IsRequestEvent w'.nextPool e) : Follows w (w'.emit e) :=
  h.trans ⟨tracks_emit he, le_refl _, ⟨h.owned.wf, h.owned.entries⟩⟩

/-- The headers of a merged context that values are copied from. -/
def MergedCtx.valueHeaders (merged : MergedCtx) : List Header :=
  merged.headers.getD [] ++ merged.expiresByType.getD []

def MergedOwned (n : PoolId) (merged : MergedCtx) : Prop :=
  ∀ h ∈ merged.valueHeaders, h.pool < n

section Merge

theorem inPool_eq_self {file : ParsedFile} (h : file.inPool file.pool = file) {d : Directive}
    (hd : d ∈ file.directives) : d.inPool file.pool = d := by
  have hmap : file.directives.map (Directive.inPool file.pool) = file.directives :=
    congrArg ParsedFile.directives h
  rw [← List.map_id file.directives, List.map_map] at hmap
  exact List.map_eq_map_iff.mp hmap d hd

theorem header_pool_of_owned {n : PoolId} {file : ParsedFile} (h : FileOwned n file)
    {d : Directive} (hd : d ∈ file.directives) {header : Header}
    (hh : d.headerOf = some header ∨ d.expiresByTypeOf = some header) :
    header.pool < n := by
  have hself := congrArg Directive.u (inPool_eq_self h.2 hd)
  obtain ⟨scope, u⟩ := d
  have hpool : header.pool = file.pool := by
    cases u <;> simp only [Directive.headerOf, Directive.expiresByTypeOf, Option.some.injEq,
      reduceCtorEq, or_false, false_or, or_self] at hh
    all_goals
      subst hh
      simp only [Directive.inPool, DirectiveData.inPool, DirectiveData.header.injEq,
        DirectiveData.expiresByType.injEq] at hself
      rw [← hself]
  rw [hpool]
  exact h.1

theorem mergedOwned_foldl {n : PoolId} {file : ParsedFile} (hfile : FileOwned n file)
    {merged : MergedCtx} (h : MergedOwned n merged) :
    MergedOwned n (file.directives.foldl mergeGlobal merged) := by
  have hheaders := foldl_collect (fun m d => congrArg MergedCtx.headers (mergeGlobal_eq m d))
    file.directives merged
  have hexpires := foldl_collect
    (fun m d => congrArg MergedCtx.expiresByType (mergeGlobal_eq m d)) file.directives merged
  intro header hmem
  simp only [MergedCtx.valueHeaders, hheaders, hexpires, foldl_ngxArrayPush_getD,
    List.mem_append, List.mem_filterMap] at hmem
  rcases hmem with (hold | ⟨d, hd, hh⟩) | hold | ⟨d, hd, hh⟩
  · exact h header (List.mem_append_left _ hold)
  · exact header_pool_of_owned hfile hd (.inl hh)
  · exact h header (List.mem_append_right _ hold)
  · exact header_pool_of_owned hfile hd (.inr hh)

theorem MergedOwned.mono {n m : PoolId} {merged : MergedCtx} (h : MergedOwned n merged)
    (hnm : n ≤ m) : MergedOwned m merged :=
  fun header hmem => lt_of_lt_of_le (h header hmem) hnm

theorem visitDir_follows (sys : Sys) (conf : LocConf) (d : WalkDir) {merged : MergedCtx}
    {w : Worker} (h : CacheOwned w) (hm : MergedOwned w.nextPool merged) :
    Follows w (visitDir sys conf (merged, w) d).2 ∧
      MergedOwned (visitDir sys conf (merged, w) d).2.nextPool
        (visitDir sys conf (merged, w) d).1 := by
  obtain ⟨hle, howned, hparsed⟩ := htaccessLoadFile_owned sys conf d.path h
  have hload : Follows w (htaccessLoadFile sys conf w d.path).2.2 :=
    ⟨tracks_load sys conf d.path h, hle, howned⟩
  unfold visitDir
  generalize htaccessLoadFile sys conf w d.path = loaded at hle hparsed hload
  obtain ⟨rc, parsed, w'⟩ := loaded
  simp only at hle hparsed hload ⊢
  split
  · exact ⟨hload, hm.mono hle⟩
  · cases parsed with
    | none => exact ⟨hload, hm.mono hle⟩
    | some file =>
        have hfile := hparsed file rfl
        have hm' := mergedOwned_foldl hfile (hm.mono hle)
        simp only [htaccessMergeParsed_eq, Option.map_some, Option.getD_some]
        split
        · exact ⟨hload, hm'⟩
        · exact ⟨hload.emit hfile.1, hm'⟩

theorem foldl_visitDir_follows (sys : Sys) (conf : LocConf) (ds : List WalkDir)
    {merged : MergedCtx} {w : Worker} (h : CacheOwned w) (hm : MergedOwned w.nextPool merged) :
    Follows w (ds.foldl (visitDir sys conf) (merged, w)).2 ∧
      MergedOwned (ds.foldl (visitDir sys conf) (merged, w)).2.nextPool
        (ds.foldl (visitDir sys conf) (merged, w)).1 := by
  induction ds generalizing merged w with
  | nil => exact ⟨.refl h, hm⟩
  | cons d ds ih =>
      obtain ⟨hfollows, hm'⟩ := visitDir_follows sys conf d h hm
      obtain ⟨hrest, hend⟩ := ih hfollows.owned hm'
      exact ⟨hfollows.trans hrest, hend⟩

/-- A build tracks the log, and its context copies values out of created pools. -/
theorem htaccessBuildMergedCtx_follows (sys : Sys) (conf : LocConf) (uri : NgxStr) {w : Worker}
    (h : CacheOwned w) :
    Follows w (htaccessBuildMergedCtx sys conf w uri).2 ∧
      MergedOwned (htaccessBuildMergedCtx sys conf w uri).2.nextPool
        (htaccessBuildMergedCtx sys conf w uri).1 := by
  have hstart : Follows w (w.emit .context) := (Follows.refl h).emit trivial
  have hempty : MergedOwned (w.emit .context).nextPool {} := fun header hmem => by cases hmem
  obtain ⟨hwalk, hm⟩ := foldl_visitDir_follows sys conf (walkDirs conf uri) hstart.owned hempty
  exact ⟨hstart.trans hwalk, hm⟩

end Merge

section Run
variable (sys : Sys) (conf : LocConf) (requestUri : NgxStr)

theorem passWorker_follows {s : LoopState} (h : CacheOwned s.worker) :
    Follows s.worker (passWorker sys conf s) ∧
      MergedOwned (passWorker sys conf s).nextPool (passCtx sys conf s) :=
  htaccessBuildMergedCtx_follows sys conf s.r.uri h

theorem headerPools_owned {n : PoolId} {merged : MergedCtx} (hm : MergedOwned n merged)
    (r : Request) :
    ∀ pool ∈ headerPools r.headersOut.length (htaccessApplyHeaders r merged), pool < n := by
  obtain ⟨added, hpools, heq⟩ := htaccessApplyHeaders_eq r merged
  intro pool hpool
  rw [headerPools, heq, List.drop_left, List.mem_filterMap] at hpool
  obtain ⟨e, he, hpool⟩ := hpool
  obtain ⟨header, hmem, hsome⟩ := hpools e he
  rw [hsome, Option.some.injEq] at hpool
  rw [← hpool]
  exact hm header hmem

theorem foldl_emit_header_follows {w w' : Worker} (h : Follows w w') (pools : List PoolId)
    (hpools : ∀ pool ∈ pools, pool < w'.nextPool) :
    Follows w (pools.foldl (fun w p => w.emit (.header p)) w') := by
  induction pools generalizing w' with
  | nil => exact h
  | cons pool pools ih =>
      exact ih (h.emit (hpools pool List.mem_cons_self))
        fun p hp => hpools p (List.mem_cons_of_mem _ hp)

theorem serve_follows {w : Worker} {merged : MergedCtx} {s : LoopState}
    (h : Follows w s.worker) (hm : MergedOwned s.worker.nextPool merged) :
    Follows w (serve sys conf merged s).worker :=
  foldl_emit_header_follows h _ (headerPools_owned hm s.r)

theorem follows_of_again {w : Worker} {s t : LoopState} (h : Follows w s.worker)
    (hpass : htaccessPass sys conf requestUri s = .again t) : Follows w t.worker := by
  have hworker := h.trans (passWorker_follows sys conf h.owned).1
  obtain ⟨_, _, _, rfl⟩ | ⟨code, uri, _, _, _, rfl⟩ :=
    htaccessPass_again_cases sys conf requestUri s hpass
  · exact hworker
  · exact hworker

theorem follows_of_stop {w : Worker} {s : LoopState} {out : ExecResult} (h : Follows w s.worker)
    (hpass : htaccessPass sys conf requestUri s = .stop out) : Follows w out.worker := by
  obtain ⟨hbuild, hm⟩ := passWorker_follows sys conf h.owned
  have hworker := h.trans hbuild
  obtain ⟨_, rfl⟩ | ⟨_, _, rfl⟩ | ⟨_, _, _, rfl⟩ | ⟨code, _, _, _, rfl⟩ | ⟨_, _, rfl⟩ :=
    htaccessPass_stop_cases sys conf requestUri s hpass
  · exact hworker
  · exact hworker
  · exact hworker
  · exact hworker
  · exact serve_follows sys conf hworker hm

theorem htaccessExecute_follows (r : Request) {w : Worker} (h : CacheOwned w) :
    Follows w (htaccessExecute sys conf r w).worker :=
  run_invariant (P := fun s : LoopState => Follows w s.worker)
    (Q := fun out : ExecResult => Follows w out.worker)
    (fun _ _ hs => follows_of_again sys conf r.uri hs)
    (fun _ _ hs => follows_of_stop sys conf r.uri hs) (fun _ hs => hs) conf.maxRedirects
    (Follows.refl h)

theorem ngxHttpHtaccessHandler_follows (request : Nat) (r : Request) {w : Worker}
    (h : CacheOwned w) : Follows w (ngxHttpHtaccessHandler sys conf request r w).2.2 := by
  unfold ngxHttpHtaccessHandler
  split
  · exact .refl h
  · have hstart : Follows w (w.emit (.start request)) := (Follows.refl h).emit trivial
    exact (hstart.trans (htaccessExecute_follows sys conf r hstart.owned)).emit trivial

end Run

/-- A run of the handler: files and memory as it finds them, its location and its request. -/
structure HandlerCall where
  sys : Sys
  conf : LocConf
  request : Nat
  r : Request

def HandlerCall.run (w : Worker) (call : HandlerCall) : Int × Request × Worker :=
  ngxHttpHtaccessHandler call.sys call.conf call.request call.r w

/-- What a worker process does: it runs the handler, or it completes the response of a
request. -/
inductive HostStep where
  | handle (call : HandlerCall)
  | complete (request : Nat)

def HostStep.run (w : Worker) : HostStep → Worker
  | .handle call => (call.run w).2.2
  | .complete request => w.emit (.complete request)

def runHost (w : Worker) (steps : List HostStep) : Worker := steps.foldl HostStep.run w

/-- A worker process with an empty cache, and any outcomes of later allocations. -/
def startWorker (maxEntries : Nat) (entryAllocs : List Bool) : Worker where
  cache := htaccessCacheInit maxEntries
  nextPool := 0
  entryAllocs := entryAllocs
  log := []

theorem runHost_follows (steps : List HostStep) {w : Worker} (h : CacheOwned w) :
    Follows w (runHost w steps) := by
  induction steps generalizing w with
  | nil => exact .refl h
  | cons step steps ih =>
      have hstep : Follows w (step.run w) := by
        cases step with
        | handle call =>
            exact ngxHttpHtaccessHandler_follows call.sys call.conf call.request call.r h
        | complete request => exact (Follows.refl h).emit trivial
      exact hstep.trans (ih hstep.owned)

theorem cacheOwned_start (maxEntries : Nat) (entryAllocs : List Bool) :
    CacheOwned (startWorker maxEntries entryAllocs) :=
  ⟨wf_htaccessCacheInit maxEntries, fun e he => by cases he⟩

/-- The log of a worker that has come from an empty one is accepted for its destructions when
it is for the victims of its loads. -/
theorem Follows.accepts_iff {maxEntries : Nat} {entryAllocs : List Bool} {w : Worker}
    (h : Follows (startWorker maxEntries entryAllocs) w) :
    Accepts LiveRefs.next DestroysUnheld .none w.log ↔
      Accepts LiveRefs.next VictimsUnheld .none w.log := by
  obtain ⟨es, hlog, hagree⟩ := h.tracks
  rw [hlog]
  exact (hagree .none fun pool hpool => by cases hpool).1

/-- Over every sequence of handler runs and completions, no pool is destroyed while
a live request refers to it exactly when no load has a victim that one refers to. -/
theorem pool_lifetime_iff (maxEntries : Nat) (entryAllocs : List Bool) (steps : List HostStep) :
    Accepts LiveRefs.next DestroysUnheld .none
        (runHost (startWorker maxEntries entryAllocs) steps).log ↔
      Accepts LiveRefs.next VictimsUnheld .none
        (runHost (startWorker maxEntries entryAllocs) steps).log :=
  (runHost_follows steps (cacheOwned_start maxEntries entryAllocs)).accepts_iff

def lifetimeCall (files : List (String × String)) (mtime : Int) (request : Nat) (uri : String) :
    HandlerCall where
  sys := siteSys (siteFs mtime files)
  conf := siteConf htaccessMaxRedirectsDefault
  request := request
  r := siteRequest uri

/-- With a cache of one entry the second file of a request evicts the first, whose directives the
request has merged; with a cache of two, the passes behind an ErrorDocument evict the file that
its URI lies in; with any cache a file that changes takes the header values of an earlier request
with it. -/
theorem pool_destroyed_in_use :
    ¬ Accepts LiveRefs.next DestroysUnheld .none
      (runHost (startWorker 1 [])
        [.handle (lifetimeCall [("/w/.htaccess", "AuthName top\n"),
          ("/w/sub/.htaccess", "AuthName sub\n")] 0 1 "/sub/x")]).log ∧
    ¬ Accepts LiveRefs.next DestroysUnheld .none
      (runHost (startWorker 2 [])
        [.handle (lifetimeCall [("/w/.htaccess", "ErrorDocument 404 /lost\n"),
          ("/w/a/.htaccess", "Require all denied\nErrorDocument 403 /b/c\n"),
          ("/w/b/.htaccess", "AuthName b\n")] 0 1 "/a/x")]).log ∧
    ¬ Accepts LiveRefs.next DestroysUnheld .none
      (runHost (startWorker htaccessCacheMaxDefault [])
        [.handle (lifetimeCall [("/w/.htaccess", "Header set X-A a\n")] 0 1 "/x"),
          .handle (lifetimeCall [("/w/.htaccess", "Header set X-A b\n")] 1 2 "/x")]).log := by
  decide +kernel

end NgxHtaccess
