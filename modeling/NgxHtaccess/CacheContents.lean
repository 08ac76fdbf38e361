import NgxHtaccess.LoadCases
import NgxHtaccess.Lib.MoveToFront
import NgxHtaccess.Stateless

/-!
What the cache of a worker holds while the files stay as they are.

The paths that a request walks do not depend on the cache. After any sequence of
requests the cache holds the paths walked last, and the files that have been parsed are
the steps of the walks that it did not hold then.
-/
namespace NgxHtaccess
open BoundedLoop MoveToFront

section Walked
variable (sys : Sys) (conf : LocConf)

/-- The files that the passes of a specified run look for. -/
def walkedPaths (requestUri : NgxStr) : Nat → SpecState → List NgxStr
  | 0, _ => []
  | n + 1, s =>
      (walkDirs conf s.r.uri).map (·.path) ++
        match specifiedPass sys conf requestUri s with
        | .stop _ => []
        | .again t => walkedPaths requestUri n t

/-- The files that a run of the handler looks for. -/
def HandlerCall.walked (call : HandlerCall) : List NgxStr :=
  if !call.conf.enable then []
  else walkedPaths call.sys call.conf call.r.uri call.conf.maxRedirects
    (.initial call.conf call.r)

/-- A load remembers what it finds at the path: nothing, or a file that parses. -/
def Settled (path : NgxStr) : Prop :=
  sys.fs.fileInfo path = none ∨ (htaccessParseFile sys 0 path).1 = ngxOk

instance (path : NgxStr) : Decidable (Settled sys path) := inferInstanceAs (Decidable (_ ∨ _))

def isThere (fs : FileSystem) (path : NgxStr) : Bool := (fs.fileInfo path).isSome

/-- The worker with room for `n` entries has looked for `paths` since its cache was empty and
the next pool was `base`. -/
structure Steady (fs : FileSystem) (n : Nat) (base : PoolId) (paths : List NgxStr)
    (w : Worker) : Prop where
  wf : w.cache.Wf
  size : w.cache.maxEntries = n
  lru : w.cache.lru.map (·.path) = cached n paths
  fresh : ∀ e ∈ w.cache.lru, e.fresh (fs.fileInfo e.path) = true
  nextPool : w.nextPool = base + faults n (isThere fs) [] paths
  allocs : ∀ b ∈ w.entryAllocs, b = true

end Walked

section Load
variable {sys : Sys} {n : Nat} {base : PoolId} {paths : List NgxStr} {w : Worker}

theorem Steady.emit {fs : FileSystem} (h : Steady fs n base paths w) (e : PoolEvent) :
    Steady fs n base paths (w.emit e) :=
  ⟨h.wf, h.size, h.lru, h.fresh, h.nextPool, h.allocs⟩

theorem Steady.headD (h : Steady sys.fs n base paths w) : w.entryAllocs.headD true = true := by
  cases hallocs : w.entryAllocs with
  | nil => rfl
  | cons b bs => exact h.allocs b (hallocs ▸ List.mem_cons_self)

theorem Steady.store {w₁ : Worker} (h : Steady sys.fs n base paths w) (entry : CacheEntry)
    (hmiss : entry.path ∉ cached n paths)
    (hfresh : entry.fresh (sys.fs.fileInfo entry.path) = true)
    (hcache : w₁.cache = w.cache) (hallocs : w₁.entryAllocs = w.entryAllocs)
    (hnext : w₁.nextPool = w.nextPool + if isThere sys.fs entry.path then 1 else 0) :
    Steady sys.fs n base (paths ++ [entry.path])
      (htaccessCacheStore w₁ entry.path entry.mtime entry.size entry.absent entry.parsed) := by
  have hwf : w₁.cache.Wf := hcache ▸ h.wf
  have hhead : w₁.entryAllocs.headD true = true := hallocs ▸ h.headD
  obtain ⟨hwf', hmem, -, -⟩ := htaccessCacheStore_worker w₁ entry.path entry.mtime entry.size
    entry.absent entry.parsed hwf
  have hstore := htaccessCacheStore_eq entry.path entry.mtime entry.size entry.absent entry.parsed
    hwf
  simp only [hhead, if_true, hcache] at hstore
  have hlength : (cached n paths).length = w.cache.count := by
    rw [← h.lru, List.length_map, h.wf.count_eq]
  have hle : w.cache.count ≤ n := h.size ▸ h.wf.count_le
  refine ⟨hwf', ?_, ?_, fun e he => ?_, ?_, ?_⟩
  · rw [hstore, ← h.size]
    simp only
    split <;> rfl
  · rw [cached_concat_of_notMem hmiss, hstore, h.size]
    by_cases hfull : n ≤ w.cache.count
    · have hmax := le_antisymm hle hfull
      rw [take_cons_eq_dropLast _ (h.size ▸ h.wf.one_le) (hlength.trans hmax), ← h.lru]
      simp only [if_pos hfull, List.map_cons, Cache.dropLast, List.map_dropLast]
    · rw [not_le] at hfull
      rw [List.take_of_length_le (by rw [List.length_cons, hlength]; exact hfull), ← h.lru]
      simp only [if_neg (not_le.mpr hfull), List.map_cons]
  · rcases hmem e he with hold | rfl
    · exact h.fresh e (hcache ▸ hold)
    · exact hfresh
  · have hsame : (htaccessCacheStore w₁ entry.path entry.mtime entry.size entry.absent
        entry.parsed).nextPool = w₁.nextPool := by rw [hstore]
    rw [faults_concat, hsame, hnext, h.nextPool, Nat.add_assoc]
    simp only [hmiss, not_false_eq_true, and_true]
  · rw [hstore]
    exact fun b hb => h.allocs b (List.mem_of_mem_tail (hallocs ▸ hb))

theorem loadLookup_of_held {conf : LocConf} (hon : conf.cacheEnable = true)
    (h : Steady sys.fs n base paths w) {path : NgxStr}
    (hheld : path ∈ cached n paths) :
    ∃ e, (loadLookup sys conf w path).1 = some e ∧
      Steady sys.fs n base (paths ++ [path]) (loadLookup sys conf w path).2 := by
  obtain ⟨e₀, he₀, hpath₀⟩ := List.mem_map.mp (h.lru ▸ hheld)
  obtain ⟨hwf, hmem, hnext, hallocs⟩ := htaccessCacheLookup_worker sys (loadStart sys conf w path)
    path conf.cacheEnable h.wf
  cases hfind : w.cache.lru.find? (·.path = path) with
  | none =>
      have hne := List.find?_eq_none.mp hfind e₀ he₀
      exact absurd (decide_eq_true hpath₀) hne
  | some e =>
      have hpath : e.path = path := by simpa using List.find?_some hfind
      have hfresh : e.fresh (sys.fs.fileInfo path) = true :=
        hpath ▸ h.fresh e (List.mem_of_find?_eq_some hfind)
      have hlookup : loadLookup sys conf w path = (some e, { loadStart sys conf w path with
          cache := { w.cache with lru := e :: w.cache.lru.eraseP (·.path = path) } }) := by
        simp [loadLookup, htaccessCacheLookup, htaccessCacheFind, hon, loadStart, hfind, hfresh]
      rw [loadLookup] at hlookup ⊢
      refine ⟨e, by rw [hlookup], hwf, ?_, ?_, fun e he => h.fresh e (hmem e he), ?_,
        hallocs ▸ h.allocs⟩
      · rw [hlookup]
        exact h.size
      · rw [hlookup]
        exact (map_toFront CacheEntry.path hpath w.cache.lru).trans
          (by rw [h.lru, ← cached_concat_of_mem hheld])
      · rw [hnext]
        simp only [faults_concat, hheld, not_true_eq_false, and_false, if_false]
        exact h.nextPool

theorem missWorker_steady {conf : LocConf} (hon : conf.cacheEnable = true)
    (h : Steady sys.fs n base paths w) {path : NgxStr}
    (hmiss : path ∉ cached n paths) (hpath : Settled sys path) :
    Steady sys.fs n base (paths ++ [path]) (missWorker sys conf w path) := by
  unfold missWorker
  cases hinfo : sys.fs.fileInfo path with
  | none =>
      have hfresh : (CacheEntry.mk path 0 0 true none).fresh (sys.fs.fileInfo path) = true := by
        rw [hinfo]
        rfl
      have hthere : isThere sys.fs path = false := by
        rw [isThere, hinfo]
        rfl
      simp only [hon, if_true]
      exact h.store ⟨path, 0, 0, true, none⟩ hmiss hfresh rfl rfl (by rw [hthere]; rfl)
  | some fi =>
      have hok : (htaccessParseFile sys w.nextPool path).1 = ngxOk := by
        rw [htaccessParseFile_rc sys w.nextPool 0 path]
        exact hpath.resolve_left (by rw [hinfo]; exact Option.some_ne_none fi)
      have hthere : isThere sys.fs path = true := by
        rw [isThere, hinfo]
        rfl
      have hfresh : ∀ parsed, (CacheEntry.mk path fi.mtime fi.size false parsed).fresh
          (sys.fs.fileInfo path) = true := by
        intro parsed
        simp [hinfo, CacheEntry.fresh]
      simp only [hok, hon, ne_eq, not_true_eq_false, if_false, if_true]
      exact h.store ⟨path, fi.mtime, fi.size, false, _⟩ hmiss (hfresh _) rfl rfl
        (by rw [hthere]; rfl)

theorem htaccessLoadFile_steady {conf : LocConf} (hon : conf.cacheEnable = true)
    (h : Steady sys.fs n base paths w) {path : NgxStr} (hpath : Settled sys path) :
    Steady sys.fs n base (paths ++ [path]) (htaccessLoadFile sys conf w path).2.2 := by
  rw [htaccessLoadFile_eq]
  by_cases hheld : path ∈ cached n paths
  · obtain ⟨e, hsome, hsteady⟩ := loadLookup_of_held hon h hheld
    generalize loadLookup sys conf w path = looked at hsome hsteady
    obtain ⟨found, w'⟩ := looked
    obtain rfl : found = some e := hsome
    simp only
    split <;> exact hsteady
  · have hfind : w.cache.lru.find? (·.path = path) = none := by
      rw [List.find?_eq_none]
      intro e he hpath
      exact hheld (h.lru ▸ List.mem_map.mpr ⟨e, he, of_decide_eq_true hpath⟩)
    have hlookup : loadLookup sys conf w path = (none, loadStart sys conf w path) := by
      simp [loadLookup, htaccessCacheLookup, htaccessCacheFind, hon, loadStart, hfind]
    rw [hlookup]
    exact missWorker_steady hon (h.emit _) hheld hpath

end Load

section Run
variable {sys : Sys} {n : Nat} {base : PoolId} {paths : List NgxStr} {conf : LocConf}
  (hon : conf.cacheEnable = true)
include hon

theorem visitDir_steady {w : Worker} (h : Steady sys.fs n base paths w) (merged : MergedCtx)
    {d : WalkDir} (hpath : Settled sys d.path) :
    Steady sys.fs n base (paths ++ [d.path]) (visitDir sys conf (merged, w) d).2 := by
  have hload := htaccessLoadFile_steady hon h hpath
  unfold visitDir
  generalize htaccessLoadFile sys conf w d.path = loaded at hload
  obtain ⟨rc, parsed, w'⟩ := loaded
  simp only
  split
  · exact hload
  · split
    · split
      · exact hload
      · exact hload.emit _
    · exact hload

theorem foldl_visitDir_steady {w : Worker} (h : Steady sys.fs n base paths w) (merged : MergedCtx)
    {ds : List WalkDir} (hds : ∀ d ∈ ds, Settled sys d.path) :
    Steady sys.fs n base (paths ++ ds.map (·.path))
      (ds.foldl (visitDir sys conf) (merged, w)).2 := by
  induction ds generalizing paths merged w with
  | nil => rwa [List.map_nil, List.append_nil]
  | cons d ds ih =>
      have hd := visitDir_steady hon h merged (hds d List.mem_cons_self)
      have hrest := ih hd (visitDir sys conf (merged, w) d).1
        fun e he => hds e (List.mem_cons_of_mem d he)
      rwa [List.append_assoc] at hrest

omit hon in
theorem foldl_emit_steady {w : Worker} (h : Steady sys.fs n base paths w) (pools : List PoolId) :
    Steady sys.fs n base paths (pools.foldl (fun w p => w.emit (.header p)) w) := by
  induction pools generalizing w with
  | nil => exact h
  | cons pool pools ih => exact ih (h.emit _)

/-- The passes of a run keep the worker steady over the paths that they walk. -/
theorem run_steady {content : Content} (hfiles : RegularFiles content sys conf)
    (requestUri : NgxStr) {passes : Nat} {s : LoopState} {p : SpecState} (hs : Refines content s p)
    (h : Steady sys.fs n base paths s.worker)
    (hwalked : ∀ path ∈ walkedPaths sys conf requestUri passes p, Settled sys path) :
    Steady sys.fs n base (paths ++ walkedPaths sys conf requestUri passes p)
      (run (htaccessPass sys conf requestUri) LoopState.spent passes s).worker := by
  induction passes generalizing s p paths with
  | zero => rwa [walkedPaths, List.append_nil]
  | succ passes ih =>
      have hround := htaccessPass_refines hfiles hs requestUri
      obtain rfl := hs.start
      rw [walkedPaths] at hwalked ⊢
      have hdirs : ∀ d ∈ walkDirs conf s.r.uri, Settled sys d.path := fun d hd =>
        hwalked d.path (List.mem_append_left _ (List.mem_map.mpr ⟨d, hd, rfl⟩))
      have hpass : Steady sys.fs n base (paths ++ (walkDirs conf s.r.uri).map (·.path))
          (passWorker sys conf s) := foldl_visitDir_steady hon (h.emit .context) {} hdirs
      rw [run]
      cases hcode : htaccessPass sys conf requestUri s with
      | stop out =>
          rw [hcode] at hround
          cases hanswer : specifiedPass sys conf requestUri s.start with
          | again t => rw [hanswer] at hround; exact hround.elim
          | stop a =>
              obtain ⟨pools, hworker⟩ := worker_of_stop hcode
              simp only [hworker, List.append_nil]
              exact foldl_emit_steady hpass pools
      | again t =>
          rw [hcode] at hround
          cases hanswer : specifiedPass sys conf requestUri s.start with
          | stop a => rw [hanswer] at hround; exact hround.elim
          | again p =>
              rw [hanswer] at hround hwalked
              have hworker := worker_of_again hcode
              have hrest := ih hround (hworker ▸ hpass)
                fun path hpath => hwalked path (List.mem_append_right _ hpath)
              rwa [List.append_assoc] at hrest

end Run

section Calls

/-- A run of the handler on the files that remembers what it finds: with the cache on, the files
that it looks for absent or with a text that parses, their lines with their arguments. -/
structure SteadyCall (fs : FileSystem) (call : HandlerCall) : Prop where
  files : call.sys.fs = fs
  on : call.conf.cacheEnable = true
  settled : ∀ path ∈ call.walked, Settled call.sys path
  given : ∀ uri, ∀ d ∈ walkDirs call.conf uri, FileGiven (fs.openFile d.path)

def fixedContent (fs : FileSystem) : Content := fun path _ _ => fs.openFile path

variable {fs : FileSystem}

theorem SteadyCall.regular {call : HandlerCall} (h : SteadyCall fs call) :
    call.Regular (fixedContent fs) where
  determined _ _ _ := h.files ▸ rfl
  given uri d hd := h.files ▸ h.given uri d hd

theorem HandlerCall.run_steady {n : Nat} {base : PoolId} {paths : List NgxStr} {w : Worker}
    (hfaithful : CacheFaithful (fixedContent fs) w) (h : Steady fs n base paths w)
    {call : HandlerCall} (hcall : SteadyCall fs call) :
    Steady fs n base (paths ++ call.walked) (call.run w).2.2 := by
  have hregular := hcall.regular
  obtain ⟨rfl, hon, hsettled, -⟩ := hcall
  unfold HandlerCall.walked HandlerCall.run ngxHttpHtaccessHandler at *
  split
  · rwa [List.append_nil]
  · rename_i henabled
    rw [if_neg henabled] at hsettled
    have hstart : Refines (fixedContent call.sys.fs)
        (.initial call.conf call.r (w.emit (.start call.request))) (.initial call.conf call.r) :=
      ⟨rfl, hfaithful.emit _⟩
    exact (NgxHtaccess.run_steady hon hregular call.r.uri hstart (h.emit _) hsettled).emit _

/-- The paths that the runs among the steps look for. -/
def hostWalked (steps : List HostStep) : List NgxStr :=
  (hostCalls steps).flatMap HandlerCall.walked

theorem hostWalked_append (steps steps' : List HostStep) :
    hostWalked (steps ++ steps') = hostWalked steps ++ hostWalked steps' := by
  simp only [hostWalked, hostCalls, List.filterMap_append, List.flatMap_append]

theorem runHost_steady {n : Nat} {base : PoolId} {paths : List NgxStr} {w : Worker}
    (hfaithful : CacheFaithful (fixedContent fs) w) (h : Steady fs n base paths w)
    {steps : List HostStep} (hsteps : ∀ call ∈ hostCalls steps, SteadyCall fs call) :
    Steady fs n base (paths ++ hostWalked steps) (runHost w steps) := by
  induction steps generalizing paths w with
  | nil => rwa [hostWalked, hostCalls, List.filterMap_nil, List.flatMap_nil, List.append_nil]
  | cons step steps ih =>
      cases step with
      | complete request => exact ih (hfaithful.emit _) (h.emit _) hsteps
      | handle call =>
          obtain ⟨hcall, hsteps⟩ := List.forall_mem_cons.mp hsteps
          have hkept := (HandlerCall.run_outcome hfaithful hcall.regular).2
          have hrest := ih hkept (HandlerCall.run_steady hfaithful h hcall) hsteps
          rwa [List.append_assoc] at hrest

theorem steady_init {maxEntries : Nat} {entryAllocs : List Bool}
    (hallocs : ∀ b ∈ entryAllocs, b = true) :
    Steady fs (htaccessCacheInit maxEntries).maxEntries 0 []
      (startWorker maxEntries entryAllocs) := by
  refine ⟨wf_htaccessCacheInit maxEntries, rfl, List.take_nil.symm, fun e he => ?_, rfl, hallocs⟩
  cases he

theorem runHost_start {maxEntries : Nat} {entryAllocs : List Bool}
    (hallocs : ∀ b ∈ entryAllocs, b = true) {steps : List HostStep}
    (hsteps : ∀ call ∈ hostCalls steps, SteadyCall fs call) :
    Steady fs (htaccessCacheInit maxEntries).maxEntries 0 (hostWalked steps)
      (runHost (startWorker maxEntries entryAllocs) steps) :=
  @runHost_steady fs _ 0 [] (startWorker maxEntries entryAllocs)
    (cacheFaithful_init (fixedContent fs) rfl) (steady_init hallocs) steps hsteps

/-- After any requests under files that stay as they are, the cache holds the paths that were
walked last, the latest in front, and a file has been parsed for every step of the walks to a
file that the cache did not hold. -/
theorem cache_holds_recent {maxEntries : Nat} {entryAllocs : List Bool} {steps : List HostStep}
    (hsafe : SafeLoads maxEntries entryAllocs steps) (hallocs : ∀ b ∈ entryAllocs, b = true)
    (hsteps : ∀ call ∈ hostCalls steps, SteadyCall fs call) :
    ∃ run, hostRun maxEntries entryAllocs steps = some run ∧
      let size := (htaccessCacheInit maxEntries).maxEntries
      run.worker.cache.lru.map (·.path) = cached size (hostWalked steps) ∧
        run.worker.nextPool = faults size (isThere fs) [] (hostWalked steps) := by
  have hsteady := @runHost_start fs maxEntries entryAllocs hallocs steps hsteps
  exact ⟨_, hostRun_of_safe hsafe, hsteady.lru, hsteady.nextPool.trans (Nat.zero_add _)⟩

end Calls

/-- A site whose requests come back on the ErrorDocument of the root. -/
def guardedSys : Sys :=
  siteSys (siteFs 0 [("/w/.htaccess", "ErrorDocument 403 /no\n"),
    ("/w/a/.htaccess", "Require all denied\n"), ("/w/b/c/.htaccess", "Options +Indexes\n")])

def guardedCall (uri : String) : HandlerCall where
  sys := guardedSys
  conf := siteConf htaccessMaxRedirectsDefault
  request := 0
  r := siteRequest uri

def guardedSteps : List HostStep :=
  [.handle (guardedCall "/a/x"), .handle (guardedCall "/b/c/y"), .complete 0]

theorem steadyCall_guarded :
    ∀ call ∈ hostCalls guardedSteps, SteadyCall guardedSys.fs call := by
  have hsettled : ∀ call ∈ hostCalls guardedSteps, ∀ path ∈ call.walked,
      Settled call.sys path := by decide +kernel
  have hsame : ∀ call ∈ hostCalls guardedSteps, call.sys = guardedSys ∧
      call.conf.cacheEnable = true := by
    simp [hostCalls, guardedSteps, HostStep.call, guardedCall, siteConf]
  intro call hcall
  refine ⟨congrArg Sys.fs (hsame call hcall).1, (hsame call hcall).2, hsettled call hcall,
    fun _ d _ => fileGiven_siteFs ?_ d.path⟩
  unfold ArgsGiven
  decide +kernel

theorem cache_holds_recent_guarded :
    ∃ run, hostRun 3 [] guardedSteps = some run ∧
      let size := (htaccessCacheInit 3).maxEntries
      run.worker.cache.lru.map (·.path) = cached size (hostWalked guardedSteps) ∧
        run.worker.nextPool = faults size (isThere guardedSys.fs) [] (hostWalked guardedSteps) :=
  cache_holds_recent (by decide +kernel) (fun _ hb => by cases hb) steadyCall_guarded

section Sizes
variable {fs : FileSystem} {maxEntries maxEntries' : Nat} {entryAllocs entryAllocs' : List Bool}

/-- A larger cache holds what a smaller one holds and never has more files parsed. -/
theorem larger_cache_parses_less {steps : List HostStep}
    (hle : (htaccessCacheInit maxEntries).maxEntries ≤ (htaccessCacheInit maxEntries').maxEntries)
    (hsafe : SafeLoads maxEntries entryAllocs steps)
    (hsafe' : SafeLoads maxEntries' entryAllocs' steps) (hallocs : ∀ b ∈ entryAllocs, b = true)
    (hallocs' : ∀ b ∈ entryAllocs', b = true)
    (hsteps : ∀ call ∈ hostCalls steps, SteadyCall fs call) :
    ∃ small large, hostRun maxEntries entryAllocs steps = some small ∧
      hostRun maxEntries' entryAllocs' steps = some large ∧
      small.worker.cache.lru.map (·.path) <+: large.worker.cache.lru.map (·.path) ∧
      large.worker.nextPool ≤ small.worker.nextPool := by
  have hsmall := @runHost_start fs maxEntries entryAllocs hallocs steps hsteps
  have hlarge := @runHost_start fs maxEntries' entryAllocs' hallocs' steps hsteps
  refine ⟨_, _, hostRun_of_safe hsafe, hostRun_of_safe hsafe', ?_, ?_⟩
  · simp only [hsmall.lru, hlarge.lru]
    exact cached_mono hle _
  · simp only [hsmall.nextPool, hlarge.nextPool, Nat.zero_add]
    exact faults_antitone _ hle _ _

theorem larger_cache_parses_less_guarded :
    ∃ small large, hostRun 3 [] guardedSteps = some small ∧
      hostRun 4 [] guardedSteps = some large ∧
      small.worker.cache.lru.map (·.path) <+: large.worker.cache.lru.map (·.path) ∧
      large.worker.nextPool ≤ small.worker.nextPool :=
  larger_cache_parses_less (by decide) (by decide +kernel) (by decide +kernel)
    (fun _ hb => by cases hb) (fun _ hb => by cases hb) steadyCall_guarded

/-- Requests that come again parse nothing when the cache has room for all that they walk. -/
theorem warm_cache_parses_nothing {before steps : List HostStep}
    (hsafe : SafeLoads maxEntries entryAllocs (before ++ steps ++ steps))
    (hallocs : ∀ b ∈ entryAllocs, b = true)
    (hsteps : ∀ call ∈ hostCalls (before ++ steps), SteadyCall fs call)
    (hfits : (hostWalked steps).dedup.length ≤ (htaccessCacheInit maxEntries).maxEntries) :
    ∃ once twice, hostRun maxEntries entryAllocs (before ++ steps) = some once ∧
      hostRun maxEntries entryAllocs (before ++ steps ++ steps) = some twice ∧
      twice.worker.nextPool = once.worker.nextPool := by
  have hagain : ∀ call ∈ hostCalls (before ++ steps ++ steps), SteadyCall fs call := by
    intro call hcall
    rw [hostCalls, List.filterMap_append, List.mem_append] at hcall
    rcases hcall with hcall | hcall
    · exact hsteps call hcall
    · refine hsteps call ?_
      rw [hostCalls, List.filterMap_append]
      exact List.mem_append_right _ hcall
  have honce := @runHost_start fs maxEntries entryAllocs hallocs _ hsteps
  have htwice := @runHost_start fs maxEntries entryAllocs hallocs _ hagain
  refine ⟨_, _, hostRun_of_safe hsafe.of_append, hostRun_of_safe hsafe, ?_⟩
  simp only [honce.nextPool, htwice.nextPool]
  rw [hostWalked_append, hostWalked_append, faults_append, List.nil_append,
    faults_repeat _ _ _ hfits, Nat.add_zero]

theorem warm_cache_parses_nothing_guarded :
    ∃ once twice, hostRun 3 [] ([.handle (guardedCall "/b/c/y")] ++
        [.handle (guardedCall "/a/x"), .complete 0]) = some once ∧
      hostRun 3 [] ([.handle (guardedCall "/b/c/y")] ++ [.handle (guardedCall "/a/x"),
        .complete 0] ++ [.handle (guardedCall "/a/x"), .complete 0]) = some twice ∧
      twice.worker.nextPool = once.worker.nextPool := by
  refine warm_cache_parses_nothing (by decide +kernel)
    (fun _ hb => by cases hb) (fun call hcall => steadyCall_guarded call ?_) (by decide +kernel)
  simp only [hostCalls, guardedSteps, HostStep.call, List.filterMap_cons, List.filterMap_nil,
    List.cons_append, List.nil_append, List.mem_cons, List.not_mem_nil, or_false] at hcall ⊢
  exact hcall.symm

end Sizes

end NgxHtaccess
