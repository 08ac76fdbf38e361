import NgxHtaccess.Walk
import NgxHtaccess.ParsePools

/-!
What the operations of the cache do to the worker: which entries can be in the
queue afterwards, that the count stays the length of the queue, and that a load
is an answer from a fresh entry or a read of the file.
-/
namespace NgxHtaccess

section Worker
variable (w : Worker) (e : PoolEvent)

@[simp] theorem emit_cache : (w.emit e).cache = w.cache := rfl

@[simp] theorem emit_log : (w.emit e).log = w.log ++ [e] := rfl

end Worker

structure Cache.Wf (c : Cache) : Prop where
  count_eq : c.count = c.lru.length
  count_le : c.count ≤ c.maxEntries
  one_le : 1 ≤ c.maxEntries

/-- The pool that goes with the tail entry of the queue. -/
def Cache.tailPools (c : Cache) : List PoolId :=
  ((c.lru.getLast?.bind (·.parsed)).map (·.pool)).toList

theorem wf_htaccessCacheInit (maxEntries : Nat) : (htaccessCacheInit maxEntries).Wf := by
  refine ⟨rfl, Nat.zero_le _, ?_⟩
  simp only [htaccessCacheInit]
  split
  · decide
  · omega

section Evict

theorem wf_dropLast {c : Cache} (h : c.Wf) : c.dropLast.Wf := by
  refine ⟨?_, ?_, h.one_le⟩
  · simp only [Cache.dropLast, List.length_dropLast, h.count_eq]
  · have := h.count_le
    simp only [Cache.dropLast]
    omega

theorem htaccessCacheEvict_eq {w : Worker} (h : w.cache.Wf) :
    htaccessCacheEvict w =
      { w with
        cache := w.cache.dropLast
        log := w.log ++ w.cache.tailPools.map .destroy } := by
  unfold htaccessCacheEvict Cache.tailPools
  cases hlast : w.cache.lru.getLast? with
  | none =>
      -- an empty queue is counted as empty, so there is nothing to drop
      have hnil : w.cache.lru = [] := List.getLast?_eq_none_iff.mp hlast
      have hcount : w.cache.count = 0 := by rw [h.count_eq, hnil, List.length_nil]
      obtain ⟨⟨lru, count, maxEntries⟩, nextPool, entryAllocs, log⟩ := w
      simp only at hnil hcount
      simp [Cache.dropLast, hnil, hcount]
  | some e =>
      simp only [Option.bind_some]
      cases hp : e.parsed with
      | none => simp
      | some parsed => simp [ngxDestroyPool, Worker.emit]

theorem mem_dropLast {c : Cache} {e : CacheEntry} (h : e ∈ c.dropLast.lru) : e ∈ c.lru :=
  List.dropLast_subset _ h

/-- With a well-formed cache the loop of the store evicts at most once. -/
theorem evictLoop_eq {w : Worker} (h : w.cache.Wf) :
    evictLoop w.cache.count w =
      if w.cache.maxEntries ≤ w.cache.count then htaccessCacheEvict w else w := by
  cases hcount : w.cache.count with
  | zero =>
      have := h.one_le
      rw [evictLoop, if_neg (by omega)]
  | succ n =>
      rw [evictLoop, hcount]
      split
      · rename_i hfull
        have hle := h.count_le
        rw [htaccessCacheEvict_eq h]
        cases n with
        | zero => rfl
        | succ n =>
            rw [evictLoop, if_neg]
            simp only [Cache.dropLast]
            omega
      · rfl

end Evict

section Find

theorem htaccessCacheFind_perm {c c' : Cache} {path : NgxStr} {e : CacheEntry}
    (h : htaccessCacheFind c path = some (e, c')) :
    e ∈ c.lru ∧ e.path = path ∧ c'.lru.Perm c.lru ∧ c'.count = c.count ∧
      c'.maxEntries = c.maxEntries := by
  unfold htaccessCacheFind at h
  split at h
  · cases h
  · rename_i found hfind
    simp only [Option.some.injEq, Prod.mk.injEq] at h
    obtain ⟨rfl, rfl⟩ := h
    have hpath := List.find?_some hfind
    refine ⟨List.mem_of_find?_eq_some hfind, of_decide_eq_true hpath, ?_, rfl, rfl⟩
    -- the entry that is taken out of the queue is the one that was found
    obtain ⟨as, bs, hlru, has⟩ := List.find?_eq_some_iff_append.mp hfind |>.2
    simp only [hlru]
    rw [List.eraseP_append_right _ (fun b hb => by simpa using has b hb)]
    simp only [List.eraseP_cons, hpath, cond_true]
    exact List.perm_middle.symm

theorem wf_find {c c' : Cache} {path : NgxStr} {e : CacheEntry} (h : c.Wf)
    (hfind : htaccessCacheFind c path = some (e, c')) : c'.Wf := by
  obtain ⟨_, _, hperm, hcount, hmax⟩ := htaccessCacheFind_perm hfind
  refine ⟨?_, ?_, ?_⟩
  · rw [hcount, hperm.length_eq, h.count_eq]
  · rw [hcount, hmax]
    exact h.count_le
  · rw [hmax]
    exact h.one_le

end Find

section Lookup
variable (sys : Sys) (w : Worker) (path : NgxStr) (cacheEnable : Bool)

theorem htaccessCacheLookup_some {e : CacheEntry}
    (h : (htaccessCacheLookup sys w path cacheEnable).1 = some e) :
    cacheEnable = true ∧ e ∈ w.cache.lru ∧ e.path = path ∧
      e.fresh (sys.fs.fileInfo path) = true := by
  unfold htaccessCacheLookup at h
  split at h
  · cases h
  · rename_i hon
    split at h
    · cases h
    · rename_i found c' hfind
      obtain ⟨hmem, hpath, _⟩ := htaccessCacheFind_perm hfind
      simp only at h
      split at h
      · rename_i hfresh
        injection h with h
        rw [← h]
        exact ⟨by simpa using hon, hmem, hpath, hfresh⟩
      · cases h

theorem htaccessCacheLookup_worker (hwf : w.cache.Wf) :
    (htaccessCacheLookup sys w path cacheEnable).2.cache.Wf ∧
      (∀ e ∈ (htaccessCacheLookup sys w path cacheEnable).2.cache.lru, e ∈ w.cache.lru) ∧
      (htaccessCacheLookup sys w path cacheEnable).2.nextPool = w.nextPool ∧
      (htaccessCacheLookup sys w path cacheEnable).2.entryAllocs = w.entryAllocs := by
  unfold htaccessCacheLookup
  split
  · exact ⟨hwf, fun e he => he, rfl, rfl⟩
  · split
    · exact ⟨hwf, fun e he => he, rfl, rfl⟩
    · rename_i found c' hfind
      have hwf' := wf_find hwf hfind
      obtain ⟨_, _, hperm, _⟩ := htaccessCacheFind_perm hfind
      simp only
      split
      · exact ⟨hwf', fun e he => hperm.mem_iff.mp he, rfl, rfl⟩
      · rw [htaccessCacheEvict_eq (w := { w with cache := c' }) hwf']
        exact ⟨wf_dropLast hwf', fun e he => hperm.mem_iff.mp (mem_dropLast he), rfl, rfl⟩

end Lookup

section Store
variable (w : Worker) (path : NgxStr) (mtime : Int) (size : Nat) (absent : Bool)
  (parsed : Option ParsedFile)

theorem htaccessCacheStore_worker (hwf : w.cache.Wf) :
    (htaccessCacheStore w path mtime size absent parsed).cache.Wf ∧
      (∀ e ∈ (htaccessCacheStore w path mtime size absent parsed).cache.lru,
        e ∈ w.cache.lru ∨ e = { path, mtime, size, absent, parsed }) ∧
      (htaccessCacheStore w path mtime size absent parsed).nextPool = w.nextPool ∧
      (htaccessCacheStore w path mtime size absent parsed).log =
        w.log ++ if w.cache.maxEntries ≤ w.cache.count then w.cache.tailPools.map .destroy
          else [] := by
  unfold htaccessCacheStore
  rw [evictLoop_eq hwf]
  have hle := hwf.count_le
  have hone := hwf.one_le
  by_cases hfull : w.cache.maxEntries ≤ w.cache.count
  · simp only [if_pos hfull, htaccessCacheEvict_eq hwf]
    have hwf' := wf_dropLast hwf
    split
    · exact ⟨hwf', fun e he => .inl (mem_dropLast he), rfl, rfl⟩
    · refine ⟨⟨?_, ?_, hone⟩, fun e he => ?_, rfl, rfl⟩
      · rw [hwf'.count_eq, List.length_cons]
      · simp only [Cache.dropLast]
        omega
      · rcases List.mem_cons.mp he with rfl | he
        · exact .inr rfl
        · exact .inl (mem_dropLast he)
  · simp only [if_neg hfull, List.append_nil]
    split
    · exact ⟨hwf, fun e he => .inl he, rfl, rfl⟩
    · refine ⟨⟨?_, ?_, hone⟩, fun e he => ?_, rfl, rfl⟩
      · rw [hwf.count_eq, List.length_cons]
      · simp only
        omega
      · rcases List.mem_cons.mp he with rfl | he
        · exact .inr rfl
        · exact .inl he

end Store

section Load
variable (sys : Sys) (conf : LocConf) (w : Worker) (path : NgxStr)

/-- What a load without the cache yields. -/
def readFile (sys : Sys) (pool : PoolId) (path : NgxStr) : Int × Option ParsedFile :=
  match sys.fs.fileInfo path with
  | none => (ngxDeclined, none)
  | some _ =>
      match htaccessParseFile sys pool path with
      | (rc, parsed) => if rc ≠ ngxOk then (rc, none) else (ngxOk, parsed)

/-- What a load does to the worker once the lookup has missed. -/
def missWorker (sys : Sys) (conf : LocConf) (w : Worker) (path : NgxStr) : Worker :=
  match sys.fs.fileInfo path with
  | none => if conf.cacheEnable then htaccessCacheStore w path 0 0 true none else w
  | some fi =>
      let created := (ngxCreatePool w).2
      match htaccessParseFile sys w.nextPool path with
      | (rc, parsed) =>
          if rc ≠ ngxOk then
            if rc = ngxDeclined ∧ conf.cacheEnable then
              htaccessCacheStore (ngxDestroyPool created w.nextPool) path fi.mtime fi.size true none
            else ngxDestroyPool created w.nextPool
          else if conf.cacheEnable then
            htaccessCacheStore created path fi.mtime fi.size false parsed
          else created

/-- A load that misses stores an entry unless the file cannot be read or parsed. -/
def storesEntry (sys : Sys) (path : NgxStr) : Bool :=
  (sys.fs.fileInfo path).isNone ||
    (htaccessParseFile sys 0 path).1 = ngxOk || (htaccessParseFile sys 0 path).1 = ngxDeclined

/-- The pools that the store of a load destroys. -/
def storeVictims (sys : Sys) (conf : LocConf) (cache : Cache) (path : NgxStr) : List PoolId :=
  if conf.cacheEnable ∧ storesEntry sys path ∧ cache.maxEntries ≤ cache.count then cache.tailPools
  else []

theorem storeVictims_of_room {cache : Cache} (h : cache.count < cache.maxEntries) :
    storeVictims sys conf cache path = [] :=
  if_neg fun hfull => absurd hfull.2.2 (not_le.mpr h)

/-- What can happen to the worker in a load that misses. -/
structure Missed (sys : Sys) (conf : LocConf) (path : NgxStr) (w w' : Worker) : Prop where
  wf : w'.cache.Wf
  entries : ∀ e ∈ w'.cache.lru, e ∈ w.cache.lru ∨ e.absent = true ∧ e.parsed = none ∨
    ∃ fi, sys.fs.fileInfo path = some fi ∧ (htaccessParseFile sys w.nextPool path).1 = ngxOk ∧
      e = { path, mtime := fi.mtime, size := fi.size, absent := false,
            parsed := (htaccessParseFile sys w.nextPool path).2 }
  nextPool_eq : w'.nextPool = if (sys.fs.fileInfo path).isSome then w.nextPool + 1 else w.nextPool
  log_eq : ∃ own, (∀ e ∈ own, e = .create w.nextPool ∨ e = .destroy w.nextPool) ∧
    w'.log = w.log ++ own ++ (storeVictims sys conf w.cache path).map .destroy

theorem missed_store {w w₁ : Worker} (entry : CacheEntry) (own : List PoolEvent)
    (hpath : entry.path = path) (hwf : w.cache.Wf) (hcache : w₁.cache = w.cache)
    (hentry : entry.absent = true ∧ entry.parsed = none ∨
      ∃ fi, sys.fs.fileInfo path = some fi ∧ (htaccessParseFile sys w.nextPool path).1 = ngxOk ∧
        entry = { path, mtime := fi.mtime, size := fi.size, absent := false,
                  parsed := (htaccessParseFile sys w.nextPool path).2 })
    (hnext : w₁.nextPool = if (sys.fs.fileInfo path).isSome then w.nextPool + 1 else w.nextPool)
    (hown : ∀ e ∈ own, e = .create w.nextPool ∨ e = .destroy w.nextPool)
    (hlog : w₁.log = w.log ++ own) (hon : conf.cacheEnable = true)
    (hstores : storesEntry sys path = true) :
    Missed sys conf path w
      (htaccessCacheStore w₁ path entry.mtime entry.size entry.absent entry.parsed) := by
  obtain ⟨p, mtime, size, absent, parsed⟩ := entry
  obtain rfl : p = path := hpath
  obtain ⟨hwf', hmem, hpool, hevents⟩ := htaccessCacheStore_worker w₁ p mtime size absent parsed
    (hcache ▸ hwf)
  refine ⟨hwf', fun e he => ?_, hpool.trans hnext, own, hown, ?_⟩
  · rcases hmem e he with hold | rfl
    · exact .inl (hcache ▸ hold)
    · exact .inr hentry
  · rw [hevents, hlog, hcache, storeVictims]
    simp only [hon, hstores, true_and]
    split <;> rfl

theorem missed_skip {w w₁ : Worker} (own : List PoolEvent)
    (hwf : w.cache.Wf) (hcache : w₁.cache = w.cache)
    (hnext : w₁.nextPool = if (sys.fs.fileInfo path).isSome then w.nextPool + 1 else w.nextPool)
    (hown : ∀ e ∈ own, e = .create w.nextPool ∨ e = .destroy w.nextPool)
    (hlog : w₁.log = w.log ++ own)
    (hskip : ¬ (conf.cacheEnable = true ∧ storesEntry sys path = true)) :
    Missed sys conf path w w₁ := by
  refine ⟨hcache ▸ hwf, fun e he => .inl (hcache ▸ he), hnext, own, hown, ?_⟩
  rw [hlog, storeVictims, if_neg (fun h => hskip ⟨h.1, h.2.1⟩)]
  simp only [List.map_nil, List.append_nil]

theorem missWorker_spec {w : Worker} (hwf : w.cache.Wf) :
    Missed sys conf path w (missWorker sys conf w path) := by
  unfold missWorker
  cases hinfo : sys.fs.fileInfo path with
  | none =>
      have hnext : w.nextPool = if (sys.fs.fileInfo path).isSome then w.nextPool + 1
          else w.nextPool := by rw [hinfo]; rfl
      have hstores : storesEntry sys path = true := by simp [storesEntry, hinfo]
      simp only
      split
      · rename_i hon
        exact missed_store sys conf path ⟨path, 0, 0, true, none⟩ [] rfl hwf rfl
          (.inl ⟨rfl, rfl⟩) hnext (by simp) (by simp) hon hstores
      · rename_i hoff
        exact missed_skip sys conf path [] hwf rfl hnext (by simp) (by simp)
          (fun h => hoff h.1)
  | some fi =>
      have hnext : w.nextPool + 1 = if (sys.fs.fileInfo path).isSome then w.nextPool + 1
          else w.nextPool := by rw [hinfo]; rfl
      have hstores : storesEntry sys path = true ↔
          (htaccessParseFile sys w.nextPool path).1 = ngxOk ∨
            (htaccessParseFile sys w.nextPool path).1 = ngxDeclined := by
        rw [htaccessParseFile_rc sys w.nextPool 0 path]
        simp [storesEntry, hinfo]
      have hdestroyed : (ngxDestroyPool (ngxCreatePool w).2 w.nextPool).log =
          w.log ++ [.create w.nextPool, .destroy w.nextPool] := by
        simp [ngxDestroyPool, ngxCreatePool, Worker.emit]
      simp only
      split
      · rename_i hbad
        split
        · rename_i hdeclined
          exact missed_store sys conf path ⟨path, fi.mtime, fi.size, true, none⟩ _ rfl hwf
            rfl (.inl ⟨rfl, rfl⟩) hnext (by simp) hdestroyed hdeclined.2
            (hstores.mpr (.inr hdeclined.1))
        · rename_i hskip
          refine missed_skip sys conf path _ hwf rfl hnext (by simp) hdestroyed ?_
          rintro ⟨hon, hst⟩
          rcases hstores.mp hst with hok | hdeclined
          · exact hbad hok
          · exact hskip ⟨hdeclined, hon⟩
      · rename_i hgood
        have hok : (htaccessParseFile sys w.nextPool path).1 = ngxOk := not_not.mp hgood
        split
        · rename_i hon
          exact missed_store sys conf path
            ⟨path, fi.mtime, fi.size, false, (htaccessParseFile sys w.nextPool path).2⟩
            [.create w.nextPool] rfl hwf rfl (.inr ⟨fi, hinfo, hok, rfl⟩) hnext (by simp)
            rfl hon (hstores.mpr (.inl hok))
        · rename_i hoff
          exact missed_skip sys conf path [.create w.nextPool] hwf rfl hnext (by simp) rfl
            (fun h => hoff h.1)

def loadStart : Worker := w.emit (.load { sys, conf, path, cache := w.cache })

def loadLookup : Option CacheEntry × Worker :=
  htaccessCacheLookup sys (loadStart sys conf w path) path conf.cacheEnable

/-- A load answers from a fresh entry or reads the file. -/
theorem htaccessLoadFile_eq :
    htaccessLoadFile sys conf w path =
      match loadLookup sys conf w path with
      | (some e, w') => if e.absent then (ngxDeclined, none, w') else (ngxOk, e.parsed, w')
      | (none, w') =>
          ((readFile sys w'.nextPool path).1, (readFile sys w'.nextPool path).2,
            missWorker sys conf w' path) := by
  unfold htaccessLoadFile loadLookup loadStart readFile missWorker
  simp only
  generalize htaccessCacheLookup sys _ path conf.cacheEnable = looked
  obtain ⟨_ | e, w'⟩ := looked
  · cases sys.fs.fileInfo path with
    | none => rfl
    | some fi =>
        simp only [ngxCreatePool]
        by_cases hrc : (htaccessParseFile sys w'.nextPool path).1 = ngxOk
        · simp only [hrc, ne_eq, not_true_eq_false, if_false]
        · simp only [ne_eq, hrc, not_false_eq_true, if_true]
          rfl
  · rfl

theorem readFile_inPool {sys sys' : Sys} {path : NgxStr} (hfs : sys'.fs = sys.fs)
    (h : ∀ fi ∈ sys.fs.fileInfo path, FileGiven (sys.fs.openFile path))
    (pool pool' : PoolId) :
    readFile sys' pool' path =
      ((readFile sys pool path).1, (readFile sys pool path).2.map (ParsedFile.inPool pool')) := by
  unfold readFile
  rw [hfs]
  cases hinfo : sys.fs.fileInfo path with
  | none => rfl
  | some fi =>
      have hparse := htaccessParseFile_inPool (congrFun (congrArg FileSystem.openFile hfs) path)
        (h fi hinfo) pool pool'
      simp only [hparse]
      split <;> rfl

end Load

end NgxHtaccess
