import NgxHtaccess.CacheOrder
import NgxHtaccess.LoadCases
import NgxHtaccess.PoolLog
import NgxHtaccess.Site
import Mathlib.Data.List.Infix

/-!
Stale entries over every sequence of loads. A lookup moves the entry it finds to
the head of the queue before it tests it, and an eviction takes the tail: a stale
entry is the one that goes exactly when it is the only entry of the cache.
-/
namespace NgxHtaccess
open RecencyQueue

section Lookup
variable (sys : Sys) (w : Worker) (path : NgxStr)

/-- A lookup of the path finds an entry and rejects it. -/
def RejectsStale : Prop :=
  ∃ e, w.cache.lru.find? (·.path = path) = some e ∧ e.fresh (sys.fs.fileInfo path) = false

instance : Decidable (RejectsStale sys w path) :=
  decidable_of_iff (((w.cache.lru.find? (·.path = path)).any
    fun e => !e.fresh (sys.fs.fileInfo path)) = true)
    (by simp only [RejectsStale, Option.any_eq_true, Bool.not_eq_true'])

/-- What a lookup leaves: every entry of another path with its pool, and no more. -/
structure InvalidatesExactly : Prop where
  entries : (htaccessCacheLookup sys w path true).2.cache.lru.Perm
    (w.cache.lru.filter (·.path ≠ path))
  pools : ∀ e ∈ w.cache.lru, e.path ≠ path → ∀ file, e.parsed = some file →
    ∀ es, (htaccessCacheLookup sys w path true).2.log = w.log ++ es → .destroy file.pool ∉ es

/-- A lookup that rejects an entry leaves it at the head and drops the tail. -/
theorem lookup_of_stale {e : CacheEntry} (hfind : w.cache.lru.find? (·.path = path) = some e)
    (hstale : e.fresh (sys.fs.fileInfo path) = false) :
    (htaccessCacheLookup sys w path true).1 = none ∧
      (htaccessCacheLookup sys w path true).2.cache.lru =
        (e :: w.cache.lru.eraseP (·.path = path)).dropLast := by
  simp [htaccessCacheLookup, htaccessCacheFind_eq, hfind, hstale, Op.run]

theorem invalidatesExactly_iff (h : RejectsStale sys w path) :
    InvalidatesExactly sys w path ↔ w.cache.lru.length = 1 := by
  obtain ⟨e, hfind, hstale⟩ := h
  have hpath : e.path = path := by simpa using List.find?_some hfind
  have hmem : e ∈ w.cache.lru := List.mem_of_find?_eq_some hfind
  have hlength : (w.cache.lru.eraseP (·.path = path)).length = w.cache.lru.length - 1 :=
    List.length_eraseP_of_mem hmem (decide_eq_true hpath)
  have hlru := (lookup_of_stale sys w path hfind hstale).2
  constructor
  · intro hexact
    have hperm := hexact.entries
    rw [hlru] at hperm
    cases hrest : w.cache.lru.eraseP (·.path = path) with
    | nil =>
        rw [hrest, List.length_nil] at hlength
        have := List.length_pos_of_mem hmem
        omega
    | cons a as =>
        -- with a second entry in the queue the stale one stays at its head
        rw [hrest, List.dropLast_cons_cons] at hperm
        have hkept := hperm.subset List.mem_cons_self
        rw [List.mem_filter] at hkept
        exact absurd hpath (of_decide_eq_true hkept.2)
  · intro hone
    obtain ⟨a, ha⟩ := List.length_eq_one_iff.mp hone
    have hae : e = a := List.mem_singleton.mp (ha ▸ hmem)
    have hrest : w.cache.lru.eraseP (·.path = path) = [] :=
      List.length_eq_zero_iff.mp (by omega)
    refine ⟨?_, fun b hb hother => ?_⟩
    · rw [hlru, hrest, ha, ← hae]
      simp [hpath]
    · rw [ha, List.mem_singleton, ← hae] at hb
      exact absurd (hb ▸ hpath) hother

end Lookup

structure FileLoad where
  sys : Sys
  conf : LocConf
  path : NgxStr

namespace FileLoad

def run (w : Worker) (load : FileLoad) : Worker :=
  (htaccessLoadFile load.sys load.conf w load.path).2.2

def Stale (w : Worker) (load : FileLoad) : Prop :=
  load.conf.cacheEnable = true ∧ RejectsStale load.sys w load.path

def Exact (w : Worker) (load : FileLoad) : Prop :=
  InvalidatesExactly load.sys (loadStart load.sys load.conf w load.path) load.path

end FileLoad

def runLoads (w : Worker) (loads : List FileLoad) : Worker := loads.foldl FileLoad.run w

/-- No two entries of the queue have one path. -/
def Cache.UniquePaths (c : Cache) : Prop := (c.lru.map (·.path)).Nodup

theorem Cache.UniquePaths.perm {c c' : Cache} (h : c.UniquePaths) (hperm : c'.lru.Perm c.lru) :
    c'.UniquePaths :=
  (hperm.map _).nodup_iff.mpr h

section Loads

theorem wf_load {w : Worker} (h : w.cache.Wf) (load : FileLoad) : (load.run w).cache.Wf := by
  have hlookup := (htaccessCacheLookup_worker load.sys
    (loadStart load.sys load.conf w load.path) load.path load.conf.cacheEnable h).1
  unfold FileLoad.run
  rw [htaccessLoadFile_eq]
  unfold loadLookup
  generalize htaccessCacheLookup _ _ _ _ = looked at hlookup ⊢
  obtain ⟨_ | e, w'⟩ := looked
  · exact (missWorker_spec load.sys load.conf load.path hlookup).wf
  · simp only
    split <;> exact hlookup

theorem lookup_miss_paths (sys : Sys) (w : Worker) (path : NgxStr) (cacheEnable : Bool)
    (huniq : w.cache.UniquePaths)
    (halone : cacheEnable = true → RejectsStale sys w path → w.cache.lru.length = 1)
    (hmiss : (htaccessCacheLookup sys w path cacheEnable).1 = none) :
    (htaccessCacheLookup sys w path cacheEnable).2.cache.UniquePaths ∧
      (cacheEnable = true →
        path ∉ (htaccessCacheLookup sys w path cacheEnable).2.cache.lru.map (·.path)) := by
  cases cacheEnable with
  | false => exact ⟨huniq, fun h => by cases h⟩
  | true =>
      cases hfind : w.cache.lru.find? (·.path = path) with
      | none =>
          have hsame : (htaccessCacheLookup sys w path true).2 = w := by
            simp [htaccessCacheLookup, htaccessCacheFind_eq, hfind]
          rw [hsame]
          refine ⟨huniq, fun _ hmem => ?_⟩
          obtain ⟨e, he, hpath⟩ := List.mem_map.mp hmem
          have := List.find?_eq_none.mp hfind e he
          simp [hpath] at this
      | some e =>
          cases hfresh : e.fresh (sys.fs.fileInfo path) with
          | true =>
              simp [htaccessCacheLookup, htaccessCacheFind_eq, hfind, hfresh] at hmiss
          | false =>
              have hlru := (lookup_of_stale sys w path hfind hfresh).2
              have hone := halone rfl ⟨e, hfind, hfresh⟩
              obtain ⟨a, ha⟩ := List.length_eq_one_iff.mp hone
              have hpath : e.path = path := by simpa using List.find?_some hfind
              have hmem := List.mem_of_find?_eq_some hfind
              rw [ha, List.mem_singleton] at hmem
              have hnil : (htaccessCacheLookup sys w path true).2.cache.lru = [] := by
                rw [hlru, ha, ← hmem]
                simp [hpath]
              rw [Cache.UniquePaths, hnil]
              exact ⟨.nil, fun _ h => by cases h⟩

theorem lookup_hit_perm (sys : Sys) (w : Worker) (path : NgxStr) (cacheEnable : Bool)
    (e : CacheEntry) (hhit : (htaccessCacheLookup sys w path cacheEnable).1 = some e) :
    (htaccessCacheLookup sys w path cacheEnable).2.cache.lru.Perm w.cache.lru := by
  unfold htaccessCacheLookup at hhit ⊢
  split at hhit
  · cases hhit
  · rename_i hon
    rw [if_neg hon]
    cases hfind : htaccessCacheFind w.cache path with
    | none => exact List.Perm.refl _
    | some hit =>
        obtain ⟨found, cache⟩ := hit
        rw [hfind] at hhit
        simp only at hhit ⊢
        split at hhit
        · rename_i hfresh
          rw [if_pos hfresh]
          exact (htaccessCacheFind_perm hfind).2.2.1
        · cases hhit

theorem uniquePaths_load {w : Worker} {load : FileLoad} (hwf : w.cache.Wf)
    (huniq : w.cache.UniquePaths) (halone : load.Stale w → w.cache.lru.length = 1) :
    (load.run w).cache.UniquePaths := by
  obtain ⟨sys, conf, path⟩ := load
  have hmiss := lookup_miss_paths sys (loadStart sys conf w path) path conf.cacheEnable huniq
    fun hon hstale => halone ⟨hon, hstale⟩
  have hhit := lookup_hit_perm sys (loadStart sys conf w path) path conf.cacheEnable
  have hwf' := (htaccessCacheLookup_worker sys (loadStart sys conf w path) path conf.cacheEnable
    hwf).1
  unfold FileLoad.run
  rw [htaccessLoadFile_eq]
  unfold loadLookup
  simp only
  generalize htaccessCacheLookup _ _ _ _ = looked at hmiss hhit hwf' ⊢
  obtain ⟨_ | e, w'⟩ := looked
  · obtain ⟨huniq', hnew⟩ := hmiss rfl
    obtain ⟨kept, hsub, hlru | ⟨hon, entry, hpath, hlru⟩⟩ := missWorker_lru sys conf path hwf'
    · rw [Cache.UniquePaths, hlru]
      exact (hsub.map _).nodup huniq'
    · rw [Cache.UniquePaths, hlru, List.map_cons, hpath]
      have hsub' := hsub.map (·.path)
      exact List.nodup_cons.mpr
        ⟨fun hmem => hnew hon (hsub'.subset hmem), hsub'.nodup huniq'⟩
  · simp only
    split <;> exact huniq.perm (hhit e rfl)

end Loads

/-- The invariant of a run: entries have paths of their own as long as a stale entry
is always alone. -/
theorem uniquePaths_runLoads {w : Worker} (hwf : w.cache.Wf) (huniq : w.cache.UniquePaths)
    (loads : List FileLoad)
    (halone : ∀ before load, before ++ [load] <+: loads → load.Stale (runLoads w before) →
      (runLoads w before).cache.lru.length = 1) :
    (runLoads w loads).cache.Wf ∧ (runLoads w loads).cache.UniquePaths := by
  induction loads using List.reverseRecOn with
  | nil => exact ⟨hwf, huniq⟩
  | append_singleton loads load ih =>
      obtain ⟨hwf', huniq'⟩ := ih fun before load' hpre =>
        halone before load' (hpre.trans (List.prefix_append loads [load]))
      rw [runLoads, List.foldl_append]
      exact ⟨wf_load hwf' load,
        uniquePaths_load hwf' huniq' (halone loads load (List.prefix_refl _))⟩

/-- Over every sequence of loads on a new cache: every stale entry goes alone and no
two entries ever have one path exactly when every stale entry is found alone. -/
theorem exact_invalidation_iff (maxEntries : Nat) (worker : Worker) (loads : List FileLoad) :
    let start := { worker with cache := htaccessCacheInit maxEntries }
    ((∀ before load, before ++ [load] <+: loads → load.Stale (runLoads start before) →
        load.Exact (runLoads start before)) ∧
      ∀ before, before <+: loads → (runLoads start before).cache.UniquePaths) ↔
    ∀ before load, before ++ [load] <+: loads → load.Stale (runLoads start before) →
      (runLoads start before).cache.lru.length = 1 := by
  intro start
  have hiff : ∀ w (load : FileLoad), load.Stale w → (load.Exact w ↔ w.cache.lru.length = 1) :=
    fun w load hstale => invalidatesExactly_iff load.sys
      (loadStart load.sys load.conf w load.path) load.path hstale.2
  constructor
  · intro hexact before load hpre hstale
    exact (hiff _ load hstale).mp (hexact.1 before load hpre hstale)
  · intro halone
    refine ⟨fun before load hpre hstale => (hiff _ load hstale).mpr
      (halone before load hpre hstale), fun before hpre => ?_⟩
    exact (uniquePaths_runLoads (w := start) (wf_htaccessCacheInit maxEntries) List.nodup_nil before
      fun b load hb => halone b load (hb.trans hpre)).2

/-- The loads of two files, and of the first again once both have changed. -/
def changedFileLoads : List FileLoad :=
  let files := [("/w/.htaccess", "AuthName top\n"), ("/w/sub/.htaccess", "AuthName sub\n")]
  [⟨siteSys (siteFs 0 files), siteConf htaccessMaxRedirectsDefault, lit "/w/.htaccess"⟩,
    ⟨siteSys (siteFs 0 files), siteConf htaccessMaxRedirectsDefault, lit "/w/sub/.htaccess"⟩,
    ⟨siteSys (siteFs 1 files), siteConf htaccessMaxRedirectsDefault, lit "/w/.htaccess"⟩]

/-- The third load finds a stale entry, drops the entry of the other file, and then
stores a second entry of its path. -/
theorem stale_entry_stays :
    let w := runLoads (siteWorker 0) (changedFileLoads.take 2)
    (∀ load ∈ changedFileLoads.drop 2, load.Stale w ∧ ¬ load.Exact w) ∧
      ¬ (runLoads (siteWorker 0) changedFileLoads).cache.UniquePaths := by
  refine ⟨fun load hload => ?_, by unfold Cache.UniquePaths; decide +kernel⟩
  rw [changedFileLoads, List.drop_succ_cons, List.drop_succ_cons, List.drop_zero,
    List.mem_singleton] at hload
  subst hload
  refine ⟨⟨rfl, by decide +kernel⟩, fun hexact => ?_⟩
  exact absurd hexact.entries (by decide +kernel)

end NgxHtaccess
