import NgxHtaccess.CacheOps

/-!
The exits of `htaccess_load_file` past a lookup that misses, and the queue that
each of them leaves.
-/
namespace NgxHtaccess

section Store
variable {w : Worker} (path : NgxStr) (mtime : Int) (size : Nat) (absent : Bool)
  (parsed : Option ParsedFile)

theorem htaccessCacheStore_eq (hwf : w.cache.Wf) :
    let kept := if w.cache.maxEntries ≤ w.cache.count then w.cache.dropLast else w.cache
    htaccessCacheStore w path mtime size absent parsed =
      { w with
        entryAllocs := w.entryAllocs.tail
        log := w.log ++ if w.cache.maxEntries ≤ w.cache.count then
          w.cache.tailPools.map .destroy else []
        cache :=
          if w.entryAllocs.headD true then
            { kept with
              lru := { path, mtime, size, absent, parsed } :: kept.lru
              count := kept.count + 1 }
          else kept } := by
  simp only [htaccessCacheStore, evictLoop_eq hwf]
  by_cases hfull : w.cache.maxEntries ≤ w.cache.count
  · simp only [if_pos hfull, htaccessCacheEvict_eq hwf]
    cases w.entryAllocs.headD true <;> rfl
  · simp only [if_neg hfull, List.append_nil]
    cases w.entryAllocs.headD true <;> rfl

theorem htaccessCacheStore_lru (hwf : w.cache.Wf) :
    ∃ kept, kept.Sublist w.cache.lru ∧
      ((htaccessCacheStore w path mtime size absent parsed).cache.lru = kept ∨
        (htaccessCacheStore w path mtime size absent parsed).cache.lru =
          { path, mtime, size, absent, parsed } :: kept) := by
  rw [htaccessCacheStore_eq path mtime size absent parsed hwf]
  refine ⟨(if w.cache.maxEntries ≤ w.cache.count then w.cache.dropLast else w.cache).lru, ?_, ?_⟩
  · split
    · exact List.dropLast_sublist _
    · exact List.Sublist.refl _
  · simp only
    cases w.entryAllocs.headD true with
    | false => exact .inl rfl
    | true => exact .inr rfl

end Store

section Parse
variable (sys : Sys) (pool : PoolId) (path : NgxStr)

theorem htaccessParseFile_ok (h : (htaccessParseFile sys pool path).1 = ngxOk) :
    ∃ file, (htaccessParseFile sys pool path).2 = some file ∧ file.pool = pool := by
  cases hparsed : (htaccessParseFile sys pool path).2 with
  | none =>
      unfold htaccessParseFile at h hparsed
      repeat' split at h
      all_goals simp_all [ngxDeclined, ngxError, ngxOk]
  | some file =>
      have hin := inPool_of_htaccessParseFile hparsed
      exact ⟨file, rfl, by rw [← hin]; rfl⟩

end Parse

section Miss
variable (sys : Sys) (conf : LocConf) (w : Worker) (path : NgxStr)

inductive MissCase : Worker → Prop where
  | absent : sys.fs.fileInfo path = none → conf.cacheEnable = false → MissCase w
  | absentStored : sys.fs.fileInfo path = none → conf.cacheEnable = true →
      MissCase (htaccessCacheStore w path 0 0 true none)
  | failed (fi : FileInfo) : sys.fs.fileInfo path = some fi →
      (htaccessParseFile sys w.nextPool path).1 ≠ ngxOk →
      MissCase (ngxDestroyPool (ngxCreatePool w).2 w.nextPool)
  | failedStored (fi : FileInfo) : sys.fs.fileInfo path = some fi → conf.cacheEnable = true →
      (htaccessParseFile sys w.nextPool path).1 ≠ ngxOk →
      MissCase (htaccessCacheStore (ngxDestroyPool (ngxCreatePool w).2 w.nextPool) path
        fi.mtime fi.size true none)
  | parsed (fi : FileInfo) : sys.fs.fileInfo path = some fi → conf.cacheEnable = false →
      (htaccessParseFile sys w.nextPool path).1 = ngxOk →
      MissCase (ngxCreatePool w).2
  | parsedStored (fi : FileInfo) (file : ParsedFile) : sys.fs.fileInfo path = some fi →
      conf.cacheEnable = true → (htaccessParseFile sys w.nextPool path).1 = ngxOk →
      file.pool = w.nextPool →
      MissCase (htaccessCacheStore (ngxCreatePool w).2 path fi.mtime fi.size false (some file))

theorem missWorker_case : MissCase sys conf w path (missWorker sys conf w path) := by
  unfold missWorker
  cases hinfo : sys.fs.fileInfo path with
  | none =>
      cases hon : conf.cacheEnable with
      | false => exact .absent hinfo hon
      | true => exact .absentStored hinfo hon
  | some fi =>
      simp only
      by_cases hok : (htaccessParseFile sys w.nextPool path).1 = ngxOk
      · obtain ⟨file, hfile, hpool⟩ := htaccessParseFile_ok sys w.nextPool path hok
        rw [if_neg (not_not.mpr hok), hfile]
        cases hon : conf.cacheEnable with
        | false => exact .parsed fi hinfo hon hok
        | true => exact .parsedStored fi file hinfo hon hok hpool
      · rw [if_pos hok]
        split
        · rename_i hstored
          exact .failedStored fi hinfo hstored.2 hok
        · exact .failed fi hinfo hok

/-- A part of a queue, under an entry of the path if the cache is on. -/
def PartOrStored (conf : LocConf) (path : NgxStr) (old new : List CacheEntry) : Prop :=
  ∃ kept, kept.Sublist old ∧
    (new = kept ∨ conf.cacheEnable = true ∧
      ∃ entry : CacheEntry, entry.path = path ∧ new = entry :: kept)

theorem missWorker_lru {w : Worker} (hwf : w.cache.Wf) :
    PartOrStored conf path w.cache.lru (missWorker sys conf w path).cache.lru := by
  have hkept : PartOrStored conf path w.cache.lru w.cache.lru :=
    ⟨w.cache.lru, List.Sublist.refl _, .inl rfl⟩
  have hstored : ∀ w₁ : Worker, w₁.cache = w.cache → conf.cacheEnable = true →
      ∀ mtime size absent parsed, PartOrStored conf path w.cache.lru
        (htaccessCacheStore w₁ path mtime size absent parsed).cache.lru := by
    intro w₁ hcache hon mtime size absent parsed
    obtain ⟨kept, hsub, hlru⟩ :=
      htaccessCacheStore_lru (w := w₁) path mtime size absent parsed (hcache ▸ hwf)
    exact ⟨kept, hcache ▸ hsub, hlru.imp_right fun h => ⟨hon, _, rfl, h⟩⟩
  have hcase := missWorker_case sys conf w path
  generalize missWorker sys conf w path = w' at hcase ⊢
  cases hcase with
  | absent _ _ | failed _ _ _ | parsed _ _ _ _ => exact hkept
  | absentStored _ hon => exact hstored _ rfl hon _ _ _ _
  | failedStored _ _ hon _ =>
      exact hstored (ngxDestroyPool (ngxCreatePool w).2 w.nextPool) rfl hon _ _ _ _
  | parsedStored _ _ _ hon _ _ => exact hstored (ngxCreatePool w).2 rfl hon _ _ _ _

end Miss

end NgxHtaccess
