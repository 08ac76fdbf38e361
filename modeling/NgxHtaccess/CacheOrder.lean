import NgxHtaccess.CacheOps
import NgxHtaccess.Lib.RecencyQueue
import Mathlib.Logic.Function.Iterate

/-!
The order of the queue over every sequence of cache calls: the queue is one of
the library's queues ordered by recency, its count is its length, and the loop of
a store ends after it has evicted the entries touched least recently.
-/
namespace NgxHtaccess
open RecencyQueue

/-- A call of the cache. A lookup comes with what `stat` reports at that time. -/
inductive CacheCall where
  | lookup (sys : Sys) (path : NgxStr) (cacheEnable : Bool)
  | store (path : NgxStr) (mtime : Int) (size : Nat) (absent : Bool) (parsed : Option ParsedFile)

def CacheCall.run (w : Worker) : CacheCall → Worker
  | .lookup sys path cacheEnable => (htaccessCacheLookup sys w path cacheEnable).2
  | .store path mtime size absent parsed => htaccessCacheStore w path mtime size absent parsed

def runCalls (w : Worker) (calls : List CacheCall) : Worker := calls.foldl CacheCall.run w

/-- How often the loop of a store evicts. -/
def evictRounds : Nat → Worker → Nat
  | 0, _ => 0
  | fuel + 1, w =>
      if w.cache.maxEntries ≤ w.cache.count then evictRounds fuel (htaccessCacheEvict w) + 1 else 0

/-- A lookup touches the entry it finds, and evicts when that entry is stale; a
store evicts until there is room and pushes the entry it has allocated. -/
def CacheCall.ops (w : Worker) : CacheCall → List (Op CacheEntry)
  | .lookup sys path cacheEnable =>
      if !cacheEnable then []
      else
        match w.cache.lru.find? (·.path = path) with
        | none => []
        | some e =>
            .touch (·.path = path) :: if e.fresh (sys.fs.fileInfo path) then [] else [.evict]
  | .store path mtime size absent parsed =>
      List.replicate (evictRounds w.cache.count w) .evict ++
        if w.entryAllocs.headD true then [.push { path, mtime, size, absent, parsed }] else []

/-- The touch times after the calls, from those of the queue before them. -/
def touchTimes (w : Worker) (q : TimedQueue CacheEntry) : List CacheCall → TimedQueue CacheEntry
  | [] => q
  | call :: calls => touchTimes (call.run w) ((call.ops w).foldl TimedQueue.run q) calls

section Queue
variable (w : Worker)

@[simp] theorem htaccessCacheEvict_lru :
    (htaccessCacheEvict w).cache.lru = w.cache.lru.dropLast := by
  unfold htaccessCacheEvict
  cases hlast : w.cache.lru.getLast? with
  | none => simp only [List.getLast?_eq_none_iff.mp hlast, List.dropLast_nil]
  | some e => cases hp : e.parsed <;> simp only [Cache.dropLast, hp, ngxDestroyPool, emit_cache]

@[simp] theorem htaccessCacheEvict_entryAllocs :
    (htaccessCacheEvict w).entryAllocs = w.entryAllocs := by
  unfold htaccessCacheEvict
  cases w.cache.lru.getLast? with
  | none => rfl
  | some e => cases hp : e.parsed <;> simp only [hp, ngxDestroyPool, Worker.emit]

@[simp] theorem htaccessCacheEvict_maxEntries :
    (htaccessCacheEvict w).cache.maxEntries = w.cache.maxEntries := by
  unfold htaccessCacheEvict
  cases w.cache.lru.getLast? with
  | none => rfl
  | some e => cases hp : e.parsed <;> simp only [hp, ngxDestroyPool, emit_cache] <;> rfl

theorem evictLoop_eq_iterate (fuel : Nat) :
    evictLoop fuel w = htaccessCacheEvict^[evictRounds fuel w] w := by
  induction fuel generalizing w with
  | zero => rfl
  | succ fuel ih =>
      simp only [evictLoop, evictRounds]
      split
      · rw [ih, Function.iterate_succ_apply]
      · rfl

theorem iterate_evict_entryAllocs (n : Nat) :
    (htaccessCacheEvict^[n] w).entryAllocs = w.entryAllocs := by
  induction n generalizing w with
  | zero => rfl
  | succ n ih => rw [Function.iterate_succ_apply, ih, htaccessCacheEvict_entryAllocs]

theorem iterate_evict_maxEntries (n : Nat) :
    (htaccessCacheEvict^[n] w).cache.maxEntries = w.cache.maxEntries := by
  induction n generalizing w with
  | zero => rfl
  | succ n ih => rw [Function.iterate_succ_apply, ih, htaccessCacheEvict_maxEntries]

theorem iterate_evict_lru (n : Nat) :
    (htaccessCacheEvict^[n] w).cache.lru =
      (List.replicate n Op.evict).foldl Op.run w.cache.lru := by
  induction n generalizing w with
  | zero => rfl
  | succ n ih =>
      rw [Function.iterate_succ_apply, ih, htaccessCacheEvict_lru, List.replicate_succ,
        List.foldl_cons, Op.run]

theorem htaccessCacheFind_eq (c : Cache) (path : NgxStr) :
    htaccessCacheFind c path = (c.lru.find? (·.path = path)).map fun e =>
      (e, { c with lru := Op.run c.lru (.touch (·.path = path)) }) := by
  unfold htaccessCacheFind
  cases hfind : c.lru.find? (·.path = path) with
  | none => rfl
  | some e => simp only [Op.run, hfind, Option.map_some]

theorem run_lru (call : CacheCall) :
    (call.run w).cache.lru = (call.ops w).foldl Op.run w.cache.lru := by
  cases call with
  | lookup sys path cacheEnable =>
      simp only [CacheCall.run, CacheCall.ops, htaccessCacheLookup, htaccessCacheFind_eq]
      cases cacheEnable with
      | false => rfl
      | true =>
          cases w.cache.lru.find? (·.path = path) with
          | none => rfl
          | some e =>
              cases hfresh : e.fresh (sys.fs.fileInfo path) <;>
                simp [hfresh, Op.run]
  | store path mtime size absent parsed =>
      simp only [CacheCall.run, CacheCall.ops, htaccessCacheStore, evictLoop_eq_iterate,
        iterate_evict_entryAllocs, List.foldl_append, ← iterate_evict_lru]
      cases w.entryAllocs.headD true <;> rfl

theorem run_maxEntries (call : CacheCall) :
    (call.run w).cache.maxEntries = w.cache.maxEntries := by
  cases call with
  | lookup sys path cacheEnable =>
      simp only [CacheCall.run, htaccessCacheLookup, htaccessCacheFind_eq]
      cases cacheEnable with
      | false => rfl
      | true =>
          cases w.cache.lru.find? (·.path = path) with
          | none => rfl
          | some e => cases hfresh : e.fresh (sys.fs.fileInfo path) <;> simp [hfresh]
  | store path mtime size absent parsed =>
      simp only [CacheCall.run, htaccessCacheStore, evictLoop_eq_iterate]
      cases (htaccessCacheEvict^[evictRounds w.cache.count w] w).entryAllocs.headD true <;>
        exact iterate_evict_maxEntries w _

theorem runCalls_maxEntries (calls : List CacheCall) :
    (runCalls w calls).cache.maxEntries = w.cache.maxEntries := by
  induction calls generalizing w with
  | nil => rfl
  | cons call calls ih => exact (ih (call.run w)).trans (run_maxEntries w call)

/-- The touch times are times of the entries in the queue. -/
theorem values_touchTimes (calls : List CacheCall) {q : TimedQueue CacheEntry}
    (h : q.values = w.cache.lru) :
    (touchTimes w q calls).values = (runCalls w calls).cache.lru := by
  induction calls generalizing w q with
  | nil => exact h
  | cons call calls ih =>
      refine ih (call.run w) ?_
      rw [TimedQueue.values_foldl, h, run_lru]

end Queue

section Evict

theorem wf_evict {w : Worker} (h : w.cache.Wf) : (htaccessCacheEvict w).cache.Wf := by
  rw [htaccessCacheEvict_eq h]
  exact wf_dropLast h

theorem wf_iterate_evict (n : Nat) {w : Worker} (h : w.cache.Wf) :
    (htaccessCacheEvict^[n] w).cache.Wf := by
  induction n generalizing w with
  | zero => exact h
  | succ n ih =>
      rw [Function.iterate_succ_apply]
      exact ih (wf_evict h)

theorem count_evict {w : Worker} (h : w.cache.Wf) :
    (htaccessCacheEvict w).cache.count = w.cache.count - 1 ∧
      (htaccessCacheEvict w).cache.maxEntries = w.cache.maxEntries := by
  rw [htaccessCacheEvict_eq h]
  exact ⟨rfl, rfl⟩

theorem full_of_lt_evictRounds (fuel : Nat) {w : Worker} {i : Nat}
    (h : i < evictRounds fuel w) :
    (htaccessCacheEvict^[i] w).cache.maxEntries ≤ (htaccessCacheEvict^[i] w).cache.count := by
  induction fuel generalizing w i with
  | zero => exact absurd h (Nat.not_lt_zero i)
  | succ fuel ih =>
      simp only [evictRounds] at h
      split at h
      · rename_i hfull
        cases i with
        | zero => exact hfull
        | succ i =>
            rw [Function.iterate_succ_apply]
            exact ih (Nat.lt_of_succ_lt_succ h)
      · exact absurd h (Nat.not_lt_zero i)

theorem room_after_evictRounds (fuel : Nat) {w : Worker} (h : w.cache.Wf)
    (hfuel : w.cache.count ≤ fuel) :
    (htaccessCacheEvict^[evictRounds fuel w] w).cache.count <
      (htaccessCacheEvict^[evictRounds fuel w] w).cache.maxEntries := by
  induction fuel generalizing w with
  | zero =>
      have := h.one_le
      simp only [evictRounds, Function.iterate_zero_apply]
      omega
  | succ fuel ih =>
      simp only [evictRounds]
      split
      · rw [Function.iterate_succ_apply]
        refine ih (wf_evict h) ?_
        rw [(count_evict h).1]
        omega
      · rename_i hroom
        exact Nat.lt_of_not_le hroom

/-- An eviction takes the entry touched least recently, and counts it. -/
def EvictsOldest (w : Worker) (q : TimedQueue CacheEntry) : Prop :=
  ∃ rest x, q.entries = rest ++ [x] ∧ (∀ y ∈ rest, x.1 < y.1) ∧
    w.cache.lru = rest.map (·.2) ++ [x.2] ∧
    (htaccessCacheEvict w).cache.lru = rest.map (·.2) ∧
    (htaccessCacheEvict w).cache.count + 1 = w.cache.count

theorem evictsOldest_of_full {w : Worker} {q : TimedQueue CacheEntry} (h : w.cache.Wf)
    (hvalues : q.values = w.cache.lru) (hfull : w.cache.maxEntries ≤ w.cache.count) :
    EvictsOldest w q := by
  have hone := h.one_le
  have hcount := h.count_eq
  obtain hnil | ⟨rest, x, hentries⟩ := List.eq_nil_or_concat q.entries
  · -- a full cache holds an entry, as its bound is at least one
    rw [← hvalues, TimedQueue.values, hnil, List.map_nil, List.length_nil] at hcount
    omega
  · rw [List.concat_eq_append] at hentries
    have hlru : w.cache.lru = rest.map (·.2) ++ [x.2] := by
      rw [← hvalues, TimedQueue.values, hentries, List.map_append, List.map_singleton]
    refine ⟨rest, x, hentries, TimedQueue.oldest_at_tail hentries, hlru, ?_, ?_⟩
    · rw [htaccessCacheEvict_lru, hlru, List.dropLast_concat]
    · rw [(count_evict h).1]
      omega

end Evict

theorem wf_run {w : Worker} (h : w.cache.Wf) (call : CacheCall) : (call.run w).cache.Wf := by
  cases call with
  | lookup sys path cacheEnable => exact (htaccessCacheLookup_worker sys w path cacheEnable h).1
  | store path mtime size absent parsed =>
      exact (htaccessCacheStore_worker w path mtime size absent parsed h).1

theorem wf_runCalls (calls : List CacheCall) {w : Worker} (h : w.cache.Wf) :
    (runCalls w calls).cache.Wf := by
  induction calls generalizing w with
  | nil => exact h
  | cons call calls ih => exact ih (wf_run h call)

/-- The cache of a worker that was set up for `maxEntries` entries, with the touch times of its
entries. -/
structure LruOrdered (maxEntries : Nat) (w : Worker) (q : TimedQueue CacheEntry) : Prop where
  bound_eq : w.cache.maxEntries = if maxEntries = 0 then htaccessCacheMaxDefault else maxEntries
  count_eq : w.cache.count = w.cache.lru.length
  count_le : w.cache.count ≤ w.cache.maxEntries
  one_le : 1 ≤ w.cache.maxEntries
  entries_eq : q.entries.map (·.2) = w.cache.lru
  newest_first : q.entries.Pairwise fun x y => y.1 < x.1

/-- The loop with which a store begins ends, and every round of it evicts the entry
touched least recently at that moment. -/
def StoreLoopEnds (w : Worker) (q : TimedQueue CacheEntry) : Prop :=
  ∃ n, evictLoop w.cache.count w = htaccessCacheEvict^[n] w ∧
    (htaccessCacheEvict^[n] w).cache.count < (htaccessCacheEvict^[n] w).cache.maxEntries ∧
    ∀ i < n, (htaccessCacheEvict^[i] w).cache.maxEntries ≤ (htaccessCacheEvict^[i] w).cache.count ∧
      EvictsOldest (htaccessCacheEvict^[i] w) ((List.replicate i Op.evict).foldl TimedQueue.run q)

theorem storeLoopEnds_of_wf {w : Worker} {q : TimedQueue CacheEntry} (h : w.cache.Wf)
    (hvalues : q.values = w.cache.lru) : StoreLoopEnds w q := by
  refine ⟨evictRounds w.cache.count w, evictLoop_eq_iterate w _,
    room_after_evictRounds _ h (le_refl _), fun i hi => ?_⟩
  have hfull := full_of_lt_evictRounds _ hi
  refine ⟨hfull, evictsOldest_of_full (wf_iterate_evict i h) ?_ hfull⟩
  rw [TimedQueue.values_foldl, hvalues, iterate_evict_lru]

/-- After every sequence of cache calls on a new cache the queue is ordered by touch
times, and the loop of the next store ends and evicts in that order. -/
theorem lru_order (maxEntries : Nat) (worker : Worker) (calls : List CacheCall) :
    let start := { worker with cache := htaccessCacheInit maxEntries }
    LruOrdered maxEntries (runCalls start calls) (touchTimes start .empty calls) ∧
      StoreLoopEnds (runCalls start calls) (touchTimes start .empty calls) := by
  intro start
  have hwf : (runCalls start calls).cache.Wf :=
    wf_runCalls calls (wf_htaccessCacheInit maxEntries)
  have hvalues : (touchTimes start .empty calls).values = (runCalls start calls).cache.lru :=
    values_touchTimes start calls rfl
  exact ⟨⟨runCalls_maxEntries start calls, hwf.count_eq, hwf.count_le, hwf.one_le, hvalues,
    TimedQueue.newest_first _⟩, storeLoopEnds_of_wf hwf hvalues⟩

end NgxHtaccess
