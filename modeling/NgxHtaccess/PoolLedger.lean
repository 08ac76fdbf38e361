import NgxHtaccess.CacheOrder
import NgxHtaccess.LoadCases
import NgxHtaccess.Lifetime

/-!
A ledger of parse pools: those that have been created and not destroyed against
those that the entries of the cache own. Every load leaves every owned pool alive;
it leaves a pool that is alive and owned by nobody when the file it parses is not
stored.
-/
namespace NgxHtaccess
open BoundedLoop

def Cache.pools (c : Cache) : List PoolId := c.lru.filterMap fun e => e.parsed.map (·.pool)

def Worker.Alive (w : Worker) (pool : PoolId) : Prop :=
  .create pool ∈ w.log ∧ .destroy pool ∉ w.log

def PoolEvent.creates (pool : PoolId) : PoolEvent → Bool
  | .create p => p = pool
  | _ => false

def PoolEvent.destroys (pool : PoolId) : PoolEvent → Bool
  | .destroy p => p = pool
  | _ => false

instance (w : Worker) (pool : PoolId) : Decidable (w.Alive pool) :=
  decidable_of_iff (w.log.any (PoolEvent.creates pool) ∧ ¬ w.log.any (PoolEvent.destroys pool))
    (by
      have hcreates : ∀ e, PoolEvent.creates pool e = true ↔ e = .create pool := by
        intro e
        cases e <;> simp [PoolEvent.creates]
      have hdestroys : ∀ e, PoolEvent.destroys pool e = true ↔ e = .destroy pool := by
        intro e
        cases e <;> simp [PoolEvent.destroys]
      simp [Worker.Alive, List.any_eq_true, hcreates, hdestroys])

/-- The cache owns its pools alone, they are alive, and pools are numbered in the
order of their creation. -/
structure Ledger (w : Worker) : Prop where
  wf : w.cache.Wf
  nodup : w.cache.pools.Nodup
  alive : ∀ pool ∈ w.cache.pools, w.Alive pool
  below : ∀ pool, .create pool ∈ w.log ∨ .destroy pool ∈ w.log → pool < w.nextPool

/-- A pool is alive that no entry owns. -/
def Worker.Leaked (w : Worker) : Prop := ∃ pool, w.Alive pool ∧ pool ∉ w.cache.pools

theorem alive_iff_owned {w : Worker} (h : Ledger w) :
    (∀ pool, w.Alive pool ↔ pool ∈ w.cache.pools) ↔ ¬ w.Leaked := by
  constructor
  · rintro hall ⟨pool, halive, hout⟩
    exact hout ((hall pool).mp halive)
  · intro hno pool
    refine ⟨fun halive => ?_, h.alive pool⟩
    by_contra hout
    exact hno ⟨pool, halive, hout⟩

/-- What becomes of the pool that a load creates. -/
inductive PoolFate where
  | owned
  | destroyed
  | leaked
  deriving DecidableEq

/-- What a log says about the next pool and no more. -/
structure Noted (w w' : Worker) (fate : Option PoolFate) : Prop where
  create_iff : ∀ pool, .create pool ∈ w'.log ↔
    .create pool ∈ w.log ∨ fate.isSome ∧ pool = w.nextPool
  destroy_iff : ∀ pool, .destroy pool ∈ w'.log ↔
    .destroy pool ∈ w.log ∨ fate = some .destroyed ∧ pool = w.nextPool
  nextPool_eq : w'.nextPool = if fate.isSome then w.nextPool + 1 else w.nextPool

/-- From one worker to a later one, the pools that leave the cache are destroyed and
the next pool has the fate. -/
structure Accounted (w w' : Worker) (fate : Option PoolFate) (victims : List PoolId) : Prop where
  wf : w'.cache.Wf
  pools : (victims ++ w'.cache.pools).Perm
    ((if fate = some .owned then [w.nextPool] else []) ++ w.cache.pools)
  create_iff : ∀ pool, .create pool ∈ w'.log ↔
    .create pool ∈ w.log ∨ fate.isSome ∧ pool = w.nextPool
  destroy_iff : ∀ pool, .destroy pool ∈ w'.log ↔
    .destroy pool ∈ w.log ∨ pool ∈ victims ∨ fate = some .destroyed ∧ pool = w.nextPool
  nextPool_eq : w'.nextPool = if fate.isSome then w.nextPool + 1 else w.nextPool

section Account
variable {w w' : Worker} {fate : Option PoolFate} {victims : List PoolId}

theorem Ledger.nextPool_new (h : Ledger w) :
    .create w.nextPool ∉ w.log ∧ .destroy w.nextPool ∉ w.log ∧ w.nextPool ∉ w.cache.pools :=
  ⟨fun hc => lt_irrefl _ (h.below _ (.inl hc)), fun hd => lt_irrefl _ (h.below _ (.inr hd)),
    fun hp => lt_irrefl _ (h.below _ (.inl (h.alive _ hp).1))⟩

theorem ledger_of_accounted (h : Ledger w) (hacc : Accounted w w' fate victims) : Ledger w' := by
  obtain ⟨hnc, hnd, hnp⟩ := h.nextPool_new
  have hnodup : (victims ++ w'.cache.pools).Nodup := by
    rw [hacc.pools.nodup_iff]
    split
    · exact List.nodup_cons.mpr ⟨hnp, h.nodup⟩
    · exact h.nodup
  rw [List.nodup_append] at hnodup
  obtain ⟨_, hnodup', hdisj⟩ := hnodup
  refine ⟨hacc.wf, hnodup', fun pool hpool => ?_, fun pool hlog => ?_⟩
  · have hmem := hacc.pools.subset (List.mem_append_right _ hpool)
    have hkept : pool ∉ victims := fun hv => hdisj pool hv pool hpool rfl
    rw [Worker.Alive, hacc.create_iff, hacc.destroy_iff]
    rcases List.mem_append.mp hmem with hnew | hold
    · split at hnew
      · rename_i hfate
        rw [List.mem_singleton] at hnew
        subst hnew
        simp [hfate, hkept, hnd]
      · cases hnew
    · obtain ⟨hc, hd⟩ := h.alive pool hold
      have hne : pool ≠ w.nextPool := fun heq => hnp (heq ▸ hold)
      simp [hc, hd, hkept, hne]
  · rw [hacc.create_iff, hacc.destroy_iff] at hlog
    rw [hacc.nextPool_eq]
    have hvictim : pool ∈ victims → pool < w.nextPool ∨ fate.isSome ∧ pool = w.nextPool := by
      intro hv
      have hmem := hacc.pools.subset (List.mem_append_left _ hv)
      rcases List.mem_append.mp hmem with hnew | hold
      · split at hnew
        · rename_i hfate
          exact .inr ⟨by rw [hfate]; rfl, List.mem_singleton.mp hnew⟩
        · cases hnew
      · exact .inl (h.below pool (.inl (h.alive pool hold).1))
    have hbound : pool < w.nextPool ∨ fate.isSome ∧ pool = w.nextPool := by
      rcases hlog with (hc | hnew) | hd | hv | ⟨hfate, heq⟩
      · exact .inl (h.below pool (.inl hc))
      · exact .inr hnew
      · exact .inl (h.below pool (.inr hd))
      · exact hvictim hv
      · exact .inr ⟨by rw [hfate]; rfl, heq⟩
    rcases hbound with hlt | ⟨hsome, heq⟩
    · split
      · exact Nat.lt_succ_of_lt hlt
      · exact hlt
    · rw [if_pos hsome, heq]
      exact Nat.lt_succ_self _

theorem leaked_of_accounted (h : Ledger w) (hacc : Accounted w w' fate victims) :
    w'.Leaked ↔ w.Leaked ∨ fate = some .leaked := by
  obtain ⟨hnc, hnd, hnp⟩ := h.nextPool_new
  -- outside the new queue and not a victim is outside the old queue and not taken over
  have hout : ∀ pool, pool ∉ victims ∧ pool ∉ w'.cache.pools ↔
      ¬ (fate = some .owned ∧ pool = w.nextPool) ∧ pool ∉ w.cache.pools := by
    intro pool
    rw [← not_or, ← List.mem_append, hacc.pools.mem_iff, List.mem_append, not_or]
    refine and_congr_left fun _ => not_congr ?_
    split <;> simp [*]
  have hleak : ∀ pool, w'.Alive pool ∧ pool ∉ w'.cache.pools ↔
      (w.Alive pool ∧ pool ∉ w.cache.pools) ∨ fate = some .leaked ∧ pool = w.nextPool := by
    intro pool
    have hpool := hout pool
    rw [Worker.Alive, hacc.create_iff, hacc.destroy_iff]
    by_cases hnew : pool = w.nextPool
    · subst hnew
      rcases fate with _ | _ | _ | _ <;> simp_all [Worker.Alive]
    · simp only [hnew, and_false, or_false, not_false_eq_true, true_and, Worker.Alive] at hpool ⊢
      tauto
  unfold Worker.Leaked
  simp only [hleak, exists_or, exists_and_left, exists_eq, and_true]

end Account

section Queue

theorem pools_perm {c c' : Cache} (h : c'.lru.Perm c.lru) : c'.pools.Perm c.pools :=
  h.filterMap _

theorem dropLast_pools (c : Cache) : c.dropLast.pools ++ c.tailPools = c.pools := by
  unfold Cache.pools Cache.tailPools Cache.dropLast
  obtain hnil | ⟨rest, e, hlru⟩ := List.eq_nil_or_concat c.lru
  · rw [hnil, List.dropLast_nil, List.getLast?_nil, Option.bind_none, Option.map_none,
      Option.toList_none, List.append_nil]
  · rw [hlru, List.concat_eq_append, List.dropLast_concat, List.getLast?_concat,
      List.filterMap_append]
    cases hp : e.parsed <;> simp [hp]

end Queue

section Operations
variable {w w₁ : Worker} {fate : Option PoolFate}

theorem noted_emit {e : PoolEvent} (hcreate : ∀ pool, e ≠ .create pool)
    (hdestroy : ∀ pool, e ≠ .destroy pool) : Noted w (w.emit e) none := by
  refine ⟨fun pool => ?_, fun pool => ?_, rfl⟩
  · simp [Ne.symm (hcreate pool)]
  · simp [Ne.symm (hdestroy pool)]

theorem noted_create (hfate : fate = some .owned ∨ fate = some .leaked) :
    Noted w (ngxCreatePool w).2 fate := by
  refine ⟨fun pool => ?_, fun pool => ?_, ?_⟩
  · rcases hfate with rfl | rfl <;> simp [ngxCreatePool]
  · rcases hfate with rfl | rfl <;> simp [ngxCreatePool]
  · rcases hfate with rfl | rfl <;> rfl

theorem noted_destroy :
    Noted w (ngxDestroyPool (ngxCreatePool w).2 w.nextPool) (some .destroyed) := by
  refine ⟨fun pool => ?_, fun pool => ?_, rfl⟩
  · simp [ngxCreatePool, ngxDestroyPool]
  · simp [ngxCreatePool, ngxDestroyPool]

theorem accounted_of_noted (hwf : w.cache.Wf) (hcache : w₁.cache = w.cache)
    (hnoted : Noted w w₁ fate) (hfate : fate ≠ some .owned) : Accounted w w₁ fate [] := by
  refine ⟨hcache ▸ hwf, ?_, hnoted.create_iff, fun pool => ?_, hnoted.nextPool_eq⟩
  · rw [if_neg hfate, hcache]
  · rw [hnoted.destroy_iff]
    simp

theorem htaccessCacheStore_pools (hwf : w.cache.Wf) (path : NgxStr) (mtime : Int) (size : Nat)
    (absent : Bool) (parsed : Option ParsedFile) :
    ∃ kept victims, kept ++ victims = w.cache.pools ∧
      (htaccessCacheStore w path mtime size absent parsed).cache.pools =
        (if w.entryAllocs.headD true then (parsed.map (·.pool)).toList else []) ++ kept ∧
      (htaccessCacheStore w path mtime size absent parsed).log =
        w.log ++ victims.map .destroy ∧
      (htaccessCacheStore w path mtime size absent parsed).nextPool = w.nextPool := by
  rw [htaccessCacheStore_eq path mtime size absent parsed hwf]
  have hpush : ∀ c : Cache, (if w.entryAllocs.headD true then
      { c with lru := { path, mtime, size, absent, parsed } :: c.lru, count := c.count + 1 }
      else c).pools =
        (if w.entryAllocs.headD true then (parsed.map (·.pool)).toList else []) ++ c.pools := by
    intro c
    cases w.entryAllocs.headD true with
    | false => rfl
    | true => cases parsed <;> rfl
  by_cases hfull : w.cache.maxEntries ≤ w.cache.count
  · simp only [if_pos hfull, hpush]
    exact ⟨_, _, dropLast_pools w.cache, rfl, rfl, trivial⟩
  · simp only [if_neg hfull, hpush]
    exact ⟨_, [], List.append_nil _, rfl, rfl, trivial⟩

theorem accounted_store (hnoted : Noted w w₁ fate) (hwf : w.cache.Wf)
    (hcache : w₁.cache = w.cache) (path : NgxStr) (mtime : Int) (size : Nat) (absent : Bool)
    (parsed : Option ParsedFile)
    (hfate : (if w₁.entryAllocs.headD true then (parsed.map (·.pool)).toList else []) =
      if fate = some .owned then [w.nextPool] else []) :
    ∃ victims, Accounted w (htaccessCacheStore w₁ path mtime size absent parsed) fate victims := by
  have hwf₁ : w₁.cache.Wf := hcache ▸ hwf
  obtain ⟨kept, victims, hkept, hpools, hlog, hnext⟩ :=
    htaccessCacheStore_pools hwf₁ path mtime size absent parsed
  refine ⟨victims, (htaccessCacheStore_worker w₁ path mtime size absent parsed hwf₁).1, ?_,
    fun pool => ?_, fun pool => ?_, hnext.trans hnoted.nextPool_eq⟩
  · rw [hpools, hfate, ← hcache, ← hkept]
    refine List.perm_append_comm.trans ?_
    rw [List.append_assoc]
  · rw [hlog, ← hnoted.create_iff]
    simp
  · rw [hlog, List.mem_append, hnoted.destroy_iff]
    simp [or_assoc, or_comm]

end Operations

/-- Between two workers the ledger is kept, and pools are leaked if `leak` holds. -/
def Books (w w' : Worker) (leak : Prop) : Prop :=
  Ledger w → Ledger w' ∧ (w'.Leaked ↔ w.Leaked ∨ leak)

theorem Books.refl (w : Worker) : Books w w False :=
  fun h => ⟨h, (iff_of_eq (or_false _)).symm⟩

theorem Books.trans {w w' w'' : Worker} {p q : Prop} (h : Books w w' p) (h' : Books w' w'' q) :
    Books w w'' (p ∨ q) := by
  intro hw
  obtain ⟨hw', hleak⟩ := h hw
  obtain ⟨hw'', hleak'⟩ := h' hw'
  exact ⟨hw'', by rw [hleak', hleak, or_assoc]⟩

theorem Books.congr {w w' : Worker} {p q : Prop} (h : Books w w' p) (hpq : p ↔ q) :
    Books w w' q := fun hw => ⟨(h hw).1, by rw [(h hw).2, hpq]⟩

theorem books_of_accounted {w w' : Worker} (fate : Option PoolFate) {leak : Prop}
    (h : w.cache.Wf → ∃ victims, Accounted w w' fate victims)
    (hleak : fate = some .leaked ↔ leak) : Books w w' leak := by
  intro hw
  obtain ⟨victims, hacc⟩ := h hw.wf
  exact ⟨ledger_of_accounted hw hacc, by rw [leaked_of_accounted hw hacc, hleak]⟩

theorem books_emit {w : Worker} {e : PoolEvent} (hcreate : ∀ pool, e ≠ .create pool)
    (hdestroy : ∀ pool, e ≠ .destroy pool) : Books w (w.emit e) False :=
  books_of_accounted none
    (fun hwf => ⟨[], accounted_of_noted hwf rfl (noted_emit hcreate hdestroy) (by decide)⟩)
    (by simp)

section Load
variable (sys : Sys) (conf : LocConf) (path : NgxStr) (w : Worker)

/-- The queue has a fresh entry of the path, in front of any other of the path. -/
def HasFresh : Prop :=
  (w.cache.lru.find? (·.path = path)).any (·.fresh (sys.fs.fileInfo path)) = true

/-- The load parses a file and stores no entry for it. -/
def LoadLeaks : Prop :=
  (sys.fs.fileInfo path).isSome ∧ (htaccessParseFile sys w.nextPool path).1 = ngxOk ∧
    (conf.cacheEnable = false ∨ ¬ HasFresh sys path w ∧ w.entryAllocs.headD true = false)

theorem lookup_none_iff (cacheEnable : Bool) :
    (htaccessCacheLookup sys w path cacheEnable).1 = none ↔
      cacheEnable = false ∨ ¬ HasFresh sys path w := by
  unfold htaccessCacheLookup HasFresh
  rw [htaccessCacheFind_eq]
  cases cacheEnable with
  | false => simp
  | true =>
      cases w.cache.lru.find? (·.path = path) with
      | none => simp
      | some e => cases hfresh : e.fresh (sys.fs.fileInfo path) <;> simp [hfresh]

theorem books_lookup (cacheEnable : Bool) :
    Books w (htaccessCacheLookup sys w path cacheEnable).2 False := by
  refine books_of_accounted none (fun hwf => ?_) (by simp)
  unfold htaccessCacheLookup
  split
  · exact ⟨[], hwf, List.Perm.refl _, by simp, by simp, rfl⟩
  · split
    · exact ⟨[], hwf, List.Perm.refl _, by simp, by simp, rfl⟩
    · rename_i found cache hfind
      have hwf' := wf_find hwf hfind
      have hperm := pools_perm (htaccessCacheFind_perm hfind).2.2.1
      simp only
      split
      · exact ⟨[], hwf', hperm, by simp, by simp, rfl⟩
      · rw [htaccessCacheEvict_eq (w := { w with cache }) hwf']
        refine ⟨cache.tailPools, wf_dropLast hwf', ?_, by simp, by simp [or_comm], rfl⟩
        refine (List.perm_append_comm.trans ?_).trans hperm
        rw [dropLast_pools]

/-- A load that misses leaks the pool of a file that it parses and does not store. -/
theorem books_missWorker :
    Books w (missWorker sys conf w path)
      ((sys.fs.fileInfo path).isSome ∧ (htaccessParseFile sys w.nextPool path).1 = ngxOk ∧
        (conf.cacheEnable = false ∨ w.entryAllocs.headD true = false)) := by
  have hcase := missWorker_case sys conf w path
  generalize missWorker sys conf w path = w' at hcase
  cases hcase with
  | absent hinfo _ => exact (Books.refl w).congr (by simp [hinfo])
  | absentStored hinfo _ =>
      refine books_of_accounted none (fun hwf => ?_) (by simp [hinfo])
      exact accounted_store ⟨by simp, by simp, rfl⟩ hwf rfl path 0 0 true none (by simp)
  | failed fi _ hrc =>
      refine books_of_accounted (some .destroyed) (fun hwf => ?_) (by simp [hrc])
      exact ⟨[], accounted_of_noted hwf rfl noted_destroy (by decide)⟩
  | failedStored fi _ _ hrc =>
      refine books_of_accounted (some .destroyed) (fun hwf => ?_) (by simp [hrc])
      exact accounted_store noted_destroy hwf rfl path fi.mtime fi.size true none (by simp)
  | parsed fi hinfo hoff hok =>
      refine books_of_accounted (some .leaked) (fun hwf => ?_) (by simp [hinfo, hoff, hok])
      exact ⟨[], accounted_of_noted hwf rfl (noted_create (.inr rfl)) (by decide)⟩
  | parsedStored fi file hinfo hon hok hpool =>
      cases halloc : w.entryAllocs.headD true with
      | true =>
          refine books_of_accounted (some .owned) (fun hwf => ?_) (by simp [hon])
          refine accounted_store (noted_create (.inl rfl)) hwf rfl path fi.mtime fi.size false
            (some file) ?_
          rw [show (ngxCreatePool w).2.entryAllocs = w.entryAllocs from rfl, halloc]
          simp [hpool]
      | false =>
          refine books_of_accounted (some .leaked) (fun hwf => ?_) (by simp [hinfo, hok])
          refine accounted_store (noted_create (.inr rfl)) hwf rfl path fi.mtime fi.size false
            (some file) ?_
          rw [show (ngxCreatePool w).2.entryAllocs = w.entryAllocs from rfl, halloc]
          simp

theorem books_load :
    Books w (htaccessLoadFile sys conf w path).2.2 (LoadLeaks sys conf path w) := by
  intro hw
  have hstart : Books w (loadStart sys conf w path) False :=
    books_emit (fun _ => by simp) fun _ => by simp
  have hlookup := hstart.trans
    (books_lookup sys path (loadStart sys conf w path) conf.cacheEnable)
  have hnone := lookup_none_iff sys path (loadStart sys conf w path) conf.cacheEnable
  obtain ⟨_, _, hnext, hallocs⟩ := htaccessCacheLookup_worker sys (loadStart sys conf w path) path
    conf.cacheEnable hw.wf
  change _ = w.nextPool at hnext
  change _ = w.entryAllocs at hallocs
  change _ ↔ _ ∨ ¬ HasFresh sys path w at hnone
  rw [htaccessLoadFile_eq]
  unfold loadLookup
  generalize htaccessCacheLookup _ _ _ _ = looked at hlookup hnone hnext hallocs ⊢
  obtain ⟨_ | e, w'⟩ := looked
  · refine (hlookup.trans (books_missWorker sys conf path w')).congr ?_ hw
    simp only at hnext hallocs
    rw [hnext, hallocs, LoadLeaks]
    simp only [true_iff] at hnone
    tauto
  · have hnot : ¬ LoadLeaks sys conf path w := by
      simp only [reduceCtorEq, false_iff, not_or, not_not] at hnone
      rintro ⟨_, _, hoff | ⟨hfresh, _⟩⟩
      · exact hnone.1 hoff
      · exact hfresh hnone.2
    have hhit : Books w w' (LoadLeaks sys conf path w) :=
      hlookup.congr (by simp [hnot])
    simp only
    split <;> exact hhit hw

end Load

section Run
variable (sys : Sys) (conf : LocConf)

theorem books_visitWorker (w : Worker) (d : WalkDir) :
    Books w (visitWorker sys conf w d) (LoadLeaks sys conf d.path w) := by
  have hload := books_load sys conf d.path w
  unfold visitWorker visitDir
  generalize htaccessLoadFile sys conf w d.path = loaded at hload
  obtain ⟨rc, parsed, w'⟩ := loaded
  simp only at hload ⊢
  split
  · exact hload
  · cases parsed with
    | none => exact hload
    | some file =>
        simp only
        split
        · exact hload
        · exact (hload.trans (books_emit (fun _ => by simp) fun _ => by simp)).congr (by simp)

/-- The loads of a walk: the worker that each starts on and its path. -/
def walkLoads (sys : Sys) (conf : LocConf) : Worker → List WalkDir → List (Worker × NgxStr)
  | _, [] => []
  | w, d :: ds => (w, d.path) :: walkLoads sys conf (visitWorker sys conf w d) ds

theorem books_walk (ds : List WalkDir) (merged : MergedCtx) (w : Worker) :
    Books w (ds.foldl (visitDir sys conf) (merged, w)).2
      (∃ load ∈ walkLoads sys conf w ds, LoadLeaks sys conf load.2 load.1) := by
  induction ds generalizing merged w with
  | nil => exact (Books.refl w).congr (by simp [walkLoads])
  | cons d ds ih =>
      have hstep : visitDir sys conf (merged, w) d =
          ((visitDir sys conf (merged, w) d).1, visitWorker sys conf w d) :=
        Prod.ext rfl (visitDir_worker sys conf merged w d)
      rw [List.foldl_cons, hstep]
      refine ((books_visitWorker sys conf w d).trans (ih _ _)).congr ?_
      simp [walkLoads]

variable (requestUri : NgxStr)

/-- The loads of the pass that starts in `s`. -/
def passLoads (s : LoopState) : List (Worker × NgxStr) :=
  walkLoads sys conf (s.worker.emit .context) (walkDirs conf s.r.uri)

def PassLeaks (s : LoopState) : Prop :=
  ∃ load ∈ passLoads sys conf s, LoadLeaks sys conf load.2 load.1

theorem books_passWorker (s : LoopState) :
    Books s.worker (passWorker sys conf s) (PassLeaks sys conf s) := by
  have hstart : Books s.worker (s.worker.emit .context) False :=
    books_emit (fun _ => by simp) fun _ => by simp
  exact (hstart.trans (books_walk sys conf (walkDirs conf s.r.uri) {} _)).congr (by
    rw [false_or]
    rfl)

theorem books_foldl_header (pools : List PoolId) (w : Worker) :
    Books w (pools.foldl (fun w p => w.emit (.header p)) w) False := by
  induction pools generalizing w with
  | nil => exact .refl w
  | cons pool pools ih =>
      have hstep : Books w (w.emit (.header pool)) False :=
        books_emit (fun _ => by simp) fun _ => by simp
      exact (hstep.trans (ih _)).congr (or_self_iff)

theorem books_of_again {s t : LoopState} (h : htaccessPass sys conf requestUri s = .again t) :
    Books s.worker t.worker (PassLeaks sys conf s) := by
  have hpass := books_passWorker sys conf s
  obtain ⟨_, _, _, rfl⟩ | ⟨code, uri, _, _, _, rfl⟩ :=
    htaccessPass_again_cases sys conf requestUri s h
  · exact hpass
  · exact hpass

theorem books_of_stop {s : LoopState} {out : ExecResult}
    (h : htaccessPass sys conf requestUri s = .stop out) :
    Books s.worker out.worker (PassLeaks sys conf s) := by
  have hpass := books_passWorker sys conf s
  obtain ⟨_, rfl⟩ | ⟨_, _, rfl⟩ | ⟨_, _, _, rfl⟩ | ⟨code, _, _, _, rfl⟩ | ⟨_, _, rfl⟩ :=
    htaccessPass_stop_cases sys conf requestUri s h
  · exact hpass
  · exact hpass
  · exact hpass
  · exact hpass
  · exact (hpass.trans (books_foldl_header _ _)).congr (by simp)

theorem books_htaccessExecute (r : Request) (w : Worker) :
    Books w (htaccessExecute sys conf r w).worker
      (∃ s, Visits (htaccessPass sys conf r.uri) conf.maxRedirects (.initial conf r w) s ∧
        PassLeaks sys conf s) := by
  intro hw
  refine ⟨?_, ?_⟩
  · exact run_invariant (P := fun s : LoopState => Ledger s.worker)
      (Q := fun out : ExecResult => Ledger out.worker)
      (fun s t hs h => (books_of_again sys conf r.uri h hs).1)
      (fun s out hs h => (books_of_stop sys conf r.uri h hs).1) (fun _ hs => hs)
      conf.maxRedirects hw
  · exact happens_run (P := fun s : LoopState => Ledger s.worker)
      (A := fun s => s.worker.Leaked) (Q := fun out : ExecResult => out.worker.Leaked)
      (fun s t hs h => books_of_again sys conf r.uri h hs)
      (fun s out hs h => (books_of_stop sys conf r.uri h hs).2) (fun _ _ => Iff.rfl)
      conf.maxRedirects hw

end Run

/-- A load of the step parses a file and stores no entry for it. -/
def HostStep.Leaks (w : Worker) : HostStep → Prop
  | .handle { sys, conf, request, r } =>
      conf.enable = true ∧ ∃ s, Visits (htaccessPass sys conf r.uri) conf.maxRedirects
        (.initial conf r (w.emit (.start request))) s ∧ PassLeaks sys conf s
  | .complete _ => False

theorem books_step (w : Worker) (step : HostStep) : Books w (step.run w) (step.Leaks w) := by
  cases step with
  | complete request => exact books_emit (fun _ => by simp) fun _ => by simp
  | handle call =>
      obtain ⟨sys, conf, request, r⟩ := call
      simp only [HostStep.run, HandlerCall.run, HostStep.Leaks, ngxHttpHtaccessHandler]
      cases conf.enable with
      | false => exact (Books.refl w).congr (by simp)
      | true =>
          have hstart : Books w (w.emit (.start request)) False :=
            books_emit (fun _ => by simp) fun _ => by simp
          have hfinish : ∀ w', Books w' (w'.emit .finish) False := fun w' =>
            books_emit (fun _ => by simp) fun _ => by simp
          have hrun := books_htaccessExecute sys conf r (w.emit (.start request))
          exact ((hstart.trans hrun).trans (hfinish _)).congr (by simp)

/-- A run leaks a pool if a load of one of its steps does. -/
theorem books_runHost (steps : List HostStep) (w : Worker) :
    Books w (runHost w steps)
      (∃ before step, before ++ [step] <+: steps ∧ step.Leaks (runHost w before)) := by
  induction steps using List.reverseRecOn with
  | nil => exact (Books.refl w).congr (by simp)
  | append_singleton steps step ih =>
      have hlast := ih.trans (books_step (runHost w steps) step)
      rw [runHost, List.foldl_append]
      refine hlast.congr ⟨?_, ?_⟩
      · rintro (⟨before, step', hpre, hleak⟩ | hleak)
        · exact ⟨before, step', hpre.trans (List.prefix_append _ _), hleak⟩
        · exact ⟨steps, step, List.prefix_refl _, hleak⟩
      · rintro ⟨before, step', hpre, hleak⟩
        rcases List.prefix_concat_iff.mp hpre with heq | hpre
        · obtain ⟨hbefore, hstep⟩ := List.append_inj' heq rfl
          rw [List.singleton_inj] at hstep
          exact .inr (hbefore ▸ hstep ▸ hleak)
        · exact .inl ⟨before, step', hpre, hleak⟩

/-- After every sequence of handler runs and completions, the pools that are alive are
those of the cache exactly when no load has parsed a file without storing it. -/
theorem alive_pools_owned_iff (maxEntries : Nat) (entryAllocs : List Bool)
    (steps : List HostStep) :
    let w := runHost (startWorker maxEntries entryAllocs) steps
    (∀ pool, w.Alive pool ↔ pool ∈ w.cache.pools) ↔
      ∀ before step, before ++ [step] <+: steps →
        ¬ step.Leaks (runHost (startWorker maxEntries entryAllocs) before) := by
  intro w
  have hstart : Ledger (startWorker maxEntries entryAllocs) := by
    refine ⟨wf_htaccessCacheInit maxEntries, List.nodup_nil, fun pool hpool => ?_,
      fun pool hlog => ?_⟩
    · cases hpool
    · simp [startWorker] at hlog
  have hclean : ¬ (startWorker maxEntries entryAllocs).Leaked := by
    rintro ⟨pool, halive, _⟩
    simp [startWorker, Worker.Alive] at halive
  obtain ⟨hledger, hleaked⟩ := books_runHost steps (startWorker maxEntries entryAllocs) hstart
  rw [alive_iff_owned hledger, hleaked]
  simp only [hclean, false_or, not_exists, not_and]

/-- With the cache off, or when the first entry is not allocated, the pool of a file
stays alive and nobody owns it. -/
theorem pool_leaked :
    let files := [("/w/.htaccess", "AuthName top\n")]
    let conf := siteConf htaccessMaxRedirectsDefault
    let off := runHost (startWorker htaccessCacheMaxDefault [])
      [.handle ⟨siteSys (siteFs 0 files), { conf with cacheEnable := false }, 1, siteRequest "/x"⟩,
        .complete 1]
    let failed := runHost (startWorker htaccessCacheMaxDefault [false])
      [.handle ⟨siteSys (siteFs 0 files), conf, 1, siteRequest "/x"⟩, .complete 1]
    (off.Alive 0 ∧ 0 ∉ off.cache.pools) ∧ failed.Alive 0 ∧ 0 ∉ failed.cache.pools := by
  decide +kernel

end NgxHtaccess
