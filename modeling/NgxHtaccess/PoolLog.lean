import NgxHtaccess.CacheOps
import NgxHtaccess.Chain
import NgxHtaccess.Lib.Monitor

/-!
The log of parse pools against the references of live requests, up to the build
of a merged context.

A load destroys the pool of the tail entry when it finds a stale entry or stores
into a full cache; `loadVictims` reads these pools off the cache before the load.
Over the log of any operation, no destruction hits a reference exactly when no
load has a referenced victim, because a pool that a load destroys beside its
victims is one that it has just created.
-/
namespace NgxHtaccess
open Monitor

/-- What live requests refer to: the pools merged into a context of the run in
progress, and by request the pools of the values that `htaccess_apply_headers` has set. -/
structure LiveRefs where
  running : Option Nat
  context : List PoolId
  headers : List (Nat × PoolId)

def LiveRefs.none : LiveRefs := { running := .none, context := [], headers := [] }

def LiveRefs.next (refs : LiveRefs) : PoolEvent → LiveRefs
  | .start request => { refs with running := some request, context := [] }
  -- the URI and the names of E= variables may still lie in files of an earlier pass
  | .context | .load _ | .create _ | .destroy _ => refs
  | .merge pool => { refs with context := pool :: refs.context }
  | .header pool => { refs with headers := (refs.running.getD 0, pool) :: refs.headers }
  | .finish => { refs with running := .none, context := [] }
  | .complete request => { refs with headers := refs.headers.filter (·.1 ≠ request) }

def LiveRefs.held (refs : LiveRefs) : List PoolId := refs.context ++ refs.headers.map (·.2)

/-- The pools that a load destroys for room or as stale, read off its start. -/
def loadVictims (call : LoadCall) : List PoolId :=
  if !call.conf.cacheEnable then []
  else
    match htaccessCacheFind call.cache call.path with
    | some (e, cache) =>
        if e.fresh (call.sys.fs.fileInfo call.path) then [] else cache.tailPools
    | none =>
        if storesEntry call.sys call.path ∧ call.cache.maxEntries ≤ call.cache.count then
          call.cache.tailPools
        else []

/-- No pool is destroyed while it is referred to. -/
def DestroysUnheld (refs : LiveRefs) : PoolEvent → Prop
  | .destroy pool => pool ∉ refs.held
  | _ => True

/-- No load has a victim that is referred to. -/
def VictimsUnheld (refs : LiveRefs) : PoolEvent → Prop
  | .load call => ∀ pool ∈ loadVictims call, pool ∉ refs.held
  | _ => True

instance (refs : LiveRefs) (e : PoolEvent) : Decidable (DestroysUnheld refs e) := by
  cases e <;> simp only [DestroysUnheld] <;> infer_instance

instance (refs : LiveRefs) (e : PoolEvent) : Decidable (VictimsUnheld refs e) := by
  cases e <;> simp only [VictimsUnheld] <;> infer_instance

/-- Every reference is to a pool that has been created. -/
def HeldBelow (n : PoolId) (refs : LiveRefs) : Prop := ∀ pool ∈ refs.held, pool < n

/-- What happened between two workers treats the references as its loads do. -/
def Tracks (w w' : Worker) : Prop :=
  ∃ es, w'.log = w.log ++ es ∧
    Agree LiveRefs.next DestroysUnheld VictimsUnheld (HeldBelow w.nextPool)
      (HeldBelow w'.nextPool) es

theorem Tracks.refl (w : Worker) : Tracks w w :=
  ⟨[], (List.append_nil _).symm, agree_nil fun _ h => h⟩

theorem Tracks.trans {w w' w'' : Worker} (h : Tracks w w') (h' : Tracks w' w'') :
    Tracks w w'' := by
  obtain ⟨es, hlog, hagree⟩ := h
  obtain ⟨fs, hlog', hagree'⟩ := h'
  exact ⟨es ++ fs, by rw [hlog', hlog, List.append_assoc], agree_append hagree hagree'⟩

theorem mem_held_next {refs : LiveRefs} {e : PoolEvent} {pool : PoolId}
    (h : pool ∈ (refs.next e).held) : pool ∈ refs.held ∨ e = .merge pool ∨ e = .header pool := by
  cases e with
  | start _ | finish =>
      simp only [LiveRefs.next, LiveRefs.held, List.nil_append] at h
      exact .inl (List.mem_append_right _ h)
  | context | load _ | create _ | destroy _ => exact .inl h
  | merge p =>
      simp only [LiveRefs.next, LiveRefs.held, List.cons_append, List.mem_cons] at h
      rcases h with rfl | h
      · exact .inr (.inl rfl)
      · exact .inl h
  | header p =>
      simp only [LiveRefs.next, LiveRefs.held, List.map_cons, List.mem_append, List.mem_cons] at h
      rcases h with h | rfl | h
      · exact .inl (List.mem_append_left _ h)
      · exact .inr (.inr rfl)
      · exact .inl (List.mem_append_right _ h)
  | complete request =>
      simp only [LiveRefs.next, LiveRefs.held, List.mem_append, List.mem_map,
        List.mem_filter] at h
      rcases h with h | ⟨entry, ⟨hmem, _⟩, rfl⟩
      · exact .inl (List.mem_append_left _ h)
      · exact .inl (List.mem_append_right _ (List.mem_map_of_mem hmem))

/-- An event of a request that names a created pool, if any. -/
def IsRequestEvent (n : PoolId) : PoolEvent → Prop
  | .load _ | .create _ | .destroy _ => False
  | .merge pool | .header pool => pool < n
  | _ => True

theorem tracks_emit {w : Worker} {e : PoolEvent} (h : IsRequestEvent w.nextPool e) :
    Tracks w (w.emit e) := by
  refine ⟨[e], rfl, fun refs hrefs => ⟨?_, fun pool hpool => ?_⟩⟩
  · cases e <;> first | exact absurd h id | exact Iff.rfl
  · rcases mem_held_next hpool with hold | rfl | rfl
    · exact hrefs pool hold
    · exact h
    · exact h

/-- The strings of the file live in its pool, and the pool has been created. -/
def FileOwned (n : PoolId) (file : ParsedFile) : Prop :=
  file.pool < n ∧ file.inPool file.pool = file

structure CacheOwned (w : Worker) : Prop where
  wf : w.cache.Wf
  entries : ∀ e ∈ w.cache.lru, ∀ file, e.parsed = some file → FileOwned w.nextPool file

theorem FileOwned.mono {n m : PoolId} {file : ParsedFile} (h : FileOwned n file) (hnm : n ≤ m) :
    FileOwned m file :=
  ⟨lt_of_lt_of_le h.1 hnm, h.2⟩

section Load
variable (sys : Sys) (conf : LocConf) (path : NgxStr)

theorem loadLookup_victims {w : Worker} (hwf : w.cache.Wf) :
    ∃ stale : List PoolId,
      (loadLookup sys conf w path).2.log =
        w.log ++ .load { sys, conf, path, cache := w.cache } :: stale.map .destroy ∧
      loadVictims { sys, conf, path, cache := w.cache } = stale ++
        match (loadLookup sys conf w path).1 with
        | some _ => []
        | none => storeVictims sys conf (loadLookup sys conf w path).2.cache path := by
  unfold loadLookup htaccessCacheLookup loadVictims loadStart
  simp only [emit_cache]
  cases hon : conf.cacheEnable with
  | false => exact ⟨[], by simp, by simp [storeVictims, hon]⟩
  | true =>
      simp only [Bool.not_true, Bool.false_eq_true, if_false]
      cases hfind : htaccessCacheFind w.cache path with
      | none => exact ⟨[], by simp, by simp [storeVictims, hon]⟩
      | some hit =>
          obtain ⟨e, cache⟩ := hit
          have hwf' : cache.Wf := wf_find hwf hfind
          simp only
          split
          · exact ⟨[], by simp, rfl⟩
          · rw [htaccessCacheEvict_eq (w := { w.emit _ with cache }) hwf']
            -- the stale lookup has made room, so the store finds some
            have hroom : cache.dropLast.count < cache.dropLast.maxEntries := by
              have hle := hwf'.count_le
              have hone := hwf'.one_le
              simp only [Cache.dropLast]
              omega
            exact ⟨cache.tailPools, by simp,
              by simp only [storeVictims_of_room sys conf path hroom, List.append_nil]⟩

theorem htaccessLoadFile_log {w : Worker} (hwf : w.cache.Wf) :
    ∃ es, (htaccessLoadFile sys conf w path).2.2.log =
        w.log ++ .load { sys, conf, path, cache := w.cache } :: es ∧
      (∀ e ∈ es, e = .create w.nextPool ∨ e = .destroy w.nextPool ∨
        ∃ pool ∈ loadVictims { sys, conf, path, cache := w.cache }, e = .destroy pool) ∧
      ∀ pool ∈ loadVictims { sys, conf, path, cache := w.cache }, .destroy pool ∈ es := by
  obtain ⟨stale, hlog, hvictims⟩ := loadLookup_victims sys conf path hwf
  obtain ⟨hwf', _, hnext, _⟩ := htaccessCacheLookup_worker sys (loadStart sys conf w path) path
    conf.cacheEnable hwf
  change (loadLookup sys conf w path).2.nextPool = w.nextPool at hnext
  change (loadLookup sys conf w path).2.cache.Wf at hwf'
  rw [htaccessLoadFile_eq]
  generalize loadLookup sys conf w path = looked at hlog hvictims hnext hwf'
  obtain ⟨_ | e, w'⟩ := looked
  · obtain ⟨own, hown, hmiss⟩ := (missWorker_spec sys conf path hwf').log_eq
    simp only at hlog hvictims hnext
    refine ⟨stale.map .destroy ++ own ++
      (storeVictims sys conf w'.cache path).map .destroy, ?_, ?_, ?_⟩
    · simp only [hmiss, hlog, List.append_assoc, List.cons_append]
    · intro e he
      rw [hvictims]
      simp only [List.mem_append, List.mem_map] at he ⊢
      rcases he with (⟨pool, hpool, rfl⟩ | he) | ⟨pool, hpool, rfl⟩
      · exact .inr (.inr ⟨pool, .inl hpool, rfl⟩)
      · rw [hnext] at hown
        rcases hown e he with rfl | rfl
        · exact .inl rfl
        · exact .inr (.inl rfl)
      · exact .inr (.inr ⟨pool, .inr hpool, rfl⟩)
    · intro pool hpool
      rw [hvictims] at hpool
      simp only [List.mem_append, List.mem_map] at hpool ⊢
      rcases hpool with hpool | hpool
      · exact .inl (.inl ⟨pool, hpool, rfl⟩)
      · exact .inr ⟨pool, hpool, rfl⟩
  · simp only [List.append_nil] at hlog hvictims
    refine ⟨stale.map .destroy, ?_, ?_, ?_⟩
    · simp only
      split <;> exact hlog
    · intro e he
      obtain ⟨pool, hpool, rfl⟩ := List.mem_map.mp he
      exact .inr (.inr ⟨pool, hvictims ▸ hpool, rfl⟩)
    · intro pool hpool
      exact List.mem_map_of_mem (hvictims ▸ hpool)

/-- A load creates at most one pool; the cache and the answer own their strings. -/
theorem htaccessLoadFile_owned {w : Worker} (h : CacheOwned w) :
    w.nextPool ≤ (htaccessLoadFile sys conf w path).2.2.nextPool ∧
      CacheOwned (htaccessLoadFile sys conf w path).2.2 ∧
      ∀ file, (htaccessLoadFile sys conf w path).2.1 = some file →
        FileOwned (htaccessLoadFile sys conf w path).2.2.nextPool file := by
  obtain ⟨hwf', hmem, hnext, _⟩ := htaccessCacheLookup_worker sys (loadStart sys conf w path) path
    conf.cacheEnable h.wf
  have hsome := fun e => htaccessCacheLookup_some (e := e) sys (loadStart sys conf w path) path
    conf.cacheEnable
  change (loadLookup sys conf w path).2.nextPool = w.nextPool at hnext
  rw [htaccessLoadFile_eq]
  unfold loadLookup at hnext ⊢
  generalize htaccessCacheLookup sys (loadStart sys conf w path) path conf.cacheEnable = looked
    at hwf' hmem hnext hsome ⊢
  obtain ⟨_ | e, w'⟩ := looked
  · have hmissed := missWorker_spec sys conf path hwf'
    simp only at hnext hmem ⊢
    have hle : w.nextPool ≤ (missWorker sys conf w' path).nextPool := by
      rw [hmissed.nextPool_eq, hnext]
      split
      · exact Nat.le_succ _
      · exact le_refl _
    have hparsed : ∀ fi, sys.fs.fileInfo path = some fi → ∀ file,
        (htaccessParseFile sys w'.nextPool path).2 = some file →
        FileOwned (missWorker sys conf w' path).nextPool file := by
      intro fi hinfo file hfile
      have hin := inPool_of_htaccessParseFile hfile
      have hpool : file.pool = w'.nextPool := by rw [← hin]; rfl
      refine ⟨?_, by rw [hpool, hin]⟩
      rw [hmissed.nextPool_eq, hinfo, hpool]
      exact Nat.lt_succ_self _
    refine ⟨hle, ⟨hmissed.wf, fun e he file hfile => ?_⟩, fun file hfile => ?_⟩
    · rcases hmissed.entries e he with hold | ⟨_, hnone⟩ | ⟨fi, hinfo, _, rfl⟩
      · exact (h.entries e (hmem e hold) file hfile).mono hle
      · rw [hnone] at hfile
        cases hfile
      · exact hparsed fi hinfo file hfile
    · unfold readFile at hfile
      split at hfile
      · cases hfile
      · rename_i fi hinfo
        simp only at hfile
        split at hfile
        · cases hfile
        · exact hparsed fi hinfo file hfile
  · obtain ⟨_, hentry, _, _⟩ := hsome e rfl
    have howned : CacheOwned w' :=
      ⟨hwf', fun e he file hfile => hnext ▸ h.entries e (hmem e he) file hfile⟩
    simp only at hnext ⊢
    split
    · refine ⟨hnext ▸ le_refl _, howned, fun file hfile => ?_⟩
      cases hfile
    · exact ⟨hnext ▸ le_refl _, howned,
        fun file hfile => hnext ▸ h.entries e hentry file hfile⟩

theorem tracks_load {w : Worker} (h : CacheOwned w) :
    Tracks w (htaccessLoadFile sys conf w path).2.2 := by
  obtain ⟨es, hlog, hsound, hcomplete⟩ := htaccessLoadFile_log sys conf path h.wf
  refine ⟨_, hlog, fun refs hrefs => ?_⟩
  have hstutter : ∀ e ∈ es, refs.next e = refs := by
    intro e he
    rcases hsound e he with rfl | rfl | ⟨pool, _, rfl⟩ <;> rfl
  have hfresh : w.nextPool ∉ refs.held := fun hheld => lt_irrefl _ (hrefs _ hheld)
  constructor
  · simp only [Accepts, DestroysUnheld, VictimsUnheld, LiveRefs.next, true_and,
      accepts_of_stutter hstutter]
    constructor
    · intro hgood
      refine ⟨fun pool hpool => hgood _ (hcomplete pool hpool), fun e he => ?_⟩
      rcases hsound e he with rfl | rfl | ⟨pool, _, rfl⟩ <;> trivial
    · rintro ⟨hgood, -⟩ e he
      rcases hsound e he with rfl | rfl | ⟨pool, hpool, rfl⟩
      · trivial
      · exact hfresh
      · exact hgood pool hpool
  · rw [List.foldl_cons, LiveRefs.next, foldl_of_stutter hstutter]
    exact fun pool hpool =>
      lt_of_lt_of_le (hrefs pool hpool) (htaccessLoadFile_owned sys conf path h).1

end Load

end NgxHtaccess
