import NgxHtaccess.Parser

/-!
`htaccess_cache.c`: the LRU cache of parsed files that a worker process keeps.

The worker also carries what the source leaves to the allocator: the next pool
to hand out, the outcomes of the next entry allocations, and a log of what
happens to parse pools. Nothing reads the log; the lifetime results are about it.
-/
namespace NgxHtaccess

structure CacheEntry where
  path : NgxStr
  mtime : Int
  size : Nat
  absent : Bool
  parsed : Option ParsedFile
  deriving DecidableEq

/-- `lru` lists the queue from its head, the entry touched last. -/
structure Cache where
  lru : List CacheEntry
  count : Nat
  maxEntries : Nat
  deriving DecidableEq

/-- A call of `htaccess_load_file`, with the cache it starts on. -/
structure LoadCall where
  sys : Sys
  conf : LocConf
  path : NgxStr
  cache : Cache

/-- What happens to parse pools, in the order it happens: a handler run of a
request starts, zeroes its merged context, loads a file, merges a directive of
the file that owns a pool, copies a header value out of a pool and returns; and
the response of a request completes. -/
inductive PoolEvent where
  | start (request : Nat)
  | context
  | load (call : LoadCall)
  | create (pool : PoolId)
  | destroy (pool : PoolId)
  | merge (pool : PoolId)
  | header (pool : PoolId)
  | finish
  | complete (request : Nat)

structure Worker where
  cache : Cache
  nextPool : PoolId
  /-- Outcomes of the next `ngx_alloc` calls for entries; later ones succeed. -/
  entryAllocs : List Bool
  log : List PoolEvent

def Worker.emit (w : Worker) (e : PoolEvent) : Worker := { w with log := w.log ++ [e] }

def ngxCreatePool (w : Worker) : PoolId × Worker :=
  (w.nextPool, { w.emit (.create w.nextPool) with nextPool := w.nextPool + 1 })

def ngxDestroyPool (w : Worker) (pool : PoolId) : Worker := w.emit (.destroy pool)

def htaccessCacheInit (maxEntries : Nat) : Cache where
  lru := []
  count := 0
  maxEntries := if maxEntries = 0 then htaccessCacheMaxDefault else maxEntries

def Cache.dropLast (c : Cache) : Cache :=
  { c with lru := c.lru.dropLast, count := c.count - 1 }

def htaccessCacheEvict (w : Worker) : Worker :=
  match w.cache.lru.getLast? with
  | none => w
  | some e =>
      let w := { w with cache := w.cache.dropLast }
      match e.parsed with
      | some parsed => ngxDestroyPool w parsed.pool
      | none => w

/-- The first entry of the path, moved to the head of the queue. -/
def htaccessCacheFind (c : Cache) (path : NgxStr) : Option (CacheEntry × Cache) :=
  match c.lru.find? (·.path = path) with
  | none => none
  | some e => some (e, { c with lru := e :: c.lru.eraseP (·.path = path) })

/-- What `htaccess_cache_lookup` tests on a found entry. -/
def CacheEntry.fresh (e : CacheEntry) (info : Option FileInfo) : Bool :=
  match info with
  | none => e.absent
  | some fi => !e.absent && e.mtime = fi.mtime && e.size = fi.size

def htaccessCacheLookup (sys : Sys) (w : Worker) (path : NgxStr) (cacheEnable : Bool) :
    Option CacheEntry × Worker :=
  if !cacheEnable then (none, w)
  else
    match htaccessCacheFind w.cache path with
    | none => (none, w)
    | some (e, cache) =>
        let w := { w with cache }
        if e.fresh (sys.fs.fileInfo path) then (some e, w)
        else (none, htaccessCacheEvict w)

/-- `while (cache->count >= cache->max_entries) evict`. Every round takes one
entry off the count as long as the queue is not empty. -/
def evictLoop : Nat → Worker → Worker
  | 0, w => w
  | fuel + 1, w =>
      if w.cache.maxEntries ≤ w.cache.count then evictLoop fuel (htaccessCacheEvict w) else w

def htaccessCacheStore (w : Worker) (path : NgxStr) (mtime : Int) (size : Nat) (absent : Bool)
    (parsed : Option ParsedFile) : Worker :=
  let w := evictLoop w.cache.count w
  let allocated := w.entryAllocs.headD true
  let w := { w with entryAllocs := w.entryAllocs.tail }
  if !allocated then w
  else
    { w with cache :=
        { w.cache with
          lru := { path, mtime, size, absent, parsed } :: w.cache.lru
          count := w.cache.count + 1 } }

end NgxHtaccess
