import NgxHtaccess.CacheOps
import NgxHtaccess.Site

/-!
The cache is transparent for files whose lines have their arguments: as long as existence,
modification time and size determine what a file holds, a load with the cache yields what a
load without it would.

The invariant is about every entry of the queue, wherever it stands and whether
it is the first of its path: an entry that is not absent holds a parse of the
content that its time and size stand for, in the pool of the load that stored it. A parse in
another pool gives the same list unless a line has a directive that reads the argument it does
not have: that one takes what the pool held before.
-/
namespace NgxHtaccess

/-- What a path holds at a modification time and a size. -/
abbrev Content := NgxStr → Int → Nat → Option OpenFile

/-- The file system hands out the content that belongs to its time stamps. -/
def Determined (content : Content) (fs : FileSystem) : Prop :=
  ∀ path fi, fs.fileInfo path = some fi → fs.openFile path = content path fi.mtime fi.size

/-- The parse in the pool of the content that a time and a size stand for. -/
def parseContent (sys : Sys) (content : Content) (pool : PoolId) (path : NgxStr) (mtime : Int)
    (size : Nat) : Int × Option ParsedFile :=
  htaccessParseFile
    (sys.withFs { fileInfo := fun _ => none, openFile := fun path => content path mtime size })
    pool path

section
variable (content : Content)

/-- An entry that stands for a file holds a parse of its content, done in some memory. -/
def EntryFaithful (e : CacheEntry) : Prop :=
  e.absent = false →
    ∃ sys pool, parseContent sys content pool e.path e.mtime e.size = (ngxOk, e.parsed)

structure CacheFaithful (w : Worker) : Prop where
  wf : w.cache.Wf
  entries : ∀ e ∈ w.cache.lru, EntryFaithful content e

variable (sys : Sys)

theorem htaccessParseFile_of_info (hfs : Determined content sys.fs) {path : NgxStr}
    {fi : FileInfo} (hinfo : sys.fs.fileInfo path = some fi) (pool : PoolId) :
    htaccessParseFile sys pool path =
      parseContent sys content pool path fi.mtime fi.size := by
  have hopen : sys.fs.openFile path = FileSystem.openFile
      { fileInfo := fun _ => none, openFile := fun path => content path fi.mtime fi.size } path :=
    hfs path fi hinfo
  rw [parseContent, ← htaccessParseFile_withFs sys hopen]
  rfl

theorem missWorker_faithful (hfs : Determined content sys.fs) (conf : LocConf)
    (path : NgxStr) {w : Worker} (h : CacheFaithful content w) :
    CacheFaithful content (missWorker sys conf w path) := by
  have hmissed := missWorker_spec sys conf path h.wf
  refine ⟨hmissed.wf, fun e he => ?_⟩
  rcases hmissed.entries e he with hold | ⟨habsent, _⟩ | ⟨fi, hinfo, hok, rfl⟩
  · exact h.entries e hold
  · intro hfalse
    rw [habsent] at hfalse
    cases hfalse
  · have hread := htaccessParseFile_of_info content sys hfs hinfo w.nextPool
    refine fun _ => ⟨sys, w.nextPool, ?_⟩
    rw [← hread, ← hok]

theorem loadLookup_faithful (sys' : Sys) (conf : LocConf) (path : NgxStr) {w : Worker}
    (h : CacheFaithful content w) :
    CacheFaithful content (loadLookup sys' conf w path).2 := by
  obtain ⟨hwf, hmem, _⟩ := htaccessCacheLookup_worker sys' (loadStart sys' conf w path) path
    conf.cacheEnable h.wf
  exact ⟨hwf, fun e he => h.entries e (hmem e he)⟩

theorem htaccessLoadFile_faithful (hfs : Determined content sys.fs) (conf : LocConf)
    (path : NgxStr) {w : Worker} (h : CacheFaithful content w) :
    CacheFaithful content (htaccessLoadFile sys conf w path).2.2 := by
  have hlookup := loadLookup_faithful content sys conf path h
  rw [htaccessLoadFile_eq]
  split
  · rename_i e w' heq
    rw [heq] at hlookup
    split <;> exact hlookup
  · rename_i w' heq
    rw [heq] at hlookup
    exact missWorker_faithful content sys hfs conf path hlookup

variable {content sys} in
/-- An answer from a fresh entry is what reading the file would yield, in some memory. -/
theorem readFile_of_fresh (hfs : Determined content sys.fs) {e : CacheEntry}
    (he : EntryFaithful content e) (hfresh : e.fresh (sys.fs.fileInfo e.path) = true) :
    ∃ sys' pool, sys'.fs = sys.fs ∧ readFile sys' pool e.path =
      if e.absent then (ngxDeclined, none) else (ngxOk, e.parsed) := by
  unfold CacheEntry.fresh at hfresh
  unfold readFile
  cases hinfo : sys.fs.fileInfo e.path with
  | none =>
      rw [hinfo] at hfresh
      refine ⟨sys, 0, rfl, ?_⟩
      simp only [hinfo, hfresh, if_true]
  | some fi =>
      simp only [hinfo, Bool.and_eq_true, Bool.not_eq_true', decide_eq_true_eq] at hfresh
      obtain ⟨⟨hthere, hmtime⟩, hsize⟩ := hfresh
      obtain ⟨sys', pool, hparsed⟩ := he hthere
      have hparse := htaccessParseFile_of_info content (sys'.withFs sys.fs) hfs hinfo pool
      rw [hmtime, hsize] at hparsed
      refine ⟨sys'.withFs sys.fs, pool, rfl, ?_⟩
      simp only [show (sys'.withFs sys.fs).fs.fileInfo e.path = some fi from hinfo,
        hparse.trans hparsed, hthere, ne_eq, not_true_eq_false, if_false, Bool.false_eq_true]

theorem htaccessLoadFile_reads (hfs : Determined content sys.fs)
    (conf : LocConf) (path : NgxStr) {w : Worker} (h : CacheFaithful content w) :
    ∃ sys' pool, sys'.fs = sys.fs ∧ readFile sys' pool path =
      ((htaccessLoadFile sys conf w path).1, (htaccessLoadFile sys conf w path).2.1) := by
  rw [htaccessLoadFile_eq]
  cases hlookup : loadLookup sys conf w path with
  | mk found w' =>
      cases found with
      | none => exact ⟨sys, w'.nextPool, rfl, rfl⟩
      | some e =>
          rw [loadLookup] at hlookup
          obtain ⟨_, hmem, hpath, hfresh⟩ := htaccessCacheLookup_some sys
            (loadStart sys conf w path) path conf.cacheEnable (by rw [hlookup])
          rw [← hpath] at hfresh ⊢
          obtain ⟨sys', pool, hsame, hread⟩ := readFile_of_fresh hfs (h.entries e hmem) hfresh
          refine ⟨sys', pool, hsame, hread.trans ?_⟩
          simp only
          split <;> rfl

/-- So it yields the same in any memory, if the lines of the file have their arguments. -/
theorem htaccessLoadFile_of_faithful (hfs : Determined content sys.fs)
    {path : NgxStr} (hgiven : FileGiven (sys.fs.openFile path)) (conf : LocConf) {w : Worker}
    (h : CacheFaithful content w) (pool : PoolId) :
    (htaccessLoadFile sys conf w path).1 = (readFile sys pool path).1 ∧
      (htaccessLoadFile sys conf w path).2.1.map (ParsedFile.inPool pool) =
        (readFile sys pool path).2 := by
  obtain ⟨sys', pool', hsame, hread⟩ := htaccessLoadFile_reads content sys hfs conf path h
  have hmoved := readFile_inPool hsame.symm (fun _ _ => hsame ▸ hgiven) pool' pool
  rw [hmoved, hread]
  exact ⟨rfl, rfl⟩

end

/-- A call of `htaccess_load_file` in a history: the files as it finds them, the
location it is for, and its path. -/
structure HistoryCall where
  fs : FileSystem
  conf : LocConf
  path : NgxStr

def HistoryCall.load (sys : Sys) (call : HistoryCall) (cacheEnable : Bool) (w : Worker) :
    Int × Option ParsedFile × Worker :=
  htaccessLoadFile (sys.withFs call.fs) { call.conf with cacheEnable } w call.path

def runHistory (sys : Sys) (w : Worker) (calls : List HistoryCall) : Worker :=
  calls.foldl (fun w call => (call.load sys call.conf.cacheEnable w).2.2) w

theorem runHistory_faithful (sys : Sys) (content : Content) (calls : List HistoryCall)
    (hcalls : ∀ call ∈ calls, Determined content call.fs) {w : Worker}
    (h : CacheFaithful content w) : CacheFaithful content (runHistory sys w calls) := by
  induction calls generalizing w with
  | nil => exact h
  | cons call calls ih =>
      refine ih (fun c hc => hcalls c (List.mem_cons_of_mem _ hc)) ?_
      exact htaccessLoadFile_faithful content (sys.withFs call.fs) (hcalls call List.mem_cons_self)
        _ _ h

/-- After any history of calls from an empty cache, a call with the cache returns the code that
the call without it would, and with `NGX_OK` the same directives, wherever their strings live, if
the lines of the file that the call finds have their arguments. -/
theorem cache_transparent (sys : Sys) (content : Content) (maxEntries : Nat) (w : Worker)
    (hinit : w.cache = htaccessCacheInit maxEntries) (calls : List HistoryCall)
    (call : HistoryCall) (hcalls : ∀ c ∈ calls ++ [call], Determined content c.fs)
    (hgiven : FileGiven (call.fs.openFile call.path)) :
    let before := runHistory sys w calls
    (call.load sys true before).1 = (call.load sys false before).1 ∧
      ((call.load sys true before).1 = ngxOk →
        ((call.load sys true before).2.1.map (ParsedFile.inPool 0)).map (·.directives) =
          ((call.load sys false before).2.1.map (ParsedFile.inPool 0)).map (·.directives)) := by
  intro before
  have hempty : CacheFaithful content w := by
    refine ⟨hinit ▸ wf_htaccessCacheInit maxEntries, fun e he => ?_⟩
    rw [hinit] at he
    cases he
  have hbefore : CacheFaithful content before :=
    runHistory_faithful sys content calls (fun c hc => hcalls c (List.mem_append_left _ hc)) hempty
  have hcall : Determined content call.fs := hcalls call (by simp)
  have hload : ∀ cacheEnable,
      (call.load sys cacheEnable before).1 = (readFile (sys.withFs call.fs) 0 call.path).1 ∧
        (call.load sys cacheEnable before).2.1.map (ParsedFile.inPool 0) =
          (readFile (sys.withFs call.fs) 0 call.path).2 :=
    fun _ => htaccessLoadFile_of_faithful content (sys.withFs call.fs) hcall hgiven _ hbefore 0
  refine ⟨(hload true).1.trans (hload false).1.symm, fun _ => ?_⟩
  rw [(hload true).2, (hload false).2]

theorem determined_siteFs (files : Int → List (String × String)) (mtime : Int) :
    Determined (fun path mtime _ => (siteFs mtime (files mtime)).openFile path)
      (siteFs mtime (files mtime)) := by
  intro path fi hinfo
  obtain ⟨text, _, rfl⟩ := Option.map_eq_some_iff.mp hinfo
  rfl

theorem fileGiven_siteFs {files : List (String × String)} {mtime : Int}
    (h : ∀ f ∈ files, ArgsGiven (lexedText (lit f.2)).1) (path : NgxStr) :
    FileGiven ((siteFs mtime files).openFile path) := by
  intro file hfile text htext _ _
  obtain ⟨s, hs, rfl⟩ := Option.map_eq_some_iff.mp hfile
  obtain ⟨f, hf, rfl⟩ := Option.map_eq_some_iff.mp hs
  cases htext
  exact h f (List.mem_of_find?_eq_some hf)

/-- A file that is created, changed and changed back between loads through a cache
of one entry. A version in between has a line without its argument. -/
theorem cache_transparent_changing :
    let sys := siteSys (siteFs 0 [])
    let files (mtime : Int) : List (String × String) :=
      if mtime = 0 then []
      else if mtime = 1 then [("/w/.htaccess", "AuthName top\nHeader set X-A a\n")]
      else [("/w/.htaccess", "Require\n")]
    let call (mtime : Int) : HistoryCall :=
      ⟨siteFs mtime (files mtime), siteConf 10, lit "/w/.htaccess"⟩
    let before := runHistory sys (siteWorker 1) [call 0, call 1, call 2]
    ((call 1).load sys true before).1 = ((call 1).load sys false before).1 ∧
      (((call 1).load sys true before).1 = ngxOk →
        (((call 1).load sys true before).2.1.map (ParsedFile.inPool 0)).map (·.directives) =
          (((call 1).load sys false before).2.1.map (ParsedFile.inPool 0)).map
            (·.directives)) := by
  intro sys files call
  refine cache_transparent sys (fun path mtime _ => (siteFs mtime (files mtime)).openFile path) 1
    (siteWorker 1) rfl [call 0, call 1, call 2] (call 1) ?_ ?_
  · intro c hc
    simp only [List.cons_append, List.nil_append, List.mem_cons, List.not_mem_nil, or_false] at hc
    rcases hc with rfl | rfl | rfl | rfl
    · exact determined_siteFs files 0
    · exact determined_siteFs files 1
    · exact determined_siteFs files 2
    · exact determined_siteFs files 1
  · refine fileGiven_siteFs (fun f hf => ?_) _
    rw [List.mem_singleton.mp (show f ∈ [("/w/.htaccess", _)] from hf)]
    unfold ArgsGiven
    decide +kernel

/-- Memory in which an argument that a line does not have reads as `on` in the first pool and
as `off` in the later ones. -/
def reusedMemory (sys : Sys) : Sys :=
  { sys with staleArg := fun pool _ _ => if pool = 0 then lit "on" else lit "off" }

/-- The file has one line, a `RewriteEngine` without its argument, and never changes. The cache
keeps the switch that the first parse found in its pool; a load without the cache finds another. -/
theorem lone_directive_reparsed :
    let sys := reusedMemory (siteSys (siteFs 0 []))
    let files : List (String × String) := [("/w/.htaccess", "RewriteEngine\n")]
    let call : HistoryCall := ⟨siteFs 0 files, siteConf 10, lit "/w/.htaccess"⟩
    let before := runHistory sys (siteWorker 0) [call]
    Determined (fun path _ _ => (siteFs 0 files).openFile path) call.fs ∧
      (call.load sys true before).1 = ngxOk ∧
      ((call.load sys true before).2.1.map (ParsedFile.inPool 0)).map (·.directives) ≠
        ((call.load sys false before).2.1.map (ParsedFile.inPool 0)).map (·.directives) := by
  intro sys files call before
  refine ⟨determined_siteFs (fun _ => files) 0, ?_⟩
  decide +kernel

end NgxHtaccess
