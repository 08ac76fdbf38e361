import NgxHtaccess.Lib.Components
import NgxHtaccess.Lib.Inheritance
import NgxHtaccess.Stateless

/-!
`ngx_http_htaccess_module.c`: the settings of nested blocks and the worker processes.

A server handles a request in one of several worker processes, each with a cache of its
own that starts empty with the process. Whichever process a request comes to, it is
answered as the files and the innermost settings around its location have it.
-/
namespace NgxHtaccess
open Inheritance Monitor

section Settings

/-- The fields of `ngx_http_htaccess_loc_conf_t`; one that is unset is `none`. -/
structure LocSettings where
  enable : Option Bool
  filename : Option NgxStr
  cacheEnable : Option Bool
  maxRedirects : Option Nat

structure MainConf where
  cacheMaxEntries : Nat

/-- `ngx_conf_merge_value`, and its kin for strings and unsigned numbers. -/
def ngxConfMergeValue {α : Type} (conf prev : Option α) (default : α) : Option α :=
  match conf with
  | some value => some value
  | none =>
      match prev with
      | some value => some value
      | none => some default

def ngxHttpHtaccessMergeLocConf (prev conf : LocSettings) : LocSettings where
  enable := ngxConfMergeValue conf.enable prev.enable false
  filename := ngxConfMergeValue conf.filename prev.filename (lit ".htaccess")
  cacheEnable := ngxConfMergeValue conf.cacheEnable prev.cacheEnable true
  maxRedirects := ngxConfMergeValue conf.maxRedirects prev.maxRedirects htaccessMaxRedirectsDefault

structure LocSettings.AllSet (s : LocSettings) : Prop where
  enable : s.enable.isSome
  filename : s.filename.isSome
  cacheEnable : s.cacheEnable.isSome
  maxRedirects : s.maxRedirects.isSome

/-- What the handler reads of merged settings, with the root of the location. -/
def LocSettings.read (s : LocSettings) (h : s.AllSet) (root : NgxStr) : LocConf where
  enable := s.enable.get h.enable
  filename := s.filename.get h.filename
  cacheEnable := s.cacheEnable.get h.cacheEnable
  maxRedirects := s.maxRedirects.get h.maxRedirects
  root := root

/-- The blocks around a location: the main one, its server and the locations from the
outermost in. -/
structure Blocks where
  main : LocSettings
  server : LocSettings
  locations : List LocSettings
  root : NgxStr

def Blocks.all (b : Blocks) : List LocSettings := b.main :: b.server :: b.locations

/-- Every block is merged into the ones in it before they are. -/
def Blocks.merged (b : Blocks) : LocSettings :=
  (b.server :: b.locations).foldl ngxHttpHtaccessMergeLocConf b.main

theorem ngxConfMergeValue_eq {α : Type} (conf prev : Option α) (default : α) :
    ngxConfMergeValue conf prev default = merge default prev conf := by
  cases conf <;> cases prev <;> rfl

theorem allSet_ngxHttpHtaccessMergeLocConf (prev conf : LocSettings) :
    (ngxHttpHtaccessMergeLocConf prev conf).AllSet := by
  have hset : ∀ {α : Type} (conf prev : Option α) (default : α),
      (ngxConfMergeValue conf prev default).isSome := by
    intro α conf prev default
    rw [ngxConfMergeValue_eq]
    rfl
  exact ⟨hset _ _ _, hset _ _ _, hset _ _ _, hset _ _ _⟩

theorem Blocks.allSet (b : Blocks) : b.merged.AllSet := by
  rw [Blocks.merged]
  have hlast := List.dropLast_concat_getLast (List.cons_ne_nil b.server b.locations)
  rw [← hlast, List.foldl_append]
  exact allSet_ngxHttpHtaccessMergeLocConf _ _

/-- `ngx_http_get_module_loc_conf` of a request to the location. -/
def Blocks.locConf (b : Blocks) : LocConf := b.merged.read b.allSet b.root

/-- What is in force at the location: of every setting the innermost, or its default. -/
def Blocks.inForce (b : Blocks) : LocConf where
  enable := (nearest (b.all.map (·.enable))).getD false
  filename := (nearest (b.all.map (·.filename))).getD (lit ".htaccess")
  cacheEnable := (nearest (b.all.map (·.cacheEnable))).getD true
  maxRedirects := (nearest (b.all.map (·.maxRedirects))).getD htaccessMaxRedirectsDefault
  root := b.root

theorem Blocks.locConf_eq_inForce (b : Blocks) : b.locConf = b.inForce := by
  have hfield : ∀ {α : Type} (field : LocSettings → Option α) (default : α)
      (_ : ∀ outer inner, field (ngxHttpHtaccessMergeLocConf outer inner) =
        merge default (field outer) (field inner)) (hset : (field b.merged).isSome),
      (field b.merged).get hset = (nearest (b.all.map field)).getD default := by
    intro α field default hmerge hset
    exact (Option.get_eq_getD _).trans (field_foldl_merge hmerge b.main (b.server :: b.locations))
  unfold Blocks.locConf LocSettings.read Blocks.inForce
  rw [hfield (·.enable) false fun _ _ => ngxConfMergeValue_eq _ _ _,
    hfield (·.filename) (lit ".htaccess") fun _ _ => ngxConfMergeValue_eq _ _ _,
    hfield (·.cacheEnable) true fun _ _ => ngxConfMergeValue_eq _ _ _,
    hfield (·.maxRedirects) htaccessMaxRedirectsDefault fun _ _ => ngxConfMergeValue_eq _ _ _]

end Settings

section Workers

/-- `ngx_http_htaccess_init_process`, in a process whose main settings are there or not. -/
def ngxHttpHtaccessInitProcess (main : Option MainConf) (w : Worker) : Worker :=
  let max := match main with
    | some main => main.cacheMaxEntries
    | none => htaccessCacheMaxDefault
  { w with cache := htaccessCacheInit max }

/-- A request to a location, and files and memory as its run finds them. -/
structure LocationCall where
  blocks : Blocks
  sys : Sys
  request : Nat
  r : Request

/-- The run of the handler with the settings that it is given. -/
def LocationCall.handled (call : LocationCall) : HandlerCall :=
  ⟨call.sys, call.blocks.locConf, call.request, call.r⟩

/-- The run of the handler with the settings that are in force. -/
def LocationCall.specified (call : LocationCall) : HandlerCall :=
  ⟨call.sys, call.blocks.inForce, call.request, call.r⟩

theorem LocationCall.handled_eq_specified (call : LocationCall) :
    call.handled = call.specified := by
  rw [LocationCall.handled, call.blocks.locConf_eq_inForce]
  rfl

/-- What can happen to a worker process: one starts in its place after a reload or a crash, it
is handed a request, or a response of it is complete. -/
inductive ProcessEvent where
  | initProcess (main : Option MainConf)
  | handle (call : LocationCall)
  | complete (request : Nat)

def processStep (w : Worker) : ProcessEvent → Worker
  -- a new process has no pools and no history
  | .initProcess main => ngxHttpHtaccessInitProcess main { w with nextPool := 0, log := [] }
  | .handle call => (call.handled.run w).2.2
  | .complete request => w.emit (.complete request)

/-- The answer to an event, as long as the process destroys no pool that a live request refers
to. -/
def processAnswer (w : Worker) : ProcessEvent → Option (Int × Request)
  | .handle call =>
      let out := call.handled.run w
      if NoneFreedInUse out.2.2 then some (out.1, out.2.1.withoutPools) else none
  | _ => none

def ProcessEvent.answer : ProcessEvent → Option (Int × Request)
  | .handle call => some call.specified.outcome
  | _ => none

def ProcessEvent.Regular (content : Content) : ProcessEvent → Prop
  | .handle call => call.specified.Regular content
  | _ => True

/-- No load of the process, the event's included, has to evict a pool that a live request
refers to. -/
def SafeEvent (w : Worker) (e : ProcessEvent) : Prop :=
  Accepts LiveRefs.next VictimsUnheld .none (processStep w e).log

instance (w : Worker) (e : ProcessEvent) : Decidable (SafeEvent w e) :=
  inferInstanceAs (Decidable (Accepts ..))

structure ProcessOk (content : Content) (w : Worker) : Prop where
  faithful : CacheFaithful content w
  started : ∃ maxEntries, ∃ entryAllocs, Follows (startWorker maxEntries entryAllocs) w

variable {content : Content} {w : Worker} {e : ProcessEvent}

theorem processOk_start (maxEntries : Nat) (entryAllocs : List Bool) :
    ProcessOk content (startWorker maxEntries entryAllocs) where
  faithful := cacheFaithful_start content maxEntries entryAllocs
  started := ⟨maxEntries, entryAllocs, .refl (cacheOwned_start maxEntries entryAllocs)⟩

theorem ProcessOk.step (h : ProcessOk content w) (he : e.Regular content) :
    ProcessOk content (processStep w e) := by
  obtain ⟨maxEntries, entryAllocs, hw⟩ := h.started
  cases e with
  | initProcess main => exact processOk_start _ w.entryAllocs
  | complete request => exact ⟨h.faithful.emit _, maxEntries, entryAllocs, hw.emit trivial⟩
  | handle call =>
      have hcall : call.handled.Regular content := call.handled_eq_specified ▸ he
      exact ⟨(HandlerCall.run_outcome h.faithful hcall).2, maxEntries, entryAllocs,
        hw.trans (ngxHttpHtaccessHandler_follows _ _ _ _ hw.owned)⟩

theorem ProcessOk.answer (h : ProcessOk content w) (he : e.Regular content)
    (hsafe : SafeEvent w e) : processAnswer w e = e.answer := by
  cases e with
  | initProcess main => rfl
  | complete request => rfl
  | handle call =>
      obtain ⟨maxEntries, entryAllocs, hw⟩ := (h.step he).started
      have hfree : NoneFreedInUse (call.handled.run w).2.2 := hw.accepts_iff.mpr hsafe
      have hcall : call.handled.Regular content := call.handled_eq_specified ▸ he
      refine (if_pos hfree).trans (congrArg some ?_)
      exact (HandlerCall.run_outcome h.faithful hcall).1.trans
        (congrArg HandlerCall.outcome call.handled_eq_specified)

variable {ι : Type} [DecidableEq ι]

end Workers

end NgxHtaccess
