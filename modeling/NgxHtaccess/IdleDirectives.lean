import NgxHtaccess.AlikeLists
import NgxHtaccess.Stateless

/-!
Directives that a server can do without.

`AuthType`, `Options`, `DirectoryIndex`, `ExpiresDefault`, an `Allow` or `Deny` of
anything but `all`, a `Header` with an action other than `set`, an `ErrorDocument` of a
code that is never looked up and a FilesMatch block that does not deny are idle. Two
servers whose files differ in idle directives answer alike.
-/
namespace NgxHtaccess
open BoundedLoop

/-- The effective directives of the file at a path, when it can be read and parsed. -/
def readEffective (sys : Sys) (path : NgxStr) : Option (List Directive) :=
  match readFile sys 0 path with
  | (rc, parsed) =>
      if rc ≠ ngxOk then none
      else some (effectiveDirectives ((parsed.map (·.directives)).getD []))

section
variable (sys : Sys) (fs' : FileSystem) (conf : LocConf)

/-- The files differ in idle directives only, and not in what is asked of them beside their
directives. -/
structure IdleChange : Prop where
  kinds : KindsAlike sys.fs fs'
  files : ∀ path, readEffective sys path = readEffective (sys.withFs fs') path
  passwords : ∀ uri, SamePasswords sys fs' (diskCtx sys conf uri)

theorem diskFile_effective (d : WalkDir) :
    (diskFile sys d).map ChainFile.effective =
      (readEffective sys d.path).map fun directives => { dir := d, directives } := by
  unfold diskFile readEffective
  generalize readFile sys 0 d.path = onDisk
  obtain ⟨rc, parsed⟩ := onDisk
  simp only
  split <;> rfl

variable {sys fs' conf} (h : IdleChange sys fs' conf)
include h

theorem IdleChange.chain (uri : NgxStr) :
    (diskChain (sys.withFs fs') conf uri).map ChainFile.effective =
      (diskChain sys conf uri).map ChainFile.effective := by
  unfold diskChain
  rw [List.map_filterMap, List.map_filterMap]
  refine congrArg (List.filterMap · _) (funext fun d => ?_)
  rw [diskFile_effective, diskFile_effective, h.files]

theorem IdleChange.ctx (uri : NgxStr) :
    (diskCtx (sys.withFs fs') conf uri).effective =
      (diskCtx sys conf uri).effective := by
  unfold diskCtx
  rw [← effective_mergeChain, h.chain, effective_mergeChain]

omit h in
theorem SameView.refl (inert : FilesRule → Bool) (m : MergedCtx) : SameView inert m m :=
  ⟨rfl, List.forall₂_same.mpr fun _ _ => ⟨rfl, rfl, rfl, rfl, rfl⟩, rfl⟩

omit h in
variable (sys) in
theorem inertOn_none (uri : NgxStr) : InertOn sys (fun _ => false) uri :=
  fun _ hrule => Bool.noConfusion hrule

theorem IdleChange.onCtx (requestUri uri : NgxStr) (s : SpecState) :
    specifiedOn (sys.withFs fs') conf requestUri (diskCtx sys conf uri) s =
      specifiedOn sys conf requestUri (diskCtx sys conf uri) s := by
  have hview := SameView.refl (fun _ => false) (diskCtx sys conf uri)
  have haccess : ∀ r state,
      specifiedAccess (sys.withFs fs') (diskCtx sys conf uri) r state =
        specifiedAccess sys (diskCtx sys conf uri) r state := by
    intro r state
    rw [specifiedAccess, htaccessApplyAuth_sameView sys fs' hview (h.passwords uri)
      (inertOn_none sys r.uri)]
    rfl
  rw [specifiedOn, htaccessApplyFilesDeny_sameView sys fs' hview (inertOn_none sys requestUri),
    htaccessApplyAlias_sameView sys fs' hview, htaccessApplyRewrite_sameView sys h.kinds conf hview]
  simp only [haccess]
  rfl

theorem IdleChange.pass (requestUri : NgxStr) (s : SpecState) :
    SameRound (specifiedPass sys conf requestUri s)
      (specifiedPass (sys.withFs fs') conf requestUri s) := by
  have hsame := specifiedOn_of_effective (sys.withFs fs') conf requestUri (h.ctx s.r.uri).symm s
  rw [h.onCtx] at hsame
  exact hsame

/-- A request is answered as before. -/
theorem IdleChange.answers (r : Request) :
    SameAnswer (specified sys conf r) (specified (sys.withFs fs') conf r) := by
  refine run_rel (fun s s' hs => ?_) (fun s s' _ hs => ?_) rfl
  · obtain rfl : s = s' := hs
    rfl
  · obtain rfl : s = s' := hs
    exact h.pass r.uri s

end

structure IdleCall (call call' : HandlerCall) : Prop where
  sys : call'.sys = call.sys.withFs call'.sys.fs
  conf : call'.conf = call.conf
  r : call'.r = call.r
  change : IdleChange call.sys call'.sys.fs call.conf

theorem IdleCall.outcome {call call' : HandlerCall} (h : IdleCall call call') :
    call.outcome = call'.outcome := by
  have hanswer : (specified call.sys call.conf call.r).withoutPools =
      (specified call'.sys call.conf call.r).withoutPools := h.sys ▸ h.change.answers call.r
  unfold HandlerCall.outcome
  rw [h.conf, h.r]
  split
  · rfl
  · have hrc := congrArg Answer.rc hanswer
    have hr := congrArg Answer.r hanswer
    exact Prod.ext hrc hr

def idleCall (text uri : String) : HandlerCall where
  sys := siteSys (siteFs 0 [("/w/.htaccess", text)])
  conf := siteConf 10
  request := 0
  r := siteRequest uri

def idleSteps (text : String) : List HostStep :=
  [.handle (idleCall text "/x"), .handle (idleCall text "/no")]

theorem safeHost_idle {text : String} {maxEntries : Nat}
    (hsafe : SafeLoads maxEntries [] (idleSteps text))
    (hgiven : ArgsGiven (lexedText (lit text)).1) :
    SafeHost (siteContent [("/w/.htaccess", text)]) maxEntries [] (idleSteps text) := by
  refine safeHost_site hsafe ?_ fun f hf => (List.mem_singleton.mp hf).symm ▸ hgiven
  simp [hostCalls, HostStep.call, idleSteps, idleCall, siteSys]

end NgxHtaccess
