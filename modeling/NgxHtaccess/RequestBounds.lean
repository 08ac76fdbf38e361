import NgxHtaccess.CacheContents
import NgxHtaccess.DirectoryChain
import NgxHtaccess.Expansion
import NgxHtaccess.ReachedUris

/-!
What a request can cost.

The buffer of an expansion depends on the template alone, so the URIs of a run are no
longer than the request has it or the files allow, however often rules are applied to what
other rules have written. That bounds the directories that its passes walk.
-/
namespace NgxHtaccess
open BoundedLoop

section Target
variable {sys : Sys} {conf : LocConf}

theorem htaccessExpand_length {r : Request} {state : RequestState} {m : Option MatchCtx}
    {tpl out : NgxStr} (h : htaccessExpand sys r state tpl m = some out) :
    out.length ≤ expandLimit tpl := by
  rw [htaccessExpand_eq] at h
  split at h
  · rename_i hfits
    cases h
    exact hfits.2
  · cases h

theorem ruleTarget_length {dir : DirCtx} {rule : RewriteRule} {s : RewriteState} {m : MatchCtx}
    {sub : NgxStr} (hsub : sub.length ≤ expandLimit rule.substitution)
    (hdash : rule.substitution ≠ lit "-") :
    (ruleTarget sys dir rule s m sub).length ≤
      (dir.rewriteBase.length + rule.substitution.length) * 4 + 256 := by
  have hlimit : expandLimit rule.substitution ≤
      (dir.rewriteBase.length + rule.substitution.length) * 4 + 256 :=
    Nat.add_le_add_right (Nat.mul_le_mul_right 4 (Nat.le_add_left _ _)) 256
  have hout : (htaccessApplySubstitution rule m.subject dir.rewriteBase).length ≤
      dir.rewriteBase.length + rule.substitution.length := by
    unfold htaccessApplySubstitution
    rw [if_neg hdash]
    split
    · exact Nat.le_add_left _ _
    · split
      · exact Nat.le_add_left _ _
      · rw [List.length_append]
  unfold ruleTarget
  split
  · simp only
    cases hexpand : htaccessExpand sys s.r s.state
      (htaccessApplySubstitution rule m.subject dir.rewriteBase) (some m) with
    | none =>
        rw [Option.getD_none]
        omega
    | some out =>
        have hlength := htaccessExpand_length hexpand
        rw [expandLimit] at hlength
        rw [Option.getD_some]
        omega
  · exact hsub.trans hlimit

theorem writtenTarget_length {dir : DirCtx} {rule : RewriteRule} {s : RewriteState} {out : NgxStr}
    (h : writtenTarget sys conf dir rule s = some out) :
    out.length ≤ (dir.rewriteBase.length + rule.substitution.length) * 4 + 256 := by
  obtain ⟨m, _, htarget⟩ := Option.bind_eq_some_iff.mp h
  split at htarget
  · cases htarget
  · rename_i hwrites
    obtain ⟨sub, hexpand, rfl⟩ := Option.map_eq_some_iff.mp htarget
    refine ruleTarget_length (htaccessExpand_length hexpand) fun hdash => hwrites ?_
    rw [RewriteRule.writesNothing, decide_eq_true hdash]
    rfl

theorem targetUri_length (target : NgxStr) : (targetUri target).length ≤ target.length + 1 := by
  have hpath : (target.takeWhile (· ≠ ch '?')).length ≤ target.length :=
    (List.takeWhile_prefix _).length_le
  rw [targetUri_eq]
  split
  · rw [List.length_cons]
    exact Nat.succ_le_succ hpath
  · exact hpath.trans (Nat.le_succ _)

theorem mem_scannedRules {dirs : List DirCtx} {x : DirCtx × RewriteRule}
    (h : x ∈ scannedRules dirs) : x.1 ∈ dirs ∧ x.2 ∈ x.1.rules := by
  obtain ⟨dir, hdir, hx⟩ := List.mem_flatMap.mp h
  split at hx
  · obtain ⟨rule, hrule, rfl⟩ := List.mem_map.mp hx
    exact ⟨hdir, hrule⟩
  · cases hx

end Target

section Files

/-- The string that a directive can put into a URI. -/
def Directive.uriText (d : Directive) : NgxStr :=
  match d.u with
  | .rewriteBase str => str
  | .rewriteRule rule => rule.substitution
  | .errorDocument doc => doc.uri
  | _ => []

structure DirCtx.Within (L : Nat) (dir : DirCtx) : Prop where
  base : dir.rewriteBase.length ≤ L
  directives : ∀ d ∈ dir.directives.getD [], d.uriText.length ≤ L

theorem DirCtx.Within.rule {L : Nat} {dir : DirCtx} (h : dir.Within L) {rule : RewriteRule}
    (hrule : rule ∈ dir.rules) : rule.substitution.length ≤ L := by
  obtain ⟨d, hd, hrule⟩ := List.mem_filterMap.mp hrule
  have hwithin := h.directives d hd
  obtain ⟨scope, u⟩ := d
  cases u <;> cases hrule
  exact hwithin

/-- The longest URI that the files can make. -/
def uriLimit (L : Nat) : Nat := L * 8 + 257

variable {L : Nat}

theorem markChains_within {chained : Bool} {ds : List Directive}
    (h : ∀ d ∈ ds, d.uriText.length ≤ L) : ∀ d ∈ markChains chained ds, d.uriText.length ≤ L := by
  induction ds generalizing chained with
  | nil => exact fun d hd => by cases hd
  | cons d ds ih =>
      have hhead := h d List.mem_cons_self
      have hrest : ∀ e ∈ ds, e.uriText.length ≤ L := fun e he => h e (List.mem_cons_of_mem d he)
      intro e he
      rw [markChains] at he
      split at he
      · rename_i rule hrule
        rcases List.mem_cons.mp he with rfl | he
        · rw [Directive.uriText, hrule] at hhead
          exact hhead
        · exact ih hrest e he
      · rcases List.mem_cons.mp he with rfl | he
        · exact hhead
        · exact ih hrest e he

theorem mergeLocal_within {dir : DirCtx} (h : dir.Within L) {d : Directive}
    (hd : d.uriText.length ≤ L) : (mergeLocal dir d).Within L := by
  have hpush : ∀ e ∈ dir.directives.getD [] ++ [d], e.uriText.length ≤ L := by
    intro e he
    rcases List.mem_append.mp he with he | he
    · exact h.directives e he
    · rwa [List.mem_singleton.mp he]
  obtain ⟨scope, u⟩ := d
  cases u with
  | rewriteBase str => exact ⟨hd, h.directives⟩
  | rewriteEngine flag => exact ⟨h.base, h.directives⟩
  | rewriteRule rule => exact ⟨h.base, markChains_within hpush⟩
  | redirect _ | redirectMatch _ | redirectPermanent _ | redirectTemp _ => exact ⟨h.base, hpush⟩
  | require str =>
      simp only [mergeLocal, htaccessMergeDirective]
      split <;> exact h
  | _ => exact h

theorem dirCtx_within (hL : 1 ≤ L) {f : ChainFile} (h : ∀ d ∈ f.directives, d.uriText.length ≤ L) :
    f.dirCtx.Within L := by
  have hfold : ∀ (ds : List Directive) (dir : DirCtx), (∀ d ∈ ds, d.uriText.length ≤ L) →
      dir.Within L → (ds.foldl mergeLocal dir).Within L := by
    intro ds
    induction ds with
    | nil => exact fun _ _ hdir => hdir
    | cons d ds ih =>
        exact fun dir hds hdir => ih _ (fun e he => hds e (List.mem_cons_of_mem d he))
          (mergeLocal_within hdir (hds d List.mem_cons_self))
  exact hfold f.directives _ h ⟨hL, fun d hd => by cases hd⟩

/-- Every file that can be parsed keeps to the limit. -/
def FilesWithin (sys : Sys) (L : Nat) : Prop :=
  ∀ path parsed, htaccessParseFile sys 0 path = (ngxOk, some parsed) →
    ∀ d ∈ parsed.directives, d.uriText.length ≤ L

theorem FilesWithin.diskFile {sys : Sys} (h : FilesWithin sys L) {d : WalkDir} {f : ChainFile}
    (hload : diskFile sys d = some f) : ∀ e ∈ f.directives, e.uriText.length ≤ L := by
  have hread : ∀ parsed, readFile sys 0 d.path = (ngxOk, some parsed) →
      ∀ e ∈ parsed.directives, e.uriText.length ≤ L := by
    intro parsed hread
    refine h d.path parsed ?_
    unfold readFile at hread
    split at hread
    · cases hread
    · generalize htaccessParseFile sys 0 d.path = out at hread ⊢
      obtain ⟨rc, parsed'⟩ := out
      simp only at hread
      split at hread
      · cases hread
      · rename_i hrc
        rw [← (Prod.mk.inj hread).2, of_not_not hrc]
  unfold NgxHtaccess.diskFile at hload
  generalize readFile sys 0 d.path = out at hload hread
  obtain ⟨rc, parsed⟩ := out
  simp only at hload
  split at hload
  · cases hload
  · rename_i hrc
    cases hload
    cases parsed with
    | none => exact fun e he => by cases he
    | some parsed => exact hread parsed (by rw [of_not_not hrc])

theorem diskCtx_dirs_within {sys : Sys} {conf : LocConf} (hL : 1 ≤ L) (h : FilesWithin sys L)
    (uri : NgxStr) : ∀ dir ∈ (diskCtx sys conf uri).dirs, dir.Within L := by
  intro dir hdir
  rw [diskCtx, mergeChain_eq] at hdir
  obtain ⟨f, hf, rfl⟩ := List.mem_map.mp hdir
  obtain ⟨d, _, hload⟩ := List.mem_filterMap.mp hf
  exact dirCtx_within hL (h.diskFile hload)

theorem diskCtx_document_within {sys : Sys} {conf : LocConf} (h : FilesWithin sys L)
    (uri : NgxStr) : ∀ doc ∈ (diskCtx sys conf uri).errorDocuments.getD [],
      doc.uri.length ≤ L := by
  intro doc hdoc
  rw [diskCtx, mergeChain_errorDocuments, foldl_ngxArrayPush_getD, Option.getD_none,
    List.nil_append] at hdoc
  obtain ⟨d, hd, hdocOf⟩ := List.mem_filterMap.mp hdoc
  obtain ⟨f, hf, hd⟩ := List.mem_flatMap.mp hd
  obtain ⟨dir, _, hload⟩ := List.mem_filterMap.mp hf
  have hwithin := h.diskFile hload d hd
  obtain ⟨scope, u⟩ := d
  cases u <;> cases hdocOf
  exact hwithin

end Files

section Loads

theorem loads_passWorker (sys : Sys) (conf : LocConf) (s : LoopState) :
    (passWorker sys conf s).loads.length =
      s.worker.loads.length + (walkDirs conf s.r.uri).length := by
  have hcontext : (s.worker.emit .context).loads = s.worker.loads :=
    (loads_emit s.worker .context).trans (List.append_nil _)
  rw [passWorker, htaccessBuildMergedCtx, loads_walk, hcontext, List.length_append,
    List.length_map]

theorem loads_foldl_header (pools : List PoolId) (w : Worker) :
    (pools.foldl (fun w p => w.emit (.header p)) w).loads = w.loads := by
  induction pools generalizing w with
  | nil => rfl
  | cons pool pools ih =>
      exact (ih _).trans ((loads_emit w (.header pool)).trans (List.append_nil _))

theorem walkDirs_length (conf : LocConf) (uri : NgxStr) :
    (walkDirs conf uri).length ≤ max uri.length 1 := by
  rw [walkDirs, List.length_cons, List.length_map]
  cases uri with
  | nil => exact Nat.le_refl _
  | cons c uri =>
      -- the first byte is passed over
      have hrest := List.length_filter_le
        (fun i => 1 ≤ i && (c :: uri).getD i 0 = ch '/') ((List.range uri.length).map Nat.succ)
      rw [List.length_map, List.length_range] at hrest
      rw [List.length_cons, List.range_succ_eq_map]
      exact (Nat.succ_le_succ hrest).trans (le_max_left _ _)

end Loads

section Run
variable {sys : Sys} {content : Content} {conf : LocConf} (hfs : RegularFiles content sys conf)
  {r : Request} {w : Worker} (h : CacheFaithful content w) {L : Nat} (hL : 1 ≤ L)
  (hfiles : FilesWithin sys L)
include hfs h

theorem visits_faithful {requestUri : NgxStr} {n : Nat} {s : LoopState}
    (hvisit : Visits (htaccessPass sys conf requestUri) n (.initial conf r w) s) :
    CacheFaithful content s.worker :=
  invariant_of_visits (P := fun s : LoopState => CacheFaithful content s.worker)
    (fun _ _ hs hpass => worker_of_again hpass ▸ passWorker_faithful hfs hs) hvisit h

include hL hfiles

/-- No URI of a run is longer than the request has it or the files allow. -/
theorem reachesUri_length {uri : NgxStr} (hreaches : ReachesUri sys conf r w uri) :
    uri.length ≤ max r.uri.length (uriLimit L) := by
  have hctx : ∀ s, Visits (htaccessPass sys conf r.uri) conf.maxRedirects
      (.initial conf r w) s → (passCtx sys conf s).effective =
        (diskCtx sys conf s.r.uri).effective :=
    fun s hvisit => passCtx_effective hfs (visits_faithful hfs h hvisit)
  refine (reachesUri_iff (P := fun uri => uri.length ≤ max r.uri.length (uriLimit L))
    (le_max_left _ _) ?_).mpr ?_ uri hreaches
  · rintro s hvisit _ ⟨code, uri, _, hcode, hdoc⟩
    rw [← htaccessErrorUri_effective _ hcode, hctx s hvisit,
      htaccessErrorUri_effective _ hcode] at hdoc
    obtain ⟨doc, hfind, rfl⟩ := Option.map_eq_some_iff.mp hdoc
    have hdocument := diskCtx_document_within hfiles s.r.uri doc (List.mem_of_find?_eq_some hfind)
    refine (hdocument.trans ?_).trans (le_max_right _ _)
    rw [uriLimit]
    omega
  · intro s hvisit _ out hout
    obtain ⟨y, hy, htarget⟩ := List.mem_filterMap.mp hout
    obtain ⟨hdir, hrule⟩ := mem_scannedRules (Scan.mem_of_mem_trace hy)
    have hdirs : (passCtx sys conf s).dirs =
        (diskCtx sys conf s.r.uri).dirs :=
      (congrArg MergedCtx.dirs (hctx s hvisit) :)
    have hwithin := diskCtx_dirs_within hL hfiles s.r.uri _ (hdirs ▸ hdir)
    have hout := writtenTarget_length htarget
    have huri := targetUri_length out
    have hbase := hwithin.base
    have hsub := hwithin.rule hrule
    refine Nat.le_trans ?_ (le_max_right _ _)
    rw [uriLimit]
    omega

theorem loads_htaccessExecute :
    (htaccessExecute sys conf r w).worker.loads.length ≤
      w.loads.length + conf.maxRedirects * max r.uri.length (uriLimit L) := by
  have hpass : ∀ s, Visits (htaccessPass sys conf r.uri) conf.maxRedirects
      (.initial conf r w) s → (passWorker sys conf s).loads.length ≤
        s.worker.loads.length + max r.uri.length (uriLimit L) := by
    intro s hvisit
    have huri := reachesUri_length hfs h hL hfiles (.start s hvisit)
    have hone : 1 ≤ max r.uri.length (uriLimit L) :=
      le_trans (by rw [uriLimit]; omega) (le_max_right _ _)
    rw [loads_passWorker]
    exact Nat.add_le_add_left ((walkDirs_length conf s.r.uri).trans (max_le huri hone)) _
  refine @run_cost LoopState ExecResult (htaccessPass sys conf r.uri) LoopState.spent
    (·.worker.loads.length) (·.worker.loads.length) _ _ _ (fun s t hvisit hagain => ?_)
    (fun s out hvisit hstop => ?_) fun _ => rfl
  · rw [worker_of_again hagain]
    exact hpass s hvisit
  · obtain ⟨pools, hworker⟩ := worker_of_stop hstop
    rw [hworker, loads_foldl_header]
    exact hpass s hvisit

end Run

section Calls

/-- Whatever ran before, no URI of a run is longer than the request has it or the files allow,
the one that is handed on included, and the worker asks for no more files than the passes have
bytes of such a URI to walk along. -/
theorem request_within {content : Content} {maxEntries : Nat} {entryAllocs : List Bool}
    {before : List HostStep} {call : HandlerCall}
    (h : SafeHost content maxEntries entryAllocs (before ++ [.handle call])) {L : Nat}
    (hL : 1 ≤ L) (hfiles : FilesWithin call.sys L) :
    ∃ earlier, hostRun maxEntries entryAllocs before = some earlier ∧
      hostRun maxEntries entryAllocs (before ++ [.handle call]) = some {
        answers := earlier.answers ++
          [((call.run earlier.worker).1, (call.run earlier.worker).2.1.withoutPools)]
        worker := (call.run earlier.worker).2.2 } ∧
      let bound := max call.r.uri.length (uriLimit L)
      (∀ uri, ReachesUri call.sys call.conf call.r
          (earlier.worker.emit (.start call.request)) uri → uri.length ≤ bound) ∧
        ((call.run earlier.worker).1 = ngxDeclined →
          (call.run earlier.worker).2.1.uri.length ≤ bound) ∧
        (call.run earlier.worker).2.2.loads.length ≤
          earlier.worker.loads.length + call.conf.maxRedirects * bound := by
  have hregular : (∀ c ∈ hostCalls before, c.Regular content) ∧ call.Regular content := by
    have hall := h.regular
    rw [hostCalls, List.filterMap_append, List.forall_mem_append] at hall
    exact ⟨hall.1, hall.2 call (List.mem_singleton.mpr rfl)⟩
  have hfaithful := (runHost_faithful (cacheFaithful_start content maxEntries entryAllocs)
    hregular.1).emit (.start call.request)
  have hworker : runHost (startWorker maxEntries entryAllocs) (before ++ [.handle call]) =
      (call.run (runHost (startWorker maxEntries entryAllocs) before)).2.2 := List.foldl_append
  refine ⟨_, hostRun_of_safe h.safe.of_append, ?_, ?_⟩
  · rw [hostRun_of_safe h.safe, hostOutcomes_append, hworker]
    rfl
  simp only
  generalize runHost (startWorker maxEntries entryAllocs) before = worker at hfaithful
  have hreaches := fun uri => @reachesUri_length call.sys content call.conf hregular.2 call.r _
    hfaithful L hL hfiles uri
  have hloads := @loads_htaccessExecute call.sys content call.conf hregular.2 call.r _ hfaithful L
    hL hfiles
  refine ⟨hreaches, ?_⟩
  unfold HandlerCall.run ngxHttpHtaccessHandler
  split
  · exact ⟨fun _ => le_max_left _ _, Nat.le_add_right _ _⟩
  · have hquiet : ∀ w : Worker, (w.emit (.start call.request)).loads = w.loads ∧
        (w.emit .finish).loads = w.loads := fun w =>
      ⟨(loads_emit w _).trans (List.append_nil _), (loads_emit w _).trans (List.append_nil _)⟩
    rw [(hquiet _).1] at hloads
    exact ⟨fun hrc => hreaches _ (reachesUri_of_declined hrc),
      (congrArg List.length (hquiet _).2).le.trans hloads⟩

end Calls

theorem filesWithin_siteSys {mtime : Int} {files : List (String × String)} {L : Nat}
    (h : ∀ f ∈ files, ∀ parsed ∈ htaccessParse (siteSys (siteFs mtime files)) 0 (lit f.2),
      ∀ d ∈ parsed.directives, d.uriText.length ≤ L) :
    FilesWithin (siteSys (siteFs mtime files)) L := by
  intro path parsed hparse
  unfold htaccessParseFile at hparse
  have hopen : (siteSys (siteFs mtime files)).fs.openFile path =
      (siteFile files path).map fun text => { fdSize := some text.length, read := some text } := rfl
  rw [hopen, siteFile] at hparse
  cases hfile : files.find? fun f => lit f.1 = path with
  | none =>
      rw [hfile] at hparse
      cases hparse
  | some f =>
      rw [hfile] at hparse
      simp only [Option.map_some, ne_eq, not_true_eq_false, if_false] at hparse
      cases htext : htaccessParse (siteSys (siteFs mtime files)) 0 (lit f.2) with
      | none =>
          rw [htext] at hparse
          cases hparse
      | some parsed' =>
          rw [htext] at hparse
          cases hparse
          exact h f (List.mem_of_find?_eq_some hfile) parsed htext

/-- A rule that appends to the URI that it has written in the pass before. -/
def growingFiles : List (String × String) :=
  [("/w/.htaccess", "RewriteEngine On\nRewriteRule a /a%{REQUEST_URI}/a [L]\n")]

def growingCall : HandlerCall where
  sys := siteSys (siteFs 0 growingFiles)
  conf := siteConf 10
  request := 0
  r := siteRequest "/a"

theorem request_within_growing :
    ∃ earlier, hostRun 100 [] [.handle growingCall] = some earlier ∧
      hostRun 100 [] ([.handle growingCall] ++ [.handle growingCall]) = some {
        answers := earlier.answers ++ [((growingCall.run earlier.worker).1,
          (growingCall.run earlier.worker).2.1.withoutPools)]
        worker := (growingCall.run earlier.worker).2.2 } ∧
      let bound := max growingCall.r.uri.length (uriLimit 18)
      (∀ uri, ReachesUri growingCall.sys growingCall.conf growingCall.r
          (earlier.worker.emit (.start growingCall.request)) uri → uri.length ≤ bound) ∧
        ((growingCall.run earlier.worker).1 = ngxDeclined →
          (growingCall.run earlier.worker).2.1.uri.length ≤ bound) ∧
        (growingCall.run earlier.worker).2.2.loads.length ≤
          earlier.worker.loads.length + growingCall.conf.maxRedirects * bound := by
  have hparsed : ∀ f ∈ growingFiles, ∀ parsed ∈ htaccessParse growingCall.sys 0 (lit f.2),
      ∀ d ∈ parsed.directives, d.uriText.length ≤ 18 := by decide +kernel
  have hgiven : ∀ f ∈ growingFiles, ArgsGiven (lexedText (lit f.2)).1 := by
    unfold ArgsGiven
    decide +kernel
  refine request_within (safeHost_site (by decide +kernel) ?_ hgiven) (by decide)
    (filesWithin_siteSys hparsed)
  simp [hostCalls, HostStep.call, growingCall, siteSys]

end NgxHtaccess
