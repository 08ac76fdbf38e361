import NgxHtaccess.Chain
import NgxHtaccess.ParsePools
import NgxHtaccess.Passes

/-!
What the stages of a pass read of a merged context.

Two contexts with the same effective part are answered alike. A directive is idle
when merging it leaves the effective part as it is, wherever it stands.
-/
namespace NgxHtaccess

def Header.unpooled (h : Header) : Header := { h with pool := 0 }

def Header.named (h : Header) : Bool := h.name ≠ []

/-- The codes that a pass looks an ErrorDocument up for. -/
def ErrorDocument.asked (doc : ErrorDocument) : Bool :=
  doc.code = ngxHttpUnauthorized || doc.code = ngxHttpForbidden

/-- A context with no more in it than the stages read. -/
def MergedCtx.effective (m : MergedCtx) : MergedCtx where
  dirs := m.dirs
  authName := m.authName
  authUserFile := m.authUserFile
  requires := some (m.requires.getD [])
  order := m.order
  allows := some ((m.allows.getD []).filter isAll)
  denies := some ((m.denies.getD []).filter isAll)
  headers := some (((m.headers.getD []).filter setsHeader).map Header.unpooled)
  expiresActive := m.expiresActive
  expiresByType := some (((m.expiresByType.getD []).filter Header.named).map Header.unpooled)
  errorDocuments := some ((m.errorDocuments.getD []).filter ErrorDocument.asked)
  filesRules := some ((m.filesRules.getD []).filter (·.deny))

/-- A directive that changes nothing the stages read. -/
def Directive.idle (d : Directive) : Bool :=
  match d.u with
  | .authType _ | .expiresDefault _ | .options _ | .directoryIndex _ => true
  | .require str => d.filesMatch ≠ [] && !(filesRuleOf d.filesMatch str).deny
  | .allow str | .deny str => !isAll str
  | .header h => !setsHeader h
  | .expiresByType h => !h.named
  | .errorDocument doc => !doc.asked
  | _ => false

/-- The directives that are not idle, without their pools. -/
def effectiveDirectives (ds : List Directive) : List Directive :=
  (ds.filter (!·.idle)).map (Directive.inPool 0)

section Stages
variable (sys : Sys) (m : MergedCtx)

@[simp] theorem setsHeader_unpooled (h : Header) : setsHeader h.unpooled = setsHeader h := rfl

theorem htaccessFilesDeny_effective (uri : NgxStr) :
    htaccessFilesDeny sys m.effective uri = htaccessFilesDeny sys m uri := by
  have hany : ((m.filesRules.getD []).filter (·.deny)).any
      (filesRuleDenies sys (filesTarget uri)) =
        (m.filesRules.getD []).any (filesRuleDenies sys (filesTarget uri)) := by
    rw [List.any_filter]
    refine congrArg (List.any _) (funext fun rule => ?_)
    unfold filesRuleDenies
    cases rule.deny <;> rfl
  simp only [htaccessFilesDeny, MergedCtx.effective, Option.getD_some, hany]

theorem htaccessApplyFilesDeny_effective (uri : NgxStr) :
    htaccessApplyFilesDeny sys m.effective uri = htaccessApplyFilesDeny sys m uri := by
  rw [htaccessApplyFilesDeny, htaccessFilesDeny_effective, htaccessApplyFilesDeny]

theorem scanRequires_effective (r : Request) (reqs : List NgxStr) :
    scanRequires sys r m.effective reqs = scanRequires sys r m reqs := by
  induction reqs with
  | nil => rfl
  | cons req reqs ih =>
      simp only [scanRequires, ih]
      rfl

theorem orderRc_effective : orderRc m.effective = orderRc m := by
  have hany : ∀ xs : List NgxStr, (xs.filter isAll).any isAll = xs.any isAll := by
    intro xs
    rw [List.any_filter]
    exact congrArg (List.any xs) (funext fun x => Bool.and_self _)
  simp only [orderRc, MergedCtx.effective, Option.getD_some, hany]

theorem htaccessRequireSatisfied_effective (r : Request) :
    htaccessRequireSatisfied sys r m.effective = htaccessRequireSatisfied sys r m := by
  simp only [htaccessRequireSatisfied, scanRequires_effective, orderRc_effective]
  rfl

/-- The early return of the access check saves work only. -/
theorem htaccessApplyAuth_effective (r : Request) :
    htaccessApplyAuth sys r m.effective = htaccessApplyAuth sys r m := by
  unfold htaccessApplyAuth
  rw [htaccessFilesDeny_effective, htaccessRequireSatisfied_effective]
  have hfull : ¬ (m.effective.authType = [] ∧ m.effective.requires = none ∧
      m.effective.allows = none ∧ m.effective.denies = none) := fun h => by cases h.2.1
  rw [if_neg hfull]
  by_cases hearly : m.authType = [] ∧ m.requires = none ∧ m.allows = none ∧ m.denies = none
  · have hrc : htaccessRequireSatisfied sys r m = ngxDeclined := by
      rw [htaccessRequireSatisfied, hearly.2.1]
      rfl
    simp only [hrc, if_pos hearly]
    rfl
  · rw [if_neg hearly]
    rfl

theorem htaccessErrorUri_effective {result : HtaccessResult} {code : Nat}
    (h : refusalCode result = some code) :
    htaccessErrorUri m.effective code = htaccessErrorUri m code := by
  have hasked : ∀ doc : ErrorDocument, doc.code = code → doc.asked = true := by
    intro doc hdoc
    cases result <;> cases h <;> simp [ErrorDocument.asked, hdoc]
  have hfind : ∀ docs : List ErrorDocument,
      (docs.filter ErrorDocument.asked).find? (·.code = code) = docs.find? (·.code = code) := by
    intro docs
    rw [List.find?_filter]
    refine congrArg (List.find? · docs) (funext fun doc => ?_)
    by_cases hdoc : doc.code = code
    · simp [hdoc, hasked doc hdoc]
    · simp [hdoc]
  simp only [htaccessErrorUri, MergedCtx.effective, Option.getD_some, hfind]

end Stages

section Headers

/-- The header that `htaccess_set_header` makes of a directive. -/
def setElt (key : NgxStr) (h : Header) : TableElt where
  hash := 1
  key := key
  value := h.value
  pool := some h.pool

/-- The headers that an admitted request is answered with. -/
def servedHeaders (m : MergedCtx) (contentType : NgxStr) : List TableElt :=
  ((m.headers.getD []).filter setsHeader).map (fun h => setElt h.name h) ++
    if m.expiresActive then
      ((m.expiresByType.getD []).filter (expiresApplies contentType)).map (setElt (lit "Expires"))
    else []

theorem foldl_htaccessSetHeader (keep : NgxStr → Header → Bool) (key : Header → NgxStr)
    (hs : List Header) (r : Request) :
    hs.foldl (fun r h => if keep r.contentType h then
      htaccessSetHeader r (key h) h.value h.pool else r) r =
        { r with headersOut := r.headersOut ++
            (hs.filter (keep r.contentType)).map (fun h => setElt (key h) h) } := by
  induction hs generalizing r with
  | nil => simp only [List.foldl_nil, List.filter_nil, List.map_nil, List.append_nil]
  | cons h hs ih =>
      rw [List.foldl_cons, ih, List.filter_cons]
      by_cases hkeep : keep r.contentType h = true
      · simp only [if_pos hkeep, htaccessSetHeader, List.map_cons, List.append_assoc,
          List.cons_append, List.nil_append]
        rfl
      · simp only [if_neg hkeep]

theorem htaccessApplyHeaders_served (r : Request) (m : MergedCtx) :
    htaccessApplyHeaders r m =
      { r with headersOut := r.headersOut ++ servedHeaders m r.contentType } := by
  have hset := foldl_htaccessSetHeader (fun _ => setsHeader) Header.name (m.headers.getD []) r
  unfold htaccessApplyHeaders servedHeaders
  rw [hset]
  cases m.expiresActive with
  | false => simp only [Bool.false_eq_true, if_false, List.append_nil]
  | true =>
      simp only [if_true]
      rw [foldl_htaccessSetHeader expiresApplies (fun _ => lit "Expires")]
      simp only [List.append_assoc]

def TableElt.withoutPool (e : TableElt) : TableElt := { e with pool := none }

/-- The request as the client sees it. -/
def Request.withoutPools (r : Request) : Request :=
  { r with headersOut := r.headersOut.map TableElt.withoutPool }

theorem filter_unpooled {keep broad : Header → Bool} (hpool : ∀ h, keep h.unpooled = keep h)
    (hbroad : ∀ h, keep h = true → broad h = true) (hs : List Header) :
    ((hs.filter broad).map Header.unpooled).filter keep =
      (hs.filter keep).map Header.unpooled := by
  rw [List.filter_map, List.filter_filter]
  refine congrArg (List.map Header.unpooled) (congrArg (List.filter · hs) (funext fun h => ?_))
  rw [Function.comp_apply, hpool]
  cases hkeep : keep h with
  | false => rfl
  | true => exact hbroad h hkeep

theorem servedHeaders_effective (m : MergedCtx) (contentType : NgxStr) :
    (servedHeaders m.effective contentType).map TableElt.withoutPool =
      (servedHeaders m contentType).map TableElt.withoutPool := by
  have hset := filter_unpooled setsHeader_unpooled (fun _ h => h) (m.headers.getD [])
  have hnamed : ∀ h, expiresApplies contentType h = true → h.named = true := by
    intro h happlies
    simp only [expiresApplies, Bool.and_eq_true] at happlies
    exact happlies.1.1.2
  have hexpires := @filter_unpooled (expiresApplies contentType) Header.named (fun _ => rfl) hnamed
    (m.expiresByType.getD [])
  have hsame : m.effective.expiresActive = m.expiresActive := rfl
  unfold servedHeaders
  rw [hsame, List.map_append, List.map_append]
  simp only [MergedCtx.effective, Option.getD_some, hset]
  by_cases hactive : m.expiresActive = true
  · simp only [if_pos hactive, hexpires, List.map_map]
    rfl
  · simp only [if_neg hactive, List.map_map]
    rfl

end Headers

section Merge

/-- The effective part after a directive depends on the effective part before it. -/
theorem effective_mergeGlobal (m : MergedCtx) (d : Directive) :
    (mergeGlobal m d).effective = (mergeGlobal m.effective d).effective := by
  have hmap : ∀ hs : List Header, (hs.map Header.unpooled).map Header.unpooled =
      hs.map Header.unpooled := fun hs => List.map_map
  have hnamed := @filter_unpooled Header.named Header.named (fun _ => rfl) fun _ h => h
  simp only [mergeGlobal_eq, MergedCtx.effective, foldl_ngxArrayPush_getD, Option.getD_some,
    List.filter_append, List.map_append, List.filter_filter, Bool.and_self,
    filter_unpooled setsHeader_unpooled (fun _ h => h), hnamed, hmap]

theorem effective_of_idle {d : Directive} (h : d.idle = true) (m : MergedCtx) :
    (mergeGlobal m d).effective = m.effective := by
  have hdrop : ∀ {α : Type} {keep : α → Bool} {x : α} (xs : Option (List α)), keep x = false →
      ((ngxArrayPush xs x).getD []).filter keep = (xs.getD []).filter keep := by
    intro α keep x xs hx
    rw [ngxArrayPush_getD, List.filter_append, List.filter_singleton, hx]
    exact List.append_nil _
  obtain ⟨scope, u⟩ := d
  cases u with
  | authType _ | expiresDefault _ | options _ | directoryIndex _ => rfl
  | require str =>
      simp only [Directive.idle, Bool.and_eq_true, decide_eq_true_eq, Bool.not_eq_true'] at h
      simp only [mergeGlobal, htaccessMergeDirective, if_pos h.1, MergedCtx.effective,
        hdrop _ h.2]
  | allow str | deny str =>
      simp only [Directive.idle, Bool.not_eq_true'] at h
      simp only [mergeGlobal, htaccessMergeDirective, MergedCtx.effective, hdrop _ h]
  | header hd | expiresByType hd | errorDocument doc =>
      simp only [Directive.idle, Bool.not_eq_true'] at h
      simp only [mergeGlobal, htaccessMergeDirective, MergedCtx.effective, hdrop _ h]
  | _ => cases h

theorem effective_inPool (pool : PoolId) (d : Directive) (m : MergedCtx) :
    (mergeGlobal m (d.inPool pool)).effective = (mergeGlobal m d).effective := by
  have hsame : ∀ (keep : Header → Bool) (h : Header) (hs : Option (List Header)),
      keep { h with pool } = keep h →
        (((ngxArrayPush hs { h with pool }).getD []).filter keep).map Header.unpooled =
          (((ngxArrayPush hs h).getD []).filter keep).map Header.unpooled := by
    intro keep h hs hkeep
    rw [ngxArrayPush_getD, ngxArrayPush_getD, List.filter_append, List.filter_append,
      List.filter_singleton, List.filter_singleton, hkeep]
    cases keep h with
    | false => rfl
    | true => rw [List.map_append, List.map_append]; rfl
  obtain ⟨scope, u⟩ := d
  cases u with
  | header h =>
      simp only [mergeGlobal, htaccessMergeDirective, Directive.inPool, DirectiveData.inPool,
        MergedCtx.effective, hsame setsHeader h m.headers rfl]
  | expiresByType h =>
      simp only [mergeGlobal, htaccessMergeDirective, Directive.inPool, DirectiveData.inPool,
        MergedCtx.effective, hsame Header.named h m.expiresByType rfl]
  | _ => rfl

theorem idle_inPool (pool : PoolId) (d : Directive) : (d.inPool pool).idle = d.idle := by
  obtain ⟨scope, u⟩ := d
  cases u <;> rfl

theorem mergeLocal_of_idle {d : Directive} (h : d.idle = true) (dir : DirCtx) :
    mergeLocal dir d = dir := by
  obtain ⟨scope, u⟩ := d
  cases u with
  | rewriteEngine _ | rewriteBase _ | rewriteRule _ | redirect _ | redirectMatch _
  | redirectPermanent _ | redirectTemp _ => cases h
  | require str =>
      simp only [mergeLocal, htaccessMergeDirective]
      split <;> rfl
  | _ => rfl

theorem mergeLocal_inPool (pool : PoolId) (d : Directive) (dir : DirCtx) :
    mergeLocal dir (d.inPool pool) = mergeLocal dir d := by
  obtain ⟨scope, u⟩ := d
  cases u <;> rfl

theorem foldl_effectiveDirectives (ds : List Directive) {m m' : MergedCtx}
    (h : m.effective = m'.effective) :
    ((effectiveDirectives ds).foldl mergeGlobal m').effective =
      (ds.foldl mergeGlobal m).effective := by
  induction ds generalizing m m' with
  | nil => exact h.symm
  | cons d ds ih =>
      rw [List.foldl_cons, effectiveDirectives, List.filter_cons]
      by_cases hidle : d.idle = true
      · rw [hidle]
        exact ih ((effective_of_idle hidle m).trans h)
      · rw [Bool.not_eq_true] at hidle
        rw [hidle]
        refine ih ?_
        rw [effective_inPool, effective_mergeGlobal, h, ← effective_mergeGlobal]

theorem foldl_mergeLocal_effective (ds : List Directive) (dir : DirCtx) :
    (effectiveDirectives ds).foldl mergeLocal dir = ds.foldl mergeLocal dir := by
  induction ds generalizing dir with
  | nil => rfl
  | cons d ds ih =>
      rw [List.foldl_cons, effectiveDirectives, List.filter_cons]
      by_cases hidle : d.idle = true
      · rw [hidle, mergeLocal_of_idle hidle]
        exact ih dir
      · rw [Bool.not_eq_true] at hidle
        rw [hidle]
        exact (ih _).trans (by rw [mergeLocal_inPool])

def ChainFile.effective (f : ChainFile) : ChainFile :=
  { f with directives := effectiveDirectives f.directives }

/-- Chains with the same effective files merge into contexts that are answered alike. -/
theorem effective_mergeChain (chain : List ChainFile) :
    (mergeChain (chain.map ChainFile.effective)).effective = (mergeChain chain).effective := by
  have hfile : ∀ (f : ChainFile) (m m' : MergedCtx), m.effective = m'.effective →
      (mergeFile m' f.effective).effective = (mergeFile m f).effective := by
    intro f m m' h
    have hdirs : m.effective.dirs = m'.effective.dirs := congrArg _ h
    have hdir : f.effective.dirCtx = f.dirCtx := foldl_mergeLocal_effective f.directives _
    have hsame : m.dirs = m'.dirs := hdirs
    have hmerge : (f.effective.directives.foldl mergeGlobal m').effective =
        (f.directives.foldl mergeGlobal m).effective := foldl_effectiveDirectives f.directives h
    calc (mergeFile m' f.effective).effective
        = { (f.effective.directives.foldl mergeGlobal m').effective with
            dirs := m'.dirs ++ [f.effective.dirCtx] } := rfl
      _ = { (f.directives.foldl mergeGlobal m).effective with
            dirs := m.dirs ++ [f.dirCtx] } := by rw [hmerge, hdir, hsame]
      _ = (mergeFile m f).effective := rfl
  have hall : ∀ (m m' : MergedCtx), m.effective = m'.effective →
      ((chain.map ChainFile.effective).foldl mergeFile m').effective =
        (chain.foldl mergeFile m).effective := by
    induction chain with
    | nil => exact fun m m' h => h.symm
    | cons f chain ih => exact fun m m' h => ih _ _ (hfile f m m' h).symm
  exact hall {} {} rfl

end Merge

end NgxHtaccess
