import NgxHtaccess.Chain
import NgxHtaccess.RequireDecision

/-!
Does the deepest directory decide? Require entries and ErrorDocuments are
appended along the chain and then read from the front, so the deepest directory
decides exactly when the front of the array agrees with it.
-/
namespace NgxHtaccess

def ChainFile.requires (f : ChainFile) : List NgxStr := f.directives.filterMap Directive.requireOf

/-- The Require lists of the chain down to the last one that is not empty. -/
def requireLists (chain : List ChainFile) : List (List NgxStr) :=
  (chain.map ChainFile.requires).rdropWhile (· = [])

/-- The Require entries of the deepest file that has any. -/
def deepestRequires (chain : List ChainFile) : List NgxStr := (requireLists chain).getLastD []

def shallowerRequires (chain : List ChainFile) : List NgxStr :=
  (requireLists chain).dropLast.flatten

/-- The ErrorDocuments of one code, in root-to-leaf, top-to-bottom order. -/
def chainDocuments (chain : List ChainFile) (code : Nat) : List ErrorDocument :=
  ((chainDirectives chain).filterMap Directive.errorDocumentOf).filter (·.code = code)

theorem flatten_rdropWhile_nil {α : Type} [DecidableEq α] (lists : List (List α)) :
    (lists.rdropWhile (· = [])).flatten = lists.flatten := by
  induction lists using List.reverseRecOn with
  | nil => rfl
  | append_singleton lists l ih =>
      by_cases hl : l = []
      · rw [List.rdropWhile_concat_pos _ _ _ (by simpa using hl), ih]
        simp [hl]
      · rw [List.rdropWhile_concat_neg _ _ _ (by simpa using hl)]

theorem dropLast_flatten_append {α : Type} (lists : List (List α)) :
    lists.dropLast.flatten ++ lists.getLastD [] = lists.flatten := by
  induction lists using List.reverseRecOn with
  | nil => rfl
  | append_singleton lists l _ => simp

theorem chainRequires_eq (chain : List ChainFile) :
    (chainDirectives chain).filterMap Directive.requireOf =
      shallowerRequires chain ++ deepestRequires chain := by
  rw [shallowerRequires, deepestRequires, dropLast_flatten_append, requireLists,
    flatten_rdropWhile_nil, chainDirectives, List.filterMap_flatMap, List.flatMap_def]
  rfl

theorem shallowerRequires_eq_nil {chain : List ChainFile} (h : deepestRequires chain = []) :
    shallowerRequires chain = [] := by
  unfold shallowerRequires deepestRequires at *
  rcases List.eq_nil_or_concat (requireLists chain) with hnil | ⟨lists, l, hl⟩
  · rw [hnil]
    rfl
  · -- the last list that `rdropWhile` keeps is not empty
    have hne : requireLists chain ≠ [] := by simp [hl]
    have hlast := List.rdropWhile_last_not (· = []) (chain.map ChainFile.requires) hne
    change ¬ decide ((requireLists chain).getLast hne = []) = true at hlast
    rw [decide_eq_true_eq] at hlast
    rw [List.getLastD_eq_getLast?, List.getLast?_eq_some_getLast hne, Option.getD_some] at h
    exact absurd h hlast

/-- What a recognised entry asks for. -/
inductive RequireKind where
  | granted | denied | user
  deriving DecidableEq

def requireKind (req : NgxStr) : RequireKind :=
  if isAllGranted req then .granted else if isAllDenied req then .denied else .user

/-- The Order branch refuses: `deny` first, a deny for all and no allow for all. -/
def OrderForbids (merged : MergedCtx) : Prop :=
  (4 ≤ merged.order.length ∧ ngxStrncasecmpEq merged.order (lit "deny") 4) ∧
    (merged.denies.getD []).any isAll ∧ !(merged.allows.getD []).any isAll

instance (merged : MergedCtx) : Decidable (OrderForbids merged) :=
  inferInstanceAs (Decidable (_ ∧ _))

/-- The first entry recognised above the deepest directory, if there is one,
asks for what the deepest directory yields. -/
def RequiresAgree (sys : Sys) (r : Request) (merged : MergedCtx)
    (shallower deepest : List NgxStr) : Prop :=
  match shallower.find? isRecognised, deepest.find? isRecognised with
  | none, _ => True
  | some req, none => requireKind req = .denied ∧ OrderForbids merged
  | some req, some own =>
      requireKind req = requireKind own ∨
        requireKind req ≠ .denied ∧ requireKind own ≠ .denied ∧
          credentialsOk sys r merged = true

/-- The first and the last ErrorDocument of the code name one URI. -/
def DocumentsAgree (chain : List ChainFile) (code : Nat) : Prop :=
  (chainDocuments chain code).head?.map (·.uri) = (chainDocuments chain code).getLast?.map (·.uri)

theorem entryRc_eq (sys : Sys) (r : Request) (merged : MergedCtx) (req : NgxStr) :
    entryRc sys r merged req = match requireKind req with
      | .granted => ngxOk
      | .denied => ngxHttpForbidden
      | .user => if credentialsOk sys r merged then ngxOk else ngxHttpUnauthorized := by
  unfold entryRc requireKind
  split
  · rfl
  · split
    · rfl
    · unfold validUserRc credentialsOk
      split_ifs <;> simp_all

theorem orderRc_eq (merged : MergedCtx) :
    orderRc merged = if OrderForbids merged then (ngxHttpForbidden : Int) else ngxDeclined := by
  by_cases ho : 4 ≤ merged.order.length ∧ ngxStrncasecmpEq merged.order (lit "deny") 4
  · by_cases hd : (merged.denies.getD []).any isAll ∧ !(merged.allows.getD []).any isAll
    · rw [if_pos ⟨ho, hd⟩, orderRc, if_pos ho, if_pos hd]
    · rw [if_neg (fun h => hd h.2), orderRc, if_pos ho, if_neg hd]
  · rw [if_neg (fun h => ho h.1), orderRc, if_neg ho]

theorem entryRc_eq_entryRc_iff (sys : Sys) (r : Request) (merged : MergedCtx)
    (req own : NgxStr) :
    entryRc sys r merged req = entryRc sys r merged own ↔
      requireKind req = requireKind own ∨
        requireKind req ≠ .denied ∧ requireKind own ≠ .denied ∧
          credentialsOk sys r merged = true := by
  rw [entryRc_eq, entryRc_eq]
  cases requireKind req <;> cases requireKind own <;>
    cases credentialsOk sys r merged <;>
    simp [ngxOk, ngxHttpForbidden, ngxHttpUnauthorized]

theorem entryRc_eq_orderRc_iff (sys : Sys) (r : Request) (merged : MergedCtx) (req : NgxStr) :
    entryRc sys r merged req = orderRc merged ↔
      requireKind req = .denied ∧ OrderForbids merged := by
  rw [entryRc_eq, orderRc_eq]
  cases requireKind req <;> cases credentialsOk sys r merged <;>
    by_cases ho : OrderForbids merged <;>
    simp [ho, ngxOk, ngxHttpForbidden, ngxHttpUnauthorized, ngxDeclined]

theorem scan_append_iff (sys : Sys) (r : Request) (merged : MergedCtx)
    (shallower deepest : List NgxStr) :
    (scanRequires sys r merged (shallower ++ deepest)).getD (orderRc merged) =
        (scanRequires sys r merged deepest).getD (orderRc merged) ↔
      RequiresAgree sys r merged shallower deepest := by
  simp only [scanRequires_eq, List.find?_append, RequiresAgree]
  cases hs : shallower.find? isRecognised with
  | none => simp only [Option.none_or]
  | some req =>
      simp only [Option.some_or, Option.map_some, Option.getD_some]
      cases hd : deepest.find? isRecognised with
      | none =>
          simp only [Option.map_none, Option.getD_none]
          exact entryRc_eq_orderRc_iff sys r merged req
      | some own =>
          simp only [Option.map_some, Option.getD_some]
          exact entryRc_eq_entryRc_iff sys r merged req own

theorem htaccessRequireSatisfied_append_iff (sys : Sys) (r : Request) (merged : MergedCtx)
    (shallower deepest : List NgxStr) (hne : deepest = [] → shallower = [])
    (hreqs : merged.requires.getD [] = shallower ++ deepest) :
    htaccessRequireSatisfied sys r merged =
        htaccessRequireSatisfied sys r { merged with requires := some deepest } ↔
      RequiresAgree sys r merged shallower deepest := by
  by_cases hd : deepest = []
  · subst hd
    simp [hne rfl, htaccessRequireSatisfied, hreqs, RequiresAgree]
  · rw [← scan_append_iff]
    have happend : shallower ++ deepest ≠ [] := by simp [hd]
    simp only [htaccessRequireSatisfied, hreqs, happend, if_false, Option.getD_some, hd,
      scanRequires_eq]
    rfl

theorem htaccessErrorUri_mergeChain (chain : List ChainFile) (code : Nat) :
    htaccessErrorUri (mergeChain chain) code =
      (chainDocuments chain code).head?.map (·.uri) := by
  rw [htaccessErrorUri, mergeChain_errorDocuments, foldl_ngxArrayPush_getD, Option.getD_none,
    List.nil_append, chainDocuments, List.head?_filter]

/-- On the context that is built for a request, the deepest Require entries
decide, and the last ErrorDocument is taken, exactly when what stands before
them in the arrays agrees with them. -/
theorem directory_override_iff (sys : Sys) (conf : LocConf) (w : Worker) (r : Request) :
    let chain := uriChain sys conf w r.uri
    let merged := (htaccessBuildMergedCtx sys conf w r.uri).1
    (htaccessRequireSatisfied sys r merged =
          htaccessRequireSatisfied sys r
            { merged with requires := some (deepestRequires chain) } ↔
        RequiresAgree sys r merged (shallowerRequires chain) (deepestRequires chain)) ∧
      ∀ code, htaccessErrorUri merged code =
          (chainDocuments chain code).getLast?.map (·.uri) ↔
        DocumentsAgree chain code := by
  intro chain merged
  have hmerged : merged = mergeChain chain := htaccessBuildMergedCtx_eq sys conf w r.uri
  constructor
  · refine htaccessRequireSatisfied_append_iff sys r merged _ _ shallowerRequires_eq_nil ?_
    rw [hmerged, mergeChain_requires, foldl_ngxArrayPush_getD, Option.getD_none,
      List.nil_append, chainRequires_eq]
  · intro code
    rw [hmerged, htaccessErrorUri_mergeChain]
    rfl

/-- A directory that refuses everybody is open when its parent grants, and its
ErrorDocument is never taken. -/
theorem directory_override_ignored :
    let sys := siteSys (siteFs 0
      [("/w/.htaccess", "Require all granted\nErrorDocument 403 /root.html\n"),
       ("/w/sub/.htaccess", "Require all denied\nErrorDocument 403 /sub.html\n")])
    let r := siteRequest "/sub/x"
    let chain := uriChain sys (siteConf 10) (siteWorker 0) r.uri
    let merged := (htaccessBuildMergedCtx sys (siteConf 10) (siteWorker 0) r.uri).1
    deepestRequires chain = [lit "all denied"] ∧
      htaccessRequireSatisfied sys r merged ≠
        htaccessRequireSatisfied sys r { merged with requires := some (deepestRequires chain) } ∧
      htaccessErrorUri merged 403 ≠ (chainDocuments chain 403).getLast?.map (·.uri) := by
  decide +kernel

end NgxHtaccess
