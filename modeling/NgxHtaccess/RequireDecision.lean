import NgxHtaccess.Site

/-!
The decision of `htaccess_apply_auth` over a list of Require entries, against
the rule that a request is admitted when one of them is satisfied, in whatever order
they stand.

The scan stops at the first entry it recognises, reads `all granted` and
`all denied` as prefixes, asks `valid-user` for one byte more than it has, and
admits when it recognises nothing. `RequireAgrees` is what is left in common.
-/
namespace NgxHtaccess

def isWord (word : String) (req : NgxStr) : Bool := eqIgnoreCase req (lit word)

/-- The user gave a name, the context has a password file and the check passes. -/
def credentialsOk (sys : Sys) (r : Request) (merged : MergedCtx) : Bool :=
  r.user ≠ [] && merged.authUserFile ≠ [] &&
    htaccessCheckHtpasswd sys merged.authUserFile r.user r.passwd = ngxOk

/-- When one Require entry is satisfied; an entry of any other kind never is. -/
def requireHolds (sys : Sys) (r : Request) (merged : MergedCtx) (req : NgxStr) : Bool :=
  if isWord "all granted" req then true
  else if isWord "all denied" req then false
  else if isWord "valid-user" req then credentialsOk sys r merged
  else false

/-- An entry that the scan acts on. -/
def isRecognised (req : NgxStr) : Bool := isAllGranted req || isAllDenied req || isValidUser req

/-- The answer of the scan at an entry that it recognises. -/
def entryRc (sys : Sys) (r : Request) (merged : MergedCtx) (req : NgxStr) : Int :=
  if isAllGranted req then ngxOk
  else if isAllDenied req then ngxHttpForbidden
  else validUserRc sys r merged

theorem scanRequires_eq (sys : Sys) (r : Request) (merged : MergedCtx) (reqs : List NgxStr) :
    scanRequires sys r merged reqs =
      (reqs.find? isRecognised).map (entryRc sys r merged) := by
  induction reqs with
  | nil => rfl
  | cons req reqs ih =>
      simp only [scanRequires, List.find?_cons, isRecognised]
      cases hg : isAllGranted req with
      | true => simp [entryRc, hg]
      | false =>
          cases hd : isAllDenied req with
          | true => simp [entryRc, hg, hd]
          | false =>
              cases hv : isValidUser req with
              | true => simp [entryRc, hg, hd]
              | false => simpa using ih

theorem validUserRc_ok_iff (sys : Sys) (r : Request) (merged : MergedCtx) :
    validUserRc sys r merged = ngxOk ↔ credentialsOk sys r merged = true := by
  have hne : (ngxHttpUnauthorized : Int) ≠ ngxOk := by decide
  unfold validUserRc credentialsOk
  split_ifs <;> simp_all

theorem not_prefix_of_isWord {word : String} (other : String) (n : Nat) {req : NgxStr}
    (hw : isWord word req = true) (hn : n ≤ (lit word).length)
    (hother : ngxStrncasecmpEq (lit word) (lit other) n = false) :
    ngxStrncasecmpEq req (lit other) n = false := by
  simp only [isWord, eqIgnoreCase, Bool.and_eq_true, decide_eq_true_eq] at hw
  by_contra hc
  rw [Bool.not_eq_false] at hc
  have hshort : ngxStrncasecmpEq (lit word) req n = true :=
    ngxStrncasecmpEq_symm _ _ _ (ngxStrncasecmpEq_le _ _ (hw.1 ▸ hn) hw.2)
  rw [ngxStrncasecmpEq_trans _ _ _ _ hshort hc] at hother
  cases hother

theorem length_of_isWord {word : String} {req : NgxStr} (h : isWord word req = true) :
    req.length = (lit word).length := by
  simp only [isWord, eqIgnoreCase, Bool.and_eq_true, decide_eq_true_eq] at h
  exact h.1

theorem isAllGranted_of_isWord {req : NgxStr} (h : isWord "all granted" req = true) :
    isAllGranted req = true := by
  have hlen : req.length = 11 := length_of_isWord h
  simp only [isWord, eqIgnoreCase, hlen, Bool.and_eq_true] at h
  simp only [isAllGranted, hlen, h.2, le_refl, decide_true, Bool.and_self]

theorem not_allGranted_of_validUser {req : NgxStr} (h : isWord "valid-user" req = true) :
    isWord "all granted" req = false := by
  have hlen : req.length = 10 := length_of_isWord h
  by_contra hc
  rw [Bool.not_eq_false] at hc
  have := length_of_isWord hc
  rw [hlen] at this
  exact absurd this (by decide)

theorem not_allDenied_of_validUser {req : NgxStr} (h : isWord "valid-user" req = true) :
    isWord "all denied" req = false := by
  have hlen : req.length = 10 := length_of_isWord h
  have hp := not_prefix_of_isWord "all denied" 10 h (by decide) (by decide)
  simp only [isWord, eqIgnoreCase, hlen, hp, Bool.and_false]

theorem exists_requireHolds_iff (sys : Sys) (r : Request) (merged : MergedCtx)
    (reqs : List NgxStr) :
    (∃ req ∈ reqs, requireHolds sys r merged req = true) ↔
      (∃ req ∈ reqs, isWord "all granted" req = true) ∨
        (∃ req ∈ reqs, isWord "valid-user" req = true) ∧ credentialsOk sys r merged = true := by
  constructor
  · rintro ⟨req, hmem, hholds⟩
    unfold requireHolds at hholds
    split_ifs at hholds with hg hd hv
    · exact .inl ⟨req, hmem, hg⟩
    · exact .inr ⟨⟨req, hmem, hv⟩, hholds⟩
  · rintro (⟨req, hmem, hg⟩ | ⟨⟨req, hmem, hv⟩, hcred⟩)
    · exact ⟨req, hmem, by simp only [requireHolds, hg, if_true]⟩
    · refine ⟨req, hmem, ?_⟩
      simp only [requireHolds, not_allGranted_of_validUser hv, not_allDenied_of_validUser hv, hv,
        hcred, if_true, Bool.false_eq_true, if_false]

/-- With Require entries alone in the context, the scan is the decision. -/
theorem htaccessApplyAuth_declined_iff (sys : Sys) (r : Request) (merged : MergedCtx)
    {reqs : List NgxStr} (hreqs : merged.requires = some reqs) (hne : reqs ≠ [])
    (horder : merged.order = [])
    (hfiles : htaccessFilesDeny sys merged r.uri ≠ ngxHttpForbidden) :
    (htaccessApplyAuth sys r merged).1 = .declined ↔
      ((reqs.find? isRecognised).map (entryRc sys r merged)).getD ngxOk = ngxOk := by
  have horderRc : orderRc merged = ngxDeclined := by simp [orderRc, horder]
  have hrc : htaccessRequireSatisfied sys r merged =
      ((reqs.find? isRecognised).map (entryRc sys r merged)).getD ngxDeclined := by
    simp only [htaccessRequireSatisfied, hreqs, Option.getD_some, hne, if_false,
      scanRequires_eq, horderRc]
  unfold htaccessApplyAuth
  simp only [hfiles, if_false, hreqs, reduceCtorEq, false_and, and_false, hrc]
  cases hfind : reqs.find? isRecognised with
  | none => simp [ngxDeclined, ngxHttpUnauthorized, ngxHttpForbidden]
  | some req =>
      simp only [Option.map_some, Option.getD_some, entryRc]
      split_ifs <;> simp_all [ngxOk, ngxHttpUnauthorized, ngxHttpForbidden, validUserRc]
      all_goals split_ifs at * <;> simp_all

/-- An entry that the scan can stop at decides as the list has it. -/
def EntryAgrees (sys : Sys) (r : Request) (merged : MergedCtx) (reqs : List NgxStr)
    (req : NgxStr) : Prop :=
  let granted := ∃ req ∈ reqs, isWord "all granted" req = true
  let asked := ∃ req ∈ reqs, isWord "valid-user" req = true
  let verified := credentialsOk sys r merged = true
  if isAllGranted req then granted ∨ asked ∧ verified
  else if isAllDenied req then ¬ granted ∧ ¬ (asked ∧ verified)
  else (verified → granted ∨ asked) ∧ (granted → verified)

/-- Every entry that the scan recognises agrees with the list, since any of them can come first;
a list without one asks for a user, and the credentials pass. -/
structure RequireAgrees (sys : Sys) (r : Request) (merged : MergedCtx) (reqs : List NgxStr) :
    Prop where
  recognised : ∀ req ∈ reqs, isRecognised req = true → EntryAgrees sys r merged reqs req
  unrecognised : reqs.find? isRecognised = none →
    (∃ req ∈ reqs, isWord "valid-user" req = true) ∧ credentialsOk sys r merged = true

theorem entryRc_granted (sys : Sys) (r : Request) (merged : MergedCtx) {req : NgxStr}
    (h : isAllGranted req = true) : entryRc sys r merged req = ngxOk := if_pos h

theorem entryRc_denied (sys : Sys) (r : Request) (merged : MergedCtx) {req : NgxStr}
    (hg : isAllGranted req = false) (h : isAllDenied req = true) :
    entryRc sys r merged req ≠ ngxOk := by
  simp [entryRc, hg, h, ngxHttpForbidden, ngxOk]

theorem entryRc_validUser_ok_iff (sys : Sys) (r : Request) (merged : MergedCtx) {req : NgxStr}
    (hg : isAllGranted req = false) (hd : isAllDenied req = false) :
    entryRc sys r merged req = ngxOk ↔ credentialsOk sys r merged = true := by
  simp only [entryRc, hg, hd, Bool.false_eq_true, if_false, validUserRc_ok_iff]

theorem entryAgrees_iff (sys : Sys) (r : Request) (merged : MergedCtx) (reqs : List NgxStr)
    (req : NgxStr) :
    (entryRc sys r merged req = ngxOk ↔ ∃ req ∈ reqs, requireHolds sys r merged req = true) ↔
      EntryAgrees sys r merged reqs req := by
  rw [exists_requireHolds_iff]
  unfold EntryAgrees
  cases hg : isAllGranted req with
  | true => simp only [entryRc_granted sys r merged hg, true_iff, if_true]
  | false =>
      cases hd : isAllDenied req with
      | true =>
          simp only [entryRc_denied sys r merged hg hd, false_iff, not_or, Bool.false_eq_true,
            if_false, if_true]
      | false =>
          simp only [entryRc_validUser_ok_iff sys r merged hg hd, Bool.false_eq_true, if_false]
          by_cases hcred : credentialsOk sys r merged = true <;> simp [hcred]

theorem forall_perm_find? {α : Type} [DecidableEq α] {p : α → Bool} (C : Option α → Prop)
    (l : List α) :
    (∀ l' : List α, l'.Perm l → C (l'.find? p)) ↔
      (∀ x ∈ l, p x = true → C (some x)) ∧ (l.find? p = none → C none) := by
  constructor
  · intro h
    refine ⟨fun x hx hp => ?_, fun hnone => hnone ▸ h l (.refl l)⟩
    have hfirst := h (x :: l.erase x) (List.perm_cons_erase hx).symm
    rwa [List.find?_cons_of_pos hp] at hfirst
  · rintro ⟨hsome, hnone⟩ l' hperm
    cases hfind : l'.find? p with
    | none =>
        refine hnone (List.find?_eq_none.mpr fun x hx => ?_)
        exact List.find?_eq_none.mp hfind x (hperm.mem_iff.mpr hx)
    | some x =>
        exact hsome x (hperm.mem_iff.mp (List.mem_of_find?_eq_some hfind))
          (List.find?_some hfind)

/-- The decision is the any-of rule, whatever the order of the entries, exactly when every entry
that the scan recognises agrees with the list. -/
theorem require_decision_iff (sys : Sys) (r : Request) (merged : MergedCtx)
    (reqs : List NgxStr) (hreqs : merged.requires = some reqs) (hne : reqs ≠ [])
    (horder : merged.order = []) (_hallows : merged.allows = none)
    (_hdenies : merged.denies = none)
    (hfiles : htaccessFilesDeny sys merged r.uri ≠ ngxHttpForbidden) :
    (((htaccessApplyAuth sys r merged).1 = .declined ↔
        ∃ req ∈ reqs, requireHolds sys r merged req = true) ∧
      ∀ reqs' : List NgxStr, reqs'.Perm reqs →
        ((htaccessApplyAuth sys r { merged with requires := some reqs' }).1 = .declined ↔
          (htaccessApplyAuth sys r merged).1 = .declined)) ↔
      RequireAgrees sys r merged reqs := by
  -- the decision is taken at the first entry that is recognised
  let C : Option NgxStr → Prop := fun first =>
    (first.map (entryRc sys r merged)).getD ngxOk = ngxOk ↔
      ∃ req ∈ reqs, requireHolds sys r merged req = true
  have hdeclined : ∀ reqs' : List NgxStr, reqs'.Perm reqs →
      ((htaccessApplyAuth sys r { merged with requires := some reqs' }).1 = .declined ↔
        ((reqs'.find? isRecognised).map (entryRc sys r merged)).getD ngxOk = ngxOk) :=
    fun reqs' hperm => htaccessApplyAuth_declined_iff sys r { merged with requires := some reqs' }
      rfl (fun hnil => hne (List.nil_perm.mp (hnil ▸ hperm))) horder hfiles
  have hself := hdeclined reqs (.refl reqs)
  rw [← hreqs] at hself
  -- both parts say that the first entry of any order decides by the rule
  refine Iff.trans (b := ∀ reqs' : List NgxStr, reqs'.Perm reqs → C (reqs'.find? isRecognised))
    ?_ ?_
  case refine_1 =>
    constructor
    · rintro ⟨hrule, horders⟩ reqs' hperm
      exact (hdeclined reqs' hperm).symm.trans ((horders reqs' hperm).trans hrule)
    · intro h
      have hrule := hself.trans (h reqs (.refl reqs))
      exact ⟨hrule, fun reqs' hperm =>
        ((hdeclined reqs' hperm).trans (h reqs' hperm)).trans hrule.symm⟩
  rw [forall_perm_find? C]
  have hsome : ∀ req, C (some req) ↔ EntryAgrees sys r merged reqs req := fun req =>
    entryAgrees_iff sys r merged reqs req
  -- every entry that grants is recognised, so only `valid-user` can be left
  have hnone : reqs.find? isRecognised = none →
      (C none ↔ (∃ req ∈ reqs, isWord "valid-user" req = true) ∧
        credentialsOk sys r merged = true) := by
    intro hfind
    have hgranted : ¬ ∃ req ∈ reqs, isWord "all granted" req = true := by
      rintro ⟨req, hmem, hg⟩
      have := List.find?_eq_none.mp hfind req hmem
      simp [isRecognised, isAllGranted_of_isWord hg] at this
    simp only [C, exists_requireHolds_iff, Option.map_none, Option.getD_none, true_iff, hgranted,
      false_or]
  constructor
  · rintro ⟨hrec, hun⟩
    exact ⟨fun req hmem hp => (hsome req).mp (hrec req hmem hp),
      fun hfind => (hnone hfind).mp (hun hfind)⟩
  · rintro ⟨hrec, hun⟩
    exact ⟨fun req hmem hp => (hsome req).mpr (hrec req hmem hp),
      fun hfind => (hnone hfind).mpr (hun hfind)⟩

/-- A user of the password file, and a list of entries of every kind. -/
theorem require_decision_mixed :
    let sys := siteSys (siteFs 0 [("/w/.htpasswd", "ann:pw\n")])
    let r := { siteRequest "/x" with user := lit "ann", passwd := lit "pw" }
    let reqs := [lit "ip 10.0.0.1", lit "valid-user x", lit "user ann", lit "all granted",
      lit "valid-user"]
    let merged : MergedCtx := { authUserFile := lit "/w/.htpasswd", requires := some reqs }
    (((htaccessApplyAuth sys r merged).1 = .declined ↔
        ∃ req ∈ reqs, requireHolds sys r merged req = true) ∧
      ∀ reqs' : List NgxStr, reqs'.Perm reqs →
        ((htaccessApplyAuth sys r { merged with requires := some reqs' }).1 = .declined ↔
          (htaccessApplyAuth sys r merged).1 = .declined)) ↔
      RequireAgrees sys r merged reqs := by
  intro sys r reqs merged
  exact require_decision_iff sys r merged reqs rfl (by decide) rfl rfl rfl (by decide)

/-- The one line of the `auth` fixture, `Require valid-user`, admits a request
that comes without a user name. -/
theorem require_valid_user_admits :
    (htaccessApplyAuth (siteSys (siteFs 0 [])) (siteRequest "/x")
        { authType := lit "Basic", authName := lit "Restricted"
          authUserFile := lit "/var/www/site/.htpasswd"
          requires := some [lit "valid-user"] }).1 = .declined ∧
      ¬ ∃ req ∈ [lit "valid-user"],
        requireHolds (siteSys (siteFs 0 [])) (siteRequest "/x")
          { authType := lit "Basic", authName := lit "Restricted"
            authUserFile := lit "/var/www/site/.htpasswd"
            requires := some [lit "valid-user"] } req = true := by
  decide

end NgxHtaccess
