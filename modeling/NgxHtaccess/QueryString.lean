import NgxHtaccess.RuleScan
import NgxHtaccess.Site

/-!
The query string that a rule leaves. `htaccess_apply_target_uri` takes the arguments from
the target alone unless QSA asks for the old ones, so a target without a question mark
loses the query of the visitor; and it adds a slash only in front of a path that is there.
-/
namespace NgxHtaccess

/-- The arguments that a target leaves beside an old query string. -/
def queryAfter (target query : NgxStr) (qsa : Bool) : NgxStr :=
  match ngxStrlchr target (ch '?') with
  | none => query
  | some (_, args) =>
      if !qsa then args
      else if args = [] then query
      else if query = [] then args
      else args ++ ch '&' :: query

/-- The part of a target before its first question mark. -/
def targetPath (target : NgxStr) : NgxStr := target.takeWhile (· ≠ ch '?')

def withSlash (path : NgxStr) : NgxStr :=
  if path.head? = some (ch '/') then path else ch '/' :: path

/-- The query string law for a target that is written over an old query string. -/
structure QueryLaw (target query : NgxStr) (qsa : Bool) (r : Request) (state : RequestState) :
    Prop where
  args : r.args = queryAfter target query qsa
  uri : r.uri = withSlash (targetPath target)
  sameUri : state.uri = r.uri
  sameArgs : state.queryString = r.args

theorem targetUri_eq_withSlash (target : NgxStr) :
    targetUri target = withSlash (targetPath target) ↔ targetPath target ≠ [] := by
  rw [targetUri_eq]
  show (if targetPath target ≠ [] ∧ (targetPath target).head? ≠ some (ch '/') then
      ch '/' :: targetPath target else targetPath target) = _ ↔ _
  unfold withSlash
  cases hpath : targetPath target with
  | nil => simp
  | cons c path =>
      by_cases hc : c = ch '/'
      · simp [hc]
      · simp [hc]

def targetArgs (target : NgxStr) : NgxStr := ((ngxStrlchr target (ch '?')).map (·.2)).getD []

/-- The arguments that a target leaves over an old query. -/
def mergedArgs (target query : NgxStr) (qsa : Bool) : NgxStr :=
  if qsa = true ∧ query ≠ [] then
    if targetArgs target ≠ [] then targetArgs target ++ ch '&' :: query else query
  else targetArgs target

section Target
variable (r : Request) (state : RequestState) (target : NgxStr) (qsa : Bool)

theorem htaccessApplyTargetUri_mergedArgs :
    (htaccessApplyTargetUri r state target qsa).1.args =
      mergedArgs target state.queryString qsa := by
  unfold htaccessApplyTargetUri mergedArgs targetArgs
  cases ngxStrlchr target (ch '?') <;> rfl

theorem htaccessApplyTargetUri_args :
    (htaccessApplyTargetUri r state target qsa).1.args =
        queryAfter target state.queryString qsa ↔
      ch '?' ∈ target ∨ qsa = true ∨ state.queryString = [] := by
  unfold htaccessApplyTargetUri queryAfter
  cases hsplit : ngxStrlchr target (ch '?') with
  | none =>
      have hmem : ch '?' ∉ target := ngxStrlchr_eq_none.mp hsplit
      by_cases hquery : state.queryString = []
      · simp [hquery]
      · cases qsa with
        | false => simp [hmem, hquery, eq_comm]
        | true => simp [hquery]
  | some parts =>
      obtain ⟨path, args⟩ := parts
      have hmem : ch '?' ∈ target := by
        rw [(ngxStrlchr_eq_some hsplit).1]
        exact List.mem_append_right _ List.mem_cons_self
      refine iff_of_true ?_ (.inl hmem)
      cases qsa with
      | false => rfl
      | true =>
          by_cases hquery : state.queryString = []
          · by_cases hargs : args = [] <;> simp [hquery, hargs]
          · by_cases hargs : args = [] <;> simp [hquery, hargs]

/-- A target leaves the query string by the law exactly when its path is not empty, and it
has a question mark, or QSA is set, or there is no old query string to lose. -/
theorem apply_target_uri_iff :
    QueryLaw target state.queryString qsa (htaccessApplyTargetUri r state target qsa).1
        (htaccessApplyTargetUri r state target qsa).2 ↔
      targetPath target ≠ [] ∧
        (ch '?' ∈ target ∨ qsa = true ∨ state.queryString = []) := by
  have huri : (htaccessApplyTargetUri r state target qsa).1.uri = targetUri target := rfl
  constructor
  · intro law
    exact ⟨(targetUri_eq_withSlash target).mp (huri ▸ law.uri),
      (htaccessApplyTargetUri_args r state target qsa).mp law.args⟩
  · rintro ⟨hpath, hquery⟩
    exact {
      args := (htaccessApplyTargetUri_args r state target qsa).mpr hquery
      uri := huri.trans ((targetUri_eq_withSlash target).mpr hpath)
      sameUri := rfl
      sameArgs := rfl }

end Target

def visitorState : RequestState := { siteState "/old" with queryString := lit "a=1" }

/-- `RewriteRule old /new` drops the query of `/old?a=1`. -/
theorem query_dropped :
    ¬ QueryLaw (lit "/new") (lit "a=1") false
      (htaccessApplyTargetUri (siteRequest "/old") visitorState (lit "/new") false).1
      (htaccessApplyTargetUri (siteRequest "/old") visitorState (lit "/new") false).2 := by
  intro law
  have hargs := law.args
  revert hargs
  decide +kernel

end NgxHtaccess
