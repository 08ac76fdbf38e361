import NgxHtaccess.ReachedUris
import NgxHtaccess.Site

/-!
The shape of the URI that is handed on: not empty, with a slash at its start and no
question mark. Writing a target puts a slash before a path that has none, but leaves an
empty path as it is; an ErrorDocument is taken over as it is written in its file.
-/
namespace NgxHtaccess
open BoundedLoop

structure WellFormedUri (uri : NgxStr) : Prop where
  ne_nil : uri ≠ []
  slash : uri.head? = some (ch '/')
  no_query : ch '?' ∉ uri

instance (uri : NgxStr) : Decidable (WellFormedUri uri) :=
  decidable_of_iff (uri ≠ [] ∧ uri.head? = some (ch '/') ∧ ch '?' ∉ uri)
    ⟨fun h => ⟨h.1, h.2.1, h.2.2⟩, fun h => ⟨h.ne_nil, h.slash, h.no_query⟩⟩

theorem targetUri_wellFormed (target : NgxStr) :
    WellFormedUri (targetUri target) ↔ target ≠ [] ∧ target.head? ≠ some (ch '?') := by
  have hpath := not_mem_takeWhile_ne target (ch '?')
  have hne : target.takeWhile (· ≠ ch '?') ≠ [] ↔
      target ≠ [] ∧ target.head? ≠ some (ch '?') := by
    cases target with
    | nil => simp
    | cons c target => by_cases hc : c = ch '?' <;> simp [hc]
  rw [← hne, targetUri_eq]
  generalize target.takeWhile (· ≠ ch '?') = path at hpath
  cases path with
  | nil => exact ⟨fun h => absurd rfl h.ne_nil, fun h => absurd rfl h⟩
  | cons c path =>
      refine ⟨fun _ => List.cons_ne_nil c path, fun _ => ?_⟩
      split
      · exact ⟨List.cons_ne_nil _ _, rfl,
          fun hmem => hpath ((List.mem_cons.mp hmem).resolve_left (by decide))⟩
      · rename_i hslash
        refine ⟨List.cons_ne_nil _ _, ?_, hpath⟩
        by_contra hno
        exact hslash ⟨List.cons_ne_nil _ _, hno⟩

section Run
variable (sys : Sys) (conf : LocConf) (r : Request) (w : Worker)

/-- The pass leaves a URI of the shape: the last target that it has written, if it goes
on by a rule or serves, has a path, and the ErrorDocument that it is refused to is a
well-formed URI. -/
structure KeepsShape (s : LoopState) : Prop where
  target : Restarted sys conf r.uri s ∨ Served sys conf r.uri s →
    ∀ out, (passTargets sys conf s).getLast? = some out → out ≠ [] ∧ out.head? ≠ some (ch '?')
  document : ∀ uri, RefusedTo sys conf r.uri s uri → WellFormedUri uri

theorem lastWriteHas_wellFormed (s : LoopState) :
    LastWriteHas sys conf r WellFormedUri s ↔ KeepsShape sys conf r s :=
  ⟨fun h => ⟨fun hgoes out hout => (targetUri_wellFormed out).mp (h.target hgoes out hout),
      h.document⟩,
    fun h => ⟨fun hgoes out hout => (targetUri_wellFormed out).mpr (h.target hgoes out hout),
      h.document⟩⟩

/-- A run on a well-formed URI has one at the start of every pass and at a return of
`NGX_DECLINED` exactly when every pass of it leaves one. -/
theorem uri_wellFormed_iff (h : WellFormedUri r.uri) :
    AtBoundaries sys conf r w WellFormedUri ↔
      ∀ s, Visits (htaccessPass sys conf r.uri) conf.maxRedirects (.initial conf r w) s →
        KeepsShape sys conf r s := by
  rw [atBoundaries_iff h]
  simp only [lastWriteHas_wellFormed]

end Run

/-- A site with one rule whose target is a query. -/
def queryTargetSys : Sys :=
  siteSys (siteFs 0 [("/w/.htaccess", "RewriteEngine On\nRewriteRule old ?x=1 [L]\n")])

theorem uri_wellFormed_iff_site :
    AtBoundaries queryTargetSys (siteConf htaccessMaxRedirectsDefault) (siteRequest "/old")
        (siteWorker 0) WellFormedUri ↔
      ∀ s, Visits (htaccessPass queryTargetSys (siteConf htaccessMaxRedirectsDefault)
          (siteRequest "/old").uri) (siteConf htaccessMaxRedirectsDefault).maxRedirects
          (.initial (siteConf htaccessMaxRedirectsDefault) (siteRequest "/old") (siteWorker 0)) s →
        KeepsShape queryTargetSys (siteConf htaccessMaxRedirectsDefault) (siteRequest "/old") s :=
  uri_wellFormed_iff queryTargetSys (siteConf htaccessMaxRedirectsDefault) (siteRequest "/old")
    (siteWorker 0) (by decide)

/-- The request is handed on with an empty URI, or with a document that has no slash. -/
theorem uri_malformed :
    ¬ AtBoundaries queryTargetSys (siteConf htaccessMaxRedirectsDefault) (siteRequest "/old")
        (siteWorker 0) WellFormedUri ∧
      ¬ AtBoundaries (siteSys (siteFs 0 [("/w/.htaccess",
          "ErrorDocument 403 denied?why\nRequire all denied\n")])) (siteConf 1)
        (siteRequest "/old") (siteWorker 0) WellFormedUri :=
  ⟨fun h => absurd (h.declined (by decide +kernel)) (by decide +kernel),
    fun h => absurd (h.declined (by decide +kernel)) (by decide +kernel)⟩

end NgxHtaccess
