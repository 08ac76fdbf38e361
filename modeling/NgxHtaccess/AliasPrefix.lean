import NgxHtaccess.Site

/-!
The `Redirect` paths of `htaccess_alias_match` as names of subtrees. A path that matches gives
its target as it is, and the rest of the URI is dropped.
-/
namespace NgxHtaccess

/-- The URI goes on behind the path with a new segment. -/
def ContinuesAtBoundary (path uri : NgxStr) : Prop :=
  ∃ c rest, uri = path ++ c :: rest ∧ (c = ch '/' ∨ path.getLast? = some (ch '/'))

/-- What a redirect of the subtree at its source does with a URI. -/
structure MapsSubtree (sys : Sys) (redir : AliasRedirect) (uri : NgxStr) : Prop where
  accepts : (htaccessAliasMatch sys redir uri false).1 = ngxOk ↔
    uri = redir.source ∨ ContinuesAtBoundary redir.source uri
  location : (htaccessAliasMatch sys redir uri false).1 = ngxOk →
    (htaccessAliasMatch sys redir uri false).2 = redir.target ++ uri.drop redir.source.length

/-- The comparison that `htaccess_alias_match` makes: the path, up to a shared NUL, and then
the end of the URI, a slash or a question mark. -/
def StandsAt (path uri : NgxStr) : Prop :=
  path.length ≤ uri.length ∧ ngxStrncmpEq uri path path.length = true ∧
    (uri.length = path.length ∨ uri.getD path.length 0 = ch '/' ∨
      uri.getD path.length 0 = ch '?')

theorem getD_length_append (s : NgxStr) (c : UInt8) (rest : NgxStr) :
    (s ++ c :: rest).getD s.length 0 = c := by
  simp

section
variable (sys : Sys) (redir : AliasRedirect) (uri : NgxStr)

theorem htaccessAliasMatch_ok_iff :
    (htaccessAliasMatch sys redir uri false).1 = ngxOk ↔ StandsAt redir.source uri := by
  have hdeclined : ngxDeclined ≠ ngxOk := by decide
  unfold htaccessAliasMatch StandsAt
  rw [if_neg Bool.false_ne_true]
  by_cases hlength : uri.length < redir.source.length
  · rw [if_pos hlength]
    exact ⟨fun h => absurd h hdeclined, fun h => absurd h.1 (by omega)⟩
  rw [if_neg hlength]
  cases hcmp : ngxStrncmpEq uri redir.source redir.source.length with
  | false => exact ⟨fun h => absurd h hdeclined, fun h => absurd h.2.1 Bool.false_ne_true⟩
  | true =>
      simp only [Bool.not_true, Bool.false_eq_true, if_false]
      split
      · rename_i hnext
        exact ⟨fun _ => ⟨by omega, trivial, hnext⟩, fun _ => rfl⟩
      · rename_i hnext
        exact ⟨fun h => absurd h hdeclined, fun h => absurd h.2.2 hnext⟩

theorem htaccessAliasMatch_target (h : (htaccessAliasMatch sys redir uri false).1 = ngxOk) :
    (htaccessAliasMatch sys redir uri false).2 = redir.target := by
  have hdeclined : ngxDeclined ≠ ngxOk := by decide
  unfold htaccessAliasMatch at h ⊢
  rw [if_neg Bool.false_ne_true] at h ⊢
  split at h
  · exact absurd h hdeclined
  · rename_i hlength
    rw [if_neg hlength]
    split at h
    · exact absurd h hdeclined
    · rename_i hcmp
      rw [if_neg hcmp]
      simp only at h ⊢
      split at h
      · rename_i hnext
        rw [if_pos hnext]
      · exact absurd h hdeclined

end

theorem standsAt_self (path : NgxStr) : StandsAt path path := by
  have hcmp := ngxStrncmpEq_self path
  exact ⟨Nat.le_refl _, hcmp, .inl rfl⟩

/-- Behind a slash of its own a path is followed by any byte, and the code asks for a slash
or a question mark. -/
theorem standsAt_of_continues {path uri : NgxStr} (h : ContinuesAtBoundary path uri)
    (hslash : path.getLast? ≠ some (ch '/')) : StandsAt path uri := by
  obtain ⟨c, rest, rfl, hc⟩ := h
  have hc' : c = ch '/' := hc.resolve_right hslash
  refine ⟨by simp, ngxStrncmpEq_append_self path _, .inr (.inl ?_)⟩
  rw [getD_length_append, hc']

/-- A redirect maps its subtree at the path itself and where nothing is redirected: not at a
URI that goes on behind the path. -/
theorem mapsSubtree_iff (sys : Sys) (redir : AliasRedirect) (uri : NgxStr) :
    MapsSubtree sys redir uri ↔
      uri = redir.source ∨
        ¬ StandsAt redir.source uri ∧
          ¬ (redir.source <+: uri ∧ redir.source.getLast? = some (ch '/')) := by
  constructor
  · intro h
    by_cases hself : uri = redir.source
    · exact .inl hself
    refine .inr ⟨fun hstands => ?_, ?_⟩
    · -- the target alone is the location of the path alone
      have hok := (htaccessAliasMatch_ok_iff sys redir uri).mpr hstands
      have hlocation := h.location hok
      rw [htaccessAliasMatch_target sys redir uri hok] at hlocation
      have hrest := List.self_eq_append_right.mp hlocation
      rcases h.accepts.mp hok with heq | ⟨c, rest, heq, -⟩
      · exact hself heq
      · rw [heq, List.drop_left] at hrest
        cases hrest
    · rintro ⟨⟨rest, heq⟩, hslash⟩
      cases rest with
      | nil => exact hself (by rw [← heq, List.append_nil])
      | cons c rest =>
          have hok := h.accepts.mpr (.inr ⟨c, rest, heq.symm, .inr hslash⟩)
          have hlocation := h.location hok
          rw [htaccessAliasMatch_target sys redir uri hok, ← heq, List.drop_left] at hlocation
          cases List.self_eq_append_right.mp hlocation
  · rintro (heq | ⟨hstands, hslash⟩)
    · have hok : (htaccessAliasMatch sys redir uri false).1 = ngxOk :=
        (htaccessAliasMatch_ok_iff sys redir uri).mpr (heq ▸ standsAt_self redir.source)
      refine ⟨⟨fun _ => .inl heq, fun _ => hok⟩, fun _ => ?_⟩
      rw [htaccessAliasMatch_target sys redir uri hok, heq, List.drop_length, List.append_nil]
    · have hnot : ¬ (htaccessAliasMatch sys redir uri false).1 = ngxOk := fun hok =>
        hstands ((htaccessAliasMatch_ok_iff sys redir uri).mp hok)
      refine ⟨⟨fun hok => absurd hok hnot, fun hunder => absurd ?_ hstands⟩,
        fun hok => absurd hok hnot⟩
      rcases hunder with heq | hcontinues
      · exact heq ▸ standsAt_self redir.source
      · refine standsAt_of_continues hcontinues fun hlast => hslash ⟨?_, hlast⟩
        obtain ⟨c, rest, heq, -⟩ := hcontinues
        exact ⟨c :: rest, heq.symm⟩

/-- The page below `/old` is redirected to `/new` and not to its own new place. -/
theorem page_below_lost :
    ¬ MapsSubtree (siteSys (siteFs 0 [])) ⟨lit "/old", lit "/new", false⟩ (lit "/old/page") := by
  intro h
  exact absurd (h.location (by decide)) (by decide)

end NgxHtaccess
