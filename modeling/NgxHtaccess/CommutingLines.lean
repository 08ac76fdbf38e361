import NgxHtaccess.AlikeLists
import NgxHtaccess.Site

/-!
Two neighbouring lines of a file whose directives belong to different families can
change places: the parse has the same outcome, the directives of the two lines are
merged into different parts of the contexts, and a run answers a request as before.
The one reader that sees the order is the password check, when `AuthUserFile` names
the file itself.
-/
namespace NgxHtaccess
open BoundedLoop

/-- The directives that depend on their order among each other. -/
inductive Family where
  | rewrite
  | redirect
  | single (id : DirectiveId)
  deriving DecidableEq

def DirectiveId.family : DirectiveId → Family
  | .rewriteCond | .rewriteRule => .rewrite
  | .redirect | .redirectMatch | .redirectPermanent | .redirectTemp => .redirect
  | id => .single id

/-- The line has the arguments that `htaccess_push_directive` reads. -/
def carriesArgs (id : DirectiveId) (line : List NgxStr) : Bool :=
  match id with
  | .rewriteRule | .redirect | .redirectMatch | .redirectPermanent | .redirectTemp
  | .expiresByType | .errorDocument => 3 ≤ line.length
  | .header => (headerData 0 line).isSome
  | _ => 2 ≤ line.length

section Merge

theorem mergeGlobal_comm {x d : Directive} (h : x.u.id.family ≠ d.u.id.family) (m : MergedCtx) :
    mergeGlobal (mergeGlobal m x) d = mergeGlobal (mergeGlobal m d) x := by
  obtain ⟨scope, u⟩ := x
  obtain ⟨scope', v⟩ := d
  cases u <;> cases v <;>
    first
      | exact absurd rfl h
      | rfl
      | (simp only [mergeGlobal, htaccessMergeDirective]; split <;> rfl)

theorem filterMap_swap {α : Type} {pick : Directive → Option α} {x d : Directive}
    (h : pick x = none ∨ pick d = none) (ds es : List Directive) :
    (ds ++ x :: d :: es).filterMap pick = (ds ++ d :: x :: es).filterMap pick := by
  rcases h with h | h <;> simp [h, List.filterMap_cons]

theorem pick_disjoint {α : Type} {pick : Directive → Option α} {family : Family}
    (hpick : ∀ d, pick d = none ∨ d.u.id.family = family) {x d : Directive}
    (h : x.u.id.family ≠ d.u.id.family) : pick x = none ∨ pick d = none := by
  rcases hpick x with hx | hx
  · exact .inl hx
  · rcases hpick d with hd | hd
    · exact .inr hd
    · exact absurd (hx.trans hd.symm) h

theorem ruleOf_family (d : Directive) : d.ruleOf = none ∨ d.u.id.family = .rewrite := by
  obtain ⟨scope, u⟩ := d
  cases u <;> first | exact .inl rfl | exact .inr rfl

theorem aliasOf_family (d : Directive) : d.aliasOf = none ∨ d.u.id.family = .redirect := by
  obtain ⟨scope, u⟩ := d
  cases u <;> first | exact .inl rfl | exact .inr rfl

theorem engineOf_family (d : Directive) :
    d.engineOf = none ∨ d.u.id.family = .single .rewriteEngine := by
  obtain ⟨scope, u⟩ := d
  cases u <;> first | exact .inl rfl | exact .inr rfl

theorem baseOf_family (d : Directive) :
    d.baseOf = none ∨ d.u.id.family = .single .rewriteBase := by
  obtain ⟨scope, u⟩ := d
  cases u <;> first | exact .inl rfl | exact .inr rfl

theorem filesRule_family (d : Directive) :
    d.filesRule = none ∨ d.u.id.family = .single .require := by
  obtain ⟨scope, u⟩ := d
  cases u <;> first | exact .inl rfl | exact .inr rfl

theorem DirectivesAlike.swap (inert : FilesRule → Bool) {x d : Directive}
    (h : x.u.id.family ≠ d.u.id.family) (ds es : List Directive) :
    DirectivesAlike inert (ds ++ x :: d :: es) (ds ++ d :: x :: es) where
  core m := by
    simp only [List.foldl_append, List.foldl_cons, mergeGlobal_comm h]
  filesRules := by
    rw [filterMap_swap (pick_disjoint filesRule_family h)]
  dir := sameDir_of_selectors (filterMap_swap (pick_disjoint ruleOf_family h) ds es)
    (filterMap_swap (pick_disjoint aliasOf_family h) ds es)
    (filterMap_swap (pick_disjoint engineOf_family h) ds es)
    (filterMap_swap (pick_disjoint baseOf_family h) ds es)

end Merge

section Parse
variable (sys : Sys) (pool : PoolId)

/-- The lists are the same but for two neighbours of different families. -/
inductive Swapped : List Directive → List Directive → Prop where
  | same (ds : List Directive) : Swapped ds ds
  | swap {x d : Directive} (h : x.u.id.family ≠ d.u.id.family) (ds es : List Directive) :
      Swapped (ds ++ x :: d :: es) (ds ++ d :: x :: es)

theorem Swapped.symm {ds ds' : List Directive} (h : Swapped ds ds') : Swapped ds' ds := by
  cases h with
  | same => exact .same _
  | swap h ds es => exact .swap h.symm ds es

theorem Swapped.append {ds ds' : List Directive} (h : Swapped ds ds') (es : List Directive) :
    Swapped (ds ++ es) (ds' ++ es) := by
  cases h with
  | same => exact .same _
  | swap h ds fs =>
      simp only [List.append_assoc, List.cons_append]
      exact .swap h ds (fs ++ es)

theorem Swapped.alike (inert : FilesRule → Bool) {ds ds' : List Directive} (h : Swapped ds ds') :
    DirectivesAlike inert ds ds' := by
  cases h with
  | same => exact .refl inert ds
  | swap h ds es => exact .swap inert h ds es

theorem htaccessPushDirective_plain {id : DirectiveId} (h : id.family ≠ .rewrite)
    (st : ParserState) (line : List NgxStr) :
    htaccessPushDirective sys pool st id line =
      (directiveData sys pool id line none).map fun u =>
        { st with
          directives :=
            st.directives ++ [{ filesMatch := st.filesMatch.getD st.depth [], u }] } := by
  have hdata : directiveData sys pool id line st.pendingConds =
      directiveData sys pool id line none := by
    cases id <;> first | rfl | exact absurd rfl h
  have hcond : id ≠ .rewriteCond := fun hid => h (by rw [hid]; rfl)
  have hrule : id ≠ .rewriteRule := fun hid => h (by rw [hid]; rfl)
  simp only [htaccessPushDirective, if_neg hcond, hdata, hrule, false_and, if_false]

/-- The states differ in the order of two directives at most. -/
def SwappedState (st st' : ParserState) : Prop :=
  st' = { st with directives := st'.directives } ∧ Swapped st.directives st'.directives

theorem parseLine_line {st st' : ParserState} {line : List NgxStr} {id : DirectiveId}
    (hid : lineId line = some id) (h : parseLine sys pool st line = some st') :
    st' = { st with directives := st'.directives, pendingConds := st'.pendingConds } ∧
      (st'.directives = st.directives ∨
        ∃ d, st'.directives = st.directives ++ [d] ∧ d.u.id = id) := by
  have hdirectives := parseLine_directives sys pool h
  rw [parseLine_of_lineId sys pool hid] at h
  refine ⟨?_, hdirectives.imp_right ?_⟩
  · split at h
    · unfold htaccessPushDirective at h
      split at h
      · obtain ⟨cond, _, rfl⟩ := Option.map_eq_some_iff.mp h
        rfl
      · obtain ⟨u, _, rfl⟩ := Option.map_eq_some_iff.mp h
        rfl
    · cases h
      rfl
  · intro hadd
    obtain ⟨t, rest, d, rfl, hd, hst⟩ := hadd
    have hid' : htaccessDirectiveId t = some id := hid
    rw [hid'] at hd
    exact ⟨d, hst, (Option.some.inj hd).symm⟩

/-- A line and a plain one of another family: the plain one adds the same directive
before and after the other. -/
theorem parseLines_swap_plain {a b : List NgxStr} {ida idb : DirectiveId}
    (ha : lineId a = some ida) (hb : lineId b = some idb) (hne : ida.family ≠ idb.family)
    (hplain : idb.family ≠ .rewrite) (st : ParserState) :
    Option.Rel SwappedState (parseLines sys pool [a, b] st) (parseLines sys pool [b, a] st) := by
  by_cases hon : st.enabled.getD st.depth false = true
  swap
  · have hoff : ∀ line id, lineId line = some id → parseLine sys pool st line = some st := by
      intro line id hid
      rw [parseLine_of_lineId sys pool hid, if_neg hon]
    simp only [parseLines_cons, hoff a ida ha, hoff b idb hb, Option.bind_some]
    exact .some ⟨rfl, .same _⟩
  -- what the other line does does not depend on the directives before it
  obtain ⟨before, depth, enabled, filesMatch, pending⟩ := st
  simp only at hon
  have hline := fun ds => parseLine_prefix sys pool ds
    { directives := [], depth, enabled, filesMatch, pendingConds := pending } a
  have hkeep : ∀ st', parseLine sys pool
      { directives := [], depth, enabled, filesMatch, pendingConds := pending } a = some st' → _ :=
    fun st' h => parseLine_line sys pool ha h
  simp only [List.append_nil, List.nil_append] at hline hkeep
  have hb' : ∀ ds pending, parseLine sys pool
      { directives := ds, depth, enabled, filesMatch, pendingConds := pending } b = _ :=
    fun ds pending => (parseLine_of_lineId sys pool hb).trans (if_pos hon)
  simp only [htaccessPushDirective_plain sys pool hplain] at hb'
  rw [parseLines_cons, parseLines_cons, hb', hline]
  generalize parseLine sys pool _ a = first at hline hkeep
  cases hu : directiveData sys pool idb b none with
  | none =>
      cases first with
      | none => exact .none
      | some st' =>
          obtain ⟨hst, _⟩ := hkeep st' rfl
          rw [hst]
          simp only [Option.map_some, Option.bind_some, parseLines_cons, hb', hu, Option.map_none,
            Option.bind_none]
          exact .none
  | some u =>
      simp only [Option.map_some, Option.bind_some, parseLines_cons, hline]
      cases first with
      | none => exact .none
      | some st' =>
          obtain ⟨hst, hdirectives⟩ := hkeep st' rfl
          rw [hst]
          simp only [Option.map_some, Option.bind_some, parseLines_cons, hb', hu]
          refine .some ⟨rfl, ?_⟩
          simp only
          cases hdirectives with
          | inl hnone =>
              rw [hnone, List.append_nil, List.append_nil]
              exact .same _
          | inr hone =>
              obtain ⟨x, hx, hid⟩ := hone
              rw [hx, List.append_assoc, List.append_assoc]
              refine .swap ?_ before []
              rw [hid, directiveData_id sys pool hu]
              exact hne

theorem parseLines_swap {a b : List NgxStr} {ida idb : DirectiveId}
    (ha : lineId a = some ida) (hb : lineId b = some idb) (hne : ida.family ≠ idb.family)
    (st : ParserState) :
    Option.Rel SwappedState (parseLines sys pool [a, b] st) (parseLines sys pool [b, a] st) := by
  by_cases hplain : idb.family = .rewrite
  · have hother : ida.family ≠ .rewrite := fun h => hne (h.trans hplain.symm)
    have hswap := OptionRel.symm (parseLines_swap_plain sys pool hb ha hne.symm hother st)
    refine OptionRel.mono hswap fun st' st'' hst => ⟨?_, hst.2.symm⟩
    rw [hst.1]
  · exact parseLines_swap_plain sys pool ha hb hne hplain st

theorem parseLines_swappedState {st st' : ParserState} (h : SwappedState st st')
    (lines : List (List NgxStr)) :
    Option.Rel SwappedState (parseLines sys pool lines st) (parseLines sys pool lines st') := by
  obtain ⟨hst, hswap⟩ := h
  have hleft := parseLines_prefix sys pool st.directives lines { st with directives := [] }
  have hright := parseLines_prefix sys pool st'.directives lines { st with directives := [] }
  simp only [List.append_nil] at hleft hright
  rw [← hst] at hright
  rw [hleft, hright]
  cases parseLines sys pool lines { st with directives := [] } with
  | none => exact .none
  | some rest => exact .some ⟨rfl, hswap.append rest.directives⟩

/-- The texts differ in the order of two neighbouring directive lines, which belong to
different families and have the arguments they need. -/
inductive LinesSwapped (text text' : NgxStr) : Prop where
  | intro (before after : List (List NgxStr)) (a b : List NgxStr) (ida idb : DirectiveId)
      (whole : Bool) (ha : lineId a = some ida) (hb : lineId b = some idb)
      (hargs : carriesArgs ida a ∧ carriesArgs idb b) (hne : ida.family ≠ idb.family)
      (htext : lexedText text = (before ++ a :: b :: after, whole))
      (htext' : lexedText text' = (before ++ b :: a :: after, whole))

/-- One text parses if and only if the other does, into the same directives but for the
order of two. -/
theorem htaccessParse_swapped {text text' : NgxStr} (h : LinesSwapped text text') :
    Option.Rel (fun file file' => file.pool = file'.pool ∧ Swapped file.directives file'.directives)
      (htaccessParse sys pool text) (htaccessParse sys pool text') := by
  obtain ⟨before, after, a, b, ida, idb, whole, ha, hb, _, hne, htext, htext'⟩ := h
  have hsplit : ∀ x y, before ++ x :: y :: after = before ++ [x, y] ++ after := by
    intro x y
    simp only [List.append_assoc, List.cons_append, List.nil_append]
  rw [hsplit] at htext htext'
  refine htaccessParse_middle sys pool htext htext'
    (fun st _ => parseLines_swap sys pool ha hb hne st) fun t t' ht => ?_
  exact OptionRel.mono (parseLines_swappedState sys pool ht after) fun _ _ hv => hv.2

end Parse

/-- Swapping two neighbouring directive lines of different families changes neither whether
the file parses nor what a run returns, as long as no pass of the run reads its passwords
from the file. The workers that two runs leave are alike again. -/
theorem independent_lines_commute (sys : Sys) (fs' : FileSystem) (conf : LocConf)
    {names : NgxStr → Prop} {text text' : NgxStr} (hlines : LinesSwapped text text')
    (hfile : FileReplaced sys.fs fs' names text text') {r : Request} {w w' : Worker}
    (hw : WorkerAlike sys.fs fs' (fun _ => false) w w')
    (hpasswords : ∀ s, Visits (htaccessPass sys conf r.uri) conf.maxRedirects
      (.initial conf r w) s → ¬ names (sys.unterminated (passCtx sys conf s).authUserFile)) :
    (∀ pool, (htaccessParse sys pool text).isSome = (htaccessParse sys pool text').isSome) ∧
      ExecAlike sys.fs fs' (fun _ => false) (htaccessExecute sys conf r w)
        (htaccessExecute (sys.withFs fs') conf r w') := by
  have hparse := fun pool => htaccessParse_swapped sys pool hlines
  have hreads : ReadsAlike sys fs' fun _ => false := by
    apply hfile.readsAlike
    exact fun pool => OptionRel.mono (hparse pool) fun _ _ h => ⟨h.1, h.2.alike _⟩
  have hinert : ∀ uri, InertOn sys (fun _ => false) uri := fun _ _ h => by cases h
  refine ⟨fun pool => OptionRel.isSome_eq (hparse pool), ?_⟩
  · apply htaccessExecute_alike hreads _ hw
    intro s hvisit
    exact ⟨hfile.others _ (hpasswords s hvisit), fun _ => hinert _, hinert _⟩

def ruleThenRedirect : String :=
  "RewriteEngine On\nRewriteRule old /new [R=301]\nRedirect /a /b\n"

def redirectThenRule : String :=
  "RewriteEngine On\nRedirect /a /b\nRewriteRule old /new [R=301]\n"

theorem independent_lines_commute_rule_redirect :
    ExecAlike (siteFs 0 [("/w/.htaccess", ruleThenRedirect)])
      (siteFs 0 [("/w/.htaccess", redirectThenRule)]) (fun _ => false)
      (htaccessExecute (siteSys (siteFs 0 [("/w/.htaccess", ruleThenRedirect)])) (siteConf 1)
        (siteRequest "/old") (siteWorker 0))
      (htaccessExecute (siteSys (siteFs 0 [("/w/.htaccess", redirectThenRule)])) (siteConf 1)
        (siteRequest "/old") (siteWorker 0)) := by
  refine (independent_lines_commute (siteSys (siteFs 0 _)) _ (siteConf 1)
    (.intro [[lit "RewriteEngine", lit "On"]] []
      [lit "RewriteRule", lit "old", lit "/new", lit "[R=301]"] [lit "Redirect", lit "/a", lit "/b"]
      .rewriteRule .redirect true (by decide) (by decide) (by decide) (by decide)
      (by decide +kernel) (by decide +kernel))
    (.site 0 _ _ _ []) (.cold 0) ?_).2
  intro s hvisit
  cases hvisit with
  | here => decide +kernel
  | later _ hvisit => cases hvisit

def documentThenIndex : String :=
  "AuthUserFile /w/.htaccess\nRequire \"valid-user x\"\nErrorDocument 404 a:b\nDirectoryIndex u:p\n"

def indexThenDocument : String :=
  "AuthUserFile /w/.htaccess\nRequire \"valid-user x\"\nDirectoryIndex u:p\nErrorDocument 404 a:b\n"

/-- The password check scans the file as a whole, so it sees the order of the lines. -/
theorem swapped_lines_change_passwords :
    let r := { siteRequest "/x" with user := lit "DirectoryIndex u", passwd := lit "p" }
    LinesSwapped (lit documentThenIndex) (lit indexThenDocument) ∧
      (htaccessExecute (siteSys (siteFs 0 [("/w/.htaccess", documentThenIndex)])) (siteConf 10) r
        (siteWorker 0)).rc = ngxDeclined ∧
      (htaccessExecute (siteSys (siteFs 0 [("/w/.htaccess", indexThenDocument)])) (siteConf 10) r
        (siteWorker 0)).rc = ngxHttpUnauthorized := by
  refine ⟨.intro [[lit "AuthUserFile", lit "/w/.htaccess"], [lit "Require", lit "valid-user x"]] []
      [lit "ErrorDocument", lit "404", lit "a:b"] [lit "DirectoryIndex", lit "u:p"]
      .errorDocument .directoryIndex true (by decide) (by decide) (by decide) (by decide)
      (by decide +kernel) (by decide +kernel), ?_⟩
  decide +kernel

end NgxHtaccess
