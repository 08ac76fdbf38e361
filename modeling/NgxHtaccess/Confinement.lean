import Mathlib.Data.List.Infix
import NgxHtaccess.CapturedQuery
import NgxHtaccess.ReachedUris

/-!
Confinement to the document root. The module never looks for a segment of two dots: with
none in the templates a URI has one exactly when a reference puts a dot into it, and
without one every file that the walk opens is below the root.
-/
namespace NgxHtaccess
open BoundedLoop

section Segments

/-- The parts of a path between slashes; a NUL ends a path and so a part. -/
def segments (path : NgxStr) : List NgxStr := path.splitOnP fun c => c = ch '/' || c = 0

/-- No segment of the path leads upwards. -/
def StaysBelow (path : NgxStr) : Prop := lit ".." ∉ segments path

instance (path : NgxStr) : Decidable (StaysBelow path) := inferInstanceAs (Decidable (¬ _))

theorem staysBelow_append_slash (a b : NgxStr) :
    StaysBelow (a ++ ch '/' :: b) ↔ StaysBelow a ∧ StaysBelow b := by
  unfold StaysBelow segments
  rw [List.splitOnP_append_cons a b (by decide), List.mem_append, not_or]

theorem staysBelow_nil : StaysBelow [] := by decide

theorem staysBelow_slash (path : NgxStr) : StaysBelow (ch '/' :: path) ↔ StaysBelow path := by
  have happend := staysBelow_append_slash [] path
  simpa only [List.nil_append, staysBelow_nil, true_and] using happend

theorem splitOnP_infix {α : Type} (p : α → Bool) (xs : List α) :
    ∃ first rest, xs.splitOnP p = first :: rest ∧ first <+: xs ∧ ∀ x ∈ rest, x <:+: xs := by
  induction xs with
  | nil => exact ⟨[], [], rfl, List.prefix_refl _, fun x hx => by cases hx⟩
  | cons c xs ih =>
      obtain ⟨first, rest, hsegments, hfirst, hrest⟩ := ih
      have hwithin : ∀ x ∈ rest, x <:+: c :: xs := fun x hx =>
        (hrest x hx).trans (List.suffix_cons c xs).isInfix
      rw [List.splitOnP_cons_eq_if_modifyHead, hsegments]
      split
      · refine ⟨[], _, rfl, List.nil_prefix, fun x hx => ?_⟩
        rcases List.mem_cons.mp hx with rfl | hx
        · exact hfirst.isInfix.trans (List.suffix_cons c xs).isInfix
        · exact hwithin x hx
      · exact ⟨c :: first, rest, rfl, (List.prefix_cons_inj c).mpr hfirst, hwithin⟩

theorem infix_of_mem_splitOnP {α : Type} {p : α → Bool} {xs x : List α}
    (h : x ∈ xs.splitOnP p) : x <:+: xs := by
  obtain ⟨first, rest, hsegments, hfirst, hrest⟩ := splitOnP_infix p xs
  rw [hsegments] at h
  cases List.mem_cons.mp h with
  | inl heq => exact heq ▸ hfirst.isInfix
  | inr hmem => exact hrest x hmem

theorem staysBelow_of_no_dots {path : NgxStr} (h : ¬ lit ".." <:+: path) : StaysBelow path :=
  fun hmem => h (infix_of_mem_splitOnP hmem)

theorem staysBelow_targetUri (target : NgxStr) :
    StaysBelow (targetUri target) ↔ StaysBelow (target.takeWhile (· ≠ ch '?')) := by
  rw [targetUri_eq]
  split
  · exact staysBelow_slash _
  · exact Iff.rfl

end Segments

section Marks

def Piece.isReference : Piece → Bool
  | .byte _ => false
  | .capture _ | .named _ => true

/-- The bytes of a text, with a mark on those that a reference stands for. -/
abbrev MarkedStr := List (UInt8 × Bool)

def MarkedStr.text (t : MarkedStr) : NgxStr := t.map Prod.fst

def MarkedStr.own (t : MarkedStr) : NgxStr := (t.filter fun b => !b.2).map Prod.fst

/-- The bytes of the pieces that stand for themselves. -/
def ownBytes (ps : List Piece) : NgxStr :=
  ps.filterMap fun
    | .byte c => some c
    | _ => none

section Pieces
variable (sys : Sys) (r : Request) (state : RequestState) (m : Option MatchCtx)

def markedText (ps : List Piece) : MarkedStr :=
  ps.flatMap fun p => (p.text sys r state m).map fun c => (c, p.isReference)

theorem markedText_text (ps : List Piece) :
    (markedText sys r state m ps).text = piecesText sys r state m ps := by
  simp only [MarkedStr.text, markedText, piecesText, List.map_flatMap, List.map_map,
    Function.comp_def, List.map_id']

theorem markedText_own (ps : List Piece) : (markedText sys r state m ps).own = ownBytes ps := by
  induction ps with
  | nil => rfl
  | cons p ps ih =>
      have hsplit : (markedText sys r state m (p :: ps)).own =
          MarkedStr.own ((p.text sys r state m).map fun c => (c, p.isReference)) ++
            (markedText sys r state m ps).own := by
        simp only [MarkedStr.own, markedText, List.flatMap_cons, List.filter_append,
          List.map_append]
      rw [hsplit, ih]
      cases p with
      | byte c => rfl
      | capture d | named name =>
          simp [MarkedStr.own, ownBytes, List.filter_map, Piece.isReference, Function.comp_def]

end Pieces

def markedSegments (t : MarkedStr) : List MarkedStr := t.splitOnP fun b => b.1 = ch '/' || b.1 = 0

/-- A reference puts a dot into a segment of two in the path of the target. -/
def TakesDots (t : MarkedStr) : Prop :=
  ∃ segment ∈ markedSegments (t.takeWhile fun b => b.1 ≠ ch '?'),
    segment.text = lit ".." ∧ ∃ b ∈ segment, b.2 = true

instance (t : MarkedStr) : Decidable (TakesDots t) :=
  inferInstanceAs (Decidable (∃ segment ∈ _, _ ∧ _))

theorem segments_text (t : MarkedStr) :
    segments t.text = (markedSegments t).map MarkedStr.text := by
  unfold segments markedSegments
  induction t with
  | nil => rfl
  | cons b t ih =>
      have htext : MarkedStr.text (b :: t) = b.1 :: MarkedStr.text t := rfl
      rw [htext, List.splitOnP_cons_eq_if_modifyHead, List.splitOnP_cons_eq_if_modifyHead, ih]
      split
      · rfl
      · obtain ⟨first, rest, hcons⟩ := List.exists_cons_of_ne_nil
          (List.splitOnP_ne_nil (fun b : UInt8 × Bool => b.1 = ch '/' || b.1 = 0) t)
        rw [hcons]
        rfl

/-- With no two dots in what is left without the references, a segment of two dots has one from a
reference. -/
theorem staysBelow_iff_not_takesDots {t : MarkedStr} (h : ¬ lit ".." <:+: t.own) :
    StaysBelow (t.text.takeWhile (· ≠ ch '?')) ↔ ¬ TakesDots t := by
  have hpath : t.text.takeWhile (· ≠ ch '?') =
      MarkedStr.text (t.takeWhile fun b => b.1 ≠ ch '?') := by
    rw [MarkedStr.text, List.takeWhile_map]
    rfl
  rw [StaysBelow, not_iff_not, hpath, segments_text, List.mem_map]
  constructor
  · rintro ⟨segment, hmem, htext⟩
    refine ⟨segment, hmem, htext, ?_⟩
    by_contra hnone
    have hown : segment.own = lit ".." := by
      have hall : segment.filter (fun b => !b.2) = segment :=
        List.filter_eq_self.mpr fun b hb => by
          rw [Bool.not_eq_true', ← Bool.not_eq_true]
          exact fun hmarked => hnone ⟨b, hb, hmarked⟩
      rw [MarkedStr.own, hall]
      exact htext
    have hwithin := (infix_of_mem_splitOnP hmem).trans (List.takeWhile_prefix _).isInfix
    exact h (hown ▸ (hwithin.filter _).map Prod.fst)
  · rintro ⟨segment, hmem, htext, -⟩
    exact ⟨segment, hmem, htext⟩

end Marks

section Walk
variable (conf : LocConf)

/-- The path is that of the configured file in a directory below the root. -/
def OpensBelowRoot (path : NgxStr) : Prop :=
  ∃ dir, path = cString (conf.root ++ dir ++ conf.filename) ∧ StaysBelow dir ∧
    (conf.root.getLast? = some (ch '/') ∨ dir.head? = some (ch '/'))

theorem htaccessJoinPath_below {suffix : NgxStr} (h : StaysBelow suffix) :
    OpensBelowRoot conf (cString (htaccessJoinPath conf.root suffix conf.filename).1) := by
  have htail : ∃ tail, StaysBelow tail ∧ (htaccessJoinPath conf.root suffix conf.filename).1 =
      conf.root ++ (if conf.root.getLast? = some (ch '/') then [] else [ch '/']) ++ tail ++
        conf.filename := by
    refine ⟨_, ?_, rfl⟩
    split
    · exact staysBelow_nil
    · split
      · rwa [List.append_nil]
      · exact (staysBelow_append_slash suffix []).mpr ⟨h, staysBelow_nil⟩
  obtain ⟨tail, hbelow, hpath⟩ := htail
  rw [hpath]
  split
  · rename_i hroot
    exact ⟨tail, by rw [List.append_nil], hbelow, .inl hroot⟩
  · exact ⟨ch '/' :: tail, by simp, (staysBelow_slash tail).mpr hbelow, .inr rfl⟩

/-- Behind its first byte a URI leads no further up. -/
def ConfinedUri (uri : NgxStr) : Prop := StaysBelow uri ∧ StaysBelow (uri.drop 1)

theorem confinedUri_of_slash {uri : NgxStr} (h : StaysBelow uri)
    (hslash : uri = [] ∨ uri.head? = some (ch '/')) : ConfinedUri uri := by
  refine ⟨h, ?_⟩
  cases uri with
  | nil => exact h
  | cons c uri =>
      rcases hslash with hnil | hhead
      · cases hnil
      · injection hhead with hc
        rw [hc] at h
        exact (staysBelow_slash uri).mp h

/-- Every file of the walk along a confined URI is below the root. -/
theorem walkDirs_below {uri : NgxStr} (h : ConfinedUri uri) :
    ∀ d ∈ walkDirs conf uri, OpensBelowRoot conf d.path := by
  intro d hd
  rcases List.mem_cons.mp hd with rfl | hd
  · exact htaccessJoinPath_below conf staysBelow_nil
  · obtain ⟨i, hi, rfl⟩ := List.mem_map.mp hd
    simp only [List.mem_filter, List.mem_range, Bool.and_eq_true, decide_eq_true_eq] at hi
    obtain ⟨hlt, hpos, hslash⟩ := hi
    cases uri with
    | nil => cases hlt
    | cons c uri =>
        obtain ⟨j, rfl⟩ : ∃ j, i = j + 1 := ⟨i - 1, by omega⟩
        have hj : j < uri.length := Nat.lt_of_succ_lt_succ hlt
        have hget : uri[j] = ch '/' := by
          rwa [List.getD_eq_getElem?_getD, List.getElem?_cons_succ, List.getElem?_eq_getElem hj,
            Option.getD_some] at hslash
        -- the suffix is followed by the slash that the walk has stopped at
        have hsplit : uri = uri.take j ++ ch '/' :: uri.drop (j + 1) := by
          rw [← hget, List.getElem_cons_drop, List.take_append_drop]
        have hbelow : StaysBelow uri := h.2
        rw [hsplit] at hbelow
        exact htaccessJoinPath_below conf ((staysBelow_append_slash _ _).mp hbelow).1

/-- The root with the URI behind it, where a request is looked for, is below the root. -/
def MapsBelowRoot (uri : NgxStr) : Prop :=
  ∃ below, conf.root ++ uri = conf.root ++ ch '/' :: below ∧ StaysBelow below

theorem mapsBelowRoot_of_slash {uri : NgxStr} (h : StaysBelow uri)
    (hslash : uri.head? = some (ch '/')) : MapsBelowRoot conf uri := by
  obtain ⟨below, rfl⟩ := List.head?_eq_some_iff.mp hslash
  exact ⟨below, rfl, (staysBelow_slash below).mp h⟩

end Walk

section Run
variable (sys : Sys) (conf : LocConf) (r : Request) (w : Worker)

/-- The target that a rule writes, with its marks. -/
def stepMarks (y : (DirCtx × RewriteRule) × RewriteState) : Option MarkedStr :=
  (ruleMatch sys conf y.1.1 y.1.2 y.2).bind fun m =>
    if y.1.2.writesNothing then none
    else
      let s := matchedState sys y.1.2 y.2 m
      (htaccessExpand sys s.r s.state y.1.2.substitution (some m)).map fun sub =>
        markedText sys s.r s.state (some m) (targetPieces sys y.1.1 y.1.2 s m sub)

def passMarks (s : LoopState) : List MarkedStr :=
  (ruleSteps sys conf s).filterMap (stepMarks sys conf)

theorem stepMarks_text (y : (DirCtx × RewriteRule) × RewriteState) :
    (stepMarks sys conf y).map MarkedStr.text = stepTarget sys conf y := by
  unfold stepMarks stepTarget writtenTarget
  cases ruleMatch sys conf y.1.1 y.1.2 y.2 with
  | none => rfl
  | some m =>
      simp only [Option.bind_some]
      split
      · rfl
      · rw [Option.map_map]
        refine Option.map_congr fun sub hsub => ?_
        rw [Function.comp_apply, markedText_text]
        exact (ruleTarget_text sys y.1.1 y.1.2 _ m hsub).symm

theorem passMarks_text (s : LoopState) :
    (passMarks sys conf s).map MarkedStr.text = passTargets sys conf s := by
  rw [passMarks, passTargets, List.map_filterMap]
  exact congrArg (List.filterMap · _) (funext (stepMarks_text sys conf))

/-- The template has no two dots in a row, neither as it is written nor when escapes are resolved
and references left out. -/
structure DotlessTemplate (tpl : NgxStr) : Prop where
  written : ¬ lit ".." <:+: tpl
  own : ¬ lit ".." <:+: ownBytes (templatePieces tpl)

instance (tpl : NgxStr) : Decidable (DotlessTemplate tpl) :=
  decidable_of_iff (¬ lit ".." <:+: tpl ∧ ¬ lit ".." <:+: ownBytes (templatePieces tpl))
    ⟨fun h => ⟨h.1, h.2⟩, fun h => ⟨h.written, h.own⟩⟩

/-- No template of a rule along the URI of the pass has two dots in a row, nor with the RewriteBase
in front. -/
def TemplatesDotless (s : LoopState) : Prop :=
  ∀ x ∈ scannedRules (passCtx sys conf s).dirs,
    DotlessTemplate x.2.substitution ∧ DotlessTemplate (x.1.rewriteBase ++ x.2.substitution)

theorem dotless_applySubstitution {base : NgxStr} {rule : RewriteRule} (input : NgxStr)
    (hdash : rule.substitution ≠ lit "-") (h : DotlessTemplate rule.substitution)
    (hbase : DotlessTemplate (base ++ rule.substitution)) :
    DotlessTemplate (htaccessApplySubstitution rule input base) := by
  unfold htaccessApplySubstitution
  rw [if_neg hdash]
  split
  · exact h
  split
  · exact h
  · exact hbase

theorem ownBytes_bytes (text : NgxStr) : ownBytes (text.map .byte) = text := by
  rw [ownBytes, List.filterMap_map]
  exact List.filterMap_some

theorem not_infix_own {s : LoopState} (h : TemplatesDotless sys conf s) :
    ∀ target ∈ passMarks sys conf s, ¬ lit ".." <:+: target.own := by
  intro target hmem
  obtain ⟨y, hy, htarget⟩ := List.mem_filterMap.mp hmem
  obtain ⟨hplain, hbase⟩ := h _ (Scan.mem_of_mem_trace hy)
  obtain ⟨m, -, hwrites⟩ := Option.bind_eq_some_iff.mp htarget
  split at hwrites
  · cases hwrites
  rename_i hwritten
  have hdash : y.1.2.substitution ≠ lit "-" := fun hdash => hwritten (by
    simp only [RewriteRule.writesNothing, hdash, decide_true, Bool.true_or])
  obtain ⟨sub, -, rfl⟩ := Option.map_eq_some_iff.mp hwrites
  rw [markedText_own, targetPieces]
  have htemplate := dotless_applySubstitution m.subject hdash hplain hbase
  split
  · split
    · exact htemplate.own
    · rw [ownBytes_bytes]
      exact htemplate.written
  · exact hplain.own

/-- No reference of a target that the rules of the pass write makes a segment of two dots. -/
def ReferencesStayBelow (s : LoopState) : Prop :=
  RunsEngine sys conf r.uri s → ∀ target ∈ passMarks sys conf s, ¬ TakesDots target

/-- No ErrorDocument along the URI of the pass has two dots in a row. -/
def DocumentsDotless (s : LoopState) : Prop :=
  ∀ doc ∈ (passCtx sys conf s).errorDocuments.getD [], ¬ lit ".." <:+: doc.uri

theorem not_infix_of_refusedTo {s : LoopState} {uri : NgxStr} (h : DocumentsDotless sys conf s)
    (hrefused : RefusedTo sys conf r.uri s uri) : ¬ lit ".." <:+: uri := by
  obtain ⟨code, _, _, _, hdoc⟩ := hrefused
  obtain ⟨doc, hfind, rfl⟩ := Option.map_eq_some_iff.mp hdoc
  exact h doc (List.mem_of_find?_eq_some hfind)

theorem confinedUri_of_no_dots {uri : NgxStr} (h : ¬ lit ".." <:+: uri) : ConfinedUri uri :=
  ⟨staysBelow_of_no_dots h, staysBelow_of_no_dots fun hdrop =>
    h (hdrop.trans (List.drop_suffix 1 uri).isInfix)⟩

theorem targetUri_slash (target : NgxStr) :
    targetUri target = [] ∨ (targetUri target).head? = some (ch '/') := by
  rw [targetUri_eq]
  split
  · exact .inr rfl
  · rename_i hshape
    by_cases hnil : target.takeWhile (· ≠ ch '?') = []
    · exact .inl hnil
    · exact .inr (not_not.mp fun hslash => hshape ⟨hnil, hslash⟩)

/-- A run on a URI without a segment of two dots, whose templates and ErrorDocuments have no dots
in a row: no URI that it reaches leads upwards exactly when no reference makes a segment of two
dots in a target. Then every file that its walks open is below the root, and so is what the URI
that it hands on is mapped to. -/
theorem uris_confined (hbelow : StaysBelow r.uri)
    (htemplates : ∀ s, Visits (htaccessPass sys conf r.uri) conf.maxRedirects
      (.initial conf r w) s → TemplatesDotless sys conf s)
    (hdocs : ∀ s, Visits (htaccessPass sys conf r.uri) conf.maxRedirects (.initial conf r w) s →
      DocumentsDotless sys conf s) :
    ((∀ uri, ReachesUri sys conf r w uri → StaysBelow uri) ↔
      ∀ s, Visits (htaccessPass sys conf r.uri) conf.maxRedirects (.initial conf r w) s →
        ReferencesStayBelow sys conf r s) ∧
    (r.uri.head? = some (ch '/') → (∀ uri, ReachesUri sys conf r w uri → StaysBelow uri) →
      (∀ s, Visits (htaccessPass sys conf r.uri) conf.maxRedirects (.initial conf r w) s →
        ∀ d ∈ walkDirs conf s.r.uri, OpensBelowRoot conf d.path) ∧
      ((htaccessExecute sys conf r w).rc = ngxDeclined →
        StaysBelow (htaccessExecute sys conf r w).r.uri ∧
          ((htaccessExecute sys conf r w).r.uri.head? = some (ch '/') →
            MapsBelowRoot conf (htaccessExecute sys conf r w).r.uri))) := by
  have htargets : (∀ uri, ReachesUri sys conf r w uri → StaysBelow uri) ↔
      ∀ s, Visits (htaccessPass sys conf r.uri) conf.maxRedirects (.initial conf r w) s →
        RunsEngine sys conf r.uri s →
          ∀ out ∈ passTargets sys conf s, StaysBelow (out.takeWhile (· ≠ ch '?')) := by
    rw [reachesUri_iff hbelow fun s hvisit uri hrefused => staysBelow_of_no_dots
      (not_infix_of_refusedTo sys conf r (hdocs s hvisit) hrefused)]
    simp only [staysBelow_targetUri]
  have hiff : (∀ uri, ReachesUri sys conf r w uri → StaysBelow uri) ↔
      ∀ s, Visits (htaccessPass sys conf r.uri) conf.maxRedirects (.initial conf r w) s →
        ReferencesStayBelow sys conf r s := by
    rw [htargets]
    refine forall₂_congr fun s hvisit => forall_congr' fun hruns => ?_
    rw [← passMarks_text, List.forall_mem_map]
    exact forall₂_congr fun target hmem =>
      staysBelow_iff_not_takesDots (not_infix_own sys conf (htemplates s hvisit) target hmem)
  refine ⟨hiff, fun hslash hall => ⟨fun s hvisit => walkDirs_below conf ?_, fun hrc => ?_⟩⟩
  · -- behind its first byte no reached URI leads upwards either
    have hconfined := reachesUri_iff (confinedUri_of_slash hbelow (.inr hslash))
      fun s hvisit uri hrefused => confinedUri_of_no_dots
        (not_infix_of_refusedTo sys conf r (hdocs s hvisit) hrefused)
    refine hconfined.mpr (fun s hvisit hruns out hout => ?_) _ (.start s hvisit)
    exact confinedUri_of_slash
      ((staysBelow_targetUri out).mpr (htargets.mp hall s hvisit hruns out hout))
      (targetUri_slash out)
  · have hend := hall _ (reachesUri_of_declined hrc)
    exact ⟨hend, mapsBelowRoot_of_slash conf hend⟩

end Run

/-- A site with a rule that takes a directory from a request header, and one that is put behind a
base. -/
def headerTargetSys : Sys :=
  siteSys (siteFs 0 [("/w/.htaccess",
    "RewriteEngine On\nRewriteBase /a.b/\nRewriteRule old x.%{QUERY_STRING}\n" ++
      "RewriteRule pub /%{HTTP:X-P}/secret [L]\nErrorDocument 403 /denied\n")])

def headerTargetRequest (value : String) : Request :=
  { siteRequest "/pub" with headersIn := [(lit "X-P", lit value)] }

theorem uris_confined_site :
    (∀ uri, ReachesUri headerTargetSys (siteConf 1) (headerTargetRequest ".") (siteWorker 0) uri →
      StaysBelow uri) ∧
    ∀ s, Visits (htaccessPass headerTargetSys (siteConf 1) (headerTargetRequest ".").uri)
        (siteConf 1).maxRedirects
        (.initial (siteConf 1) (headerTargetRequest ".") (siteWorker 0)) s →
      ∀ d ∈ walkDirs (siteConf 1) s.r.uri, OpensBelowRoot (siteConf 1) d.path := by
  -- there is one pass
  have hone : ∀ {P : LoopState → Prop},
      P (.initial (siteConf 1) (headerTargetRequest ".") (siteWorker 0)) →
        ∀ s, Visits (htaccessPass headerTargetSys (siteConf 1) (headerTargetRequest ".").uri)
          (siteConf 1).maxRedirects
          (.initial (siteConf 1) (headerTargetRequest ".") (siteWorker 0)) s → P s := by
    intro P hP s hvisit
    cases hvisit with
    | here _ _ => exact hP
    | later _ hv => cases hv
  obtain ⟨hiff, hroot⟩ := uris_confined headerTargetSys (siteConf 1) (headerTargetRequest ".")
    (siteWorker 0) (by decide) (hone (by unfold TemplatesDotless; decide +kernel))
    (hone (by unfold DocumentsDotless; decide +kernel))
  have hbelow := hiff.mpr (hone (by unfold ReferencesStayBelow; decide +kernel))
  exact ⟨hbelow, (hroot (by decide) hbelow).1⟩

/-- A header value of two dots takes the URI and the walk out of the root. -/
theorem uri_leaves_root :
    ¬ (∀ uri, ReachesUri headerTargetSys (siteConf htaccessMaxRedirectsDefault)
        (headerTargetRequest "..") (siteWorker 0) uri → StaysBelow uri) ∧
      ∃ d ∈ walkDirs (siteConf htaccessMaxRedirectsDefault)
          (htaccessExecute headerTargetSys (siteConf htaccessMaxRedirectsDefault)
            (headerTargetRequest "..") (siteWorker 0)).r.uri,
        d.path = lit "/w/../.htaccess" := by
  refine ⟨fun hall => ?_, by decide +kernel⟩
  exact absurd (hall _ (reachesUri_of_declined (by decide +kernel))) (by decide +kernel)

end NgxHtaccess
