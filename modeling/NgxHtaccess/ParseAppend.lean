import NgxHtaccess.BlockLines
import NgxHtaccess.CommutingLines
import NgxHtaccess.LexAppend

/-!
The parse of two texts one behind the other. After a text whose blocks are closed and whose
conditions are used up, the parser differs from a fresh one in slots of the stacks that no
later line reads, so the second text is parsed as it is on its own.
-/
namespace NgxHtaccess

/-- Every line about a directive has the arguments that the directive needs. -/
def CarriesArgs (lines : List (List NgxStr)) : Prop :=
  ∀ line ∈ lines, ∀ id ∈ lineId line, carriesArgs id line = true

/-- Every RewriteCond has a RewriteRule after it. -/
def CondsUsed : List (List NgxStr) → Prop
  | [] => True
  | line :: lines =>
      (lineId line = some .rewriteCond → ∃ rule ∈ lines, lineId rule = some .rewriteRule) ∧
        CondsUsed lines

instance CondsUsed.decidable : (lines : List (List NgxStr)) → Decidable (CondsUsed lines)
  | [] => isTrue trivial
  | line :: lines =>
      haveI := CondsUsed.decidable lines
      inferInstanceAs (Decidable ((lineId line = some .rewriteCond →
        ∃ rule ∈ lines, lineId rule = some .rewriteRule) ∧ CondsUsed lines))

/-- The first text ends a line, leaves no block open and no condition waiting. -/
structure Composes (sys : Sys) (pool : PoolId) (A B : NgxStr) : Prop where
  ends : EndsLine A
  closed : ∃ st, htaccessParseLoop sys pool A.length A .initial = some st ∧ st.depth = 0
  conds : CondsUsed (lexedText A).1
  args : CarriesArgs (lexedText A).1
  args' : CarriesArgs (lexedText B).1

theorem CarriesArgs.argsGiven {lines : List (List NgxStr)} (h : CarriesArgs lines) :
    ArgsGiven lines := by
  intro line hline id hid
  have hcarries := h line hline id hid
  cases id <;> first
    | exact .inl rfl
    | exact .inr (of_decide_eq_true hcarries)

section Nesting
variable (sys : Sys) (pool : PoolId)

theorem parseLine_scope {st st' : ParserState} {line : List NgxStr} {id : DirectiveId}
    (hst : Nested st) (hid : lineId line = some id) (h : parseLine sys pool st line = some st') :
    st'.depth = st.depth ∧ st'.filesMatch = st.filesMatch ∧
      st'.directives.map (·.filesMatch) = st.directives.map (·.filesMatch) ++
        if id = .rewriteCond then [] else [st.filesMatch.getD st.depth []] := by
  rw [parseLine_of_lineId sys pool hid, if_pos (hst.on _ (Nat.le_refl _)),
    htaccessPushDirective] at h
  split at h
  · rename_i hcond
    obtain ⟨cond, _, rfl⟩ := Option.map_eq_some_iff.mp h
    rw [if_pos hcond, List.append_nil]
    exact ⟨rfl, rfl, rfl⟩
  · rename_i hcond
    obtain ⟨u, _, rfl⟩ := Option.map_eq_some_iff.mp h
    rw [if_neg hcond]
    exact ⟨rfl, rfl, List.map_append⟩

theorem parseLines_count {lines : List (List NgxStr)} {st st' : ParserState} (hst : Nested st)
    (hlines : ∀ line ∈ lines, ∃ id, lineId line = some id)
    (h : parseLines sys pool lines st = some st') :
    st'.directives.length = st.directives.length +
      lines.countP fun line => lineId line ≠ some .rewriteCond := by
  induction lines generalizing st with
  | nil =>
      cases h
      rfl
  | cons line lines ih =>
      rw [parseLines_cons] at h
      obtain ⟨mid, hline, hrest⟩ := Option.bind_eq_some_iff.mp h
      obtain ⟨id, hid⟩ := hlines line List.mem_cons_self
      have hcount := ih (parseLine_nested sys pool hst hline)
        (fun l hl => hlines l (List.mem_cons_of_mem _ hl)) hrest
      have hone := congrArg List.length (parseLine_scope sys pool hst hid hline).2.2
      rw [List.length_append, List.length_map, List.length_map] at hone
      rw [hcount, hone, List.countP_cons, hid]
      by_cases hcond : id = .rewriteCond
      · simp [hcond]
      · simp [hcond]
        omega

/-- A line about something else leaves the waiting conditions alone, a RewriteRule uses them
up, and there is no waiting list without conditions. -/
theorem parseLine_pendingConds {st st' : ParserState} {line : List NgxStr} (hst : Nested st)
    (hconds : st.pendingConds ≠ some []) (h : parseLine sys pool st line = some st') :
    st'.pendingConds ≠ some [] ∧ (lineId line ≠ some .rewriteCond →
      st'.pendingConds =
        if lineId line = some .rewriteRule then none else st.pendingConds) := by
  cases hid : lineId line with
  | none =>
      have hkept : st'.pendingConds = st.pendingConds := by
        cases line with
        | nil =>
            cases h
            rfl
        | cons t rest =>
            have hnone : htaccessDirectiveId t = none := hid
            simp only [parseLine, hnone] at h
            split_ifs at h <;>
              · cases h
                rfl
      rw [hkept]
      exact ⟨hconds, fun _ => rfl⟩
  | some id =>
      rw [parseLine_of_lineId sys pool hid, if_pos (hst.on _ (Nat.le_refl _)),
        htaccessPushDirective] at h
      split at h
      · rename_i hcond
        obtain ⟨cond, _, rfl⟩ := Option.map_eq_some_iff.mp h
        refine ⟨?_, fun hne => absurd (congrArg some hcond) hne⟩
        simp [ngxArrayPush]
      · obtain ⟨u, _, rfl⟩ := Option.map_eq_some_iff.mp h
        simp only [Option.some.injEq]
        by_cases hrule : id = .rewriteRule
        · simp only [hrule, true_and, if_true]
          split
          · exact ⟨(Option.some_ne_none _).symm, fun _ => rfl⟩
          · rename_i hnone
            have hpending : st.pendingConds = none := by
              cases hp : st.pendingConds with
              | none => rfl
              | some conds =>
                  rw [hp, Option.getD_some, not_not] at hnone
                  exact absurd (hp.trans (congrArg some hnone)) hconds
            exact ⟨hconds, fun _ => hpending⟩
        · simp only [hrule, false_and, if_false]
          exact ⟨hconds, fun _ => trivial⟩

theorem parseLines_pendingConds {lines : List (List NgxStr)} {st st' : ParserState}
    (hst : Nested st) (hconds : st.pendingConds ≠ some []) (hused : CondsUsed lines)
    (hrule : st.pendingConds = none ∨ ∃ rule ∈ lines, lineId rule = some .rewriteRule)
    (h : parseLines sys pool lines st = some st') : st'.pendingConds = none := by
  induction lines generalizing st with
  | nil =>
      cases h
      exact hrule.resolve_right (by simp)
  | cons line lines ih =>
      rw [parseLines_cons] at h
      obtain ⟨mid, hline, hrest⟩ := Option.bind_eq_some_iff.mp h
      have hmid := parseLine_nested sys pool hst hline
      obtain ⟨hconds', hpending⟩ := parseLine_pendingConds sys pool hst hconds hline
      refine ih hmid hconds' hused.2 ?_ hrest
      by_cases hcond : lineId line = some .rewriteCond
      · exact .inr (hused.1 hcond)
      · rw [hpending hcond]
        split
        · exact .inl rfl
        · rename_i hother
          refine hrule.imp_right fun ⟨rule, hmem, hid⟩ => ⟨rule, ?_, hid⟩
          cases List.mem_cons.mp hmem with
          | inl heq => exact absurd (heq ▸ hid) hother
          | inr hmem => exact hmem

/-- Behind closed blocks and used conditions the parser is as good as new. -/
theorem Nested.sameStacks {st : ParserState} (hst : Nested st) (hdepth : st.depth = 0)
    (hpending : st.pendingConds = none) : SameStacks st .initial where
  depth := hdepth
  pendingConds := hpending
  enabledLength := hst.full.1
  scopeLength := hst.full.2
  enabled i hi := by
    have hzero : i = 0 := Nat.le_zero.mp (hdepth ▸ hi)
    rw [hst.on i hi, hzero]
    rfl
  scope i hi := by
    have hzero : i = 0 := Nat.le_zero.mp (hdepth ▸ hi)
    rw [hzero, hst.outer]
    rfl

end Nesting

/-- Parsing is compositional: behind a text that composes with it the second text parses if it
parses alone, and adds the directives that it has alone, with their conditions and scopes. The
memory that is left over in the arrays of either parse has no part in it. -/
theorem parse_append (sys sys' : Sys) (pool : PoolId) {A B : NgxStr}
    (h : Composes sys pool A B) :
    ∃ file, htaccessParse sys pool A = some file ∧
      htaccessParse sys' pool (A ++ B) =
        (htaccessParse sys pool B).map fun rest =>
          { directives := file.directives ++ rest.directives, pool } := by
  obtain ⟨st, hparse, hdepth⟩ := h.closed
  refine ⟨{ directives := st.directives, pool }, by rw [htaccessParse, hparse]; rfl, ?_⟩
  rw [htaccessParseLoop_lexed] at hparse
  split at hparse
  case isFalse => cases hparse
  rename_i hlex
  have hnested := parseLines_nested sys pool nested_initial hparse
  have hpending := parseLines_pendingConds sys pool nested_initial
    (Option.some_ne_none _).symm h.conds (.inl rfl) hparse
  have hsame := hnested.sameStacks hdepth hpending
  rw [htaccessParse_lexed, htaccessParse_lexed, lexedText_append (fun _ => h.ends) hlex]
  cases hwhole : (lexedText B).2 with
  | false => rfl
  | true =>
      simp only [if_true, parseLines_append]
      rw [← parseLines_leftover h.args.argsGiven.sameSlots, hparse, Option.bind_some,
        ← parseLines_leftover h.args'.argsGiven.sameSlots]
      have hgrow := parseLines_sameStacks sys pool hsame (lexedText B).1
      generalize parseLines sys pool (lexedText B).1 st = behind at hgrow ⊢
      generalize parseLines sys pool (lexedText B).1 .initial = alone at hgrow ⊢
      cases hgrow with
      | none => rfl
      | some hds =>
          obtain ⟨_, ds, hds, hds'⟩ := hds
          simp only [Option.map_some, hds, hds']
          rfl

/-- A condition with its rule, and a block that is closed again. -/
def closedText : NgxStr :=
  lit "RewriteCond %{ENV:a} b\nRewriteRule old /new\n<Files x>\nRequire all denied\n</Files>\n"

theorem parse_append_closed :
    ∃ file, htaccessParse (siteSys (siteFs 0 [])) 0 closedText = some file ∧
      htaccessParse (siteSys (siteFs 0 [])) 0 (closedText ++ lit "\nRedirect /a /b") =
        (htaccessParse (siteSys (siteFs 0 [])) 0 (lit "\nRedirect /a /b")).map fun rest =>
          { directives := file.directives ++ rest.directives, pool := 0 } := by
  refine parse_append (siteSys (siteFs 0 [])) (siteSys (siteFs 0 [])) 0
    { ends := ⟨closedText.dropLast, ch '\n', by decide +kernel, rfl, by decide +kernel⟩
      closed := ?_
      conds := by decide +kernel
      args := by unfold CarriesArgs; decide +kernel
      args' := by unfold CarriesArgs; decide +kernel }
  have hdepth : (htaccessParseLoop (siteSys (siteFs 0 [])) 0 closedText.length closedText
      .initial).map (·.depth) = some 0 := by decide +kernel
  exact Option.map_eq_some_iff.mp hdepth

end NgxHtaccess
