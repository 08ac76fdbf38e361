import Mathlib.Data.List.GetD
import NgxHtaccess.ParsedLines

/-!
The stacks of the parser along the lines of a file. No block is ever switched off, so whether a
line is taken is a matter of its own tokens: a file fails to parse for the same texts in any
memory and in any pool.
-/
namespace NgxHtaccess

theorem getD_set {α : Type} (l : List α) (n i : Nat) (a d : α) :
    (l.set n a).getD i d = if i = n ∧ n < l.length then a else l.getD i d := by
  simp only [List.getD_eq_getElem?_getD, List.getElem?_set]
  by_cases hi : n = i
  · by_cases hn : i < l.length
    · simp [hi, hn]
    · simp [hi, hn]
  · simp [hi, Ne.symm hi]

section Stacks
variable (sys : Sys) (pool : PoolId)

/-- The stacks keep their 16 slots. -/
def FullStacks (st : ParserState) : Prop :=
  st.enabled.length = 16 ∧ st.filesMatch.length = 16

/-- The state inside a block that is opened with the tag. -/
def ParserState.opened (st : ParserState) (t : NgxStr) : ParserState :=
  { st with
    depth := st.depth + 1
    enabled := st.enabled.set (st.depth + 1) (st.enabled.getD st.depth false)
    filesMatch := st.filesMatch.set (st.depth + 1) (htaccessParseFilesMatch t) }

/-- No block is switched off, as every module counts as present. -/
theorem htaccessBlockEnabled_eq (t : NgxStr) : htaccessBlockEnabled t true true = true := by
  cases t <;> simp only [htaccessBlockEnabled, ite_self]

/-- What a line can do to the stacks: a closing tag goes back to the outer block, an opening
one takes the next slot, and any other line leaves them alone. -/
inductive StackStep (st st' : ParserState) : Prop where
  | closed (hdepth : st'.depth = st.depth - 1) (henabled : st'.enabled = st.enabled)
      (hscope : st'.filesMatch = st.filesMatch)
  | opened (t : NgxStr) (hdepth : st.depth < 15) (h : st' = st.opened t)
  | kept (hdepth : st'.depth = st.depth) (henabled : st'.enabled = st.enabled)
      (hscope : st'.filesMatch = st.filesMatch)

theorem parseLine_stackStep {st st' : ParserState} {line : List NgxStr}
    (h : parseLine sys pool st line = some st') : StackStep st st' := by
  unfold parseLine at h
  cases line with
  | nil =>
      cases h
      exact .kept rfl rfl rfl
  | cons t rest =>
      simp only at h
      split at h
      · split at h
        · cases h
          exact .closed rfl rfl rfl
        · split at h
          · rename_i hdepth
            cases h
            refine .opened t hdepth ?_
            rw [htaccessBlockEnabled_eq, Bool.true_and]
            rfl
          · cases h
            exact .kept rfl rfl rfl
      · split at h
        · cases h
          exact .kept rfl rfl rfl
        · cases hid : htaccessDirectiveId t with
          | none =>
              rw [hid] at h
              cases h
              exact .kept rfl rfl rfl
          | some id =>
              simp only [hid, htaccessPushDirective] at h
              split at h
              · obtain ⟨cond, _, rfl⟩ := Option.map_eq_some_iff.mp h
                exact .kept rfl rfl rfl
              · obtain ⟨u, _, rfl⟩ := Option.map_eq_some_iff.mp h
                exact .kept rfl rfl rfl

theorem parseLine_fullStacks {st st' : ParserState} {line : List NgxStr} (hst : FullStacks st)
    (h : parseLine sys pool st line = some st') : FullStacks st' := by
  cases parseLine_stackStep sys pool h with
  | closed _ henabled hscope | kept _ henabled hscope =>
      exact ⟨henabled ▸ hst.1, hscope ▸ hst.2⟩
  | opened t _ hopened =>
      rw [hopened]
      exact ⟨List.length_set.trans hst.1, List.length_set.trans hst.2⟩

theorem fullStacks_initial : FullStacks .initial := ⟨rfl, rfl⟩

/-- What every line keeps of the stacks: no open block is off, and the outermost slot is as
the parser set it up. -/
structure Nested (st : ParserState) : Prop where
  full : FullStacks st
  on : ∀ i ≤ st.depth, st.enabled.getD i false = true
  outer : st.filesMatch.getD 0 [] = []

theorem nested_initial : Nested .initial where
  full := fullStacks_initial
  on i hi := by
    rw [Nat.le_zero.mp hi]
    rfl
  outer := rfl

theorem parseLine_nested {st st' : ParserState} {line : List NgxStr} (hst : Nested st)
    (h : parseLine sys pool st line = some st') : Nested st' := by
  have hfull := parseLine_fullStacks sys pool hst.full h
  cases parseLine_stackStep sys pool h with
  | closed hdepth henabled hscope =>
      refine ⟨hfull, fun i hi => ?_, hscope ▸ hst.outer⟩
      rw [henabled]
      exact hst.on i (by omega)
  | kept hdepth henabled hscope =>
      refine ⟨hfull, fun i hi => ?_, hscope ▸ hst.outer⟩
      rw [henabled]
      exact hst.on i (hdepth ▸ hi)
  | opened t hdepth hopened =>
      subst hopened
      have hslot : st.depth + 1 < st.enabled.length := by rw [hst.full.1]; omega
      refine ⟨hfull, fun i hi => ?_, ?_⟩
      · simp only [ParserState.opened] at hi ⊢
        rw [getD_set]
        split
        · exact hst.on st.depth (Nat.le_refl _)
        · rename_i hne
          exact hst.on i (by omega)
      · simp only [ParserState.opened]
        rw [getD_set, if_neg (by omega)]
        exact hst.outer

theorem parseLines_nested {lines : List (List NgxStr)} {st st' : ParserState} (hst : Nested st)
    (h : parseLines sys pool lines st = some st') : Nested st' :=
  parseLines_invariant sys pool (parseLine_nested sys pool) hst h

end Stacks

section Accepted
variable (sys sys' : Sys) (pool pool' : PoolId)

theorem directiveData_isSome (id : DirectiveId) (args : List NgxStr)
    (conds conds' : Option (List RewriteCond)) :
    (directiveData sys pool id args conds).isSome =
      (directiveData sys' pool' id args conds').isSome := by
  have hheader : (headerData pool args).isSome = (headerData pool' args).isSome := by
    unfold headerData
    simp only
    split
    · rfl
    · split <;> split <;> rfl
  cases id with
  | header => simp only [directiveData, Option.isSome_map, hheader]
  | rewriteRule | expiresByType =>
      simp only [directiveData]
      split <;> rfl
  | redirect | redirectPermanent | redirectTemp => simp only [directiveData, Option.isSome_map]
  | require =>
      simp only [directiveData]
      split
      · simp only [Option.isSome_map]
      · rfl
  | _ => rfl

theorem htaccessPushDirective_isSome (id : DirectiveId) (args : List NgxStr)
    (st st' : ParserState) :
    (htaccessPushDirective sys pool st id args).isSome =
      (htaccessPushDirective sys' pool' st' id args).isSome := by
  unfold htaccessPushDirective
  split
  · rw [Option.isSome_map, Option.isSome_map]
  · rw [Option.isSome_map, Option.isSome_map]
    exact directiveData_isSome sys sys' pool pool' id args _ _

theorem parseLine_of_noDirective {st : ParserState} {line : List NgxStr}
    (hid : lineId line = none) : (parseLine sys pool st line).isSome = true := by
  cases line with
  | nil => rfl
  | cons t rest =>
      have hnone : htaccessDirectiveId t = none := hid
      simp only [parseLine, hnone]
      split_ifs <;> rfl

theorem parseLine_isSome {st st' : ParserState} (hst : Nested st) (hst' : Nested st')
    (line : List NgxStr) :
    (parseLine sys pool st line).isSome = (parseLine sys' pool' st' line).isSome := by
  cases hid : lineId line with
  | some id =>
      rw [parseLine_of_lineId sys pool hid, parseLine_of_lineId sys' pool' hid,
        if_pos (hst.on _ (Nat.le_refl _)), if_pos (hst'.on _ (Nat.le_refl _))]
      exact htaccessPushDirective_isSome sys sys' pool pool' id line st st'
  | none =>
      rw [parseLine_of_noDirective sys pool hid, parseLine_of_noDirective sys' pool' hid]

theorem parseLines_isSome {st : ParserState} (hst : Nested st) (lines : List (List NgxStr)) :
    (parseLines sys pool lines st).isSome ↔
      ∀ line ∈ lines, (parseLine sys' pool' .initial line).isSome := by
  induction lines generalizing st with
  | nil => simp [parseLines]
  | cons line lines ih =>
      rw [parseLines_cons, List.forall_mem_cons,
        ← parseLine_isSome sys sys' pool pool' hst nested_initial]
      cases hline : parseLine sys pool st line with
      | none => simp
      | some st' =>
          simp only [Option.bind_some, Option.isSome_some, true_and]
          exact ih (parseLine_nested sys pool hst hline)

/-- Whether a text parses depends on the text. -/
theorem htaccessParse_isSome (text : NgxStr) :
    (htaccessParse sys pool text).isSome = (htaccessParse sys' pool' text).isSome := by
  rw [htaccessParse_lexed, htaccessParse_lexed, Bool.eq_iff_iff]
  split
  · rw [Option.isSome_map, Option.isSome_map, parseLines_isSome sys sys' pool pool' nested_initial,
      parseLines_isSome sys' sys' pool' pool' nested_initial]
  · exact Iff.rfl

theorem htaccessParseFile_rc (path : NgxStr) :
    (htaccessParseFile sys pool path).1 = (htaccessParseFile sys pool' path).1 := by
  unfold htaccessParseFile
  cases sys.fs.openFile path with
  | none => rfl
  | some file =>
      obtain ⟨fdSize, read⟩ := file
      cases fdSize with
      | none => cases read <;> rfl
      | some size =>
          cases read with
          | none => rfl
          | some text =>
              have hparse := htaccessParse_isSome sys sys pool pool' text
              simp only
              split
              · rfl
              · cases hfile : htaccessParse sys pool text <;>
                  cases hfile' : htaccessParse sys pool' text <;>
                    simp_all

end Accepted

end NgxHtaccess
