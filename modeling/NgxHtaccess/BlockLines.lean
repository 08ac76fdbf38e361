import NgxHtaccess.AlikeLists
import NgxHtaccess.ParserStacks

/-!
The parse of a block against the parse of its lines without the tags.

A tag changes nothing but the stacks of the parser, and of these only the slot
that it opens; so a block leaves the parser in a state that later lines cannot tell
from the one without the block, and the lines inside push what they would push
outside, under another scope.
-/
namespace NgxHtaccess

section Stacks
variable (sys : Sys) (pool : PoolId)

/-- The states agree on the waiting conditions and on all that is read of the stacks. -/
structure SameStacks (st st' : ParserState) : Prop where
  depth : st.depth = st'.depth
  pendingConds : st.pendingConds = st'.pendingConds
  enabledLength : st.enabled.length = st'.enabled.length
  scopeLength : st.filesMatch.length = st'.filesMatch.length
  enabled : ∀ i ≤ st.depth, st.enabled.getD i false = st'.enabled.getD i false
  scope : ∀ i ≤ st.depth, st.filesMatch.getD i [] = st'.filesMatch.getD i []

/-- The same directives are added to both states. -/
def GrowAlike (st st' t t' : ParserState) : Prop :=
  SameStacks t t' ∧ ∃ ds, t.directives = st.directives ++ ds ∧ t'.directives = st'.directives ++ ds

theorem getD_push {α : Type} {l l' : List α} {d : α} {depth : Nat} (hlength : l.length = l'.length)
    (h : ∀ i ≤ depth, l.getD i d = l'.getD i d) (a : α) (i : Nat) (hi : i ≤ depth + 1) :
    (l.set (depth + 1) a).getD i d = (l'.set (depth + 1) a).getD i d := by
  rw [getD_set, getD_set, hlength]
  split
  · rfl
  · rename_i hslot
    by_cases hdeep : i = depth + 1
    · have hout : l'.length ≤ i := by omega
      rw [List.getD_eq_default _ _ hout, List.getD_eq_default _ _ (hlength ▸ hout)]
    · exact h i (by omega)

theorem SameStacks.push {st st' : ParserState} (h : SameStacks st st') (on : Bool)
    (scope : NgxStr) :
    SameStacks
      { st with
        depth := st.depth + 1
        enabled := st.enabled.set (st.depth + 1) on
        filesMatch := st.filesMatch.set (st.depth + 1) scope }
      { st' with
        depth := st.depth + 1
        enabled := st'.enabled.set (st.depth + 1) on
        filesMatch := st'.filesMatch.set (st.depth + 1) scope } := by
  refine ⟨rfl, h.pendingConds, ?_, ?_, ?_, ?_⟩
  · simp only [List.length_set, h.enabledLength]
  · simp only [List.length_set, h.scopeLength]
  · exact getD_push h.enabledLength h.enabled on
  · exact getD_push h.scopeLength h.scope scope

theorem parseLine_sameStacks {st st' : ParserState} (h : SameStacks st st') (line : List NgxStr) :
    Option.Rel (GrowAlike st st') (parseLine sys pool st line) (parseLine sys pool st' line) := by
  have hkeep : ∀ t t', SameStacks t t' → t.directives = st.directives →
      t'.directives = st'.directives → GrowAlike st st' t t' :=
    fun t t' hs hd hd' => ⟨hs, [], by simp [hd], by simp [hd']⟩
  unfold parseLine
  cases line with
  | nil => exact .some (hkeep _ _ h rfl rfl)
  | cons t rest =>
      simp only
      split
      · split
        · refine .some (hkeep _ _ ?_ rfl rfl)
          refine ⟨by simp only [h.depth], h.pendingConds, h.enabledLength, h.scopeLength, ?_, ?_⟩
          · exact fun i hi => h.enabled i (Nat.le_trans hi (Nat.sub_le _ _))
          · exact fun i hi => h.scope i (Nat.le_trans hi (Nat.sub_le _ _))
        · rw [← h.depth, ← h.enabled st.depth (Nat.le_refl _)]
          split
          · exact .some (hkeep _ _ (h.push _ _) rfl rfl)
          · exact .some (hkeep _ _ h rfl rfl)
      · rw [← h.depth, ← h.enabled st.depth (Nat.le_refl _)]
        split
        · exact .some (hkeep _ _ h rfl rfl)
        · cases htaccessDirectiveId t with
          | none => exact .some (hkeep _ _ h rfl rfl)
          | some id =>
              simp only [htaccessPushDirective, ← h.pendingConds]
              split
              · refine OptionRel.map (OptionRel.of_eq (fun _ => rfl) _) fun cond _ hcond => ?_
                rw [← hcond]
                exact hkeep _ _
                  ⟨h.depth, rfl, h.enabledLength, h.scopeLength, h.enabled, h.scope⟩ rfl rfl
              · refine OptionRel.map (OptionRel.of_eq (fun _ => rfl) _) fun u _ hu => ?_
                rw [← hu, ← h.depth, ← h.scope st.depth (Nat.le_refl _)]
                exact ⟨⟨rfl, rfl, h.enabledLength, h.scopeLength, h.enabled, h.scope⟩, _, rfl, rfl⟩

theorem parseLines_sameStacks {st st' : ParserState} (h : SameStacks st st')
    (lines : List (List NgxStr)) :
    Option.Rel (GrowAlike st st') (parseLines sys pool lines st)
      (parseLines sys pool lines st') := by
  induction lines generalizing st st' with
  | nil => exact .some ⟨h, [], by simp, by simp⟩
  | cons line lines ih =>
      rw [parseLines_cons, parseLines_cons]
      refine OptionRel.bind (parseLine_sameStacks sys pool h line) fun t t' ht => ?_
      obtain ⟨hsame, ds, hds, hds'⟩ := ht
      refine OptionRel.mono (ih hsame) fun v v' hv => ?_
      obtain ⟨hsame', es, hes, hes'⟩ := hv
      refine ⟨hsame', ds ++ es, ?_, ?_⟩
      · rw [hes, hds, List.append_assoc]
      · rw [hes', hds', List.append_assoc]

end Stacks

section Lines
variable (sys : Sys) (pool : PoolId)

/-- The directives of the data, all in one scope. -/
def inScope (scope : NgxStr) (us : List DirectiveData) : List Directive :=
  us.map fun u => { filesMatch := scope, u }

def ParserState.pushed (st : ParserState) (us : List DirectiveData)
    (pendingConds : Option (List RewriteCond)) : ParserState :=
  { st with
    directives := st.directives ++ inScope (st.filesMatch.getD st.depth []) us
    pendingConds := pendingConds }

theorem ParserState.pushed_nil (st : ParserState) : st.pushed [] st.pendingConds = st := by
  simp only [ParserState.pushed, inScope, List.map_nil, List.append_nil]

theorem ParserState.pushed_pushed (st : ParserState) (us vs : List DirectiveData)
    (pending pending' : Option (List RewriteCond)) :
    (st.pushed us pending).pushed vs pending' = st.pushed (us ++ vs) pending' := by
  simp only [ParserState.pushed, inScope, List.map_append, List.append_assoc]

/-- A line for the conditions that wait for a rule. -/
def forRules (line : List NgxStr) : Bool :=
  lineId line = some .rewriteCond || lineId line = some .rewriteRule

/-- A directive line pushes the same in any block of the same standing. -/
theorem parseLine_pushed {st st' : ParserState} {line : List NgxStr} {id : DirectiveId}
    (hid : lineId line = some id)
    (hon : st.enabled.getD st.depth false = st'.enabled.getD st'.depth false)
    (hpending : st.pendingConds = st'.pendingConds) :
    Option.Rel
      (fun t t' => ∃ us pending, t = st.pushed us pending ∧ t' = st'.pushed us pending ∧
        (∀ u ∈ us, u.id = id) ∧ (forRules line = false → pending = st.pendingConds))
      (parseLine sys pool st line) (parseLine sys pool st' line) := by
  rw [parseLine_of_lineId sys pool hid, parseLine_of_lineId sys pool hid, ← hon]
  split
  · simp only [htaccessPushDirective, ← hpending]
    split
    · rename_i hcond
      refine OptionRel.map (OptionRel.of_eq (fun _ => rfl) _) fun cond _ hsame => ?_
      rw [← hsame]
      refine ⟨[], ngxArrayPush st.pendingConds cond, ?_, ?_, by simp, fun hnone => ?_⟩
      · simp only [ParserState.pushed, inScope, List.map_nil, List.append_nil]
      · simp only [ParserState.pushed, inScope, List.map_nil, List.append_nil]
      · simp [forRules, hid, hcond] at hnone
    · cases hdata : directiveData sys pool id line st.pendingConds with
      | none => exact .none
      | some u =>
          refine .some ⟨[u], _, rfl, rfl, ?_, fun hnone => ?_⟩
          · intro v hv
            rw [List.mem_singleton.mp hv]
            exact directiveData_id sys pool hdata
          · have hrule : id ≠ .rewriteRule := by
              rintro rfl
              simp [forRules, hid] at hnone
            exact if_neg fun h => hrule h.1
  · exact .some ⟨[], st.pendingConds, st.pushed_nil.symm, by rw [hpending, st'.pushed_nil], by simp,
      fun _ => rfl⟩

theorem parseLines_pushed (lines : List (List NgxStr)) {st st' : ParserState}
    (hlines : ∀ line ∈ lines, ∃ id, lineId line = some id)
    (hon : st.enabled.getD st.depth false = st'.enabled.getD st'.depth false)
    (hpending : st.pendingConds = st'.pendingConds) :
    Option.Rel
      (fun t t' => ∃ us pending, t = st.pushed us pending ∧ t' = st'.pushed us pending ∧
        (∀ u ∈ us, ∃ line ∈ lines, lineId line = some u.id) ∧
          ((∀ line ∈ lines, forRules line = false) → pending = st.pendingConds))
      (parseLines sys pool lines st) (parseLines sys pool lines st') := by
  induction lines generalizing st st' with
  | nil => exact .some ⟨[], st.pendingConds, st.pushed_nil.symm, by rw [hpending, st'.pushed_nil],
      by simp, fun _ => rfl⟩
  | cons line lines ih =>
      obtain ⟨id, hid⟩ := hlines line List.mem_cons_self
      rw [parseLines_cons, parseLines_cons]
      refine OptionRel.bind (parseLine_pushed sys pool hid hon hpending) fun t t' ht => ?_
      obtain ⟨us, pending, rfl, rfl, hus, hkept⟩ := ht
      refine OptionRel.mono (ih (fun l hl => hlines l (List.mem_cons_of_mem _ hl)) hon rfl)
        fun v v' hv => ?_
      obtain ⟨vs, pending', rfl, rfl, hvs, hkept'⟩ := hv
      refine ⟨us ++ vs, pending', st.pushed_pushed us vs _ _, st'.pushed_pushed us vs _ _, ?_, ?_⟩
      · intro u hu
        cases List.mem_append.mp hu with
        | inl hu => exact ⟨line, List.mem_cons_self, by rw [hid, hus u hu]⟩
        | inr hu =>
            obtain ⟨l, hl, hlid⟩ := hvs u hu
            exact ⟨l, List.mem_cons_of_mem _ hl, hlid⟩
      · intro hnone
        obtain ⟨hline, hlines⟩ := List.forall_mem_cons.mp hnone
        exact (hkept' hlines).trans (hkept hline)

end Lines

section Block
variable (sys : Sys) (pool : PoolId)

def isClosingTag (t : NgxStr) : Bool :=
  isTag t && (3 ≤ t.length && t.tail.head? = some (ch '/'))

def isOpeningTag (t : NgxStr) : Bool :=
  isTag t && !(3 ≤ t.length && t.tail.head? = some (ch '/'))

theorem isOpeningTag_cons {c : UInt8} (h : c ≠ ch '/') (s : NgxStr) :
    isOpeningTag (ch '<' :: c :: (s ++ [ch '>'])) = true := by
  have hlast : (ch '<' :: c :: (s ++ [ch '>'])).getLast? = some (ch '>') := by
    simp [List.getLast?_cons, List.getLast?_append]
  simp [isOpeningTag, isTag, hlast, h]

theorem isClosingTag_cons (s : NgxStr) :
    isClosingTag (ch '<' :: ch '/' :: (s ++ [ch '>'])) = true := by
  have hlast : (ch '<' :: ch '/' :: (s ++ [ch '>'])).getLast? = some (ch '>') := by
    simp [List.getLast?_cons, List.getLast?_append]
  simp [isClosingTag, isTag, hlast]

theorem htaccessParseFilesMatch_quoted (s : NgxStr) :
    htaccessParseFilesMatch (lit "<FilesMatch \"" ++ s ++ [ch '>']) = s.takeWhile (· ≠ ch '"') := by
  have hlength : ¬ (lit "<FilesMatch \"" ++ s ++ [ch '>']).length < 12 := by
    simp [lit]
  have hinner : (lit "<FilesMatch \"" ++ s ++ [ch '>']).tail.dropLast =
      lit "FilesMatch" ++ (ch ' ' :: ch '"' :: s) := by
    have hsplit : (lit "<FilesMatch \"" ++ s ++ [ch '>']).tail =
        (lit "FilesMatch" ++ (ch ' ' :: ch '"' :: s)) ++ [ch '>'] := by
      simp [lit]
    rw [hsplit, List.dropLast_concat]
  have hname : ngxStrncasecmpEq (lit "FilesMatch" ++ (ch ' ' :: ch '"' :: s)) (lit "FilesMatch") 10 =
      true := by
    rw [ngxStrncasecmpEq_append _ _ _ (by decide)]
    decide
  have hrest : ((lit "FilesMatch" ++ (ch ' ' :: ch '"' :: s)).drop 10).dropWhile isBlank =
      ch '"' :: s := by
    have hdrop : (lit "FilesMatch" ++ (ch ' ' :: ch '"' :: s)).drop 10 = ch ' ' :: ch '"' :: s :=
      List.drop_left' rfl
    rw [hdrop, List.dropWhile_cons_of_pos (by decide), List.dropWhile_cons_of_neg (by decide)]
  rw [htaccessParseFilesMatch, if_neg hlength, hinner]
  simp only [hname, Bool.not_true, Bool.false_eq_true, if_false, hrest, if_true]

theorem htaccessParseFilesMatch_other {head : NgxStr}
    (h : ngxStrncasecmpEq head (lit "FilesMatch") 10 = false) :
    htaccessParseFilesMatch (ch '<' :: (head ++ [ch '>'])) = [] := by
  rw [htaccessParseFilesMatch, List.tail_cons, List.dropLast_concat]
  simp only [h, Bool.not_false, if_true, ite_self]

theorem parseLine_opening {st : ParserState} {t : NgxStr} {extra : List NgxStr}
    (ht : isOpeningTag t = true) (hdepth : st.depth < 15) :
    parseLine sys pool st (t :: extra) = some (st.opened t) := by
  simp only [isOpeningTag, Bool.and_eq_true, Bool.not_eq_true', Bool.and_eq_false_iff,
    decide_eq_false_iff_not] at ht
  have hclose : ¬ (3 ≤ t.length ∧ t.tail.head? = some (ch '/')) := by tauto
  simp only [parseLine, ht.1, if_true, if_neg hclose, if_pos hdepth, htaccessBlockEnabled_eq,
    Bool.true_and]
  rfl

theorem parseLine_tooDeep {st : ParserState} {t : NgxStr} {extra : List NgxStr}
    (ht : isOpeningTag t = true) (hdepth : ¬ st.depth < 15) :
    parseLine sys pool st (t :: extra) = some st := by
  simp only [isOpeningTag, Bool.and_eq_true, Bool.not_eq_true', Bool.and_eq_false_iff,
    decide_eq_false_iff_not] at ht
  have hclose : ¬ (3 ≤ t.length ∧ t.tail.head? = some (ch '/')) := by tauto
  simp only [parseLine, ht.1, if_true, if_neg hclose, if_neg hdepth]

theorem parseLine_closing {st : ParserState} {t : NgxStr} {extra : List NgxStr}
    (ht : isClosingTag t = true) :
    parseLine sys pool st (t :: extra) = some { st with depth := st.depth - 1 } := by
  simp only [isClosingTag, Bool.and_eq_true, decide_eq_true_eq] at ht
  simp only [parseLine, ht.1, if_true, if_pos ht.2]

variable {st : ParserState} (hst : FullStacks st) (hdepth : st.depth < 15)
  {opening closing : NgxStr}
  (hopening : isOpeningTag opening = true) (hclosing : isClosingTag closing = true)
include hst hdepth

theorem opened_enabled (t : NgxStr) :
    (st.opened t).enabled.getD (st.opened t).depth false = st.enabled.getD st.depth false := by
  have hslot : st.depth + 1 < st.enabled.length := by rw [hst.1]; omega
  simp only [ParserState.opened, getD_set, hslot, and_self, if_true]

theorem opened_scope (t : NgxStr) :
    (st.opened t).filesMatch.getD (st.opened t).depth [] = htaccessParseFilesMatch t := by
  have hslot : st.depth + 1 < st.filesMatch.length := by rw [hst.2]; omega
  simp only [ParserState.opened, getD_set, hslot, and_self, if_true]

include hopening hclosing

end Block

end NgxHtaccess
