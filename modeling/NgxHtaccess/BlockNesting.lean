import NgxHtaccess.ParseAppend
import NgxHtaccess.TokenGrammar

/-!
Nested blocks of any kind and depth. The parser keeps for each open block the pattern of that
block alone, in 16 slots: a block of another kind hides the FilesMatch around it, and a block
that is too deep is closed without having been opened.
-/
namespace NgxHtaccess

/-- A line with a directive that the parser accepts. -/
structure DirectiveLine where
  tokens : List NgxStr
  text : NgxStr
  id : DirectiveId
  named : lineId tokens = some id
  written : LineText true tokens text
  accepted : ∀ sys pool st, (htaccessPushDirective sys pool st id tokens).isSome = true

/-- What stands in the brackets of a tag that opens a block of another kind. -/
structure PlainHead where
  head : NgxStr
  opens : ∃ c s, head = c :: s ∧ c ≠ ch '/'
  free : ch '>' ∉ head
  plain : ngxStrncasecmpEq head (lit "FilesMatch") 10 = false

inductive DocTag where
  | filesMatch (pattern : NgxStr) (free : ch '"' ∉ pattern)
  | plain (tag : PlainHead)

namespace DocTag

def head : DocTag → NgxStr
  | filesMatch pattern _ => lit "FilesMatch \"" ++ (pattern ++ [ch '"'])
  | plain tag => tag.head

def name (tag : DocTag) : NgxStr := tag.head.takeWhile (!isBlank ·)

def opening (tag : DocTag) : NgxStr := ch '<' :: (tag.head ++ [ch '>'])

def closing (tag : DocTag) : NgxStr := ch '<' :: ch '/' :: (tag.name ++ [ch '>'])

/-- The token that the lexer makes of the opening tag: it ends at the first `>`. -/
def token (tag : DocTag) : NgxStr := ch '<' :: (tag.head.takeWhile (· ≠ ch '>') ++ [ch '>'])

def pattern : DocTag → Option NgxStr
  | filesMatch pattern _ => some pattern
  | plain _ => none

/-- The pattern that the parser keeps for the block. -/
def own : DocTag → NgxStr
  | filesMatch pattern _ => pattern.takeWhile (· ≠ ch '>')
  | plain _ => []

def behind (tag : DocTag) : NgxStr := ((tag.head ++ [ch '>']).dropWhile (· ≠ ch '>')).tail

/-- The line of the opening tag ends where it was written to end. -/
def OneLine (tag : DocTag) : Prop := ∃ extra, LineText true extra tag.behind

end DocTag

/-- Directive lines and blocks, one behind the other. -/
inductive Doc where
  | done
  | line (l : DirectiveLine) (rest : Doc)
  | block (tag : DocTag) (inside rest : Doc)

def lineOf (s : NgxStr) : NgxStr := s ++ [ch '\n']

def blockText (tag : DocTag) (inside : NgxStr) : NgxStr :=
  lineOf tag.opening ++ (inside ++ lineOf tag.closing)

/-- The parser comes to the second text with the depth and the scope that it had at the first. -/
def Restored (sys : Sys) (pool : PoolId) (u v : NgxStr) : Prop :=
  ∀ st st', htaccessParseLoop sys pool u.length u .initial = some st →
    htaccessParseLoop sys pool v.length v .initial = some st' →
      st'.depth = st.depth ∧
        st'.filesMatch.getD st'.depth [] = st.filesMatch.getD st.depth []

namespace Doc

def text : Doc → NgxStr
  | done => []
  | line l rest => lineOf l.text ++ rest.text
  | block tag inside rest => blockText tag inside.text ++ rest.text

def height : Doc → Nat
  | done => 0
  | line _ rest => rest.height
  | block _ inside rest => max (inside.height + 1) rest.height

/-- For each directive the pattern of the innermost FilesMatch around it, where `cur` is in
force outside. A RewriteCond is no directive of its own. -/
def scopes (cur : NgxStr) : Doc → List NgxStr
  | done => []
  | line l rest => (if l.id = .rewriteCond then [] else [cur]) ++ rest.scopes cur
  | block tag inside rest => inside.scopes (tag.pattern.getD cur) ++ rest.scopes cur

/-- For each directive what the parser keeps for the innermost block of any kind. -/
def codeScopes (own : NgxStr) : Doc → List NgxStr
  | done => []
  | line l rest => (if l.id = .rewriteCond then [] else [own]) ++ rest.codeScopes own
  | block tag inside rest => inside.codeScopes tag.own ++ rest.codeScopes own

/-- The innermost block of every directive has the pattern that is in force there. -/
def Direct (cur own : NgxStr) : Doc → Prop
  | done => True
  | line l rest => (l.id ≠ .rewriteCond → own = cur) ∧ rest.Direct cur own
  | block tag inside rest => inside.Direct (tag.pattern.getD cur) tag.own ∧ rest.Direct cur own

def OneLine : Doc → Prop
  | done => True
  | line _ rest => rest.OneLine
  | block tag inside rest => tag.OneLine ∧ inside.OneLine ∧ rest.OneLine

/-- Behind `u`, every closing tag restores what was in force in front of its opening tag. -/
def Restores (sys : Sys) (pool : PoolId) (u : NgxStr) : Doc → Prop
  | done => True
  | line l rest => rest.Restores sys pool (u ++ lineOf l.text)
  | block tag inside rest =>
      Restored sys pool u (u ++ blockText tag inside.text) ∧
        inside.Restores sys pool (u ++ lineOf tag.opening) ∧
          rest.Restores sys pool (u ++ blockText tag inside.text)

/-- Every directive has the pattern of the innermost FilesMatch around it, and every closing tag
restores what was in force. -/
structure Scoped (sys : Sys) (pool : PoolId) (d : Doc) : Prop where
  scopes : ∃ file, htaccessParse sys pool d.text = some file ∧
    file.directives.map (·.filesMatch) = d.scopes []
  restores : d.Restores sys pool []

end Doc

section Tags

theorem DocTag.isOpeningTag_token (tag : DocTag) : isOpeningTag tag.token = true := by
  cases tag with
  | filesMatch pattern free =>
      have hhead : (DocTag.filesMatch pattern free).head.takeWhile (· ≠ ch '>') =
          ch 'F' :: (lit "ilesMatch \"" ++ (pattern ++ [ch '"'])).takeWhile (· ≠ ch '>') := rfl
      rw [DocTag.token, hhead]
      exact isOpeningTag_cons (by decide) _
  | plain tag =>
      obtain ⟨c, s, hhead, hc⟩ := tag.opens
      have hfree := tag.free
      have hkeep : (DocTag.plain tag).head.takeWhile (· ≠ ch '>') = c :: s := by
        rw [DocTag.head, takeWhile_ne_of_not_mem hfree, hhead]
      rw [DocTag.token, hkeep]
      exact isOpeningTag_cons hc s

theorem DocTag.scope_token (tag : DocTag) : htaccessParseFilesMatch tag.token = tag.own := by
  cases tag with
  | filesMatch pattern free =>
      have htoken : (DocTag.filesMatch pattern free).token =
          lit "<FilesMatch \"" ++ (pattern ++ [ch '"']).takeWhile (· ≠ ch '>') ++ [ch '>'] := by
        have hfree : ch '>' ∉ lit "FilesMatch \"" := by decide
        rw [DocTag.token, DocTag.head, List.takeWhile_append_of_pos (ne_of_not_mem hfree)]
        rfl
      have hquoted : (pattern ++ [ch '"']).takeWhile (· ≠ ch '"') = pattern :=
        takeWhile_ne_append free []
      rw [htoken, htaccessParseFilesMatch_quoted, List.takeWhile_takeWhile, DocTag.own]
      conv_rhs => rw [← hquoted, List.takeWhile_takeWhile]
      exact congrArg (fun f => List.takeWhile f (pattern ++ [ch '"']))
        (funext fun c => by simp [Bool.and_comm])
  | plain tag =>
      rw [DocTag.token, DocTag.head, takeWhile_ne_of_not_mem tag.free]
      exact htaccessParseFilesMatch_other tag.plain

theorem DocTag.name_free (tag : DocTag) : ch '>' ∉ tag.name := by
  cases tag with
  | filesMatch pattern free =>
      have hname : (DocTag.filesMatch pattern free).name = lit "FilesMatch" := by
        have hhead : (DocTag.filesMatch pattern free).head =
            lit "FilesMatch" ++ ch ' ' :: ch '"' :: (pattern ++ [ch '"']) := rfl
        rw [DocTag.name, hhead, List.takeWhile_append_of_pos (by decide +kernel),
          List.takeWhile_cons]
        rfl
      rw [hname]
      decide
  | plain tag => exact fun hmem => tag.free ((List.takeWhile_sublist _).subset hmem)

theorem DocTag.closing_text (tag : DocTag) : LineText true [tag.closing] tag.closing := by
  have hfree : ch '>' ∉ ch '/' :: tag.name := fun hmem =>
    (List.mem_cons.mp hmem).elim (by decide) tag.name_free
  exact lineText_tag hfree

theorem DocTag.oneLine_of_free {tag : DocTag} (h : ch '>' ∉ tag.head) : tag.OneLine := by
  have hbehind : tag.behind = [] := by
    rw [DocTag.behind, dropWhile_ne_append h]
    rfl
  exact ⟨[], hbehind ▸ .finish⟩

theorem DocTag.opening_text (tag : DocTag) (rest : NgxStr) :
    tag.opening ++ rest =
      ch '<' :: (tag.head.takeWhile (· ≠ ch '>') ++ ch '>' :: (tag.behind ++ rest)) := by
  obtain ⟨front, back, hsplit, hfree⟩ :=
    List.eq_append_cons_of_mem (show ch '>' ∈ tag.head ++ [ch '>'] by simp)
  have hfront : tag.head.takeWhile (· ≠ ch '>') = front := by
    rw [← takeWhile_ne_cut tag.head (ch '>') [], hsplit, takeWhile_ne_append hfree]
  have hback : tag.behind = back := by
    rw [DocTag.behind, hsplit, dropWhile_ne_append hfree]
    rfl
  rw [DocTag.opening, hsplit, hfront, hback]
  simp

theorem DocTag.lexLine {tag : DocTag} (h : tag.OneLine) :
    ∃ extra, ∀ rest, htaccessLexLine (tag.opening ++ ch '\n' :: rest) =
      some (tag.token :: extra, rest.dropWhile isNewline) := by
  obtain ⟨extra, hbehind⟩ := h
  refine ⟨extra, fun rest => ?_⟩
  obtain ⟨p, hloop, hskip⟩ := htaccessLexLineLoop_text hbehind
    (by decide : isNewline (ch '\n') = true) rest
    (tag.head.takeWhile (· ≠ ch '>') ++ ch '>' :: (tag.behind ++ ch '\n' :: rest)).length
    (by simp; omega) [tag.token]
  rw [htaccessLexLine, tag.opening_text, List.length_cons, htaccessLexLineLoop,
    htaccessSkipSpace_cons (by decide)]
  simp only
  rw [if_neg (by decide), htaccessLexToken_tag (not_mem_takeWhile_ne _ _)]
  simp only [List.nil_append]
  rw [← DocTag.token, hloop, Option.map_some, ← hskip]
  rfl

end Tags

section Runs
variable {sys : Sys} {pool : PoolId}

/-- Whatever stands behind the text, the lexer makes these lines of it. -/
def LexesTo (u : NgxStr) (lines : List (List NgxStr)) : Prop :=
  ∀ rest, lexedText (u ++ rest) = (lines ++ (lexedText rest).1, (lexedText rest).2)

theorem lexesTo_append {u v : NgxStr} {lines lines' : List (List NgxStr)} (hu : LexesTo u lines)
    (hv : LexesTo v lines') : LexesTo (u ++ v) (lines ++ lines') := by
  intro rest
  rw [List.append_assoc, hu, hv, List.append_assoc]

theorem lexesTo_line {s : NgxStr} {tokens : List NgxStr} (hne : tokens ≠ [])
    (h : ∀ rest, htaccessLexLine (s ++ ch '\n' :: rest) = some (tokens, rest.dropWhile isNewline)) :
    LexesTo (lineOf s) [tokens] := by
  intro rest
  have htext : lineOf s ++ rest = s ++ ch '\n' :: rest := by simp [lineOf]
  rw [htext, lexedText_line hne (h rest)]
  rfl

theorem lexesTo_text {s : NgxStr} {tokens : List NgxStr} (hne : tokens ≠ [])
    (h : LineText true tokens s) : LexesTo (lineOf s) [tokens] :=
  lexesTo_line hne (htaccessLexLine_text h (by decide))

/-- The parser comes through the text, whatever stands behind it, and is then in this state. -/
def Runs (sys : Sys) (pool : PoolId) (u : NgxStr) (st : ParserState) : Prop :=
  ∃ lines, LexesTo u lines ∧ parseLines sys pool lines .initial = some st

theorem runs_nil : Runs sys pool [] .initial := ⟨[], fun _ => rfl, rfl⟩

theorem Runs.loop {u : NgxStr} {st : ParserState} (h : Runs sys pool u st) :
    htaccessParseLoop sys pool u.length u .initial = some st := by
  obtain ⟨lines, hlex, hparse⟩ := h
  have hwhole := hlex []
  have hempty : lexedText [] = ([], true) := rfl
  rw [List.append_nil, hempty, List.append_nil] at hwhole
  rw [htaccessParseLoop_lexed, hwhole, if_pos rfl, hparse]

theorem Runs.line {u s : NgxStr} {tokens : List NgxStr} {st st' : ParserState}
    (h : Runs sys pool u st) (hlex : LexesTo (lineOf s) [tokens])
    (hline : parseLine sys pool st tokens = some st') : Runs sys pool (u ++ lineOf s) st' := by
  obtain ⟨lines, hu, hparse⟩ := h
  refine ⟨lines ++ [tokens], lexesTo_append hu hlex, ?_⟩
  rw [parseLines_append, hparse, Option.bind_some, parseLines_cons, hline]
  rfl

theorem restored_iff {u v : NgxStr} {st st' : ParserState} (hu : Runs sys pool u st)
    (hv : Runs sys pool v st') :
    Restored sys pool u v ↔ st'.depth = st.depth ∧
      st'.filesMatch.getD st'.depth [] = st.filesMatch.getD st.depth [] := by
  rw [Restored, hu.loop, hv.loop]
  constructor
  · exact fun h => h st st' rfl rfl
  · rintro h _ _ ⟨⟩ ⟨⟩
    exact h

theorem Runs.opening {u : NgxStr} {st : ParserState} {tag : DocTag} (h : Runs sys pool u st)
    (hline : tag.OneLine) (hdepth : st.depth < 15) :
    Runs sys pool (u ++ lineOf tag.opening) (st.opened tag.token) := by
  obtain ⟨extra, hlex⟩ := tag.lexLine hline
  exact h.line (lexesTo_line (List.cons_ne_nil _ _) hlex)
    (parseLine_opening sys pool tag.isOpeningTag_token hdepth)

theorem Runs.tooDeep {u : NgxStr} {st : ParserState} {tag : DocTag} (h : Runs sys pool u st)
    (hline : tag.OneLine) (hdepth : ¬ st.depth < 15) :
    Runs sys pool (u ++ lineOf tag.opening) st := by
  obtain ⟨extra, hlex⟩ := tag.lexLine hline
  exact h.line (lexesTo_line (List.cons_ne_nil _ _) hlex)
    (parseLine_tooDeep sys pool tag.isOpeningTag_token hdepth)

theorem Runs.closing {u : NgxStr} {st : ParserState} {tag : DocTag} (h : Runs sys pool u st) :
    Runs sys pool (u ++ lineOf tag.closing) { st with depth := st.depth - 1 } :=
  h.line (lexesTo_text (List.cons_ne_nil _ _) tag.closing_text)
    (parseLine_closing sys pool (isClosingTag_cons tag.name))

/-- The second state is at the depth of the first, with the same slots up to there and with
directives in these scopes added. -/
structure Leaves (st st' : ParserState) (scopes : List NgxStr) : Prop where
  depth : st'.depth = st.depth
  slots : ∀ i ≤ st.depth, st'.filesMatch.getD i [] = st.filesMatch.getD i []
  scopes : st'.directives.map (·.filesMatch) = st.directives.map (·.filesMatch) ++ scopes

theorem Leaves.trans {st st' st'' : ParserState} {scopes scopes' : List NgxStr}
    (h : Leaves st st' scopes) (h' : Leaves st' st'' scopes') :
    Leaves st st'' (scopes ++ scopes') where
  depth := h'.depth.trans h.depth
  slots i hi := (h'.slots i (h.depth ▸ hi)).trans (h.slots i hi)
  scopes := by rw [h'.scopes, h.scopes, List.append_assoc]

theorem Leaves.scope {st st' : ParserState} {scopes : List NgxStr} (h : Leaves st st' scopes) :
    st'.filesMatch.getD st'.depth [] = st.filesMatch.getD st.depth [] := by
  rw [h.depth, h.slots _ (Nat.le_refl _)]

theorem Runs.directive {u : NgxStr} {st : ParserState} (h : Runs sys pool u st) (hst : Nested st)
    (l : DirectiveLine) :
    ∃ st', Runs sys pool (u ++ lineOf l.text) st' ∧ Nested st' ∧
      Leaves st st' (if l.id = .rewriteCond then [] else [st.filesMatch.getD st.depth []]) := by
  obtain ⟨st', hpush⟩ := Option.isSome_iff_exists.mp (l.accepted sys pool st)
  have hline : parseLine sys pool st l.tokens = some st' := by
    rw [parseLine_of_lineId sys pool l.named, if_pos (hst.on _ (Nat.le_refl _)), hpush]
  have hne : l.tokens ≠ [] := by
    intro hnil
    have hnamed := l.named
    rw [hnil] at hnamed
    cases hnamed
  obtain ⟨hdepth, hslots, hscopes⟩ := parseLine_scope sys pool hst l.named hline
  exact ⟨st', h.line (lexesTo_text hne l.written) hline, parseLine_nested sys pool hst hline,
    hdepth, fun i _ => by rw [hslots], hscopes⟩

theorem Runs.inside {u : NgxStr} {st : ParserState} {tag : DocTag} (h : Runs sys pool u st)
    (hst : Nested st) (hline : tag.OneLine) (hdepth : st.depth < 15) :
    Runs sys pool (u ++ lineOf tag.opening) (st.opened tag.token) ∧ Nested (st.opened tag.token) ∧
      (st.opened tag.token).depth = st.depth + 1 ∧
      (st.opened tag.token).filesMatch.getD (st.opened tag.token).depth [] = tag.own :=
  ⟨h.opening hline hdepth,
    parseLine_nested sys pool hst
      (@parseLine_opening sys pool st tag.token [] tag.isOpeningTag_token hdepth),
    rfl, (opened_scope hst.full hdepth tag.token).trans tag.scope_token⟩

/-- A block that found its slot leaves the state with the directives of its inside. -/
theorem Runs.block {u v : NgxStr} {st inner : ParserState} {tag : DocTag} {scopes : List NgxStr}
    (h : Runs sys pool (u ++ lineOf tag.opening ++ v) inner) (hinner : Nested inner)
    (hleaves : Leaves (st.opened tag.token) inner scopes) :
    ∃ st', Runs sys pool (u ++ blockText tag v) st' ∧ Nested st' ∧ Leaves st st' scopes := by
  have hclosed := @Runs.closing sys pool _ _ tag h
  have hnested := parseLine_nested sys pool hinner
    (@parseLine_closing sys pool inner tag.closing [] (isClosingTag_cons tag.name))
  rw [List.append_assoc, List.append_assoc, ← blockText] at hclosed
  refine ⟨_, hclosed, hnested, ?_, fun i hi => ?_, hleaves.scopes⟩
  · have hdepth : inner.depth = st.depth + 1 := hleaves.depth
    simp only [hdepth, Nat.add_sub_cancel]
  · have hout : i ≠ st.depth + 1 := by omega
    have hslot := hleaves.slots i (Nat.le_succ_of_le hi)
    simp only [ParserState.opened, getD_set, hout, false_and, if_false] at hslot
    exact hslot

end Runs

namespace Doc
variable {sys : Sys} {pool : PoolId}

/-- A document that does not go too deep is parsed as the innermost blocks have it, and every
closing tag restores what its opening tag changed. -/
theorem runs {d : Doc} (hd : d.OneLine) {u : NgxStr} {st : ParserState}
    (hu : Runs sys pool u st) (hst : Nested st) (hfit : st.depth + d.height ≤ 15) :
    ∃ st', Runs sys pool (u ++ d.text) st' ∧ Nested st' ∧
      Leaves st st' (d.codeScopes (st.filesMatch.getD st.depth [])) ∧ d.Restores sys pool u := by
  induction d generalizing u st with
  | done =>
      refine ⟨st, ?_, hst, ⟨rfl, fun _ _ => rfl, (List.append_nil _).symm⟩, trivial⟩
      rw [text, List.append_nil]
      exact hu
  | line l rest ih =>
      obtain ⟨mid, hmid, hnested, hleaves⟩ := hu.directive hst l
      obtain ⟨st', hst', hnested', hleaves', hrestores⟩ :=
        ih hd hmid hnested (by rw [hleaves.depth]; exact hfit)
      rw [hleaves.scope] at hleaves'
      refine ⟨st', ?_, hnested', hleaves.trans hleaves', hrestores⟩
      rw [text, ← List.append_assoc]
      exact hst'
  | block tag inside rest ihInside ihRest =>
      obtain ⟨htag, hinside, hrest⟩ := hd
      rw [height] at hfit
      have hdepth : st.depth < 15 := by omega
      obtain ⟨hopened, hnestedOpened, hdeeper, hscope⟩ := hu.inside hst htag hdepth
      obtain ⟨inner, hinner, hnestedInner, hleavesInner, hrestoresInside⟩ :=
        ihInside hinside hopened hnestedOpened (by omega)
      rw [hscope] at hleavesInner
      obtain ⟨mid, hmid, hnestedMid, hleaves⟩ := hinner.block hnestedInner hleavesInner
      obtain ⟨st', hst', hnested', hleaves', hrestoresRest⟩ :=
        ihRest hrest hmid hnestedMid (by rw [hleaves.depth]; omega)
      rw [hleaves.scope] at hleaves'
      refine ⟨st', ?_, hnested', hleaves.trans hleaves', ?_, hrestoresInside, hrestoresRest⟩
      · rw [text, ← List.append_assoc]
        exact hst'
      · exact (restored_iff hu hmid).mpr ⟨hleaves.depth, hleaves.scope⟩

theorem fits {d : Doc} (hd : d.OneLine) {u : NgxStr} {st : ParserState} (hu : Runs sys pool u st)
    (hst : Nested st) (hfull : st.depth ≤ 15) (h : d.Restores sys pool u) :
    st.depth + d.height ≤ 15 := by
  induction d generalizing u st with
  | done => exact hfull
  | line l rest ih =>
      obtain ⟨mid, hmid, hnested, hleaves⟩ := hu.directive hst l
      have hrest := ih hd hmid hnested (by rw [hleaves.depth]; exact hfull) h
      rwa [hleaves.depth] at hrest
  | block tag inside rest ihInside ihRest =>
      obtain ⟨htag, hinside, hrest⟩ := hd
      obtain ⟨hrestored, hrestoresInside, hrestoresRest⟩ := h
      by_cases hdepth : st.depth < 15
      · obtain ⟨hopened, hnestedOpened, hdeeper, -⟩ := hu.inside hst htag hdepth
        have hfit := ihInside hinside hopened hnestedOpened (by omega) hrestoresInside
        obtain ⟨inner, hinner, hnestedInner, hleavesInner, -⟩ :=
          runs hinside hopened hnestedOpened hfit
        obtain ⟨mid, hmid, hnestedMid, hleaves⟩ := hinner.block hnestedInner hleavesInner
        have hbehind := ihRest hrest hmid hnestedMid (by rw [hleaves.depth]; exact hfull)
          hrestoresRest
        rw [hleaves.depth] at hbehind
        rw [height]
        omega
      · -- the closing tag of the block closes the one around it
        have hskipped := hu.tooDeep htag hdepth
        have hfit := ihInside hinside hskipped hst hfull hrestoresInside
        obtain ⟨inner, hinner, -, hleaves, -⟩ := runs hinside hskipped hst hfit
        have hclosed := @Runs.closing sys pool _ _ tag hinner
        rw [List.append_assoc, List.append_assoc, ← blockText] at hclosed
        have hback := ((restored_iff hu hclosed).mp hrestored).1
        simp only [hleaves.depth] at hback
        omega

theorem scopes_length (d : Doc) (cur own : NgxStr) :
    (d.codeScopes own).length = (d.scopes cur).length := by
  induction d generalizing cur own with
  | done => rfl
  | line l rest ih =>
      rw [codeScopes, scopes, List.length_append, List.length_append, ih cur own]
      split <;> rfl
  | block tag inside rest ihInside ihRest =>
      rw [codeScopes, scopes, List.length_append, List.length_append,
        ihInside (tag.pattern.getD cur) tag.own, ihRest cur own]

theorem direct_iff (d : Doc) (cur own : NgxStr) :
    d.Direct cur own ↔ d.codeScopes own = d.scopes cur := by
  induction d generalizing cur own with
  | done => exact iff_of_true trivial rfl
  | line l rest ih =>
      rw [Direct, codeScopes, scopes, ih]
      by_cases hcond : l.id = .rewriteCond
      · simp [hcond]
      · simp [hcond]
  | block tag inside rest ihInside ihRest =>
      rw [Direct, codeScopes, scopes, ihInside, ihRest]
      constructor
      · rintro ⟨hinside, hrest⟩
        rw [hinside, hrest]
      · exact fun h => List.append_inj h (scopes_length inside _ _)

end Doc

/-- The blocks of a document are scoped if every opening tag is one line, no block is deeper than
the 15 slots, and the innermost block of every directive has the pattern in force there; and only
then, if the opening tags are lines. -/
theorem blocks_scoped_iff (sys : Sys) (pool : PoolId) (d : Doc) :
    (d.OneLine ∧ d.height ≤ 15 ∧ d.Direct [] [] → d.Scoped sys pool) ∧
      (d.OneLine → d.Scoped sys pool → d.height ≤ 15 ∧ d.Direct [] []) := by
  have hparse : d.OneLine → d.height ≤ 15 → ∃ file, htaccessParse sys pool d.text = some file ∧
      file.directives.map (·.filesMatch) = d.codeScopes [] ∧ d.Restores sys pool [] := by
    intro hline hheight
    have hfit : ParserState.initial.depth + d.height ≤ 15 := by
      simpa [ParserState.initial] using hheight
    obtain ⟨st, hst, -, hleaves, hrestores⟩ :=
      d.runs hline (@runs_nil sys pool) nested_initial hfit
    refine ⟨{ directives := st.directives, pool }, ?_, hleaves.scopes, hrestores⟩
    rw [htaccessParse, ← List.nil_append d.text, hst.loop]
    rfl
  constructor
  · rintro ⟨hline, hheight, hdirect⟩
    obtain ⟨file, hfile, hscopes, hrestores⟩ := hparse hline hheight
    exact ⟨⟨file, hfile, hscopes.trans ((d.direct_iff [] []).mp hdirect)⟩, hrestores⟩
  · intro hline h
    have hfit := d.fits hline (@runs_nil sys pool) nested_initial (Nat.zero_le _) h.restores
    have hheight : d.height ≤ 15 := by simpa [ParserState.initial] using hfit
    refine ⟨hheight, (d.direct_iff [] []).mpr ?_⟩
    obtain ⟨file, hfile, hscopes, -⟩ := hparse hline hheight
    obtain ⟨file', hfile', hscopes'⟩ := h.scopes
    cases hfile.symm.trans hfile'
    exact hscopes.symm.trans hscopes'

def deniedLine : DirectiveLine where
  tokens := [lit "Require", lit "all", lit "denied"]
  text := lit "Require all denied"
  id := .require
  named := by decide
  written :=
    .token (plainWord (by decide) (by decide) (by decide) (by decide)) (.blank (by decide)
      (.token (plainWord (by decide) (by decide) (by decide) (by decide)) (.blank (by decide)
        (.token (plainWord (by decide) (by decide) (by decide) (by decide)) .finish))))
  accepted _ _ _ := rfl

/-- A FilesMatch inside of a FilesMatch, with a directive in each. -/
def directScope : Doc :=
  .block (.filesMatch (lit "outer") (by decide))
    (.block (.filesMatch (lit "a b") (by decide)) (.line deniedLine .done)
      (.line deniedLine .done)) .done

theorem direct_scope_kept : directScope.Scoped (siteSys (siteFs 0 [])) 0 := by
  refine (blocks_scoped_iff (siteSys (siteFs 0 [])) 0 directScope).1 ⟨?_, by decide, ?_⟩
  · exact ⟨DocTag.oneLine_of_free (by decide),
      ⟨DocTag.oneLine_of_free (by decide), trivial, trivial⟩, trivial⟩
  · exact ⟨⟨⟨fun _ => by decide, trivial⟩, fun _ => by decide, trivial⟩, trivial⟩

/-- A block of another kind inside of a FilesMatch. -/
def hiddenScope : Doc :=
  .block (.filesMatch (lit "secret") (by decide))
    (.block (.plain ⟨lit "IfModule m", ⟨_, _, rfl, by decide⟩, by decide, by decide⟩)
      (.line deniedLine .done) .done) .done

/-- The directive inside of both blocks loses the pattern. -/
theorem hidden_scope_lost : ¬ hiddenScope.Scoped (siteSys (siteFs 0 [])) 0 := by
  intro h
  obtain ⟨file, hfile, hscopes⟩ := h.scopes
  have hparsed : (htaccessParse (siteSys (siteFs 0 [])) 0 hiddenScope.text).map
      (fun file => file.directives.map (·.filesMatch)) = some [[]] := by
    decide +kernel
  rw [hfile, Option.map_some, hscopes] at hparsed
  exact absurd hparsed (by decide)

end NgxHtaccess
