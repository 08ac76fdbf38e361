import NgxHtaccess.Lib.OptionRel
import NgxHtaccess.Parser

/-!
A parse as the handling of lexed lines.

Lexing does not depend on the state of the parser, so `htaccess_parse` is the
lexer followed by a fold over its lines. A line adds at most one directive, and
which one depends on the directives before it through the waiting conditions only.
-/
namespace NgxHtaccess

def lexLinesLoop : Nat → NgxStr → Option (List (List NgxStr))
  | 0, _ => some []
  | _ + 1, [] => some []
  | fuel + 1, c :: p =>
      match htaccessLexLine (c :: p) with
      | none => none
      | some (tokens, next) => (lexLinesLoop fuel next).map (tokens :: ·)

/-- The lines of a file as lists of tokens. -/
def lexLines (text : NgxStr) : Option (List (List NgxStr)) := lexLinesLoop text.length text

def lexedLoop : Nat → NgxStr → List (List NgxStr) × Bool
  | 0, _ => ([], true)
  | _ + 1, [] => ([], true)
  | fuel + 1, c :: p =>
      match htaccessLexLine (c :: p) with
      | none => ([], false)
      | some (tokens, next) => (tokens :: (lexedLoop fuel next).1, (lexedLoop fuel next).2)

/-- The lines that have tokens, and whether the lexer gets to the end of the text. -/
def lexedText (text : NgxStr) : List (List NgxStr) × Bool :=
  ((lexedLoop text.length text).1.filter (· ≠ []), (lexedLoop text.length text).2)

def lineId (line : List NgxStr) : Option DirectiveId := line.head?.bind htaccessDirectiveId

def parseLines (sys : Sys) (pool : PoolId) (lines : List (List NgxStr)) (st : ParserState) :
    Option ParserState :=
  lines.foldlM (parseLine sys pool) st

def DirectiveData.id : DirectiveData → DirectiveId
  | .rewriteEngine _ => .rewriteEngine
  | .rewriteBase _ => .rewriteBase
  | .rewriteRule _ => .rewriteRule
  | .redirect _ => .redirect
  | .redirectMatch _ => .redirectMatch
  | .redirectPermanent _ => .redirectPermanent
  | .redirectTemp _ => .redirectTemp
  | .authType _ => .authType
  | .authName _ => .authName
  | .authUserFile _ => .authUserFile
  | .require _ => .require
  | .order _ => .order
  | .allow _ => .allow
  | .deny _ => .deny
  | .header _ => .header
  | .expiresActive _ => .expiresActive
  | .expiresByType _ => .expiresByType
  | .expiresDefault _ => .expiresDefault
  | .errorDocument _ => .errorDocument
  | .options _ => .options
  | .directoryIndex _ => .directoryIndex

section
variable (sys : Sys) (pool : PoolId)

theorem htaccessParseLoop_eq (fuel : Nat) (p : NgxStr) (st : ParserState) :
    htaccessParseLoop sys pool fuel p st =
      (lexLinesLoop fuel p).bind fun lines => parseLines sys pool lines st := by
  induction fuel generalizing p st with
  | zero => rfl
  | succ fuel ih =>
      cases p with
      | nil => rfl
      | cons c p =>
          simp only [htaccessParseLoop, lexLinesLoop]
          cases htaccessLexLine (c :: p) with
          | none => rfl
          | some line =>
              obtain ⟨tokens, next⟩ := line
              simp only [ih, parseLines]
              cases hline : parseLine sys pool st tokens <;>
                cases lexLinesLoop fuel next <;> simp [List.foldlM_cons, hline]

theorem htaccessParse_eq (text : NgxStr) :
    htaccessParse sys pool text =
      ((lexLines text).bind fun lines => parseLines sys pool lines .initial).map fun st =>
        { directives := st.directives, pool } := by
  rw [htaccessParse, htaccessParseLoop_eq, lexLines]

theorem parseLines_append (lines lines' : List (List NgxStr)) (st : ParserState) :
    parseLines sys pool (lines ++ lines') st =
      (parseLines sys pool lines st).bind (parseLines sys pool lines') := by
  simp only [parseLines, List.foldlM_append]
  rfl

theorem parseLines_cons (line : List NgxStr) (lines : List (List NgxStr)) (st : ParserState) :
    parseLines sys pool (line :: lines) st =
      (parseLine sys pool st line).bind (parseLines sys pool lines) := rfl

theorem parseLines_invariant {P : ParserState → Prop}
    (keep : ∀ {st st' : ParserState} {line : List NgxStr}, P st →
      parseLine sys pool st line = some st' → P st')
    {lines : List (List NgxStr)} {st st' : ParserState} (hst : P st)
    (h : parseLines sys pool lines st = some st') : P st' := by
  induction lines generalizing st with
  | nil =>
      cases h
      exact hst
  | cons line lines ih =>
      rw [parseLines_cons] at h
      obtain ⟨mid, hline, hrest⟩ := Option.bind_eq_some_iff.mp h
      exact ih (keep hst hline) hrest

theorem parseLines_nonempty (lines : List (List NgxStr)) (st : ParserState) :
    parseLines sys pool (lines.filter (· ≠ [])) st = parseLines sys pool lines st := by
  induction lines generalizing st with
  | nil => rfl
  | cons line lines ih =>
      cases line with
      | nil => exact ih st
      | cons t rest =>
          simp only [List.filter_cons, ne_eq, reduceCtorEq, not_false_eq_true, decide_true, if_true,
            parseLines_cons]
          exact congrArg _ (funext ih)

theorem lexLinesLoop_eq (fuel : Nat) (p : NgxStr) :
    lexLinesLoop fuel p = if (lexedLoop fuel p).2 then some (lexedLoop fuel p).1 else none := by
  induction fuel generalizing p with
  | zero => rfl
  | succ fuel ih =>
      cases p with
      | nil => rfl
      | cons c p =>
          cases hlex : htaccessLexLine (c :: p) with
          | none => simp [lexLinesLoop, lexedLoop, hlex]
          | some line =>
              obtain ⟨tokens, next⟩ := line
              simp only [lexLinesLoop, lexedLoop, hlex, ih]
              split <;> rfl

theorem htaccessParseLoop_lexed (text : NgxStr) (st : ParserState) :
    htaccessParseLoop sys pool text.length text st =
      if (lexedText text).2 then parseLines sys pool (lexedText text).1 st else none := by
  rw [htaccessParseLoop_eq, lexLinesLoop_eq]
  simp only [lexedText, parseLines_nonempty]
  split <;> rfl

/-- A parse handles the lines one after the other, if the text lexes to its end. -/
theorem htaccessParse_lexed (text : NgxStr) :
    htaccessParse sys pool text =
      if (lexedText text).2 then
        (parseLines sys pool (lexedText text).1 .initial).map fun st =>
          { directives := st.directives, pool }
      else none := by
  rw [htaccessParse, htaccessParseLoop_lexed]
  split <;> rfl

/-- Texts that differ in lines in the middle parse alike, if the states that these lines leave
are such that the lines behind them parse alike. -/
theorem htaccessParse_middle {text text' : NgxStr} {before mid mid' after : List (List NgxStr)}
    {whole : Bool} {R : ParserState → ParserState → Prop}
    {D : List Directive → List Directive → Prop}
    (htext : lexedText text = (before ++ mid ++ after, whole))
    (htext' : lexedText text' = (before ++ mid' ++ after, whole))
    (hmid : ∀ st, parseLines sys pool before .initial = some st →
      Option.Rel R (parseLines sys pool mid st) (parseLines sys pool mid' st))
    (hafter : ∀ t t', R t t' → Option.Rel (fun v v' => D v.directives v'.directives)
      (parseLines sys pool after t) (parseLines sys pool after t')) :
    Option.Rel (fun file file' => file.pool = file'.pool ∧ D file.directives file'.directives)
      (htaccessParse sys pool text) (htaccessParse sys pool text') := by
  rw [htaccessParse_lexed, htaccessParse_lexed, htext, htext']
  cases whole with
  | false => exact .none
  | true =>
      simp only [if_true, parseLines_append]
      cases hbefore : parseLines sys pool before .initial with
      | none => exact .none
      | some st =>
          have hrest := OptionRel.bind (hmid st hbefore) hafter
          exact OptionRel.map hrest fun v v' hv => ⟨rfl, hv⟩

theorem directiveData_id {id : DirectiveId} {args : List NgxStr}
    {conds : Option (List RewriteCond)} {u : DirectiveData}
    (h : directiveData sys pool id args conds = some u) : u.id = id := by
  cases id <;> simp only [directiveData] at h <;> (try split at h) <;>
    simp only [Option.map_eq_some_iff, Option.some.injEq, reduceCtorEq] at h <;>
    first
      | (rw [← h]; rfl)
      | (obtain ⟨_, _, h⟩ := h; rw [← h]; rfl)

theorem isTag_of_directiveId {t : NgxStr} {id : DirectiveId} (h : htaccessDirectiveId t = some id) :
    isTag t = false := by
  have hnames : ∀ e ∈ directiveNames, ngxTolower (ch '<') ≠ ngxTolower ((lit e.1).headD 0) := by
    decide
  obtain ⟨e, hfind, _⟩ := Option.map_eq_some_iff.mp h
  have hname := List.find?_some hfind
  have hne := hnames e (List.mem_of_find?_eq_some hfind)
  cases t with
  | nil => rfl
  | cons c t =>
      by_contra htag
      have hc : c = ch '<' := by
        simp only [isTag, List.head?_cons, Bool.not_eq_false, Bool.and_eq_true,
          decide_eq_true_eq, Option.some.injEq] at htag
        exact htag.1.2
      simp only [eqIgnoreCase, List.length_cons, ngxStrncasecmpEq, List.headD_cons, hc, hne,
        if_false, Bool.and_false, Bool.false_eq_true] at hname

/-- A line about a directive pushes it, unless its block is switched off. -/
theorem parseLine_of_lineId {st : ParserState} {line : List NgxStr} {id : DirectiveId}
    (h : lineId line = some id) :
    parseLine sys pool st line =
      if st.enabled.getD st.depth false then htaccessPushDirective sys pool st id line
      else some st := by
  cases line with
  | nil => cases h
  | cons t rest =>
      have hid : htaccessDirectiveId t = some id := h
      simp only [parseLine, isTag_of_directiveId hid, Bool.false_eq_true, if_false, hid]
      cases st.enabled.getD st.depth false <;> rfl

theorem parseLine_prefix (ds : List Directive) (st : ParserState) (line : List NgxStr) :
    parseLine sys pool { st with directives := ds ++ st.directives } line =
      (parseLine sys pool st line).map fun st => { st with directives := ds ++ st.directives } := by
  unfold parseLine
  split
  · rfl
  · rename_i t _
    simp only
    split_ifs with htag hclose hdeep hoff
    · rfl
    · rfl
    · rfl
    · rfl
    · cases htaccessDirectiveId t with
      | none => rfl
      | some id =>
          simp only [htaccessPushDirective]
          split
          · simp only [Option.map_map]
            rfl
          · simp only [Option.map_map, Function.comp_def, List.append_assoc]

theorem parseLines_prefix (ds : List Directive) (lines : List (List NgxStr)) (st : ParserState) :
    parseLines sys pool lines { st with directives := ds ++ st.directives } =
      (parseLines sys pool lines st).map fun st =>
        { st with directives := ds ++ st.directives } := by
  induction lines generalizing st with
  | nil => rfl
  | cons line lines ih =>
      rw [parseLines_cons, parseLines_cons, parseLine_prefix]
      cases parseLine sys pool st line with
      | none => rfl
      | some st' => exact ih st'

theorem parseLine_adds {st st' : ParserState} {line : List NgxStr}
    (h : parseLine sys pool st line = some st') :
    st'.directives = st.directives ∨
      ∃ t rest id d, line = t :: rest ∧ htaccessDirectiveId t = some id ∧
        directiveData sys pool id line st.pendingConds = some d.u ∧
        st'.directives = st.directives ++ [d] := by
  unfold parseLine at h
  split at h
  · injection h with h
    exact .inl (by rw [← h])
  · rename_i t rest
    split_ifs at h with htag hclose hdeep hoff
    · injection h with h
      exact .inl (by rw [← h])
    · injection h with h
      exact .inl (by rw [← h])
    · injection h with h
      exact .inl (by rw [← h])
    · injection h with h
      exact .inl (by rw [← h])
    · cases hid : htaccessDirectiveId t with
      | none =>
          simp only [hid, Option.some.injEq] at h
          exact .inl (by rw [← h])
      | some id =>
          simp only [hid, htaccessPushDirective] at h
          split at h
          · obtain ⟨cond, _, h⟩ := Option.map_eq_some_iff.mp h
            exact .inl (by rw [← h])
          · obtain ⟨u, hu, h⟩ := Option.map_eq_some_iff.mp h
            exact .inr ⟨t, rest, id, _, rfl, hid, hu, by rw [← h]⟩

theorem parseLine_directives {st st' : ParserState} {line : List NgxStr}
    (h : parseLine sys pool st line = some st') :
    st'.directives = st.directives ∨
      ∃ t rest d, line = t :: rest ∧ htaccessDirectiveId t = some d.u.id ∧
        st'.directives = st.directives ++ [d] := by
  rcases parseLine_adds sys pool h with hsame | ⟨t, rest, id, d, hline, hid, hdata, hpush⟩
  · exact .inl hsame
  · rw [← directiveData_id sys pool hdata] at hid
    exact .inr ⟨t, rest, d, hline, hid, hpush⟩

theorem parseLines_directives {lines : List (List NgxStr)} {st st' : ParserState}
    (h : parseLines sys pool lines st = some st') :
    ∀ d ∈ st'.directives, d ∈ st.directives ∨
      ∃ line ∈ lines, ∃ t rest, line = t :: rest ∧ htaccessDirectiveId t = some d.u.id := by
  induction lines generalizing st with
  | nil =>
      cases h
      exact fun d hd => .inl hd
  | cons line lines ih =>
      intro d hd
      rw [parseLines_cons] at h
      obtain ⟨mid, hline, hrest⟩ := Option.bind_eq_some_iff.mp h
      rcases ih hrest d hd with hmid | ⟨l, hl, t, rest, rfl, hid⟩
      · rcases parseLine_directives sys pool hline with hsame | ⟨t, rest, e, rfl, hid, hadd⟩
        · exact .inl (hsame ▸ hmid)
        · rw [hadd, List.mem_append, List.mem_singleton] at hmid
          rcases hmid with hold | rfl
          · exact .inl hold
          · exact .inr ⟨_, List.mem_cons_self, t, rest, rfl, hid⟩
      · exact .inr ⟨_, List.mem_cons_of_mem _ hl, t, rest, rfl, hid⟩

theorem parseLines_withFs (fs : FileSystem) (lines : List (List NgxStr)) (st : ParserState) :
    parseLines (sys.withFs fs) pool lines st = parseLines sys pool lines st := by
  induction lines generalizing st with
  | nil => rfl
  | cons line lines ih =>
      rw [parseLines_cons, parseLines_cons, funext ih]
      rfl

theorem htaccessParse_withFs (fs : FileSystem) (text : NgxStr) :
    htaccessParse (sys.withFs fs) pool text = htaccessParse sys pool text := by
  simp only [htaccessParse_eq, parseLines_withFs]

theorem htaccessParseFile_withFs {fs fs' : FileSystem} {path : NgxStr}
    (h : fs.openFile path = fs'.openFile path) (pool : PoolId) :
    htaccessParseFile (sys.withFs fs) pool path = htaccessParseFile (sys.withFs fs') pool path := by
  simp only [htaccessParseFile, htaccessParse_withFs]
  simp only [Sys.withFs, h]

end

end NgxHtaccess
