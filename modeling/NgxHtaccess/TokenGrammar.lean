import NgxHtaccess.LexAppend

/-!
The token grammar of `htaccess_lex_line`.

A line is written as tags, quoted strings and bare words with blanks between them. The lexer
reads such a line back: its tokens are the texts that were written, and it stops behind the
newlines.
-/
namespace NgxHtaccess

/-- A text whose bytes outside of escapes are no byte in `stop`. -/
inductive EscapedText (stop : UInt8 → Bool) : NgxStr → Prop where
  | nil : EscapedText stop []
  | byte {c : UInt8} {s : NgxStr} : stop c = false → c ≠ ch '\\' → EscapedText stop s →
      EscapedText stop (c :: s)
  | pair (c : UInt8) {s : NgxStr} : EscapedText stop s → EscapedText stop (ch '\\' :: c :: s)

/-- The three forms in which a token is written: the text on the line, and the token. -/
inductive TokenText : NgxStr → NgxStr → Prop where
  | tag {body : NgxStr} : ch '>' ∉ body →
      TokenText (ch '<' :: (body ++ [ch '>'])) (ch '<' :: (body ++ [ch '>']))
  | quoted {s : NgxStr} : EscapedText (· = ch '"') s →
      TokenText (ch '"' :: (s ++ [ch '"'])) s
  | bare {s : NgxStr} : EscapedText isBareEnd s → s ≠ [] → s.head? ≠ some (ch '"') →
      s.head? ≠ some (ch '<') → TokenText s s

/-- The tokens of a line and the line, up to its newline. A token and a comment begin where
the line does or behind a blank, which is what the flag says. -/
inductive LineText : Bool → List NgxStr → NgxStr → Prop where
  | finish {apart : Bool} : LineText apart [] []
  | blank {apart : Bool} {c : UInt8} {tokens : List NgxStr} {s : NgxStr} : isBlank c = true →
      LineText true tokens s → LineText apart tokens (c :: s)
  | comment {s : NgxStr} : (∀ c ∈ s, isNewline c = false) → LineText true [] (ch '#' :: s)
  | token {text token : NgxStr} {tokens : List NgxStr} {s : NgxStr} : TokenText text token →
      LineText false tokens s → LineText true (token :: tokens) (text ++ s)

theorem lineText_tag {body : NgxStr} (h : ch '>' ∉ body) :
    LineText true [ch '<' :: (body ++ [ch '>'])] (ch '<' :: (body ++ [ch '>'])) := by
  have hline := LineText.token (TokenText.tag h) .finish
  rwa [List.append_nil] at hline

section Scan
variable {stop : UInt8 → Bool}

theorem htaccessScanEscaped_byte {c : UInt8} (hc : stop c = false) (hescape : c ≠ ch '\\')
    (p : NgxStr) : htaccessScanEscaped stop (c :: p) =
      (c :: (htaccessScanEscaped stop p).1, (htaccessScanEscaped stop p).2) := by
  have hstop : ¬ stop c = true := by rw [hc]; exact Bool.false_ne_true
  cases p with
  | nil => exact if_neg hstop
  | cons d p => rw [htaccessScanEscaped, if_neg hstop, if_neg hescape]

theorem htaccessScanEscaped_pair (hstop : stop (ch '\\') = false) (c : UInt8) (p : NgxStr) :
    htaccessScanEscaped stop (ch '\\' :: c :: p) =
      (ch '\\' :: c :: (htaccessScanEscaped stop p).1, (htaccessScanEscaped stop p).2) := by
  rw [htaccessScanEscaped, if_neg (by rw [hstop]; exact Bool.false_ne_true), if_pos rfl]

theorem htaccessScanEscaped_here {c : UInt8} (hc : stop c = true) (p : NgxStr) :
    htaccessScanEscaped stop (c :: p) = ([], c :: p) := by
  cases p with
  | nil => rw [htaccessScanEscaped, if_pos hc]
  | cons d p => rw [htaccessScanEscaped, if_pos hc]

theorem htaccessScanEscaped_text (hescape : stop (ch '\\') = false) {s : NgxStr}
    (h : EscapedText stop s) {c : UInt8} (hc : stop c = true) (rest : NgxStr) :
    htaccessScanEscaped stop (s ++ c :: rest) = (s, c :: rest) := by
  induction h with
  | nil => exact htaccessScanEscaped_here hc rest
  | byte hd hne _ ih => rw [List.cons_append, htaccessScanEscaped_byte hd hne, ih]
  | pair d _ ih => rw [List.cons_append, List.cons_append, htaccessScanEscaped_pair hescape, ih]

end Scan

theorem escapedText_of_plain {stop : UInt8 → Bool} {s : NgxStr}
    (h : ∀ c ∈ s, stop c = false ∧ c ≠ ch '\\') : EscapedText stop s := by
  induction s with
  | nil => exact .nil
  | cons c s ih =>
      obtain ⟨hstop, hescape⟩ := h c List.mem_cons_self
      exact .byte hstop hescape (ih fun d hd => h d (List.mem_cons_of_mem c hd))

/-- A byte that stands for itself in a bare word. -/
def isPlainByte (c : UInt8) : Bool := !isBareEnd c && c ≠ ch '\\'

theorem plainWord {s : NgxStr} (h : s.all isPlainByte = true) (hne : s ≠ [])
    (hquote : s.head? ≠ some (ch '"')) (htag : s.head? ≠ some (ch '<')) : TokenText s s := by
  refine .bare (escapedText_of_plain fun c hc => ?_) hne hquote htag
  have hplain := List.all_eq_true.mp h c hc
  simpa [isPlainByte] using hplain

theorem tokenText_first {text token : NgxStr} (h : TokenText text token) :
    ∃ c s, text = c :: s ∧ isBlank c = false ∧ c ≠ ch '#' := by
  cases h with
  | tag _ => exact ⟨_, _, rfl, by decide, by decide⟩
  | quoted _ => exact ⟨_, _, rfl, by decide, by decide⟩
  | bare hs hne _ _ =>
      cases hs with
      | nil => exact absurd rfl hne
      | byte hc _ _ =>
          simp only [isBareEnd, Bool.or_eq_false_iff, decide_eq_false_iff_not] at hc
          exact ⟨_, _, rfl, hc.1.1, hc.2⟩
      | pair c _ => exact ⟨_, _, rfl, by decide, by decide⟩

theorem htaccessLexToken_tag {body : NgxStr} (h : ch '>' ∉ body) (rest : NgxStr) :
    htaccessLexToken (ch '<' :: (body ++ ch '>' :: rest)) =
      .ok (ch '<' :: (body ++ [ch '>'])) rest := by
  have hfree : ch '>' ∉ ch '<' :: body := fun hmem =>
    (List.mem_cons.mp hmem).elim (by decide) h
  have hfind := ngxStrlchr_append (ch '<' :: body) rest hfree
  rw [htaccessLexToken_cons (by decide) (by decide), if_neg (by decide), if_pos rfl,
    ← List.cons_append, hfind]
  rfl

theorem htaccessLexToken_text {text token : NgxStr} (h : TokenText text token) {c : UInt8}
    (hc : isBareEnd c = true) (rest : NgxStr) :
    htaccessLexToken (text ++ c :: rest) = .ok token (c :: rest) := by
  have hfirst := tokenText_first h
  cases h with
  | @tag body hbody =>
      have htext : ch '<' :: (body ++ [ch '>']) ++ c :: rest =
          ch '<' :: (body ++ ch '>' :: (c :: rest)) := by simp
      rw [htext, htaccessLexToken_tag hbody]
  | quoted hs =>
      have hscan := @htaccessScanEscaped_text (· = ch '"') (by decide) token hs (ch '"')
        (by decide) (c :: rest)
      have htext : ch '"' :: (token ++ [ch '"']) ++ c :: rest =
          ch '"' :: (token ++ ch '"' :: (c :: rest)) := by simp
      rw [htext, htaccessLexToken_cons (by decide) (by decide), if_pos rfl, htaccessReadQuoted,
        hscan]
  | bare hs hne hquote htag =>
      obtain ⟨d, s, rfl, hblank, hhash⟩ := hfirst
      have hscan := htaccessScanEscaped_text (by decide) hs hc rest
      rw [List.cons_append] at hscan ⊢
      rw [htaccessLexToken_cons hblank hhash, if_neg (fun h => hquote (congrArg some h)),
        if_neg (fun h => htag (congrArg some h)), hscan, if_neg hne]

theorem htaccessSkipLine_newline {c : UInt8} (hc : isNewline c = true) (rest : NgxStr) :
    htaccessSkipLine (c :: rest) = rest.dropWhile isNewline := by
  simp only [htaccessSkipLine, List.dropWhile_cons, hc, Bool.not_true, Bool.false_eq_true,
    if_false, if_true]

theorem htaccessSkipLine_comment {s : NgxStr} (hs : ∀ c ∈ s, isNewline c = false) {c : UInt8}
    (hc : isNewline c = true) (rest : NgxStr) :
    htaccessSkipLine (s ++ c :: rest) = rest.dropWhile isNewline := by
  have hskip : ∀ d ∈ s, (!isNewline d) = true := fun d hd => by rw [hs d hd]; rfl
  rw [htaccessSkipLine, List.dropWhile_append_of_pos hskip, ← htaccessSkipLine,
    htaccessSkipLine_newline hc]

theorem lineText_behind {tokens : List NgxStr} {s : NgxStr} (h : LineText false tokens s)
    {c : UInt8} (hc : isNewline c = true) (rest : NgxStr) :
    ∃ d p, s ++ c :: rest = d :: p ∧ isBareEnd d = true := by
  cases h with
  | finish => exact ⟨c, rest, rfl, isBareEnd_of_newline c hc⟩
  | @blank _ d _ s hd _ =>
      exact ⟨d, s ++ c :: rest, rfl, by rw [isBareEnd, hd]; rfl⟩

/-- The loop stops in front of the newline or of the comment of the line. -/
theorem htaccessLexLineLoop_text {apart : Bool} {tokens : List NgxStr} {s : NgxStr}
    (h : LineText apart tokens s) {c : UInt8} (hc : isNewline c = true) (rest : NgxStr)
    (fuel : Nat) (hfuel : s.length < fuel) (before : List NgxStr) :
    ∃ p, htaccessLexLineLoop fuel (s ++ c :: rest) before = some (before ++ tokens, p) ∧
      htaccessSkipLine p = rest.dropWhile isNewline := by
  induction h generalizing fuel before with
  | finish =>
      obtain ⟨fuel, rfl⟩ : ∃ n, fuel = n + 1 := ⟨fuel - 1, by omega⟩
      have hhash : c ≠ ch '#' := by
        rintro rfl
        exact absurd hc (by decide)
      have hdone : htaccessLexToken (c :: rest) = .done (c :: rest) := by
        rw [htaccessLexToken_cons (isBlank_of_newline c hc) hhash]
        have hquote : c ≠ ch '"' := by
          rintro rfl
          exact absurd hc (by decide)
        have htag : c ≠ ch '<' := by
          rintro rfl
          exact absurd hc (by decide)
        rw [if_neg hquote, if_neg htag,
          htaccessScanEscaped_here (isBareEnd_of_newline c hc), if_pos rfl]
      refine ⟨c :: rest, ?_, htaccessSkipLine_newline hc rest⟩
      rw [List.nil_append, htaccessLexLineLoop,
        htaccessSkipSpace_cons (isBlank_of_newline c hc)]
      simp only
      rw [if_neg hhash, hdone, List.append_nil]
  | @blank apart d tokens s hd _ ih =>
      obtain ⟨fuel, rfl⟩ : ∃ n, fuel = n + 1 := ⟨fuel - 1, by omega⟩
      obtain ⟨p, hloop, hskip⟩ := ih (fuel + 1) (Nat.lt_of_succ_lt hfuel) before
      refine ⟨p, ?_, hskip⟩
      rw [← hloop, List.cons_append, htaccessLexLineLoop, htaccessLexLineLoop]
      have hspace : htaccessSkipSpace (d :: (s ++ c :: rest)) =
          htaccessSkipSpace (s ++ c :: rest) := by
        rw [htaccessSkipSpace, List.dropWhile_cons, if_pos hd]
        rfl
      rw [hspace]
  | @comment s hs =>
      obtain ⟨fuel, rfl⟩ : ∃ n, fuel = n + 1 := ⟨fuel - 1, by omega⟩
      have hs' : ∀ d ∈ ch '#' :: s, isNewline d = false := by
        intro d hd
        rcases List.mem_cons.mp hd with rfl | hd
        · decide
        · exact hs d hd
      refine ⟨ch '#' :: s ++ c :: rest, ?_, htaccessSkipLine_comment hs' hc rest⟩
      rw [htaccessLexLineLoop, List.cons_append, htaccessSkipSpace_cons (by decide),
        List.append_nil]
      exact if_pos rfl
  | @token text token tokens s htext hline ih =>
      obtain ⟨fuel, rfl⟩ : ∃ n, fuel = n + 1 := ⟨fuel - 1, by omega⟩
      obtain ⟨e, q, rfl, hblank, hhash⟩ := tokenText_first htext
      obtain ⟨d, p', hbehind, hd⟩ := lineText_behind hline hc rest
      have htoken := htaccessLexToken_text htext hd p'
      rw [← hbehind] at htoken
      obtain ⟨p, hloop, hskip⟩ := ih fuel (by simp at hfuel; omega) (before ++ [token])
      refine ⟨p, ?_, hskip⟩
      rw [List.append_assoc, List.cons_append, htaccessLexLineLoop, htaccessSkipSpace_cons hblank]
      rw [List.cons_append] at htoken
      simp only
      rw [if_neg hhash, htoken]
      simp only
      rw [hloop, List.append_assoc]
      rfl

theorem htaccessLexLine_text {tokens : List NgxStr} {s : NgxStr} (h : LineText true tokens s)
    {c : UInt8} (hc : isNewline c = true) (rest : NgxStr) :
    htaccessLexLine (s ++ c :: rest) = some (tokens, rest.dropWhile isNewline) := by
  obtain ⟨p, hloop, hskip⟩ :=
    htaccessLexLineLoop_text h hc rest (s ++ c :: rest).length (by simp) []
  rw [htaccessLexLine, hloop, Option.map_some, ← hskip]
  rfl

theorem lexedText_line {s rest : NgxStr} {c : UInt8} {tokens : List NgxStr} (hne : tokens ≠ [])
    (h : htaccessLexLine (s ++ c :: rest) = some (tokens, rest.dropWhile isNewline)) :
    lexedText (s ++ c :: rest) = (tokens :: (lexedText rest).1, (lexedText rest).2) := by
  have hline := lexedText_of_line
    (List.append_ne_nil_of_right_ne_nil s (List.cons_ne_nil c rest)) h
  rw [hline, lexedText_newlines, List.filter_cons, if_pos (decide_eq_true hne)]
  rfl

/-- The lexer reads back every line that the grammar writes, and stops behind the newlines
that end it. -/
theorem lexLine_reads_lineText {tokens : List NgxStr} {s : NgxStr}
    (h : LineText true tokens s) {ends : NgxStr} (hne : ends ≠ [])
    (hends : ∀ c ∈ ends, isNewline c = true) (rest : NgxStr) :
    htaccessLexLine (s ++ ends ++ rest) = some (tokens, rest.dropWhile isNewline) := by
  obtain ⟨c, ends, rfl⟩ := List.exists_cons_of_ne_nil hne
  have hmore : ∀ d ∈ ends, isNewline d = true := fun d hd => hends d (List.mem_cons_of_mem c hd)
  rw [List.append_assoc, List.cons_append, htaccessLexLine_text h (hends c List.mem_cons_self),
    List.dropWhile_append_of_pos hmore]

/-- A tag with a quote and a hash, a quoted string with all delimiters and a bare word with an
escaped blank. -/
theorem lexLine_reads_three_forms :
    htaccessLexLine (lit " <a \"#>\t\"> < \\\" #\" b\\ c\"< # d" ++ lit "\r\n" ++ lit "\n\ne") =
      some ([lit "<a \"#>", lit "> < \\\" #", lit "b\\ c\"<"], lit "e") := by
  have hquoted : EscapedText (· = ch '"') (lit "> < \\\" #") := by
    repeat first
      | exact .nil
      | refine .byte (by decide) (by decide) ?_
      | refine .pair _ ?_
  have hbare : EscapedText isBareEnd (lit "b\\ c\"<") := by
    repeat first
      | exact .nil
      | refine .byte (by decide) (by decide) ?_
      | refine .pair _ ?_
  have hline : LineText true [lit "<a \"#>", lit "> < \\\" #", lit "b\\ c\"<"]
      (ch ' ' :: (lit "<a \"#>" ++ (ch '\t' :: (lit "\"> < \\\" #\"" ++
        (ch ' ' :: (lit "b\\ c\"<" ++ (ch ' ' :: ch '#' :: lit " d"))))))) :=
    .blank (by decide) (.token (@TokenText.tag (lit "a \"#") (by decide))
      (.blank (by decide) (.token (.quoted hquoted)
        (.blank (by decide) (.token (.bare hbare (by decide) (by decide) (by decide))
          (.blank (by decide) (.comment (by decide +kernel))))))))
  exact lexLine_reads_lineText hline (by decide) (by decide +kernel) (lit "\n\ne")

end NgxHtaccess
