import NgxHtaccess.ParsedLines

/-!
The lexer on a text with another text behind it.

A line takes at least one byte, so the fuel of the loops never runs out. A text that lexes to
its end and ends in a newline that no backslash takes along keeps its lines whatever stands
behind it, since a quoted string or a tag that is open there is an error.
-/
namespace NgxHtaccess

/-- The text ends in a newline, and no backslash stands right before it. -/
def EndsLine (p : NgxStr) : Prop :=
  ∃ body c, p = body ++ [c] ∧ isNewline c = true ∧ body.getLast? ≠ some (ch '\\')

section Ends

theorem EndsLine.ne_nil {p : NgxStr} (h : EndsLine p) : p ≠ [] := by
  obtain ⟨body, c, rfl, _⟩ := h
  exact List.append_ne_nil_of_right_ne_nil _ (List.cons_ne_nil c [])

theorem EndsLine.suffix (front : NgxStr) {p : NgxStr} (h : EndsLine (front ++ p)) (hp : p ≠ []) :
    EndsLine p := by
  obtain ⟨body, c, hsplit, hc, hbody⟩ := h
  obtain ⟨init, last, rfl⟩ := List.eq_nil_or_concat' p |>.resolve_left hp
  rw [← List.append_assoc] at hsplit
  obtain ⟨rfl, hlast⟩ := List.append_inj' hsplit rfl
  cases hlast
  refine ⟨init, c, rfl, hc, fun hescape => hbody ?_⟩
  rw [List.getLast?_append, hescape]
  rfl

theorem EndsLine.newline_mem {p : NgxStr} (h : EndsLine p) : ∃ c ∈ p, isNewline c = true := by
  obtain ⟨body, c, rfl, hc, _⟩ := h
  exact ⟨c, List.mem_append_right _ List.mem_cons_self, hc⟩

theorem EndsLine.last (front : NgxStr) {c : UInt8} (h : EndsLine (front ++ [c])) :
    isNewline c = true := by
  obtain ⟨body, d, hsplit, hd, _⟩ := h
  obtain ⟨_, hlast⟩ := List.append_inj' hsplit rfl
  cases hlast
  exact hd

theorem dropWhile_newline {p : NgxStr} {f : UInt8 → Bool} (h : ∃ c ∈ p, isNewline c = true)
    (hf : ∀ c, isNewline c = true → f c = false) (rest : NgxStr) :
    p.dropWhile f ≠ [] ∧ (p ++ rest).dropWhile f = p.dropWhile f ++ rest := by
  obtain ⟨c, hc, hnewline⟩ := h
  have hne : p.dropWhile f ≠ [] := by
    intro hnil
    have hall := List.dropWhile_eq_nil_iff.mp hnil c hc
    rw [hf c hnewline] at hall
    cases hall
  refine ⟨hne, ?_⟩
  rw [List.dropWhile_append, if_neg]
  rwa [List.isEmpty_iff]

theorem isBlank_of_newline (c : UInt8) (h : isNewline c = true) : isBlank c = false := by
  simp only [isNewline, Bool.or_eq_true, decide_eq_true_eq] at h
  rcases h with rfl | rfl <;> decide

theorem isBareEnd_of_newline (c : UInt8) (h : isNewline c = true) : isBareEnd c = true := by
  simp only [isBareEnd, h, Bool.or_true, Bool.true_or]

theorem htaccessSkipSpace_suffix (p : NgxStr) : ∃ blanks, p = blanks ++ htaccessSkipSpace p :=
  ⟨p.takeWhile isBlank, List.takeWhile_append_dropWhile.symm⟩

theorem htaccessSkipSpace_cons {c : UInt8} (h : isBlank c = false) (q : NgxStr) :
    htaccessSkipSpace (c :: q) = c :: q := by
  simp only [htaccessSkipSpace, List.dropWhile_cons, h, Bool.false_eq_true, if_false]

theorem htaccessSkipLine_suffix (p : NgxStr) : ∃ line, p = line ++ htaccessSkipLine p := by
  refine ⟨p.takeWhile (fun c => !isNewline c) ++
    (p.dropWhile fun c => !isNewline c).takeWhile isNewline, ?_⟩
  rw [htaccessSkipLine, List.append_assoc, List.takeWhile_append_dropWhile,
    List.takeWhile_append_dropWhile]

theorem htaccessSkipLine_lt (c : UInt8) (p : NgxStr) :
    (htaccessSkipLine (c :: p)).length < (c :: p).length := by
  have hle : ∀ (f : UInt8 → Bool) (q : NgxStr), (q.dropWhile f).length ≤ q.length :=
    fun f q => (List.dropWhile_sublist f).length_le
  unfold htaccessSkipLine
  cases hc : isNewline c with
  | true =>
      simp only [List.dropWhile_cons, hc, Bool.not_true, Bool.false_eq_true, if_false, if_true]
      exact Nat.lt_succ_of_le (hle isNewline p)
  | false =>
      simp only [List.dropWhile_cons, hc, Bool.not_false, if_true]
      exact Nat.lt_succ_of_le (Nat.le_trans (hle isNewline _) (hle _ p))

end Ends

section Token

theorem htaccessScanEscaped_split (stop : UInt8 → Bool) (p : NgxStr) :
    p = (htaccessScanEscaped stop p).1 ++ (htaccessScanEscaped stop p).2 := by
  fun_induction htaccessScanEscaped stop p with
  | case1 | case2 | case3 | case4 => rfl
  | case5 d p s next hscan hstop ih =>
      rw [hscan] at ih
      rw [ih]
      rfl
  | case6 c d p hstop hescape s next hscan ih =>
      rw [hscan] at ih
      rw [ih]
      rfl

theorem htaccessScanEscaped_append {stop : UInt8 → Bool} {p : NgxStr}
    (h : (htaccessScanEscaped stop p).2 ≠ []) (rest : NgxStr) :
    htaccessScanEscaped stop (p ++ rest) =
      ((htaccessScanEscaped stop p).1, (htaccessScanEscaped stop p).2 ++ rest) := by
  fun_induction htaccessScanEscaped stop p with
  | case1 => exact absurd rfl h
  | case2 c hstop =>
      cases rest with
      | nil => simp only [List.append_nil, htaccessScanEscaped, hstop, if_true]
      | cons d rest =>
          simp only [List.cons_append, List.nil_append, htaccessScanEscaped, hstop, if_true]
  | case3 c hstop => exact absurd rfl h
  | case4 c d p hstop => simp only [List.cons_append, htaccessScanEscaped, hstop, if_true]
  | case5 d p s next hscan hstop ih =>
      rw [hscan] at ih
      simp only [List.cons_append, htaccessScanEscaped, hstop, if_false, if_true, ih h,
        Bool.false_eq_true]
  | case6 c d p hstop hescape s next hscan ih =>
      rw [hscan] at ih
      have hrest := ih h
      simp only [List.cons_append] at hrest
      simp only [List.cons_append, htaccessScanEscaped, hstop, hescape, if_false, hrest,
        Bool.false_eq_true]

theorem htaccessScanEscaped_endsLine {stop : UInt8 → Bool}
    (hnewline : ∀ c, isNewline c = true → stop c = true) {p : NgxStr} (h : EndsLine p) :
    (htaccessScanEscaped stop p).2 ≠ [] := by
  fun_induction htaccessScanEscaped stop p with
  | case1 => exact absurd rfl h.ne_nil
  | case2 | case4 => exact List.cons_ne_nil _ _
  | case3 c hstop => exact absurd (hnewline c (EndsLine.last [] h)) hstop
  | case5 d p s next hscan hstop ih =>
      rw [hscan] at ih
      refine ih (EndsLine.suffix [ch '\\', d] h ?_)
      -- the escaped byte is not the newline at the end
      rintro rfl
      obtain ⟨body, c, hsplit, _, hbody⟩ := h
      have hbody' : [ch '\\'] ++ [d] = body ++ [c] := hsplit
      obtain ⟨rfl, _⟩ := List.append_inj' hbody' rfl
      exact hbody rfl
  | case6 c d p hstop hescape s next hscan ih =>
      rw [hscan] at ih
      exact ih (EndsLine.suffix [c] h (List.cons_ne_nil d p))

theorem htaccessScanEscaped_stop {stop : UInt8 → Bool} {p next : NgxStr} {c : UInt8}
    (h : (htaccessScanEscaped stop p).2 = c :: next) : stop c = true := by
  fun_induction htaccessScanEscaped stop p with
  | case1 | case3 => cases h
  | case2 d hstop =>
      cases h
      exact hstop
  | case4 d e p hstop =>
      cases h
      exact hstop
  | case5 d p s next hscan hstop ih =>
      rw [hscan] at ih
      exact ih h
  | case6 d e p hstop hescape s next hscan ih =>
      rw [hscan] at ih
      exact ih h

theorem htaccessReadQuoted_eq_some {quote : UInt8} {start token next : NgxStr}
    (h : htaccessReadQuoted (quote :: start) = some (token, next)) :
    start = token ++ quote :: next ∧
      ∀ rest, htaccessReadQuoted (quote :: (start ++ rest)) = some (token, next ++ rest) := by
  have hsplit := htaccessScanEscaped_split (· = quote) start
  simp only [htaccessReadQuoted] at h ⊢
  split at h
  · cases h
  · rename_i s e tail hscan
    cases h
    have he : e = quote :=
      of_decide_eq_true (@htaccessScanEscaped_stop (· = quote) start next e (by rw [hscan]))
    rw [hscan, he] at hsplit
    refine ⟨hsplit, fun rest => ?_⟩
    rw [htaccessScanEscaped_append (by rw [hscan]; exact List.cons_ne_nil _ _), hscan]
    rfl

theorem EndsLine.after {taken next : NgxStr} {e : UInt8} (h : EndsLine (taken ++ e :: next))
    (he : isNewline e = false) : EndsLine next := by
  rw [List.append_cons] at h
  by_cases hnext : next = []
  · rw [hnext, List.append_nil] at h
    have hlast := EndsLine.last taken h
    rw [he] at hlast
    cases hlast
  · exact EndsLine.suffix (taken ++ [e]) h hnext

section First
variable {c : UInt8} (hc : isBlank c = false) (hhash : c ≠ ch '#') (q : NgxStr)
include hc hhash

theorem htaccessLexToken_cons :
    htaccessLexToken (c :: q) =
      if c = ch '"' then
        match htaccessReadQuoted (c :: q) with
        | none => .error
        | some (token, next) => .ok token next
      else if c = ch '<' then
        match ngxStrlchr (c :: q) (ch '>') with
        | none => .error
        | some (token, next) => .ok (token ++ [ch '>']) next
      else if (htaccessScanEscaped isBareEnd (c :: q)).1 = [] then
        .done (htaccessScanEscaped isBareEnd (c :: q)).2
      else
        .ok (htaccessScanEscaped isBareEnd (c :: q)).1
          (htaccessScanEscaped isBareEnd (c :: q)).2 := by
  rw [htaccessLexToken, htaccessSkipSpace_cons hc]
  exact if_neg hhash

/-- A token takes a byte at least, and on a line that ends no byte behind it matters. -/
theorem htaccessLexToken_ok {token next : NgxStr}
    (h : htaccessLexToken (c :: q) = .ok token next) :
    (∃ taken, c :: q = taken ++ next ∧ taken ≠ []) ∧ (EndsLine (c :: q) → EndsLine next ∧
      ∀ rest, htaccessLexToken (c :: (q ++ rest)) = .ok token (next ++ rest)) := by
  simp only [htaccessLexToken_cons hc hhash] at h ⊢
  by_cases hquote : c = ch '"'
  · simp only [if_pos hquote] at h ⊢
    cases hread : htaccessReadQuoted (c :: q) with
    | none =>
        rw [hread] at h
        cases h
    | some read =>
        rw [hread] at h
        cases h
        obtain ⟨hstart, hrest⟩ := htaccessReadQuoted_eq_some hread
        have hq : c :: q = c :: read.1 ++ c :: read.2 := congrArg (c :: ·) hstart
        refine ⟨⟨c :: read.1 ++ [c], by rw [hq, List.append_cons], List.cons_ne_nil _ _⟩,
          fun hends => ⟨(hq ▸ hends).after (by rw [hquote]; decide), fun rest => ?_⟩⟩
        rw [hrest]
  simp only [if_neg hquote] at h ⊢
  by_cases htag : c = ch '<'
  · simp only [if_pos htag] at h ⊢
    cases hfind : ngxStrlchr (c :: q) (ch '>') with
    | none =>
        rw [hfind] at h
        cases h
    | some found =>
        rw [hfind] at h
        cases h
        obtain ⟨hq, hfree⟩ := ngxStrlchr_eq_some hfind
        refine ⟨⟨found.1 ++ [ch '>'], by rw [hq, List.append_cons],
          List.append_ne_nil_of_right_ne_nil _ (List.cons_ne_nil _ _)⟩,
          fun hends => ⟨(hq ▸ hends).after (by decide), fun rest => ?_⟩⟩
        rw [← List.cons_append, hq, List.append_assoc, List.cons_append,
          ngxStrlchr_append _ _ hfree]
  simp only [if_neg htag] at h ⊢
  have hsplit := htaccessScanEscaped_split isBareEnd (c :: q)
  split at h
  · cases h
  · rename_i hne
    cases h
    refine ⟨⟨_, hsplit, hne⟩, fun hends => ?_⟩
    have hstop := htaccessScanEscaped_endsLine isBareEnd_of_newline hends
    refine ⟨EndsLine.suffix _ (hsplit ▸ hends) hstop, fun rest => ?_⟩
    rw [← List.cons_append, htaccessScanEscaped_append hstop rest, if_neg hne]

theorem htaccessLexToken_done (hends : EndsLine (c :: q)) {next : NgxStr}
    (h : htaccessLexToken (c :: q) = .done next) (rest : NgxStr) :
    htaccessLexToken (c :: (q ++ rest)) = .done (next ++ rest) := by
  simp only [htaccessLexToken_cons hc hhash] at h ⊢
  by_cases hquote : c = ch '"'
  · rw [if_pos hquote] at h
    split at h <;> cases h
  rw [if_neg hquote] at h ⊢
  by_cases htag : c = ch '<'
  · rw [if_pos htag] at h
    split at h <;> cases h
  rw [if_neg htag] at h ⊢
  have hstop := htaccessScanEscaped_endsLine isBareEnd_of_newline hends
  split at h
  · rename_i hnone
    cases h
    rw [← List.cons_append, htaccessScanEscaped_append hstop rest, if_pos hnone]
  · cases h

end First

end Token

section Line

theorem htaccessSkipSpace_first {p q : NgxStr} {c : UInt8} (h : htaccessSkipSpace p = c :: q) :
    isBlank c = false := by
  have hhead := List.head?_dropWhile_not isBlank p
  rw [htaccessSkipSpace] at h
  rw [h] at hhead
  simpa using hhead

theorem htaccessLexLineLoop_suffix {fuel : Nat} {p q : NgxStr} {tokens line : List NgxStr}
    (h : htaccessLexLineLoop fuel p tokens = some (line, q)) : ∃ taken, p = taken ++ q := by
  induction fuel generalizing p tokens with
  | zero =>
      cases h
      exact ⟨[], rfl⟩
  | succ fuel ih =>
      obtain ⟨blanks, hblanks⟩ := htaccessSkipSpace_suffix p
      unfold htaccessLexLineLoop at h
      cases hspace : htaccessSkipSpace p with
      | nil =>
          rw [hspace] at h
          cases h
          exact ⟨p, (List.append_nil p).symm⟩
      | cons c rest =>
          rw [hspace] at h hblanks
          simp only at h
          by_cases hhash : c = ch '#'
          · rw [if_pos hhash] at h
            cases h
            exact ⟨blanks, hblanks⟩
          rw [if_neg hhash] at h
          split at h
          · cases h
          · cases h
            exact ⟨blanks, hblanks⟩
          · rename_i token next htoken
            obtain ⟨⟨taken, hsplit, _⟩, _⟩ :=
              htaccessLexToken_ok (htaccessSkipSpace_first hspace) hhash rest htoken
            obtain ⟨taken', hnext⟩ := ih h
            refine ⟨blanks ++ taken ++ taken', ?_⟩
            rw [hblanks, hsplit, hnext, List.append_assoc, List.append_assoc]

/-- The tokens of a line that ends are read off the line, whatever is behind it. -/
theorem htaccessLexLineLoop_append {fuel : Nat} {p q : NgxStr} {tokens line : List NgxStr}
    (hends : EndsLine p) (hfuel : p.length ≤ fuel)
    (h : htaccessLexLineLoop fuel p tokens = some (line, q)) (rest : NgxStr) {fuel' : Nat}
    (hfuel' : (p ++ rest).length ≤ fuel') :
    EndsLine q ∧ htaccessLexLineLoop fuel' (p ++ rest) tokens = some (line, q ++ rest) := by
  induction fuel generalizing p tokens fuel' with
  | zero => exact absurd (List.length_eq_zero_iff.mp (Nat.le_zero.mp hfuel)) hends.ne_nil
  | succ fuel ih =>
      obtain ⟨blanks, hblanks⟩ := htaccessSkipSpace_suffix p
      obtain ⟨hne, hdrop⟩ := dropWhile_newline hends.newline_mem isBlank_of_newline rest
      obtain ⟨fuel', rfl⟩ : ∃ n, fuel' = n + 1 := by
        have hpos := List.length_pos_iff.mpr hends.ne_nil
        rw [List.length_append] at hfuel'
        exact ⟨fuel' - 1, by omega⟩
      unfold htaccessLexLineLoop at h ⊢
      cases hspace : htaccessSkipSpace p with
      | nil => exact absurd hspace hne
      | cons c after =>
          have hspace' : htaccessSkipSpace (p ++ rest) = c :: (after ++ rest) := by
            rw [htaccessSkipSpace] at hspace ⊢
            rw [hdrop, hspace]
            rfl
          have hfirst := htaccessSkipSpace_first hspace
          rw [hspace] at h hblanks
          rw [hspace']
          have hends' : EndsLine (c :: after) :=
            EndsLine.suffix blanks (hblanks ▸ hends) (List.cons_ne_nil c after)
          simp only at h ⊢
          by_cases hhash : c = ch '#'
          · rw [if_pos hhash] at h ⊢
            cases h
            exact ⟨hends', rfl⟩
          rw [if_neg hhash] at h ⊢
          cases htoken : htaccessLexToken (c :: after) with
          | error =>
              rw [htoken] at h
              cases h
          | done next =>
              rw [htoken] at h
              cases h
              rw [htaccessLexToken_done hfirst hhash after hends' htoken rest]
              exact ⟨hends', rfl⟩
          | ok token next =>
              rw [htoken] at h
              obtain ⟨⟨taken, hsplit, htaken⟩, hbehind⟩ :=
                htaccessLexToken_ok hfirst hhash after htoken
              obtain ⟨hnext, hrest⟩ := hbehind hends'
              rw [hrest rest]
              have hlength : p.length = blanks.length + (taken.length + next.length) := by
                rw [hblanks, hsplit, List.length_append, List.length_append]
              have hpos := List.length_pos_iff.mpr htaken
              rw [List.length_append] at hfuel'
              exact ih hnext (by omega) h (by rw [List.length_append]; omega)

theorem htaccessSkipLine_append {q : NgxStr} (h : ∃ c ∈ q, isNewline c = true) (rest : NgxStr) :
    htaccessSkipLine (q ++ rest) =
      if htaccessSkipLine q = [] then rest.dropWhile isNewline else htaccessSkipLine q ++ rest := by
  obtain ⟨_, hdrop⟩ := dropWhile_newline (f := fun c => !isNewline c) h
    (fun c hc => by rw [hc]; rfl) rest
  rw [htaccessSkipLine, hdrop, List.dropWhile_append, ← htaccessSkipLine]
  by_cases hnil : htaccessSkipLine q = []
  · rw [if_pos (List.isEmpty_iff.mpr hnil), if_pos hnil]
  · rw [if_neg (fun h => hnil (List.isEmpty_iff.mp h)), if_neg hnil]

theorem htaccessLexLine_append {p next : NgxStr} {line : List NgxStr} (hends : EndsLine p)
    (h : htaccessLexLine p = some (line, next)) (rest : NgxStr) :
    (next ≠ [] → EndsLine next) ∧
      htaccessLexLine (p ++ rest) =
        some (line, if next = [] then rest.dropWhile isNewline else next ++ rest) := by
  obtain ⟨⟨line', q⟩, hloop, hline⟩ := Option.map_eq_some_iff.mp h
  cases hline
  obtain ⟨hq, hloop'⟩ :=
    htaccessLexLineLoop_append hends (Nat.le_refl _) hloop rest (Nat.le_refl _)
  obtain ⟨skipped, hskip⟩ := htaccessSkipLine_suffix q
  refine ⟨fun hne => EndsLine.suffix skipped (hskip ▸ hq) hne, ?_⟩
  rw [htaccessLexLine, hloop', Option.map_some]
  exact congrArg (fun p => some (line, p)) (htaccessSkipLine_append hq.newline_mem rest)

theorem htaccessLexLine_lt {p next : NgxStr} {line : List NgxStr} (hp : p ≠ [])
    (h : htaccessLexLine p = some (line, next)) : next.length < p.length := by
  obtain ⟨⟨line', q⟩, hloop, hline⟩ := Option.map_eq_some_iff.mp h
  cases hline
  obtain ⟨taken, hsplit⟩ := htaccessLexLineLoop_suffix hloop
  have hlength : p.length = taken.length + q.length := by rw [hsplit, List.length_append]
  cases q with
  | nil => exact List.length_pos_iff.mpr hp
  | cons c q =>
      exact Nat.lt_of_lt_of_le (htaccessSkipLine_lt c q) (by omega)

end Line

section Text

theorem lexedLoop_fuel {fuel fuel' : Nat} {p : NgxStr} (h : p.length ≤ fuel)
    (h' : p.length ≤ fuel') : lexedLoop fuel p = lexedLoop fuel' p := by
  induction fuel generalizing fuel' p with
  | zero =>
      rw [List.length_eq_zero_iff.mp (Nat.le_zero.mp h)]
      cases fuel' <;> rfl
  | succ fuel ih =>
      cases p with
      | nil => cases fuel' <;> rfl
      | cons c p =>
          cases fuel' with
          | zero => cases h'
          | succ fuel' =>
              simp only [lexedLoop]
              cases hline : htaccessLexLine (c :: p) with
              | none => rfl
              | some line =>
                  have hlt := htaccessLexLine_lt (List.cons_ne_nil c p) hline
                  rw [List.length_cons] at hlt h h'
                  have hrest : lexedLoop fuel line.2 = lexedLoop fuel' line.2 :=
                    ih (by omega) (by omega)
                  simp only [hrest]

theorem lexedText_of_error {p : NgxStr} (hp : p ≠ []) (h : htaccessLexLine p = none) :
    lexedText p = ([], false) := by
  cases p with
  | nil => exact absurd rfl hp
  | cons c p => simp only [lexedText, List.length_cons, lexedLoop, h, List.filter_nil]

theorem lexedText_of_line {p next : NgxStr} {line : List NgxStr} (hp : p ≠ [])
    (h : htaccessLexLine p = some (line, next)) :
    lexedText p = ([line].filter (· ≠ []) ++ (lexedText next).1, (lexedText next).2) := by
  have hlt := htaccessLexLine_lt hp h
  cases p with
  | nil => exact absurd rfl hp
  | cons c p =>
      rw [List.length_cons] at hlt
      simp only [lexedText, List.length_cons, lexedLoop, h,
        lexedLoop_fuel (p := next) (Nat.le_of_lt_succ hlt) (Nat.le_refl _)]
      rw [← List.filter_append]
      rfl

theorem htaccessLexLine_newline {c : UInt8} (hc : isNewline c = true) (p : NgxStr) :
    htaccessLexLine (c :: p) = some ([], (c :: p).dropWhile isNewline) := by
  have hblank := isBlank_of_newline c hc
  have hend := isBareEnd_of_newline c hc
  have hspecial : c ≠ ch '#' ∧ c ≠ ch '"' ∧ c ≠ ch '<' := by
    refine ⟨?_, ?_, ?_⟩ <;>
      · rintro rfl
        cases hc
  have hscan : htaccessScanEscaped isBareEnd (c :: p) = ([], c :: p) := by
    cases p <;> simp only [htaccessScanEscaped, hend, if_true]
  have htoken : htaccessLexToken (c :: p) = .done (c :: p) := by
    rw [htaccessLexToken_cons hblank hspecial.1, if_neg hspecial.2.1, if_neg hspecial.2.2, hscan,
      if_pos rfl]
  rw [htaccessLexLine, List.length_cons, htaccessLexLineLoop, htaccessSkipSpace_cons hblank]
  simp only [if_neg hspecial.1, htoken, Option.map_some, htaccessSkipLine]
  rw [List.dropWhile_cons_of_neg (by rw [hc]; decide)]

theorem lexedText_newlines (p : NgxStr) : lexedText (p.dropWhile isNewline) = lexedText p := by
  cases p with
  | nil => rfl
  | cons c p =>
      cases hc : isNewline c with
      | false => simp only [List.dropWhile_cons, hc, Bool.false_eq_true, if_false]
      | true =>
          rw [lexedText_of_line (List.cons_ne_nil c p) (htaccessLexLine_newline hc p)]
          rfl

/-- A text that ends a line and lexes to its end is the lines in front of the others. -/
theorem lexedText_append {A : NgxStr} (hends : A ≠ [] → EndsLine A)
    (hlex : (lexedText A).2 = true) (B : NgxStr) :
    lexedText (A ++ B) = ((lexedText A).1 ++ (lexedText B).1, (lexedText B).2) := by
  induction hn : A.length using Nat.strong_induction_on generalizing A with
  | _ n ih =>
      by_cases hA : A = []
      · rw [hA]
        rfl
      cases hline : htaccessLexLine A with
      | none =>
          rw [lexedText_of_error hA hline] at hlex
          cases hlex
      | some read =>
          obtain ⟨line, next⟩ := read
          obtain ⟨hnext, happend⟩ := htaccessLexLine_append (hends hA) hline B
          have hlt := htaccessLexLine_lt hA hline
          have hAB : A ++ B ≠ [] := List.append_ne_nil_of_left_ne_nil hA B
          rw [lexedText_of_line hA hline] at hlex ⊢
          have hrest : lexedText (if next = [] then B.dropWhile isNewline else next ++ B) =
              ((lexedText next).1 ++ (lexedText B).1, (lexedText B).2) := by
            split
            · rename_i hnil
              rw [hnil, lexedText_newlines]
              rfl
            · exact ih next.length (hn ▸ hlt) hnext hlex rfl
          rw [lexedText_of_line hAB happend, hrest, List.append_assoc]

end Text

end NgxHtaccess
