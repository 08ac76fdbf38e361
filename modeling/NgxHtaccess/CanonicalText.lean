import NgxHtaccess.RoundTrip

/-!
The canonical text of a file. Where every argument could stand in quotes, what the parser makes
of a file can be written again, so the file has a canonical text that parses to the same
directives.
-/
namespace NgxHtaccess

section Escapes
variable {stop : UInt8 → Bool}

theorem EscapedText.append {s t : NgxStr} (hs : EscapedText stop s) (ht : EscapedText stop t) :
    EscapedText stop (s ++ t) := by
  induction hs with
  | nil => exact ht
  | byte hstop hescape _ ih => exact .byte hstop hescape ih
  | pair c _ ih => exact .pair c ih

theorem EscapedText.drop_plain {s t : NgxStr} (hs : ch '\\' ∉ s) (h : EscapedText stop (s ++ t)) :
    EscapedText stop t := by
  induction s with
  | nil => exact h
  | cons c s ih =>
      obtain ⟨hc, hs⟩ := not_or.mp (mt List.mem_cons.mpr hs)
      rw [List.cons_append] at h
      generalize hsplit : s ++ t = rest at h
      cases h with
      | byte _ _ hrest => exact ih hs (hsplit ▸ hrest)
      | pair _ _ => exact absurd rfl hc

/-- At a byte that is no backslash a text can be cut: the rest is a text, and so is the front
with any other byte of its own in place of that one. -/
theorem EscapedText.cut {s t : NgxStr} {c : UInt8} (hc : c ≠ ch '\\')
    (h : EscapedText stop (s ++ c :: t)) :
    EscapedText stop t ∧
      ∀ d, stop d = false → d ≠ ch '\\' → EscapedText stop (s ++ [d]) := by
  match s with
  | [] =>
      cases h with
      | byte _ _ hrest => exact ⟨hrest, fun d hd hd' => .byte hd hd' .nil⟩
      | pair _ _ => exact absurd rfl hc
  | [a] =>
      rw [List.cons_append] at h
      cases h with
      | byte ha ha' hrest =>
          obtain ⟨ht, hs⟩ := cut (s := []) hc hrest
          exact ⟨ht, fun d hd hd' => .byte ha ha' (hs d hd hd')⟩
      | pair _ hrest => exact ⟨hrest, fun d _ _ => .pair d .nil⟩
  | a :: b :: s =>
      rw [List.cons_append] at h
      cases h with
      | byte ha ha' hrest =>
          obtain ⟨ht, hs⟩ := cut (s := b :: s) hc hrest
          exact ⟨ht, fun d hd hd' => .byte ha ha' (hs d hd hd')⟩
      | pair _ hrest =>
          obtain ⟨ht, hs⟩ := cut hc hrest
          exact ⟨ht, fun d hd hd' => .pair b (hs d hd hd')⟩

/-- A text can stand between quotes, with any byte behind it. -/
def Closable (s : NgxStr) : Prop := ∀ d, d ≠ ch '"' → d ≠ ch '\\' → Quotable (s ++ [d])

theorem Quotable.closable {s : NgxStr} (h : Quotable s) : Closable s := fun _ hd hd' =>
  h.append (.byte (decide_eq_false hd) hd' .nil)

theorem Quotable.closable_cut {s t : NgxStr} {c : UInt8} (hc : c ≠ ch '\\')
    (h : Quotable (s ++ c :: t)) : Closable s := fun d hd hd' =>
  (h.cut hc).2 d (decide_eq_false hd) hd'

theorem quotable_of_free {s : NgxStr} (hquote : ch '"' ∉ s) (hescape : ch '\\' ∉ s) :
    Quotable s :=
  escapedText_of_plain fun _ hc =>
    ⟨decide_eq_false fun heq => hquote (heq ▸ hc), fun heq => hescape (heq ▸ hc)⟩

theorem Quotable.join {args : List NgxStr} (h : ∀ arg ∈ args, Quotable arg) :
    Quotable ((lit " ").intercalate args) := by
  induction args with
  | nil => exact .nil
  | cons arg args ih =>
      have harg := h arg List.mem_cons_self
      have hrest := ih fun a ha => h a (List.mem_cons_of_mem arg ha)
      cases args with
      | nil => simpa using harg
      | cons next args =>
          rw [List.intercalate_cons_cons, List.append_assoc]
          exact harg.append (.byte (by decide) (by decide) hrest)

theorem Quotable.flagList {parts : List NgxStr} (h : ∀ p ∈ parts, Closable p) :
    Quotable (flagList parts) := by
  refine .byte (by decide) (by decide) ?_
  induction parts with
  | nil => exact .byte (by decide) (by decide) .nil
  | cons part parts ih =>
      have hpart := h part List.mem_cons_self
      have hrest := ih fun p hp => h p (List.mem_cons_of_mem part hp)
      cases parts with
      | nil => simpa using hpart (ch ']') (by decide) (by decide)
      | cons next parts =>
          rw [List.intercalate_cons_cons, List.append_assoc]
          have hcomma := hpart (ch ',') (by decide) (by decide)
          exact hcomma.append hrest

end Escapes

section Shapes

/-- What a token can look like that begins with `<`: a tag without a further `>`, or a text that
stood between quotes. -/
def TagShape (t : NgxStr) : Prop :=
  t.head? = some (ch '<') →
    (∃ body, ch '>' ∉ body ∧ t = ch '<' :: (body ++ [ch '>'])) ∨ Quotable t

theorem htaccessScanEscaped_escaped {stop : UInt8 → Bool} {p : NgxStr}
    (h : (htaccessScanEscaped stop p).2 ≠ []) :
    EscapedText stop (htaccessScanEscaped stop p).1 := by
  fun_induction htaccessScanEscaped stop p with
  | case1 | case3 => exact absurd rfl h
  | case2 | case4 => exact .nil
  | case5 d p s next hscan hstop ih =>
      rw [hscan] at ih
      exact .pair d (ih h)
  | case6 c d p hstop hescape s next hscan ih =>
      rw [hscan] at ih
      exact .byte (Bool.eq_false_iff.mpr hstop) hescape (ih h)

theorem htaccessLexToken_shape {c : UInt8} {q token next : NgxStr} (hc : isBlank c = false)
    (hhash : c ≠ ch '#') (h : htaccessLexToken (c :: q) = .ok token next) : TagShape token := by
  intro hhead
  rw [htaccessLexToken_cons hc hhash] at h
  by_cases hquote : c = ch '"'
  · rw [if_pos hquote] at h
    right
    cases hread : htaccessReadQuoted (c :: q) with
    | none =>
        rw [hread] at h
        cases h
    | some read =>
        rw [hread] at h
        cases h
        rw [hquote] at hread
        simp only [htaccessReadQuoted] at hread
        split at hread
        · cases hread
        · rename_i s e tail hscan
          cases hread
          have hescaped := @htaccessScanEscaped_escaped (· = ch '"') q
            (by rw [hscan]; exact List.cons_ne_nil _ _)
          rw [hscan] at hescaped
          exact hescaped
  rw [if_neg hquote] at h
  by_cases htag : c = ch '<'
  · rw [if_pos htag] at h
    left
    cases hfind : ngxStrlchr (c :: q) (ch '>') with
    | none =>
        rw [hfind] at h
        cases h
    | some found =>
        rw [hfind] at h
        cases h
        obtain ⟨hq, hfree⟩ := ngxStrlchr_eq_some hfind
        cases hbefore : found.1 with
        | nil =>
            rw [hbefore, htag] at hq
            cases hq
        | cons d body =>
            rw [hbefore] at hq hfree
            rw [List.cons_append] at hq
            injection hq with hd _
            refine ⟨body, fun hmem => hfree (List.mem_cons_of_mem d hmem), ?_⟩
            rw [← hd, htag]
            rfl
  rw [if_neg htag] at h
  exfalso
  have hsplit := htaccessScanEscaped_split isBareEnd (c :: q)
  split at h
  · cases h
  · rename_i hne
    cases h
    cases hscan : (htaccessScanEscaped isBareEnd (c :: q)).1 with
    | nil => exact hne hscan
    | cons d rest =>
        rw [hscan] at hsplit hhead
        rw [List.cons_append] at hsplit
        injection hsplit with hd _
        injection hhead with hd'
        exact htag (hd.trans hd')

theorem htaccessLexLineLoop_shape {fuel : Nat} {p q : NgxStr} {tokens line : List NgxStr}
    (htokens : ∀ t ∈ tokens, TagShape t)
    (h : htaccessLexLineLoop fuel p tokens = some (line, q)) : ∀ t ∈ line, TagShape t := by
  induction fuel generalizing p tokens with
  | zero =>
      cases h
      exact htokens
  | succ fuel ih =>
      unfold htaccessLexLineLoop at h
      cases hspace : htaccessSkipSpace p with
      | nil =>
          rw [hspace] at h
          cases h
          exact htokens
      | cons c rest =>
          rw [hspace] at h
          simp only at h
          by_cases hhash : c = ch '#'
          · rw [if_pos hhash] at h
            cases h
            exact htokens
          rw [if_neg hhash] at h
          split at h
          · cases h
          · cases h
            exact htokens
          · rename_i token next htoken
            have hshape := htaccessLexToken_shape (htaccessSkipSpace_first hspace) hhash htoken
            refine ih (fun t ht => ?_) h
            rcases List.mem_append.mp ht with ht | ht
            · exact htokens t ht
            · rw [List.mem_singleton.mp ht]
              exact hshape

theorem lexedLoop_shape (fuel : Nat) (p : NgxStr) :
    ∀ line ∈ (lexedLoop fuel p).1, ∀ t ∈ line, TagShape t := by
  induction fuel generalizing p with
  | zero => exact fun _ hline => absurd hline List.not_mem_nil
  | succ fuel ih =>
      cases p with
      | nil => exact fun _ hline => absurd hline List.not_mem_nil
      | cons c p =>
          cases hlex : htaccessLexLine (c :: p) with
          | none =>
              simp only [lexedLoop, hlex]
              exact fun _ hline => absurd hline List.not_mem_nil
          | some read =>
              simp only [lexedLoop, hlex]
              intro line hline
              rcases List.mem_cons.mp hline with rfl | hline
              · rw [htaccessLexLine] at hlex
                obtain ⟨⟨tokens, q⟩, hloop, hread⟩ := Option.map_eq_some_iff.mp hlex
                cases hread
                exact htaccessLexLineLoop_shape (fun _ ht => absurd ht List.not_mem_nil) hloop
              · exact ih read.2 line hline

theorem lexedText_shape (text : NgxStr) : ∀ line ∈ (lexedText text).1, ∀ t ∈ line, TagShape t :=
  fun line hline => lexedLoop_shape text.length text line (List.mem_of_mem_filter hline)

end Shapes

section Keywords

theorem mem_take_of_keyword {s k : NgxStr} (hk : ∀ d ∈ k, ngxTolower d ≠ 0)
    (h : ngxStrncasecmpEq s k k.length = true) {c : UInt8} (hc : c ∈ s.take k.length) :
    ∃ d ∈ k, ngxTolower c = ngxTolower d := by
  induction k generalizing s with
  | nil =>
      rw [List.length_nil, List.take_zero] at hc
      cases hc
  | cons d k ih =>
      rw [List.length_cons, ngxStrncasecmpEq, List.headD_cons, List.tail_cons] at h
      split at h
      · rename_i same
        rw [if_neg (by rw [same]; exact hk d List.mem_cons_self)] at h
        cases s with
        | nil => cases hc
        | cons e s =>
            rw [List.length_cons, List.take_succ_cons] at hc
            rcases List.mem_cons.mp hc with rfl | hc
            · exact ⟨d, List.mem_cons_self, same⟩
            · obtain ⟨f, hf, hsame⟩ := ih (fun e he => hk e (List.mem_cons_of_mem d he)) h hc
              exact ⟨f, List.mem_cons_of_mem d hf, hsame⟩
      · cases h

theorem Quotable.drop_keyword {s t k : NgxStr} (hletters : k.all fun d => ngxTolower d ≠ 0 &&
      ngxTolower d ≠ ngxTolower (ch '\\'))
    (hkeyword : ngxStrncasecmpEq s k k.length = true) (h : Quotable (s ++ t)) :
    Quotable (s.drop k.length ++ t) := by
  have hall := fun d hd => List.all_eq_true.mp hletters d hd
  simp only [Bool.and_eq_true, decide_eq_true_eq] at hall
  have hfree : ch '\\' ∉ s.take k.length := by
    intro hmem
    obtain ⟨d, hd, hsame⟩ := mem_take_of_keyword (fun d hd => (hall d hd).1) hkeyword hmem
    exact (hall d hd).2 hsame.symm
  rw [← List.take_append_drop k.length s, List.append_assoc] at h
  exact h.drop_plain hfree

theorem htaccessParseFilesMatch_free {t : NgxStr} (htag : isTag t = true) (hshape : TagShape t) :
    ch '"' ∉ htaccessParseFilesMatch t ∧ ch '>' ∉ htaccessParseFilesMatch t := by
  simp only [isTag, Bool.and_eq_true, decide_eq_true_eq] at htag
  obtain ⟨⟨hlength, hhead⟩, hlast⟩ := htag
  have hnone : ch '"' ∉ ([] : NgxStr) ∧ ch '>' ∉ ([] : NgxStr) :=
    ⟨List.not_mem_nil, List.not_mem_nil⟩
  unfold htaccessParseFilesMatch
  split
  · exact hnone
  simp only
  split
  · exact hnone
  rename_i hname
  rw [Bool.not_eq_true', Bool.not_eq_false] at hname
  split
  · rename_i c p hrest
    split
    · rename_i hquote
      refine ⟨not_mem_takeWhile_ne _ _, fun hmem => ?_⟩
      have hsuffix : (c :: p) <:+ t.tail.dropLast := by
        rw [← hrest]
        exact (List.dropWhile_suffix _).trans (List.drop_suffix _ _)
      rcases hshape hhead with ⟨body, hfree, rfl⟩ | hquotable
      · rw [List.tail_cons, List.dropLast_concat] at hsuffix
        exact hfree (hsuffix.subset (List.mem_cons_of_mem c
          ((List.takeWhile_sublist _).subset hmem)))
      · -- between quotes the quote of a pattern would be behind a backslash
        exfalso
        cases t with
        | nil => cases hhead
        | cons d t =>
            cases hhead
            rw [List.tail_cons] at hname hrest
            have hne : t ≠ [] := by
              rintro rfl
              exact absurd hlength (by decide)
            have hinner : Quotable (t.dropLast ++ [t.getLast hne]) := by
              rw [List.dropLast_append_getLast]
              exact hquotable.drop_plain (s := [ch '<']) (by decide)
            have hbehind := hinner.drop_keyword (by decide +kernel) hname
            have hblanks : ch '\\' ∉ (t.dropLast.drop 10).takeWhile isBlank := fun hmem =>
              absurd (List.mem_takeWhile_imp hmem) (by decide)
            have hsplit : t.dropLast.drop 10 =
                (t.dropLast.drop 10).takeWhile isBlank ++ c :: p := by
              rw [← hrest, List.takeWhile_append_dropWhile]
            have hlength10 : (lit "FilesMatch").length = 10 := rfl
            rw [hlength10, hsplit, List.append_assoc] at hbehind
            have hopen := hbehind.drop_plain hblanks
            rw [hquote] at hopen
            cases hopen with
            | byte hstop _ _ => exact absurd hstop (by decide)
    · exact hnone
  · exact hnone

end Keywords

section Flags
variable {rule : RewriteRule} {p : NgxStr}

theorem ngxAtoiLoop_le {line : NgxStr} {value n : Nat} (hvalue : value ≤ ngxMaxInt)
    (h : ngxAtoiLoop line value = some n) : n ≤ ngxMaxInt := by
  induction line generalizing value with
  | nil =>
      cases h
      exact hvalue
  | cons c line ih =>
      rw [ngxAtoiLoop] at h
      split at h
      · cases h
      · rename_i hdigit
        simp only at h
        split at h
        · cases h
        · rename_i hfits
          rw [not_or, UInt8.not_lt, UInt8.not_lt] at hdigit
          have hlow : (c - ch '0').toNat = c.toNat - 48 := UInt8.toNat_sub_of_le _ _ hdigit.1
          have hhigh : c.toNat ≤ 57 := UInt8.le_iff_toNat_le.mp hdigit.2
          have hmax : ngxMaxInt = 0x7FFFFFFFFFFFFFFF := rfl
          exact ih (by omega) h

theorem ngxAtoi_le {line : NgxStr} {n : Nat} (h : ngxAtoi line = some n) : n ≤ ngxMaxInt := by
  unfold ngxAtoi at h
  split at h
  · cases h
  · exact ngxAtoiLoop_le (Nat.zero_le _) h

/-- What the flags of a parsed rule satisfy, one flag after the other. -/
structure FlagsKept (rule : RewriteRule) : Prop where
  pattern : Quotable rule.pattern
  substitution : Quotable rule.substitution
  unmarked : rule.chainIn = false
  code : if rule.redirect then rule.redirectCode ≤ ngxMaxInt else rule.redirectCode = 0
  someVars : rule.envVars ≠ some []
  vars : ∀ var ∈ rule.envVars.getD [], FlagPart (lit "E=" ++ var) ∧ Closable var

theorem applyRuleFlag_kept {part : NgxStr} (h : FlagsKept rule)
    (hvar : ngxStrncasecmpEq part (lit "E=") 2 = true →
      FlagPart (lit "E=" ++ part.drop 2) ∧ Closable (part.drop 2)) :
    FlagsKept (applyRuleFlag part rule) := by
  obtain ⟨hpattern, hsubstitution, hunmarked, hcode, hsome, hvars⟩ := h
  unfold applyRuleFlag
  split_ifs with hlast hend hnocase hredirect hchain hqsa henv
  · exact ⟨hpattern, hsubstitution, hunmarked, hcode, hsome, hvars⟩
  · exact ⟨hpattern, hsubstitution, hunmarked, hcode, hsome, hvars⟩
  · exact ⟨hpattern, hsubstitution, hunmarked, hcode, hsome, hvars⟩
  · refine ⟨hpattern, hsubstitution, hunmarked, ?_, hsome, hvars⟩
    simp only [if_true]
    split
    · decide
    · rename_i code _
      cases hatoi : ngxAtoi code with
      | none => decide
      | some n => exact ngxAtoi_le hatoi
  · exact ⟨hpattern, hsubstitution, hunmarked, hcode, hsome, hvars⟩
  · exact ⟨hpattern, hsubstitution, hunmarked, hcode, hsome, hvars⟩
  · refine ⟨hpattern, hsubstitution, hunmarked, hcode, ?_, fun var hmem => ?_⟩
    · intro hnil
      injection hnil with hnil
      exact List.append_ne_nil_of_right_ne_nil _ (List.cons_ne_nil _ _) hnil
    · rw [ngxArrayPush_getD] at hmem
      rcases List.mem_append.mp hmem with hmem | hmem
      · exact hvars var hmem
      · rw [List.mem_singleton.mp hmem]
        exact hvar henv.2
  · exact ⟨hpattern, hsubstitution, hunmarked, hcode, hsome, hvars⟩

theorem trimRuleFlag_split (raw : NgxStr) :
    ∃ lead tail, raw = lead ++ (trimRuleFlag raw ++ tail) ∧
      (∀ c ∈ lead, c = ch ' ' ∨ c = ch '[') ∧ (∀ c ∈ tail, c = ch ' ' ∨ c = ch ']') ∧
        ∀ init c, trimRuleFlag raw = init ++ [c] → ¬ (c = ch ' ' ∨ c = ch ']') := by
  refine ⟨raw.takeWhile fun c => c = ch ' ' || c = ch '[',
    (raw.dropWhile fun c => c = ch ' ' || c = ch '[').rtakeWhile fun c => c = ch ' ' || c = ch ']',
    ?_, fun c hc => by simpa using List.mem_takeWhile_imp hc,
    fun c hc => by simpa using List.mem_rtakeWhile_imp hc, fun init c hinit => ?_⟩
  · unfold trimRuleFlag
    rw [List.rdropWhile_append_rtakeWhile, List.takeWhile_append_dropWhile]
  · have hstop : ∀ part, trimRuleFlag raw = part → ∀ hl : part ≠ [],
        ¬ (part.getLast hl = ch ' ' || part.getLast hl = ch ']') = true := by
      rintro _ rfl hl
      exact List.rdropWhile_last_not _ _ hl
    have hlast := hstop _ hinit (List.append_ne_nil_of_right_ne_nil _ (List.cons_ne_nil _ _))
    rw [List.getLast_append_singleton] at hlast
    simpa using hlast

theorem trimRuleFlag_var {raw next : NgxStr} (hcomma : ch ',' ∉ raw)
    (hnext : next = [] ∨ next.head? = some (ch ',')) (hp : Quotable (raw ++ next))
    (henv : ngxStrncasecmpEq (trimRuleFlag raw) (lit "E=") 2 = true) :
    FlagPart (lit "E=" ++ (trimRuleFlag raw).drop 2) ∧ Closable ((trimRuleFlag raw).drop 2) := by
  obtain ⟨lead, tail, hsplit, hlead, htail, hfinal⟩ := trimRuleFlag_split raw
  generalize trimRuleFlag raw = part at hsplit hfinal henv ⊢
  subst hsplit
  refine ⟨⟨?_, ⟨ch 'E', _, rfl, by decide⟩, ?_⟩, ?_⟩
  · rw [List.mem_append, not_or]
    refine ⟨by decide, fun hmem => hcomma ?_⟩
    rw [List.mem_append, List.mem_append]
    exact .inr (.inl (List.mem_of_mem_drop hmem))
  · rcases List.eq_nil_or_concat' (part.drop 2) with hnil | ⟨init, c, hlast⟩
    · exact ⟨lit "E", ch '=', by rw [hnil]; rfl, by decide⟩
    · refine ⟨lit "E=" ++ init, c, by rw [hlast, List.append_assoc],
        hfinal (part.take 2 ++ init) c ?_⟩
      rw [List.append_assoc, ← hlast, List.take_append_drop]
  · have hfree : ch '\\' ∉ lead := fun hmem => (hlead _ hmem).elim (by decide) (by decide)
    rw [List.append_assoc, List.append_assoc] at hp
    have hpart : Quotable (part ++ (tail ++ next)) := hp.drop_plain hfree
    have hbehind := hpart.drop_keyword (k := lit "E=") (by decide +kernel) henv
    cases hstop : tail ++ next with
    | nil =>
        rw [hstop, List.append_nil] at hbehind
        exact hbehind.closable
    | cons d rest =>
        have hd : d ≠ ch '\\' := by
          cases tail with
          | nil =>
              rw [List.nil_append] at hstop
              rw [hstop] at hnext
              rcases hnext with hnil | hhead
              · cases hnil
              · cases hhead
                decide
          | cons e tail =>
              cases hstop
              exact (htail d List.mem_cons_self).elim (fun h => h ▸ by decide)
                (fun h => h ▸ by decide)
        rw [hstop] at hbehind
        exact hbehind.closable_cut hd

theorem htaccessParseRuleFlagsLoop_kept (fuel : Nat) (hp : Quotable p) (h : FlagsKept rule) :
    FlagsKept (htaccessParseRuleFlagsLoop fuel p rule) := by
  induction fuel generalizing p rule with
  | zero => exact h
  | succ fuel ih =>
      rw [htaccessParseRuleFlagsLoop]
      have hseps : ch '\\' ∉ p.takeWhile (fun c => c = ch ',' || c = ch ' ') := fun hmem =>
        absurd (List.mem_takeWhile_imp hmem) (by decide)
      have hrest : Quotable (p.dropWhile fun c => c = ch ',' || c = ch ' ') := by
        rw [← List.takeWhile_append_dropWhile (p := fun c => c = ch ',' || c = ch ' ') (l := p)]
          at hp
        exact hp.drop_plain hseps
      split
      · exact h
      · rename_i c q hq
        rw [hq] at hrest
        have hsplit := List.takeWhile_append_dropWhile (p := fun x => decide (x ≠ ch ','))
          (l := c :: q)
        have hnext : (c :: q).dropWhile (· ≠ ch ',') = [] ∨
            ((c :: q).dropWhile (· ≠ ch ',')).head? = some (ch ',') := by
          have hhead := List.head?_dropWhile_not (fun x => decide (x ≠ ch ',')) (c :: q)
          cases hdrop : (c :: q).dropWhile (· ≠ ch ',') with
          | nil => exact .inl rfl
          | cons d rest =>
              rw [hdrop] at hhead
              exact .inr (congrArg some (by simpa using hhead))
        rw [← hsplit] at hrest
        refine ih ?_ ?_
        · rcases hnext with hnil | hhead
          · rw [hnil]
            exact .nil
          · obtain ⟨rest, hcomma⟩ := List.head?_eq_some_iff.mp hhead
            rw [hcomma] at hrest ⊢
            exact .byte (by decide) (by decide) (hrest.cut (by decide)).1
        · split
          · exact h
          · exact applyRuleFlag_kept h (trimRuleFlag_var (not_mem_takeWhile_ne _ _) hnext hrest)

end Flags

section Conds

theorem quotable_braces {k name : NgxStr} (hquote : ch '"' ∉ k) (hescape : ch '\\' ∉ k)
    (h : Closable name) : Quotable (k ++ (name ++ [ch '}'])) :=
  (quotable_of_free hquote hescape).append (h (ch '}') (by decide) (by decide))

/-- A variable in braces leaves a name of its class, and the class can be written with it. -/
theorem condVariable_kept {name rest : NgxStr} (hfree : ch '}' ∉ name)
    (hq : Quotable (name ++ ch '}' :: rest)) {t : CondTest} {n : NgxStr}
    (h : condVariable name = (t, n)) (cond : RewriteCond) (htest : cond.test = t)
    (hname : cond.name = n) : condNamed t n ∧ Quotable cond.testText := by
  have hdrop : ∀ k, ch '}' ∉ name.drop k := fun k hmem => hfree (List.mem_of_mem_drop hmem)
  unfold RewriteCond.testText
  rw [htest, hname]
  unfold condVariable at h
  split_ifs at h with hfile huri hquery hhost hhttp henv
  · cases h
    exact ⟨rfl, quotable_of_free (by decide) (by decide)⟩
  · cases h
    exact ⟨rfl, quotable_of_free (by decide) (by decide)⟩
  · cases h
    exact ⟨rfl, quotable_of_free (by decide) (by decide)⟩
  · cases h
    exact ⟨(by decide : ch '}' ∉ lit "Host"), quotable_of_free (by decide) (by decide)⟩
  · cases h
    have hbehind := hq.drop_keyword (k := lit "HTTP:") (by decide +kernel) hhttp.2
    exact ⟨hdrop 5, quotable_braces (by decide) (by decide) (hbehind.closable_cut (by decide))⟩
  · cases h
    have hbehind := hq.drop_keyword (k := lit "ENV:") (by decide +kernel) henv.2
    exact ⟨hdrop 4, quotable_braces (by decide) (by decide) (hbehind.closable_cut (by decide))⟩
  · cases h
    exact ⟨rfl, quotable_of_free (by decide) (by decide)⟩

theorem condTest_kept {test : NgxStr} (hq : Quotable test) {t : CondTest} {n : NgxStr}
    (h : condTest test = some (t, n)) (cond : RewriteCond) (htest : cond.test = t)
    (hname : cond.name = n) : condNamed t n ∧ Quotable cond.testText := by
  have hplain : t = .filename → n = [] → condNamed t n ∧ Quotable cond.testText := by
    rintro rfl rfl
    refine ⟨rfl, ?_⟩
    unfold RewriteCond.testText
    rw [htest, hname]
    exact quotable_of_free (by decide) (by decide)
  have hpath : t = .fspath → test = ch '%' :: n →
      (n.head? = some (ch '{') → n = [ch '{']) → condNamed t n ∧ Quotable cond.testText := by
    rintro rfl htext hbrace
    refine ⟨hbrace, ?_⟩
    unfold RewriteCond.testText
    rw [htest, hname, ← htext]
    exact hq
  unfold condTest at h
  split at h
  · rename_i c d e rest
    split_ifs at h with hvariable hpercent
    · obtain ⟨⟨p, after⟩, hfind, hclass⟩ := Option.map_eq_some_iff.mp h
      obtain ⟨hsplit, hfree⟩ := ngxStrlchr_eq_some hfind
      obtain ⟨rfl, rfl⟩ := hvariable
      rw [hsplit] at hq
      exact condVariable_kept hfree (hq.drop_plain (s := lit "%\x7b") (by decide)) hclass cond htest
        hname
    · cases h
      cases hpercent
      refine hpath rfl rfl fun hhead => ?_
      cases hhead
      exact absurd ⟨rfl, rfl⟩ hvariable
    · cases h
      exact hplain rfl rfl
  · rename_i c rest hshort
    split_ifs at h with hpercent
    · cases h
      cases hpercent
      refine hpath rfl rfl fun hhead => ?_
      cases n with
      | nil => cases hhead
      | cons d rest =>
          cases hhead
          cases rest with
          | nil => rfl
          | cons e rest => exact (hshort _ _ _ rfl).elim
    · cases h
      exact hplain rfl rfl
  · cases h
    exact hplain rfl rfl

theorem RewriteCond.mem_args {cond : RewriteCond} {arg : NgxStr} (h : arg ∈ cond.args) :
    arg = cond.testText ∨ arg = cond.value ∨ arg = lit "[OR]" := by
  unfold args at h
  rcases List.mem_cons.mp h with h | h
  · exact .inl h
  split_ifs at h
  · cases h
  · rcases List.mem_cons.mp h with h | h
    · exact .inr (.inl h)
    · exact .inr (.inr (List.mem_singleton.mp h))
  · exact .inr (.inl (List.mem_singleton.mp h))

theorem htaccessParseRewriteCond_writable {args : List NgxStr} {cond : RewriteCond}
    (hargs : ∀ arg ∈ args.tail, Quotable arg) (h : htaccessParseRewriteCond args = some cond) :
    cond.Writable := by
  unfold htaccessParseRewriteCond at h
  split at h
  · rename_i name test rest
    obtain ⟨⟨t, n⟩, htest, hcond⟩ := Option.map_eq_some_iff.mp h
    have hq := hargs test List.mem_cons_self
    have hor : Quotable (lit "[OR]") := quotable_of_free (by decide) (by decide)
    cases rest with
    | nil =>
        cases hcond
        obtain ⟨hnamed, htext⟩ := condTest_kept hq htest
          { test := t, name := n, op := .eq, value := [], orNext := false } rfl rfl
        refine ⟨hnamed, .inl ⟨rfl, rfl, rfl⟩, fun arg harg => ?_⟩
        rw [RewriteCond.args, if_pos rfl] at harg
        rw [List.mem_singleton.mp harg]
        exact htext
    | cons value flags =>
        have hvalue := hargs value (List.mem_cons_of_mem test List.mem_cons_self)
        simp only at hcond
        obtain ⟨hnamed, htext⟩ := condTest_kept hq htest cond (by rw [← hcond]) (by rw [← hcond])
        have hsame : cond.value = value := by rw [← hcond]
        have hop : cond.op = condOp cond.value := by rw [← hcond]
        have ht : cond.test = t := by rw [← hcond]
        have hn : cond.name = n := by rw [← hcond]
        refine ⟨by rw [ht, hn]; exact hnamed, .inr hop, fun arg harg => ?_⟩
        rcases RewriteCond.mem_args harg with rfl | rfl | rfl
        · exact htext
        · exact hsame ▸ hvalue
        · exact hor
  · cases h

end Conds

section Data
variable {sys : Sys} {pool : PoolId} {args : List NgxStr} {pending : Option (List RewriteCond)}

theorem quotable_decimal (n : Nat) : Quotable (decimal n) := by
  have hdigits : ∀ d, d < 10 → ch d.digitChar ≠ ch '"' ∧ ch d.digitChar ≠ ch '\\' := by decide
  refine quotable_of_free (fun hmem => ?_) (fun hmem => ?_)
  · obtain ⟨d, hd, heq⟩ := mem_decimal hmem
    exact (hdigits d hd).1 heq.symm
  · obtain ⟨d, hd, heq⟩ := mem_decimal hmem
    exact (hdigits d hd).2 heq.symm

theorem quotable_argAt (hargs : ∀ arg ∈ args.tail, Quotable arg) (hlength : 2 ≤ args.length) :
    Quotable (argAt sys pool args 1) := by
  match args with
  | [] | [_] => simp at hlength
  | _ :: arg :: _ => exact hargs arg List.mem_cons_self

theorem quotable_getD (hargs : ∀ arg ∈ args.tail, Quotable arg) (k : Nat) :
    Quotable (args.getD (k + 1) []) := by
  cases args with
  | nil => exact .nil
  | cons name rest =>
      rw [List.getD_cons_succ]
      rcases Nat.lt_or_ge k rest.length with hk | hk
      · rw [List.getD_eq_getElem _ _ hk]
        exact hargs _ (List.getElem_mem hk)
      · rw [List.getD_eq_default _ _ hk]
        exact .nil

theorem quotable_onOff (flag : Bool) : Quotable (onOff flag) := by
  cases flag <;> exact quotable_of_free (by decide) (by decide)

theorem quotable_pair {s t : NgxStr} (hs : Quotable s) (ht : Quotable t) :
    ∀ arg ∈ [s, t], Quotable arg := by
  intro arg harg
  rcases List.mem_cons.mp harg with rfl | harg
  · exact hs
  · rw [List.mem_singleton.mp harg]
    exact ht

theorem redirectData_args {id : DirectiveId} {redir : AliasRedirect}
    (hargs : ∀ arg ∈ args.tail, Quotable arg) (h : redirectData id args = some redir) :
    ∀ arg ∈ [redir.source, redir.target], Quotable arg := by
  unfold redirectData at h
  split at h
  · cases h
    exact quotable_pair (hargs _ List.mem_cons_self)
      (hargs _ (List.mem_cons_of_mem _ List.mem_cons_self))
  · cases h

theorem redirectData_permanent {id : DirectiveId} {redir : AliasRedirect}
    (h : redirectData id args = some redir) (hid : id = .redirectPermanent ∨ id = .redirectTemp) :
    redir.permanent = decide (id = .redirectPermanent) := by
  unfold redirectData at h
  split at h
  · cases h
    rcases hid with rfl | rfl <;> rfl
  · cases h

theorem headerData_kept {header : Header} (hargs : ∀ arg ∈ args.tail, Quotable arg)
    (h : headerData pool args = some header) :
    (DirectiveData.header header).Kept pool ∧
      ∀ arg ∈ (DirectiveData.header header).args, Quotable arg := by
  have hkeyword : Quotable (lit "always") := quotable_of_free (by decide) (by decide)
  unfold headerData at h
  split at h
  · cases h
  simp only at h
  generalize halways : (decide ((args.getD 1 []).length = 6) &&
    ngxStrncasecmpEq (args.getD 1 []) (lit "always") 6) = always at h
  cases always with
  | false =>
      simp only [Bool.false_eq_true, if_false] at h
      split at h
      · cases h
      cases h
      refine ⟨⟨rfl, fun _ => halways⟩, fun arg harg => ?_⟩
      simp only [DirectiveData.args, Bool.false_eq_true, if_false, List.nil_append, List.mem_cons,
        List.not_mem_nil, or_false] at harg
      rcases harg with rfl | rfl | rfl <;> exact quotable_getD hargs _
  | true =>
      simp only [if_true] at h
      split at h
      · cases h
      cases h
      refine ⟨⟨rfl, fun hoff => Bool.noConfusion hoff⟩, fun arg harg => ?_⟩
      simp only [DirectiveData.args, if_true, List.singleton_append, List.mem_cons,
        List.not_mem_nil, or_false] at harg
      rcases harg with rfl | rfl | rfl | rfl
      · exact hkeyword
      all_goals exact quotable_getD hargs _

theorem FlagsKept.bare {pattern substitution : NgxStr} (hpattern : Quotable pattern)
    (hsubstitution : Quotable substitution) : FlagsKept { pattern, substitution } :=
  ⟨hpattern, hsubstitution, rfl, rfl, nofun, fun _ hmem => absurd hmem List.not_mem_nil⟩

theorem FlagsKept.closable {rule : RewriteRule} (h : FlagsKept rule) :
    ∀ p ∈ rule.flagParts, Closable p := by
  intro p hp
  have honly : ∀ {b : Bool} {part : NgxStr}, p ∈ (if b = true then [part] else []) →
      Quotable part → Closable p := by
    intro b part hmem hpart
    cases b with
    | false => cases hmem
    | true =>
        rw [List.mem_singleton.mp hmem]
        exact hpart.closable
  have hword : ∀ {s : NgxStr}, ch '"' ∉ s → ch '\\' ∉ s → Quotable s := quotable_of_free
  simp only [RewriteRule.flagParts, List.mem_append] at hp
  rcases hp with (((((hp | hp) | hp) | hp) | hp) | hp) | hp
  · exact honly hp (hword (by decide) (by decide))
  · exact honly hp (hword (by decide) (by decide))
  · exact honly hp (hword (by decide) (by decide))
  · exact honly hp ((hword (by decide) (by decide)).append (quotable_decimal _))
  · exact honly hp (hword (by decide) (by decide))
  · exact honly hp (hword (by decide) (by decide))
  · obtain ⟨var, hvar, rfl⟩ := List.mem_map.mp hp
    intro d hd hd'
    rw [List.append_assoc]
    exact (hword (by decide) (by decide)).append ((h.vars var hvar).2 d hd hd')

theorem FlagsKept.rule {rule : RewriteRule} (h : FlagsKept rule)
    (hpending : ∀ cond ∈ pending.getD [], cond.Writable) {u : DirectiveData}
    (hu : u = .rewriteRule { rule with
      conditions := if pending.getD [] = [] then none else pending }) :
    u.Kept pool ∧ ∀ arg ∈ u.args, Quotable arg := by
  subst hu
  have hconds : (if pending.getD [] = [] then none else pending) ≠ some [] ∧
      ∀ cond ∈ (if pending.getD [] = [] then none else pending).getD [], cond.Writable := by
    split
    · exact ⟨nofun, fun _ hmem => absurd hmem List.not_mem_nil⟩
    · rename_i hne
      exact ⟨fun hnil => hne (by rw [hnil]; rfl), hpending⟩
  refine ⟨⟨h.unmarked, h.code, h.someVars, fun var hvar => (h.vars var hvar).1, hconds.1,
    hconds.2⟩, fun arg harg => ?_⟩
  simp only [DirectiveData.args, List.mem_cons, List.not_mem_nil, or_false] at harg
  rcases harg with rfl | rfl | rfl
  · exact h.pattern
  · exact h.substitution
  · exact Quotable.flagList (FlagsKept.closable ⟨h.pattern, h.substitution, h.unmarked, h.code,
      h.someVars, h.vars⟩)

/-- What the parser makes of a line that carries its arguments can be written. -/
theorem directiveData_kept {id : DirectiveId} {u : DirectiveData}
    (hargs : ∀ arg ∈ args.tail, Quotable arg) (hcarries : carriesArgs id args = true)
    (hpending : ∀ cond ∈ pending.getD [], cond.Writable)
    (h : directiveData sys pool id args pending = some u) :
    u.Kept pool ∧ ∀ arg ∈ u.args, Quotable arg := by
  have hone : ∀ {s : NgxStr}, Quotable s → ∀ arg ∈ [s], Quotable arg := fun hs arg harg =>
    (List.mem_singleton.mp harg) ▸ hs
  cases id with
  | rewriteEngine | expiresActive =>
      cases h
      exact ⟨trivial, hone (quotable_onOff _)⟩
  | rewriteBase | authType | authName | authUserFile | order | allow | deny | expiresDefault
  | directoryIndex =>
      cases h
      exact ⟨trivial, hone (quotable_argAt hargs (of_decide_eq_true hcarries))⟩
  | rewriteCond => cases h
  | rewriteRule =>
      simp only [directiveData] at h
      split at h
      · rename_i name pattern substitution flags
        have hbare := FlagsKept.bare (hargs pattern List.mem_cons_self)
          (hargs substitution (List.mem_cons_of_mem _ List.mem_cons_self))
        cases flags with
        | nil => exact hbare.rule hpending (Option.some.inj h).symm
        | cons f flags =>
            have hf := hargs f (List.mem_cons_of_mem _ (List.mem_cons_of_mem _ List.mem_cons_self))
            exact (htaccessParseRuleFlagsLoop_kept _ hf hbare).rule hpending
              (Option.some.inj h).symm
      · cases h
  | redirect =>
      obtain ⟨redir, hredir, rfl⟩ := Option.map_eq_some_iff.mp h
      refine ⟨trivial, fun arg harg => ?_⟩
      rcases List.mem_append.mp harg with harg | harg
      · exact redirectData_args hargs hredir arg harg
      · split at harg
        · rw [List.mem_singleton.mp harg]
          exact quotable_of_free (by decide) (by decide)
        · cases harg
  | redirectPermanent =>
      obtain ⟨redir, hredir, rfl⟩ := Option.map_eq_some_iff.mp h
      exact ⟨redirectData_permanent hredir (.inl rfl), redirectData_args hargs hredir⟩
  | redirectTemp =>
      obtain ⟨redir, hredir, rfl⟩ := Option.map_eq_some_iff.mp h
      exact ⟨redirectData_permanent hredir (.inr rfl), redirectData_args hargs hredir⟩
  | redirectMatch =>
      simp only [directiveData] at h
      split at h
      · rename_i name source target rest
        cases h
        exact ⟨rfl, quotable_pair (hargs source List.mem_cons_self)
          (hargs target (List.mem_cons_of_mem _ List.mem_cons_self))⟩
      · cases h
  | require =>
      simp only [directiveData] at h
      split at h
      · obtain ⟨str, hjoin, rfl⟩ := Option.map_eq_some_iff.mp h
        refine ⟨trivial, hone ?_⟩
        unfold htaccessJoinArgs at hjoin
        split at hjoin
        · cases hjoin
        · cases hjoin
          rw [List.drop_one]
          exact Quotable.join hargs
      · cases h
        exact ⟨trivial, hone (quotable_argAt hargs (of_decide_eq_true hcarries))⟩
  | header =>
      obtain ⟨header, hheader, rfl⟩ := Option.map_eq_some_iff.mp h
      exact headerData_kept hargs hheader
  | expiresByType =>
      simp only [directiveData] at h
      split at h
      · rename_i name key value rest
        cases h
        exact ⟨⟨rfl, rfl, rfl⟩, quotable_pair (hargs key List.mem_cons_self)
          (hargs value (List.mem_cons_of_mem _ List.mem_cons_self))⟩
      · cases h
  | errorDocument =>
      simp only [directiveData] at h
      split at h
      · rename_i name code uri rest
        cases h
        refine ⟨?_, fun arg harg => ?_⟩
        · show (ngxAtoi code).getD 0xFFFFFFFFFFFFFFFF ≤ ngxMaxInt ∨ _ = _
          cases hcode : ngxAtoi code with
          | none => exact .inr rfl
          | some n => exact .inl (ngxAtoi_le hcode)
        · exact quotable_pair (quotable_decimal _)
            (hargs uri (List.mem_cons_of_mem _ List.mem_cons_self)) arg harg
      · cases h
  | options =>
      cases h
      refine ⟨trivial, hone ?_⟩
      split <;> exact quotable_of_free (by decide) (by decide)

end Data

section Parse
variable {sys : Sys} {pool : PoolId}

/-- What can be written of a parser state: its directives, its conditions and its scopes. -/
structure ParserState.Canonical (pool : PoolId) (st : ParserState) : Prop where
  directives : ∀ d ∈ st.directives, d.Writable pool
  conds : ∀ cond ∈ st.pendingConds.getD [], cond.Writable
  scopes : ∀ scope ∈ st.filesMatch, ch '"' ∉ scope ∧ ch '>' ∉ scope

theorem ParserState.Canonical.scope {st : ParserState} (h : st.Canonical pool) :
    ch '"' ∉ st.filesMatch.getD st.depth [] ∧ ch '>' ∉ st.filesMatch.getD st.depth [] := by
  rcases Nat.lt_or_ge st.depth st.filesMatch.length with hdepth | hdepth
  · rw [List.getD_eq_getElem _ _ hdepth]
    exact h.scopes _ (List.getElem_mem hdepth)
  · rw [List.getD_eq_default _ _ hdepth]
    exact ⟨List.not_mem_nil, List.not_mem_nil⟩

theorem canonical_initial : ParserState.Canonical pool .initial where
  directives := fun _ hmem => absurd hmem List.not_mem_nil
  conds := fun _ hmem => absurd hmem List.not_mem_nil
  scopes := fun scope hmem => by
    rw [List.eq_of_mem_replicate hmem]
    exact ⟨List.not_mem_nil, List.not_mem_nil⟩

theorem htaccessPushDirective_canonical {st st' : ParserState} {id : DirectiveId}
    {args : List NgxStr} (hst : st.Canonical pool) (hargs : ∀ arg ∈ args.tail, Quotable arg)
    (hcarries : carriesArgs id args = true)
    (h : htaccessPushDirective sys pool st id args = some st') : st'.Canonical pool := by
  unfold htaccessPushDirective at h
  split at h
  · obtain ⟨cond, hcond, rfl⟩ := Option.map_eq_some_iff.mp h
    refine ⟨hst.directives, fun c hc => ?_, hst.scopes⟩
    rw [ngxArrayPush_getD] at hc
    rcases List.mem_append.mp hc with hc | hc
    · exact hst.conds c hc
    · rw [List.mem_singleton.mp hc]
      exact htaccessParseRewriteCond_writable hargs hcond
  · obtain ⟨u, hu, rfl⟩ := Option.map_eq_some_iff.mp h
    obtain ⟨hkept, hwritten⟩ := directiveData_kept hargs hcarries hst.conds hu
    refine ⟨fun d hd => ?_, fun c hc => ?_, hst.scopes⟩
    · rcases List.mem_append.mp hd with hd | hd
      · exact hst.directives d hd
      · rw [List.mem_singleton.mp hd]
        exact ⟨hst.scope, hkept, hwritten⟩
    · simp only at hc
      split at hc
      · cases hc
      · exact hst.conds c hc

/-- A line keeps it, if it carries arguments that can stand in quotes. -/
theorem parseLine_canonical {st st' : ParserState} {line : List NgxStr} (hst : st.Canonical pool)
    (hshape : ∀ t ∈ line, TagShape t) (hargs : ∀ arg ∈ line.tail, Quotable arg)
    (hcarries : ∀ id ∈ lineId line, carriesArgs id line = true)
    (h : parseLine sys pool st line = some st') : st'.Canonical pool := by
  unfold parseLine at h
  cases line with
  | nil =>
      cases h
      exact hst
  | cons t rest =>
      simp only at h
      split at h
      · rename_i htag
        split at h
        · cases h
          exact ⟨hst.directives, hst.conds, hst.scopes⟩
        · split at h
          · cases h
            refine ⟨hst.directives, hst.conds, fun scope hmem => ?_⟩
            rcases List.mem_or_eq_of_mem_set hmem with hmem | rfl
            · exact hst.scopes scope hmem
            · exact htaccessParseFilesMatch_free htag (hshape t List.mem_cons_self)
          · cases h
            exact hst
      · split at h
        · cases h
          exact hst
        · cases hid : htaccessDirectiveId t with
          | none =>
              rw [hid] at h
              cases h
              exact hst
          | some id =>
              rw [hid] at h
              exact htaccessPushDirective_canonical hst hargs (hcarries id hid) h

theorem parseLines_canonical {lines : List (List NgxStr)} {st st' : ParserState}
    (hst : st.Canonical pool) (hshape : ∀ line ∈ lines, ∀ t ∈ line, TagShape t)
    (hargs : ∀ line ∈ lines, ∀ arg ∈ line.tail, Quotable arg) (hcarries : CarriesArgs lines)
    (h : parseLines sys pool lines st = some st') : st'.Canonical pool := by
  induction lines generalizing st with
  | nil =>
      cases h
      exact hst
  | cons line lines ih =>
      rw [parseLines_cons] at h
      obtain ⟨mid, hline, hrest⟩ := Option.bind_eq_some_iff.mp h
      have hmid := parseLine_canonical hst (hshape line List.mem_cons_self)
        (hargs line List.mem_cons_self) (hcarries line List.mem_cons_self) hline
      exact ih hmid (fun l hl => hshape l (List.mem_cons_of_mem line hl))
        (fun l hl => hargs l (List.mem_cons_of_mem line hl))
        (fun l hl => hcarries l (List.mem_cons_of_mem line hl)) hrest

end Parse

/-- Every directive has its arguments, and every argument could stand in quotes. -/
structure PlainText (text : NgxStr) : Prop where
  carried : CarriesArgs (lexedText text).1
  args : ∀ line ∈ (lexedText text).1, ∀ arg ∈ line.tail, Quotable arg

/-- The directives of an accepted file can be written, and their text is a canonical form of the
file: it parses to the same directives, whatever memory the parser finds. -/
theorem parsed_text_canonical {sys : Sys} {pool : PoolId} {text : NgxStr} {file : ParsedFile}
    (hplain : PlainText text) (h : htaccessParse sys pool text = some file) :
    (∀ d ∈ file.directives, d.Writable pool) ∧
      ∀ sys', htaccessParse sys' pool (directivesText file.directives) = some file := by
  rw [htaccessParse_lexed] at h
  split at h
  · obtain ⟨st, hlines, rfl⟩ := Option.map_eq_some_iff.mp h
    have hst := parseLines_canonical canonical_initial (lexedText_shape text) hplain.args
      hplain.carried hlines
    refine ⟨hst.directives, fun sys' => ?_⟩
    obtain ⟨st', hruns, hds⟩ :=
      (@runs_nil sys' pool).directivesText hst.directives atRest_initial
    exact hruns.parse.trans (by rw [hds]; rfl)
  · cases h

/-- Blocks inside each other, a comment, a condition and an argument in quotes. -/
def untidyText : NgxStr :=
  lit "# old\n<IfModule mod_rewrite.c>\n  RewriteCond %{HTTP_HOST} ^www [OR]\n" ++
    lit "\tRewriteRule a \"b c\" \"[L, nc]\"\n" ++
    lit "<FilesMatch \"x$\">\nRequire  all  denied # no\n</FilesMatch>\n</IfModule>\nUnknown a\n"

def untidyFile : ParsedFile where
  directives :=
    [⟨[], .rewriteRule {
        pattern := lit "a", substitution := lit "b c", last := true, nocase := true
        conditions := some [⟨.http, lit "Host", .regex, lit "^www", true⟩] }⟩,
      ⟨lit "x$", .require (lit "all denied")⟩]
  pool := 0

theorem parsed_text_canonical_untidy :
    (∀ d ∈ untidyFile.directives, d.Writable 0) ∧
      ∀ sys', htaccessParse sys' 0 (directivesText untidyFile.directives) = some untidyFile := by
  have hargs : (lexedText untidyText).1.all (fun line => line.tail.all isFreeText) = true := by
    decide +kernel
  refine @parsed_text_canonical (siteSys (siteFs 0 [])) 0 untidyText _
    ⟨by unfold CarriesArgs; decide +kernel, fun line hline => ?_⟩ (by decide +kernel)
  exact quotable_of_isFree (List.all_eq_true.mp hargs line hline)

end NgxHtaccess
