import NgxHtaccess.AliasPrefix
import NgxHtaccess.TokenGrammar

/-!
A `Redirect` line from its text to the response.

The line is written by the token grammar, parsed, merged into a fresh directory and applied. The
parser takes the word behind `Redirect` for the path whatever it is, and looks for a status
behind the target.
-/
namespace NgxHtaccess

/-- The words for a status that a `Redirect` line may have in front of its path. -/
inductive StatusWord where
  | moved | found | permanent | temp
  deriving DecidableEq

def StatusWord.text : StatusWord → NgxStr
  | .moved => lit "301"
  | .found => lit "302"
  | .permanent => lit "permanent"
  | .temp => lit "temp"

/-- Whether the word asks for a permanent redirect; none asks for a temporary one. -/
def asksPermanent : Option StatusWord → Bool
  | some .moved | some .permanent => true
  | _ => false

/-- The directive whose name says what the word says. -/
def StatusWord.sibling : StatusWord → Option NgxStr
  | .permanent => some (lit "RedirectPermanent")
  | .temp => some (lit "RedirectTemp")
  | _ => none

def redirectLine (status : Option StatusWord) (f t : NgxStr) : List NgxStr :=
  lit "Redirect" :: (status.toList.map StatusWord.text ++ [f, t])

/-- The text is a line with these tokens. -/
def IsLineOf (tokens : List NgxStr) (text : NgxStr) : Prop :=
  ∃ s ends, LineText true tokens s ∧ ends ≠ [] ∧ (∀ c ∈ ends, isNewline c = true) ∧
    text = s ++ ends

/-- The outcome of `htaccess_apply_alias` with the text as the file of one directory. -/
def aliasRun (sys : Sys) (pool : PoolId) (dir : WalkDir) (text : NgxStr)
    (state : RequestState) : Option (HtaccessResult × RequestState) :=
  (htaccessParse sys pool text).map fun file =>
    let merge := htaccessMergeParsed {} (.fresh dir) (some file)
    htaccessApplyAlias sys { merge.1 with dirs := merge.1.dirs ++ [merge.2] } state

section
variable (sys : Sys) (pool : PoolId) (dir : WalkDir)

/-- What a `Redirect` line means, status word and all. -/
structure RedirectLaw (status : Option StatusWord) (f t text : NgxStr) : Prop where
  response : ∀ state,
    (htaccessAliasMatch sys ⟨f, t, asksPermanent status⟩ state.uri false).1 = ngxOk →
      aliasRun sys pool dir text state = some (.redirect, { state with
        uri := (htaccessAliasMatch sys ⟨f, t, asksPermanent status⟩ state.uri false).2
        redirectCode := if asksPermanent status then 301 else 302 })
  sibling : ∀ word ∈ status, ∀ name ∈ word.sibling, ∀ text', IsLineOf [name, f, t] text' →
    ∀ state, aliasRun sys pool dir text state = aliasRun sys pool dir text' state

theorem htaccessParse_line {tokens : List NgxStr} {text : NgxStr} (htokens : tokens ≠ [])
    (h : IsLineOf tokens text) :
    htaccessParse sys pool text =
      (parseLine sys pool .initial tokens).map fun st => { directives := st.directives, pool } := by
  obtain ⟨s, ends, hline, hne, hends, rfl⟩ := h
  obtain ⟨c, ends, rfl⟩ := List.exists_cons_of_ne_nil hne
  have hdone : lexedText ends = ([], true) := by
    have hmore : ends.dropWhile isNewline = [] :=
      List.dropWhile_eq_nil_iff.mpr fun d hd => hends d (List.mem_cons_of_mem c hd)
    rw [← lexedText_newlines, hmore]
    rfl
  rw [htaccessParse_lexed,
    lexedText_line htokens (htaccessLexLine_text hline (hends c List.mem_cons_self) ends), hdone,
    if_pos rfl, parseLines_cons]
  cases parseLine sys pool .initial tokens <;> rfl

/-- A line of the `Redirect` family gives one redirect, which is applied to any URI. -/
theorem aliasRun_line {tokens : List NgxStr} {text : NgxStr} (h : IsLineOf tokens text)
    (id : DirectiveId) (hid : lineId tokens = some id) (hcond : id ≠ .rewriteCond)
    (redir : AliasRedirect) {u : DirectiveData}
    (hdata : directiveData sys pool id tokens none = some u)
    (hredir : u = .redirect redir ∨ u = .redirectPermanent redir ∨ u = .redirectTemp redir)
    (state : RequestState) :
    aliasRun sys pool dir text state = some
      (if (htaccessAliasMatch sys redir state.uri false).1 = ngxOk then
        (.redirect, { state with
          uri := (htaccessAliasMatch sys redir state.uri false).2
          redirectCode := if redir.permanent then 301 else 302 })
      else (.declined, state)) := by
  have hstep : parseLine sys pool .initial tokens =
      some { ParserState.initial with
        directives := [{ filesMatch := [], u }]
        pendingConds := if id = .rewriteRule ∧ ([] : List RewriteCond) ≠ [] then none
          else none } := by
    rw [parseLine_of_lineId sys pool hid]
    have hon : ParserState.initial.enabled.getD ParserState.initial.depth false = true := rfl
    rw [if_pos hon, htaccessPushDirective, if_neg hcond]
    have hnone : ParserState.initial.pendingConds = none := rfl
    rw [hnone, hdata]
    rfl
  have htokens : tokens ≠ [] := by
    rintro rfl
    cases hid
  rw [aliasRun, htaccessParse_line sys pool htokens h, hstep, Option.map_some, Option.map_some]
  have hscan : htaccessMergeParsed {} (.fresh dir)
      (some { directives := [{ filesMatch := [], u }], pool }) =
        ({}, { DirCtx.fresh dir with directives := some [{ filesMatch := [], u }] }) := by
    rcases hredir with rfl | rfl | rfl <;> rfl
  have hfind : findAliasDirs sys state.uri
      [{ DirCtx.fresh dir with directives := some [{ filesMatch := [], u }] }] =
        if (htaccessAliasMatch sys redir state.uri false).1 = ngxOk then
          some (redir, (htaccessAliasMatch sys redir state.uri false).2)
        else none := by
    have halias : Directive.aliasOf { filesMatch := [], u } = some (redir, false) := by
      rcases hredir with rfl | rfl | rfl <;> rfl
    simp only [findAliasDirs, findAlias, Option.getD_some, halias]
    by_cases hok : (htaccessAliasMatch sys redir state.uri false).1 = ngxOk
    · simp only [hok, ne_eq, not_true_eq_false, if_true, if_false]
    · simp only [hok, ne_eq, not_false_eq_true, if_true, if_false]
  simp only [hscan, htaccessApplyAlias, List.nil_append, hfind]
  by_cases hok : (htaccessAliasMatch sys redir state.uri false).1 = ngxOk
  · simp only [if_pos hok]
    rfl
  · simp only [if_neg hok]

theorem not_standsAt_word (word : StatusWord) {uri : NgxStr} (huri : uri.head? = some (ch '/')) :
    ¬ StandsAt word.text uri := by
  rintro ⟨-, hcmp, -⟩
  cases uri with
  | nil => cases huri
  | cons c uri =>
      cases huri
      cases word <;> exact absurd hcmp (by simp [StatusWord.text, lit, ngxStrncmpEq, ch])

/-- The law holds exactly of the lines without a status word. -/
theorem redirectLaw_iff (status : Option StatusWord) {f t text : NgxStr}
    (hf : f.head? = some (ch '/')) (h : IsLineOf (redirectLine status f t) text) :
    RedirectLaw sys pool dir status f t text ↔ status = none := by
  constructor
  · intro hlaw
    cases status with
    | none => rfl
    | some word =>
        exfalso
        have hself : (htaccessAliasMatch sys ⟨f, t, asksPermanent (some word)⟩ f false).1 =
            ngxOk := (htaccessAliasMatch_ok_iff sys _ f).mpr (standsAt_self f)
        have hrun := hlaw.response
          { uri := f, filename := [], queryString := [], env := none, redirectCode := 0 } hself
        -- the word is the source, and the status is looked for in the target
        rw [aliasRun_line sys pool dir h .redirect rfl (by decide)
          ⟨word.text, f, 3 ≤ t.length && ngxStrncmpEq t (lit "301") 3⟩ rfl (.inl rfl)] at hrun
        have hmiss : ¬ (htaccessAliasMatch sys
            ⟨word.text, f, 3 ≤ t.length && ngxStrncmpEq t (lit "301") 3⟩ f false).1 = ngxOk :=
          fun hok => not_standsAt_word word hf ((htaccessAliasMatch_ok_iff sys _ f).mp hok)
        rw [if_neg hmiss] at hrun
        cases hrun
  · rintro rfl
    refine ⟨fun state hok => ?_, fun word hword => (Option.not_mem_none word hword).elim⟩
    rw [aliasRun_line sys pool dir h .redirect rfl (by decide) ⟨f, t, asksPermanent none⟩ rfl
      (.inl rfl), if_pos hok]

end

def siteDir : WalkDir where
  path := lit "/w/.htaccess"
  dirPath := lit "/w"
  urlPrefix := []

theorem redirect_without_status :
    RedirectLaw (siteSys (siteFs 0 [])) 0 siteDir none (lit "/a") (lit "/b")
      (lit "Redirect /a /b\n") := by
  have hline : IsLineOf (redirectLine none (lit "/a") (lit "/b")) (lit "Redirect /a /b\n") :=
    ⟨lit "Redirect" ++ (ch ' ' :: (lit "/a" ++ (ch ' ' :: (lit "/b" ++ [])))), lit "\n",
      .token (plainWord (by decide) (by decide) (by decide) (by decide))
        (.blank rfl (.token (plainWord (by decide) (by decide) (by decide) (by decide))
          (.blank rfl (.token (plainWord (by decide) (by decide) (by decide) (by decide))
            .finish)))), by decide, by decide +kernel, by decide⟩
  exact (redirectLaw_iff (siteSys (siteFs 0 [])) 0 siteDir none (by decide) hline).mpr rfl

/-- `Redirect permanent /a /b` redirects nothing. -/
theorem redirect_permanent_lost :
    IsLineOf (redirectLine (some .permanent) (lit "/a") (lit "/b"))
        (lit "Redirect permanent /a /b\n") ∧
      ¬ RedirectLaw (siteSys (siteFs 0 [])) 0 siteDir (some .permanent) (lit "/a") (lit "/b")
        (lit "Redirect permanent /a /b\n") := by
  refine ⟨⟨lit "Redirect" ++ (ch ' ' :: (lit "permanent" ++ (ch ' ' :: (lit "/a" ++
      (ch ' ' :: (lit "/b" ++ [])))))), lit "\n",
    .token (plainWord (by decide) (by decide) (by decide) (by decide))
      (.blank rfl (.token (plainWord (by decide) (by decide) (by decide) (by decide))
        (.blank rfl (.token (plainWord (by decide) (by decide) (by decide) (by decide))
          (.blank rfl (.token (plainWord (by decide) (by decide) (by decide) (by decide))
            .finish)))))), by decide, by decide +kernel, by decide⟩, fun hlaw => ?_⟩
  have hrun := hlaw.response (siteState "/a") (by decide)
  exact absurd hrun (by decide +kernel)

end NgxHtaccess
