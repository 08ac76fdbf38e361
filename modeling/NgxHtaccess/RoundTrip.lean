import NgxHtaccess.CondClassification
import NgxHtaccess.DirectiveText

/-!
Written directives are read back. Each line is parsed to what it was written from, so the text of
a list of directives parses to the list.
-/
namespace NgxHtaccess

section Conds
variable {cond : RewriteCond}

theorem starts_behind {keyword : NgxStr} (name : NgxStr)
    (hself : ngxStrncasecmpEq keyword keyword keyword.length = true) :
    startsIgnoreCase (keyword ++ name) keyword = true ∧
      ∀ l, ngxStrncasecmpEq keyword l (min keyword.length l.length) = false →
        startsIgnoreCase (keyword ++ name) l = false := by
  have hstarts : startsIgnoreCase (keyword ++ name) keyword = true := by
    rw [startsIgnoreCase, ngxStrncasecmpEq_append _ _ _ (Nat.le_refl _), hself, Bool.and_true,
      decide_eq_true_eq, List.length_append]
    exact Nat.le_add_right _ _
  exact ⟨hstarts, not_starts_of_starts hstarts⟩

theorem condVariable_http (name : NgxStr) : condVariable (lit "HTTP:" ++ name) = (.http, name) := by
  obtain ⟨hstarts, hother⟩ := @starts_behind (lit "HTTP:") name (by decide)
  have hlength : 5 ≤ (lit "HTTP:" ++ name).length := by
    rw [List.length_append]
    exact Nat.le_add_right 5 _
  have hdrop : (lit "HTTP:" ++ name).drop 5 = name := List.drop_left' rfl
  rw [condVariable_eq, hother (lit "REQUEST_FILENAME") (by decide),
    hother (lit "REQUEST_URI") (by decide), hother (lit "QUERY_STRING") (by decide),
    hother (lit "HTTP_HOST") (by decide)]
  simp only [hstarts, hlength, hdrop, Bool.false_eq_true, false_and, and_self, if_false, if_true]

theorem condVariable_env (name : NgxStr) : condVariable (lit "ENV:" ++ name) = (.env, name) := by
  obtain ⟨hstarts, hother⟩ := @starts_behind (lit "ENV:") name (by decide)
  have hlength : 4 ≤ (lit "ENV:" ++ name).length := by
    rw [List.length_append]
    exact Nat.le_add_right 4 _
  have hdrop : (lit "ENV:" ++ name).drop 4 = name := List.drop_left' rfl
  rw [condVariable_eq, hother (lit "REQUEST_FILENAME") (by decide),
    hother (lit "REQUEST_URI") (by decide), hother (lit "QUERY_STRING") (by decide),
    hother (lit "HTTP_HOST") (by decide), hother (lit "HTTP:") (by decide)]
  simp only [hstarts, hlength, hdrop, Bool.false_eq_true, false_and, and_self, if_false, if_true]

theorem condTest_variable {name : NgxStr} {found : CondTest × NgxStr} (hfree : ch '}' ∉ name)
    (hclass : condVariable name = found) :
    condTest (lit "%\x7b" ++ (name ++ [ch '}'])) = some found := by
  have hfind : ngxStrlchr (name ++ [ch '}']) (ch '}') = some (name, []) :=
    ngxStrlchr_append name [] hfree
  obtain ⟨e, rest, hsplit⟩ : ∃ e rest, name ++ [ch '}'] = e :: rest := by
    cases name with
    | nil => exact ⟨_, _, rfl⟩
    | cons c name => exact ⟨_, _, rfl⟩
  rw [hsplit] at hfind ⊢
  have hopen : lit "%\x7b" ++ e :: rest = ch '%' :: ch '{' :: e :: rest := rfl
  rw [hopen, condTest, if_pos ⟨rfl, rfl⟩, hfind]
  exact congrArg some hclass

theorem condTest_text (h : condNamed cond.test cond.name) :
    condTest cond.testText = some (cond.test, cond.name) := by
  unfold RewriteCond.testText
  generalize cond.test = test, cond.name = name at h ⊢
  cases test with
  | filename | uri | queryString | other =>
      cases h
      rfl
  | http =>
      refine @condTest_variable (lit "HTTP:" ++ name) _ ?_ (condVariable_http name)
      rw [List.mem_append, not_or]
      exact ⟨by decide, h⟩
  | env =>
      refine @condTest_variable (lit "ENV:" ++ name) _ ?_ (condVariable_env name)
      rw [List.mem_append, not_or]
      exact ⟨by decide, h⟩
  | fspath =>
      cases name with
      | nil => rfl
      | cons c rest =>
          simp only [condTest]
          cases rest with
          | nil => exact if_pos rfl
          | cons d rest =>
              have hopen : ¬ c = ch '{' := fun heq => by
                cases h (congrArg some heq)
              simp only [hopen, and_false, if_false, if_true]

theorem htaccessParseRewriteCond_args (h : cond.Writable) (name : NgxStr) :
    htaccessParseRewriteCond (name :: cond.args) = some cond := by
  have htest := condTest_text h.named
  obtain ⟨test, condName, op, value, orNext⟩ := cond
  unfold RewriteCond.args
  rcases h.op with ⟨rfl, rfl, rfl⟩ | hop
  · simp only [if_true, htaccessParseRewriteCond, htest, Option.map_some]
  · simp only at hop
    have hne : ¬ op = .eq := by
      rw [hop]
      unfold condOp
      split_ifs <;> decide
    simp only [if_neg hne]
    cases orNext with
    | false =>
        simp only [Bool.false_eq_true, if_false, htaccessParseRewriteCond, htest, Option.map_some,
          ← hop]
    | true =>
        have hor : condOrNext (lit "[OR]") = true := by decide
        simp only [if_true, htaccessParseRewriteCond, htest, Option.map_some, ← hop, hor]

end Conds

section Flags
variable {rule : RewriteRule}

theorem trimRuleFlag_part {part lead tail : NgxStr} (h : FlagPart part)
    (hlead : ∀ c ∈ lead, c = ch ' ' ∨ c = ch '[') (htail : ∀ c ∈ tail, c = ch ' ' ∨ c = ch ']') :
    trimRuleFlag (lead ++ (part ++ tail)) = part := by
  obtain ⟨c, rest, hfirst, hc⟩ := h.first
  obtain ⟨init, d, hfinal, hd⟩ := h.final
  have hdrop : (lead ++ (part ++ tail)).dropWhile (fun c => c = ch ' ' || c = ch '[') =
      part ++ tail := by
    rw [List.dropWhile_append_of_pos (by simpa using hlead), hfirst, List.cons_append,
      List.dropWhile_cons_of_neg (by simpa using hc)]
  rw [trimRuleFlag, hdrop, List.rdropWhile, List.reverse_append,
    List.dropWhile_append_of_pos (by simpa using htail), hfinal, List.reverse_concat,
    List.dropWhile_cons_of_neg (by simpa using hd), ← List.reverse_concat, List.reverse_reverse]

theorem applyPart_part {part lead tail : NgxStr} (h : FlagPart part)
    (hlead : ∀ c ∈ lead, c = ch ' ' ∨ c = ch '[') (htail : ∀ c ∈ tail, c = ch ' ' ∨ c = ch ']') :
    applyPart rule (lead ++ (part ++ tail)) = applyRuleFlag part rule := by
  have hne : part ≠ [] := by
    obtain ⟨c, rest, hfirst, _⟩ := h.first
    rw [hfirst]
    exact List.cons_ne_nil c rest
  rw [applyPart, trimRuleFlag_part h hlead htail, if_neg hne]

theorem flagsTo_parts {part : NgxStr} {parts : List NgxStr} (h : ∀ p ∈ part :: parts, FlagPart p)
    {lead : NgxStr} (hlead : ∀ c ∈ lead, c = ch ' ' ∨ c = ch '[') :
    FlagsTo (lead ++ ((lit ",").intercalate (part :: parts) ++ [ch ']'])) rule
      ((part :: parts).foldl (fun rule p => applyRuleFlag p rule) rule) := by
  have hcomma : ch ',' ∉ lead := fun hmem => (hlead _ hmem).elim (by decide) (by decide)
  have hpart := h part List.mem_cons_self
  induction parts generalizing part lead rule with
  | nil =>
      have hfree : ch ',' ∉ lead ++ (part ++ [ch ']']) := by
        rw [List.mem_append, List.mem_append, not_or, not_or]
        exact ⟨hcomma, hpart.free, by decide⟩
      have hone : FlagsTo (lead ++ (part ++ [ch ']']) ++ []) rule
          (applyPart rule (lead ++ (part ++ [ch ']']))) :=
        flagsTo_part hfree (.inl rfl) flagsTo_nil
      rw [List.append_nil, applyPart_part hpart hlead (by simp)] at hone
      simpa using hone
  | cons next parts ih =>
      have hfree : ch ',' ∉ lead ++ (part ++ []) := by
        rw [List.append_nil, List.mem_append, not_or]
        exact ⟨hcomma, hpart.free⟩
      have hrest := flagsTo_skip (.inl rfl)
        (@ih (applyRuleFlag part rule) next (fun p hp => h p (List.mem_cons_of_mem part hp)) []
          (List.forall_mem_nil _) List.not_mem_nil
          (h next (List.mem_cons_of_mem part List.mem_cons_self)))
      have hjoin : lead ++ ((lit ",").intercalate (part :: next :: parts) ++ [ch ']']) =
          lead ++ (part ++ []) ++
            ch ',' :: ([] ++ ((lit ",").intercalate (next :: parts) ++ [ch ']'])) := by
        rw [List.intercalate_cons_cons]
        simp only [List.append_assoc, List.append_nil, List.nil_append]
        rfl
      rw [hjoin]
      refine flagsTo_part hfree (.inr rfl) ?_
      rw [applyPart_part hpart hlead (List.forall_mem_nil _)]
      exact hrest

theorem htaccessParseRuleFlags_parts {parts : List NgxStr} (h : ∀ p ∈ parts, FlagPart p) :
    htaccessParseRuleFlags (flagList parts) rule =
      parts.foldl (fun rule p => applyRuleFlag p rule) rule := by
  cases parts with
  | nil => rfl
  | cons part parts =>
      have hlead : ∀ c ∈ lit "[", c = ch ' ' ∨ c = ch '[' := fun c hc =>
        .inr (List.mem_singleton.mp hc)
      exact flagsTo_parts h hlead _ (le_refl _)

theorem applyRuleFlag_var (var : NgxStr) :
    applyRuleFlag (lit "E=" ++ var) rule =
      { rule with envVars := ngxArrayPush rule.envVars var } := by
  have hlast : ¬ lit "E=" ++ var = lit "L" := fun h => by cases congrArg List.head? h
  have hchain : ¬ lit "E=" ++ var = lit "C" := fun h => by cases congrArg List.head? h
  obtain ⟨henv, hother⟩ := @starts_behind (lit "E=") var (by decide)
  have hmiss : ∀ (n : Nat) (l : NgxStr), l.length = n →
      ngxStrncasecmpEq (lit "E=") l (min 2 n) = false →
        ¬ (n ≤ (lit "E=" ++ var).length ∧ ngxStrncasecmpEq (lit "E=" ++ var) l n = true) := by
    rintro n l rfl hne ⟨hlength, hstarts⟩
    have hnone := hother l hne
    rw [startsIgnoreCase, hstarts, Bool.and_true, decide_eq_false_iff_not] at hnone
    exact hnone hlength
  have hend := hmiss 3 (lit "END") rfl (by decide)
  have hnocase := hmiss 2 (lit "NC") rfl (by decide)
  have hredirect := hmiss 1 (lit "R") rfl (by decide)
  have hqsa := hmiss 3 (lit "QSA") rfl (by decide)
  rw [startsIgnoreCase, Bool.and_eq_true, decide_eq_true_eq] at henv
  rw [applyRuleFlag, if_neg hlast, if_neg (fun h => hend ⟨h.1.ge, h.2⟩),
    if_neg (fun h => hnocase ⟨h.1.ge, h.2⟩),
    if_neg (fun h => hredirect ⟨Nat.le_of_succ_le h.1, h.2⟩), if_neg hchain,
    if_neg (fun h => hqsa ⟨h.1.ge, h.2⟩), if_pos ⟨henv.1, henv.2⟩]
  rfl

theorem foldl_ngxArrayPush {α : Type} (xs ys : List α) :
    ys.foldl ngxArrayPush (some xs) = some (xs ++ ys) := by
  induction ys generalizing xs with
  | nil => rw [List.append_nil]; rfl
  | cons y ys ih =>
      rw [List.foldl_cons, ngxArrayPush, Option.getD_some, ih, List.append_assoc]
      rfl

theorem foldl_ngxArrayPush_none {α : Type} {a : Option (List α)} (h : a ≠ some []) :
    (a.getD []).foldl ngxArrayPush none = a := by
  cases a with
  | none => rfl
  | some xs =>
      cases xs with
      | nil => exact absurd rfl h
      | cons x xs =>
          rw [Option.getD_some, List.foldl_cons, ngxArrayPush, Option.getD_none, List.nil_append,
            foldl_ngxArrayPush]
          rfl

theorem foldl_vars (vars : List NgxStr) (rule : RewriteRule) :
    (vars.map (lit "E=" ++ ·)).foldl (fun rule p => applyRuleFlag p rule) rule =
      { rule with envVars := vars.foldl ngxArrayPush rule.envVars } := by
  induction vars generalizing rule with
  | nil => rfl
  | cons var vars ih => rw [List.map_cons, List.foldl_cons, applyRuleFlag_var, ih]; rfl

theorem foldl_optional (b : Bool) (part : NgxStr) (rule : RewriteRule) :
    (if b = true then [part] else []).foldl (fun rule p => applyRuleFlag p rule) rule =
      if b = true then applyRuleFlag part rule else rule := by
  cases b <;> rfl

theorem RuleFlag.flagPart (f : RuleFlag) : FlagPart f.text :=
  ⟨f.comma_not_mem_text, f.text_head, f.text_last⟩

theorem RewriteRule.Writable.flagPart (h : rule.Writable) : ∀ p ∈ rule.flagParts, FlagPart p := by
  intro p hp
  have honly : ∀ {b : Bool} {part : NgxStr}, p ∈ (if b = true then [part] else []) → p = part := by
    intro b part hmem
    cases b with
    | false => cases hmem
    | true => exact List.mem_singleton.mp hmem
  simp only [flagParts, List.mem_append] at hp
  rcases hp with (((((hp | hp) | hp) | hp) | hp) | hp) | hp
  · rw [honly hp]
    exact RuleFlag.flagPart .last
  · rw [honly hp]
    exact RuleFlag.flagPart .endFlag
  · rw [honly hp]
    exact RuleFlag.flagPart .nocase
  · rw [honly hp]
    exact RuleFlag.flagPart (.redirectTo rule.redirectCode)
  · rw [honly hp]
    exact RuleFlag.flagPart .chain
  · rw [honly hp]
    exact RuleFlag.flagPart .qsa
  · obtain ⟨var, hvar, rfl⟩ := List.mem_map.mp hp
    exact h.vars var hvar

theorem foldl_flagParts (h : rule.Writable) :
    rule.flagParts.foldl (fun rule p => applyRuleFlag p rule)
        { pattern := rule.pattern, substitution := rule.substitution } =
      { rule with conditions := none } := by
  have hvars := foldl_ngxArrayPush_none h.someVars
  have hcode := h.code
  have hunmarked := h.unmarked
  obtain ⟨pattern, substitution, last, endFlag, nocase, redirect, redirectCode, chain, chainIn, qsa,
    envVars, conditions⟩ := rule
  simp only at hvars hcode hunmarked
  have hlast : (if last = true then applyRuleFlag (lit "L") { pattern, substitution }
      else { pattern, substitution }) = { pattern, substitution, last } := by
    cases last <;> rfl
  have hend : (if endFlag = true then applyRuleFlag (lit "END") { pattern, substitution, last }
      else { pattern, substitution, last }) = { pattern, substitution, last, endFlag } := by
    cases endFlag <;> rfl
  have hnocase : (if nocase = true then
        applyRuleFlag (lit "NC") { pattern, substitution, last, endFlag }
      else { pattern, substitution, last, endFlag }) =
        { pattern, substitution, last, endFlag, nocase } := by
    cases nocase <;> rfl
  have hredirect : (if redirect = true then applyRuleFlag (lit "R=" ++ decimal redirectCode)
        { pattern, substitution, last, endFlag, nocase }
      else { pattern, substitution, last, endFlag, nocase }) =
        { pattern, substitution, last, endFlag, nocase, redirect, redirectCode } := by
    cases redirect with
    | false =>
        simp only [Bool.false_eq_true, if_false] at hcode ⊢
        rw [hcode]
    | true =>
        simp only [if_true] at hcode ⊢
        have hset := applyRuleFlag_redirectTo
          { pattern, substitution, last, endFlag, nocase } redirectCode
        rw [statusCode, if_pos hcode] at hset
        exact hset
  have hchain : (if chain = true then applyRuleFlag (lit "C")
        { pattern, substitution, last, endFlag, nocase, redirect, redirectCode }
      else { pattern, substitution, last, endFlag, nocase, redirect, redirectCode }) =
        { pattern, substitution, last, endFlag, nocase, redirect, redirectCode, chain } := by
    cases chain <;> rfl
  have hqsa : (if qsa = true then applyRuleFlag (lit "QSA")
        { pattern, substitution, last, endFlag, nocase, redirect, redirectCode, chain }
      else { pattern, substitution, last, endFlag, nocase, redirect, redirectCode, chain }) =
        { pattern, substitution, last, endFlag, nocase, redirect, redirectCode, chain, qsa } := by
    cases qsa <;> rfl
  unfold RewriteRule.flagParts
  simp only [List.foldl_append, foldl_optional, foldl_vars]
  rw [hlast, hend, hnocase, hredirect, hchain, hqsa, hunmarked, hvars]

end Flags

section Data
variable {pool : PoolId}

theorem waiting_eq {α : Type} {a : Option (List α)} (h : a ≠ some []) :
    (if a.getD [] = [] then none else a) = a := by
  cases a with
  | none => rfl
  | some xs =>
      have hne : xs ≠ [] := fun hnil => h (congrArg some hnil)
      rw [Option.getD_some, if_neg hne]

theorem isOn_onOff (flag : Bool) : isOn (onOff flag) = flag := by
  cases flag <;> decide

theorem errorCode_decimal {code : Nat} (h : code ≤ ngxMaxInt ∨ code = 0xFFFFFFFFFFFFFFFF) :
    (ngxAtoi (decimal code)).getD 0xFFFFFFFFFFFFFFFF = code := by
  rw [ngxAtoi_decimal]
  split
  · rfl
  · rename_i hbig
    exact (h.resolve_left hbig).symm

theorem headerData_args {h : Header} (hpool : h.pool = pool)
    (halways : h.always = false → isAlways h.action = false) (name : NgxStr) :
    headerData pool (name :: (DirectiveData.header h).args) = some h := by
  obtain ⟨action, key, value, always, _⟩ := h
  cases hpool
  cases always with
  | false =>
      have hfirst : (action.length = 6 && ngxStrncasecmpEq action (lit "always") 6) = false :=
        halways rfl
      simp only [DirectiveData.args, headerData, hfirst, Bool.false_eq_true, if_false,
        List.nil_append, List.length_cons, List.length_nil, List.getD_cons_succ,
        List.getD_cons_zero]
      rfl
  | true => rfl

/-- The arguments of a directive are read back, a rule with the conditions that wait for it. -/
theorem directiveData_args (sys : Sys) {u : DirectiveData} (h : u.Kept pool) :
    directiveData sys pool u.id (u.id.text :: u.args) (u.conds.foldl ngxArrayPush none) =
      some u := by
  cases u with
  | rewriteEngine flag =>
      exact congrArg (fun on => some (DirectiveData.rewriteEngine on)) (isOn_onOff flag)
  | expiresActive flag =>
      exact congrArg (fun on => some (DirectiveData.expiresActive on)) (isOn_onOff flag)
  | rewriteBase _ | authType _ | authName _ | authUserFile _ | require _ | order _ | allow _
  | deny _ | expiresDefault _ | directoryIndex _ => rfl
  | rewriteRule rule =>
      have hrule : rule.Writable := h
      have hflags := (@htaccessParseRuleFlags_parts
        { pattern := rule.pattern, substitution := rule.substitution } _
        hrule.flagPart).trans (foldl_flagParts hrule)
      have hconds : (DirectiveData.rewriteRule rule).conds.foldl ngxArrayPush none =
          rule.conditions := foldl_ngxArrayPush_none hrule.someConds
      have hdata : directiveData sys pool .rewriteRule
          (DirectiveId.rewriteRule.text :: (DirectiveData.rewriteRule rule).args) rule.conditions =
            some (.rewriteRule rule) := by
        simp only [directiveData, DirectiveData.args, hflags, waiting_eq hrule.someConds]
      rw [hconds]
      exact hdata
  | redirect redir =>
      obtain ⟨source, target, permanent⟩ := redir
      cases permanent <;> rfl
  | redirectMatch redir | redirectPermanent redir | redirectTemp redir =>
      obtain ⟨source, target, permanent⟩ := redir
      cases (h : permanent = _)
      rfl
  | header header =>
      exact congrArg (Option.map DirectiveData.header)
        (headerData_args h.1 h.2 (DirectiveId.text .header))
  | expiresByType header =>
      obtain ⟨action, name, value, always, _⟩ := header
      obtain ⟨haction, halways, hpool⟩ := h
      cases haction
      cases halways
      cases hpool
      rfl
  | errorDocument doc =>
      exact congrArg (fun code => some (DirectiveData.errorDocument { code, uri := doc.uri }))
        (errorCode_decimal h)
  | options flag =>
      have hflag : ∀ flag, (8 ≤ (if flag then lit "-Indexes" else lit "Indexes").length &&
          ngxStrncasecmpEq (if flag then lit "-Indexes" else lit "Indexes") (lit "-Indexes") 8) =
            flag := by decide
      exact congrArg (fun flag => some (DirectiveData.options flag)) (hflag flag)

end Data

section Text
variable {sys : Sys} {pool : PoolId} {u : NgxStr} {st : ParserState}

/-- No block is open and no condition waits. -/
structure ParserState.AtRest (st : ParserState) : Prop where
  nested : Nested st
  depth : st.depth = 0
  idle : st.pendingConds = none

theorem atRest_initial : ParserState.AtRest .initial := ⟨nested_initial, rfl, rfl⟩

theorem Runs.written (h : Runs sys pool u st) (hst : Nested st) (id : DirectiveId)
    {args : List NgxStr} (hargs : ∀ arg ∈ args, Quotable arg) {st' : ParserState}
    (hpush : htaccessPushDirective sys pool st id (id.text :: args) = some st') :
    Runs sys pool (u ++ writtenLine id args) st' := by
  refine h.line (lexesTo_written id hargs) ?_
  have hid : lineId (id.text :: args) = some id := id.id_text
  rw [parseLine_of_lineId sys pool hid, if_pos (hst.on _ (Nat.le_refl _)), hpush]

theorem Runs.conds {conds : List RewriteCond} (hconds : ∀ cond ∈ conds, cond.Writable)
    (h : Runs sys pool u st) (hst : Nested st) :
    Runs sys pool (u ++ conds.flatMap fun cond => writtenLine .rewriteCond cond.args)
      { st with pendingConds := conds.foldl ngxArrayPush st.pendingConds } := by
  induction conds generalizing u st with
  | nil =>
      rw [List.flatMap_nil, List.append_nil]
      exact h
  | cons cond conds ih =>
      have hcond := hconds cond List.mem_cons_self
      have hpush : htaccessPushDirective sys pool st .rewriteCond
          (DirectiveId.rewriteCond.text :: cond.args) =
            some { st with pendingConds := ngxArrayPush st.pendingConds cond } := by
        rw [htaccessPushDirective, if_pos rfl, htaccessParseRewriteCond_args hcond]
        rfl
      have hnext := ih (fun c hc => hconds c (List.mem_cons_of_mem cond hc))
        (h.written hst .rewriteCond hcond.args hpush) ⟨hst.full, hst.on, hst.outer⟩
      rw [List.flatMap_cons, ← List.append_assoc]
      exact hnext

theorem Runs.data {v : DirectiveData} (hkept : v.Kept pool) (hargs : ∀ arg ∈ v.args, Quotable arg)
    (h : Runs sys pool u st) (hst : Nested st) (hidle : st.pendingConds = none) :
    Runs sys pool (u ++ v.text) (st.pushed [v] none) := by
  have hconds : ∀ cond ∈ v.conds, cond.Writable := by
    cases v with
    | rewriteRule rule => exact hkept.conds
    | _ => exact fun _ hmem => absurd hmem List.not_mem_nil
  have hwaiting := h.conds hconds hst
  rw [hidle] at hwaiting
  have hdata := directiveData_args sys hkept
  have hother : v.id ≠ .rewriteCond := by cases v <;> exact nofun
  have hpush : htaccessPushDirective sys pool
      { st with pendingConds := v.conds.foldl ngxArrayPush none } v.id (v.id.text :: v.args) =
        some (st.pushed [v] none) := by
    have hused : (if v.id = .rewriteRule ∧ (v.conds.foldl ngxArrayPush none).getD [] ≠ [] then none
        else v.conds.foldl ngxArrayPush none) = none := by
      cases v with
      | rewriteRule rule =>
          have hkept : rule.conditions ≠ some [] := hkept.someConds
          simp only [DirectiveData.conds, foldl_ngxArrayPush_none hkept]
          cases hrule : rule.conditions with
          | none => exact ite_self _
          | some conds =>
              refine if_pos ⟨rfl, fun hnil => hkept ?_⟩
              rw [hrule, ← hnil]
              rfl
      | _ => exact ite_self _
    rw [htaccessPushDirective, if_neg hother, hdata, Option.map_some, hused]
    rfl
  have hwhole := hwaiting.written ⟨hst.full, hst.on, hst.outer⟩ v.id hargs hpush
  rw [List.append_assoc] at hwhole
  exact hwhole

/-- The tag of the block around a directive. -/
abbrev Directive.Writable.tag {d : Directive} (hd : d.Writable pool) : DocTag :=
  .filesMatch d.filesMatch hd.scope.1

theorem Directive.Writable.tag_free {d : Directive} (hd : d.Writable pool) :
    ch '>' ∉ hd.tag.head := by
  rw [DocTag.head, List.mem_append, List.mem_append, not_or, not_or]
  exact ⟨by decide, hd.scope.2, by decide⟩

theorem Directive.Writable.tag_opening {d : Directive} (hd : d.Writable pool) :
    hd.tag.opening = filesMatchOpening d.filesMatch := by
  simp [DocTag.opening, DocTag.head, filesMatchOpening]

/-- A directive is read back behind any text that leaves the parser at rest. -/
theorem Runs.directiveText {d : Directive} (hd : d.Writable pool) (h : Runs sys pool u st)
    (hst : st.AtRest) :
    ∃ st', Runs sys pool (u ++ d.text) st' ∧ st'.AtRest ∧
      st'.directives = st.directives ++ [d] := by
  have houter : st.filesMatch.getD st.depth [] = [] := by
    rw [hst.depth]
    exact hst.nested.outer
  unfold Directive.text
  split
  · rename_i hscope
    refine ⟨_, h.data hd.data hd.args hst.nested hst.idle, ⟨?_, hst.depth, rfl⟩, ?_⟩
    · exact ⟨hst.nested.full, hst.nested.on, hst.nested.outer⟩
    · rw [ParserState.pushed, houter, ← hscope]
      rfl
  · have hdepth : st.depth < 15 := by rw [hst.depth]; decide
    obtain ⟨hopened, hnested, _, hscope⟩ := h.inside hst.nested
      (DocTag.oneLine_of_free hd.tag_free) hdepth
    have hinside := hopened.data hd.data hd.args hnested hst.idle
    have hclosing : LexesTo (lineOf (lit "</FilesMatch>")) [[lit "</FilesMatch>"]] :=
      lexesTo_text (List.cons_ne_nil _ _) (@lineText_tag (lit "/FilesMatch") (by decide))
    have hclose := @parseLine_closing sys pool
      ((st.opened hd.tag.token).pushed [d.u] none) (lit "</FilesMatch>") [] (by decide)
    have hwhole := hinside.line hclosing hclose
    rw [List.append_assoc, List.append_assoc, hd.tag_opening] at hwhole
    refine ⟨_, hwhole, ⟨?_, ?_, rfl⟩, ?_⟩
    · have hpushed : Nested ((st.opened hd.tag.token).pushed [d.u] none) :=
        ⟨hnested.full, hnested.on, hnested.outer⟩
      exact parseLine_nested sys pool hpushed hclose
    · exact hst.depth
    · have hown : d.filesMatch.takeWhile (· ≠ ch '>') = d.filesMatch :=
        takeWhile_ne_of_not_mem hd.scope.2
      simp only [ParserState.pushed, hscope, DocTag.own, hown]
      rfl

theorem Runs.directivesText {ds : List Directive} (hds : ∀ d ∈ ds, d.Writable pool)
    (h : Runs sys pool u st) (hst : st.AtRest) :
    ∃ st', Runs sys pool (u ++ NgxHtaccess.directivesText ds) st' ∧
      st'.directives = st.directives ++ ds := by
  induction ds generalizing u st with
  | nil => exact ⟨st, by rwa [NgxHtaccess.directivesText, List.flatMap_nil, List.append_nil],
      (List.append_nil _).symm⟩
  | cons d ds ih =>
      obtain ⟨mid, hmid, hrest, hone⟩ := h.directiveText (hds d List.mem_cons_self) hst
      obtain ⟨st', hst', hmore⟩ := ih (fun e he => hds e (List.mem_cons_of_mem d he)) hmid hrest
      refine ⟨st', ?_, by rw [hmore, hone, List.append_assoc]; rfl⟩
      rw [NgxHtaccess.directivesText, List.flatMap_cons, ← List.append_assoc]
      exact hst'

theorem Runs.parse (h : Runs sys pool u st) :
    htaccessParse sys pool u = some { directives := st.directives, pool } := by
  rw [htaccessParse, h.loop, Option.map_some]

end Text

/-- The text of directives that can be written parses to these directives. -/
theorem directivesText_read_back (sys : Sys) {pool : PoolId} {ds : List Directive}
    (h : ∀ d ∈ ds, d.Writable pool) :
    htaccessParse sys pool (directivesText ds) = some { directives := ds, pool } := by
  obtain ⟨st, hruns, hds⟩ := (@runs_nil sys pool).directivesText h atRest_initial
  exact hruns.parse.trans (by rw [hds]; rfl)

/-- No quote and no backslash: the texts that stand between quotes as they are. -/
def isFreeText (s : NgxStr) : Bool := !s.contains (ch '"') && !s.contains (ch '\\')

theorem quotable_of_isFree {args : List NgxStr} (h : args.all isFreeText = true) :
    ∀ arg ∈ args, Quotable arg := by
  intro arg harg
  have hfree := List.all_eq_true.mp h arg harg
  simp only [isFreeText, Bool.and_eq_true, Bool.not_eq_true', List.contains_eq_mem,
    decide_eq_false_iff_not] at hfree
  exact escapedText_of_plain fun c hc =>
    ⟨decide_eq_false fun heq => hfree.1 (heq ▸ hc), fun heq => hfree.2 (heq ▸ hc)⟩

/-- A rule with a condition, a code and a variable whose value has a blank. -/
def writtenRule : RewriteRule where
  pattern := lit "^old/(.*)$"
  substitution := lit "/new/$1"
  redirect := true
  redirectCode := 308
  envVars := some [lit "moved:by hand"]
  conditions := some [{
    test := .http, name := lit "Host", op := .regex, value := lit "^www", orNext := true }]

theorem directivesText_read_back_rule :
    htaccessParse (siteSys (siteFs 0 [])) 7
        (directivesText
          [⟨[], .rewriteRule writtenRule⟩, ⟨lit "\\.bak$", .require (lit "all denied")⟩]) =
      some {
        directives :=
          [⟨[], .rewriteRule writtenRule⟩, ⟨lit "\\.bak$", .require (lit "all denied")⟩]
        pool := 7 } := by
  have hcond : ∀ cond ∈ writtenRule.conditions.getD [], cond.Writable := by
    intro cond hcond
    rw [List.mem_singleton.mp hcond]
    exact ⟨(by decide : ch '}' ∉ lit "Host"), .inr (by decide),
      quotable_of_isFree (by decide +kernel)⟩
  have hvar : ∀ var ∈ writtenRule.envVars.getD [], FlagPart (lit "E=" ++ var) := by
    intro var hvar
    rw [List.mem_singleton.mp hvar]
    exact ⟨by decide, ⟨ch 'E', _, rfl, by decide⟩, ⟨lit "E=moved:by han", ch 'd', rfl, by decide⟩⟩
  refine directivesText_read_back _ fun d hd => ?_
  rcases List.mem_cons.mp hd with rfl | hd
  · exact ⟨by decide, ⟨rfl, by decide, nofun, hvar, nofun, hcond⟩,
      quotable_of_isFree (by decide +kernel)⟩
  · rw [List.mem_singleton.mp hd]
    exact ⟨by decide, trivial, quotable_of_isFree (by decide +kernel)⟩

end NgxHtaccess
