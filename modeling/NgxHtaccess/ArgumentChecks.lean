import Mathlib.Data.List.GetD
import NgxHtaccess.ParsePools
import NgxHtaccess.Site

/-!
`htaccess_push_directive` with every read of its argument array. A read at an index from
`nelts` on is a fault; without one the directive is the one of the parser model, whatever the
slots behind the array hold.
-/
namespace NgxHtaccess

/-- What a run gives unless it reads past the arguments, and then the index it reads. -/
abbrev Counted (α : Type) := Except Nat α

def argRead (args : List NgxStr) (k : Nat) : Counted NgxStr :=
  match args[k]? with
  | some arg => .ok arg
  | none => .error k

def argReads (args : List NgxStr) (i : Nat) : Nat → Counted (List NgxStr)
  | 0 => .ok []
  | n + 1 => do
      let arg ← argRead args i
      let more ← argReads args (i + 1) n
      return arg :: more

def joinArgsReads (args : List NgxStr) (start : Nat) : Counted (Option NgxStr) :=
  if args.length ≤ start then .ok none
  else do
    let parts ← argReads args start (args.length - start)
    return some ((lit " ").intercalate parts)

def parseRewriteCondReads (args : List NgxStr) : Counted (Option RewriteCond) :=
  if args.length < 2 then .ok none
  else do
    let test ← argRead args 1
    match condTest test with
    | none => return none
    | some (t, name) =>
        if args.length ≤ 2 then
          return some { test := t, name, op := .eq, value := [], orNext := false }
        else
          let value ← argRead args 2
          if 3 < args.length then
            let flags ← argRead args 3
            return some
              { test := t, name, op := condOp value, value, orNext := condOrNext flags }
          else return some { test := t, name, op := condOp value, value, orNext := false }

/-- The `Redirect` family. -/
def redirectReads (id : DirectiveId) (args : List NgxStr) : Counted (Option AliasRedirect) :=
  if args.length < 3 then .ok none
  else do
    let source ← argRead args 1
    let target ← argRead args 2
    if id = .redirectPermanent then return some { source, target, permanent := true }
    else if id = .redirect ∧ 3 < args.length then
      let status ← argRead args 3
      return some
        { source, target, permanent := 3 ≤ status.length && ngxStrncmpEq status (lit "301") 3 }
    else return some { source, target, permanent := false }

def headerReads (pool : PoolId) (args : List NgxStr) : Counted (Option Header) :=
  if args.length < 3 then .ok none
  else do
    let first ← argRead args 1
    let always := first.length = 6 && ngxStrncasecmpEq first (lit "always") 6
    let offset := if always then 2 else 1
    if args.length ≤ offset + 1 then return none
    else
      let action ← argRead args offset
      let name ← argRead args (offset + 1)
      if offset + 2 < args.length then
        let value ← argRead args (offset + 2)
        return some { action, name, value, always, pool }
      else return some { action, name, value := [], always, pool }

/-- The cases that test for three arguments and read the two behind the name. -/
def pairReads {α : Type} (args : List NgxStr) (make : NgxStr → NgxStr → α) :
    Counted (Option α) :=
  if args.length < 3 then .ok none
  else do
    let first ← argRead args 1
    let second ← argRead args 2
    return some (make first second)

def rewriteRuleReads (args : List NgxStr) (pendingConds : Option (List RewriteCond)) :
    Counted (Option RewriteRule) :=
  if args.length < 3 then .ok none
  else do
    let pattern ← argRead args 1
    let substitution ← argRead args 2
    let rule : RewriteRule := { pattern, substitution }
    let conditions := if pendingConds.getD [] = [] then none else pendingConds
    if 3 < args.length then
      let flags ← argRead args 3
      return some { htaccessParseRuleFlags flags rule with conditions }
    else return some { rule with conditions }

/-- The cases that read the argument behind the name without a test. -/
def soleRead (args : List NgxStr) (make : NgxStr → DirectiveData) :
    Counted (Option DirectiveData) := do
  let arg ← argRead args 1
  return some (make arg)

/-- The switch of `htaccess_push_directive`. -/
def directiveReads (pool : PoolId) (id : DirectiveId) (args : List NgxStr)
    (pendingConds : Option (List RewriteCond)) : Counted (Option DirectiveData) :=
  match id with
  | .rewriteEngine => soleRead args fun arg => .rewriteEngine (isOn arg)
  | .rewriteBase => soleRead args .rewriteBase
  | .rewriteCond => .ok none
  | .rewriteRule => do
      let rule ← rewriteRuleReads args pendingConds
      return rule.map .rewriteRule
  | .redirect => do
      let redir ← redirectReads .redirect args
      return redir.map .redirect
  | .redirectPermanent => do
      let redir ← redirectReads .redirectPermanent args
      return redir.map .redirectPermanent
  | .redirectTemp => do
      let redir ← redirectReads .redirectTemp args
      return redir.map .redirectTemp
  | .redirectMatch => pairReads args fun source target =>
      .redirectMatch { source, target, permanent := true }
  | .authType => soleRead args .authType
  | .authName => soleRead args .authName
  | .authUserFile => soleRead args .authUserFile
  | .require =>
      if 2 < args.length then do
        let str ← joinArgsReads args 1
        return str.map .require
      else soleRead args .require
  | .order => soleRead args .order
  | .allow => soleRead args .allow
  | .deny => soleRead args .deny
  | .expiresDefault => soleRead args .expiresDefault
  | .directoryIndex => soleRead args .directoryIndex
  | .expiresActive => soleRead args fun arg => .expiresActive (isOn arg)
  | .header => do
      let header ← headerReads pool args
      return header.map .header
  | .expiresByType => pairReads args fun name value =>
      .expiresByType { action := [], name, value, always := false, pool }
  | .errorDocument => pairReads args fun code uri =>
      .errorDocument { code := (ngxAtoi code).getD 0xFFFFFFFFFFFFFFFF, uri }
  | .options => soleRead args fun name =>
      .options (8 ≤ name.length && ngxStrncasecmpEq name (lit "-Indexes") 8)

/-- `htaccess_push_directive`; `none` is `NGX_ERROR`. -/
def pushDirectiveReads (pool : PoolId) (st : ParserState) (id : DirectiveId)
    (args : List NgxStr) : Counted (Option ParserState) :=
  if id = .rewriteCond then do
    let cond ← parseRewriteCondReads args
    return cond.map fun cond => { st with pendingConds := ngxArrayPush st.pendingConds cond }
  else do
    let data ← directiveReads pool id args st.pendingConds
    return data.map fun u =>
      { st with
        directives := st.directives ++ [{ filesMatch := st.filesMatch.getD st.depth [], u }]
        pendingConds := if id = .rewriteRule ∧ st.pendingConds.getD [] ≠ [] then none
          else st.pendingConds }

/-- The tokens that a directive needs, its name among them. -/
def tokensNeeded (id : DirectiveId) (args : List NgxStr) : Nat :=
  match id with
  | .rewriteRule | .redirect | .redirectPermanent | .redirectTemp | .redirectMatch
  | .expiresByType | .errorDocument => 3
  | .header => if eqIgnoreCase (args.getD 1 []) (lit "always") then 4 else 3
  | _ => 2

section Reads
variable {args : List NgxStr}

@[simp] theorem Counted.ok_bind {α β : Type} (a : α) (f : α → Counted β) :
    (Except.ok a >>= f : Counted β) = f a := rfl

theorem argRead_eq {k : Nat} (h : k < args.length) : argRead args k = .ok (args.getD k []) := by
  rw [argRead, List.getElem?_eq_getElem h, List.getD_eq_getElem _ _ h]

theorem argRead_fault {k : Nat} (h : args.length ≤ k) : argRead args k = .error k := by
  rw [argRead, List.getElem?_eq_none h]

theorem argReads_eq {i n : Nat} (h : i + n ≤ args.length) :
    argReads args i n = .ok ((args.drop i).take n) := by
  induction n generalizing i with
  | zero => rfl
  | succ n ih =>
      have hi : i < args.length := by omega
      rw [argReads, argRead_eq hi, ih (by omega), List.drop_eq_getElem_cons hi, List.take_succ_cons,
        List.getD_eq_getElem _ _ hi]
      rfl

theorem joinArgsReads_eq (start : Nat) :
    joinArgsReads args start = .ok (htaccessJoinArgs args start) := by
  unfold joinArgsReads htaccessJoinArgs
  split
  · rfl
  · rw [argReads_eq (by omega), List.take_of_length_le (by rw [List.length_drop])]
    rfl

theorem parseRewriteCondReads_eq :
    parseRewriteCondReads args = .ok (htaccessParseRewriteCond args) := by
  rcases args with _ | ⟨name, _ | ⟨test, rest⟩⟩
  · rfl
  · rfl
  · have htest : argRead (name :: test :: rest) 1 = .ok test := rfl
    have hlong : ¬ (name :: test :: rest).length < 2 := by simp
    rw [parseRewriteCondReads, if_neg hlong, htest, Counted.ok_bind, htaccessParseRewriteCond]
    cases condTest test with
    | none => rfl
    | some t => rcases rest with _ | ⟨value, _ | ⟨flags, rest⟩⟩ <;> rfl

theorem redirectReads_eq (id : DirectiveId) :
    redirectReads id args = .ok (redirectData id args) := by
  rcases args with _ | ⟨name, _ | ⟨source, _ | ⟨target, rest⟩⟩⟩
  · rfl
  · rfl
  · rfl
  · have hsource : argRead (name :: source :: target :: rest) 1 = .ok source := rfl
    have htarget : argRead (name :: source :: target :: rest) 2 = .ok target := rfl
    have hlong : ¬ (name :: source :: target :: rest).length < 3 := by simp
    rw [redirectReads, if_neg hlong, hsource, htarget, Counted.ok_bind, Counted.ok_bind]
    by_cases hpermanent : id = .redirectPermanent
    · subst hpermanent
      rfl
    · rw [if_neg hpermanent]
      by_cases hredirect : id = .redirect
      · subst hredirect
        cases rest <;> rfl
      · rw [if_neg fun h => hredirect h.1]
        simp only [redirectData, hpermanent, hredirect, decide_false, Bool.false_and,
          Bool.false_or]
        rfl

theorem headerReads_eq (pool : PoolId) : headerReads pool args = .ok (headerData pool args) := by
  unfold headerReads headerData
  split
  · rfl
  · rename_i hlong
    rw [argRead_eq (by omega), Counted.ok_bind]
    simp only
    generalize hoffset :
      (if (decide ((args.getD 1 []).length = 6) &&
        ngxStrncasecmpEq (args.getD 1 []) (lit "always") 6) = true then 2 else 1) = offset
    split
    · rfl
    · rename_i hmore
      rw [argRead_eq (by omega), argRead_eq (by omega), Counted.ok_bind, Counted.ok_bind]
      split
      · rename_i hvalue
        rw [argRead_eq hvalue]
        rfl
      · rename_i hvalue
        have hnone : args.getD (offset + 2) [] = [] := List.getD_eq_default args [] (by omega)
        rw [hnone]
        rfl

theorem rewriteRuleReads_eq (conds : Option (List RewriteCond)) (sys : Sys) (pool : PoolId) :
    (do let rule ← rewriteRuleReads args conds; return rule.map DirectiveData.rewriteRule :
      Counted (Option DirectiveData)) = .ok (directiveData sys pool .rewriteRule args conds) := by
  rcases args with _ | ⟨name, _ | ⟨pattern, _ | ⟨substitution, _ | ⟨flags, rest⟩⟩⟩⟩
  · rfl
  · rfl
  · rfl
  · rfl
  · rfl

theorem pairReads_eq {α : Type} (make : NgxStr → NgxStr → α) :
    pairReads args make = .ok (match args with
      | _ :: first :: second :: _ => some (make first second)
      | _ => none) := by
  rcases args with _ | ⟨name, _ | ⟨first, _ | ⟨second, rest⟩⟩⟩ <;> rfl

end Reads

section Push
variable {args : List NgxStr} {id : DirectiveId}

theorem directiveReads_eq (sys : Sys) (pool : PoolId) (conds : Option (List RewriteCond))
    (h : countsArgs id = true ∨ 2 ≤ args.length) :
    directiveReads pool id args conds = .ok (directiveData sys pool id args conds) := by
  have hsole : ∀ make : NgxStr → DirectiveData, 2 ≤ args.length →
      soleRead args make = .ok (some (make (argAt sys pool args 1))) := by
    intro make hlength
    rw [soleRead, argRead_eq hlength, argAt, List.getD_eq_getElem _ _ hlength,
      List.getD_eq_getElem _ _ hlength]
    rfl
  cases id with
  | rewriteCond => rfl
  | rewriteRule => exact rewriteRuleReads_eq conds sys pool
  | redirect | redirectPermanent | redirectTemp =>
      rw [directiveReads, redirectReads_eq]
      rfl
  | header =>
      rw [directiveReads, headerReads_eq]
      rfl
  | redirectMatch | expiresByType | errorDocument =>
      rw [directiveReads, pairReads_eq]
      rfl
  | require =>
      have hlength := h.resolve_left (by decide)
      rw [directiveReads, directiveData]
      split
      · rw [joinArgsReads_eq]
        rfl
      · exact hsole _ hlength
  | _ => exact hsole _ (h.resolve_left (by decide))

/-- A directive that does not count its arguments is read past the name that stands alone. -/
theorem directiveReads_fault (pool : PoolId) (conds : Option (List RewriteCond))
    (hcounts : countsArgs id = false) (hlength : args.length < 2) :
    directiveReads pool id args conds = .error 1 := by
  have hsole : ∀ make : NgxStr → DirectiveData, soleRead args make = .error 1 := by
    intro make
    rw [soleRead, argRead_fault (by omega)]
    rfl
  cases id with
  | rewriteCond | rewriteRule | redirect | redirectPermanent | redirectTemp | redirectMatch
  | header | expiresByType | errorDocument => cases hcounts
  | require =>
      rw [directiveReads, if_neg (by omega)]
      exact hsole _
  | _ => exact hsole _

/-- A run within the arguments is the one of the parser model, whatever stands behind them. -/
theorem pushDirectiveReads_eq (sys : Sys) (pool : PoolId) (st : ParserState)
    (h : countsArgs id = true ∨ 2 ≤ args.length) :
    pushDirectiveReads pool st id args = .ok (htaccessPushDirective sys pool st id args) := by
  unfold pushDirectiveReads htaccessPushDirective
  split
  · rw [parseRewriteCondReads_eq]
    rfl
  · rw [directiveReads_eq sys pool st.pendingConds h]
    rfl

theorem pushDirectiveReads_fault (pool : PoolId) (st : ParserState)
    (hcounts : countsArgs id = false) (hlength : args.length < 2) :
    pushDirectiveReads pool st id args = .error 1 := by
  have hcond : id ≠ .rewriteCond := by
    rintro rfl
    cases hcounts
  rw [pushDirectiveReads, if_neg hcond, directiveReads_fault pool _ hcounts hlength]
  rfl

theorem headerData_tooFew (pool : PoolId) (hfew : args.length < tokensNeeded .header args) :
    headerData pool args = none := by
  unfold headerData
  split
  · rfl
  · rename_i hlong
    have halways : eqIgnoreCase (args.getD 1 []) (lit "always") = true := by
      by_contra hnot
      rw [tokensNeeded, if_neg hnot] at hfew
      exact hlong hfew
    have hfour : args.length < 4 := by rwa [tokensNeeded, if_pos halways] at hfew
    rw [eqIgnoreCase, Bool.and_eq_true, decide_eq_true_eq] at halways
    obtain ⟨hlength, hcmp⟩ := halways
    have hsix : (args.getD 1 []).length = 6 := hlength
    rw [hsix] at hcmp
    simp only [hsix, hcmp, decide_true, Bool.and_self, if_true]
    rw [if_pos (by omega)]

theorem htaccessPushDirective_tooFew (sys : Sys) (pool : PoolId) (st : ParserState)
    (hcounts : countsArgs id = true) (hfew : args.length < tokensNeeded id args) :
    htaccessPushDirective sys pool st id args = none := by
  have hshort : tokensNeeded id args = 3 → ∀ name first second rest,
      args ≠ name :: first :: second :: rest := by
    rintro hthree name first second rest rfl
    rw [hthree] at hfew
    simp at hfew
    omega
  cases id with
  | rewriteCond =>
      have hcond : htaccessParseRewriteCond args = none := by
        rcases args with _ | ⟨name, _ | ⟨test, rest⟩⟩
        · rfl
        · rfl
        · have hlt : (name :: test :: rest).length < 2 := hfew
          rw [List.length_cons, List.length_cons] at hlt
          omega
      rw [htaccessPushDirective, if_pos rfl, hcond]
      rfl
  | header =>
      rw [htaccessPushDirective, if_neg (by decide), directiveData, headerData_tooFew pool hfew]
      rfl
  | rewriteRule | redirect | redirectPermanent | redirectTemp | redirectMatch | expiresByType
  | errorDocument =>
      have hargs := hshort rfl
      rcases args with _ | ⟨name, _ | ⟨first, _ | ⟨second, rest⟩⟩⟩
      · rfl
      · rfl
      · rfl
      · exact absurd rfl (hargs name first second rest)
  | _ => cases hcounts

end Push

/-- The arguments are counted before they are used. -/
structure ArgsChecked (pool : PoolId) (st : ParserState) (id : DirectiveId)
    (args : List NgxStr) : Prop where
  /-- No read is past the arguments, so that the result is one whatever stands there. -/
  within : ∀ sys, pushDirectiveReads pool st id args =
    .ok (htaccessPushDirective sys pool st id args)
  tooFew : args.length < tokensNeeded id args → ∀ sys,
    htaccessPushDirective sys pool st id args = none ∨
      htaccessPushDirective sys pool st id args = some st

/-- The arguments are counted exactly where the case of the directive counts them, or a token
stands behind the name. -/
theorem argsChecked_iff (pool : PoolId) (st : ParserState) (id : DirectiveId)
    (args : List NgxStr) :
    ArgsChecked pool st id args ↔ countsArgs id = true ∨ 2 ≤ args.length := by
  constructor
  · intro h
    by_contra hnot
    rw [not_or, Bool.not_eq_true, Nat.not_le] at hnot
    have hwithin := h.within (siteSys (siteFs 0 []))
    rw [pushDirectiveReads_fault pool st hnot.1 hnot.2] at hwithin
    cases hwithin
  · intro h
    refine ⟨fun sys => pushDirectiveReads_eq sys pool st h, fun hfew sys => .inl ?_⟩
    cases hcounts : countsArgs id with
    | true => exact htaccessPushDirective_tooFew sys pool st hcounts hfew
    | false =>
        have hlength := h.resolve_left (by rw [hcounts]; exact Bool.false_ne_true)
        have htwo : tokensNeeded id args = 2 := by
          cases id <;> first | rfl | cases hcounts
        omega

/-- The line `RewriteEngine` reads the argument that it does not have. -/
theorem lone_name_read_past :
    lineId [lit "RewriteEngine"] = some .rewriteEngine ∧
      ¬ ArgsChecked 0 .initial .rewriteEngine [lit "RewriteEngine"] := by
  refine ⟨by decide, fun h => ?_⟩
  have hfault : pushDirectiveReads 0 .initial .rewriteEngine [lit "RewriteEngine"] = .error 1 := rfl
  have hwithin := h.within (siteSys (siteFs 0 []))
  rw [hfault] at hwithin
  cases hwithin

end NgxHtaccess
