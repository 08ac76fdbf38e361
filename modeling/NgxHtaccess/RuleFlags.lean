import NgxHtaccess.CondFlags
import Mathlib.Data.List.ReduceOption

/-!
The flag list of a rule, written out and parsed again. `htaccess_parse_rule_flags` splits at
the commas and trims what is between them; every flag is decoded but a bare R, whose
branch asks for two bytes.
-/
namespace NgxHtaccess

/-- A flag of a rule. The name and the value of `E=VAR:VAL` are free of what would end them. -/
inductive RuleFlag where
  | last | endFlag | nocase | redirect
  | redirectTo (code : Nat)
  | chain | qsa
  | env (name value : NgxStr) (hname : ch ',' ∉ name)
      (hvalue : ∀ c ∈ value, c ∉ [ch ',', ch ' ', ch '[', ch ']'])
  deriving DecidableEq

/-- The decimal digits of a number. -/
def decimal (n : Nat) : NgxStr := (Nat.toDigits 10 n).map ch

def RuleFlag.text : RuleFlag → NgxStr
  | .last => lit "L"
  | .endFlag => lit "END"
  | .nocase => lit "NC"
  | .redirect => lit "R"
  | .redirectTo code => lit "R=" ++ decimal code
  | .chain => lit "C"
  | .qsa => lit "QSA"
  | .env name value _ _ => lit "E=" ++ (name ++ ch ':' :: value)

/-- A flag in a list, with the blanks in front of it and behind it. -/
structure WrittenFlag where
  flag : RuleFlag
  before : Nat
  after : Nat

def WrittenFlag.text (f : WrittenFlag) : NgxStr :=
  List.replicate f.before (ch ' ') ++ (f.flag.text ++ List.replicate f.after (ch ' '))

def ruleFlagList (fs : List WrittenFlag) : NgxStr := flagList (fs.map WrittenFlag.text)

def RuleFlag.redirectArg : RuleFlag → Option (Option Nat)
  | .redirect => some none
  | .redirectTo code => some (some code)
  | _ => none

def RuleFlag.envOf : RuleFlag → Option NgxStr
  | .env name value _ _ => some (name ++ ch ':' :: value)
  | _ => none

def redirectArgs (fs : List RuleFlag) : List (Option Nat) := fs.filterMap RuleFlag.redirectArg

/-- The rule with the fields of the listed flags set. -/
def decodedFlags (fs : List RuleFlag) (rule : RewriteRule) : RewriteRule :=
  { rule with
    last := rule.last || decide (.last ∈ fs)
    endFlag := rule.endFlag || decide (.endFlag ∈ fs)
    nocase := rule.nocase || decide (.nocase ∈ fs)
    redirect := rule.redirect || !(redirectArgs fs).isEmpty
    redirectCode := ((redirectArgs fs).getLast?.map (·.getD ngxHttpMovedTemporarily)).getD
      rule.redirectCode
    chain := rule.chain || decide (.chain ∈ fs)
    qsa := rule.qsa || decide (.qsa ∈ fs)
    envVars := (fs.filterMap RuleFlag.envOf).foldl ngxArrayPush rule.envVars }

/-- The last R flag leaves what it asks for: a code that fits an `ngx_int_t`, or, without a
code, the 302 that is there already. -/
def RedirectDecodes (fs : List RuleFlag) (rule : RewriteRule) : Prop :=
  match (redirectArgs fs).getLast? with
  | none => True
  | some (some code) => code ≤ ngxMaxInt
  | some none =>
      match (redirectArgs fs).reduceOption.getLast? with
      | none => rule.redirect = true ∧ rule.redirectCode = ngxHttpMovedTemporarily
      | some code => code = ngxHttpMovedTemporarily ∨ ngxMaxInt < code

section Decimal

theorem decimal_eq (n : Nat) :
    decimal n =
      if n < 10 then [ch n.digitChar] else decimal (n / 10) ++ [ch (n % 10).digitChar] := by
  unfold decimal
  rw [Nat.toDigits_eq_if (by decide)]
  split <;> simp

theorem decimal_ne_nil (n : Nat) : decimal n ≠ [] := by
  unfold decimal
  simp

theorem mem_decimal {n : Nat} {c : UInt8} (h : c ∈ decimal n) : ∃ d < 10, c = ch d.digitChar := by
  induction n using Nat.strongRecOn with
  | ind n ih =>
      rw [decimal_eq] at h
      split at h
      · rename_i hn
        exact ⟨n, hn, List.mem_singleton.mp h⟩
      · rcases List.mem_append.mp h with h | h
        · exact ih (n / 10) (by omega) h
        · exact ⟨n % 10, Nat.mod_lt n (by decide), List.mem_singleton.mp h⟩

theorem ngxAtoiLoop_append (s t : NgxStr) (value : Nat) :
    ngxAtoiLoop (s ++ t) value = (ngxAtoiLoop s value).bind (ngxAtoiLoop t) := by
  induction s generalizing value with
  | nil => rfl
  | cons c s ih =>
      rw [List.cons_append, ngxAtoiLoop, ngxAtoiLoop]
      split
      · rfl
      · simp only
        split
        · rfl
        · exact ih _

theorem ngxAtoiLoop_digit {d : Nat} (hd : d < 10) (value : Nat) :
    ngxAtoiLoop [ch d.digitChar] value =
      if value * 10 + d ≤ ngxMaxInt then some (value * 10 + d) else none := by
  have hdigits : ∀ d, d < 10 → ¬ (ch d.digitChar < ch '0' ∨ ch '9' < ch d.digitChar) ∧
      (ch d.digitChar - ch '0').toNat = d := by decide
  obtain ⟨hrange, hvalue⟩ := hdigits d hd
  rw [ngxAtoiLoop, if_neg hrange]
  simp only [hvalue, ngxAtoiLoop]
  have hmax : ngxMaxInt = 0x7FFFFFFFFFFFFFFF := rfl
  by_cases hfits : value * 10 + d ≤ ngxMaxInt
  · rw [if_pos hfits, if_neg (by omega)]
  · rw [if_neg hfits, if_pos (by omega)]

theorem ngxAtoi_decimal (n : Nat) :
    ngxAtoi (decimal n) = if n ≤ ngxMaxInt then some n else none := by
  rw [ngxAtoi, if_neg (decimal_ne_nil n)]
  induction n using Nat.strongRecOn with
  | ind n ih =>
      have hmax : ngxMaxInt = 0x7FFFFFFFFFFFFFFF := rfl
      rw [decimal_eq]
      by_cases hn : n < 10
      · rw [if_pos hn, ngxAtoiLoop_digit hn]
        simp
      · rw [if_neg hn, ngxAtoiLoop_append, ih (n / 10) (by omega)]
        have hvalue : n / 10 * 10 + n % 10 = n := Nat.div_add_mod' n 10
        by_cases hfits : n ≤ ngxMaxInt
        · rw [if_pos (by omega), Option.bind_some,
            ngxAtoiLoop_digit (Nat.mod_lt n (by decide)), hvalue]
        · rw [if_neg hfits]
          by_cases htens : n / 10 ≤ ngxMaxInt
          · rw [if_pos htens, Option.bind_some, ngxAtoiLoop_digit (Nat.mod_lt n (by decide)),
              hvalue, if_neg hfits]
          · rw [if_neg htens, Option.bind_none]

end Decimal

section Apply
variable (rule : RewriteRule)

/-- The code that the parser takes from the argument of an R flag. -/
def statusCode (code : Nat) : Nat := if code ≤ ngxMaxInt then code else ngxHttpMovedTemporarily

theorem applyRuleFlag_redirectTo (code : Nat) :
    applyRuleFlag (RuleFlag.redirectTo code).text rule =
      { rule with redirect := true, redirectCode := statusCode code } := by
  have hend := ngxStrncasecmpEq_prefix_false (lit "R=") (decimal code) (lit "END") (n := 3)
    (by decide) (by decide)
  have hnocase := ngxStrncasecmpEq_prefix_false (lit "R=") (decimal code) (lit "NC") (n := 2)
    (by decide) (by decide)
  have hredirect : ngxStrncasecmpEq (lit "R=" ++ decimal code) (lit "R") 1 = true := by
    rw [ngxStrncasecmpEq_append _ _ _ (by decide)]
    decide
  have hlast : ¬ lit "R=" ++ decimal code = lit "L" := fun h => by
    cases congrArg List.head? h
  have hlength : 2 ≤ (lit "R=" ++ decimal code).length := by
    rw [List.length_append]
    exact Nat.le_add_right 2 _
  have hsplit : ngxStrlchr (lit "R=" ++ decimal code) (ch '=') = some (lit "R", decimal code) :=
    ngxStrlchr_append (lit "R") (decimal code) (by decide)
  have hcode : (ngxAtoi (decimal code)).getD ngxHttpMovedTemporarily = statusCode code := by
    rw [ngxAtoi_decimal, statusCode]
    split <;> rfl
  rw [RuleFlag.text, applyRuleFlag]
  simp only [hlast, hend, hnocase, hlength, hredirect, hsplit, hcode, Bool.false_eq_true,
    and_false, and_self, if_false, if_true]

theorem applyRuleFlag_env (name value : NgxStr) (hname : ch ',' ∉ name)
    (hvalue : ∀ c ∈ value, c ∉ [ch ',', ch ' ', ch '[', ch ']']) :
    applyRuleFlag (RuleFlag.env name value hname hvalue).text rule =
      { rule with envVars := ngxArrayPush rule.envVars (name ++ ch ':' :: value) } := by
  generalize hrest : name ++ ch ':' :: value = rest
  have hlast : ¬ lit "E=" ++ rest = lit "L" := fun h => by cases congrArg List.head? h
  have hchain : ¬ lit "E=" ++ rest = lit "C" := fun h => by cases congrArg List.head? h
  have hend := ngxStrncasecmpEq_prefix_false (lit "E=") rest (lit "END") (n := 3)
    (by decide) (by decide)
  have hnocase := ngxStrncasecmpEq_prefix_false (lit "E=") rest (lit "NC") (n := 2)
    (by decide) (by decide)
  have hqsa := ngxStrncasecmpEq_prefix_false (lit "E=") rest (lit "QSA") (n := 3)
    (by decide) (by decide)
  have hredirect : ngxStrncasecmpEq (lit "E=" ++ rest) (lit "R") 1 = false := by
    rw [ngxStrncasecmpEq_append _ _ _ (by decide)]
    decide
  have henv : ngxStrncasecmpEq (lit "E=" ++ rest) (lit "E=") 2 = true := by
    rw [ngxStrncasecmpEq_append _ _ _ (by decide)]
    decide
  have hlength : 2 ≤ (lit "E=" ++ rest).length := by
    rw [List.length_append]
    exact Nat.le_add_right 2 _
  rw [RuleFlag.text, hrest, applyRuleFlag]
  simp only [hlast, hchain, hend, hnocase, hqsa, hredirect, henv, hlength, Bool.false_eq_true,
    and_false, and_self, if_false, if_true]
  rfl

/-- The rule that the parser makes of a list of flags: a bare R is passed over. -/
def parsedFlags (fs : List RuleFlag) (rule : RewriteRule) : RewriteRule :=
  { decodedFlags fs rule with
    redirect := rule.redirect || !(redirectArgs fs).reduceOption.isEmpty
    redirectCode := ((redirectArgs fs).reduceOption.getLast?.map statusCode).getD
      rule.redirectCode }

/-- What the parser does on one flag. -/
def parsedFlag (rule : RewriteRule) : RuleFlag → RewriteRule
  | .last => { rule with last := true }
  | .endFlag => { rule with endFlag := true }
  | .nocase => { rule with nocase := true }
  | .redirect => rule
  | .redirectTo code => { rule with redirect := true, redirectCode := statusCode code }
  | .chain => { rule with chain := true }
  | .qsa => { rule with qsa := true }
  | .env name value _ _ =>
      { rule with envVars := ngxArrayPush rule.envVars (name ++ ch ':' :: value) }

theorem applyRuleFlag_text (f : RuleFlag) : applyRuleFlag f.text rule = parsedFlag rule f := by
  cases f with
  | redirectTo code => exact applyRuleFlag_redirectTo rule code
  | env name value hname hvalue => exact applyRuleFlag_env rule name value hname hvalue
  | _ => rfl

theorem redirectArgs_cons (f : RuleFlag) (fs : List RuleFlag) :
    redirectArgs (f :: fs) = f.redirectArg.toList ++ redirectArgs fs := by
  cases f <;> rfl

theorem parsedFlags_cons (f : RuleFlag) (fs : List RuleFlag) :
    parsedFlags fs (parsedFlag rule f) = parsedFlags (f :: fs) rule := by
  unfold parsedFlags decodedFlags
  rw [redirectArgs_cons]
  generalize redirectArgs fs = args
  cases f with
  | redirectTo code =>
      simp only [RuleFlag.redirectArg, Option.toList_some, List.singleton_append,
        List.reduceOption_cons_of_some, List.getLast?_cons]
      cases args.reduceOption.getLast? <;>
        simp [parsedFlag, List.filterMap_cons, RuleFlag.envOf]
  | _ =>
      simp [parsedFlag, List.filterMap_cons, RuleFlag.redirectArg, RuleFlag.envOf,
        List.reduceOption_cons_of_none]

/-- Flag by flag the parser makes that rule. -/
theorem foldl_applyRuleFlag (fs : List RuleFlag) :
    fs.foldl (fun rule f => applyRuleFlag f.text rule) rule = parsedFlags fs rule := by
  induction fs generalizing rule with
  | nil => simp [parsedFlags, decodedFlags, redirectArgs, List.reduceOption]
  | cons f fs ih => rw [List.foldl_cons, ih, applyRuleFlag_text, parsedFlags_cons]

theorem parsedFlags_eq_iff (fs : List RuleFlag) :
    parsedFlags fs rule = decodedFlags fs rule ↔ RedirectDecodes fs rule := by
  have hfields : parsedFlags fs rule = decodedFlags fs rule ↔
      (parsedFlags fs rule).redirect = (decodedFlags fs rule).redirect ∧
        (parsedFlags fs rule).redirectCode = (decodedFlags fs rule).redirectCode := by
    constructor
    · exact fun h => ⟨congrArg _ h, congrArg _ h⟩
    · rintro ⟨hredirect, hcode⟩
      unfold parsedFlags decodedFlags at hredirect hcode ⊢
      simp only at hredirect hcode ⊢
      rw [hredirect, hcode]
  have hmax : ngxMaxInt = 0x7FFFFFFFFFFFFFFF := rfl
  have hfound : ngxHttpMovedTemporarily = 302 := rfl
  have hfilled : ∀ {α : Type} (l : List α) (a : α), (l ++ [a]).isEmpty = false := by
    intro α l a
    cases l <;> rfl
  rw [hfields]
  unfold parsedFlags decodedFlags RedirectDecodes statusCode
  generalize redirectArgs fs = args
  rcases List.eq_nil_or_concat args with rfl | ⟨init, arg, rfl⟩
  · simp
  · rw [List.concat_eq_append, List.getLast?_concat, List.reduceOption_append]
    cases arg with
    | some code =>
        have hone : [some code].reduceOption = [code] := rfl
        rw [hone, List.getLast?_concat]
        by_cases hcode : code ≤ ngxMaxInt
        · simp [hcode, hfilled]
        · simp only [hcode, hfilled, Option.map_some, Option.getD_some, if_false, iff_false]
          omega
    | none =>
        have hnone : [(none : Option Nat)].reduceOption = [] := rfl
        rw [hnone, List.append_nil]
        rcases List.eq_nil_or_concat init.reduceOption with hcodes | ⟨codes, code, hcodes⟩
        · simp [hcodes]
        · rw [hcodes, List.concat_eq_append, List.getLast?_concat]
          simp only [hfilled, Option.map_some, Option.getD_some, Option.getD_none, true_and]
          by_cases hcode : code ≤ ngxMaxInt
          · rw [if_pos hcode]
            omega
          · rw [if_neg hcode]
            omega

end Apply

section Split

/-- What the loop makes of one part between commas. -/
def applyPart (rule : RewriteRule) (part : NgxStr) : RewriteRule :=
  if trimRuleFlag part = [] then rule else applyRuleFlag (trimRuleFlag part) rule

/-- The loop makes `out` of the rest of a list, given enough fuel. -/
def FlagsTo (p : NgxStr) (rule out : RewriteRule) : Prop :=
  ∀ fuel, p.length ≤ fuel → htaccessParseRuleFlagsLoop fuel p rule = out

variable {rule out : RewriteRule} {p part rest : NgxStr}

theorem flagsTo_nil : FlagsTo [] rule rule := by
  intro fuel _
  cases fuel <;> rfl

theorem flagsTo_skip {c : UInt8} (hc : c = ch ',' ∨ c = ch ' ') (h : FlagsTo p rule out) :
    FlagsTo (c :: p) rule out := by
  intro fuel hfuel
  have hrest := h fuel (Nat.le_of_succ_le hfuel)
  cases fuel with
  | zero => cases hfuel
  | succ fuel =>
      rw [htaccessParseRuleFlagsLoop] at hrest ⊢
      rw [List.dropWhile_cons_of_pos (by simpa using hc)]
      exact hrest

theorem trimRuleFlag_lead {c : UInt8} (hc : c = ch ' ' ∨ c = ch '[') (part : NgxStr) :
    trimRuleFlag (c :: part) = trimRuleFlag part := by
  unfold trimRuleFlag
  rw [List.dropWhile_cons_of_pos (by simpa using hc)]

theorem part_stops (hrest : rest = [] ∨ rest.head? = some (ch ',')) :
    rest.takeWhile (· ≠ ch ',') = [] ∧ rest.dropWhile (· ≠ ch ',') = rest := by
  rcases hrest with rfl | hrest
  · exact ⟨rfl, rfl⟩
  · cases rest with
    | nil => exact ⟨rfl, rfl⟩
    | cons d rest =>
        injection hrest with hd
        simp [hd]

theorem flagsTo_part (hpart : ch ',' ∉ part) (hrest : rest = [] ∨ rest.head? = some (ch ','))
    (h : FlagsTo rest (applyPart rule part) out) : FlagsTo (part ++ rest) rule out := by
  induction part generalizing rule with
  | nil => exact h
  | cons c part ih =>
      obtain ⟨hc, hpart⟩ := not_or.mp (mt List.mem_cons.mpr hpart)
      by_cases hblank : c = ch ' '
      · have htrim : applyPart rule (c :: part) = applyPart rule part := by
          unfold applyPart
          rw [trimRuleFlag_lead (.inl hblank)]
        rw [htrim] at h
        exact flagsTo_skip (.inr hblank) (ih hpart h)
      · intro fuel hfuel
        cases fuel with
        | zero => cases hfuel
        | succ fuel =>
            have hall : ∀ x ∈ c :: part, decide (x ≠ ch ',') = true := by
              intro x hx
              refine decide_eq_true fun heq => ?_
              rcases List.mem_cons.mp hx with rfl | hx
              · exact hc heq.symm
              · exact hpart (heq ▸ hx)
            have hstop := part_stops hrest
            have hkeep : (c :: (part ++ rest)).dropWhile (fun c => c = ch ',' || c = ch ' ') =
                c :: (part ++ rest) := by
              rw [List.dropWhile_cons_of_neg]
              simpa using ⟨fun heq => hc heq.symm, hblank⟩
            have hshort : rest.length ≤ fuel := by
              rw [List.cons_append, List.length_cons, List.length_append] at hfuel
              omega
            rw [List.cons_append, htaccessParseRuleFlagsLoop, hkeep]
            simp only
            rw [← List.cons_append, List.takeWhile_append_of_pos hall,
              List.dropWhile_append_of_pos hall, hstop.1, hstop.2, List.append_nil]
            exact h fuel hshort

end Split

section Text
variable (f : RuleFlag)

theorem digit_plain {c : UInt8} {n : Nat} (h : c ∈ decimal n) :
    c ∉ [ch ',', ch ' ', ch '[', ch ']'] := by
  obtain ⟨d, hd, rfl⟩ := mem_decimal h
  have hall : ∀ d, d < 10 → ch d.digitChar ∉ [ch ',', ch ' ', ch '[', ch ']'] := by decide
  exact hall d hd

theorem RuleFlag.comma_not_mem_text : ch ',' ∉ f.text := by
  have hsep : ch ',' ∈ [ch ',', ch ' ', ch '[', ch ']'] := List.mem_cons_self
  cases f with
  | redirectTo code =>
      rw [text, List.mem_append, not_or]
      exact ⟨by decide, fun h => digit_plain h hsep⟩
  | env name value hname hvalue =>
      rw [text, List.mem_append, List.mem_append, List.mem_cons, not_or, not_or, not_or]
      exact ⟨by decide, hname, by decide, fun h => hvalue _ h hsep⟩
  | _ => decide

theorem RuleFlag.text_head :
    ∃ c rest, f.text = c :: rest ∧ ¬ (c = ch ' ' ∨ c = ch '[') := by
  cases f with
  | redirectTo code => exact ⟨ch 'R', ch '=' :: decimal code, rfl, by decide⟩
  | env name value hname hvalue =>
      exact ⟨ch 'E', ch '=' :: (name ++ ch ':' :: value), rfl, by decide⟩
  | _ => exact ⟨_, _, rfl, by decide⟩

theorem RuleFlag.text_last :
    ∃ init c, f.text = init ++ [c] ∧ ¬ (c = ch ' ' ∨ c = ch ']') := by
  have hplain : ∀ {c : UInt8}, c ∉ [ch ',', ch ' ', ch '[', ch ']'] →
      ¬ (c = ch ' ' ∨ c = ch ']') := by
    intro c hc
    simp only [List.mem_cons, List.not_mem_nil, or_false, not_or] at hc
    exact fun h => h.elim hc.2.1 hc.2.2.2
  cases f with
  | last => exact ⟨[], ch 'L', rfl, by decide⟩
  | endFlag => exact ⟨lit "EN", ch 'D', rfl, by decide⟩
  | nocase => exact ⟨lit "N", ch 'C', rfl, by decide⟩
  | redirect => exact ⟨[], ch 'R', rfl, by decide⟩
  | chain => exact ⟨[], ch 'C', rfl, by decide⟩
  | qsa => exact ⟨lit "QS", ch 'A', rfl, by decide⟩
  | redirectTo code =>
      rcases List.eq_nil_or_concat (decimal code) with hnil | ⟨init, c, hdigits⟩
      · exact absurd hnil (decimal_ne_nil code)
      · rw [List.concat_eq_append] at hdigits
        refine ⟨lit "R=" ++ init, c, by rw [text, hdigits, List.append_assoc], ?_⟩
        exact hplain (digit_plain (n := code) (by rw [hdigits]; simp))
  | env name value hname hvalue =>
      rcases List.eq_nil_or_concat value with rfl | ⟨init, c, rfl⟩
      · exact ⟨lit "E=" ++ name, ch ':', by rw [text, List.append_assoc], by decide⟩
      · refine ⟨lit "E=" ++ (name ++ ch ':' :: init), c, ?_, hplain (hvalue c (by simp))⟩
        rw [text, List.concat_eq_append, List.append_assoc, List.append_assoc, List.cons_append]

theorem trimRuleFlag_text {lead tail : NgxStr} (hlead : ∀ c ∈ lead, c = ch ' ' ∨ c = ch '[')
    (htail : ∀ c ∈ tail, c = ch ' ' ∨ c = ch ']') :
    trimRuleFlag (lead ++ (f.text ++ tail)) = f.text := by
  have hdrop : (lead ++ (f.text ++ tail)).dropWhile (fun c => c = ch ' ' || c = ch '[') =
      f.text ++ tail := by
    obtain ⟨c, rest, htext, hc⟩ := f.text_head
    rw [List.dropWhile_append_of_pos (by simpa using hlead), htext, List.cons_append,
      List.dropWhile_cons_of_neg (by simpa using hc)]
  obtain ⟨init, c, htext, hc⟩ := f.text_last
  rw [trimRuleFlag, hdrop, List.rdropWhile, List.reverse_append,
    List.dropWhile_append_of_pos (by simpa using htail), htext, List.reverse_concat,
    List.dropWhile_cons_of_neg (by simpa using hc), ← List.reverse_concat, List.reverse_reverse]

end Text

section List
variable {rule : RewriteRule}

theorem applyPart_text (f : WrittenFlag) {lead tail : NgxStr}
    (hlead : ∀ c ∈ lead, c = ch ' ' ∨ c = ch '[') (htail : ∀ c ∈ tail, c = ch ' ' ∨ c = ch ']') :
    applyPart rule (lead ++ (f.text ++ tail)) = applyRuleFlag f.flag.text rule := by
  have hsplit : lead ++ (f.text ++ tail) = (lead ++ List.replicate f.before (ch ' ')) ++
      (f.flag.text ++ (List.replicate f.after (ch ' ') ++ tail)) := by
    unfold WrittenFlag.text
    simp only [List.append_assoc]
  have hlead' : ∀ c ∈ lead ++ List.replicate f.before (ch ' '), c = ch ' ' ∨ c = ch '[' := by
    intro c hc
    rcases List.mem_append.mp hc with hc | hc
    · exact hlead c hc
    · exact .inl (List.eq_of_mem_replicate hc)
  have htail' : ∀ c ∈ List.replicate f.after (ch ' ') ++ tail, c = ch ' ' ∨ c = ch ']' := by
    intro c hc
    rcases List.mem_append.mp hc with hc | hc
    · exact .inl (List.eq_of_mem_replicate hc)
    · exact htail c hc
  obtain ⟨c, rest, htext, _⟩ := f.flag.text_head
  have hne : f.flag.text ≠ [] := by
    rw [htext]
    exact List.cons_ne_nil c rest
  rw [applyPart, hsplit, trimRuleFlag_text _ hlead' htail', if_neg hne]

theorem WrittenFlag.comma_not_mem_text (f : WrittenFlag) : ch ',' ∉ f.text := by
  have hblank : ∀ n, ch ',' ∉ List.replicate n (ch ' ') := fun n h =>
    absurd (List.eq_of_mem_replicate h) (by decide)
  rw [WrittenFlag.text, List.mem_append, List.mem_append, not_or, not_or]
  exact ⟨hblank _, f.flag.comma_not_mem_text, hblank _⟩

theorem flagsTo_list (f : WrittenFlag) (fs : List WrittenFlag) {lead : NgxStr}
    (hlead : ∀ c ∈ lead, c = ch ' ' ∨ c = ch '[') :
    FlagsTo (lead ++ ((lit ",").intercalate ((f :: fs).map WrittenFlag.text) ++ [ch ']'])) rule
      (((f :: fs).map WrittenFlag.flag).foldl (fun rule f => applyRuleFlag f.text rule) rule) := by
  have hcomma : ch ',' ∉ lead := fun h => (hlead _ h).elim (by decide) (by decide)
  induction fs generalizing f lead rule with
  | nil =>
      have hpart : ch ',' ∉ lead ++ (f.text ++ [ch ']']) := by
        rw [List.mem_append, List.mem_append, not_or, not_or]
        exact ⟨hcomma, f.comma_not_mem_text, by decide⟩
      have hone : FlagsTo (lead ++ (f.text ++ [ch ']']) ++ []) rule
          (applyPart rule (lead ++ (f.text ++ [ch ']']))) :=
        flagsTo_part hpart (.inl rfl) flagsTo_nil
      rw [List.append_nil, applyPart_text f hlead (by simp)] at hone
      simpa using hone
  | cons g fs ih =>
      have hpart : ch ',' ∉ lead ++ (f.text ++ []) := by
        rw [List.append_nil, List.mem_append, not_or]
        exact ⟨hcomma, f.comma_not_mem_text⟩
      have hrest := flagsTo_skip (.inl rfl)
        (@ih (applyRuleFlag f.flag.text rule) g [] (List.forall_mem_nil _) List.not_mem_nil)
      have hjoin : lead ++
            ((lit ",").intercalate ((f :: g :: fs).map WrittenFlag.text) ++ [ch ']']) =
          lead ++ (f.text ++ []) ++ ch ',' ::
            ([] ++ ((lit ",").intercalate ((g :: fs).map WrittenFlag.text) ++ [ch ']'])) := by
        rw [List.map_cons, List.map_cons, List.intercalate_cons_cons]
        simp only [List.append_assoc, List.append_nil, List.nil_append]
        rfl
      rw [hjoin]
      refine flagsTo_part hpart (.inr rfl) ?_
      rw [applyPart_text f hlead (List.forall_mem_nil _)]
      exact hrest

end List

/-- A written flag list is decoded to the rule that has the fields of its flags set exactly
when its last R flag, if any, has a code, or finds the redirect to 302 set without it. -/
theorem rule_flags_iff (fs : List WrittenFlag) (rule : RewriteRule) :
    htaccessParseRuleFlags (ruleFlagList fs) rule = decodedFlags (fs.map WrittenFlag.flag) rule ↔
      RedirectDecodes (fs.map WrittenFlag.flag) rule := by
  rw [← parsedFlags_eq_iff, ← foldl_applyRuleFlag]
  have hparse : htaccessParseRuleFlags (ruleFlagList fs) rule =
      (fs.map WrittenFlag.flag).foldl (fun rule f => applyRuleFlag f.text rule) rule := by
    cases fs with
    | nil => rfl
    | cons f fs =>
        have hlead : ∀ c ∈ lit "[", c = ch ' ' ∨ c = ch '[' := fun c hc =>
          .inr (List.mem_singleton.mp hc)
        exact flagsTo_list f fs hlead _ (le_refl _)
  rw [hparse]

def bareRule : RewriteRule where
  pattern := lit "old"
  substitution := lit "/new"

/-- `[R]` is decoded to no redirect. -/
theorem bare_redirect_lost :
    htaccessParseRuleFlags (ruleFlagList [⟨.redirect, 0, 0⟩]) bareRule ≠
      decodedFlags [.redirect] bareRule := by
  decide

end NgxHtaccess
