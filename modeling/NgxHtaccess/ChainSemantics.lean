import NgxHtaccess.AlikeLists
import NgxHtaccess.RuleScan

/-!
The C flag. One flag of the engine is shared by all rules of all directories, and a rule is
marked as chained when its directory is merged; a marked rule is attempted exactly when the
rule in front of it was attempted and matched.
-/
namespace NgxHtaccess
open BoundedLoop Scan

/-- The rule goes on to be compiled. -/
def Attempts (rule : RewriteRule) (s : RewriteState) : Prop :=
  ¬ (rule.chainIn && !s.chainActive) = true

/-- No rule of the directives is marked as chained yet. -/
def Unmarked (ds : List Directive) : Prop :=
  ∀ d ∈ ds, ∀ rule ∈ d.ruleOf, rule.chainIn = false

section Parse
variable (sys : Sys) (pool : PoolId)

theorem applyRuleFlag_chainIn (part : NgxStr) (rule : RewriteRule) :
    (applyRuleFlag part rule).chainIn = rule.chainIn := by
  unfold applyRuleFlag
  split_ifs <;> rfl

theorem htaccessParseRuleFlags_chainIn (flags : NgxStr) (rule : RewriteRule) :
    (htaccessParseRuleFlags flags rule).chainIn = rule.chainIn := by
  unfold htaccessParseRuleFlags
  generalize flags.length = fuel
  induction fuel generalizing flags rule with
  | zero => rfl
  | succ fuel ih =>
      rw [htaccessParseRuleFlagsLoop]
      split
      · rfl
      · rw [ih]
        split
        · rfl
        · exact applyRuleFlag_chainIn _ _

theorem directiveData_unmarked {id : DirectiveId} {args : List NgxStr}
    {conds : Option (List RewriteCond)} {rule : RewriteRule}
    (h : directiveData sys pool id args conds = some (.rewriteRule rule)) :
    rule.chainIn = false := by
  have hid : DirectiveId.rewriteRule = id := directiveData_id sys pool h
  subst hid
  simp only [directiveData] at h
  split at h
  · injection h with h
    injection h with h
    rw [← h]
    split
    · rfl
    · exact htaccessParseRuleFlags_chainIn _ _
  · cases h

theorem parseLine_unmarked {st st' : ParserState} {line : List NgxStr}
    (hst : Unmarked st.directives) (h : parseLine sys pool st line = some st') :
    Unmarked st'.directives := by
  rcases parseLine_adds sys pool h with hsame | ⟨_, _, id, d, _, _, hdata, hpush⟩
  · rw [hsame]
    exact hst
  · rw [hpush]
    intro d' hd' rule hrule
    rcases List.mem_append.mp hd' with hd' | hd'
    · exact hst d' hd' rule hrule
    · rw [List.mem_singleton.mp hd'] at hrule
      unfold Directive.ruleOf at hrule
      split at hrule
      · rename_i hu
        cases hrule
        rw [hu] at hdata
        exact directiveData_unmarked sys pool hdata
      · cases hrule

/-- The parser marks no rule: the marks are made when a file is merged. -/
theorem htaccessParse_unmarked {text : NgxStr} {file : ParsedFile}
    (h : htaccessParse sys pool text = some file) : Unmarked file.directives := by
  have hrun : ∀ (lines : List (List NgxStr)) (st st' : ParserState), Unmarked st.directives →
      parseLines sys pool lines st = some st' → Unmarked st'.directives := by
    intro lines
    induction lines with
    | nil =>
        intro st st' hst hlines
        cases hlines
        exact hst
    | cons line lines ih =>
        intro st st' hst hlines
        rw [parseLines_cons] at hlines
        obtain ⟨mid, hline, hrest⟩ := Option.bind_eq_some_iff.mp hlines
        exact ih mid st' (parseLine_unmarked sys pool hst hline) hrest
  rw [htaccessParse_lexed] at h
  split at h
  · obtain ⟨st, hst, rfl⟩ := Option.map_eq_some_iff.mp h
    have hinitial : Unmarked ParserState.initial.directives := fun d hd => by cases hd
    exact hrun _ _ st hinitial hst
  · cases h

end Parse

section Marks

theorem markRules_eq_append {chained : Bool} {rules earlier later : List RewriteRule}
    {rule : RewriteRule} (h : markRules chained rules = earlier ++ rule :: later) :
    ∃ raw ∈ rules, rule.chainIn =
      (raw.chainIn || (earlier.getLast?.map RewriteRule.chain).getD chained) := by
  induction rules generalizing chained earlier with
  | nil => cases earlier <;> cases h
  | cons raw rules ih =>
      rw [markRules] at h
      cases earlier with
      | nil =>
          injection h with h _
          exact ⟨raw, List.mem_cons_self, h ▸ rfl⟩
      | cons first earlier =>
          injection h with hfirst hrest
          obtain ⟨raw', hmem, hmark⟩ := ih hrest
          refine ⟨raw', List.mem_cons_of_mem _ hmem, ?_⟩
          rw [hmark, ← hfirst, List.getLast?_cons]
          cases earlier.getLast? <;> rfl

theorem chainIn_of_merged {f : ChainFile} (hplain : Unmarked f.directives)
    {earlier later : List RewriteRule} {rule : RewriteRule}
    (h : f.dirCtx.rules = earlier ++ rule :: later) :
    rule.chainIn = (earlier.getLast?.map RewriteRule.chain).getD false := by
  have hfresh : (DirCtx.fresh f.dir).rules = markRules false [] := rfl
  have hmerged : f.dirCtx.rules = _ := foldl_mergeLocal_rules f.directives hfresh
  rw [List.nil_append] at hmerged
  obtain ⟨raw, hraw, hmark⟩ := markRules_eq_append (hmerged.symm.trans h)
  obtain ⟨d, hd, hrule⟩ := List.mem_filterMap.mp hraw
  rw [hmark, hplain d hd raw hrule, Bool.false_or]

end Marks

section Step
variable {sys : Sys} {conf : LocConf} {dir : DirCtx} {rule : RewriteRule} {s t : RewriteState}

theorem applyMatchedRule_next {m : MatchCtx} (hchain : rule.chain = true)
    (hactive : s.chainActive = true) (h : applyMatchedRule sys dir rule s m = .next t) :
    t.chainActive = true := by
  unfold applyMatchedRule at h
  split at h
  · split at h
    · cases h
    · cases h
      exact hactive
  · split at h
    · cases h
    · split at h
      · cases h
        exact hactive
      · -- a chained rule gets here only by L or END, on which the engine returns
        rename_i hends
        have hstops : (rule.last || rule.endFlag) = true := by
          rw [hchain] at hends
          cases hlast : rule.last <;> cases hend : rule.endFlag <;> simp_all
        simp only [hstops, if_true] at h
        split at h <;> cases h

/-- When the engine goes on after a chained rule, its flag says whether the rule matched. -/
theorem chainActive_of_next (hchain : rule.chain = true)
    (h : tryRule sys conf dir rule s = .next t) :
    t.chainActive = (ruleMatch sys conf dir rule s).isSome := by
  cases hm : ruleMatch sys conf dir rule s with
  | some m =>
      rw [tryRule_of_match sys conf dir rule s hm] at h
      refine applyMatchedRule_next hchain ?_ h
      rw [matchedState, hchain]
      rfl
  | none =>
      have hfailed : (s.ruleFailed rule).chainActive = false := by
        rw [RewriteState.ruleFailed, if_pos hchain]
      unfold ruleMatch at hm
      unfold tryRule at h
      split at h
      · rename_i hskip
        cases h
        rw [Bool.and_eq_true, Bool.not_eq_true'] at hskip
        exact hskip.2
      · rename_i hskip
        rw [if_neg hskip] at hm
        split at h
        · cases h
          exact hfailed
        · rename_i hcompile
          rw [if_neg hcompile] at hm
          split at h
          · cases h
            exact hfailed
          · rename_i hconds
            rw [if_neg hconds] at hm
            simp only at h hm
            split at h
            · cases h
              exact hfailed
            · cases h
            · rename_i hexec
              rw [hexec] at hm
              cases hm

end Step

section Run
variable (sys : Sys) (conf : LocConf) (r : Request) (state : RequestState)

/-- A pass of the engine gets through the directories `before` and the rules `earlier` of the
next one, whose engine is on, and is left in the state `s` for the rule behind them. -/
structure ReachesRule (before : List DirCtx) (dir : DirCtx) (earlier : List RewriteRule)
    (s : RewriteState) : Prop where
  engine : dir.rewriteEngine = true
  scanned : scan (ruleStep sys conf) (scannedRules before ++ earlier.map (Prod.mk dir))
    (rewriteStart sys r state) = .again s

variable {sys conf r state} {before after : List DirCtx} {dir : DirCtx}
  {earlier later : List RewriteRule} {rule : RewriteRule} {s : RewriteState}

theorem ReachesRule.scan_rest (h : ReachesRule sys conf r state before dir earlier s)
    {merged : MergedCtx} (hdirs : merged.dirs = before ++ dir :: after)
    (hrules : dir.rules = earlier ++ rule :: later) :
    scan (ruleStep sys conf) (scannedRules merged.dirs) (rewriteStart sys r state) =
      scan (ruleStep sys conf) ((rule :: later).map (Prod.mk dir) ++ scannedRules after) s := by
  have hsplit : scannedRules merged.dirs =
      (scannedRules before ++ earlier.map (Prod.mk dir)) ++
        ((rule :: later).map (Prod.mk dir) ++ scannedRules after) := by
    simp only [scannedRules, hdirs, List.flatMap_append, List.flatMap_cons, h.engine, if_true,
      hrules, List.map_append, List.append_assoc]
  rw [hsplit, scan_append, h.scanned]

theorem ReachesRule.of_concat {prev : RewriteRule}
    (h : ReachesRule sys conf r state before dir (earlier ++ [prev]) s) :
    ∃ t, ReachesRule sys conf r state before dir earlier t ∧
      tryRule sys conf dir prev t = .next s := by
  have hscan := h.scanned
  rw [List.map_append, ← List.append_assoc, scan_append] at hscan
  split at hscan
  · rename_i t ht
    refine ⟨t, ⟨h.engine, ht⟩, ?_⟩
    rw [List.map_cons, List.map_nil, scan, ruleStep] at hscan
    cases htry : tryRule sys conf dir prev t with
    | next u =>
        rw [htry] at hscan
        injection hscan with hu
        rw [hu]
    | result v u =>
        rw [htry] at hscan
        cases hscan
  · cases hscan

theorem ReachesRule.unique {t : RewriteState}
    (h : ReachesRule sys conf r state before dir earlier s)
    (h' : ReachesRule sys conf r state before dir earlier t) : s = t := by
  have hscan := h.scanned.symm.trans h'.scanned
  injection hscan

/-- A rule behind another of its directory is attempted when that one has no C flag or was
attempted and matched. -/
theorem ReachesRule.attempts_iff {init : List RewriteRule} {prev : RewriteRule}
    (h : ReachesRule sys conf r state before dir (init ++ [prev]) s)
    (hmark : rule.chainIn = prev.chain) :
    Attempts rule s ↔
      ∃ t, ReachesRule sys conf r state before dir init t ∧
        (prev.chain = false ∨ (ruleMatch sys conf dir prev t).isSome = true) := by
  obtain ⟨t, ht, htry⟩ := h.of_concat
  unfold Attempts
  rw [hmark]
  constructor
  case mp =>
    intro hattempt
    refine ⟨t, ht, ?_⟩
    cases hchain : prev.chain with
    | false => exact .inl rfl
    | true =>
        rw [chainActive_of_next hchain htry, hchain] at hattempt
        cases hmatch : (ruleMatch sys conf dir prev t).isSome with
        | true => exact .inr rfl
        | false =>
            rw [hmatch] at hattempt
            exact absurd rfl hattempt
  case mpr =>
    rintro ⟨t', ht', hmatch⟩
    obtain rfl := ht.unique ht'
    rcases hmatch with hchain | hmatch
    · rw [hchain]
      simp
    · cases hchain : prev.chain with
      | false => simp
      | true =>
          rw [chainActive_of_next hchain htry, hmatch]
          simp

theorem exists_file_of_dirs {chain : List ChainFile}
    (hdirs : (mergeChain chain).dirs = before ++ dir :: after) : ∃ f ∈ chain, f.dirCtx = dir := by
  have hmerged : chain.map ChainFile.dirCtx = before ++ dir :: after := by
    rw [← hdirs, mergeChain_eq]
  rw [← List.mem_map, hmerged]
  exact List.mem_append_right _ List.mem_cons_self

variable (sys conf r state)

/-- A reached rule is attempted exactly when it is the first of its directory, or the rule in
front of it has no C flag, or that rule was attempted and matched; and with this attempt
`htaccess_apply_rewrite` goes on. -/
theorem chain_semantics (chain : List ChainFile) (hplain : ∀ f ∈ chain, Unmarked f.directives)
    {before after : List DirCtx} {dir : DirCtx} {earlier later : List RewriteRule}
    {rule : RewriteRule} {s : RewriteState}
    (hdirs : (mergeChain chain).dirs = before ++ dir :: after)
    (hrules : dir.rules = earlier ++ rule :: later)
    (hreach : ReachesRule sys conf r state before dir earlier s) :
    (Attempts rule s ↔
      earlier = [] ∨ ∃ init prev t, earlier = init ++ [prev] ∧
        ReachesRule sys conf r state before dir init t ∧
        (prev.chain = false ∨ (ruleMatch sys conf dir prev t).isSome = true)) ∧
    htaccessApplyRewrite sys conf r (mergeChain chain) state =
      match scan (ruleStep sys conf) ((rule :: later).map (Prod.mk dir) ++ scannedRules after) s with
      | .again t => (.declined, t.r, t.state)
      | .stop (v, t) => (v, t.r, t.state) := by
  refine ⟨?_, ?_⟩
  case refine_2 =>
    have hrest := hreach.scan_rest hdirs hrules
    cases hscan : scan (ruleStep sys conf) ((rule :: later).map (Prod.mk dir) ++
        scannedRules after) s <;>
      simp only [htaccessApplyRewrite_eq, hrest, hscan]
  obtain ⟨f, hf, rfl⟩ := exists_file_of_dirs hdirs
  have hmark := chainIn_of_merged (hplain f hf) hrules
  rcases List.eq_nil_or_concat earlier with rfl | ⟨init, prev, rfl⟩
  · unfold Attempts
    rw [hmark]
    simp
  · rw [List.concat_eq_append] at hmark hreach ⊢
    rw [List.getLast?_concat, Option.map_some, Option.getD_some] at hmark
    rw [hreach.attempts_iff hmark]
    constructor
    · rintro ⟨t, ht, hmatch⟩
      exact .inr ⟨init, prev, t, rfl, ht, hmatch⟩
    · rintro (hnil | ⟨init', prev', t, hsame, ht, hmatch⟩)
      · simp at hnil
      · obtain ⟨rfl, hprev⟩ := List.append_inj' hsame rfl
        injection hprev with hprev
        subst hprev
        exact ⟨t, ht, hmatch⟩

end Run

def chainedText : NgxStr :=
  lit "RewriteEngine On\nRewriteRule old - [C]\nRedirect /x /y\nRewriteRule old /new [L]\n"

/-- A chained rule, a redirect and the rule that it is chained to. -/
def chainedFile : ChainFile where
  dir := ⟨lit "/w/.htaccess", lit "/w", []⟩
  directives :=
    [⟨[], .rewriteEngine true⟩,
     ⟨[], .rewriteRule { pattern := lit "old", substitution := lit "-", chain := true }⟩,
     ⟨[], .redirect { source := lit "/x", target := lit "/y", permanent := false }⟩,
     ⟨[], .rewriteRule { pattern := lit "old", substitution := lit "/new", last := true }⟩]

theorem chainedText_parsed :
    (htaccessParse (siteSys (siteFs 0 [])) 0 chainedText).map (·.directives) =
      some chainedFile.directives := by
  decide +kernel

def chainedFirst : RewriteRule where
  pattern := lit "old"
  substitution := lit "-"
  chain := true

def chainedSecond : RewriteRule where
  pattern := lit "old"
  substitution := lit "/new"
  last := true
  chainIn := true

/-- On `/old` the second rule of the text is attempted. -/
theorem chain_semantics_second :
    ∃ s, ReachesRule (siteSys (siteFs 0 [])) (siteConf 10) (siteRequest "/old")
        (siteState "/old") [] chainedFile.dirCtx [chainedFirst] s ∧
      Attempts chainedSecond s := by
  have hmatch : (ruleMatch (siteSys (siteFs 0 [])) (siteConf 10) chainedFile.dirCtx chainedFirst
      (rewriteStart (siteSys (siteFs 0 [])) (siteRequest "/old")
        (siteState "/old"))).isSome = true := by
    decide +kernel
  obtain ⟨m, hm⟩ := Option.isSome_iff_exists.mp hmatch
  have hstart : ReachesRule (siteSys (siteFs 0 [])) (siteConf 10) (siteRequest "/old")
      (siteState "/old") [] chainedFile.dirCtx []
      (rewriteStart (siteSys (siteFs 0 [])) (siteRequest "/old") (siteState "/old")) :=
    ⟨rfl, rfl⟩
  have hreach : ReachesRule (siteSys (siteFs 0 [])) (siteConf 10) (siteRequest "/old")
      (siteState "/old") [] chainedFile.dirCtx [chainedFirst]
      (matchedState (siteSys (siteFs 0 [])) chainedFirst
        (rewriteStart (siteSys (siteFs 0 [])) (siteRequest "/old") (siteState "/old")) m) := by
    refine ⟨rfl, ?_⟩
    have htry := tryRule_of_match _ _ _ _ _ hm
    simp only [scannedRules, List.flatMap_nil, List.nil_append, List.map_cons, List.map_nil, scan,
      ruleStep, htry]
    rfl
  have hplain : ∀ f ∈ [chainedFile], Unmarked f.directives := by
    intro f hf
    obtain ⟨file, hparse, hdirectives⟩ := Option.map_eq_some_iff.mp chainedText_parsed
    rw [List.mem_singleton.mp hf, ← hdirectives]
    exact htaccessParse_unmarked _ _ hparse
  have hdirs : (mergeChain [chainedFile]).dirs = [] ++ chainedFile.dirCtx :: [] := rfl
  have hrules : chainedFile.dirCtx.rules = [chainedFirst] ++ chainedSecond :: [] := by
    decide +kernel
  have hsemantics := chain_semantics (siteSys (siteFs 0 [])) (siteConf 10) (siteRequest "/old")
    (siteState "/old") [chainedFile] hplain hdirs hrules hreach
  exact ⟨_, hreach, hsemantics.1.mpr (.inr ⟨[], chainedFirst, _, rfl, hstart, .inr hmatch⟩)⟩

end NgxHtaccess
