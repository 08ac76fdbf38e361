import NgxHtaccess.CaptureSlots
import NgxHtaccess.QueryString

/-!
Captured text in a target. The expansion puts the text of a capture into the target as it
is, and the target is split at its first question mark afterwards, so a captured question
mark opens a query string and cuts the path short.
-/
namespace NgxHtaccess

section Target
variable (sys : Sys) (dir : DirCtx) (rule : RewriteRule) (s : RewriteState) (m : MatchCtx)

/-- The pieces that the target of a matched rule is made of, once its substitution is
expanded to `sub`. -/
def targetPieces (sub : NgxStr) : List Piece :=
  if isRelativeTarget sub then
    if (htaccessExpand sys s.r s.state (htaccessApplySubstitution rule m.subject dir.rewriteBase)
        (some m)).isSome then
      templatePieces (htaccessApplySubstitution rule m.subject dir.rewriteBase)
    else (htaccessApplySubstitution rule m.subject dir.rewriteBase).map .byte
  else templatePieces rule.substitution

theorem piecesText_bytes (r : Request) (state : RequestState) (m : Option MatchCtx)
    (text : NgxStr) : piecesText sys r state m (text.map .byte) = text := by
  rw [piecesText, List.flatMap_map]
  exact List.flatMap_singleton' text

theorem ruleTarget_text {sub : NgxStr}
    (hsub : htaccessExpand sys s.r s.state rule.substitution (some m) = some sub) :
    ruleTarget sys dir rule s m sub =
      piecesText sys s.r s.state (some m) (targetPieces sys dir rule s m sub) := by
  rw [ruleTarget_eq, targetPieces]
  by_cases hrelative : isRelativeTarget sub = true
  · rw [if_pos hrelative, if_pos hrelative]
    generalize htaccessApplySubstitution rule m.subject dir.rewriteBase = out
    cases hexpand : htaccessExpand sys s.r s.state out (some m) with
    | none => exact (piecesText_bytes sys s.r s.state (some m) out).symm
    | some text => exact htaccessExpand_eq_some hexpand
  · rw [if_neg hrelative, if_neg hrelative]
    exact htaccessExpand_eq_some hsub

theorem mem_applySubstitution {rule : RewriteRule} (input : NgxStr) {base : NgxStr} {x : UInt8}
    (hdash : rule.substitution ≠ lit "-") (h : x ∈ htaccessApplySubstitution rule input base) :
    x ∈ base ∨ x ∈ rule.substitution := by
  unfold htaccessApplySubstitution at h
  rw [if_neg hdash] at h
  split at h
  · exact .inr h
  split at h
  · exact .inr h
  · exact List.mem_append.mp h

/-- The bytes of the target that are neither captured nor the value of a variable come from
the substitution and the base. -/
theorem mem_of_byte_mem_targetPieces {sub : NgxStr} {x : UInt8}
    (hdash : rule.substitution ≠ lit "-") (h : .byte x ∈ targetPieces sys dir rule s m sub) :
    x ∈ dir.rewriteBase ∨ x ∈ rule.substitution := by
  unfold targetPieces at h
  split at h
  · refine mem_applySubstitution m.subject hdash ?_
    split at h
    · exact templateScan_byte h
    · obtain ⟨y, hy, heq⟩ := List.mem_map.mp h
      cases heq
      exact hy
  · exact .inr (templateScan_byte h)

end Target

def captureFree (ps : List Piece) : List Piece := ps.filter fun piece => piece.captures = []

section Query
variable {sys : Sys} {r : Request} {state : RequestState} {m : Option MatchCtx}
  {ps : List Piece}

theorem no_query_of_pieces (hpieces : ∀ piece ∈ ps, ch '?' ∉ piece.text sys r state m) :
    ch '?' ∉ piecesText sys r state m ps := by
  intro hmem
  obtain ⟨piece, hpiece, htext⟩ := List.mem_flatMap.mp hmem
  exact hpieces piece hpiece htext

theorem applyTargetUri_args_of_no_query {target : NgxStr} (h : ch '?' ∉ target) (qsa : Bool) :
    (htaccessApplyTargetUri r state target qsa).1.args =
      if qsa = true ∧ state.queryString ≠ [] then state.queryString else [] := by
  have hargs : targetArgs target = [] := by
    rw [targetArgs, ngxStrlchr_eq_none.mpr h]
    rfl
  simp only [htaccessApplyTargetUri_mergedArgs, mergedArgs, hargs, ne_eq, not_true_eq_false,
    if_false]

theorem no_query_targetUri (target : NgxStr) : ch '?' ∉ targetUri target := by
  have hpath := not_mem_takeWhile_ne target (ch '?')
  have hslash : ch '?' ≠ ch '/' := by decide
  rw [targetUri_eq]
  split
  · exact fun hmem => (List.mem_cons.mp hmem).elim hslash hpath
  · exact hpath

theorem infix_targetUri {target : NgxStr} (h : ch '?' ∉ target) : target <:+: targetUri target := by
  rw [targetUri_eq, takeWhile_ne_of_not_mem h]
  split
  · exact (List.suffix_cons _ target).isInfix
  · exact List.infix_refl target

/-- Pieces whose other texts have no question mark are split by their captures alone. -/
theorem pieces_query_iff (qsa : Bool)
    (hfree : ∀ piece ∈ ps, piece.captures = [] → ch '?' ∉ piece.text sys r state m) :
    ((htaccessApplyTargetUri r state (piecesText sys r state m ps) qsa).1.args =
        (htaccessApplyTargetUri r state (piecesText sys r state m (captureFree ps)) qsa).1.args ∧
      ∀ d, .capture d ∈ ps → captureRef sys m d <:+:
        (htaccessApplyTargetUri r state (piecesText sys r state m ps) qsa).1.uri) ↔
    ∀ d, .capture d ∈ ps → ch '?' ∉ captureRef sys m d := by
  have huri (target : NgxStr) :
      (htaccessApplyTargetUri r state target qsa).1.uri = targetUri target := rfl
  constructor
  · rintro ⟨-, hwhole⟩ d hd hquery
    exact no_query_targetUri _ ((hwhole d hd).subset hquery)
  · intro hcaptured
    have hall : ch '?' ∉ piecesText sys r state m ps := no_query_of_pieces fun piece hpiece => by
      cases piece with
      | capture d => exact hcaptured d hpiece
      | byte c => exact hfree _ hpiece rfl
      | named name => exact hfree _ hpiece rfl
    have hrest : ch '?' ∉ piecesText sys r state m (captureFree ps) :=
      no_query_of_pieces fun piece hpiece =>
        hfree piece (List.mem_of_mem_filter hpiece) (of_decide_eq_true (List.mem_filter.mp hpiece).2)
    refine ⟨?_, fun d hd => ?_⟩
    · rw [applyTargetUri_args_of_no_query hall, applyTargetUri_args_of_no_query hrest]
    · rw [huri]
      have hpiece : captureRef sys m d <:+: piecesText sys r state m ps :=
        List.infix_of_mem_flatten (List.mem_map_of_mem hd)
      exact hpiece.trans (infix_targetUri hall)

end Query

theorem tryRule_writes {sys : Sys} {conf : LocConf} {dir : DirCtx} {rule : RewriteRule}
    {s : RewriteState} {m : MatchCtx} {sub : NgxStr}
    (hm : ruleMatch sys conf dir rule s = some m) (hwrites : rule.writesNothing = false)
    (hsub : htaccessExpand sys s.r (matchedState sys rule s m).state rule.substitution (some m) =
      some sub) :
    (tryRule sys conf dir rule s).effect =
      (if rule.last || rule.endFlag then some .ok else none,
        htaccessApplyTargetUri s.r (matchedState sys rule s m).state
          (ruleTarget sys dir rule (matchedState sys rule s m) m sub) rule.qsa) := by
  have hr : (matchedState sys rule s m).r = s.r := rfl
  simp only [RewriteRule.writesNothing, Bool.or_eq_false_iff, decide_eq_false_iff_not] at hwrites
  obtain ⟨⟨hdash, hredirect⟩, hchain⟩ := hwrites
  rw [tryRule_of_match sys conf dir rule s hm, applyMatchedRule_effect hdash, expandedTarget, hr,
    hsub, hchain, Bool.false_and, if_neg Bool.false_ne_true, Option.map_some, targetEffect,
    hredirect, if_neg Bool.false_ne_true]

/-- With no question mark in the substitution, the base and the values of the variables, a
rule leaves the arguments of a target without its captures, and the captured texts whole in
the path, exactly when no text captured into the target has a question mark. -/
theorem captured_query_iff (sys : Sys) (conf : LocConf) (dir : DirCtx) (rule : RewriteRule)
    (s t : RewriteState) (m : MatchCtx) (sub : NgxStr)
    (hm : ruleMatch sys conf dir rule s = some m) (ht : matchedState sys rule s m = t)
    (hwrites : rule.writesNothing = false)
    (hsub : htaccessExpand sys t.r t.state rule.substitution (some m) = some sub)
    (htemplate : ch '?' ∉ rule.substitution) (hbase : ch '?' ∉ dir.rewriteBase)
    (hvalues : ∀ name, .named name ∈ targetPieces sys dir rule t m sub →
      ch '?' ∉ (expandVariable t.r t.state name).getD []) :
    ((tryRule sys conf dir rule s).left.r.args =
        (htaccessApplyTargetUri t.r t.state (piecesText sys t.r t.state (some m)
          (captureFree (targetPieces sys dir rule t m sub))) rule.qsa).1.args ∧
      ∀ d, .capture d ∈ targetPieces sys dir rule t m sub →
        captureRef sys (some m) d <:+: (tryRule sys conf dir rule s).left.r.uri) ↔
    ∀ d, .capture d ∈ targetPieces sys dir rule t m sub → ch '?' ∉ captureRef sys (some m) d := by
  subst ht
  have hdash : rule.substitution ≠ lit "-" := by
    rintro heq
    simp [RewriteRule.writesNothing, heq] at hwrites
  have heffect := tryRule_writes hm hwrites hsub
  have hleft : (tryRule sys conf dir rule s).left.r = (htaccessApplyTargetUri s.r
      (matchedState sys rule s m).state (ruleTarget sys dir rule (matchedState sys rule s m) m sub)
      rule.qsa).1 := by
    have hreq := congrArg (fun e => e.2.1) heffect
    cases htry : tryRule sys conf dir rule s <;> rw [htry] at hreq <;> exact hreq
  rw [hleft, ruleTarget_text sys dir rule _ m hsub]
  refine pieces_query_iff rule.qsa fun piece hpiece hcaptures => ?_
  cases piece with
  | capture d => cases hcaptures
  | named name => exact hvalues name hpiece
  | byte c =>
      intro hmem
      cases List.mem_singleton.mp hmem
      exact (mem_of_byte_mem_targetPieces sys dir rule _ m hdash hpiece).elim hbase htemplate

def markedStart : RewriteState :=
  rewriteStart (siteSys (siteFs 0 [])) (siteRequest "/a?b") (siteState "/a?b")

/-- A site on which `(.*)` captures all of what it is matched against. -/
def captureSys : Sys :=
  { siteSys (siteFs 0 []) with
    regexExec := fun pattern caseless subject =>
      if pattern = lit "(.*)" then .matched [(0, subject.length), (0, subject.length)]
      else literalExec pattern caseless subject }

/-- `RewriteRule (.*) /x/$1`. -/
def captureRule : RewriteRule where
  pattern := lit "(.*)"
  substitution := lit "/x/$1"

/-- The decoded path `/a?b` gets the query `b` from a template without a question mark, where
the target `/x/` leaves none. -/
theorem captured_query_opened :
    ¬ ∀ m, ruleMatch captureSys (siteConf 10) captureDir captureRule markedStart = some m →
      (tryRule captureSys (siteConf 10) captureDir captureRule markedStart).left.r.args =
        (htaccessApplyTargetUri markedStart.r markedStart.state (lit "/x/") false).1.args ∧
      captureRef captureSys (some m) 1 <:+:
        (tryRule captureSys (siteConf 10) captureDir captureRule markedStart).left.r.uri := by
  intro hall
  have hmatch : (ruleMatch captureSys (siteConf 10) captureDir captureRule markedStart).isSome =
      true := by
    decide +kernel
  obtain ⟨m, hm⟩ := Option.isSome_iff_exists.mp hmatch
  have hargs := (hall m hm).1
  revert hargs
  decide +kernel

def wholeMatchRule (pattern : String) : RewriteRule where
  pattern := lit pattern
  substitution := lit "/x/$0"

def oldMatch : MatchCtx := matchOf (lit "old") [(0, 3)] oldStart.captures

theorem oldMatch_pieces :
    targetPieces (siteSys (siteFs 0 [])) captureDir (wholeMatchRule "old")
      (matchedState (siteSys (siteFs 0 [])) (wholeMatchRule "old") oldStart oldMatch) oldMatch
      (lit "/x/old") = (lit "/x/").map .byte ++ [.capture 0] := by
  decide +kernel

/-- The path `/old` has no question mark to capture. -/
theorem whole_match_kept :
    captureRef (siteSys (siteFs 0 [])) (some oldMatch) 0 <:+:
      (tryRule (siteSys (siteFs 0 [])) (siteConf 10) captureDir (wholeMatchRule "old")
        oldStart).left.r.uri := by
  have hnamed (name : NgxStr) : .named name ∉ (lit "/x/").map Piece.byte ++ [.capture 0] := by
    simp
  have hcaptured (d : Nat) (hd : .capture d ∈ (lit "/x/").map Piece.byte ++ [.capture 0]) :
      ch '?' ∉ captureRef (siteSys (siteFs 0 [])) (some oldMatch) d := by
    obtain rfl : d = 0 := by simpa using hd
    decide +kernel
  have hwhole := (captured_query_iff (siteSys (siteFs 0 [])) (siteConf 10) captureDir
    (wholeMatchRule "old") oldStart _ oldMatch (lit "/x/old") (oldStart_match rfl rfl rfl rfl rfl) rfl
    rfl (by decide +kernel) (by decide) (by decide)
    fun name hname => absurd (oldMatch_pieces ▸ hname) (hnamed name)).mpr
    fun d hd => hcaptured d (oldMatch_pieces ▸ hd)
  refine hwhole.2 0 ?_
  rw [oldMatch_pieces]
  decide

end NgxHtaccess
