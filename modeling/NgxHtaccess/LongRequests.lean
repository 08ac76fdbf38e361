import NgxHtaccess.Expansion
import NgxHtaccess.ChainedRules
import Mathlib.Algebra.GroupWithZero.Nat

/-!
Long texts in a template. The buffer of `htaccess_expand` has room for four times the
template and 256 bytes, whatever the captured texts and the values of the variables are.
A template with all its `%{` closed expands exactly when what it expands to fits, and the
callers answer a template that does not fit with an error or by leaving it out.
-/
namespace NgxHtaccess
open BoundedBuffer

/-- Every `%{` of the template has a `}` behind it. -/
def VariablesClosed (tpl : NgxStr) : Prop :=
  ∀ before after, tpl = before ++ ch '%' :: ch '{' :: after → ch '}' ∈ after

theorem VariablesClosed.of_append (before : NgxStr) {after : NgxStr}
    (h : VariablesClosed (before ++ after)) : VariablesClosed after := fun pre post heq =>
  h (before ++ pre) post (by rw [heq, List.append_assoc])

theorem templateHead_closed {c : UInt8} {p : NgxStr} (h : VariablesClosed (c :: p)) :
    ∃ piece rest, templateHead c p = some (piece, rest) ∧ VariablesClosed rest := by
  cases p with
  | nil => exact ⟨_, _, rfl, VariablesClosed.of_append [c] h⟩
  | cons d p =>
      have hskip : VariablesClosed p := VariablesClosed.of_append [c, d] h
      have hnext : VariablesClosed (d :: p) := VariablesClosed.of_append [c] h
      rw [templateHead]
      by_cases hescape : c = ch '\\'
      · rw [if_pos hescape]
        exact ⟨_, _, rfl, hskip⟩
      rw [if_neg hescape]
      by_cases hcapture : c = ch '$' ∧ isDigit d = true
      · rw [if_pos hcapture]
        exact ⟨_, _, rfl, hskip⟩
      rw [if_neg hcapture]
      by_cases hvariable : c = ch '%' ∧ d = ch '{'
      · rw [if_pos hvariable]
        cases hname : ngxStrlchr p (ch '}') with
        | none =>
            have hclose : ch '}' ∈ p := h [] p (by rw [hvariable.1, hvariable.2]; rfl)
            exact absurd hclose (ngxStrlchr_eq_none.mp hname)
        | some parts =>
            obtain ⟨name, rest⟩ := parts
            obtain ⟨rfl, -⟩ := ngxStrlchr_eq_some hname
            refine ⟨_, _, rfl, VariablesClosed.of_append (name ++ [ch '}']) ?_⟩
            rw [List.append_assoc]
            exact hskip
      rw [if_neg hvariable]
      exact ⟨_, _, rfl, hnext⟩

theorem templateScan_closed (fuel : Nat) {tpl : NgxStr} (h : VariablesClosed tpl) :
    (templateScan fuel tpl).2 = true := by
  induction fuel generalizing tpl with
  | zero => rfl
  | succ fuel ih =>
      cases tpl with
      | nil => rfl
      | cons c p =>
          obtain ⟨piece, rest, hhead, hrest⟩ := templateHead_closed h
          rw [templateScan, hhead]
          exact ih hrest

section Expand
variable (sys : Sys) (r : Request) (state : RequestState) (m : Option MatchCtx)

/-- The bytes that the pieces of a template stand for are no more than the buffer holds. -/
def FitsBuffer (tpl : NgxStr) : Prop :=
  ((templatePieces tpl).map fun piece => (piece.text sys r state m).length).sum ≤
    4 * tpl.length + 256

instance (tpl : NgxStr) : Decidable (FitsBuffer sys r state m tpl) :=
  inferInstanceAs (Decidable (_ ≤ _))

theorem fitsBuffer_iff (tpl : NgxStr) :
    FitsBuffer sys r state m tpl ↔
      (piecesText sys r state m (templatePieces tpl)).length ≤ expandLimit tpl := by
  unfold FitsBuffer piecesText expandLimit
  rw [List.length_flatMap, Nat.mul_comm]

/-- A closed template expands to the text of its pieces, or does not fit. -/
theorem htaccessExpand_of_closed {tpl : NgxStr} (h : VariablesClosed tpl) :
    htaccessExpand sys r state tpl m =
      if FitsBuffer sys r state m tpl then
        some (piecesText sys r state m (templatePieces tpl))
      else none := by
  have hclosed : templateClosed tpl = true := templateScan_closed tpl.length h
  simp only [htaccessExpand_eq, hclosed, true_and, fitsBuffer_iff]

theorem htaccessExpand_ne_none_iff {tpl : NgxStr} (h : VariablesClosed tpl) :
    htaccessExpand sys r state tpl m ≠ none ↔ FitsBuffer sys r state m tpl := by
  rw [htaccessExpand_of_closed sys r state m h]
  split
  · rename_i hfits
    exact iff_of_true (Option.some_ne_none _) hfits
  · rename_i hlong
    exact iff_of_false (fun hne => hne rfl) hlong

end Expand

theorem matchedRule_error_iff {sys : Sys} {conf : LocConf} {dir : DirCtx} {rule : RewriteRule}
    {s : RewriteState} {m : MatchCtx} (hm : ruleMatch sys conf dir rule s = some m)
    (hsub : rule.substitution ≠ lit "-") :
    (tryRule sys conf dir rule s).effect.1 = some .error ↔
      htaccessExpand sys s.r (matchedState sys rule s m).state rule.substitution (some m) =
        none := by
  rw [tryRule_of_match sys conf dir rule s hm, applyMatchedRule_effect hsub]
  have hr : (matchedState sys rule s m).r = s.r := rfl
  unfold expandedTarget
  rw [hr]
  cases htaccessExpand sys s.r (matchedState sys rule s m).state rule.substitution (some m) with
  | none => simp [targetEffect]
  | some sub =>
      refine iff_of_false ?_ (Option.some_ne_none sub)
      simp only [Option.map_some, Option.isSome_some, Bool.and_true, targetEffect]
      cases rule.chain && !rule.last && !rule.endFlag <;> cases rule.redirect <;>
        cases rule.last || rule.endFlag <;> simp

theorem envFlag_iff (sys : Sys) (r : Request) (state : RequestState) (m : MatchCtx)
    {name value text : NgxStr} (hname : ch ':' ∉ name)
    (htext : ∀ expanded, htaccessExpand sys r state value (some m) = some expanded →
      expanded = text) :
    htaccessApplyEnvFlags sys r state m [name ++ ch ':' :: value] =
        htaccessEnvSet state name text ↔
      htaccessExpand sys r state value (some m) ≠ none := by
  simp only [htaccessApplyEnvFlags, ngxStrlchr_append name value hname]
  cases hexpand : htaccessExpand sys r state value (some m) with
  | none =>
      refine iff_of_false (fun heq => ?_) fun hne => hne rfl
      have henv : state.env = ngxArrayPush state.env { name, value := text } :=
        congrArg RequestState.env heq
      cases hstore : state.env with
      | none =>
          rw [hstore] at henv
          cases henv
      | some vars =>
          rw [hstore, ngxArrayPush, Option.getD_some, Option.some_inj] at henv
          exact absurd (List.self_eq_append_right.mp henv) (List.cons_ne_nil _ _)
  | some expanded => exact iff_of_true (by rw [htext expanded hexpand]) (Option.some_ne_none _)

/-- A template with closed variables expands exactly when the texts that it stands for fit
into four times its length and 256 bytes; so does a matched rule get beyond its substitution,
and an E flag set its variable. -/
theorem long_request_iff (sys : Sys) :
    (∀ r state m tpl, VariablesClosed tpl →
      (htaccessExpand sys r state tpl m ≠ none ↔ FitsBuffer sys r state m tpl)) ∧
    (∀ conf dir rule s m, ruleMatch sys conf dir rule s = some m →
      rule.substitution ≠ lit "-" → VariablesClosed rule.substitution →
      ((tryRule sys conf dir rule s).effect.1 ≠ some .error ↔
        FitsBuffer sys s.r (matchedState sys rule s m).state (some m) rule.substitution)) ∧
    (∀ r state m name value, ch ':' ∉ name → VariablesClosed value →
      (htaccessApplyEnvFlags sys r state m [name ++ ch ':' :: value] =
          htaccessEnvSet state name (piecesText sys r state (some m) (templatePieces value)) ↔
        FitsBuffer sys r state (some m) value)) := by
  refine ⟨fun r state m tpl h => htaccessExpand_ne_none_iff sys r state m h, ?_, ?_⟩
  · intro conf dir rule s m hm hsub h
    rw [ne_eq, matchedRule_error_iff hm hsub]
    exact htaccessExpand_ne_none_iff sys s.r _ (some m) h
  · intro r state m name value hname h
    rw [← htaccessExpand_ne_none_iff sys r state (some m) h]
    refine envFlag_iff sys r state m hname fun expanded hexpand => ?_
    rw [htaccessExpand_of_closed sys r state (some m) h] at hexpand
    split at hexpand
    · exact (Option.some.inj hexpand).symm
    · cases hexpand

theorem variablesClosed_of_getLast {tpl : NgxStr} (h : tpl.getLast? = some (ch '}')) :
    VariablesClosed tpl := by
  intro before after heq
  rw [heq, List.getLast?_append_of_ne_nil _ (List.cons_ne_nil _ _)] at h
  cases after with
  | nil => exact absurd h (by decide)
  | cons c after =>
      rw [List.getLast?_cons_cons, List.getLast?_cons_cons] at h
      exact List.mem_of_getLast? h

def longQueryState : RequestState :=
  { siteState "/old" with queryString := List.replicate 400 (ch 'a') }

/-- The query does not fit into the 316 bytes for the template. -/
theorem long_query_not_expanded :
    ¬ ∀ tpl, VariablesClosed tpl →
      htaccessExpand (siteSys (siteFs 0 [])) (siteRequest "/old") longQueryState tpl none ≠
        none := by
  intro hall
  have hclosed : VariablesClosed (lit "%{QUERY_STRING}") := variablesClosed_of_getLast (by decide)
  refine hall _ hclosed ?_
  decide +kernel

/-- A query and a URI that fit. -/
theorem short_query_expanded :
    htaccessExpand (siteSys (siteFs 0 [])) (siteRequest "/old")
      { siteState "/old" with queryString := lit "a=1&b=2" }
      (lit "/new?from=%{REQUEST_URI}&%{QUERY_STRING}") none ≠ none :=
  ((long_request_iff (siteSys (siteFs 0 []))).1 _ _ _ _
    (variablesClosed_of_getLast (by decide))).mpr (by decide +kernel)

end NgxHtaccess
