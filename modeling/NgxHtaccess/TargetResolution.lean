import NgxHtaccess.CapturedQuery

/-!
The target that a substitution resolves to. A relative target is put behind the RewriteBase
and expanded again, but only without a question mark; a URL is a redirect only with R; and
the base is a template there, so it counts for itself as long as nothing in it is expanded.
-/
namespace NgxHtaccess

section Rooted

end Rooted

section Base
variable (sys : Sys) (r : Request) (state : RequestState) (m : Option MatchCtx)

end Base

section Resolution
variable (sys : Sys) (conf : LocConf) (dir : DirCtx) (rule : RewriteRule) (s : RewriteState)
  (m : MatchCtx) (sub : NgxStr)

/-- The target that a matched rule goes on with, once its substitution is expanded to `sub`. -/
def usedTarget : Option NgxStr :=
  if rule.chain && !rule.last && !rule.endFlag then none
  else some (ruleTarget sys dir rule s m sub)

theorem effect_usedTarget {m : MatchCtx} {sub : NgxStr}
    (hm : ruleMatch sys conf dir rule s = some m) (hdash : rule.substitution ≠ lit "-")
    (hsub : htaccessExpand sys s.r (matchedState sys rule s m).state rule.substitution (some m) =
      some sub) :
    (tryRule sys conf dir rule s).effect =
      (usedTarget sys dir rule (matchedState sys rule s m) m sub).elim
        (none, s.r, (matchedState sys rule s m).state)
        fun out => targetEffect rule s.r (matchedState sys rule s m).state (some out) := by
  have hr : (matchedState sys rule s m).r = s.r := rfl
  rw [tryRule_of_match sys conf dir rule s hm, applyMatchedRule_effect hdash, expandedTarget, hr,
    hsub, Option.map_some, Option.isSome_some, Bool.and_true, usedTarget]
  split <;> rfl

section Cases
variable {sub}

end Cases

end Resolution

end NgxHtaccess
