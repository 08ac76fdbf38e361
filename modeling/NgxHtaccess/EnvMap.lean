import NgxHtaccess.RuleScan
import NgxHtaccess.Site
import NgxHtaccess.Lib.AppendStore

/-!
The environment of a request. `htaccess_env_set` appends and `htaccess_env_get` takes the
first variable of the name, so the first value of a variable stays, whatever E flags set it
later on; and names are compared up to a NUL.
-/
namespace NgxHtaccess
open AppendStore BoundedLoop Scan

/-- The test of `htaccess_env_get` on a stored name. -/
def sameName (a b : NgxStr) : Bool := a.length = b.length && ngxStrncmpEq a b b.length

def envStore (state : RequestState) : List (NgxStr × NgxStr) :=
  (state.env.getD []).map fun var => (var.name, var.value)

/-- The state after a sequence of `htaccess_env_set` calls. -/
def envRun (state : RequestState) (sets : List (NgxStr × NgxStr)) : RequestState :=
  sets.foldl (fun state set => htaccessEnvSet state set.1 set.2) state

section Names

theorem ngxStrncmpEq_iff_cString {a b : NgxStr} (h : a.length = b.length) :
    ngxStrncmpEq a b b.length = true ↔ cString a = cString b := by
  induction a generalizing b with
  | nil =>
      cases b with
      | nil => exact iff_of_true rfl rfl
      | cons d b => cases h
  | cons c a ih =>
      cases b with
      | nil => cases h
      | cons d b =>
          have hlen : a.length = b.length := Nat.succ.inj h
          rw [List.length_cons, ngxStrncmpEq, List.headD_cons, List.headD_cons, List.tail_cons,
            List.tail_cons, cString, cString, List.takeWhile_cons, List.takeWhile_cons]
          by_cases hcd : c = d
          · subst hcd
            by_cases hc : c = 0
            · simp [hc]
            · simp only [hc, if_true, if_false, ne_eq, not_false_eq_true, decide_true,
                List.cons.injEq, true_and]
              exact ih hlen
          · rw [if_neg hcd]
            refine iff_of_false Bool.false_ne_true ?_
            by_cases hc : c = 0
            · have hd : d ≠ 0 := fun hd => hcd (hc.trans hd.symm)
              simp [hc, hd]
            · by_cases hd : d = 0
              · simp [hc, hd]
              · simp [hc, hd, hcd]

theorem sameName_iff {a b : NgxStr} :
    sameName a b = true ↔ a.length = b.length ∧ cString a = cString b := by
  rw [sameName, Bool.and_eq_true, decide_eq_true_eq]
  exact and_congr_right ngxStrncmpEq_iff_cString

theorem sameName_refl (a : NgxStr) : sameName a a = true := sameName_iff.mpr ⟨rfl, rfl⟩

theorem sameName_symm (a b : NgxStr) (h : sameName a b = true) : sameName b a = true :=
  have hab := sameName_iff.mp h
  sameName_iff.mpr ⟨hab.1.symm, hab.2.symm⟩

theorem sameName_trans (a b c : NgxStr) (hab : sameName a b = true) (hbc : sameName b c = true) :
    sameName a c = true :=
  have h := sameName_iff.mp hab
  have h' := sameName_iff.mp hbc
  sameName_iff.mpr ⟨h.1.trans h'.1, h.2.trans h'.2⟩

theorem cString_shape (n : NgxStr) :
    n = cString n ∨ 0 ∉ cString n ∧ ∃ rest, n = cString n ++ 0 :: rest := by
  cases hsplit : ngxStrlchr n 0 with
  | none =>
      exact .inl (cString_of_noNul (ngxStrlchr_eq_none.mp hsplit)).symm
  | some parts =>
      obtain ⟨before, after⟩ := parts
      obtain ⟨rfl, hbefore⟩ := ngxStrlchr_eq_some hsplit
      rw [cString_append hbefore]
      exact .inr ⟨hbefore, after, rfl⟩

theorem eq_cString_append {n : NgxStr} (h : n.length ≤ (cString n).length + 1) :
    n = cString n ++ List.replicate (n.length - (cString n).length) 0 := by
  rcases cString_shape n with heq | ⟨-, rest, heq⟩
  · have hlen := congrArg List.length heq
    rw [hlen, Nat.sub_self, List.replicate_zero, List.append_nil]
    exact heq
  · have hlen := congrArg List.length heq
    rw [List.length_append, List.length_cons] at hlen
    obtain rfl : rest = [] := List.length_eq_zero_iff.mp (by omega)
    have hone : n.length - (cString n).length = 1 := by
      rw [hlen, List.length_nil]
      omega
    rw [hone]
    exact heq

/-- A name is taken for no other one exactly when it has no NUL before its last byte. -/
theorem no_other_name_iff (n : NgxStr) :
    (∀ m, sameName n m = true → m = n) ↔ n.length ≤ (cString n).length + 1 := by
  constructor
  · intro hother
    rcases cString_shape n with heq | ⟨hbefore, rest, heq⟩
    · have hlen := congrArg List.length heq
      omega
    · have hlen := congrArg List.length heq
      rw [List.length_append, List.length_cons] at hlen
      cases rest with
      | nil =>
          rw [List.length_nil] at hlen
          omega
      | cons x rest =>
          -- another byte behind the NUL makes another name, which is taken for this one
          have hsame : sameName n (cString n ++ 0 :: (x + 1) :: rest) = true := by
            refine sameName_iff.mpr ⟨?_, (cString_append hbefore _).symm⟩
            rw [hlen, List.length_append, List.length_cons, List.length_cons, List.length_cons]
          have hequal := (hother _ hsame).trans heq
          have hbyte := (List.cons.inj (List.cons.inj (List.append_cancel_left hequal)).2).1
          exact absurd hbyte (by simp)
  · intro hshort m hm
    obtain ⟨hlen, hname⟩ := sameName_iff.mp hm
    have hm' : m.length ≤ (cString m).length + 1 := by
      rw [← hlen, ← hname]
      exact hshort
    rw [eq_cString_append hm', ← hlen, ← hname, ← eq_cString_append hshort]

end Names

section Store

theorem htaccessEnvGet_eq (state : RequestState) (name : NgxStr) :
    htaccessEnvGet state name = AppendStore.get sameName (envStore state) name := by
  unfold htaccessEnvGet AppendStore.get envStore
  cases state.env with
  | none => rfl
  | some vars =>
      rw [Option.getD_some, List.find?_map, Option.map_map]
      rfl

theorem envStore_set (state : RequestState) (name value : NgxStr) :
    envStore (htaccessEnvSet state name value) = envStore state ++ [(name, value)] := by
  rw [envStore, htaccessEnvSet, ngxArrayPush_getD, List.map_append]
  rfl

theorem envStore_run (state : RequestState) (sets : List (NgxStr × NgxStr)) :
    envStore (envRun state sets) = envStore state ++ sets := by
  induction sets generalizing state with
  | nil => exact (List.append_nil _).symm
  | cons set sets ih =>
      rw [envRun, List.foldl_cons, ← envRun, ih, envStore_set, List.append_assoc]
      rfl

theorem expandVariable_env (r : Request) (state : RequestState) (name : NgxStr) :
    expandVariable r state (lit "ENV:" ++ name) = some ((htaccessEnvGet state name).getD []) := by
  have hlen : 4 ≤ (lit "ENV:" ++ name).length := by
    rw [List.length_append]
    exact Nat.le_add_right 4 _
  have hkeyword : ngxStrncasecmpEq (lit "ENV:" ++ name) (lit "ENV:") 4 = true := by
    rw [ngxStrncasecmpEq_append _ _ _ (Nat.le_refl 4)]
    decide
  have hdrop : (lit "ENV:" ++ name).drop 4 = name := List.drop_left' rfl
  rw [expandVariable, if_pos ⟨hlen, hkeyword⟩, hdrop]

end Store

section Run
variable (sys : Sys) (conf : LocConf)

/-- The variables are those from before and what `htaccess_env_set` added to them. -/
def EnvGrows (state state' : RequestState) : Prop := ∃ sets, state'.env = (envRun state sets).env

theorem EnvGrows.of_env {state state' : RequestState} (h : state'.env = state.env) :
    EnvGrows state state' := ⟨[], h⟩

theorem envRun_env_congr {state state' : RequestState} (h : state.env = state'.env)
    (sets : List (NgxStr × NgxStr)) : (envRun state sets).env = (envRun state' sets).env := by
  induction sets generalizing state state' with
  | nil => exact h
  | cons set sets ih =>
      refine ih ?_
      show ngxArrayPush state.env _ = ngxArrayPush state'.env _
      rw [h]

theorem EnvGrows.trans {a b c : RequestState} (hab : EnvGrows a b) (hbc : EnvGrows b c) :
    EnvGrows a c := by
  obtain ⟨sets, hsets⟩ := hab
  obtain ⟨sets', hsets'⟩ := hbc
  refine ⟨sets ++ sets', ?_⟩
  rw [hsets', envRun_env_congr hsets, envRun, envRun, envRun, List.foldl_append]

theorem htaccessApplyEnvFlags_grows (r : Request) (state : RequestState) (m : MatchCtx)
    (vars : List NgxStr) : EnvGrows state (htaccessApplyEnvFlags sys r state m vars) := by
  induction vars generalizing state with
  | nil => exact .of_env rfl
  | cons env vars ih =>
      rw [htaccessApplyEnvFlags]
      cases ngxStrlchr env (ch ':') with
      | none => exact ih state
      | some parts =>
          simp only
          cases htaccessExpand sys r state parts.2 (some m) with
          | none => exact ih state
          | some expanded =>
              have hset : EnvGrows state (htaccessEnvSet state parts.1 expanded) :=
                ⟨[(parts.1, expanded)], rfl⟩
              exact hset.trans (ih _)

theorem applyMatchedRule_env (dir : DirCtx) (rule : RewriteRule) (s : RewriteState)
    (m : MatchCtx) : (applyMatchedRule sys dir rule s m).left.state.env = s.state.env := by
  unfold applyMatchedRule
  split
  · split <;> rfl
  split
  · rfl
  split
  · rfl
  simp only
  split
  · rfl
  split <;> rfl

theorem tryRule_grows (dir : DirCtx) (rule : RewriteRule) (s : RewriteState) :
    EnvGrows s.state (tryRule sys conf dir rule s).left.state := by
  cases hm : ruleMatch sys conf dir rule s with
  | none =>
      obtain ⟨t, -, hstate, -, -, htry⟩ := tryRule_of_no_match sys conf dir rule s hm
      rw [htry]
      split <;> exact .of_env (congrArg RequestState.env hstate)
  | some m =>
      rw [tryRule_of_match sys conf dir rule s hm]
      exact (htaccessApplyEnvFlags_grows sys s.r s.state m _).trans
        (.of_env (applyMatchedRule_env sys dir rule _ m))

theorem passRewrite_grows (s : LoopState) :
    (∀ y ∈ ruleSteps sys conf s, EnvGrows s.state y.2.state) ∧
      EnvGrows s.state (passRewrite sys conf s).2.2 := by
  have hkeep : ∀ y ∈ trace (ruleStep sys conf) (scannedRules (passCtx sys conf s).dirs)
      (rewriteStart sys s.r s.state), EnvGrows s.state y.2.state →
      Holds (fun t => EnvGrows s.state t.state)
        (fun out : HtaccessResult × RewriteState => EnvGrows s.state out.2.state)
        (ruleStep sys conf y.1 y.2) := by
    intro y _ hy
    have hstep := hy.trans (tryRule_grows sys conf y.1.1 y.1.2 y.2)
    unfold ruleStep
    generalize tryRule sys conf y.1.1 y.1.2 y.2 = outcome at hstep
    cases outcome <;> exact hstep
  obtain ⟨hall, hend⟩ := scan_invariant (P := fun t : RewriteState => EnvGrows s.state t.state)
    hkeep (.of_env rfl)
  refine ⟨hall, ?_⟩
  rw [passRewrite_eq]
  generalize scan _ _ _ = round at hend
  cases round <;> exact hend

theorem htaccessResolveFilename_env (state : RequestState) :
    (htaccessResolveFilename conf state).env = state.env := by
  unfold htaccessResolveFilename
  split <;> rfl

/-- Every rule of a run is tried on variables that `htaccess_env_set` alone has set. -/
theorem run_env_history {r : Request} {w : Worker} {s : LoopState}
    (h : Visits (htaccessPass sys conf r.uri) conf.maxRedirects (.initial conf r w) s)
    {y : (DirCtx × RewriteRule) × RewriteState} (hy : y ∈ ruleSteps sys conf s) :
    ∃ start sets, start.env = none ∧ y.2.state.env = (envRun start sets).env := by
  have hpass : EnvGrows (LoopState.initial conf r w).state s.state := by
    refine invariant_of_visits (P := fun s => EnvGrows (LoopState.initial conf r w).state s.state)
      (fun s t hs hnext => ?_) h (.of_env rfl)
    have hend := hs.trans (passRewrite_grows sys conf s).2
    obtain ⟨_, _, _, rfl⟩ | ⟨_, _, _, _, _, rfl⟩ := htaccessPass_again_cases sys conf r.uri s hnext
    · exact hend.trans (.of_env (htaccessResolveFilename_env conf _))
    · exact hend
  obtain ⟨sets, hsets⟩ := hpass.trans ((passRewrite_grows sys conf s).1 y hy)
  exact ⟨_, sets, htaccessResolveFilename_env conf _, hsets⟩

end Run

/-- Setting `name` to `value` is a write to a map, and `%{ENV:name}` expands to the value. -/
structure MapLaw (r : Request) (state : RequestState) (name value : NgxStr) : Prop where
  own : htaccessEnvGet (htaccessEnvSet state name value) name = some value
  others : ∀ m, m ≠ name →
    htaccessEnvGet (htaccessEnvSet state name value) m = htaccessEnvGet state m
  expanded : expandVariable r (htaccessEnvSet state name value) (lit "ENV:" ++ name) = some value

/-- After these writes the name is new and no other name is taken for it, or the first write
to the name was of the same value. -/
def WriteSeen (sets : List (NgxStr × NgxStr)) (name value : NgxStr) : Prop :=
  ((∀ set ∈ sets, sameName set.1 name = false) ∧ name.length ≤ (cString name).length + 1) ∨
    ∃ first, sets.find? (fun set => sameName set.1 name) = some first ∧ first.2 = value

theorem mapLaw_iff_mapWrite (r : Request) (state : RequestState) (name value : NgxStr) :
    MapLaw r state name value ↔ MapWrite sameName (envStore state) name value := by
  have hget (m : NgxStr) : htaccessEnvGet (htaccessEnvSet state name value) m =
      AppendStore.get sameName (envStore state ++ [(name, value)]) m := by
    rw [htaccessEnvGet_eq, envStore_set]
  constructor
  · rintro ⟨hown, hothers, -⟩
    refine ⟨(hget name).symm.trans hown, fun m hm => ?_⟩
    rw [← hget, hothers m hm, htaccessEnvGet_eq]
  · rintro ⟨hown, hothers⟩
    have hsame := (hget name).trans hown
    refine ⟨hsame, fun m hm => ?_, ?_⟩
    · rw [hget, hothers m hm, htaccessEnvGet_eq]
    · rw [expandVariable_env, hsame, Option.getD_some]

theorem mapLaw_iff (r : Request) {state : RequestState} (hstart : state.env = none)
    (sets : List (NgxStr × NgxStr)) (name value : NgxStr) :
    MapLaw r (envRun state sets) name value ↔ WriteSeen sets name value := by
  have hstore : envStore (envRun state sets) = sets := by
    rw [envStore_run, envStore, hstart]
    rfl
  rw [mapLaw_iff_mapWrite, hstore, mapWrite_iff sameName_refl sameName_trans sameName_symm,
    no_other_name_iff, AppendStore.get, Option.map_eq_none_iff, Option.map_eq_some_iff,
    List.find?_eq_none]
  simp only [Bool.not_eq_true]
  rfl

/-- In a request with no variables yet the environment is a map at every one of a sequence of
writes exactly when every write is seen, and then a name has the value of its last write. Every
rule of a run is tried on the variables of such a sequence. -/
theorem env_map_iff (r : Request) (state : RequestState) (hstart : state.env = none)
    (sets : List (NgxStr × NgxStr)) :
    ((∀ before name value after, sets = before ++ (name, value) :: after →
        MapLaw r (envRun state before) name value) ↔
      ∀ before name value after, sets = before ++ (name, value) :: after →
        WriteSeen before name value) ∧
    ((∀ before name value after, sets = before ++ (name, value) :: after →
        WriteSeen before name value) →
      ∀ name, expandVariable r (envRun state sets) (lit "ENV:" ++ name) =
        some (((sets.reverse.find? fun set => set.1 = name).map (·.2)).getD [])) ∧
    ∀ sys conf r w s, Visits (htaccessPass sys conf r.uri) conf.maxRedirects (.initial conf r w) s →
      ∀ y ∈ ruleSteps sys conf s, ∃ start history, start.env = none ∧
        y.2.state.env = (envRun start history).env := by
  have hlaw : ∀ before name value, MapLaw r (envRun state before) name value ↔
      WriteSeen before name value := fun before name value =>
    mapLaw_iff r hstart before name value
  refine ⟨forall₄_congr fun before name value _ => imp_congr_right fun _ =>
    hlaw before name value, fun hseen name => ?_, fun sys conf r w s hvisits y hy =>
    run_env_history sys conf hvisits hy⟩
  have hstore (before : List (NgxStr × NgxStr)) : envStore (envRun state before) = before := by
    rw [envStore_run, envStore, hstart]
    rfl
  have hlast := get_eq_last sameName sets (fun before n v after heq => by
    have hwrite := (mapLaw_iff_mapWrite r _ n v).mp ((hlaw before n v).mpr (hseen _ _ _ _ heq))
    rwa [hstore] at hwrite) name
  rw [expandVariable_env, htaccessEnvGet_eq, hstore, hlast]

/-- Two variables, the first of them set twice to one value. -/
theorem first_write_seen :
    expandVariable (siteRequest "/old")
      (envRun (siteState "/old") [(lit "A", lit "1"), (lit "B", lit "2"), (lit "A", lit "1")])
      (lit "ENV:" ++ lit "B") = some (lit "2") := by
  refine (env_map_iff (siteRequest "/old") (siteState "/old") rfl
    [(lit "A", lit "1"), (lit "B", lit "2"), (lit "A", lit "1")]).2.1
    (fun before name value after heq => ?_) (lit "B")
  match before, heq with
  | [], heq | [_], heq =>
      cases heq
      exact .inl (by decide)
  | [_, _], heq =>
      cases heq
      exact .inr ⟨_, rfl, rfl⟩
  | _ :: _ :: _ :: before, heq => cases before <;> cases heq

/-- `E=A:1` and then `E=A:2` leaves the variable with the value 1. -/
theorem second_write_lost :
    ¬ ∀ before name value after,
      [(lit "A", lit "1"), (lit "A", lit "2")] = before ++ (name, value) :: after →
        MapLaw (siteRequest "/old") (envRun (siteState "/old") before) name value := by
  intro hall
  have hown := (hall [(lit "A", lit "1")] (lit "A") (lit "2") [] rfl).own
  revert hown
  decide

end NgxHtaccess
