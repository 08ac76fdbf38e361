import NgxHtaccess.Expansion
import NgxHtaccess.ChainedRules

/-!
The slots of `captures` that a matched rule reads. `ngx_regex_exec` is told of 20 slots and
writes a third of them as pairs, six at most, while `htaccess_expand` takes all ten pairs of
the array for captures. The array is not cleared, so a reference to `$6` and above, or to a
group that the pattern does not have, reads what an earlier match or nothing at all wrote.
-/
namespace NgxHtaccess
open BoundedBuffer

def Piece.captures : Piece → List Nat
  | .capture d => [d]
  | .byte _ | .named _ => []

section Reads
variable (sys : Sys) (r : Request) (state : RequestState) (m : MatchCtx)

/-- The references whose slots the loop reads: up to the piece that does not fit. -/
def readsOf (limit : Nat) : Nat → NgxStr → NgxStr → List Nat
  | 0, _, _ => []
  | _ + 1, [], _ => []
  | fuel + 1, c :: p, dst =>
      match templateHead c p with
      | none => []
      | some (piece, p) =>
          match put limit dst (piece.text sys r state (some m)) with
          | none => piece.captures
          | some dst => piece.captures ++ readsOf limit fuel p dst

def capturesRead (tpl : NgxStr) : List Nat :=
  readsOf sys r state m (expandLimit tpl) tpl.length tpl []

/-- The templates that the E flags expand, each with the state at that time. -/
def envExpansions (state : RequestState) : List NgxStr → List (RequestState × NgxStr)
  | [] => []
  | env :: vars =>
      match ngxStrlchr env (ch ':') with
      | none => envExpansions state vars
      | some (name, value) =>
          (state, value) ::
            match htaccessExpand sys r state value (some m) with
            | none => envExpansions state vars
            | some expanded => envExpansions (htaccessEnvSet state name expanded) vars

end Reads

/-- The expanded substitution is resolved against the base and expanded once more. -/
def isRelativeTarget (sub : NgxStr) : Bool :=
  sub ≠ [] && sub.head? ≠ some (ch '/') && !isHttpUrl sub && !isHttpsUrl sub &&
    ngxStrlchr sub (ch '?') = none

section Rule
variable (sys : Sys) (dir : DirCtx) (rule : RewriteRule) (s : RewriteState) (m : MatchCtx)

/-- The templates that a matched rule expands for its target. -/
def targetExpansions : List NgxStr :=
  if rule.substitution = lit "-" then []
  else
    rule.substitution ::
      match htaccessExpand sys s.r s.state rule.substitution (some m) with
      | none => []
      | some sub =>
          if (rule.chain && !rule.last && !rule.endFlag) || !isRelativeTarget sub then []
          else [htaccessApplySubstitution rule m.subject dir.rewriteBase]

/-- All that a rule expands with its match, each template with the state at that time. -/
def ruleExpansions : List (RequestState × NgxStr) :=
  envExpansions sys s.r m s.state (rule.envVars.getD []) ++
    (targetExpansions sys dir rule (matchedState sys rule s m) m).map
      (Prod.mk (matchedState sys rule s m).state)

def ruleReads : List Nat :=
  (ruleExpansions sys dir rule s m).flatMap fun x => capturesRead sys s.r x.1 m x.2

end Rule

theorem ruleTarget_eq (sys : Sys) (dir : DirCtx) (rule : RewriteRule) (s : RewriteState)
    (m : MatchCtx) (sub : NgxStr) :
    ruleTarget sys dir rule s m sub =
      if isRelativeTarget sub then
        (htaccessExpand sys s.r s.state
          (htaccessApplySubstitution rule m.subject dir.rewriteBase) (some m)).getD
          (htaccessApplySubstitution rule m.subject dir.rewriteBase)
      else sub := by
  unfold ruleTarget isRelativeTarget
  simp only [Bool.and_eq_true, decide_eq_true_eq, and_assoc]

section Agree
variable {sys sys' : Sys} {r : Request} {state : RequestState} {m m' : MatchCtx}

end Agree

section Slots
variable (sys : Sys) (subject : NgxStr) (pairs : List (Int × Int))

/-- The call for a match with the pairs writes the slot: what it held before is gone. -/
def SlotWritten (i : Nat) : Prop :=
  ∀ before before' : Nat → Int, writeCaptures before 20 pairs i = writeCaptures before' 20 pairs i

/-- The text of a group of the match; nothing for a group that did not take part, or that
does not exist. -/
def groupText (n : Nat) : NgxStr :=
  match pairs[n]? with
  | none => []
  | some (start, stop) => if 0 ≤ start then captureText sys subject start stop else []

/-- Reading `$n` reads what this match wrote, and gives the text of its group. -/
structure OwnCapture (m : MatchCtx) (n : Nat) : Prop where
  start : SlotWritten pairs (n * 2)
  stop : SlotWritten pairs (n * 2 + 1)
  text : captureRef sys (some m) n = groupText sys m.subject pairs n

/-- Six pairs at most are written, and only those of groups of the pattern. -/
theorem slotWritten_iff (i : Nat) : SlotWritten pairs i ↔ i / 2 < 6 ∧ i / 2 < pairs.length := by
  unfold SlotWritten writeCaptures
  constructor
  · intro h
    have hzero := h (fun _ => 0) fun _ => 1
    cases hpair : (pairs.take (20 / 3))[i / 2]? with
    | none =>
        rw [hpair] at hzero
        have hsame : (0 : Int) = 1 := hzero
        exact absurd hsame (by decide)
    | some pair =>
        obtain ⟨hlt, -⟩ := List.getElem?_eq_some_iff.mp hpair
        rw [List.length_take] at hlt
        omega
  · rintro ⟨hsix, hgroup⟩ before before'
    have hlt : i / 2 < (pairs.take (20 / 3)).length := by
      rw [List.length_take]
      omega
    rw [List.getElem?_eq_getElem hlt]

def matchOf (before : Nat → Int) : MatchCtx where
  subject := subject
  captures := writeCaptures before 20 pairs
  ncaptures := 20

theorem ownCapture_iff (before : Nat → Int) (n : Nat) :
    OwnCapture sys pairs (matchOf subject pairs before) n ↔
      n < 6 ∧ n < pairs.length := by
  have hstart := slotWritten_iff pairs (n * 2)
  have hstop := slotWritten_iff pairs (n * 2 + 1)
  have hhalf : n * 2 / 2 = n ∧ (n * 2 + 1) / 2 = n := by omega
  rw [hhalf.1] at hstart
  rw [hhalf.2] at hstop
  constructor
  · exact fun h => hstart.mp h.start
  · intro h
    refine ⟨hstart.mpr h, hstop.mpr h, ?_⟩
    have hlt : n < (pairs.take (20 / 3)).length := by
      rw [List.length_take]
      omega
    have hpair : (pairs.take (20 / 3))[n]? = pairs[n]? := by
      rw [List.getElem?_take, if_pos (by omega)]
    have hparity : n * 2 % 2 = 0 ∧ (n * 2 + 1) % 2 ≠ 0 := by omega
    have hsize : n * 2 + 1 < 20 := by omega
    unfold captureRef groupText matchOf writeCaptures
    simp only [hhalf, hpair, List.getElem?_eq_getElem h.2, hparity, hsize, true_and, if_true,
      if_false]

end Slots

theorem ruleMatch_matched {sys : Sys} {conf : LocConf} {dir : DirCtx} {rule : RewriteRule}
    {s : RewriteState} {m : MatchCtx} (hm : ruleMatch sys conf dir rule s = some m) :
    ∃ pairs, sys.regexExec rule.pattern rule.nocase m.subject = .matched pairs ∧
      m = matchOf m.subject pairs s.captures := by
  unfold ruleMatch at hm
  split at hm
  · cases hm
  split at hm
  · cases hm
  split at hm
  · cases hm
  simp only at hm
  split at hm
  · rename_i pairs hexec
    cases hm
    exact ⟨pairs, hexec, rfl⟩
  · cases hm

/-- Every reference that a matched rule reads is to a group of its own match exactly when
none is to `$6` or above, or to a group that the pattern does not have. -/
theorem captures_written_iff (sys : Sys) (conf : LocConf) (dir : DirCtx) (rule : RewriteRule)
    (s : RewriteState) (m : MatchCtx) (pairs : List (Int × Int))
    (hm : ruleMatch sys conf dir rule s = some m)
    (hexec : sys.regexExec rule.pattern rule.nocase m.subject = .matched pairs) :
    (∀ n ∈ ruleReads sys dir rule s m, OwnCapture sys pairs m n) ↔
      ∀ n ∈ ruleReads sys dir rule s m, n < 6 ∧ n < pairs.length := by
  obtain ⟨pairs', hexec', hmatch⟩ := ruleMatch_matched hm
  rw [hexec] at hexec'
  cases hexec'
  refine forall₂_congr fun n _ => ?_
  rw [hmatch]
  exact ownCapture_iff sys m.subject pairs s.captures n

def captureDir : DirCtx where
  dirPath := lit "/w"
  urlPrefix := []
  rewriteBase := lit "/"
  rewriteEngine := true
  directives := none

def oldStart : RewriteState :=
  rewriteStart (siteSys (siteFs 0 [])) (siteRequest "/old") (siteState "/old")

theorem old_exec : (siteSys (siteFs 0 [])).regexExec (lit "old") false (lit "old") =
    .matched [(0, 3)] := by
  have hfind : literalFind (lit "old") false (lit "old") = some 0 := by decide +kernel
  show literalExec (lit "old") false (lit "old") = _
  rw [literalExec, hfind]
  rfl

theorem oldStart_match {dir : DirCtx} {rule : RewriteRule} (hroot : dir.urlPrefix = [])
    (hpattern : rule.pattern = lit "old") (hnocase : rule.nocase = false)
    (hchain : rule.chainIn = false) (hconds : rule.conditions = none) :
    ruleMatch (siteSys (siteFs 0 [])) (siteConf 10) dir rule oldStart =
      some (matchOf (lit "old") [(0, 3)] oldStart.captures) := by
  have hrel : htaccessRelativeUri oldStart.state.uri dir.urlPrefix = lit "old" := by
    rw [hroot]
    decide
  have hcompile : (siteSys (siteFs 0 [])).regexCompile (lit "old") false = true := by decide
  unfold ruleMatch htaccessMatchConditions
  rw [hchain, hpattern, hnocase, hconds, hrel, hcompile]
  simp only [old_exec]
  rfl

/-- `RewriteRule old /$1` reads a slot that the match of a pattern without groups leaves. -/
theorem stale_capture_read :
    ¬ ∀ m pairs,
      ruleMatch (siteSys (siteFs 0 [])) (siteConf 10) captureDir
        { pattern := lit "old", substitution := lit "/$1" } oldStart = some m →
      (siteSys (siteFs 0 [])).regexExec (lit "old") false m.subject = .matched pairs →
        ∀ n ∈ ruleReads (siteSys (siteFs 0 [])) captureDir
          { pattern := lit "old", substitution := lit "/$1" } oldStart m,
          OwnCapture (siteSys (siteFs 0 [])) pairs m n := by
  intro hall
  have hread : 1 ∈ ruleReads (siteSys (siteFs 0 [])) captureDir
      { pattern := lit "old", substitution := lit "/$1" } oldStart
      (matchOf (lit "old") [(0, 3)] oldStart.captures) := by
    decide +kernel
  have hown := hall _ _ (oldStart_match rfl rfl rfl rfl rfl) old_exec 1 hread
  have hgroup := ((ownCapture_iff _ _ _ _ _).mp hown).2
  exact absurd hgroup (by decide)

/-- `RewriteRule old /$0` reads the whole match. -/
theorem whole_match_read :
    OwnCapture (siteSys (siteFs 0 [])) [(0, 3)]
      (matchOf (lit "old") [(0, 3)] oldStart.captures) 0 :=
  (captures_written_iff (siteSys (siteFs 0 [])) (siteConf 10) captureDir
    { pattern := lit "old", substitution := lit "/$0" } oldStart _ [(0, 3)]
    (oldStart_match rfl rfl rfl rfl rfl) old_exec).mpr (by decide +kernel) 0 (by decide +kernel)

end NgxHtaccess
