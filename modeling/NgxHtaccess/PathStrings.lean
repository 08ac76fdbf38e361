import NgxHtaccess.Expansion
import NgxHtaccess.LexAppend
import NgxHtaccess.Site
import NgxHtaccess.StringBuilders

/-!
The paths that the module hands to the system. Behind the bytes that were written of a path comes
whatever the memory holds: a path with a zero byte of its own is handed on as it was composed, any
other one only if the byte behind it happens to be zero.
-/
namespace NgxHtaccess
open Filling Outcomes

section Tokens
variable {x : UInt8}

theorem htaccessLexToken_free {p token next : NgxStr} (h : htaccessLexToken p = .ok token next)
    (hp : x ∉ p) : x ∉ token ∧ x ∉ next := by
  obtain ⟨blanks, hsplit⟩ := htaccessSkipSpace_suffix p
  rw [htaccessLexToken] at h
  generalize htaccessSkipSpace p = q at h hsplit
  rw [hsplit, List.mem_append, not_or] at hp
  cases q with
  | nil => cases h
  | cons c q =>
      simp only at h
      split at h
      · cases h
      split at h
      · cases hread : htaccessReadQuoted (c :: q) with
        | none =>
            rw [hread] at h
            cases h
        | some read =>
            rw [hread] at h
            cases h
            have hbytes := hp.2
            rw [(htaccessReadQuoted_eq_some hread).1] at hbytes
            simp only [List.mem_cons, List.mem_append, not_or] at hbytes
            exact ⟨hbytes.2.1, hbytes.2.2.2⟩
      split at h
      · cases hfind : ngxStrlchr (c :: q) (ch '>') with
        | none =>
            rw [hfind] at h
            cases h
        | some found =>
            rw [hfind] at h
            cases h
            have hbytes := hp.2
            rw [(ngxStrlchr_eq_some hfind).1] at hbytes
            simp only [List.mem_cons, List.mem_append, not_or] at hbytes
            refine ⟨?_, hbytes.2.2⟩
            simp only [List.mem_append, List.mem_singleton, not_or]
            exact ⟨hbytes.1, hbytes.2.1⟩
      · split at h
        · cases h
        · cases h
          have hbytes := hp.2
          rw [htaccessScanEscaped_split isBareEnd (c :: q), List.mem_append, not_or] at hbytes
          exact hbytes

theorem htaccessLexLineLoop_free {fuel : Nat} {p q : NgxStr} {before tokens : List NgxStr}
    (h : htaccessLexLineLoop fuel p before = some (tokens, q)) (hp : x ∉ p)
    (hbefore : ∀ t ∈ before, x ∉ t) : (∀ t ∈ tokens, x ∉ t) ∧ x ∉ q := by
  induction fuel generalizing p before with
  | zero =>
      cases h
      exact ⟨hbefore, hp⟩
  | succ fuel ih =>
      obtain ⟨blanks, hsplit⟩ := htaccessSkipSpace_suffix p
      rw [htaccessLexLineLoop] at h
      generalize htaccessSkipSpace p = rest at h hsplit
      rw [hsplit, List.mem_append, not_or] at hp
      cases rest with
      | nil =>
          cases h
          exact ⟨hbefore, List.not_mem_nil⟩
      | cons c rest =>
          simp only at h
          split at h
          · cases h
            exact ⟨hbefore, hp.2⟩
          cases htoken : htaccessLexToken (c :: rest) with
          | error =>
              rw [htoken] at h
              cases h
          | done _ =>
              rw [htoken] at h
              cases h
              exact ⟨hbefore, hp.2⟩
          | ok token next =>
              rw [htoken] at h
              obtain ⟨hfree, hnext⟩ := htaccessLexToken_free htoken hp.2
              refine ih h hnext fun t ht => ?_
              rcases List.mem_append.mp ht with ht | ht
              · exact hbefore t ht
              · rwa [List.mem_singleton.mp ht]

theorem lexedLoop_free {fuel : Nat} {p : NgxStr} (hp : x ∉ p) :
    ∀ line ∈ (lexedLoop fuel p).1, ∀ t ∈ line, x ∉ t := by
  induction fuel generalizing p with
  | zero => exact fun _ hline => absurd hline List.not_mem_nil
  | succ fuel ih =>
      cases p with
      | nil => exact fun _ hline => absurd hline List.not_mem_nil
      | cons c p =>
          rw [lexedLoop]
          cases hlex : htaccessLexLine (c :: p) with
          | none => exact fun _ hline => absurd hline List.not_mem_nil
          | some read =>
              obtain ⟨⟨tokens, q⟩, hloop, rfl⟩ := Option.map_eq_some_iff.mp hlex
              obtain ⟨htokens, hq⟩ := htaccessLexLineLoop_free hloop hp (by simp)
              obtain ⟨skipped, hskip⟩ := htaccessSkipLine_suffix q
              rw [hskip, List.mem_append, not_or] at hq
              intro line hline
              rcases List.mem_cons.mp hline with rfl | hline
              · exact htokens
              · exact ih hq.2 line hline

theorem lexedText_free {text : NgxStr} (h : x ∉ text) :
    ∀ line ∈ (lexedText text).1, ∀ t ∈ line, x ∉ t :=
  fun line hline => lexedLoop_free h line (List.mem_of_mem_filter hline)

end Tokens

section Template

/-- No string that a variable can stand for has a zero byte. -/
structure NulFree (r : Request) (state : RequestState) : Prop where
  server : 0 ∉ r.server
  headers : ∀ h ∈ r.headersIn, 0 ∉ h.2
  env : ∀ v ∈ state.env.getD [], 0 ∉ v.value
  uri : 0 ∉ state.uri
  filename : 0 ∉ state.filename
  queryString : 0 ∉ state.queryString

variable {r : Request} {state : RequestState}

theorem findHeader_free (h : NulFree r state) {name value : NgxStr}
    (hfind : findHeader r name = some value) : 0 ∉ value := by
  obtain ⟨header, hheader, rfl⟩ := Option.map_eq_some_iff.mp hfind
  exact h.headers header (List.mem_of_find?_eq_some hheader)

theorem htaccessEnvGet_free (h : NulFree r state) {name value : NgxStr}
    (hget : htaccessEnvGet state name = some value) : 0 ∉ value := by
  have hvars := h.env
  rw [htaccessEnvGet] at hget
  cases henv : state.env with
  | none =>
      rw [henv] at hget
      cases hget
  | some vars =>
      rw [henv] at hget hvars
      obtain ⟨v, hv, rfl⟩ := Option.map_eq_some_iff.mp hget
      exact hvars v (List.mem_of_find?_eq_some hv)

theorem expandVariable_free (h : NulFree r state) {name value : NgxStr}
    (hvalue : expandVariable r state name = some value) : 0 ∉ value := by
  unfold expandVariable at hvalue
  split_ifs at hvalue <;> cases hvalue
  · cases hget : htaccessEnvGet state (name.drop 4) with
    | none => exact List.not_mem_nil
    | some value => exact htaccessEnvGet_free h hget
  · exact h.server
  · rw [htaccessGetHttpHeader]
    cases hfind : findHeader r (name.drop 5) with
    | some value => exact findHeader_free h hfind
    | none =>
        simp only
        split
        · exact h.server
        · exact List.not_mem_nil
  · exact h.queryString
  · exact h.filename
  · exact h.uri

theorem htaccessExpand_free (sys : Sys) (h : NulFree r state) {tpl expanded : NgxStr}
    (htpl : 0 ∉ tpl) (hexpand : htaccessExpand sys r state tpl none = some expanded) :
    0 ∉ expanded := by
  rw [htaccessExpand_eq_some hexpand]
  intro hmem
  obtain ⟨piece, hpiece, hbyte⟩ := List.mem_flatMap.mp hmem
  cases piece with
  | byte c =>
      have hc : 0 = c := List.mem_singleton.mp hbyte
      exact htpl (hc ▸ templateScan_byte hpiece)
  | capture d => cases hbyte
  | named name =>
      rw [Piece.text] at hbyte
      cases hvalue : expandVariable r state name with
      | none =>
          rw [hvalue] at hbyte
          cases hbyte
      | some value =>
          rw [hvalue] at hbyte
          exact expandVariable_free h hvalue hbyte

end Template

/-- The calls that hand a path to the system, with what the path is composed of: the file tests of
`htaccess_test_cond` on the resolved file name and on an expanded template, the two functions that
take a joined path, the argument of AuthUserFile in the tokens of a text, and Options. -/
inductive PathUse where
  | fileTest (conf : LocConf) (state : RequestState)
  | fspath (conf : LocConf) (r : Request) (state : RequestState) (template : NgxStr)
  | loadFile (root suffix filename : NgxStr)
  | parseFile (root suffix filename : NgxStr)
  | checkHtpasswd (text argument : NgxStr)
      (lexed : ∃ line ∈ (lexedText text).1, argument ∈ line)
  | applyOptions (conf : LocConf) (uri : NgxStr)

namespace PathUse

/-- The path that the code composes; none without a root to resolve in, or if the template does
not expand. -/
def intended (sys : Sys) : PathUse → Option NgxStr
  | fileTest conf state =>
      if conf.root = [] then none else some (htaccessResolveFilename conf state).filename
  | fspath conf r state template =>
      (htaccessExpand sys r state template none).map fun expanded =>
        conf.root ++ slashAfter conf.root ++ expanded
  | loadFile root suffix filename | parseFile root suffix filename =>
      some (htaccessJoinPath root suffix filename).1
  | checkHtpasswd _ argument _ => some argument
  | applyOptions conf uri => some (conf.root ++ uri)

/-- The code writes a zero byte behind the path. -/
def terminated : PathUse → Bool
  | fspath .. | loadFile .. | parseFile .. => true
  | fileTest .. | checkHtpasswd .. | applyOptions .. => false

/-- The bytes that are written of the path. -/
def written (sys : Sys) (use : PathUse) : Option NgxStr :=
  (use.intended sys).map fun path => if use.terminated then path ++ [0] else path

/-- The C string at the buffer: what was written, then what the memory holds behind it. -/
def handed (sys : Sys) (use : PathUse) : Option NgxStr :=
  (use.written sys).map fun s => cString (s ++ sys.tail s)

def NulFree : PathUse → Prop
  | fileTest conf state => 0 ∉ conf.root ∧ 0 ∉ state.uri
  | fspath conf r state template =>
      0 ∉ conf.root ∧ 0 ∉ template ∧ NgxHtaccess.NulFree r state
  | loadFile root suffix filename | parseFile root suffix filename =>
      0 ∉ root ∧ 0 ∉ suffix ∧ 0 ∉ filename
  | checkHtpasswd text _ _ => 0 ∉ text
  | applyOptions conf uri => 0 ∉ conf.root ∧ 0 ∉ uri

/-- What the code leaves in memory for the path, in the steps of the code. -/
def produce (sys : Sys) : PathUse → Building (Option (Buffer UInt8))
  | fileTest conf state => do
      let outs ← htaccessResolveFilenameBytes conf.root state.uri
      return outs.head?.map (·.buffer)
  | fspath conf r state template =>
      match htaccessExpand sys r state template none with
      | none => .ok none
      | some expanded => do
          let path ← fspathBytes conf.root expanded
          return some path.buffer
  | loadFile root suffix filename | parseFile root suffix filename => do
      let joined ← htaccessJoinPathBytes root suffix filename
      return some joined.1
  | checkHtpasswd _ argument _ => do
      -- the copy that `htaccess_lex_line` makes of a token
      let p ← cpymem (.start argument.length) argument
      return some p.buffer
  | applyOptions conf uri => do
      -- `ngx_snprintf(name, len, "%V%V", &root, &uri)`
      let len ← sizeSum [conf.root.length, uri.length, 1]
      let p ← cpymem (.start len) ((conf.root ++ uri).take len)
      return some p.buffer

/-- The sum of lengths that is allocated for the path. -/
def needs (sys : Sys) : PathUse → Nat
  | fileTest conf state => totalLen [conf.root.length, state.uri.length, 1]
  | fspath conf r state template =>
      totalLen [conf.root.length, ((htaccessExpand sys r state template none).getD []).length, 2]
  | loadFile root suffix filename | parseFile root suffix filename =>
      totalLen [root.length, suffix.length, filename.length, 3]
  | checkHtpasswd _ argument _ => argument.length
  | applyOptions conf uri => totalLen [conf.root.length, uri.length, 1]

end PathUse

section Uses
variable {sys : Sys}

/-- The buffers hold what is said to be written. -/
theorem produce_gives (use : PathUse) :
    Gives (use.needs sys) (use.produce sys) fun b => b.map (·.written) = use.written sys := by
  have hneeds := Nat.le_refl (use.needs sys)
  cases use with
  | fileTest conf state =>
      refine (htaccessResolveFilenameBytes_gives hneeds).bind fun outs houts => ?_
      simp only [PathUse.written, PathUse.intended, PathUse.terminated]
      split at houts
      · rename_i hroot
        cases houts
        rw [if_pos hroot]
        rfl
      · rename_i hroot
        cases houts with
        | cons hout hnil =>
            cases hnil
            rw [if_neg hroot, List.head?_cons]
            exact congrArg some hout.written
  | fspath conf r state template =>
      simp only [PathUse.produce, PathUse.written, PathUse.intended, PathUse.terminated,
        PathUse.needs] at hneeds ⊢
      cases hexpand : htaccessExpand sys r state template none with
      | none => rfl
      | some expanded =>
          rw [hexpand] at hneeds
          exact (fspathBytes_gives hneeds).bind fun path hpath => congrArg some hpath.1
  | loadFile root suffix filename | parseFile root suffix filename =>
      exact (htaccessJoinPathBytes_gives hneeds).bind fun joined hjoined => congrArg some hjoined.1
  | checkHtpasswd text argument lexed =>
      exact (cpymem_gives (Cursor.behind_start _) (Nat.le_refl _)).bind fun p hp =>
        congrArg some hp.written
  | applyOptions conf uri =>
      refine (sizeSum_gives hneeds).bind fun size hsize => ?_
      simp only [totalLen_cons, totalLen_nil] at hsize
      have hall : (conf.root ++ uri).take size = conf.root ++ uri :=
        List.take_of_length_le (by rw [List.length_append]; omega)
      rw [hall]
      refine (cpymem_gives (Cursor.behind_start size) (by simp; omega)).bind fun p hp => ?_
      exact congrArg some hp.written

theorem slashAfter_free (s : NgxStr) : 0 ∉ slashAfter s := by
  unfold slashAfter
  split <;> decide

theorem htaccessJoinPath_free {root suffix filename : NgxStr} (hroot : 0 ∉ root)
    (hsuffix : 0 ∉ suffix) (hfilename : 0 ∉ filename) :
    0 ∉ (htaccessJoinPath root suffix filename).1 := by
  have hpath : (htaccessJoinPath root suffix filename).1 = root ++ slashAfter root ++
      (if suffix = [] then [] else suffix ++ slashAfter suffix) ++ filename := rfl
  rw [hpath]
  simp only [List.mem_append, not_or]
  refine ⟨⟨⟨hroot, slashAfter_free root⟩, ?_⟩, hfilename⟩
  split
  · exact List.not_mem_nil
  · rw [List.mem_append, not_or]
    exact ⟨hsuffix, slashAfter_free suffix⟩

theorem intended_free {use : PathUse} (h : use.NulFree) {path : NgxStr}
    (hpath : use.intended sys = some path) : 0 ∉ path := by
  cases use with
  | fileTest conf state =>
      simp only [PathUse.intended] at hpath
      split at hpath
      case isTrue => cases hpath
      rename_i hroot
      cases hpath
      have hslash := slashAfter_free conf.root
      rw [htaccessResolveFilename, if_neg hroot, ← slashAfter]
      simp only [List.mem_append, not_or]
      exact ⟨⟨h.1, hslash⟩, fun hmem => h.2 (List.mem_of_mem_drop hmem)⟩
  | fspath conf r state template =>
      obtain ⟨expanded, hexpand, rfl⟩ := Option.map_eq_some_iff.mp hpath
      simp only [List.mem_append, not_or]
      exact ⟨⟨h.1, slashAfter_free conf.root⟩, htaccessExpand_free sys h.2.2 h.2.1 hexpand⟩
  | loadFile root suffix filename | parseFile root suffix filename =>
      cases hpath
      exact htaccessJoinPath_free h.1 h.2.1 h.2.2
  | checkHtpasswd text argument lexed =>
      cases hpath
      obtain ⟨line, hline, hargument⟩ := lexed
      exact lexedText_free h line hline _ hargument
  | applyOptions conf uri =>
      cases hpath
      rw [List.mem_append, not_or]
      exact h

theorem cString_tail_iff {path : NgxStr} (h : 0 ∉ path) (behind : NgxStr) :
    cString (path ++ behind) = path ↔ behind.headD 0 = 0 := by
  cases behind with
  | nil =>
      rw [List.append_nil]
      exact iff_of_true (cString_of_noNul h) rfl
  | cons c behind =>
      by_cases hc : c = 0
      · subst hc
        exact iff_of_true (cString_append h behind) rfl
      · refine iff_of_false (fun hsame => ?_) hc
        have hlong : cString (path ++ c :: behind) = path ++ (c :: cString behind) := by
          rw [cString, List.takeWhile_append_of_pos (ne_of_not_mem h), List.takeWhile_cons,
            if_pos (by simpa using hc)]
          rfl
        rw [hlong] at hsame
        exact List.cons_ne_nil _ _ (List.append_right_eq_self.mp hsame)

end Uses

section Calls
variable (sys : Sys)

theorem handed_terminated {use : PathUse} (h : use.terminated = true) :
    use.handed sys = (use.intended sys).map cString := by
  rw [PathUse.handed, PathUse.written, Option.map_map, h]
  refine congrArg (Option.map · _) (funext fun path => ?_)
  simp only [Function.comp_apply, if_true, List.append_assoc, List.singleton_append]
  exact takeWhile_ne_cut path 0 _

/-- A file test on the resolved file name asks for the string at `state->filename`. -/
theorem filenameInfo_hands (conf : LocConf) (state : RequestState) :
    filenameInfo sys (htaccessResolveFilename conf state) =
      ((PathUse.fileTest conf state).handed sys).bind sys.fs.fileInfo := by
  rw [filenameInfo, PathUse.handed, PathUse.written, PathUse.intended]
  by_cases hroot : conf.root = []
  · rw [if_pos hroot, htaccessResolveFilename, if_pos hroot, if_pos rfl]
    rfl
  · have hne : (htaccessResolveFilename conf state).filename ≠ [] := by
      rw [htaccessResolveFilename, if_neg hroot]
      exact List.append_ne_nil_of_left_ne_nil (List.append_ne_nil_of_left_ne_nil hroot _) _
    rw [if_neg hroot, if_neg hne]
    rfl

theorem htaccessTestCond_hands (conf : LocConf) (r : Request) (state : RequestState)
    {cond : RewriteCond} (h : cond.test = .fspath) :
    htaccessTestCond sys conf r state cond =
      ((PathUse.fspath conf r state cond.name).handed sys).elim ngxError
        fun path => htaccessFileTest (sys.fs.fileInfo path) cond.op := by
  rw [handed_terminated sys rfl, PathUse.intended, htaccessTestCond, h]
  simp only [reduceCtorEq, false_and, if_false, if_true]
  cases htaccessExpand sys r state cond.name none with
  | none => rfl
  | some expanded => rfl

theorem walkDirs_hands (conf : LocConf) (uri : NgxStr) :
    ∀ d ∈ walkDirs conf uri, ∃ suffix,
      (PathUse.loadFile conf.root suffix conf.filename).handed sys = some d.path ∧
        (PathUse.parseFile conf.root suffix conf.filename).handed sys = some d.path := by
  intro d hd
  rcases List.mem_cons.mp hd with rfl | hd
  · exact ⟨[], handed_terminated sys rfl, handed_terminated sys rfl⟩
  · obtain ⟨i, _, rfl⟩ := List.mem_map.mp hd
    exact ⟨(uri.drop 1).take (i - 1), handed_terminated sys rfl, handed_terminated sys rfl⟩

theorem htaccessCheckHtpasswd_hands {text argument : NgxStr}
    (lexed : ∃ line ∈ (lexedText text).1, argument ∈ line) :
    (PathUse.checkHtpasswd text argument lexed).handed sys = some (sys.unterminated argument) :=
  rfl

theorem htaccessApplyOptions_hands (conf : LocConf) (r : Request) (merged : MergedCtx) :
    htaccessApplyOptions sys conf r merged =
      if merged.options ∧ 1 < r.uri.length ∧ r.uri.getLast? = some (ch '/') then
        if (((PathUse.applyOptions conf r.uri).handed sys).bind sys.fs.fileInfo).any (·.isDir) then
          .forbidden
        else .declined
      else .declined := rfl

end Calls

/-- The path that is handed on is the one that was composed exactly if the code ends it with a zero
byte, or the memory does. -/
theorem handed_intended_iff (sys : Sys) {use : PathUse} (h : use.NulFree) :
    use.handed sys = use.intended sys ↔
      ∀ path ∈ use.intended sys, use.terminated = true ∨ (sys.tail path).headD 0 = 0 := by
  rw [PathUse.handed, PathUse.written]
  cases hintended : use.intended sys with
  | none => exact iff_of_true rfl fun path hpath => nomatch hpath
  | some path =>
      have hfree := intended_free h hintended
      simp only [Option.map_some, Option.some_inj, Option.mem_def, forall_eq']
      cases use.terminated with
      | true =>
          refine iff_of_true ?_ (.inl rfl)
          simp only [if_true, List.append_assoc, List.singleton_append]
          exact cString_append hfree _
      | false =>
          simp only [Bool.false_eq_true, if_false, false_or]
          exact cString_tail_iff hfree _

/-- A letter is left over behind every buffer. -/
def staleSys : Sys := { siteSys (siteFs 0 [("/w/a", "")]) with tail _ := lit "x" }

def staleState : RequestState where
  uri := lit "/a"
  filename := []
  queryString := []
  env := none
  redirectCode := 0

theorem nulFree_stale : NulFree (siteRequest "/a") staleState where
  server := by decide
  headers := by decide
  env := by decide
  uri := by decide
  filename := by decide
  queryString := by decide

/-- Behind a terminated path the letter does not matter. -/
theorem fspath_as_composed :
    (PathUse.fspath (siteConf 0) (siteRequest "/a") staleState (lit "/a")).handed staleSys =
      (PathUse.fspath (siteConf 0) (siteRequest "/a") staleState (lit "/a")).intended staleSys := by
  have hfree : (PathUse.fspath (siteConf 0) (siteRequest "/a") staleState (lit "/a")).NulFree :=
    ⟨by decide, by decide, nulFree_stale⟩
  exact (handed_intended_iff staleSys hfree).mpr fun _ _ => .inl rfl

/-- `RewriteCond f -f`: a test without a variable is on the file name. -/
def fileCond : RewriteCond where
  test := .filename
  name := []
  op := .file
  value := lit "-f"
  orNext := false

/-- The file is there, but the condition asks for the name with the letter behind it. -/
theorem stale_letter_read :
    htaccessParseRewriteCond [lit "RewriteCond", lit "f", lit "-f"] = some fileCond ∧
      (PathUse.fileTest (siteConf 0) staleState).NulFree ∧
      (PathUse.fileTest (siteConf 0) staleState).handed staleSys ≠
        (PathUse.fileTest (siteConf 0) staleState).intended staleSys ∧
      htaccessFileTest (staleSys.fs.fileInfo (lit "/w/a")) fileCond.op = 1 ∧
      htaccessTestCond staleSys (siteConf 0) (siteRequest "/a")
        (htaccessResolveFilename (siteConf 0) staleState) fileCond = 0 := by
  have hfree : (PathUse.fileTest (siteConf 0) staleState).NulFree := ⟨by decide, by decide⟩
  exact ⟨by decide +kernel, hfree, by decide, by decide +kernel, by decide +kernel⟩

end NgxHtaccess
