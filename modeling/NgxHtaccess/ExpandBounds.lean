import NgxHtaccess.Expansion
import NgxHtaccess.Site

/-!
`htaccess_expand` with its pointers: the cursor in the template, the cursor in the buffer
and every byte read or written through them. An access outside of what it points into is a
fault. For captures inside the match string there is none, and the run computes the same
text as the expansion on lists.
-/
namespace NgxHtaccess
open BoundedBuffer

/-- The accesses that C leaves undefined, and a loop that does not end. -/
inductive ExpandFault where
  | templateRead (i : Nat)
  | subjectRead (start stop : Int)
  | captureRead (i : Nat)
  | bufferWrite (i : Nat)
  | endless
  deriving DecidableEq

/-- What a run gives unless it is undefined. -/
abbrev Pointed (α : Type) := Except ExpandFault α

/-- `tpl->data[i]`. -/
def templateRead (tpl : NgxStr) (i : Nat) : Pointed UInt8 :=
  match tpl[i]? with
  | some c => .ok c
  | none => .error (.templateRead i)

def templateReads (tpl : NgxStr) (start : Nat) : Nat → Pointed NgxStr
  | 0 => .ok []
  | len + 1 => do
      let c ← templateRead tpl start
      let s ← templateReads tpl (start + 1) len
      return c :: s

def subjectReads (subject : NgxStr) (start stop : Int) : Pointed NgxStr :=
  if 0 ≤ start ∧ start ≤ stop ∧ stop ≤ subject.length then
    .ok ((subject.drop start.toNat).take (stop - start).toNat)
  else .error (.subjectRead start stop)

def captureRead (m : MatchCtx) (i : Nat) : Pointed Int :=
  if i < m.ncaptures then .ok (m.captures i) else .error (.captureRead i)

/-- `ngx_cpymem` into a buffer of `size` bytes, of which `dst` are written. -/
def ngxCpymem (size : Nat) : NgxStr → NgxStr → Pointed NgxStr
  | dst, [] => .ok dst
  | dst, c :: src =>
      if dst.length < size then ngxCpymem size (dst ++ [c]) src
      else .error (.bufferWrite dst.length)

/-- `htaccess_expand_copy` of `len` bytes; `none` is `NGX_ERROR`. -/
def htaccessExpandCopyFrom (size : Nat) (dst : NgxStr) (len : Nat) (src : Pointed NgxStr) :
    Pointed (Option NgxStr) :=
  if size < dst.length + len then .ok none
  else do
    let src ← src
    let dst ← ngxCpymem size dst src
    return some dst

/-- A copy after which the cursor goes on at `p`. -/
def copyTo (size p : Nat) (dst : NgxStr) (len : Nat) (src : Pointed NgxStr) :
    Pointed (Option (Nat × NgxStr)) := do
  let dst ← htaccessExpandCopyFrom size dst len src
  return dst.map (Prod.mk p)

/-- `p + 1 < end` and a test of `p[1]`. -/
def nextByte (tpl : NgxStr) (p : Nat) (test : UInt8 → Bool) : Pointed Bool :=
  if p + 1 < tpl.length then do
    let d ← templateRead tpl (p + 1)
    return test d
  else .ok false

/-- `ngx_strlchr(p, end, c)` for `len` bytes up to the end. -/
def strlchrFrom (tpl : NgxStr) (c : UInt8) : Nat → Nat → Pointed (Option Nat)
  | _, 0 => .ok none
  | p, len + 1 => do
      let d ← templateRead tpl p
      if d = c then return some p else strlchrFrom tpl c (p + 1) len

/-- The test of a keyword against the name of `len` bytes at `start`. -/
def keywordAt (tpl : NgxStr) (start len : Nat) (keyword : NgxStr) : Pointed Bool :=
  if keyword.length ≤ len then do
    let s ← templateReads tpl start keyword.length
    return ngxStrncasecmpEq s keyword keyword.length
  else .ok false

/-- The variable that the name of `len` bytes at `start` stands for. -/
def variableAt (r : Request) (state : RequestState) (tpl : NgxStr) (start len : Nat) :
    Pointed (Option NgxStr) := do
  if ← keywordAt tpl start len (lit "ENV:") then
    let name ← templateReads tpl (start + 4) (len - 4)
    return some ((htaccessEnvGet state name).getD [])
  if ← keywordAt tpl start len (lit "HTTP_HOST") then return some r.server
  if ← keywordAt tpl start len (lit "HTTP:") then
    let name ← templateReads tpl (start + 5) (len - 5)
    return some (htaccessGetHttpHeader r name)
  if ← keywordAt tpl start len (lit "QUERY_STRING") then return some state.queryString
  if ← keywordAt tpl start len (lit "REQUEST_FILENAME") then return some state.filename
  if ← keywordAt tpl start len (lit "REQUEST_URI") then return some state.uri
  return none

section Machine
variable (r : Request) (state : RequestState) (tpl : NgxStr) (m : Option MatchCtx) (size : Nat)

/-- The branch for `$d`. -/
def captureRound (p : Nat) (dst : NgxStr) : Pointed (Option (Nat × NgxStr)) := do
  let d ← templateRead tpl (p + 1)
  let n := (d - ch '0').toNat
  match m with
  | none => return some (p + 2, dst)
  | some m =>
      if n * 2 + 1 < m.ncaptures then
        let start ← captureRead m (n * 2)
        if 0 ≤ start then
          let stop ← captureRead m (n * 2 + 1)
          copyTo size (p + 2) dst (stop - start).toNat (subjectReads m.subject start stop)
        else return some (p + 2, dst)
      else return some (p + 2, dst)

/-- The branch for `%{`. -/
def variableRound (p : Nat) (dst : NgxStr) : Pointed (Option (Nat × NgxStr)) := do
  match ← strlchrFrom tpl (ch '}') (p + 2) (tpl.length - (p + 2)) with
  | none => return none
  | some q =>
      match ← variableAt r state tpl (p + 2) (q - (p + 2)) with
      | none => return some (q + 1, dst)
      | some value =>
          if value = [] then return some (q + 1, dst)
          else copyTo size (q + 1) dst value.length (.ok value)

/-- One round of the loop: the cursors after it, or `none` for `NGX_ERROR`. -/
def expandRound (p : Nat) (dst : NgxStr) : Pointed (Option (Nat × NgxStr)) := do
  let c ← templateRead tpl p
  if c = ch '\\' ∧ p + 1 < tpl.length then
    copyTo size (p + 2) dst 1 (templateReads tpl (p + 1) 1)
  else if ← (if c = ch '$' then nextByte tpl p isDigit else .ok false) then
    captureRound tpl m size p dst
  else if ← (if c = ch '%' then nextByte tpl p (· = ch '{') else .ok false) then
    variableRound r state tpl size p dst
  else copyTo size (p + 1) dst 1 (templateReads tpl p 1)

/-- `while (p < end)`, for at most `fuel` rounds. -/
def expandRounds : Nat → Nat → NgxStr → Pointed (Option NgxStr)
  | 0, p, dst => if p < tpl.length then .error .endless else .ok (some dst)
  | fuel + 1, p, dst =>
      if p < tpl.length then do
        match ← expandRound r state tpl m size p dst with
        | none => return none
        | some (p, dst) => expandRounds fuel p dst
      else .ok (some dst)

/-- `htaccess_expand` as it is called: its return code and what it leaves in `out`. The
buffer is there if `allocated`, and a template of `n` bytes has `n` rounds at most. -/
def htaccessExpandPointed (allocated : Bool) (out : NgxStr) : Pointed (Int × NgxStr) :=
  if allocated then do
    match ← expandRounds r state tpl m (tpl.length * 4 + 256) tpl.length 0 [] with
    | none => return (ngxError, out)
    | some dst => return (ngxOk, dst)
  else .ok (ngxError, out)

end Machine

@[simp] theorem pointed_bind {α β : Type} (a : α) (f : α → Pointed β) :
    ((.ok a : Pointed α) >>= f) = f a := rfl

@[simp] theorem pointed_pure {α : Type} (a : α) : (pure a : Pointed α) = .ok a := rfl

section Reads
variable {tpl : NgxStr}

theorem cursor_cons {p : Nat} {c : UInt8} {rest : NgxStr} (h : tpl.drop p = c :: rest) :
    templateRead tpl p = .ok c ∧ tpl.drop (p + 1) = rest ∧ tpl.length = p + 1 + rest.length := by
  have hget : tpl[p]? = some c := by
    rw [← Nat.add_zero p, ← List.getElem?_drop, h]
    rfl
  refine ⟨by rw [templateRead, hget], ?_, ?_⟩
  · rw [← List.tail_drop, h, List.tail_cons]
  · have hlen := congrArg List.length h
    rw [List.length_drop, List.length_cons] at hlen
    omega

theorem cursor_of_lt {p : Nat} (h : p < tpl.length) : ∃ c rest, tpl.drop p = c :: rest :=
  ⟨_, _, List.drop_eq_getElem_cons h⟩

theorem templateReads_eq (start len : Nat) (h : start + len ≤ tpl.length) :
    templateReads tpl start len = .ok ((tpl.drop start).take len) := by
  induction len generalizing start with
  | zero => rfl
  | succ len ih =>
      obtain ⟨c, rest, hcons⟩ := @cursor_of_lt tpl start (by omega)
      obtain ⟨hread, hrest, -⟩ := cursor_cons hcons
      rw [templateReads, hread, ih (start + 1) (by omega), hrest, hcons, List.take_succ_cons]
      rfl

theorem strlchrFrom_eq (c : UInt8) (p len : Nat) (h : p + len = tpl.length) :
    strlchrFrom tpl c p len =
      .ok ((ngxStrlchr (tpl.drop p) c).map fun parts => p + parts.1.length) := by
  induction len generalizing p with
  | zero =>
      rw [List.drop_of_length_le (by omega)]
      rfl
  | succ len ih =>
      obtain ⟨d, rest, hcons⟩ := @cursor_of_lt tpl p (by omega)
      obtain ⟨hread, hrest, -⟩ := cursor_cons hcons
      rw [strlchrFrom, hread, hcons, ngxStrlchr_cons, ih (p + 1) (by omega), hrest]
      by_cases hd : d = c
      · simp only [hd, pointed_bind, if_true]
        rfl
      · simp only [hd, pointed_bind, if_false, Option.map_map]
        congr 2
        funext parts
        simp only [Function.comp_apply, List.length_cons]
        omega

theorem keywordAt_eq (start len : Nat) (keyword : NgxStr) (h : start + len ≤ tpl.length) :
    keywordAt tpl start len keyword =
      .ok (decide (keyword.length ≤ ((tpl.drop start).take len).length ∧
        ngxStrncasecmpEq ((tpl.drop start).take len) keyword keyword.length = true)) := by
  have hlen : ((tpl.drop start).take len).length = len := by
    rw [List.length_take, List.length_drop]
    omega
  unfold keywordAt
  rw [hlen]
  by_cases hle : keyword.length ≤ len
  · have hsplit : (tpl.drop start).take len =
        (tpl.drop start).take keyword.length ++
          ((tpl.drop start).drop keyword.length).take (len - keyword.length) := by
      rw [← List.take_add, Nat.add_sub_cancel' hle]
    have htake : keyword.length ≤ ((tpl.drop start).take keyword.length).length := by
      rw [List.length_take, List.length_drop]
      omega
    rw [if_pos hle, templateReads_eq start keyword.length (by omega), hsplit,
      ngxStrncasecmpEq_append _ _ _ htake]
    simp only [hle, true_and, Bool.decide_eq_true]
    rfl
  · rw [if_neg hle]
    simp only [hle, false_and, decide_false]

theorem variableAt_eq (r : Request) (state : RequestState) (start len : Nat)
    (h : start + len ≤ tpl.length) :
    variableAt r state tpl start len =
      .ok (expandVariable r state ((tpl.drop start).take len)) := by
  have hkeyword := fun keyword => keywordAt_eq start len keyword h
  have hlen : ((tpl.drop start).take len).length = len := by
    rw [List.length_take, List.length_drop]
    omega
  have hname (n : Nat) (hn : n ≤ len) : templateReads tpl (start + n) (len - n) =
      .ok (((tpl.drop start).take len).drop n) := by
    rw [templateReads_eq _ _ (by omega), List.drop_take, List.drop_drop]
  have hlengths : (lit "ENV:").length = 4 ∧ (lit "HTTP_HOST").length = 9 ∧
      (lit "HTTP:").length = 5 ∧ (lit "QUERY_STRING").length = 12 ∧
      (lit "REQUEST_FILENAME").length = 16 ∧ (lit "REQUEST_URI").length = 11 := by decide
  unfold variableAt
  simp only [hkeyword, pointed_bind, pointed_pure, decide_eq_true_eq, hlengths]
  generalize (tpl.drop start).take len = name at *
  unfold expandVariable
  split_ifs with henv hhost hhttp
  · rw [hname 4 (hlen ▸ henv.1)]
    rfl
  · rfl
  · rw [hname 5 (hlen ▸ hhttp.1)]
    rfl
  all_goals rfl

end Reads

section Writes
variable {size : Nat} {dst : NgxStr}

theorem ngxCpymem_eq {src : NgxStr} (h : dst.length + src.length ≤ size) :
    ngxCpymem size dst src = .ok (dst ++ src) := by
  induction src generalizing dst with
  | nil => rw [ngxCpymem, List.append_nil]
  | cons c src ih =>
      rw [List.length_cons] at h
      have hrest : (dst ++ [c]).length + src.length ≤ size := by
        rw [List.length_append, List.length_singleton]
        omega
      rw [ngxCpymem, if_pos (by omega), ih hrest, List.append_assoc]
      rfl

theorem copyTo_eq (p : Nat) {len : Nat} {src : NgxStr} (hlen : src.length = len) :
    copyTo size p dst len (.ok src) = .ok ((put size dst src).map (Prod.mk p)) := by
  subst hlen
  unfold copyTo htaccessExpandCopyFrom put
  split
  · rfl
  · rename_i hfits
    rw [pointed_bind, ngxCpymem_eq (Nat.not_lt.mp hfits)]
    rfl

end Writes

/-- The captures that a successful match leaves: each pair is -1 or lies in the match string. -/
def CapturesInside (m : MatchCtx) : Prop :=
  ∀ n, n * 2 + 1 < m.ncaptures →
    (m.captures (n * 2) = -1 ∧ m.captures (n * 2 + 1) = -1) ∨
      (0 ≤ m.captures (n * 2) ∧ m.captures (n * 2) ≤ m.captures (n * 2 + 1) ∧
        m.captures (n * 2 + 1) ≤ m.subject.length)

section Rounds
variable (sys : Sys) (r : Request) (state : RequestState) {tpl : NgxStr}
  {m : Option MatchCtx} {size p : Nat} {dst : NgxStr}

theorem captureRound_eq (hm : ∀ x ∈ m, CapturesInside x) (hdst : dst.length ≤ size) {d : UInt8}
    (hread : templateRead tpl (p + 1) = .ok d) :
    captureRound tpl m size p dst =
      .ok ((put size dst (captureRef sys m (d - ch '0').toNat)).map (Prod.mk (p + 2))) := by
  unfold captureRound captureRef
  rw [hread, pointed_bind]
  cases m with
  | none =>
      rw [put_nil hdst]
      rfl
  | some m =>
      simp only
      generalize (d - ch '0').toNat = n
      by_cases hn : n * 2 + 1 < m.ncaptures
      · have hstart : captureRead m (n * 2) = .ok (m.captures (n * 2)) := if_pos (by omega)
        have hstop : captureRead m (n * 2 + 1) = .ok (m.captures (n * 2 + 1)) := if_pos hn
        rw [if_pos hn, hstart, pointed_bind]
        by_cases htaken : 0 ≤ m.captures (n * 2)
        · obtain ⟨hunset, -⟩ | hinside := hm m rfl n hn
          · omega
          rw [if_pos htaken, hstop, pointed_bind, subjectReads, if_pos hinside,
            if_pos ⟨hn, htaken⟩, captureText, if_pos hinside]
          refine copyTo_eq (p + 2) ?_
          rw [List.length_take, List.length_drop]
          omega
        · rw [if_neg htaken, if_neg fun h => htaken h.2, put_nil hdst]
          rfl
      · rw [if_neg hn, if_neg fun h => hn h.1, put_nil hdst]
        rfl

theorem variableRound_eq (hdst : dst.length ≤ size) {p' : NgxStr} (hp : p + 2 ≤ tpl.length)
    (hrest : tpl.drop (p + 2) = p') :
    variableRound r state tpl size p dst =
      .ok ((ngxStrlchr p' (ch '}')).bind fun parts =>
        (put size dst ((expandVariable r state parts.1).getD [])).map
          (Prod.mk (tpl.length - parts.2.length))) := by
  unfold variableRound
  rw [strlchrFrom_eq (ch '}') (p + 2) _ (by omega), hrest, pointed_bind]
  cases hname : ngxStrlchr p' (ch '}') with
  | none => rfl
  | some parts =>
      obtain ⟨name, rest⟩ := parts
      obtain ⟨hsplit, -⟩ := ngxStrlchr_eq_some hname
      have hlen := congrArg List.length hsplit
      rw [← hrest, List.length_drop, List.length_append, List.length_cons] at hlen
      have hslice : (tpl.drop (p + 2)).take (p + 2 + name.length - (p + 2)) = name := by
        rw [hrest, hsplit, Nat.add_sub_cancel_left, List.take_left]
      have hnext : p + 2 + name.length + 1 = tpl.length - rest.length := by omega
      simp only [Option.map_some, Option.bind_some]
      rw [variableAt_eq r state (p + 2) _ (by omega), hslice, pointed_bind, hnext]
      cases expandVariable r state name with
      | none =>
          rw [Option.getD_none, put_nil hdst]
          rfl
      | some value =>
          rw [Option.getD_some]
          by_cases hvalue : value = []
          · simp only [hvalue, if_true, put_nil hdst]
            rfl
          · simp only [hvalue, if_false]
            exact copyTo_eq _ rfl

theorem guarded_false {p : Prop} [Decidable p] {test : Bool} (h : ¬ (p ∧ test = true)) :
    (if p then .ok test else .ok false : Pointed Bool) = .ok false := by
  split
  · rename_i hp
    rw [Bool.eq_false_iff.mpr fun htest => h ⟨hp, htest⟩]
  · rfl

/-- A round writes the text of the first piece and leaves the cursor behind it. -/
theorem expandRound_eq (hm : ∀ x ∈ m, CapturesInside x) (hdst : dst.length ≤ size)
    {c : UInt8} {rest : NgxStr} (hcons : tpl.drop p = c :: rest) :
    expandRound r state tpl m size p dst =
      .ok ((templateHead c rest).bind fun head =>
        (put size dst (head.1.text sys r state m)).map
          (Prod.mk (tpl.length - head.2.length))) := by
  obtain ⟨hread, hdrop, hlen⟩ := cursor_cons hcons
  have hone : templateReads tpl p 1 = .ok [c] := by
    rw [templateReads_eq p 1 (by omega), hcons]
    rfl
  have hnext : tpl.length - rest.length = p + 1 := by omega
  have hbyte : copyTo size (p + 1) dst 1 (templateReads tpl p 1) =
      .ok ((put size dst [c]).map (Prod.mk (tpl.length - rest.length))) := by
    rw [hone, hnext]
    exact copyTo_eq (p + 1) rfl
  unfold expandRound
  rw [hread, pointed_bind]
  cases rest with
  | nil =>
      have hend : ¬ p + 1 < tpl.length := by
        rw [hlen]
        exact Nat.lt_irrefl _
      have hno (test : UInt8 → Bool) : nextByte tpl p test = .ok false := if_neg hend
      rw [if_neg fun h => hend h.2]
      simp only [hno, ite_self, pointed_bind, Bool.false_eq_true, if_false]
      exact hbyte
  | cons d rest =>
      obtain ⟨hread', hdrop', hlen'⟩ := cursor_cons hdrop
      have hmore : p + 1 < tpl.length := by omega
      have htwo : tpl.length - rest.length = p + 2 := by omega
      have htest (test : UInt8 → Bool) : nextByte tpl p test = .ok (test d) := by
        rw [nextByte, if_pos hmore, hread']
        rfl
      have hescaped : templateReads tpl (p + 1) 1 = .ok [d] := by
        rw [templateReads_eq (p + 1) 1 (by omega), hdrop]
        rfl
      simp only [htest, templateHead]
      by_cases hescape : c = ch '\\'
      · rw [if_pos ⟨hescape, hmore⟩, if_pos hescape, hescaped, Option.bind_some, htwo]
        exact copyTo_eq (p + 2) rfl
      rw [if_neg fun h => hescape h.1, if_neg hescape]
      by_cases hcapture : c = ch '$' ∧ isDigit d = true
      · rw [if_pos hcapture.1, pointed_bind, if_pos hcapture.2, if_pos hcapture,
          Option.bind_some, htwo]
        exact captureRound_eq sys hm hdst hread'
      have hdigit : (if c = ch '$' then .ok (isDigit d) else .ok false : Pointed Bool) =
          .ok false := guarded_false hcapture
      rw [hdigit, pointed_bind, if_neg Bool.false_ne_true, if_neg hcapture]
      by_cases hvariable : c = ch '%' ∧ d = ch '{'
      · rw [if_pos hvariable.1, pointed_bind, if_pos (decide_eq_true hvariable.2),
          if_pos hvariable, variableRound_eq r state hdst (by omega) hdrop', Option.bind_map]
        rfl
      have hbrace : (if c = ch '%' then .ok (decide (d = ch '{')) else .ok false :
          Pointed Bool) = .ok false :=
        guarded_false fun h => hvariable ⟨h.1, of_decide_eq_true h.2⟩
      rw [hbrace, pointed_bind, if_neg Bool.false_ne_true, if_neg hvariable]
      exact hbyte

theorem expandRounds_eq (hm : ∀ x ∈ m, CapturesInside x) (fuel p : Nat) {dst : NgxStr}
    (hdst : dst.length ≤ size) (hfuel : (tpl.drop p).length ≤ fuel) :
    expandRounds r state tpl m size fuel p dst =
      .ok (htaccessExpandLoop sys r state m size fuel (tpl.drop p) dst) := by
  induction fuel generalizing p dst with
  | zero =>
      rw [List.length_drop] at hfuel
      rw [expandRounds, if_neg (by omega), List.drop_of_length_le (by omega)]
      rfl
  | succ fuel ih =>
      rw [expandRounds]
      by_cases hp : p < tpl.length
      · obtain ⟨c, rest, hcons⟩ := cursor_of_lt hp
        rw [if_pos hp, expandRound_eq sys r state hm hdst hcons, hcons,
          htaccessExpandLoop_cons sys r state m fuel c rest hdst, pointed_bind]
        cases hhead : templateHead c rest with
        | none => rfl
        | some head =>
            obtain ⟨piece, rest'⟩ := head
            simp only [Option.bind_some]
            cases hput : put size dst (piece.text sys r state m) with
            | none => rfl
            | some dst' =>
                obtain ⟨hfits, rfl⟩ := put_eq_some.mp hput
                have hdst' : (dst ++ piece.text sys r state m).length ≤ size := by
                  rw [List.length_append]
                  exact hfits
                have hsuffix : rest' <:+ tpl :=
                  (templateHead_suffix hhead).trans
                    ((List.suffix_cons c rest).trans (hcons ▸ List.drop_suffix p tpl))
                have hdrop := List.suffix_iff_eq_drop.mp hsuffix
                have hlen := (templateHead_suffix hhead).length_le
                rw [hcons, List.length_cons] at hfuel
                have hleft : (tpl.drop (tpl.length - rest'.length)).length ≤ fuel := by
                  rw [← hdrop]
                  omega
                have hrun := ih (tpl.length - rest'.length) hdst' hleft
                rw [← hdrop] at hrun
                exact hrun
      · rw [if_neg hp, List.drop_of_length_le (Nat.not_lt.mp hp)]
        rfl

/-- The run with pointers is the expansion on lists. -/
theorem htaccessExpandPointed_eq (hm : ∀ x ∈ m, CapturesInside x) (allocated : Bool)
    (out : NgxStr) :
    htaccessExpandPointed r state tpl m allocated out =
      .ok (if allocated then
        ((htaccessExpand sys r state tpl m).map (Prod.mk ngxOk)).getD (ngxError, out)
      else (ngxError, out)) := by
  unfold htaccessExpandPointed
  cases allocated with
  | false => rfl
  | true =>
      have hnil : ([] : NgxStr).length ≤ tpl.length * 4 + 256 := Nat.zero_le _
      have hall : (tpl.drop 0).length ≤ tpl.length := Nat.le_refl _
      have hrun := expandRounds_eq sys r state hm tpl.length 0 hnil hall
      rw [if_pos rfl, if_pos rfl, hrun, pointed_bind, htaccessExpand, List.drop_zero]
      cases htaccessExpandLoop sys r state m (tpl.length * 4 + 256) tpl.length tpl [] <;> rfl

end Rounds

/-- A byte that begins neither an escape nor `$d` nor `%{`. -/
def PlainByte (c : UInt8) (p : NgxStr) : Prop :=
  ¬ (c = ch '\\' ∧ p ≠ []) ∧ ¬ (c = ch '$' ∧ ∃ d ∈ p.head?, isDigit d = true) ∧
    ¬ (c = ch '%' ∧ p.head? = some (ch '{'))

/-- The pieces of a template, from left to right. -/
inductive TemplatePieces : NgxStr → List Piece → Prop where
  | nil : TemplatePieces [] []
  | escaped (c : UInt8) {p : NgxStr} {ps : List Piece} : TemplatePieces p ps →
      TemplatePieces (ch '\\' :: c :: p) (.byte c :: ps)
  | capture {d : UInt8} {p : NgxStr} {ps : List Piece} : isDigit d = true →
      TemplatePieces p ps →
      TemplatePieces (ch '$' :: d :: p) (.capture (d - ch '0').toNat :: ps)
  | named {name p : NgxStr} {ps : List Piece} : ch '}' ∉ name → TemplatePieces p ps →
      TemplatePieces (ch '%' :: ch '{' :: (name ++ ch '}' :: p)) (.named name :: ps)
  | byte {c : UInt8} {p : NgxStr} {ps : List Piece} : PlainByte c p → TemplatePieces p ps →
      TemplatePieces (c :: p) (.byte c :: ps)

theorem TemplatePieces.of_head {c : UInt8} {p rest : NgxStr} {piece : Piece}
    {ps : List Piece} (h : templateHead c p = some (piece, rest)) (hps : TemplatePieces rest ps) :
    TemplatePieces (c :: p) (piece :: ps) := by
  cases p with
  | nil =>
      cases h
      exact .byte (by simp [PlainByte]) hps
  | cons d p =>
      rw [templateHead] at h
      by_cases hescape : c = ch '\\'
      · rw [if_pos hescape] at h
        cases h
        exact hescape ▸ .escaped d hps
      rw [if_neg hescape] at h
      by_cases hcapture : c = ch '$' ∧ isDigit d = true
      · rw [if_pos hcapture] at h
        cases h
        exact hcapture.1 ▸ .capture hcapture.2 hps
      rw [if_neg hcapture] at h
      by_cases hvariable : c = ch '%' ∧ d = ch '{'
      · rw [if_pos hvariable] at h
        obtain ⟨parts, hname, heq⟩ := Option.map_eq_some_iff.mp h
        cases heq
        obtain ⟨rfl, hfirst⟩ := ngxStrlchr_eq_some hname
        rw [hvariable.1, hvariable.2]
        exact .named hfirst hps
      rw [if_neg hvariable] at h
      cases h
      refine .byte ⟨fun h => hescape h.1, fun h => ?_, fun h => ?_⟩ hps
      · obtain ⟨hdollar, d', hd, hdigit⟩ := h
        cases hd
        exact hcapture ⟨hdollar, hdigit⟩
      · exact hvariable ⟨h.1, Option.some.inj h.2⟩

theorem templateHead_plain {c : UInt8} {p : NgxStr} (h : PlainByte c p) :
    templateHead c p = some (.byte c, p) := by
  obtain ⟨hescape, hcapture, hvariable⟩ := h
  cases p with
  | nil => rfl
  | cons d p =>
      have hescape' : ¬ c = ch '\\' := fun h => hescape ⟨h, List.cons_ne_nil d p⟩
      have hcapture' : ¬ (c = ch '$' ∧ isDigit d = true) :=
        fun h => hcapture ⟨h.1, d, rfl, h.2⟩
      have hvariable' : ¬ (c = ch '%' ∧ d = ch '{') :=
        fun h => hvariable ⟨h.1, congrArg some h.2⟩
      rw [templateHead, if_neg hescape', if_neg hcapture', if_neg hvariable']

theorem TemplatePieces.head {c : UInt8} {p : NgxStr} {qs : List Piece}
    (h : TemplatePieces (c :: p) qs) :
    ∃ piece rest ps, templateHead c p = some (piece, rest) ∧ qs = piece :: ps ∧
      TemplatePieces rest ps := by
  cases h with
  | escaped d hps => exact ⟨_, _, _, rfl, rfl, hps⟩
  | capture hdigit hps =>
      refine ⟨_, _, _, ?_, rfl, hps⟩
      have hescape : ¬ ch '$' = ch '\\' := by decide
      rw [templateHead, if_neg hescape, if_pos ⟨rfl, hdigit⟩]
  | named hname hps =>
      refine ⟨_, _, _, ?_, rfl, hps⟩
      have hescape : ¬ ch '%' = ch '\\' := by decide
      have hcapture : ¬ (ch '%' = ch '$' ∧ isDigit (ch '{') = true) := by decide
      rw [templateHead, if_neg hescape, if_neg hcapture, if_pos ⟨rfl, rfl⟩,
        ngxStrlchr_append _ _ hname]
      rfl
  | byte hplain hps => exact ⟨_, _, _, templateHead_plain hplain, rfl, hps⟩

theorem templateScan_iff (fuel : Nat) {tpl : NgxStr} (h : tpl.length ≤ fuel) (qs : List Piece) :
    templateScan fuel tpl = (qs, true) ↔ TemplatePieces tpl qs := by
  induction fuel generalizing tpl qs with
  | zero =>
      cases List.length_eq_zero_iff.mp (Nat.le_zero.mp h)
      rw [templateScan, Prod.mk.injEq, and_iff_left rfl]
      constructor
      · rintro rfl
        exact .nil
      · rintro ⟨⟩
        rfl
  | succ fuel ih =>
      cases tpl with
      | nil =>
          rw [templateScan, Prod.mk.injEq, and_iff_left rfl]
          constructor
          · rintro rfl
            exact .nil
          · rintro ⟨⟩
            rfl
      | cons c p =>
          rw [templateScan]
          cases hhead : templateHead c p with
          | none =>
              refine iff_of_false (fun heq => by cases heq) fun hqs => ?_
              obtain ⟨piece, rest, ps, hsome, -, -⟩ := hqs.head
              rw [hhead] at hsome
              cases hsome
          | some head =>
              obtain ⟨piece, rest⟩ := head
              have hlen := (templateHead_suffix hhead).length_le
              rw [List.length_cons] at h
              have hle : rest.length ≤ fuel := by omega
              have hrest := ih hle
              constructor
              · intro heq
                rw [Prod.mk.injEq] at heq
                obtain ⟨rfl, hend⟩ := heq
                exact .of_head hhead ((hrest _).mp (Prod.ext rfl hend))
              · intro hqs
                obtain ⟨piece', rest', ps, hsome, rfl, hps⟩ := hqs.head
                rw [hhead] at hsome
                cases hsome
                show (piece :: (templateScan fuel rest).1, (templateScan fuel rest).2) = _
                rw [(hrest ps).mpr hps]

/-- A template has the pieces that are found in it, and no others. -/
theorem templatePieces_iff (tpl : NgxStr) (ps : List Piece) :
    TemplatePieces tpl ps ↔ templateClosed tpl = true ∧ templatePieces tpl = ps := by
  rw [← templateScan_iff tpl.length (Nat.le_refl _), Prod.ext_iff, and_comm]
  rfl

/-- For captures inside the match string the run ends without a fault. On success it leaves
the text of the whole template, piece by piece, and on an error `out` as it was. -/
theorem htaccess_expand_exact (sys : Sys) (r : Request) (state : RequestState) (tpl : NgxStr)
    (m : Option MatchCtx) (allocated : Bool) (out : NgxStr) (hm : ∀ x ∈ m, CapturesInside x) :
    ∃ rc out', htaccessExpandPointed r state tpl m allocated out = .ok (rc, out') ∧
      (rc = ngxOk → ∃ ps, TemplatePieces tpl ps ∧ out' = piecesText sys r state m ps) ∧
      (rc ≠ ngxOk → rc = ngxError ∧ out' = out) := by
  have herror : ngxError ≠ ngxOk := by decide
  rw [htaccessExpandPointed_eq sys r state hm allocated out, htaccessExpand_eq]
  cases allocated with
  | false => exact ⟨_, _, rfl, fun h => absurd h herror, fun _ => ⟨rfl, rfl⟩⟩
  | true =>
      by_cases hfits : templateClosed tpl = true ∧
          (piecesText sys r state m (templatePieces tpl)).length ≤ expandLimit tpl
      · rw [if_pos hfits]
        exact ⟨_, _, rfl, fun _ => ⟨_, (templatePieces_iff tpl _).mpr ⟨hfits.1, rfl⟩, rfl⟩,
          fun h => absurd rfl h⟩
      · rw [if_neg hfits]
        exact ⟨_, _, rfl, fun h => absurd h herror, fun _ => ⟨rfl, rfl⟩⟩

/-- The match of a whole path. -/
def pathMatch : MatchCtx where
  subject := lit "old"
  captures i := if i = 0 then 0 else if i = 1 then 3 else -1
  ncaptures := 20

theorem pathMatch_inside : CapturesInside pathMatch := by
  intro n hn
  cases n with
  | zero => exact .inr (by decide)
  | succ n =>
      have hunset (i : Nat) (hi : 1 < i) : pathMatch.captures i = -1 := by
        show (if i = 0 then (0 : Int) else if i = 1 then 3 else -1) = -1
        rw [if_neg (by omega), if_neg (by omega)]
      exact .inl ⟨hunset _ (by omega), hunset _ (by omega)⟩

theorem htaccess_expand_exact_path :
    ∃ rc out', htaccessExpandPointed (siteRequest "/old") (siteState "/old") (lit "/$0\\$")
        (some pathMatch) true [] = .ok (rc, out') ∧
      (rc = ngxOk → ∃ ps, TemplatePieces (lit "/$0\\$") ps ∧
        out' = piecesText (siteSys (siteFs 0 [])) (siteRequest "/old") (siteState "/old")
          (some pathMatch) ps) ∧
      (rc ≠ ngxOk → rc = ngxError ∧ out' = []) :=
  htaccess_expand_exact (siteSys (siteFs 0 [])) (siteRequest "/old") (siteState "/old")
    (lit "/$0\\$") (some pathMatch) true [] fun _ hx => Option.some.inj hx ▸ pathMatch_inside

end NgxHtaccess
