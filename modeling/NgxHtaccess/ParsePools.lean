import NgxHtaccess.ParserStacks

/-!
What a parse takes from the memory it is done in. The pool of a parse is where its strings
live, and the slots of a token array that nothing was written to hold what the pool held
before; a directive reads such a slot when its line has no argument and its case does not
count them.
-/
namespace NgxHtaccess

/-- The directives whose case compares `nelts` with what it reads. -/
def countsArgs : DirectiveId → Bool
  | .rewriteCond | .rewriteRule | .redirect | .redirectPermanent | .redirectTemp
  | .redirectMatch | .header | .expiresByType | .errorDocument => true
  | _ => false

/-- Every line has the argument that its directive reads without counting. -/
def ArgsGiven (lines : List (List NgxStr)) : Prop :=
  ∀ line ∈ lines, ∀ id ∈ lineId line, countsArgs id = true ∨ 2 ≤ line.length

/-- The directive with its strings in another pool. -/
def DirectiveData.inPool (pool : PoolId) : DirectiveData → DirectiveData
  | .header h => .header { h with pool }
  | .expiresByType h => .expiresByType { h with pool }
  | u => u

def Directive.inPool (pool : PoolId) (d : Directive) : Directive := { d with u := d.u.inPool pool }

def ParsedFile.inPool (pool : PoolId) (file : ParsedFile) : ParsedFile where
  directives := file.directives.map (Directive.inPool pool)
  pool := pool

def ParserState.inPool (pool : PoolId) (st : ParserState) : ParserState :=
  { st with directives := st.directives.map (Directive.inPool pool) }

theorem inPool_inPool (pool pool' : PoolId) (file : ParsedFile) :
    (file.inPool pool).inPool pool' = file.inPool pool' := by
  have hd : ∀ d : Directive, (d.inPool pool).inPool pool' = d.inPool pool' := by
    rintro ⟨scope, u⟩
    cases u <;> rfl
  simp only [ParsedFile.inPool, List.map_map, Function.comp_def, hd]

theorem headerData_inPool (pool pool' : PoolId) (args : List NgxStr) :
    headerData pool' args = (headerData pool args).map fun h => { h with pool := pool' } := by
  unfold headerData
  simp only
  split
  · rfl
  · split <;> split <;> rfl

section Memory
variable {sys sys' : Sys} {pool pool' : PoolId}

/-- What the line takes from a slot behind its tokens is the same in both memories. -/
def SameSlots (sys sys' : Sys) (pool pool' : PoolId) (line : List NgxStr) : Prop :=
  ∀ id ∈ lineId line, countsArgs id = true ∨ argAt sys pool line 1 = argAt sys' pool' line 1

theorem SameSlots.own (line : List NgxStr) : SameSlots sys sys pool pool line :=
  fun _ _ => .inr rfl

theorem ArgsGiven.sameSlots {lines : List (List NgxStr)} (h : ArgsGiven lines) :
    ∀ line ∈ lines, SameSlots sys sys' pool pool' line := by
  intro line hline id hid
  refine (h line hline id hid).imp_right fun hlength => ?_
  rw [argAt, argAt, List.getD_eq_getElem _ _ hlength, List.getD_eq_getElem _ _ hlength]

theorem directiveData_inPool {id : DirectiveId} {args : List NgxStr}
    (h : countsArgs id = true ∨ argAt sys pool args 1 = argAt sys' pool' args 1)
    (conds : Option (List RewriteCond)) :
    directiveData sys' pool' id args conds =
      (directiveData sys pool id args conds).map (DirectiveData.inPool pool') := by
  cases id with
  | rewriteCond => rfl
  | header =>
      simp only [directiveData, headerData_inPool pool pool', Option.map_map]
      rfl
  | redirect | redirectPermanent | redirectTemp =>
      simp only [directiveData, Option.map_map]
      rfl
  | rewriteRule | redirectMatch | expiresByType | errorDocument =>
      simp only [directiveData]
      split <;> rfl
  | require =>
      simp only [directiveData, h.resolve_left (by decide)]
      split
      · rw [Option.map_map]
        rfl
      · rfl
  | _ =>
      simp only [directiveData, h.resolve_left (by decide)]
      rfl

theorem htaccessPushDirective_inPool {id : DirectiveId} {args : List NgxStr}
    (h : countsArgs id = true ∨ argAt sys pool args 1 = argAt sys' pool' args 1)
    (st : ParserState) :
    htaccessPushDirective sys' pool' (st.inPool pool') id args =
      (htaccessPushDirective sys pool st id args).map (ParserState.inPool pool') := by
  simp only [htaccessPushDirective, ParserState.inPool, directiveData_inPool h]
  split
  · rw [Option.map_map]
    rfl
  · simp only [Option.map_map, Function.comp_def, ParserState.inPool, List.map_append,
      List.map_cons, List.map_nil]
    rfl

theorem parseLine_inPool {line : List NgxStr} (h : SameSlots sys sys' pool pool' line)
    (st : ParserState) :
    parseLine sys' pool' (st.inPool pool') line =
      (parseLine sys pool st line).map (ParserState.inPool pool') := by
  cases hid : lineId line with
  | some id =>
      rw [parseLine_of_lineId sys pool hid, parseLine_of_lineId sys' pool' hid]
      change (if st.enabled.getD st.depth false then _ else _) = _
      split
      · exact htaccessPushDirective_inPool (h id hid) st
      · rfl
  | none =>
      cases line with
      | nil => rfl
      | cons t rest =>
          have hnone : htaccessDirectiveId t = none := hid
          simp only [parseLine, hnone, ParserState.inPool]
          by_cases htag : isTag t = true
          · by_cases hclose : 3 ≤ t.length ∧ t.tail.head? = some (ch '/')
            · simp only [if_pos htag, if_pos hclose]
              rfl
            · by_cases hdeep : st.depth < 15 <;>
                simp only [if_pos htag, if_neg hclose, hdeep, if_true, if_false] <;> rfl
          · simp only [if_neg htag, ite_self]
            rfl

theorem parseLines_inPool {lines : List (List NgxStr)}
    (h : ∀ line ∈ lines, SameSlots sys sys' pool pool' line) (st : ParserState) :
    parseLines sys' pool' lines (st.inPool pool') =
      (parseLines sys pool lines st).map (ParserState.inPool pool') := by
  induction lines generalizing st with
  | nil => rfl
  | cons line lines ih =>
      rw [parseLines_cons, parseLines_cons, parseLine_inPool (h line List.mem_cons_self)]
      cases parseLine sys pool st line with
      | none => rfl
      | some st' => exact ih (fun l hl => h l (List.mem_cons_of_mem _ hl)) st'

theorem htaccessParse_sameSlots {text : NgxStr}
    (h : ∀ line ∈ (lexedText text).1, SameSlots sys sys' pool pool' line) :
    htaccessParse sys' pool' text =
      (htaccessParse sys pool text).map (ParsedFile.inPool pool') := by
  rw [htaccessParse_lexed, htaccessParse_lexed]
  split
  · have hlines := parseLines_inPool h .initial
    change parseLines sys' pool' (lexedText text).1 .initial = _ at hlines
    rw [hlines, Option.map_map, Option.map_map]
    rfl
  · rfl

/-- The pool of a parse is where its strings live and nothing else, once the lines have their
arguments. -/
theorem htaccessParse_inPool {text : NgxStr}
    (h : (htaccessParse sys pool text).isSome → ArgsGiven (lexedText text).1) :
    htaccessParse sys' pool' text =
      (htaccessParse sys pool text).map (ParsedFile.inPool pool') := by
  cases hparse : htaccessParse sys pool text with
  | none =>
      have hfails := htaccessParse_isSome sys sys' pool pool' text
      rw [hparse, Option.isSome_none] at hfails
      exact Option.not_isSome_iff_eq_none.mp (by rw [← hfails]; exact Bool.false_ne_true)
  | some file =>
      rw [htaccessParse_sameSlots (h (hparse ▸ rfl)).sameSlots, hparse]

section Leftover
variable {line : List NgxStr} (h : SameSlots sys sys' pool pool line)
include h

theorem htaccessPushDirective_leftover {id : DirectiveId} (hid : lineId line = some id)
    (st : ParserState) :
    htaccessPushDirective sys pool st id line = htaccessPushDirective sys' pool st id line := by
  have hdata : ∀ conds, directiveData sys pool id line conds =
      directiveData sys' pool id line conds := by
    intro conds
    rw [directiveData_inPool (h id hid), ← directiveData_inPool (.inr rfl)]
  simp only [htaccessPushDirective, hdata]

theorem parseLine_leftover (st : ParserState) :
    parseLine sys pool st line = parseLine sys' pool st line := by
  cases hid : lineId line with
  | some id =>
      rw [parseLine_of_lineId sys pool hid, parseLine_of_lineId sys' pool hid,
        htaccessPushDirective_leftover h hid]
  | none =>
      cases line with
      | nil => rfl
      | cons t rest =>
          have hnone : htaccessDirectiveId t = none := hid
          simp only [parseLine, hnone]

end Leftover

theorem parseLines_leftover {lines : List (List NgxStr)}
    (h : ∀ line ∈ lines, SameSlots sys sys' pool pool line) (st : ParserState) :
    parseLines sys pool lines st = parseLines sys' pool lines st := by
  induction lines generalizing st with
  | nil => rfl
  | cons line lines ih =>
      rw [parseLines_cons, parseLines_cons, parseLine_leftover (h line List.mem_cons_self)]
      exact congrArg _ (funext fun st' => ih (fun l hl => h l (List.mem_cons_of_mem _ hl)) st')

end Memory

section Files
variable {sys sys' : Sys} {pool pool' : PoolId} {path : NgxStr}

/-- If the file parses, which is a matter of its text alone, its lines have their arguments. -/
def FileGiven (file : Option OpenFile) : Prop :=
  ∀ f ∈ file, ∀ text ∈ f.read, ∀ sys, (htaccessParse sys 0 text).isSome →
    ArgsGiven (lexedText text).1

theorem htaccessParseFile_map {move : ParsedFile → ParsedFile}
    (hopen : sys'.fs.openFile path = sys.fs.openFile path)
    (h : ∀ file ∈ sys.fs.openFile path, ∀ text ∈ file.read,
      htaccessParse sys' pool' text = (htaccessParse sys pool text).map move) :
    htaccessParseFile sys' pool' path =
      ((htaccessParseFile sys pool path).1, (htaccessParseFile sys pool path).2.map move) := by
  unfold htaccessParseFile
  rw [hopen]
  cases hfile : sys.fs.openFile path with
  | none => rfl
  | some file =>
      obtain ⟨fdSize, read⟩ := file
      cases fdSize with
      | none => cases read <;> rfl
      | some size =>
          cases read with
          | none => rfl
          | some text =>
              simp only
              split
              · rfl
              · rw [h _ hfile text rfl]
                cases htaccessParse sys pool text <;> rfl

theorem htaccessParseFile_inPool (hopen : sys'.fs.openFile path = sys.fs.openFile path)
    (h : FileGiven (sys.fs.openFile path)) (pool pool' : PoolId) :
    htaccessParseFile sys' pool' path =
      ((htaccessParseFile sys pool path).1,
        (htaccessParseFile sys pool path).2.map (ParsedFile.inPool pool')) := by
  refine htaccessParseFile_map hopen fun file hfile text htext =>
    htaccessParse_inPool fun hsome => ?_
  exact h file hfile text htext sys (htaccessParse_isSome sys sys pool 0 text ▸ hsome)

theorem inPool_of_htaccessParseFile {file : ParsedFile}
    (h : (htaccessParseFile sys pool path).2 = some file) : file.inPool pool = file := by
  have hsame := congrArg Prod.snd (@htaccessParseFile_map sys sys pool pool path _
    rfl fun _ _ text _ => htaccessParse_sameSlots fun line _ => SameSlots.own line)
  rw [h, Option.map_some] at hsame
  exact (Option.some.inj hsame).symm

end Files

end NgxHtaccess
