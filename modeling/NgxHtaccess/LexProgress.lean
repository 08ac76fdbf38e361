import NgxHtaccess.LexPointers
import NgxHtaccess.Site

/-!
`htaccess_lex_line` and the loop of `htaccess_parse` with their pointers. A line moves the
pointer on, so a parse has no more rounds than the text has bytes; the bound on the rounds is
never met, and where no memory is missing the runs compute what the model on lists does.
-/
namespace NgxHtaccess
open BoundedLoop Outcomes Cursors

/-- The tokens that a line has so far; `slices` says where in the text each was copied from. -/
structure LexedLine where
  tokens : List NgxStr
  slices : List Slice

def LexedLine.push (line : LexedLine) (token : NgxStr) (slice : Slice) : LexedLine where
  tokens := line.tokens ++ [token]
  slices := line.slices ++ [slice]

section Machine
variable (text : NgxStr)

section Line
variable (memory : Nat → Bool)

/-- A round of the loop of `htaccess_lex_line`. The memory for the element and for the copy of
the `k`-th token is there if `memory k`. -/
def lexLineRound (p : Nat) (line : LexedLine) :
    Run (Round (Nat × LexedLine) (Option (Nat × LexedLine))) := do
  let p ← htaccessSkipSpaceAt text p
  if ← endsTokens text p then return .stop (some (p, line))
  else
    match ← htaccessLexTokenAt text p with
    | .error => return .stop none
    | .done _ => return .stop (some (p, line))
    | .ok token next =>
        if memory line.tokens.length then
          let bytes ← readsFrom text token.data token.len
          return .again (next, line.push bytes token)
        else return .stop none

/-- `htaccess_lex_line`: what it leaves in `*pos` and the tokens, unless it fails. -/
def htaccessLexLineAt (pos : Nat) : Run (Option (Nat × LexedLine)) := do
  match ← whileBefore text.length (lexLineRound text memory) (fun p line => some (p, line))
      text.length pos ⟨[], []⟩ with
  | none => return none
  | some (p, line) =>
      let pos ← htaccessSkipLineAt text p
      return some (pos, line)

end Line

/-- Which requests of a parse for memory succeed: the file with its array of directives, the
array for the tokens of the `i`-th line, and element and copy of its `k`-th token. -/
structure ParseMemory where
  file : Bool
  array : Nat → Bool
  token : Nat → Nat → Bool

structure ParseMemory.Suffices (memory : ParseMemory) : Prop where
  file : memory.file = true
  array : ∀ i, memory.array i = true
  token : ∀ i k, memory.token i k = true

/-- What `htaccess_parse` returns, and how often it has called `htaccess_lex_line`. -/
structure ParseRun where
  file : Option ParsedFile
  calls : Nat

section Parse
variable (sys : Sys) (pool : PoolId) (memory : ParseMemory)

/-- A round of the loop of `htaccess_parse`, behind a number of calls. -/
def parseRound (p : Nat) (s : ParserState × Nat) :
    Run (Round (Nat × ParserState × Nat) ParseRun) :=
  let (st, calls) := s
  if memory.array calls then do
    match ← htaccessLexLineAt text (memory.token calls) p with
    | none => return .stop ⟨none, calls + 1⟩
    | some (next, line) =>
        match parseLine sys pool st line.tokens with
        | none => return .stop ⟨none, calls + 1⟩
        | some st => return .again (next, st, calls + 1)
  else .ok (.stop ⟨none, calls⟩)

/-- `htaccess_parse` on the text between `start` and `end`. -/
def htaccessParseAt : Run ParseRun :=
  if memory.file then
    whileBefore text.length (parseRound text sys pool memory)
      (fun _ s => ⟨some { directives := s.1.directives, pool }, s.2⟩)
      text.length 0 (.initial, 0)
  else .ok ⟨none, 0⟩

end Parse

end Machine

section Line
variable {text : NgxStr} {pos : Nat}

/-- The slices lie between two places, each of them in front of those behind it. -/
structure InOrder (lo hi : Nat) (slices : List Slice) : Prop where
  inside : ∀ s ∈ slices, lo ≤ s.data ∧ s.stop ≤ hi
  apart : slices.Pairwise fun s t => s.stop ≤ t.data

theorem InOrder.mono {lo hi hi' : Nat} {slices : List Slice} (h : InOrder lo hi slices)
    (hle : hi ≤ hi') : InOrder lo hi' slices :=
  ⟨fun s hs => ⟨(h.inside s hs).1, Nat.le_trans (h.inside s hs).2 hle⟩, h.apart⟩

theorem InOrder.push {lo hi next : Nat} {slices : List Slice} {token : Slice}
    (h : InOrder lo hi slices) (hlo : lo ≤ hi) (hstarts : hi ≤ token.data)
    (hstops : token.stop ≤ next) : InOrder lo next (slices ++ [token]) := by
  have hle : token.data ≤ token.stop := Nat.le_add_right _ _
  refine ⟨fun s hs => ?_, List.pairwise_append.mpr ⟨h.apart, List.pairwise_singleton _ _, ?_⟩⟩
  · rcases List.mem_append.mp hs with hold | hnew
    · obtain ⟨hdata, hstop⟩ := h.inside s hold
      exact ⟨hdata, by omega⟩
    · obtain rfl := List.mem_singleton.mp hnew
      exact ⟨by omega, hstops⟩
  · intro s hs t ht
    obtain rfl := List.mem_singleton.mp ht
    exact Nat.le_trans (h.inside s hs).2 hstarts

/-- What the lexer has of a line that begins at `pos` when it is at `p`. -/
structure LineAt (text : NgxStr) (pos p : Nat) (line : LexedLine) : Prop where
  le : pos ≤ p
  bound : p ≤ text.length
  slices : InOrder pos p line.slices
  copied : line.tokens = line.slices.map (Slice.bytes text)

theorem LineAt.start (h : pos ≤ text.length) : LineAt text pos pos ⟨[], []⟩ where
  le := Nat.le_refl pos
  bound := h
  slices := ⟨fun _ hs => absurd hs List.not_mem_nil, .nil⟩
  copied := rfl

theorem LineAt.moves {p q : Nat} {line : LexedLine} {rest : NgxStr} (h : LineAt text pos p line)
    (hq : Moves text p rest q) : LineAt text pos q line where
  le := Nat.le_trans h.le hq.le
  bound := hq.bound
  slices := h.slices.mono hq.le
  copied := h.copied

theorem LineAt.push {p next : Nat} {line : LexedLine} {token : Slice} {s rest : NgxStr}
    (h : LineAt text pos p line) (htoken : TokenAt text p token next s rest) :
    LineAt text pos next (line.push s token) where
  le := Nat.le_trans h.le (Nat.le_of_lt htoken.advances)
  bound := htoken.bound
  slices := h.slices.push h.le htoken.starts htoken.stops
  copied := by
    rw [LexedLine.push, List.map_append, ← h.copied, List.map_singleton, htoken.bytes]

/-- A line as the model on lists has it. -/
def onLists (text : NgxStr) (x : Nat × LexedLine) : List NgxStr × NgxStr :=
  (x.2.tokens, text.drop x.1)

/-- The loop on lists is on its way to `goal`. -/
def LoopFrom (text : NgxStr) (goal : Option (List NgxStr × NgxStr)) (p : Nat)
    (line : LexedLine) : Prop :=
  ∃ fuel, text.length ≤ p + fuel ∧ htaccessLexLineLoop fuel (text.drop p) line.tokens = goal

/-- What a line is left with, and that it is `goal` where no memory is missing. -/
structure LineLeft (text : NgxStr) (pos : Nat) (memory : Nat → Bool)
    (goal : Option (List NgxStr × NgxStr)) (r : Option (Nat × LexedLine)) : Prop where
  line : ∀ x ∈ r, LineAt text pos x.1 x.2
  same : (∀ k, memory k = true) → r.map (onLists text) = goal

variable (memory : Nat → Bool) {goal : Option (List NgxStr × NgxStr)}

theorem LineLeft.error (h : (∀ k, memory k = true) → none = goal) :
    LineLeft text pos memory goal none := by
  refine ⟨fun x hx => ?_, h⟩
  cases hx

theorem LineLeft.some {p : Nat} {line : LexedLine} (h : LineAt text pos p line)
    (hgoal : some (line.tokens, text.drop p) = goal) :
    LineLeft text pos memory goal (some (p, line)) := by
  refine ⟨fun x hx => ?_, fun _ => hgoal⟩
  cases hx
  exact h

theorem lexLineRound_gives {p : Nat} {line : LexedLine} (hp : p < text.length)
    (hline : LineAt text pos p line) (hgoal : LoopFrom text goal p line) :
    Gives (lexLineRound text memory p line)
      (Scan.Holds
        (fun t => p < t.1 ∧ t.1 ≤ text.length ∧ LineAt text pos t.1 t.2 ∧
          LoopFrom text goal t.1 t.2)
        (LineLeft text pos memory goal)) := by
  obtain ⟨fuel, hfuel, hloop⟩ := hgoal
  obtain ⟨fuel, rfl⟩ : ∃ n, fuel = n + 1 := ⟨fuel - 1, by omega⟩
  refine (htaccessSkipSpaceAt_gives (Nat.le_of_lt hp)).bind fun q hq => ?_
  have hmoved := hline.moves hq
  rw [htaccessLexLineLoop, ← hq.rest] at hloop
  rcases endsTokens_cases text q with ⟨htest, hstop⟩ | ⟨htest, -, c, rest, hcons, hhash, -⟩
  · refine gives_if_true htest (LineLeft.some memory hmoved ?_)
    rcases hstop with hnil | ⟨rest, hcomment⟩
    · rw [hnil] at hloop ⊢
      exact hloop
    · rw [hcomment] at hloop ⊢
      exact hloop
  rw [hcons] at hloop
  simp only [if_neg hhash] at hloop
  rw [← hcons] at hloop
  refine gives_if_false htest ((htaccessLexTokenAt_gives hq.bound).bind fun r hr => ?_)
  generalize htaccessLexToken (text.drop q) = rc at hr hloop
  cases hr with
  | error => exact LineLeft.error memory fun _ => hloop
  | done next => exact LineLeft.some memory hmoved hloop
  | @ok token next s rest htoken =>
      have hbytes : readsFrom text token.data token.len = .ok s := by
        rw [readsFrom_eq text (Nat.le_trans htoken.stops htoken.bound), ← htoken.bytes]
        rfl
      cases hmemory : memory line.tokens.length with
      | false =>
          refine LineLeft.error memory fun hall => ?_
          rw [hall] at hmemory
          cases hmemory
      | true =>
          simp only [if_true, hbytes]
          have hadvance := htoken.advances
          have hle := hq.le
          refine ⟨by omega, htoken.bound, hmoved.push htoken, fuel, by omega, ?_⟩
          rw [htoken.rest]
          exact hloop

theorem lexLineLoopAt_gives (hpos : pos ≤ text.length) :
    Gives (whileBefore text.length (lexLineRound text memory) (fun p line => some (p, line))
        text.length pos ⟨[], []⟩)
      (LineLeft text pos memory
        (htaccessLexLineLoop (text.drop pos).length (text.drop pos) [])) := by
  have hfuel : text.length ≤ pos + (text.drop pos).length := by
    rw [List.length_drop]
    omega
  refine whileBefore_gives
    (fun p line => LineAt text pos p line ∧ LoopFrom text _ p line)
    (fun p line hp hinv => lexLineRound_gives memory hp hinv.1 hinv.2) (fun line hinv => ?_)
    (Nat.le_add_left _ _) hpos ⟨.start hpos, _, hfuel, rfl⟩
  obtain ⟨hline, fuel, -, hloop⟩ := hinv
  refine LineLeft.some memory hline ?_
  rw [List.drop_length] at hloop ⊢
  cases fuel <;> exact hloop

theorem htaccessLexLineAt_gives (hpos : pos < text.length) :
    Gives (htaccessLexLineAt text memory pos) fun r =>
      (∀ x ∈ r, pos < x.1 ∧ LineAt text pos x.1 x.2) ∧
        ((∀ k, memory k = true) → r.map (onLists text) = htaccessLexLine (text.drop pos)) := by
  refine (lexLineLoopAt_gives memory (Nat.le_of_lt hpos)).bind fun r hr => ?_
  obtain ⟨hline, hsame⟩ := hr
  cases r with
  | none =>
      refine ⟨fun x hx => ?_, fun hall => ?_⟩
      · cases hx
      · rw [htaccessLexLine, ← hsame hall]
        rfl
  | some left =>
      obtain ⟨p, line⟩ := left
      have hat := hline (p, line) rfl
      refine (htaccessSkipLineAt_gives hat.bound).bind fun pos' hpos' => ?_
      refine ⟨fun x hx => ?_, fun hall => ?_⟩
      · cases hx
        refine ⟨?_, hat.moves hpos'⟩
        by_cases hend : text.length ≤ p
        · exact Nat.lt_of_lt_of_le hpos (Nat.le_trans hend hpos'.le)
        · have hskipped := lt_of_skipLine (Nat.lt_of_not_le hend) hpos'
          exact Nat.lt_of_le_of_lt hat.le hskipped
      · rw [htaccessLexLine, ← hsame hall]
        simp only [onLists, Option.map_some, hpos'.rest]

example : htaccessLexLineAt (lit "<a b>c \"\\\"d\"e # x\n\nf") (fun _ => true) 0 =
    .ok (some (19, ⟨[lit "<a b>", lit "c", lit "\\\"d", lit "e"],
      [⟨0, 5⟩, ⟨5, 1⟩, ⟨8, 3⟩, ⟨12, 1⟩]⟩)) := by rfl

end Line

section Parse
variable (sys : Sys) (pool : PoolId) (text : NgxStr) (memory : ParseMemory)

/-- The loop of the parse on lists is on its way to `goal`. -/
def ParseFrom (goal : Option ParserState) (p : Nat) (st : ParserState) : Prop :=
  ∃ fuel, text.length ≤ p + fuel ∧ htaccessParseLoop sys pool fuel (text.drop p) st = goal

/-- What a parse is left with, and that it is `goal` where no memory is missing. -/
structure ParseLeft (goal : Option ParserState) (r : ParseRun) : Prop where
  calls : r.calls ≤ text.length
  same : memory.Suffices →
    r.file = goal.map fun st => { directives := st.directives, pool }

variable {sys pool text} {goal : Option ParserState}

theorem ParseFrom.step {p : Nat} {st : ParserState} (hp : p < text.length)
    (h : ParseFrom sys pool text goal p st) :
    ∃ fuel, text.length ≤ p + 1 + fuel ∧
      ((htaccessLexLine (text.drop p)).bind fun line =>
        (parseLine sys pool st line.1).bind (htaccessParseLoop sys pool fuel line.2)) = goal := by
  obtain ⟨fuel, hfuel, hloop⟩ := h
  obtain ⟨fuel, rfl⟩ : ∃ n, fuel = n + 1 := ⟨fuel - 1, by omega⟩
  refine ⟨fuel, by omega, ?_⟩
  obtain ⟨c, rest, hcons, -, -⟩ := readAt_cons hp
  rw [hcons] at hloop ⊢
  rw [← hloop, htaccessParseLoop]
  cases htaccessLexLine (c :: rest) with
  | none => rfl
  | some line =>
      obtain ⟨tokens, next⟩ := line
      simp only [Option.bind_some]
      cases parseLine sys pool st tokens <;> rfl

theorem ParseLeft.error {calls : Nat} (hcalls : calls ≤ text.length)
    (h : memory.Suffices → none = goal) : ParseLeft pool text memory goal ⟨none, calls⟩ := by
  refine ⟨hcalls, fun hall => ?_⟩
  rw [← h hall]
  rfl

/-- A round is a call, and the pointer is behind as many bytes as there were calls. -/
theorem parseRound_gives {p : Nat} {st : ParserState} {calls : Nat} (hp : p < text.length)
    (hcalls : calls ≤ p) (hgoal : memory.Suffices → ParseFrom sys pool text goal p st) :
    Gives (parseRound text sys pool memory p (st, calls))
      (Scan.Holds
        (fun t => p < t.1 ∧ t.1 ≤ text.length ∧ t.2.2 ≤ t.1 ∧
          (memory.Suffices → ParseFrom sys pool text goal t.1 t.2.1))
        (ParseLeft pool text memory goal)) := by
  have hcall : calls + 1 ≤ text.length := by omega
  rw [parseRound]
  by_cases harray : memory.array calls = true
  · rw [if_pos harray]
    refine (htaccessLexLineAt_gives (memory.token calls) hp).bind fun r hr => ?_
    obtain ⟨hline, hsame⟩ := hr
    cases r with
    | none =>
        refine ParseLeft.error memory hcall fun hall => ?_
        obtain ⟨fuel, -, hloop⟩ := (hgoal hall).step hp
        rw [← hsame (hall.token calls)] at hloop
        exact hloop
    | some read =>
        obtain ⟨next, line⟩ := read
        obtain ⟨hlt, hat⟩ := hline (next, line) rfl
        have hrest (hall : memory.Suffices) : ∃ fuel, text.length ≤ p + 1 + fuel ∧
            (parseLine sys pool st line.tokens).bind
              (htaccessParseLoop sys pool fuel (text.drop next)) = goal := by
          obtain ⟨fuel, hfuel, hloop⟩ := (hgoal hall).step hp
          rw [← hsame (hall.token calls)] at hloop
          exact ⟨fuel, hfuel, hloop⟩
        simp only
        cases hparse : parseLine sys pool st line.tokens with
        | none =>
            refine ParseLeft.error memory hcall fun hall => ?_
            obtain ⟨fuel, -, hloop⟩ := hrest hall
            rw [hparse] at hloop
            exact hloop
        | some st' =>
            refine ⟨hlt, hat.bound, Nat.lt_of_le_of_lt hcalls hlt, fun hall => ?_⟩
            obtain ⟨fuel, hfuel, hloop⟩ := hrest hall
            rw [hparse] at hloop
            exact ⟨fuel, by omega, hloop⟩
  · rw [if_neg harray]
    refine ParseLeft.error memory (Nat.le_trans hcalls (Nat.le_of_lt hp)) fun hall => ?_
    exact absurd (hall.array calls) harray

/-- A parse calls the lexer no more often than the text has bytes, and ends. -/
theorem htaccessParseAt_gives (sys : Sys) (pool : PoolId) (text : NgxStr)
    (memory : ParseMemory) :
    Gives (htaccessParseAt text sys pool memory) fun r =>
      r.calls ≤ text.length ∧ (memory.Suffices → r.file = htaccessParse sys pool text) := by
  rw [htaccessParseAt]
  by_cases hfile : memory.file = true
  · rw [if_pos hfile]
    rw [htaccessParse]
    generalize hgoal : htaccessParseLoop sys pool text.length text .initial = goal
    suffices hloop : Gives _ (ParseLeft pool text memory goal) from
      hloop.mono fun r hr => ⟨hr.calls, hr.same⟩
    refine whileBefore_gives
      (fun p (s : ParserState × Nat) =>
        s.2 ≤ p ∧ (memory.Suffices → ParseFrom sys pool text goal p s.1))
      (fun p s hp hinv => parseRound_gives memory hp hinv.1 hinv.2) (fun s hinv => ?_)
      (Nat.le_add_left _ _) (Nat.zero_le _)
      ⟨Nat.le_refl 0, fun _ => ⟨text.length, Nat.le_add_left _ _, hgoal⟩⟩
    obtain ⟨st, calls⟩ := s
    refine ⟨hinv.1, fun hall => ?_⟩
    obtain ⟨fuel, -, hloop⟩ := hinv.2 hall
    rw [List.drop_length] at hloop
    rw [← hloop]
    cases fuel <;> rfl
  · rw [if_neg hfile]
    exact ⟨Nat.zero_le _, fun hall => absurd hall.file hfile⟩

end Parse

/-- Lexing advances. A call in front of the end neither reads at the end nor runs on for ever;
if it succeeds, the pointer is behind where it was and its tokens are copies of slices in
between, each in front of the next. So a parse ends after at most one call a byte. -/
theorem htaccessLexLineAt_advances (text : NgxStr) :
    (∀ (memory : Nat → Bool) (pos : Nat), pos < text.length →
      ∃ r, htaccessLexLineAt text memory pos = .ok r ∧
        ∀ x ∈ r, pos < x.1 ∧ x.1 ≤ text.length ∧
          x.2.tokens = x.2.slices.map (Slice.bytes text) ∧ InOrder pos x.1 x.2.slices) ∧
    ∀ (sys : Sys) (pool : PoolId) (memory : ParseMemory),
      ∃ r, htaccessParseAt text sys pool memory = .ok r ∧ r.calls ≤ text.length := by
  refine ⟨fun memory pos hpos => ?_, fun sys pool memory => ?_⟩
  · obtain ⟨r, hrun, hline, -⟩ := gives_iff.mp (htaccessLexLineAt_gives memory hpos)
    refine ⟨r, hrun, fun x hx => ?_⟩
    obtain ⟨hlt, hat⟩ := hline x hx
    exact ⟨hlt, hat.bound, hat.copied, hat.slices⟩
  · obtain ⟨r, hrun, hcalls, -⟩ := gives_iff.mp (htaccessParseAt_gives sys pool text memory)
    exact ⟨r, hrun, hcalls⟩

/-- A line with a quoted token, and behind it a quote that is open at the end, with a backslash
before the end. -/
def openText : NgxStr := lit "a \"b c\"\nd \"e\\"

/-- The first line is accepted, and the pointer is behind it. -/
theorem htaccessLexLineAt_advances_open :
    (∃ x, htaccessLexLineAt openText (fun _ => true) 0 = .ok (some x) ∧
      0 < x.1 ∧ x.1 ≤ openText.length ∧
        x.2.tokens = x.2.slices.map (Slice.bytes openText) ∧ InOrder 0 x.1 x.2.slices) ∧
    ∃ r, htaccessParseAt openText (siteSys (siteFs 0 [])) 0
      ⟨true, fun _ => true, fun _ _ => true⟩ = .ok r ∧ r.calls ≤ openText.length := by
  obtain ⟨hline, hparse⟩ := htaccessLexLineAt_advances openText
  refine ⟨?_, hparse _ _ _⟩
  obtain ⟨r, hrun, hadvances⟩ := hline (fun _ => true) 0 (by decide)
  have haccepted : (htaccessLexLineAt openText (fun _ => true) 0).toOption.any Option.isSome =
      true := by
    decide +kernel
  rw [hrun] at haccepted
  obtain ⟨x, rfl⟩ := Option.isSome_iff_exists.mp haccepted
  exact ⟨x, hrun, hadvances x rfl⟩

end NgxHtaccess
