import NgxHtaccess.LexAppend
import NgxHtaccess.Lib.Cursors

/-!
The lexer once more with its pointers. A pointer is an index into the text between `start` and
`end`, every byte is read through one, and a loop may use no more rounds than the text has
bytes. No token makes a run fault, and the runs find the tokens of the lexer on lists, as slices
of the text.
-/
namespace NgxHtaccess
open BoundedLoop Outcomes Cursors

structure Slice where
  data : Nat
  len : Nat
  deriving DecidableEq

def Slice.stop (s : Slice) : Nat := s.data + s.len

def Slice.bytes (text : NgxStr) (s : Slice) : NgxStr := (text.drop s.data).take s.len

theorem Slice.stop_between {p q : Nat} (h : p ≤ q) : Slice.stop ⟨p, q - p⟩ = q :=
  Nat.add_sub_cancel' h

section Machine
variable (text : NgxStr)

def htaccessSkipLineAt (p : Nat) : Run Nat := do
  let p ← skipWhile text (fun c => !isNewline c) p
  skipWhile text isNewline p

def htaccessSkipSpaceAt (p : Nat) : Run Nat := skipWhile text isBlank p

/-- `while (p < end && !stop(*p))`, where a backslash takes the next byte with it. -/
def scanEscapedAt (stop : UInt8 → Bool) (p : Nat) : Run Nat :=
  whileBefore text.length
    (fun p _ => do
      let c ← readAt text p
      return if stop c then .stop p
        else if c = ch '\\' ∧ p + 1 < text.length then .again (p + 2, ())
        else .again (p + 1, ()))
    (fun p _ => p) text.length p ()

/-- `htaccess_read_quoted`: `out` and `next`, unless it fails. -/
def htaccessReadQuotedAt (p : Nat) : Run (Option (Slice × Nat)) :=
  if text.length ≤ p then .ok none
  else do
    let quote ← readAt text p
    let start := p + 1
    let p ← scanEscapedAt text (· = quote) start
    if text.length ≤ p then return none
    else return some (⟨start, p - start⟩, p + 1)

/-- `p >= end || *p == '#'` -/
def endsTokens (p : Nat) : Run Bool :=
  if text.length ≤ p then .ok true
  else do
    let c ← readAt text p
    return c = ch '#'

inductive TokenRc where
  | error
  | done (next : Nat)
  | ok (token : Slice) (next : Nat)

/-- The token that `"` begins. -/
def lexQuotedAt (data : Nat) : Run TokenRc := do
  match ← htaccessReadQuotedAt text data with
  | none => return .error
  | some (token, next) => return .ok token next

/-- The token that `<` begins. -/
def lexTagAt (data : Nat) : Run TokenRc := do
  let p ← skipWhile text (· ≠ ch '>') data
  if text.length ≤ p then return .error
  else return .ok ⟨data, p - data + 1⟩ (p + 1)

/-- The token that another byte begins. -/
def lexBareAt (data : Nat) : Run TokenRc := do
  let p ← scanEscapedAt text isBareEnd data
  if p - data = 0 then return .done p
  else return .ok ⟨data, p - data⟩ p

def htaccessLexTokenAt (p : Nat) : Run TokenRc := do
  let p ← htaccessSkipSpaceAt text p
  if ← endsTokens text p then
    let next ← htaccessSkipLineAt text p
    return .done next
  else
    let c ← readAt text p
    if c = ch '"' then lexQuotedAt text p
    else if c = ch '<' then lexTagAt text p
    else lexBareAt text p

end Machine

section Token
variable {text : NgxStr} {p : Nat}

theorem htaccessSkipSpaceAt_gives (hp : p ≤ text.length) :
    Gives (htaccessSkipSpaceAt text p) (Moves text p (htaccessSkipSpace (text.drop p))) :=
  skipWhile_gives isBlank hp

theorem htaccessSkipLineAt_gives (hp : p ≤ text.length) :
    Gives (htaccessSkipLineAt text p) (Moves text p (htaccessSkipLine (text.drop p))) := by
  refine (skipWhile_gives _ hp).bind fun q hq => ?_
  refine (skipWhile_gives isNewline hq.bound).mono fun r hr => ?_
  refine ⟨Nat.le_trans hq.le hr.le, hr.bound, ?_⟩
  rw [hr.rest, hq.rest]
  rfl

theorem lt_of_skipLine {q : Nat} (hp : p < text.length)
    (h : Moves text p (htaccessSkipLine (text.drop p)) q) : p < q := by
  obtain ⟨c, rest, hcons, -, -⟩ := readAt_cons hp
  refine h.lt ?_
  rw [hcons]
  exact htaccessSkipLine_lt c rest

/-- What a round of the scan leaves: a backslash that is not the last byte takes one along. -/
theorem htaccessScanEscaped_step {stop : UInt8 → Bool} {c : UInt8} (h : stop c = false)
    (rest : NgxStr) :
    (htaccessScanEscaped stop (c :: rest)).2 =
      (htaccessScanEscaped stop (if c = ch '\\' ∧ rest ≠ [] then rest.tail else rest)).2 := by
  cases rest with
  | nil =>
      rw [if_neg fun hpair => hpair.2 rfl]
      simp only [htaccessScanEscaped, h, Bool.false_eq_true, if_false]
  | cons d rest =>
      rw [htaccessScanEscaped, h, if_neg Bool.false_ne_true]
      by_cases hescape : c = ch '\\'
      · rw [if_pos hescape, if_pos ⟨hescape, List.cons_ne_nil d rest⟩]
        rfl
      · rw [if_neg hescape, if_neg fun hpair => hescape hpair.1]

theorem scanEscapedAt_gives (stop : UInt8 → Bool) (hp : p ≤ text.length) :
    Gives (scanEscapedAt text stop p)
      (Moves text p (htaccessScanEscaped stop (text.drop p)).2) := by
  refine whileBefore_gives
    (fun q _ => p ≤ q ∧ (htaccessScanEscaped stop (text.drop q)).2 =
      (htaccessScanEscaped stop (text.drop p)).2)
    (fun q _ hq hinv => ?_) (fun _ hinv => ?_) (Nat.le_add_left _ _) hp ⟨Nat.le_refl p, rfl⟩
  · obtain ⟨c, rest, hcons, hrest, hread⟩ := readAt_cons hq
    obtain ⟨hle, hscan⟩ := hinv
    refine gives_read hread ?_
    cases hstop : stop c with
    | true =>
        refine ⟨hle, Nat.le_of_lt hq, ?_⟩
        rw [← hscan, hcons]
        cases rest <;> simp only [htaccessScanEscaped, hstop, if_true]
    | false =>
        have hmore : rest ≠ [] ↔ q + 1 < text.length := by
          rw [← hrest, ne_eq, List.drop_eq_nil_iff, Nat.not_le]
        rw [hcons, htaccessScanEscaped_step hstop] at hscan
        by_cases hescape : c = ch '\\' ∧ q + 1 < text.length
        · rw [if_pos ⟨hescape.1, hmore.mpr hescape.2⟩] at hscan
          simp only [Bool.false_eq_true, if_false, if_pos hescape]
          refine ⟨by omega, hescape.2, by omega, ?_⟩
          rw [← hscan, ← hrest, List.tail_drop]
        · rw [if_neg fun hpair => hescape ⟨hpair.1, hmore.mp hpair.2⟩] at hscan
          simp only [Bool.false_eq_true, if_false, if_neg hescape]
          refine ⟨Nat.lt_succ_self q, hq, Nat.le_succ_of_le hle, ?_⟩
          rw [← hscan, ← hrest]
  · obtain ⟨hle, hscan⟩ := hinv
    refine ⟨hle, Nat.le_refl _, ?_⟩
    rw [← hscan, List.drop_length]
    rfl

/-- From `p` on the text has the token `s`: it is copied from `token`, and the pointer goes on
at `next` with `rest` behind it. -/
structure TokenAt (text : NgxStr) (p : Nat) (token : Slice) (next : Nat) (s rest : NgxStr) :
    Prop where
  starts : p ≤ token.data
  stops : token.stop ≤ next
  advances : p < next
  bound : next ≤ text.length
  bytes : token.bytes text = s
  rest : text.drop next = rest

theorem htaccessReadQuotedAt_gives (hp : p < text.length) :
    Gives (htaccessReadQuotedAt text p) fun r =>
      Option.Rel (fun a b => TokenAt text p a.1 a.2 b.1 b.2) r
        (htaccessReadQuoted (text.drop p)) := by
  obtain ⟨quote, start, hcons, hstart, hread⟩ := readAt_cons hp
  rw [htaccessReadQuotedAt, if_neg (Nat.not_le.mpr hp)]
  refine gives_read hread ?_
  refine (scanEscapedAt_gives (· = quote) (Nat.succ_le_of_lt hp)).bind fun q hq => ?_
  have htaken := hq.passed (htaccessScanEscaped_split _ _)
  have hscan := hq.rest
  rw [hstart] at htaken hscan
  rw [hcons, htaccessReadQuoted]
  by_cases hend : text.length ≤ q
  · rw [if_pos hend]
    rw [List.drop_of_length_le hend] at hscan
    generalize htaccessScanEscaped (· = quote) start = scanned at *
    obtain ⟨s, next⟩ := scanned
    cases hscan
    exact .none
  · rw [if_neg hend]
    obtain ⟨c, next, hcons', hnext, -⟩ := readAt_cons (Nat.lt_of_not_le hend)
    rw [hcons'] at hscan
    generalize htaccessScanEscaped (· = quote) start = scanned at *
    obtain ⟨s, next'⟩ := scanned
    cases hscan
    have hle := hq.le
    refine .some ⟨Nat.le_succ p, ?_, Nat.lt_succ_of_lt hle, Nat.lt_of_not_le hend, ?_, hnext⟩
    · exact Nat.le_trans (Nat.le_of_eq (Slice.stop_between hle)) (Nat.le_succ q)
    · rw [Slice.bytes, hstart]
      exact htaken

/-- What the lexer says of the token at `p`, next to what it says of the bytes from `p` on. -/
inductive TokenRead (text : NgxStr) (p : Nat) : TokenRc → LexRc → Prop where
  | error : TokenRead text p .error .error
  | done (next : Nat) : TokenRead text p (.done next) (.done (text.drop next))
  | ok {token : Slice} {next : Nat} {s rest : NgxStr} :
      TokenAt text p token next s rest → TokenRead text p (.ok token next) (.ok s rest)

theorem TokenRead.behind {q : Nat} {r : TokenRc} {rc : LexRc} (h : TokenRead text q r rc)
    (hle : p ≤ q) : TokenRead text p r rc := by
  cases h with
  | error => exact .error
  | done next => exact .done next
  | ok htoken =>
      exact .ok { htoken with
        starts := Nat.le_trans hle htoken.starts
        advances := Nat.lt_of_le_of_lt hle htoken.advances }

theorem endsTokens_cases (text : NgxStr) (p : Nat) :
    (endsTokens text p = .ok true ∧
        (text.drop p = [] ∨ ∃ rest, text.drop p = ch '#' :: rest)) ∨
      (endsTokens text p = .ok false ∧ p < text.length ∧
        ∃ c rest, text.drop p = c :: rest ∧ c ≠ ch '#' ∧ readAt text p = .ok c) := by
  by_cases hend : text.length ≤ p
  · exact .inl ⟨if_pos hend, .inl (List.drop_of_length_le hend)⟩
  have hlt := Nat.lt_of_not_le hend
  obtain ⟨c, rest, hcons, -, hread⟩ := readAt_cons hlt
  have htest : endsTokens text p = .ok (decide (c = ch '#')) := by
    rw [endsTokens, if_neg hend, hread]
    rfl
  by_cases hhash : c = ch '#'
  · rw [decide_eq_true hhash] at htest
    exact .inl ⟨htest, .inr ⟨rest, hhash ▸ hcons⟩⟩
  · rw [decide_eq_false hhash] at htest
    exact .inr ⟨htest, hlt, c, rest, hcons, hhash, hread⟩

section First
variable {c : UInt8} {rest : NgxStr} (hp : p < text.length) (hcons : text.drop p = c :: rest)
  (hblank : isBlank c = false) (hhash : c ≠ ch '#')
include hp hcons hblank hhash

theorem lexQuotedAt_gives (hquote : c = ch '"') :
    Gives (lexQuotedAt text p) fun r => TokenRead text p r (htaccessLexToken (text.drop p)) := by
  refine (htaccessReadQuotedAt_gives hp).bind fun r hr => ?_
  rw [hcons] at hr ⊢
  rw [htaccessLexToken_cons hblank hhash, if_pos hquote]
  generalize htaccessReadQuoted (c :: rest) = read at hr ⊢
  cases hr with
  | none => exact .error
  | some htoken => exact .ok htoken

theorem lexTagAt_gives (htag : c = ch '<') :
    Gives (lexTagAt text p) fun r => TokenRead text p r (htaccessLexToken (text.drop p)) := by
  refine (skipWhile_gives _ (Nat.le_of_lt hp)).bind fun q hq => ?_
  have hquote : c ≠ ch '"' := by
    rw [htag]
    decide
  rw [hcons, htaccessLexToken_cons hblank hhash, if_neg hquote, if_pos htag, ← hcons]
  have hdrop := hq.rest
  by_cases hend : text.length ≤ q
  · rw [if_pos hend]
    rw [List.drop_of_length_le hend] at hdrop
    rw [ngxStrlchr, ← hdrop]
    exact .error
  · rw [if_neg hend]
    obtain ⟨d, next, hcons', hnext, -⟩ := readAt_cons (Nat.lt_of_not_le hend)
    have hfind : ngxStrlchr (text.drop p) (ch '>') =
        some ((text.drop p).takeWhile (· ≠ ch '>'), next) := by
      rw [ngxStrlchr, ← hdrop, hcons']
    obtain ⟨hsplit, -⟩ := ngxStrlchr_eq_some hfind
    rw [List.append_cons] at hsplit
    have hmoves : Moves text p next (q + 1) :=
      ⟨Nat.le_succ_of_le hq.le, Nat.lt_of_not_le hend, hnext⟩
    have hlen : q - p + 1 = q + 1 - p := (Nat.sub_add_comm hq.le).symm
    rw [hfind, hlen]
    refine .ok ⟨Nat.le_refl p, ?_, Nat.lt_succ_of_le hq.le, hmoves.bound, ?_, hnext⟩
    · exact Nat.le_of_eq (Slice.stop_between hmoves.le)
    · exact hmoves.passed hsplit

theorem lexBareAt_gives (hquote : c ≠ ch '"') (htag : c ≠ ch '<') :
    Gives (lexBareAt text p) fun r => TokenRead text p r (htaccessLexToken (text.drop p)) := by
  refine (scanEscapedAt_gives isBareEnd (Nat.le_of_lt hp)).bind fun q hq => ?_
  have htaken := hq.passed (htaccessScanEscaped_split _ _)
  rw [hcons, htaccessLexToken_cons hblank hhash, if_neg hquote, if_neg htag, ← hcons, ← htaken,
    ← hq.rest]
  have hempty : (text.drop p).take (q - p) = [] ↔ q - p = 0 := by
    rw [List.take_eq_nil_iff, hcons]
    exact or_iff_left (List.cons_ne_nil c rest)
  by_cases hnone : q - p = 0
  · rw [if_pos hnone, if_pos (hempty.mpr hnone)]
    exact .done q
  · rw [if_neg hnone, if_neg (mt hempty.mp hnone)]
    refine .ok ⟨Nat.le_refl p, ?_, Nat.lt_of_sub_ne_zero hnone, hq.bound, rfl, rfl⟩
    exact Nat.le_of_eq (Slice.stop_between hq.le)

end First

theorem htaccessLexToken_skipSpace (p : NgxStr) :
    htaccessLexToken (htaccessSkipSpace p) = htaccessLexToken p := by
  simp only [htaccessLexToken, htaccessSkipSpace, List.dropWhile_idempotent]

theorem htaccessLexTokenAt_gives (hp : p ≤ text.length) :
    Gives (htaccessLexTokenAt text p) fun r =>
      TokenRead text p r (htaccessLexToken (text.drop p)) := by
  refine (htaccessSkipSpaceAt_gives hp).bind fun q hq => ?_
  rw [← htaccessLexToken_skipSpace, ← hq.rest]
  suffices hbehind : Gives _ fun r => TokenRead text q r (htaccessLexToken (text.drop q)) from
    hbehind.mono fun r hr => hr.behind hq.le
  rcases endsTokens_cases text q with ⟨htest, hstop⟩ | ⟨htest, hlt, c, rest, hcons, hhash, hread⟩
  · refine gives_if_true htest ((htaccessSkipLineAt_gives hq.bound).bind fun next hnext => ?_)
    have hdone : htaccessLexToken (text.drop q) = .done (text.drop next) := by
      rw [hnext.rest]
      rcases hstop with hnil | ⟨rest, hcomment⟩
      · rw [hnil]
        rfl
      · rw [hcomment]
        rfl
    rw [hdone]
    exact .done next
  · have hblank : isBlank c = false := htaccessSkipSpace_first (hq.rest.symm.trans hcons)
    refine gives_if_false htest (gives_read hread ?_)
    by_cases hquote : c = ch '"'
    · rw [if_pos hquote]
      exact lexQuotedAt_gives hlt hcons hblank hhash hquote
    rw [if_neg hquote]
    by_cases htag : c = ch '<'
    · rw [if_pos htag]
      exact lexTagAt_gives hlt hcons hblank hhash htag
    · rw [if_neg htag]
      exact lexBareAt_gives hlt hcons hblank hhash hquote htag

end Token

end NgxHtaccess
