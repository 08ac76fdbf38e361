import NgxHtaccess.Directives

/-!
`htaccess_lexer.c`. A position is the list of bytes from it to `end`, so a
pointer moves by dropping a prefix and reads nothing at `end`.
-/
namespace NgxHtaccess

def isNewline (c : UInt8) : Bool := c = ch '\n' || c = ch '\r'

def isBlank (c : UInt8) : Bool := c = ch ' ' || c = ch '\t'

def htaccessSkipLine (p : NgxStr) : NgxStr :=
  (p.dropWhile (fun c => !isNewline c)).dropWhile isNewline

def htaccessSkipSpace (p : NgxStr) : NgxStr := p.dropWhile isBlank

/-- A scan up to a byte in `stop`, a backslash taking the next byte with it:
the bytes passed and the position where the scan stops. -/
def htaccessScanEscaped (stop : UInt8 → Bool) : NgxStr → NgxStr × NgxStr
  | [] => ([], [])
  | [c] => if stop c then ([], [c]) else ([c], [])
  | c :: d :: p =>
      if stop c then ([], c :: d :: p)
      else if c = ch '\\' then
        let (s, next) := htaccessScanEscaped stop p
        (c :: d :: s, next)
      else
        let (s, next) := htaccessScanEscaped stop (d :: p)
        (c :: s, next)

/-- `htaccess_read_quoted`: the text between the quotes and the position after
them. -/
def htaccessReadQuoted : NgxStr → Option (NgxStr × NgxStr)
  | [] => none
  | quote :: start =>
      match htaccessScanEscaped (· = quote) start with
      | (_, []) => none
      | (s, _ :: next) => some (s, next)

inductive LexRc where
  | error
  | done (next : NgxStr)
  | ok (token next : NgxStr)
  deriving DecidableEq

def isBareEnd (c : UInt8) : Bool := isBlank c || isNewline c || c = ch '#'

def htaccessLexToken (p : NgxStr) : LexRc :=
  match htaccessSkipSpace p with
  | [] => .done []
  | c :: p =>
      if c = ch '#' then .done (htaccessSkipLine (c :: p))
      else if c = ch '"' then
        match htaccessReadQuoted (c :: p) with
        | none => .error
        | some (token, next) => .ok token next
      else if c = ch '<' then
        match ngxStrlchr (c :: p) (ch '>') with
        | none => .error
        | some (token, next) => .ok (token ++ [ch '>']) next
      else
        let (token, next) := htaccessScanEscaped isBareEnd (c :: p)
        if token = [] then .done next else .ok token next

/-- The loop of `htaccess_lex_line`. `fuel` bounds its rounds; every token takes
at least one byte, so the length of the input is enough. -/
def htaccessLexLineLoop : Nat → NgxStr → List NgxStr → Option (List NgxStr × NgxStr)
  | 0, p, tokens => some (tokens, p)
  | fuel + 1, p, tokens =>
      match htaccessSkipSpace p with
      | [] => some (tokens, [])
      | c :: p =>
          if c = ch '#' then some (tokens, c :: p)
          else
            match htaccessLexToken (c :: p) with
            | .error => none
            | .done _ => some (tokens, c :: p)
            | .ok token next => htaccessLexLineLoop fuel next (tokens ++ [token])

/-- `htaccess_lex_line`: the tokens of one line and the position after it. -/
def htaccessLexLine (p : NgxStr) : Option (List NgxStr × NgxStr) :=
  (htaccessLexLineLoop p.length p []).map fun (tokens, p) => (tokens, htaccessSkipLine p)

example : htaccessLexLine (lit "  Require all\tdenied # x\r\nDeny") =
    some ([lit "Require", lit "all", lit "denied"], lit "Deny") := by decide

end NgxHtaccess
