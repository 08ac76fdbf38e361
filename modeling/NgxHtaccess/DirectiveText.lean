import NgxHtaccess.BlockNesting
import NgxHtaccess.RuleFlags

/-!
Parsed directives written as text.

A directive has a line of its own: its name, and its arguments in quotes. A rule has the lines
of its conditions in front of it, and a directive in the scope of a FilesMatch stands in a
block. What can be written so is what the parser makes of such lines.
-/
namespace NgxHtaccess

/-- The name under which the parser finds the directive. -/
def DirectiveId.text (id : DirectiveId) : NgxStr :=
  lit (((directiveNames.find? (·.2 = id)).map (·.1)).getD "")

def quotedArg (s : NgxStr) : NgxStr := ch ' ' :: ch '"' :: (s ++ [ch '"'])

/-- The line of a directive name and its arguments. -/
def writtenLine (id : DirectiveId) (args : List NgxStr) : NgxStr :=
  lineOf (id.text ++ args.flatMap quotedArg)

def onOff (flag : Bool) : NgxStr := if flag then lit "on" else lit "off"

/-- A test string of the class. For three of the variables the parser asks for a byte more than
the name, and a test string without `%` is about the file name. -/
def RewriteCond.testText (cond : RewriteCond) : NgxStr :=
  match cond.test with
  | .filename => lit "REQUEST_FILENAME"
  | .uri => lit "%{REQUEST_URI_}"
  | .queryString => lit "%{QUERY_STRING_}"
  | .http => lit "%\x7bHTTP:" ++ (cond.name ++ [ch '}'])
  | .env => lit "%\x7bENV:" ++ (cond.name ++ [ch '}'])
  | .fspath => ch '%' :: cond.name
  | .other => lit "%{}"

def RewriteCond.args (cond : RewriteCond) : List NgxStr :=
  cond.testText :: if cond.op = .eq then [] else
    cond.value :: if cond.orNext then [lit "[OR]"] else []

/-- The flags of a rule as the parts of a list. -/
def RewriteRule.flagParts (rule : RewriteRule) : List NgxStr :=
  (if rule.last then [lit "L"] else []) ++ (if rule.endFlag then [lit "END"] else []) ++
    (if rule.nocase then [lit "NC"] else []) ++
    (if rule.redirect then [lit "R=" ++ decimal rule.redirectCode] else []) ++
    (if rule.chain then [lit "C"] else []) ++ (if rule.qsa then [lit "QSA"] else []) ++
    (rule.envVars.getD []).map (lit "E=" ++ ·)

def DirectiveData.args : DirectiveData → List NgxStr
  | .rewriteEngine flag | .expiresActive flag => [onOff flag]
  | .rewriteBase str | .authType str | .authName str | .authUserFile str | .require str
  | .order str | .allow str | .deny str | .expiresDefault str | .directoryIndex str => [str]
  | .rewriteRule rule => [rule.pattern, rule.substitution, flagList rule.flagParts]
  | .redirect redir =>
      [redir.source, redir.target] ++ if redir.permanent then [lit "301"] else []
  | .redirectMatch redir | .redirectPermanent redir | .redirectTemp redir =>
      [redir.source, redir.target]
  | .header h => (if h.always then [lit "always"] else []) ++ [h.action, h.name, h.value]
  | .expiresByType h => [h.name, h.value]
  | .errorDocument doc => [decimal doc.code, doc.uri]
  | .options flag => [if flag then lit "-Indexes" else lit "Indexes"]

def DirectiveData.conds : DirectiveData → List RewriteCond
  | .rewriteRule rule => rule.conditions.getD []
  | _ => []

def DirectiveData.text (u : DirectiveData) : NgxStr :=
  u.conds.flatMap (fun cond => writtenLine .rewriteCond cond.args) ++ writtenLine u.id u.args

def filesMatchOpening (pattern : NgxStr) : NgxStr :=
  ch '<' :: (lit "FilesMatch \"" ++ (pattern ++ [ch '"', ch '>']))

/-- The directive, in a block of its own if it is in the scope of one. -/
def Directive.text (d : Directive) : NgxStr :=
  if d.filesMatch = [] then d.u.text
  else lineOf (filesMatchOpening d.filesMatch) ++ (d.u.text ++ lineOf (lit "</FilesMatch>"))

def directivesText (ds : List Directive) : NgxStr := ds.flatMap Directive.text

/-- The text can stand between quotes. -/
abbrev Quotable (s : NgxStr) : Prop := EscapedText (· = ch '"') s

/-- A part of a flag list that is read as it is: the parser neither splits nor trims it. -/
structure FlagPart (part : NgxStr) : Prop where
  free : ch ',' ∉ part
  first : ∃ c rest, part = c :: rest ∧ ¬ (c = ch ' ' ∨ c = ch '[')
  final : ∃ init c, part = init ++ [c] ∧ ¬ (c = ch ' ' ∨ c = ch ']')

/-- The name of a condition is one that its class has. -/
def condNamed : CondTest → NgxStr → Prop
  | .filename, name | .uri, name | .queryString, name | .other, name => name = []
  | .http, name | .env, name => ch '}' ∉ name
  | .fspath, name => name.head? = some (ch '{') → name = [ch '{']

structure RewriteCond.Writable (cond : RewriteCond) : Prop where
  named : condNamed cond.test cond.name
  op : cond.op = .eq ∧ cond.value = [] ∧ cond.orNext = false ∨ cond.op = condOp cond.value
  args : ∀ arg ∈ cond.args, Quotable arg

structure RewriteRule.Writable (rule : RewriteRule) : Prop where
  unmarked : rule.chainIn = false
  code : if rule.redirect then rule.redirectCode ≤ ngxMaxInt else rule.redirectCode = 0
  someVars : rule.envVars ≠ some []
  vars : ∀ var ∈ rule.envVars.getD [], FlagPart (lit "E=" ++ var)
  someConds : rule.conditions ≠ some []
  conds : ∀ cond ∈ rule.conditions.getD [], cond.Writable

def isAlways (s : NgxStr) : Bool := s.length = 6 && ngxStrncasecmpEq s (lit "always") 6

/-- What the parser leaves in the data of a directive of the kind. -/
def DirectiveData.Kept (pool : PoolId) : DirectiveData → Prop
  | .rewriteRule rule => rule.Writable
  | .redirectMatch redir | .redirectPermanent redir => redir.permanent = true
  | .redirectTemp redir => redir.permanent = false
  | .header h => h.pool = pool ∧ (h.always = false → isAlways h.action = false)
  | .expiresByType h => h.action = [] ∧ h.always = false ∧ h.pool = pool
  | .errorDocument doc => doc.code ≤ ngxMaxInt ∨ doc.code = 0xFFFFFFFFFFFFFFFF
  | _ => True

/-- The directive can be written: its pattern in a tag, its arguments in quotes. -/
structure Directive.Writable (pool : PoolId) (d : Directive) : Prop where
  scope : ch '"' ∉ d.filesMatch ∧ ch '>' ∉ d.filesMatch
  data : d.u.Kept pool
  args : ∀ arg ∈ d.u.args, Quotable arg

section Lexed

theorem DirectiveId.id_text (id : DirectiveId) : htaccessDirectiveId id.text = some id := by
  cases id <;> decide +kernel

theorem DirectiveId.text_word (id : DirectiveId) : TokenText id.text id.text := by
  cases id <;> exact plainWord (by decide +kernel) (by decide) (by decide) (by decide)

theorem lineText_args {args : List NgxStr} (h : ∀ arg ∈ args, Quotable arg) :
    LineText false args (args.flatMap quotedArg) := by
  induction args with
  | nil => exact .finish
  | cons arg args ih =>
      have hrest := ih fun a ha => h a (List.mem_cons_of_mem arg ha)
      exact .blank (by decide) (.token (.quoted (h arg List.mem_cons_self)) hrest)

theorem lexesTo_written (id : DirectiveId) {args : List NgxStr} (h : ∀ arg ∈ args, Quotable arg) :
    LexesTo (writtenLine id args) [id.text :: args] :=
  lexesTo_text (List.cons_ne_nil _ _) (.token id.text_word (lineText_args h))

end Lexed

end NgxHtaccess
