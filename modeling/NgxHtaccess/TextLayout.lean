import NgxHtaccess.FileReads
import NgxHtaccess.TokenGrammar

/-!
The layout of a file has no part in what it says.

The same tokens can be written with other blanks around them, behind any number of blank
lines and comments, with any newlines and with or without quotes. A server whose files are
laid out anew answers as before.
-/
namespace NgxHtaccess

/-- A text that is written line by line, each with its tokens. -/
inductive SpelledText : List (List NgxStr) → NgxStr → Prop where
  | nil : SpelledText [] []
  | line {tokens : List NgxStr} {s : NgxStr} {c : UInt8} {lines : List (List NgxStr)}
      {text : NgxStr} : LineText true tokens s → isNewline c = true → SpelledText lines text →
      SpelledText (tokens :: lines) (s ++ c :: text)

theorem lexedText_spelled {lines : List (List NgxStr)} {text : NgxStr}
    (h : SpelledText lines text) : lexedText text = (lines.filter (· ≠ []), true) := by
  induction h with
  | nil => rfl
  | @line tokens s c lines text hline hc _ ih =>
      have hne : s ++ c :: text ≠ [] :=
        List.append_ne_nil_of_right_ne_nil s (List.cons_ne_nil c text)
      rw [lexedText_of_line hne (htaccessLexLine_text hline hc text), lexedText_newlines, ih,
        ← List.filter_append]
      rfl

/-- The texts have the same lines but for those without tokens. -/
def SameLines (text text' : NgxStr) : Prop :=
  ∃ lines lines', SpelledText lines text ∧ SpelledText lines' text' ∧
    lines.filter (· ≠ []) = lines'.filter (· ≠ [])

theorem SameLines.parse {text text' : NgxStr} (h : SameLines text text') (sys : Sys)
    (pool : PoolId) : htaccessParse sys pool text = htaccessParse sys pool text' := by
  obtain ⟨lines, lines', htext, htext', hsame⟩ := h
  rw [htaccessParse_lexed, htaccessParse_lexed, lexedText_spelled htext,
    lexedText_spelled htext', hsame]

section Server

/-- A file that can be read whole. -/
def OpenFile.whole (text : NgxStr) : OpenFile where
  fdSize := some text.length
  read := some text

structure RelaidFile (fs fs' : FileSystem) (path : NgxStr) : Prop where
  there : (fs.fileInfo path).isSome ∧ (fs'.fileInfo path).isSome
  texts : ∃ text text', fs.openFile path = some (.whole text) ∧
    fs'.openFile path = some (.whole text') ∧ SameLines text text'

/-- The read finds the same, or directives that have been laid out anew. -/
inductive FileRead.Relaid (sys : Sys) (fs' : FileSystem) : FileRead → Prop where
  | same {read : FileRead} : read.Same sys fs' → Relaid sys fs' read
  | directives {path : NgxStr} : RelaidFile sys.fs fs' path → Relaid sys fs' (.directives path)

theorem htaccessParseFile_whole {sys : Sys} {path text : NgxStr} (pool : PoolId)
    (h : sys.fs.openFile path = some (.whole text)) :
    htaccessParseFile sys pool path =
      match htaccessParse sys pool text with
      | none => (ngxError, none)
      | some parsed => (ngxOk, some parsed) := by
  rw [htaccessParseFile, h]
  exact if_neg (not_not_intro rfl)

theorem FileRead.Relaid.found {sys : Sys} {fs' : FileSystem} {read : FileRead}
    (h : read.Relaid sys fs') : read.Same sys fs' := by
  cases h with
  | same hsame => exact hsame
  | @directives path hfile =>
      obtain ⟨hthere, hthere'⟩ := hfile.there
      obtain ⟨text, text', htext, htext', hlines⟩ := hfile.texts
      have hparse : htaccessParseFile (sys.withFs fs') 0 path = htaccessParseFile sys 0 path := by
        rw [htaccessParseFile_whole 0 htext, htaccessParseFile_whole 0 htext', hlines.parse,
          htaccessParse_withFs]
      obtain ⟨fi, hinfo⟩ := Option.isSome_iff_exists.mp hthere
      obtain ⟨fi', hinfo'⟩ := Option.isSome_iff_exists.mp hthere'
      have hread : readFile (sys.withFs fs') 0 path = readFile sys 0 path := by
        have hinfo' : (sys.withFs fs').fs.fileInfo path = some fi' := hinfo'
        rw [readFile, readFile, hinfo, hinfo', hparse]
      rw [FileRead.Same, readDirectives, readDirectives, hread]

structure RelaidCall (call call' : HandlerCall) : Prop where
  sys : call'.sys = call.sys.withFs call'.sys.fs
  conf : call'.conf = call.conf
  r : call'.r = call.r
  reads : ∀ read ∈ call.reads, read.Relaid call.sys call'.sys.fs

theorem RelaidCall.sameReads {call call' : HandlerCall} (h : RelaidCall call call') :
    SameReads call call' :=
  ⟨h.sys, h.conf, h.r, fun read hread => (h.reads read hread).found⟩

/-- Two workers with any caches give the same answers when the directives that they read are
laid out differently. -/
theorem hostRuns_of_relaid {content content' : Content} {maxEntries maxEntries' : Nat}
    {entryAllocs entryAllocs' : List Bool} {steps steps' : List HostStep}
    (h : SafeHost content maxEntries entryAllocs steps)
    (h' : SafeHost content' maxEntries' entryAllocs' steps')
    (hrelaid : List.Forall₂ RelaidCall (hostCalls steps) (hostCalls steps')) :
    ∃ answers, (hostRun maxEntries entryAllocs steps).map (·.answers) = some answers ∧
      (hostRun maxEntries' entryAllocs' steps').map (·.answers) = some answers :=
  h.agree h' (outcomes_of_sameReads (hrelaid.imp fun _ _ hcall => hcall.sameReads))

end Server

def plainText : String := "Require all denied\n"

/-- The line below a comment, with a tab, a quoted word and more newlines. -/
def relaidText : String := "# shut\r\n\tRequire \"all\"  denied # x\n\n"

theorem sameLines_relaid : SameLines (lit plainText) (lit relaidText) := by
  have hword : ∀ s : NgxStr, s.all isPlainByte = true → s ≠ [] → s.head? ≠ some (ch '"') →
      s.head? ≠ some (ch '<') → TokenText s s := fun s => plainWord
  have hrequire := hword (lit "Require") (by decide) (by decide) (by decide) (by decide)
  have hall := hword (lit "all") (by decide) (by decide) (by decide) (by decide)
  have hdenied := hword (lit "denied") (by decide) (by decide) (by decide) (by decide)
  have hplain : EscapedText (· = ch '"') (lit "all") := escapedText_of_plain (by decide +kernel)
  have hquoted : TokenText (lit "\"all\"") (lit "all") := TokenText.quoted hplain
  have htidy : LineText true [lit "Require", lit "all", lit "denied"] (lit "Require all denied") :=
    .token hrequire (.blank (by decide) (.token hall (.blank (by decide) (.token hdenied .finish))))
  have hcomment : LineText true [] (lit "# shut") := .comment (by decide +kernel)
  have huntidy : LineText true [lit "Require", lit "all", lit "denied"]
      (lit "\tRequire \"all\"  denied # x") :=
    .blank (by decide) (.token hrequire (.blank (by decide) (.token hquoted
      (.blank (by decide) (.blank (by decide) (.token hdenied (.blank (by decide)
        (.comment (by decide +kernel)))))))))
  refine ⟨[[lit "Require", lit "all", lit "denied"]],
    [[], [], [lit "Require", lit "all", lit "denied"], []], ?_, ?_, by decide⟩
  · exact .line htidy (by decide) .nil
  · exact .line hcomment (by decide) (.line .finish (by decide)
      (.line huntidy (by decide) (.line .finish (by decide) .nil)))

theorem hostRuns_of_relaid_site :
    ∃ answers, (hostRun 1 [] (idleSteps plainText)).map (·.answers) = some answers ∧
      (hostRun 9 [] (idleSteps relaidText)).map (·.answers) = some answers := by
  have hfile : RelaidFile (siteFs 0 [("/w/.htaccess", plainText)])
      (siteFs 0 [("/w/.htaccess", relaidText)]) (lit "/w/.htaccess") :=
    ⟨by decide +kernel, lit plainText, lit relaidText, rfl, rfl, sameLines_relaid⟩
  have hcall : ∀ uri, (idleCall plainText uri).reads = [.directives (lit "/w/.htaccess")] →
      RelaidCall (idleCall plainText uri) (idleCall relaidText uri) := by
    intro uri hlist
    refine ⟨rfl, rfl, rfl, fun read hread => ?_⟩
    rw [hlist, List.mem_singleton] at hread
    rw [hread]
    exact .directives hfile
  have hgiven : ArgsGiven (lexedText (lit plainText)).1 ∧
      ArgsGiven (lexedText (lit relaidText)).1 := by
    unfold ArgsGiven
    decide +kernel
  exact hostRuns_of_relaid (safeHost_idle (by decide +kernel) hgiven.1)
    (safeHost_idle (by decide +kernel) hgiven.2)
    (.cons (hcall "/x" (by decide +kernel)) (.cons (hcall "/no" (by decide +kernel)) .nil))

end NgxHtaccess
