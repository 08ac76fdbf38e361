import NgxHtaccess.Site

/-!
`htaccess_check_htpasswd` by the entries that it finds in the file. An entry is cut from one
colon to the next newline, wherever its user began, and an entry with a hash that `crypt`
does not confirm is still compared with the password as it is.
-/
namespace NgxHtaccess

/-- What the scan takes for an entry: its user and the file behind its colon. -/
structure PasswdEntry where
  user : NgxStr
  rest : NgxStr
  deriving DecidableEq

namespace PasswdEntry

/-- The line that the entry ends on, from its colon on. -/
def line (e : PasswdEntry) : NgxStr := e.rest.takeWhile (· ≠ ch '\n')

/-- The password or hash of the entry. -/
def pw (e : PasswdEntry) : NgxStr := e.line.rdropWhile isNewline

def behind (e : PasswdEntry) : NgxStr := e.rest.drop e.line.length

end PasswdEntry

/-- The entries of the file `p`, in the order of the scan. -/
def passwdEntries : Nat → NgxStr → List PasswdEntry
  | 0, _ => []
  | fuel + 1, p =>
      match ngxStrlchr p (ch ':') with
      | none => []
      | some (user, rest) =>
          let e : PasswdEntry := { user, rest }
          e :: passwdEntries fuel (e.behind.dropWhile isNewline)

def fileEntries (text : NgxStr) : List PasswdEntry := passwdEntries text.length text

section Verdict
variable (sys : Sys) (user pass : NgxStr)

/-- What the check returns at an entry, unless it goes on to the next one. -/
def entryVerdict (e : PasswdEntry) : Option Int :=
  if e.user.length = user.length ∧ ngxStrncmpEq e.user user user.length then
    if e.pw.head? = some (ch '$') ∧ 256 ≤ pass.length then some ngxDeclined
    else if e.pw.head? = some (ch '$') ∧
        sys.crypt (cString pass) (sys.unterminated e.rest) = some e.pw then some ngxOk
    else if e.pw.length = pass.length ∧ ngxStrncmpEq e.pw pass pass.length then some ngxOk
    else none
  else none

theorem htpasswdLoop_entry (fuel : Nat) {p u rest : NgxStr}
    (hsplit : ngxStrlchr p (ch ':') = some (u, rest)) :
    htpasswdLoop sys user pass (fuel + 1) p =
      (entryVerdict sys user pass ⟨u, rest⟩).getD
        (htpasswdLoop sys user pass fuel
          ((PasswdEntry.mk u rest).behind.dropWhile isNewline)) := by
  have hgetD (next : Int) (c : Prop) [Decidable c] (a b : Option Int) :
      (if c then a else b).getD next = if c then a.getD next else b.getD next :=
    apply_ite (fun verdict : Option Int => verdict.getD next) c a b
  rw [htpasswdLoop, hsplit, entryVerdict, hgetD, hgetD, hgetD, hgetD]
  rfl

theorem htpasswdLoop_eq (fuel : Nat) (p : NgxStr) :
    htpasswdLoop sys user pass fuel p =
      ((passwdEntries fuel p).findSome? (entryVerdict sys user pass)).getD
        ngxDeclined := by
  induction fuel generalizing p with
  | zero => rfl
  | succ fuel ih =>
      rw [passwdEntries]
      cases hsplit : ngxStrlchr p (ch ':') with
      | none => rw [htpasswdLoop, hsplit]; rfl
      | some parts =>
          obtain ⟨u, rest⟩ := parts
          rw [htpasswdLoop_entry sys user pass fuel hsplit]
          simp only [List.findSome?_cons]
          cases entryVerdict sys user pass ⟨u, rest⟩ with
          | none => exact ih _
          | some rc => rfl

def Admits (e : PasswdEntry) : Prop := entryVerdict sys user pass e = some ngxOk

/-- The first entry at which the check does not go on gives access. -/
def Decides (text : NgxStr) (e : PasswdEntry) : Prop :=
  ∃ earlier later, fileEntries text = earlier ++ e :: later ∧ Admits sys user pass e ∧
    ∀ x ∈ earlier, entryVerdict sys user pass x = none

theorem htpasswdLoop_ok_iff (text : NgxStr) :
    htpasswdLoop sys user pass text.length text = ngxOk ↔ ∃ e, Decides sys user pass text e := by
  have hdeclined : ngxDeclined ≠ ngxOk := by decide
  rw [htpasswdLoop_eq sys user pass text.length text, ← fileEntries]
  constructor
  · intro h
    cases hfirst : (fileEntries text).findSome? (entryVerdict sys user pass) with
    | none =>
        rw [hfirst] at h
        exact absurd h hdeclined
    | some rc =>
        rw [hfirst, Option.getD_some] at h
        rw [h, List.findSome?_eq_some_iff] at hfirst
        obtain ⟨earlier, e, later, heq, hadmits, hnone⟩ := hfirst
        exact ⟨e, earlier, later, heq, hadmits, hnone⟩
  · rintro ⟨e, earlier, later, heq, hadmits, hnone⟩
    have hfirst : (fileEntries text).findSome? (entryVerdict sys user pass) = some ngxOk :=
      List.findSome?_eq_some_iff.mpr ⟨earlier, e, later, heq, hadmits, hnone⟩
    rw [hfirst, Option.getD_some]

end Verdict

/-- A position where a line begins. -/
def AtLineStart (before : NgxStr) : Prop := before = [] ∨ before.getLast? = some (ch '\n')

def IsLine (text l : NgxStr) : Prop :=
  ch '\n' ∉ l ∧ ∃ before after, text = before ++ l ++ after ∧ AtLineStart before ∧
    (after = [] ∨ after.head? = some (ch '\n'))

section Sound
variable (sys : Sys) (user pass : NgxStr)

/-- The stored text `h` is the hash of the password, or the password where it is no hash. -/
def Vouches (h : NgxStr) : Prop :=
  if h.head? = some (ch '$') then sys.crypt (cString pass) (cString h) = some h else pass = h

/-- A line of the file is `user:h`, up to CRs at its end, and `h` vouches for the password. -/
def SoundLine (text : NgxStr) : Prop :=
  ∃ h crs, IsLine text (user ++ ch ':' :: (h ++ crs)) ∧ (∀ c ∈ crs, c = ch '\r') ∧
    Vouches sys pass h

end Sound

/-- The content of the password file, where it is opened and read. -/
def passwordText (sys : Sys) (file : NgxStr) : Option NgxStr :=
  (sys.fs.openFile (sys.unterminated file)).bind fun opened =>
    opened.fdSize.bind fun _ => opened.read

theorem htaccessCheckHtpasswd_ok_iff (sys : Sys) (file user pass : NgxStr) :
    htaccessCheckHtpasswd sys file user pass = ngxOk ↔
      ∃ text ∈ passwordText sys file, ∃ e, Decides sys user pass text e := by
  have hdeclined : ngxDeclined ≠ ngxOk := by decide
  have herror : ngxError ≠ ngxOk := by decide
  unfold htaccessCheckHtpasswd passwordText
  cases sys.fs.openFile (sys.unterminated file) with
  | none => simp [hdeclined]
  | some opened =>
      obtain ⟨size, text⟩ := opened
      cases size with
      | none => simp [herror]
      | some size =>
          cases text with
          | none => simp [herror]
          | some text =>
              simp only [Option.bind_some, Option.mem_some_iff, exists_eq_left']
              exact htpasswdLoop_ok_iff sys user pass text

end NgxHtaccess
