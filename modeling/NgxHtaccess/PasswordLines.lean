import NgxHtaccess.PasswordCheck

/-!
`htaccess_check_htpasswd` by the lines of the file. The scan looks for colons and not for
lines, so a line is read with everything in front of it back to the last line with a colon.
-/
namespace NgxHtaccess

/-- The user that the scan takes in front of the first colon of a line: all of the file up to
the colon, or what stands behind the last line with a colon, without its newlines. -/
inductive ReadAs : NgxStr → NgxStr → Prop where
  | first {front : NgxStr} : ch ':' ∉ front → ReadAs front front
  | behind {x y z : NgxStr} : ch '\n' ∉ y → ch ':' ∉ z →
      ReadAs (x ++ ch ':' :: (y ++ ch '\n' :: z)) (z.dropWhile isNewline)

theorem exists_newline_split {s : NgxStr} (h : ch '\n' ∈ s) :
    ∃ l s', s = l ++ ch '\n' :: s' ∧ ch '\n' ∉ l := by
  cases hsplit : ngxStrlchr s (ch '\n') with
  | none => exact absurd h (ngxStrlchr_eq_none.mp hsplit)
  | some parts => exact ⟨parts.1, parts.2, ngxStrlchr_eq_some hsplit⟩

section Entries

theorem dropWhile_newline_colon (s rest : NgxStr) :
    (s ++ ch ':' :: rest).dropWhile isNewline = s.dropWhile isNewline ++ ch ':' :: rest := by
  rw [List.dropWhile_append]
  split
  · rename_i hempty
    rw [List.isEmpty_iff.mp hempty]
    rfl
  · rfl

theorem passwdEntries_cons (fuel : Nat) {user line : NgxStr} (rest : NgxStr)
    (huser : ch ':' ∉ user) (hline : ch '\n' ∉ line) :
    passwdEntries (fuel + 1) (user ++ ch ':' :: (line ++ ch '\n' :: rest)) =
      ⟨user, line ++ ch '\n' :: rest⟩ :: passwdEntries fuel (rest.dropWhile isNewline) := by
  have htake : (PasswdEntry.mk user (line ++ ch '\n' :: rest)).line = line :=
    takeWhile_ne_append hline rest
  have hbehind : (PasswdEntry.mk user (line ++ ch '\n' :: rest)).behind = ch '\n' :: rest := by
    rw [PasswdEntry.behind, htake, List.drop_left]
  rw [passwdEntries, ngxStrlchr_append _ _ huser]
  simp only [hbehind]
  rfl

/-- A colon in front of which the scan finds a user is the colon of an entry. -/
theorem exists_passwdEntry {fuel : Nat} {front rest user : NgxStr}
    (hfuel : (front ++ ch ':' :: rest).length ≤ fuel) (h : ReadAs front user) :
    ∃ e ∈ passwdEntries fuel (front ++ ch ':' :: rest), e.rest = rest ∧ e.user = user := by
  induction fuel generalizing front user with
  | zero => simp at hfuel
  | succ fuel ih =>
      cases h with
      | first hfront =>
          refine ⟨⟨front, rest⟩, ?_, rfl, rfl⟩
          rw [passwdEntries, ngxStrlchr_append _ _ hfront]
          exact List.mem_cons_self
      | @behind x y z hy hz =>
          -- the scan goes on behind the line of the first colon
          obtain ⟨user₀, line, s, hsplit, huser₀, hline, hread⟩ : ∃ user₀ line s,
              x ++ ch ':' :: (y ++ ch '\n' :: z) = user₀ ++ ch ':' :: (line ++ ch '\n' :: s) ∧
              ch ':' ∉ user₀ ∧ ch '\n' ∉ line ∧
              ReadAs (s.dropWhile isNewline) (z.dropWhile isNewline) := by
            have hlast : ReadAs (z.dropWhile isNewline) (z.dropWhile isNewline) :=
              .first fun hmem => hz ((List.dropWhile_sublist _).subset hmem)
            cases hx : ngxStrlchr x (ch ':') with
            | none => exact ⟨x, y, z, rfl, ngxStrlchr_eq_none.mp hx, hy, hlast⟩
            | some parts =>
                obtain ⟨user₀, x₁⟩ := parts
                obtain ⟨rfl, huser₀⟩ := ngxStrlchr_eq_some hx
                by_cases hx₁ : ch '\n' ∈ x₁
                · obtain ⟨line, x₂, rfl, hline⟩ := exists_newline_split hx₁
                  refine ⟨user₀, line, x₂ ++ ch ':' :: (y ++ ch '\n' :: z), by simp, huser₀, hline,
                    ?_⟩
                  rw [dropWhile_newline_colon]
                  exact .behind hy hz
                · refine ⟨user₀, x₁ ++ ch ':' :: y, z, by simp, huser₀, ?_, hlast⟩
                  rw [List.mem_append, List.mem_cons, not_or, not_or]
                  exact ⟨hx₁, by decide, hy⟩
          rw [hsplit, List.append_assoc, List.cons_append, List.append_assoc, List.cons_append]
          rw [passwdEntries_cons fuel _ huser₀ hline, dropWhile_newline_colon]
          have hshort : (s.dropWhile isNewline ++ ch ':' :: rest).length ≤ fuel := by
            have hle := (List.dropWhile_sublist (l := s) isNewline).length_le
            rw [hsplit] at hfuel
            simp only [List.length_append, List.length_cons] at hfuel ⊢
            omega
          obtain ⟨e, he, hrest, huser⟩ := ih hshort hread
          exact ⟨e, List.mem_cons_of_mem _ he, hrest, huser⟩

/-- Every entry is cut at the first colon of a line. -/
theorem passwdEntry_readAs {fuel : Nat} {p : NgxStr} {e : PasswdEntry}
    (h : e ∈ passwdEntries fuel p) :
    ∃ front, p = front ++ ch ':' :: e.rest ∧ ReadAs front e.user := by
  induction fuel generalizing p with
  | zero => cases h
  | succ fuel ih =>
      cases hsplit : ngxStrlchr p (ch ':') with
      | none =>
          rw [passwdEntries, hsplit] at h
          cases h
      | some parts =>
          obtain ⟨user, rest⟩ := parts
          obtain ⟨rfl, huser⟩ := ngxStrlchr_eq_some hsplit
          by_cases hnewline : ch '\n' ∈ rest
          · obtain ⟨line, s, rfl, hline⟩ := exists_newline_split hnewline
            rw [passwdEntries_cons fuel s huser hline] at h
            rcases List.mem_cons.mp h with rfl | hlater
            · exact ⟨user, rfl, .first huser⟩
            obtain ⟨front, hs, hread⟩ := ih hlater
            have hblanks := List.takeWhile_append_dropWhile (p := isNewline) (l := s)
            have hall : ∀ c ∈ s.takeWhile isNewline, isNewline c = true :=
              fun c hc => List.mem_takeWhile_imp hc
            -- nothing is skipped in front of the next entry
            have hfront : front.dropWhile isNewline = front := by
              have hidem := List.dropWhile_idempotent (p := isNewline) (l := s)
              rw [hs, dropWhile_newline_colon] at hidem
              exact List.append_cancel_right hidem
            refine ⟨user ++ ch ':' :: (line ++ ch '\n' :: (s.takeWhile isNewline ++ front)), ?_, ?_⟩
            · conv_lhs => rw [← hblanks, hs]
              simp
            · generalize e.user = u at hread ⊢
              cases hread with
              | first hfree =>
                  have hz : ch ':' ∉ s.takeWhile isNewline ++ front := fun hmem =>
                    (List.mem_append.mp hmem).elim (fun hc => absurd (hall _ hc) (by decide)) hfree
                  have hbehind := ReadAs.behind (x := user) hline hz
                  rw [List.dropWhile_append_of_pos hall, hfront] at hbehind
                  exact hbehind
              | @behind x y z hy hz =>
                  have hbehind := ReadAs.behind
                    (x := user ++ ch ':' :: (line ++ ch '\n' :: (s.takeWhile isNewline ++ x))) hy hz
                  simpa using hbehind
          · have hline : (PasswdEntry.mk user rest).line = rest :=
              takeWhile_ne_of_not_mem hnewline
            have hnone : (PasswdEntry.mk user rest).behind = [] := by
              rw [PasswdEntry.behind, hline]
              exact List.drop_length
            have hend : passwdEntries fuel [] = [] := by
              cases fuel <;> rfl
            rw [passwdEntries, hsplit] at h
            simp only [hnone, List.dropWhile_nil, hend, List.mem_singleton] at h
            exact ⟨user, by rw [h], by rw [h]; exact .first huser⟩

theorem passwdEntries_ordered (fuel : Nat) (p : NgxStr) :
    (passwdEntries fuel p).Pairwise fun d e => e.rest.length < d.rest.length := by
  induction fuel generalizing p with
  | zero => exact .nil
  | succ fuel ih =>
      rw [passwdEntries]
      cases ngxStrlchr p (ch ':') with
      | none => exact .nil
      | some parts =>
          obtain ⟨user, rest⟩ := parts
          refine List.pairwise_cons.mpr ⟨fun e he => ?_, ih _⟩
          obtain ⟨front, hsplit, -⟩ := passwdEntry_readAs he
          have hlength := congrArg List.length hsplit
          have hbehind := (List.dropWhile_sublist (l := (PasswdEntry.mk user rest).behind)
            isNewline).length_le
          have hrest : (PasswdEntry.mk user rest).behind.length ≤ rest.length :=
            (List.drop_sublist _ _).length_le
          rw [List.length_append, List.length_cons] at hlength
          show e.rest.length < rest.length
          omega

end Entries

section Taken
variable (sys : Sys) (user pass : NgxStr)

def storedAt (rest : NgxStr) : NgxStr := (rest.takeWhile (· ≠ ch '\n')).rdropWhile isNewline

/-- The password passes for what is stored behind a colon: a hash is confirmed with all of the
file that follows as its salt, and any stored text confirms itself. -/
def PasswordTaken (rest : NgxStr) : Prop :=
  ((storedAt rest).head? = some (ch '$') ∧
      sys.crypt (cString pass) (sys.unterminated rest) = some (storedAt rest)) ∨
    ((storedAt rest).length = pass.length ∧
      ngxStrncmpEq (storedAt rest) pass pass.length = true)

/-- The user that is read in front of the colon behind `front` is taken for this one. -/
def UserTaken (front : NgxStr) : Prop :=
  ∃ u, ReadAs front u ∧ u.length = user.length ∧ ngxStrncmpEq u user user.length = true

/-- The line with its first colon behind `front` gives access. -/
def TakenLine (text front rest : NgxStr) : Prop :=
  text = front ++ ch ':' :: rest ∧ UserTaken user front ∧ PasswordTaken sys pass rest

/-- The password is too long for a hash of the user up to the colon behind `front`. -/
def RefusedBy (text front : NgxStr) : Prop :=
  256 ≤ pass.length ∧ ∃ front' rest', text = front' ++ ch ':' :: rest' ∧
    front'.length ≤ front.length ∧ UserTaken user front' ∧ (storedAt rest').head? = some (ch '$')

/-- The line gives access, and the scan gets to it. -/
def OpeningLine (text front rest : NgxStr) : Prop :=
  TakenLine sys user pass text front rest ∧ ¬ RefusedBy user pass text front

variable {sys user pass}

theorem admits_iff {e : PasswdEntry} :
    Admits sys user pass e ↔
      (e.user.length = user.length ∧ ngxStrncmpEq e.user user user.length = true) ∧
        PasswordTaken sys pass e.rest ∧
        ¬ (256 ≤ pass.length ∧ (storedAt e.rest).head? = some (ch '$')) := by
  have hstored : e.pw = storedAt e.rest := rfl
  unfold Admits entryVerdict PasswordTaken
  rw [hstored]
  split_ifs with huser hlong hhash hplain
  · exact iff_of_false (by decide) fun h => h.2.2 hlong.symm
  · exact iff_of_true rfl ⟨huser, .inl hhash, fun h => hlong h.symm⟩
  · exact iff_of_true rfl ⟨huser, .inr hplain, fun h => hlong h.symm⟩
  · exact iff_of_false (by decide) fun h => h.2.1.elim hhash hplain
  · exact iff_of_false (by decide) fun h => huser h.1

theorem refuses_iff {e : PasswdEntry} :
    entryVerdict sys user pass e = some ngxDeclined ↔
      (e.user.length = user.length ∧ ngxStrncmpEq e.user user user.length = true) ∧
        256 ≤ pass.length ∧ (storedAt e.rest).head? = some (ch '$') := by
  have hstored : e.pw = storedAt e.rest := rfl
  unfold entryVerdict
  rw [hstored]
  split_ifs with huser hlong hhash hplain
  · exact iff_of_true rfl ⟨huser, hlong.symm⟩
  · exact iff_of_false (by decide) fun h => hlong h.2.symm
  · exact iff_of_false (by decide) fun h => hlong h.2.symm
  · exact iff_of_false (by decide) fun h => hlong h.2.symm
  · exact iff_of_false (by decide) fun h => huser h.1

theorem entryVerdict_cases (e : PasswdEntry) :
    entryVerdict sys user pass e = none ∨ Admits sys user pass e ∨
      entryVerdict sys user pass e = some ngxDeclined := by
  unfold Admits entryVerdict
  split_ifs
  · exact .inr (.inr rfl)
  · exact .inr (.inl rfl)
  · exact .inr (.inl rfl)
  · exact .inl rfl
  · exact .inl rfl

theorem RefusedBy.exists_entry {text front : NgxStr} (h : RefusedBy user pass text front) :
    ∃ e ∈ fileEntries text, entryVerdict sys user pass e = some ngxDeclined ∧
      text.length ≤ front.length + (e.rest.length + 1) := by
  obtain ⟨hlong, front', rest', rfl, hle, ⟨u, hread, hnamed⟩, hhash⟩ := h
  obtain ⟨e, he, rfl, rfl⟩ := @exists_passwdEntry _ front' rest' u (Nat.le_refl _) hread
  refine ⟨e, he, refuses_iff.mpr ⟨hnamed, hlong, hhash⟩, ?_⟩
  rw [List.length_append, List.length_cons]
  omega

/-- The check gives access exactly if a line does that the scan gets to. -/
theorem htpasswdLoop_ok_iff_line (text : NgxStr) :
    htpasswdLoop sys user pass text.length text = ngxOk ↔
      ∃ front rest, OpeningLine sys user pass text front rest := by
  have hordered := passwdEntries_ordered text.length text
  rw [htpasswdLoop_ok_iff]
  constructor
  · rintro ⟨e, earlier, later, heq, hadmits, hnone⟩
    have he : e ∈ fileEntries text := heq ▸ List.mem_append_right _ List.mem_cons_self
    obtain ⟨front, hsplit, hread⟩ := passwdEntry_readAs he
    obtain ⟨hnamed, htaken, -⟩ := admits_iff.mp hadmits
    refine ⟨front, e.rest, ⟨hsplit, ⟨e.user, hread, hnamed⟩, htaken⟩, fun hrefused => ?_⟩
    obtain ⟨d, hd, hdeclined, hlength⟩ := @RefusedBy.exists_entry sys _ _ _ _ hrefused
    rw [hsplit, List.length_append, List.length_cons] at hlength
    rw [heq] at hd
    rcases List.mem_append.mp hd with hearlier | hd
    · rw [hnone d hearlier] at hdeclined
      cases hdeclined
    rcases List.mem_cons.mp hd with rfl | hlater
    · rw [Admits, hdeclined] at hadmits
      cases hadmits
    · rw [fileEntries] at heq
      rw [heq, List.pairwise_append, List.pairwise_cons] at hordered
      have hless := hordered.2.1.1 d hlater
      omega
  · rintro ⟨front, rest, ⟨hsplit, ⟨u, hread, hnamed⟩, htaken⟩, hfree⟩
    obtain ⟨e, he, rfl, rfl⟩ : ∃ e ∈ fileEntries text, e.rest = rest ∧ e.user = u := by
      rw [hsplit]
      exact exists_passwdEntry (Nat.le_refl _) hread
    have hadmits : Admits sys user pass e := admits_iff.mpr ⟨hnamed, htaken, fun hlong =>
      hfree ⟨hlong.1, front, e.rest, hsplit, Nat.le_refl _, ⟨e.user, hread, hnamed⟩, hlong.2⟩⟩
    -- the first entry that the scan does not go on at is no later one
    obtain ⟨d, hd⟩ : ∃ d, (fileEntries text).find?
        (fun d => (entryVerdict sys user pass d).isSome) = some d := by
      rw [← Option.isSome_iff_exists, List.find?_isSome]
      exact ⟨e, he, by rw [hadmits]; rfl⟩
    obtain ⟨hsome, earlier, later, heq, hearlier⟩ := List.find?_eq_some_iff_append.mp hd
    have hnone : ∀ x ∈ earlier, entryVerdict sys user pass x = none := fun x hx => by
      simpa using hearlier x hx
    refine ⟨d, earlier, later, heq, ?_, hnone⟩
    rcases @entryVerdict_cases sys user pass d with h | h | hdeclined
    · rw [h] at hsome
      cases hsome
    · exact h
    · refine absurd ?_ hfree
      have hd : d ∈ fileEntries text := heq ▸ List.mem_append_right _ List.mem_cons_self
      obtain ⟨front', hsplit', hread'⟩ := passwdEntry_readAs hd
      obtain ⟨hnamed', hlong, hhash⟩ := refuses_iff.mp hdeclined
      refine ⟨hlong, front', d.rest, hsplit', ?_, ⟨d.user, hread', hnamed'⟩, hhash⟩
      have hle : e.rest.length ≤ d.rest.length := by
        rw [heq] at he
        rcases List.mem_append.mp he with he | he
        · rw [Admits, hnone e he] at hadmits
          cases hadmits
        rcases List.mem_cons.mp he with rfl | hlater
        · exact Nat.le_refl _
        · rw [fileEntries] at heq
          rw [heq, List.pairwise_append, List.pairwise_cons] at hordered
          exact Nat.le_of_lt (hordered.2.1.1 e hlater)
      have hlength := congrArg List.length (hsplit.symm.trans hsplit')
      rw [List.length_append, List.length_append, List.length_cons, List.length_cons] at hlength
      omega

theorem openingLine_of_short (hpass : pass.length < 256) {text front rest : NgxStr} :
    OpeningLine sys user pass text front rest ↔ TakenLine sys user pass text front rest :=
  and_iff_left fun hrefused => absurd hrefused.1 (by omega)

theorem htaccessCheckHtpasswd_ok_iff_line {file : NgxStr} :
    htaccessCheckHtpasswd sys file user pass = ngxOk ↔
      ∃ text ∈ passwordText sys file, ∃ front rest, OpeningLine sys user pass text front rest := by
  rw [htaccessCheckHtpasswd_ok_iff]
  simp only [← htpasswdLoop_ok_iff, htpasswdLoop_ok_iff_line]

end Taken

section Sound
variable (sys : Sys) (user pass front rest : NgxStr)

/-- The lines that give access though they do not vouch for the password of the user. -/
inductive Misread : Prop where
  /-- The password is the text of a hash that it does not have. -/
  | presented : (storedAt rest).head? = some (ch '$') →
      sys.crypt (cString pass) (sys.unterminated rest) ≠ some (storedAt rest) →
      sys.crypt (cString pass) (cString (storedAt rest)) ≠ some (storedAt rest) → Misread
  /-- The hash is confirmed only with what follows it in the file for its salt. -/
  | longSalt : (storedAt rest).head? = some (ch '$') →
      sys.crypt (cString pass) (sys.unterminated rest) = some (storedAt rest) →
      sys.crypt (cString pass) (cString (storedAt rest)) ≠ some (storedAt rest) → Misread
  /-- What stands on the line in front of the colon is not the user. -/
  | otherUser : (∀ before, AtLineStart before → ch '\n' ∉ user → front ≠ before ++ user) → Misread
  /-- The passwords agree up to a NUL only. -/
  | otherPassword : (storedAt rest).head? ≠ some (ch '$') → storedAt rest ≠ pass → Misread

variable {sys user pass front rest}

theorem soundLine_of_read (h : ¬ Misread sys user pass front rest) :
    SoundLine sys user pass (front ++ ch ':' :: rest) := by
  obtain ⟨before, hstart, hnewline, rfl⟩ : ∃ before, AtLineStart before ∧ ch '\n' ∉ user ∧
      front = before ++ user := by
    by_contra hnone
    exact h (.otherUser fun before hstart hnewline heq => hnone ⟨before, hstart, hnewline, heq⟩)
  have hvouches : Vouches sys pass (storedAt rest) := by
    unfold Vouches
    split
    · rename_i hhash
      by_contra hcrypt
      by_cases hsalt : sys.crypt (cString pass) (sys.unterminated rest) = some (storedAt rest)
      · exact h (.longSalt hhash hsalt hcrypt)
      · exact h (.presented hhash hsalt hcrypt)
    · rename_i hhash
      by_contra hne
      exact h (.otherPassword hhash fun heq => hne heq.symm)
  have hline : storedAt rest ++ (rest.takeWhile (· ≠ ch '\n')).rtakeWhile isNewline =
      rest.takeWhile (· ≠ ch '\n') := List.rdropWhile_append_rtakeWhile
  have hrest : rest.takeWhile (· ≠ ch '\n') ++ rest.dropWhile (· ≠ ch '\n') = rest :=
    List.takeWhile_append_dropWhile
  have hfree : ch '\n' ∉ rest.takeWhile (· ≠ ch '\n') := not_mem_takeWhile_ne rest (ch '\n')
  refine ⟨storedAt rest, (rest.takeWhile (· ≠ ch '\n')).rtakeWhile isNewline, ?_,
    fun c hc => ?_, hvouches⟩
  · rw [hline]
    refine ⟨fun hmem => ?_, before, rest.dropWhile (· ≠ ch '\n'), ?_, hstart, ?_⟩
    · rcases List.mem_append.mp hmem with hmem | hmem
      · exact hnewline hmem
      · exact (List.mem_cons.mp hmem).elim (by decide) hfree
    · rw [List.append_assoc before, List.append_assoc before, List.append_assoc user,
        List.cons_append, hrest]
    · cases hdrop : rest.dropWhile (· ≠ ch '\n') with
      | nil => exact .inl rfl
      | cons c after =>
          have hfirst := List.head?_dropWhile_not (· ≠ ch '\n') rest
          rw [hdrop] at hfirst
          have hc : decide (c ≠ ch '\n') = false := hfirst
          exact .inr (congrArg some (not_not.mp (of_decide_eq_false hc)))
  · have hblank := List.mem_rtakeWhile_imp hc
    have hmem : c ∈ rest.takeWhile (· ≠ ch '\n') := (List.rtakeWhile_suffix _ _).subset hc
    rcases Bool.or_eq_true_iff.mp hblank with heq | heq
    · exact absurd (of_decide_eq_true heq ▸ hmem) hfree
    · exact of_decide_eq_true heq

end Sound

/-- The check is sound exactly when a line is sound wherever one that is misread gives access. -/
theorem password_sound_iff (sys : Sys) (file user pass : NgxStr) :
    (htaccessCheckHtpasswd sys file user pass = ngxOk →
      ∃ text ∈ passwordText sys file, SoundLine sys user pass text) ↔
    ∀ text ∈ passwordText sys file, ∀ front rest, OpeningLine sys user pass text front rest →
      Misread sys user pass front rest → SoundLine sys user pass text := by
  rw [htaccessCheckHtpasswd_ok_iff_line]
  constructor
  · intro hsound text htext front rest hopening _
    obtain ⟨text', htext', hline⟩ := hsound ⟨text, htext, front, rest, hopening⟩
    cases Option.mem_unique htext htext'
    exact hline
  · rintro hright ⟨text, htext, front, rest, hopening⟩
    refine ⟨text, htext, ?_⟩
    by_cases hmis : Misread sys user pass front rest
    · exact hright text htext front rest hopening hmis
    · rw [hopening.1.1]
      exact soundLine_of_read hmis

def hashedFiles : List (String × String) := [("/p", "bob:$1$salt$hash\n")]

/-- The stored hash is accepted for a password. -/
theorem stored_hash_accepted :
    ¬ (htaccessCheckHtpasswd (siteSys (siteFs 0 hashedFiles)) (lit "/p") (lit "bob")
          (lit "$1$salt$hash") = ngxOk →
        ∃ text ∈ passwordText (siteSys (siteFs 0 hashedFiles)) (lit "/p"),
          SoundLine (siteSys (siteFs 0 hashedFiles)) (lit "bob") (lit "$1$salt$hash") text) := by
  have haccepted : htaccessCheckHtpasswd (siteSys (siteFs 0 hashedFiles)) (lit "/p") (lit "bob")
      (lit "$1$salt$hash") = ngxOk := by
    decide +kernel
  intro hsound
  obtain ⟨text, -, h, crs, -, -, hvouches⟩ := hsound haccepted
  rw [Vouches] at hvouches
  split at hvouches
  · cases hvouches
  · rename_i hplain
    rw [← hvouches] at hplain
    exact hplain rfl

/-- A line `user:h` of the file, up to CRs at its end, whose `h` vouches for the password. -/
structure SoundLineAt (sys : Sys) (user pass text before h crs after : NgxStr) : Prop where
  split : text = before ++ (user ++ ch ':' :: (h ++ crs)) ++ after
  start : AtLineStart before
  ends : after = [] ∨ after.head? = some (ch '\n')
  oneLine : ch '\n' ∉ h
  crs : ∀ c ∈ crs, c = ch '\r'
  trimmed : h.getLast? ≠ some (ch '\r')
  vouches : Vouches sys pass h

/-- A line is read from its own start: it is at the start of the file, or in front of it are
newlines only, back to a line with a colon. -/
def Reached (before user : NgxStr) : Prop :=
  before = [] ∨
    user.head? ≠ some (ch '\r') ∧ ∃ x y blanks, before = x ++ ch ':' :: (y ++ ch '\n' :: blanks) ∧
      ch '\n' ∉ y ∧ ∀ c ∈ blanks, isNewline c = true

/-- What is stored is no hash, or a hash that `crypt` confirms with the file behind it in its
salt, or the password as it is. -/
def Confirmed (sys : Sys) (pass h behind : NgxStr) : Prop :=
  h.head? = some (ch '$') →
    sys.crypt (cString pass) (sys.unterminated (h ++ behind)) = some h ∨
      (h.length = pass.length ∧ ngxStrncmpEq h pass pass.length = true)

section Lines
variable {sys : Sys} {user pass : NgxStr}

theorem readAs_own_iff (hcolon : ch ':' ∉ user) (hnewline : ch '\n' ∉ user) (before : NgxStr) :
    (∃ u, ReadAs (before ++ user) u ∧ u.length = user.length ∧
      ngxStrncmpEq u user user.length = true) ↔ Reached before user := by
  constructor
  · rintro ⟨u, hread, hlength, -⟩
    generalize hfront : before ++ user = front at hread
    cases hread with
    | first _ =>
        rw [← hfront, List.length_append] at hlength
        exact .inl (List.length_eq_zero_iff.mp (by omega))
    | @behind x y z hy hz =>
        -- the user has no newline, so that it ends what stands behind one
        obtain ⟨blanks, rfl, hbefore⟩ : ∃ blanks, z = blanks ++ user ∧
            before = x ++ ch ':' :: (y ++ ch '\n' :: blanks) := by
          have hcut : before ++ user = (x ++ ch ':' :: (y ++ [ch '\n'])) ++ z := by
            rw [hfront]
            simp
          rcases List.append_eq_append_iff.mp hcut with ⟨w, hw, huser⟩ | ⟨w, hw, hz'⟩
          · rcases List.eq_nil_or_concat' w with rfl | ⟨w, c, rfl⟩
            · refine ⟨[], huser.symm, ?_⟩
              rw [List.append_nil] at hw
              exact hw.symm
            · have hlast : x ++ ch ':' :: (y ++ [ch '\n']) = (x ++ ch ':' :: y) ++ [ch '\n'] := by
                simp
              rw [hlast, ← List.append_assoc] at hw
              obtain ⟨-, hc⟩ := List.append_inj' hw rfl
              rw [huser, ← hc] at hnewline
              exact absurd (List.mem_append_left _ (List.mem_append_right _ List.mem_cons_self))
                hnewline
          · refine ⟨w, hz', ?_⟩
            rw [hw]
            simp
        have hall : ∀ c ∈ blanks, isNewline c = true := by
          by_contra hnot
          have hne : ¬ (blanks.dropWhile isNewline).isEmpty = true := fun hempty =>
            hnot (List.dropWhile_eq_nil_iff.mp (List.isEmpty_iff.mp hempty))
          rw [List.dropWhile_append, if_neg hne, List.length_append] at hlength
          exact hne (List.isEmpty_iff.mpr (List.length_eq_zero_iff.mp (by omega)))
        refine .inr ⟨fun hhead => ?_, x, y, blanks, hbefore, hy, hall⟩
        rw [List.dropWhile_append_of_pos hall] at hlength
        cases user with
        | nil => cases hhead
        | cons c user =>
            cases hhead
            have hle := (List.dropWhile_sublist (l := user) isNewline).length_le
            rw [List.dropWhile_cons, if_pos (by decide), List.length_cons] at hlength
            omega
  · intro h
    refine ⟨user, ?_, rfl, ngxStrncmpEq_self user⟩
    rcases h with rfl | ⟨hhead, x, y, blanks, rfl, hy, hall⟩
    · exact .first hcolon
    · have hz : ch ':' ∉ blanks ++ user := fun hmem =>
        (List.mem_append.mp hmem).elim (fun hc => absurd (hall _ hc) (by decide)) hcolon
      have hskip : user.dropWhile isNewline = user := by
        cases user with
        | nil => rfl
        | cons c user =>
            have hc : isNewline c = false := by
              rw [isNewline, Bool.or_eq_false_iff, decide_eq_false_iff_not,
                decide_eq_false_iff_not]
              exact ⟨fun h => hnewline (h ▸ List.mem_cons_self), fun h => hhead (congrArg some h)⟩
            rw [List.dropWhile_cons, hc]
            rfl
      have hbehind := ReadAs.behind (x := x) hy hz
      rw [List.dropWhile_append_of_pos hall, hskip] at hbehind
      simpa using hbehind

variable {text before h crs after : NgxStr}

theorem SoundLineAt.storedAt_eq (hline : SoundLineAt sys user pass text before h crs after) :
    storedAt (h ++ (crs ++ after)) = h := by
  have hfree : ch '\n' ∉ h ++ crs := fun hmem =>
    (List.mem_append.mp hmem).elim hline.oneLine fun hc => absurd (hline.crs _ hc) (by decide)
  have htake : (h ++ (crs ++ after)).takeWhile (· ≠ ch '\n') = h ++ crs := by
    rw [← List.append_assoc]
    rcases hline.ends with rfl | hhead
    · rw [List.append_nil, takeWhile_ne_of_not_mem hfree]
    · obtain ⟨rest, rfl⟩ := List.head?_eq_some_iff.mp hhead
      exact takeWhile_ne_append hfree rest
  have hblank : ∀ c ∈ crs, isNewline c = true := fun c hc => by
    rw [hline.crs c hc]
    rfl
  have hkeep : h.rdropWhile isNewline = h := by
    rw [List.rdropWhile_eq_self_iff]
    intro hne hlast
    simp only [isNewline, Bool.or_eq_true, decide_eq_true_eq] at hlast
    rcases hlast with hc | hc
    · exact hline.oneLine (hc ▸ List.getLast_mem hne)
    · exact hline.trimmed (by rw [List.getLast?_eq_some_getLast hne, hc])
  rw [storedAt, htake, List.rdropWhile, List.reverse_append,
    List.dropWhile_append_of_pos (fun c hc => hblank c (List.mem_reverse.mp hc)),
    ← List.rdropWhile, hkeep]

theorem SoundLineAt.passwordTaken_iff
    (hline : SoundLineAt sys user pass text before h crs after) :
    PasswordTaken sys pass (h ++ (crs ++ after)) ↔ Confirmed sys pass h (crs ++ after) := by
  rw [PasswordTaken, hline.storedAt_eq, Confirmed]
  by_cases hhash : h.head? = some (ch '$')
  · simp only [hhash, true_and, true_implies]
  · have hplain := hline.vouches
    rw [Vouches, if_neg hhash] at hplain
    refine iff_of_true (.inr ?_) fun h => absurd h hhash
    rw [hplain]
    exact ⟨rfl, ngxStrncmpEq_self h⟩

end Lines

/-- Every sound line gives access exactly if each of them is read from its own start and its
hash confirmed, or another line gives access. -/
theorem password_complete_iff (sys : Sys) (file : NgxStr) {user pass : NgxStr}
    (hcolon : ch ':' ∉ user) (hnewline : ch '\n' ∉ user) (hpass : pass.length < 256) :
    (∀ text ∈ passwordText sys file, ∀ before h crs after,
      SoundLineAt sys user pass text before h crs after →
        htaccessCheckHtpasswd sys file user pass = ngxOk) ↔
    ∀ text ∈ passwordText sys file, ∀ before h crs after,
      SoundLineAt sys user pass text before h crs after →
        Reached before user ∧ Confirmed sys pass h (crs ++ after) ∨
          ∃ front rest, front ≠ before ++ user ∧ TakenLine sys user pass text front rest := by
  have hcheck : ∀ text ∈ passwordText sys file,
      (htaccessCheckHtpasswd sys file user pass = ngxOk ↔
        ∃ front rest, TakenLine sys user pass text front rest) := by
    intro text htext
    rw [htaccessCheckHtpasswd_ok_iff_line]
    constructor
    · rintro ⟨text', htext', front, rest, hopening⟩
      cases Option.mem_unique htext htext'
      exact ⟨front, rest, (openingLine_of_short hpass).mp hopening⟩
    · exact fun ⟨front, rest, htaken⟩ =>
        ⟨text, htext, front, rest, (openingLine_of_short hpass).mpr htaken⟩
  refine forall₂_congr fun text htext => ?_
  rw [hcheck text htext]
  refine forall₄_congr fun before h crs after => forall_congr' fun hline => ?_
  have hsplit : text = (before ++ user) ++ ch ':' :: (h ++ (crs ++ after)) := by
    rw [hline.split]
    simp
  constructor
  · rintro ⟨front, rest, htaken⟩
    by_cases hsame : front = before ++ user
    · subst hsame
      obtain ⟨hsplit', hread, htaken⟩ := htaken
      have hrest := (List.cons.inj (List.append_cancel_left (hsplit'.symm.trans hsplit))).2
      rw [hrest, hline.passwordTaken_iff] at htaken
      exact .inl ⟨(readAs_own_iff hcolon hnewline before).mp hread, htaken⟩
    · exact .inr ⟨front, rest, hsame, htaken⟩
  · rintro (⟨hreached, hconfirmed⟩ | ⟨front, rest, -, htaken⟩)
    · exact ⟨before ++ user, h ++ (crs ++ after), hsplit,
        (readAs_own_iff hcolon hnewline before).mpr hreached,
        hline.passwordTaken_iff.mpr hconfirmed⟩
    · exact ⟨front, rest, htaken⟩

def plainFiles : List (String × String) := [("/p", "eve:no\nbob:pw\x0d\nann:x\n")]

/-- The line of bob is behind a line with a colon. -/
theorem only_line_found :
    Reached (lit "eve:no\n") (lit "bob") ∧
        Confirmed (siteSys (siteFs 0 plainFiles)) (lit "pw") (lit "pw")
          (lit "\x0d" ++ lit "\nann:x\n") ∨
      ∃ front rest, front ≠ lit "eve:no\n" ++ lit "bob" ∧
        TakenLine (siteSys (siteFs 0 plainFiles)) (lit "bob") (lit "pw")
          (lit "eve:no\nbob:pw\x0d\nann:x\n") front rest := by
  have hline : SoundLineAt (siteSys (siteFs 0 plainFiles)) (lit "bob") (lit "pw")
      (lit "eve:no\nbob:pw\x0d\nann:x\n") (lit "eve:no\n") (lit "pw") (lit "\x0d")
      (lit "\nann:x\n") := {
    split := by decide +kernel
    start := .inr (by decide)
    ends := .inr (by decide)
    oneLine := by decide
    crs := by decide +kernel
    trimmed := by decide +kernel
    vouches := by
      rw [Vouches, if_neg (by decide)] }
  have hfound : htaccessCheckHtpasswd (siteSys (siteFs 0 plainFiles)) (lit "/p") (lit "bob")
      (lit "pw") = ngxOk := by
    decide +kernel
  exact (password_complete_iff (siteSys (siteFs 0 plainFiles)) (lit "/p") (by decide)
    (by decide) (by decide)).mp (fun _ _ _ _ _ _ _ => hfound)
    (lit "eve:no\nbob:pw\x0d\nann:x\n") (by decide +kernel) _ _ _ _ hline

def commentedFiles : List (String × String) := [("/p", "# users\nbob:pw\n")]

theorem line_behind_comment_lost :
    ¬ ∀ text ∈ passwordText (siteSys (siteFs 0 commentedFiles)) (lit "/p"),
      ∀ before h crs after, SoundLineAt (siteSys (siteFs 0 commentedFiles)) (lit "bob") (lit "pw")
        text before h crs after →
          htaccessCheckHtpasswd (siteSys (siteFs 0 commentedFiles)) (lit "/p") (lit "bob")
            (lit "pw") = ngxOk := by
  intro hall
  have hline : SoundLineAt (siteSys (siteFs 0 commentedFiles)) (lit "bob") (lit "pw")
      (lit "# users\nbob:pw\n") (lit "# users\n") (lit "pw") [] (lit "\n") := {
    split := by decide
    start := .inr (by decide)
    ends := .inr (by decide)
    oneLine := by decide
    crs _ hcr := nomatch hcr
    trimmed := by decide +kernel
    vouches := by
      rw [Vouches, if_neg (by decide)] }
  exact absurd (hall (lit "# users\nbob:pw\n") (by decide +kernel) _ _ _ _ hline)
    (by decide +kernel)

end NgxHtaccess
