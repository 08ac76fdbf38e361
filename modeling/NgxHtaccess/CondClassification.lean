import NgxHtaccess.VariableAgreement

/-!
How `htaccess_parse_rewrite_cond` classifies the two strings of a condition. Three keywords
of the test string have a length guard that is one too long, HTTP_HOST is compared as a
prefix, the file operators but `-f` are compared with a length that is one too long, and a
pattern that begins with `!` keeps it.
-/
namespace NgxHtaccess

def startsIgnoreCase (s keyword : NgxStr) : Bool :=
  keyword.length ≤ s.length && ngxStrncasecmpEq s keyword keyword.length

/-- The test and the name that the variable of a test string asks for. -/
def variableClass (name : NgxStr) : CondTest × NgxStr :=
  if eqIgnoreCase name (lit "REQUEST_FILENAME") then (.filename, [])
  else if eqIgnoreCase name (lit "REQUEST_URI") then (.uri, [])
  else if eqIgnoreCase name (lit "QUERY_STRING") then (.queryString, [])
  else if eqIgnoreCase name (lit "HTTP_HOST") then (.http, lit "Host")
  else if startsIgnoreCase name (lit "HTTP:") then (.http, name.drop 5)
  else if startsIgnoreCase name (lit "ENV:") then (.env, name.drop 4)
  else (.other, [])

/-- The operator and the pattern that the value string asks for. -/
def valueClass (value : NgxStr) : CondOp × NgxStr :=
  if value = lit "-f" then (.file, value)
  else if value = lit "-d" then (.dir, value)
  else if value = lit "-l" then (.symlink, value)
  else if value = lit "-s" then (.exist, value)
  else if value = lit "!-f" then (.notFile, value)
  else if value = lit "!-d" then (.notDir, value)
  else if value = lit "!-l" then (.notSymlink, value)
  else if value = lit "!-s" then (.notExist, value)
  else if value.head? = some (ch '!') then (.nregex, value.tail)
  else (.regex, value)

/-- The variables that are classified as they ask. -/
structure VariableRead (name : NgxStr) : Prop where
  requestFilename : startsIgnoreCase name (lit "REQUEST_FILENAME") = false
  requestUri : startsIgnoreCase name (lit "REQUEST_URI") = false
  queryString : startsIgnoreCase name (lit "QUERY_STRING") = false
  httpHost : startsIgnoreCase name (lit "HTTP_HOST") = true → name.length = 9

/-- The values that are classified as they ask. -/
structure ValueRead (value : NgxStr) : Prop where
  notNegated : value.head? ≠ some (ch '!')
  notFileOp : ¬ ((value.length = 2 ∨ value.length = 3) ∧
    value.take 2 ∈ [lit "-d", lit "-l", lit "-s"])

section Variable
variable {name : NgxStr}

theorem eqIgnoreCase_eq_starts (s keyword : NgxStr) :
    eqIgnoreCase s keyword = (startsIgnoreCase s keyword && s.length = keyword.length) := by
  unfold eqIgnoreCase startsIgnoreCase
  by_cases hlength : s.length = keyword.length
  · simp [hlength]
  · simp [hlength]

theorem keywords_agree {s k l : NgxStr} (hk : startsIgnoreCase s k = true)
    (hl : startsIgnoreCase s l = true) :
    ngxStrncasecmpEq k l (min k.length l.length) = true := by
  unfold startsIgnoreCase at hk hl
  rw [Bool.and_eq_true] at hk hl
  have hks := ngxStrncasecmpEq_le _ _ (Nat.min_le_left k.length l.length) hk.2
  have hsl := ngxStrncasecmpEq_le _ _ (Nat.min_le_right k.length l.length) hl.2
  exact ngxStrncasecmpEq_trans _ _ _ _ (ngxStrncasecmpEq_symm _ _ _ hks) hsl

theorem not_starts_of_starts {s k : NgxStr} (hk : startsIgnoreCase s k = true) (l : NgxStr)
    (h : ngxStrncasecmpEq k l (min k.length l.length) = false) :
    startsIgnoreCase s l = false := by
  cases hl : startsIgnoreCase s l with
  | false => rfl
  | true => rw [keywords_agree hk hl] at h; exact h

theorem guard_iff (name : NgxStr) {n : Nat} (keyword : NgxStr) (hn : keyword.length ≤ n) :
    (n ≤ name.length ∧ ngxStrncasecmpEq name keyword keyword.length = true) ↔
      startsIgnoreCase name keyword = true ∧ n ≤ name.length := by
  unfold startsIgnoreCase
  rw [Bool.and_eq_true, decide_eq_true_eq]
  constructor
  · rintro ⟨hlength, hcompare⟩
    exact ⟨⟨by omega, hcompare⟩, hlength⟩
  · rintro ⟨⟨_, hcompare⟩, hlength⟩
    exact ⟨hlength, hcompare⟩

theorem condVariable_eq :
    condVariable name =
      if startsIgnoreCase name (lit "REQUEST_FILENAME") = true ∧ 17 ≤ name.length then
        (.filename, [])
      else if startsIgnoreCase name (lit "REQUEST_URI") = true ∧ 12 ≤ name.length then (.uri, [])
      else if startsIgnoreCase name (lit "QUERY_STRING") = true ∧ 13 ≤ name.length then
        (.queryString, [])
      else if startsIgnoreCase name (lit "HTTP_HOST") = true ∧ 9 ≤ name.length then
        (.http, lit "Host")
      else if startsIgnoreCase name (lit "HTTP:") = true ∧ 5 ≤ name.length then
        (.http, name.drop 5)
      else if startsIgnoreCase name (lit "ENV:") = true ∧ 4 ≤ name.length then (.env, name.drop 4)
      else (.other, []) := by
  have hfilename := guard_iff name (n := 17) (lit "REQUEST_FILENAME") (by decide)
  have huri := guard_iff name (n := 12) (lit "REQUEST_URI") (by decide)
  have hquery := guard_iff name (n := 13) (lit "QUERY_STRING") (by decide)
  have hhost := guard_iff name (n := 9) (lit "HTTP_HOST") (by decide)
  have hhttp := guard_iff name (n := 5) (lit "HTTP:") (by decide)
  have henv := guard_iff name (n := 4) (lit "ENV:") (by decide)
  unfold condVariable
  simp only [← hfilename, ← huri, ← hquery, ← hhost, ← hhttp, ← henv]
  rfl

theorem variableClass_eq :
    variableClass name =
      if startsIgnoreCase name (lit "REQUEST_FILENAME") = true ∧ name.length = 16 then
        (.filename, [])
      else if startsIgnoreCase name (lit "REQUEST_URI") = true ∧ name.length = 11 then (.uri, [])
      else if startsIgnoreCase name (lit "QUERY_STRING") = true ∧ name.length = 12 then
        (.queryString, [])
      else if startsIgnoreCase name (lit "HTTP_HOST") = true ∧ name.length = 9 then
        (.http, lit "Host")
      else if startsIgnoreCase name (lit "HTTP:") = true then (.http, name.drop 5)
      else if startsIgnoreCase name (lit "ENV:") = true then (.env, name.drop 4)
      else (.other, []) := by
  unfold variableClass
  simp only [eqIgnoreCase_eq_starts, Bool.and_eq_true, decide_eq_true_eq]
  rfl

theorem starts_length {keyword : NgxStr} (h : startsIgnoreCase name keyword = true) :
    keyword.length ≤ name.length := by
  unfold startsIgnoreCase at h
  rw [Bool.and_eq_true, decide_eq_true_eq] at h
  exact h.1

/-- A guard that asks for one byte more than the keyword has picks the wrong names. -/
theorem guard_misses {α : Type} {a b : α} {n length : Nat} (hab : a ≠ b) (h : n ≤ length) :
    (if n + 1 ≤ length then a else b) ≠ if length = n then a else b := by
  by_cases hexact : length = n
  · rw [if_neg (by omega), if_pos hexact]
    exact hab.symm
  · rw [if_pos (by omega), if_neg hexact]
    exact hab

theorem condVariable_iff : condVariable name = variableClass name ↔ VariableRead name := by
  rw [condVariable_eq, variableClass_eq]
  by_cases hfilename : startsIgnoreCase name (lit "REQUEST_FILENAME") = true
  · have huri := not_starts_of_starts hfilename (lit "REQUEST_URI") (by decide)
    have hquery := not_starts_of_starts hfilename (lit "QUERY_STRING") (by decide)
    have hhost := not_starts_of_starts hfilename (lit "HTTP_HOST") (by decide)
    have hhttp := not_starts_of_starts hfilename (lit "HTTP:") (by decide)
    have henv := not_starts_of_starts hfilename (lit "ENV:") (by decide)
    simp only [hfilename, huri, hquery, hhost, hhttp, henv, true_and, false_and, if_false,
      Bool.false_eq_true]
    refine iff_of_false (guard_misses (by decide) (starts_length hfilename)) fun h => ?_
    rw [h.requestFilename] at hfilename
    cases hfilename
  by_cases huri : startsIgnoreCase name (lit "REQUEST_URI") = true
  · have hquery := not_starts_of_starts huri (lit "QUERY_STRING") (by decide)
    have hhost := not_starts_of_starts huri (lit "HTTP_HOST") (by decide)
    have hhttp := not_starts_of_starts huri (lit "HTTP:") (by decide)
    have henv := not_starts_of_starts huri (lit "ENV:") (by decide)
    simp only [hfilename, huri, hquery, hhost, hhttp, henv, true_and, false_and, if_false,
      Bool.false_eq_true]
    refine iff_of_false (guard_misses (by decide) (starts_length huri)) fun h => ?_
    rw [h.requestUri] at huri
    cases huri
  by_cases hquery : startsIgnoreCase name (lit "QUERY_STRING") = true
  · have hhost := not_starts_of_starts hquery (lit "HTTP_HOST") (by decide)
    have hhttp := not_starts_of_starts hquery (lit "HTTP:") (by decide)
    have henv := not_starts_of_starts hquery (lit "ENV:") (by decide)
    simp only [hfilename, huri, hquery, hhost, hhttp, henv, true_and, false_and, if_false,
      Bool.false_eq_true]
    refine iff_of_false (guard_misses (by decide) (starts_length hquery)) fun h => ?_
    rw [h.queryString] at hquery
    cases hquery
  rw [Bool.not_eq_true] at hfilename huri hquery
  simp only [hfilename, huri, hquery, false_and, if_false, Bool.false_eq_true]
  by_cases hhost : startsIgnoreCase name (lit "HTTP_HOST") = true
  · have hhttp := not_starts_of_starts hhost (lit "HTTP:") (by decide)
    have henv := not_starts_of_starts hhost (lit "ENV:") (by decide)
    simp only [hhost, hhttp, henv, true_and, false_and, if_false, Bool.false_eq_true]
    have hguard : 9 ≤ name.length := starts_length hhost
    rw [if_pos hguard]
    by_cases hexact : name.length = 9
    · rw [if_pos hexact]
      exact iff_of_true rfl ⟨hfilename, huri, hquery, fun _ => hexact⟩
    · rw [if_neg hexact]
      exact iff_of_false (by decide) fun h => hexact (h.httpHost hhost)
  · refine iff_of_true ?_ ⟨hfilename, huri, hquery, fun h => absurd h hhost⟩
    have hhttp : startsIgnoreCase name (lit "HTTP:") = true → 5 ≤ name.length := starts_length
    have henv : startsIgnoreCase name (lit "ENV:") = true → 4 ≤ name.length := starts_length
    simp only [hhost, false_and, if_false, Bool.false_eq_true, and_iff_left_of_imp hhttp,
      and_iff_left_of_imp henv]

end Variable

section Value
variable {value : NgxStr}

theorem ngxStrncmpEq_iff_take (s : NgxStr) {keyword : NgxStr} (h : (0 : UInt8) ∉ keyword) :
    ngxStrncmpEq s keyword keyword.length = true ↔ s.take keyword.length = keyword := by
  induction keyword generalizing s with
  | nil => simp [ngxStrncmpEq]
  | cons k keyword ih =>
      obtain ⟨hk, hrest⟩ := not_or.mp (mt List.mem_cons.mpr h)
      rw [List.length_cons, ngxStrncmpEq, List.headD_cons, List.tail_cons]
      cases s with
      | nil =>
          rw [List.headD_nil, if_neg hk, List.take_nil]
          simp
      | cons c s =>
          rw [List.headD_cons, List.tail_cons, List.take_succ_cons]
          by_cases hc : c = k
          · rw [if_pos hc, if_neg (by rw [hc]; exact fun h0 => hk h0.symm), ih s hrest, hc]
            simp
          · rw [if_neg hc]
            simp [hc]

theorem condOp_eq :
    condOp value =
      if value = lit "-f" then .file
      else if value.length = 3 ∧ value.take 2 = lit "-d" then .dir
      else if value.length = 3 ∧ value.take 2 = lit "-l" then .symlink
      else if value.length = 3 ∧ value.take 2 = lit "-s" then .exist
      else if value.length = 4 ∧ value.take 3 = lit "!-f" then .notFile
      else if value.length = 4 ∧ value.take 3 = lit "!-d" then .notDir
      else if value.length = 4 ∧ value.take 3 = lit "!-l" then .notSymlink
      else if value.length = 4 ∧ value.take 3 = lit "!-s" then .notExist
      else .regex := by
  have hdir : ngxStrncmpEq value (lit "-d") 2 = true ↔ value.take 2 = lit "-d" :=
    ngxStrncmpEq_iff_take value (by decide)
  have hlink : ngxStrncmpEq value (lit "-l") 2 = true ↔ value.take 2 = lit "-l" :=
    ngxStrncmpEq_iff_take value (by decide)
  have hsize : ngxStrncmpEq value (lit "-s") 2 = true ↔ value.take 2 = lit "-s" :=
    ngxStrncmpEq_iff_take value (by decide)
  have hnotFile : ngxStrncmpEq value (lit "!-f") 3 = true ↔ value.take 3 = lit "!-f" :=
    ngxStrncmpEq_iff_take value (by decide)
  have hnotDir : ngxStrncmpEq value (lit "!-d") 3 = true ↔ value.take 3 = lit "!-d" :=
    ngxStrncmpEq_iff_take value (by decide)
  have hnotLink : ngxStrncmpEq value (lit "!-l") 3 = true ↔ value.take 3 = lit "!-l" :=
    ngxStrncmpEq_iff_take value (by decide)
  have hnotSize : ngxStrncmpEq value (lit "!-s") 3 = true ↔ value.take 3 = lit "!-s" :=
    ngxStrncmpEq_iff_take value (by decide)
  unfold condOp
  simp only [hdir, hlink, hsize, hnotFile, hnotDir, hnotLink, hnotSize]

theorem condOp_ne_nregex : condOp value ≠ .nregex := by
  unfold condOp
  split_ifs <;> decide

/-- A value that begins with `!` is never classified as it asks. -/
theorem condOp_negated (h : value.head? = some (ch '!')) : condOp value ≠ (valueClass value).1 := by
  by_cases hops : value ∈ [lit "!-f", lit "!-d", lit "!-l", lit "!-s"]
  · have hall : ∀ v ∈ [lit "!-f", lit "!-d", lit "!-l", lit "!-s"],
        condOp v ≠ (valueClass v).1 := by decide
    exact hall value hops
  · have hplain : ∀ s : NgxStr, s.head? ≠ some (ch '!') → value ≠ s := fun s hs heq =>
      hs (heq ▸ h)
    have hclass : valueClass value = (.nregex, value.tail) := by
      simp only [List.mem_cons, List.not_mem_nil, or_false, not_or] at hops
      unfold valueClass
      rw [if_neg (hplain (lit "-f") (by decide)), if_neg (hplain (lit "-d") (by decide)),
        if_neg (hplain (lit "-l") (by decide)), if_neg (hplain (lit "-s") (by decide)),
        if_neg hops.1, if_neg hops.2.1, if_neg hops.2.2.1, if_neg hops.2.2.2, if_pos h]
    rw [hclass]
    exact condOp_ne_nregex

theorem valueClass_pattern (hneg : value.head? ≠ some (ch '!')) (hfile : value ≠ lit "-f")
    (hop : value.length = 2 → value ∉ [lit "-d", lit "-l", lit "-s"]) :
    valueClass value = (.regex, value) := by
  have hplain : ∀ s : NgxStr, s.head? = some (ch '!') → value ≠ s := fun s hs heq =>
    hneg (heq ▸ hs)
  have hops : ∀ s ∈ [lit "-d", lit "-l", lit "-s"], s.length = 2 := by decide
  have hshort : ∀ s ∈ [lit "-d", lit "-l", lit "-s"], value ≠ s := by
    rintro s hs rfl
    exact hop (hops value hs) hs
  unfold valueClass
  rw [if_neg hfile, if_neg (hshort (lit "-d") (by decide)), if_neg (hshort (lit "-l") (by decide)),
    if_neg (hshort (lit "-s") (by decide)), if_neg (hplain (lit "!-f") (by decide)),
    if_neg (hplain (lit "!-d") (by decide)), if_neg (hplain (lit "!-l") (by decide)),
    if_neg (hplain (lit "!-s") (by decide)), if_neg hneg]

theorem condOp_fileOp (hlength : value.length = 2 ∨ value.length = 3)
    (hop : value.take 2 ∈ [lit "-d", lit "-l", lit "-s"]) :
    condOp value ≠ (valueClass value).1 := by
  rcases hlength with hlength | hlength
  · have hall : ∀ v ∈ [lit "-d", lit "-l", lit "-s"], condOp v ≠ (valueClass v).1 := by decide
    rw [List.take_of_length_le (le_of_eq hlength)] at hop
    exact hall value hop
  · have hfile : value ≠ lit "-f" := by
      rintro rfl
      cases hlength
    have hneg : value.head? ≠ some (ch '!') := by
      intro hhead
      have hall : ∀ v ∈ [lit "-d", lit "-l", lit "-s"], v.head? ≠ some (ch '!') := by decide
      apply hall _ hop
      rw [List.head?_take, hhead]
      rfl
    rw [valueClass_pattern hneg hfile (fun h2 => by omega), condOp_eq, if_neg hfile]
    have hfour : ¬ (3 : Nat) = 4 := by decide
    simp only [hlength, true_and, hfour, false_and, if_false]
    simp only [List.mem_cons, List.not_mem_nil, or_false] at hop
    rcases hop with hop | hop | hop <;> rw [hop] <;> decide

/-- A value is classified as it asks exactly when it is not negated and is not, cut to two
bytes, one of the other file operators in a string of two or three bytes. -/
theorem condOp_iff : (condOp value, value) = valueClass value ↔ ValueRead value := by
  by_cases hneg : value.head? = some (ch '!')
  · exact iff_of_false (fun h => condOp_negated hneg (congrArg Prod.fst h))
      fun h => h.notNegated hneg
  by_cases hop : (value.length = 2 ∨ value.length = 3) ∧
      value.take 2 ∈ [lit "-d", lit "-l", lit "-s"]
  · exact iff_of_false (fun h => condOp_fileOp hop.1 hop.2 (congrArg Prod.fst h))
      fun h => h.notFileOp hop
  refine iff_of_true ?_ ⟨hneg, hop⟩
  by_cases hfile : value = lit "-f"
  · rw [hfile]
    decide
  have hpair : value.length = 2 → value ∉ [lit "-d", lit "-l", lit "-s"] := by
    intro hlength hmem
    refine hop ⟨.inl hlength, ?_⟩
    rw [List.take_of_length_le (le_of_eq hlength)]
    exact hmem
  rw [valueClass_pattern hneg hfile hpair, condOp_eq, if_neg hfile]
  have hnone : ∀ s ∈ [lit "-d", lit "-l", lit "-s"], ¬ (value.length = 3 ∧ value.take 2 = s) := by
    rintro s hs ⟨hlength, htake⟩
    exact hop ⟨.inr hlength, htake ▸ hs⟩
  have hplain : ∀ s : NgxStr, s.head? = some (ch '!') →
      ¬ (value.length = 4 ∧ value.take 3 = s) := by
    rintro s hs ⟨_, htake⟩
    rw [← htake, List.head?_take] at hs
    exact hneg hs
  rw [if_neg (hnone (lit "-d") (by decide)), if_neg (hnone (lit "-l") (by decide)),
    if_neg (hnone (lit "-s") (by decide)), if_neg (hplain (lit "!-f") (by decide)),
    if_neg (hplain (lit "!-d") (by decide)), if_neg (hplain (lit "!-l") (by decide)),
    if_neg (hplain (lit "!-s") (by decide))]

end Value

def variableTemplate (name : NgxStr) : NgxStr := ch '%' :: ch '{' :: (name ++ [ch '}'])

/-- A condition is classified by its two strings as they ask exactly when both the variable
of its test string, if there is one, and its value string are read right. -/
theorem cond_classified_iff {directive test value : NgxStr} {flags : List NgxStr}
    {cond : RewriteCond}
    (h : htaccessParseRewriteCond (directive :: test :: value :: flags) = some cond) :
    ((∀ name, ch '}' ∉ name → test = variableTemplate name →
        (cond.test, cond.name) = variableClass name) ∧
      (cond.op, cond.value) = valueClass value) ↔
    (∀ name, ch '}' ∉ name → test = variableTemplate name → VariableRead name) ∧
      ValueRead value := by
  obtain ⟨parsed, htest, heq⟩ := Option.map_eq_some_iff.mp h
  subst heq
  refine and_congr ?_ condOp_iff
  refine forall_congr' fun name => forall_congr' fun hname => forall_congr' fun htext => ?_
  rw [htext, variableTemplate, condTest_braced hname] at htest
  injection htest with htest
  rw [← condVariable_iff, htest]

/-- `RewriteCond %{REQUEST_FILENAME} !-f`, as every rewriting front controller has it. -/
def frontControllerCond : List NgxStr :=
  [lit "RewriteCond", variableTemplate (lit "REQUEST_FILENAME"), lit "!-f"]

theorem cond_classified_env :
    ((∀ name, ch '}' ∉ name → variableTemplate (lit "ENV:A") = variableTemplate name →
        (CondTest.env, lit "A") = variableClass name) ∧
      (CondOp.regex, lit "1") = valueClass (lit "1")) ↔
    (∀ name, ch '}' ∉ name → variableTemplate (lit "ENV:A") = variableTemplate name →
        VariableRead name) ∧ ValueRead (lit "1") := by
  have hparsed : htaccessParseRewriteCond
      (lit "RewriteCond" :: variableTemplate (lit "ENV:A") :: lit "1" :: []) =
        some
          { test := .env, name := lit "A", op := .regex, value := lit "1", orNext := false } := by
    decide
  exact cond_classified_iff hparsed

def misreadCond : RewriteCond where
  test := .other
  name := []
  op := .regex
  value := lit "!-f"
  orNext := false

/-- Neither the variable nor the operator is recognised. -/
theorem front_controller_misread :
    htaccessParseRewriteCond frontControllerCond = some misreadCond ∧
      (misreadCond.test, misreadCond.name) ≠ variableClass (lit "REQUEST_FILENAME") ∧
      (misreadCond.op, misreadCond.value) ≠ valueClass (lit "!-f") := by
  decide

end NgxHtaccess
