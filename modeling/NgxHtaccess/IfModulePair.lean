import NgxHtaccess.ParseAppend
import NgxHtaccess.TokenGrammar

/-!
A module block and the block of its negation. The parser takes every module for a present one
and does not look at a `!`, so both blocks give their directives.
-/
namespace NgxHtaccess

def ifModuleTag (name : NgxStr) : NgxStr := lit "<IfModule " ++ (name ++ [ch '>'])

def ifModuleEnd : NgxStr := lit "</IfModule>"

def ifModuleBlock (name body : NgxStr) : NgxStr :=
  ifModuleTag name ++ ch '\n' :: (body ++ (ifModuleEnd ++ [ch '\n']))

/-- The block of the module and the block of its negation. -/
def ifModulePair (name A B : NgxStr) : NgxStr :=
  ifModuleBlock name A ++ ifModuleBlock (ch '!' :: name) B

/-- A list of directives: whole lines, each with a directive and none with the tag of a block,
their conditions used and their arguments accepted. -/
structure DirectiveList (sys : Sys) (pool : PoolId) (A : NgxStr) : Prop where
  ends : A ≠ [] → EndsLine A
  whole : (lexedText A).2 = true
  named : ∀ line ∈ (lexedText A).1, ∃ id, lineId line = some id
  conds : CondsUsed (lexedText A).1
  accepted : ∃ file, htaccessParse sys pool A = some file

def directivesOf (sys : Sys) (pool : PoolId) (A : NgxStr) : List Directive :=
  ((htaccessParse sys pool A).map (·.directives)).getD []

section
variable {sys : Sys} {pool : PoolId}

theorem ifModuleTag_text {name : NgxStr} (h : ch '>' ∉ name) :
    LineText true [ifModuleTag name] (ifModuleTag name) := by
  have hbody : ch '>' ∉ lit "IfModule " ++ name := fun hmem =>
    (List.mem_append.mp hmem).elim (by decide) h
  have htag : ch '<' :: (lit "IfModule " ++ name ++ [ch '>']) = ifModuleTag name := by
    simp [ifModuleTag, lit]
  rw [← htag]
  exact lineText_tag hbody

theorem isOpeningTag_ifModule (name : NgxStr) : isOpeningTag (ifModuleTag name) = true := by
  have htag : ifModuleTag name =
      ch '<' :: ch 'I' :: ((lit "fModule " ++ name) ++ [ch '>']) := by
    simp [ifModuleTag, lit]
  rw [htag]
  exact isOpeningTag_cons (by decide) _

theorem scope_ifModule (name : NgxStr) : htaccessParseFilesMatch (ifModuleTag name) = [] := by
  have htag : ifModuleTag name = ch '<' :: ((lit "IfModule " ++ name) ++ [ch '>']) := by
    simp [ifModuleTag, lit]
  rw [htag]
  exact htaccessParseFilesMatch_other
    (ngxStrncasecmpEq_prefix_false (lit "IfModule ") name _ (by decide) (by decide))

theorem lexedText_ifModuleBlock {name A : NgxStr} (hname : ch '>' ∉ name)
    (hends : A ≠ [] → EndsLine A) (hwhole : (lexedText A).2 = true) (rest : NgxStr) :
    lexedText (ifModuleBlock name A ++ rest) =
      ([ifModuleTag name] :: ((lexedText A).1 ++ [[ifModuleEnd]]) ++ (lexedText rest).1,
        (lexedText rest).2) := by
  have hopening := lexedText_line (List.cons_ne_nil _ _)
    (htaccessLexLine_text (ifModuleTag_text hname) (by decide : isNewline (ch '\n') = true)
      (A ++ (ifModuleEnd ++ ch '\n' :: rest)))
  have htag : LineText true [ifModuleEnd] ifModuleEnd :=
    @lineText_tag (lit "/IfModule") (by decide)
  have hclosing := lexedText_line (List.cons_ne_nil _ _)
    (htaccessLexLine_text htag (by decide : isNewline (ch '\n') = true) rest)
  have htext : ifModuleBlock name A ++ rest =
      ifModuleTag name ++ ch '\n' :: (A ++ (ifModuleEnd ++ ch '\n' :: rest)) := by
    simp [ifModuleBlock]
  rw [htext, hopening, lexedText_append hends hwhole, hclosing]
  simp

/-- A block gives the directives that its text gives alone, in a state as good as new. -/
theorem parseLines_ifModule {name A : NgxStr} (hA : DirectiveList sys pool A) {st : ParserState}
    (hst : Nested st) (hdepth : st.depth = 0) (hpending : st.pendingConds = none) :
    ∃ st', parseLines sys pool ([ifModuleTag name] :: ((lexedText A).1 ++ [[ifModuleEnd]])) st =
        some st' ∧
      Nested st' ∧ st'.depth = 0 ∧ st'.pendingConds = none ∧
      st'.directives = st.directives ++ directivesOf sys pool A := by
  obtain ⟨file, hfile⟩ := hA.accepted
  have hparse := hfile
  rw [htaccessParse_lexed, if_pos hA.whole] at hparse
  obtain ⟨alone, halone, rfl⟩ := Option.map_eq_some_iff.mp hparse
  have hslot : st.depth < 15 := by omega
  have hon : (st.opened (ifModuleTag name)).enabled.getD (st.opened (ifModuleTag name)).depth
      false = true := by
    rw [opened_enabled hst.full hslot]
    exact hst.on _ (Nat.le_refl _)
  have hscope := opened_scope hst.full hslot (ifModuleTag name)
  rw [scope_ifModule] at hscope
  -- the lines push inside of the block what they push alone
  have hlines := @parseLines_pushed sys pool (lexedText A).1 (st.opened (ifModuleTag name)) .initial
    hA.named hon hpending
  rw [halone] at hlines
  generalize hinside : parseLines sys pool (lexedText A).1 (st.opened (ifModuleTag name)) = inside
    at hlines
  cases hlines with
  | @some t _ hpushed =>
      obtain ⟨us, pending, rfl, ha, -⟩ := hpushed
      have hrun : parseLines sys pool
          ([ifModuleTag name] :: ((lexedText A).1 ++ [[ifModuleEnd]])) st =
            some { (st.opened (ifModuleTag name)).pushed us pending with
              depth := (st.opened (ifModuleTag name)).depth - 1 } := by
        rw [parseLines_cons, parseLine_opening sys pool (isOpeningTag_ifModule name) hslot,
          Option.bind_some, parseLines_append, hinside, Option.bind_some, parseLines_cons,
          parseLine_closing sys pool (by decide : isClosingTag ifModuleEnd = true)]
        rfl
      have hused := parseLines_pendingConds sys pool nested_initial (Option.some_ne_none _).symm
        hA.conds (.inl rfl) halone
      have hdirectives : directivesOf sys pool A = inScope [] us := by
        rw [directivesOf, hfile, ha]
        rfl
      refine ⟨_, hrun, parseLines_nested sys pool hst hrun, hdepth, ?_, ?_⟩
      · rw [ha] at hused
        exact hused
      · rw [hdirectives, ← hscope]
        rfl

theorem htaccessParse_ifModulePair {name A B : NgxStr} (hname : ch '>' ∉ name)
    (hA : DirectiveList sys pool A) (hB : DirectiveList sys pool B) :
    htaccessParse sys pool (ifModulePair name A B) =
      some { directives := directivesOf sys pool A ++ directivesOf sys pool B, pool } := by
  have hnegated : ch '>' ∉ ch '!' :: name := fun hmem =>
    (List.mem_cons.mp hmem).elim (by decide) hname
  have hempty : lexedText [] = ([], true) := rfl
  have hsecond := lexedText_ifModuleBlock hnegated hB.ends hB.whole []
  rw [hempty, List.append_nil, List.append_nil] at hsecond
  obtain ⟨mid, hfirst, hmid, hdepth, hpending, hdirectives⟩ :=
    @parseLines_ifModule sys pool name A hA .initial nested_initial rfl rfl
  obtain ⟨last, hlast, -, -, -, hdirectives'⟩ :=
    @parseLines_ifModule sys pool (ch '!' :: name) B hB mid hmid hdepth hpending
  rw [htaccessParse_lexed, ifModulePair, lexedText_ifModuleBlock hname hA.ends hA.whole, hsecond,
    if_pos rfl, parseLines_append, hfirst, Option.bind_some, hlast, Option.map_some, hdirectives',
    hdirectives]
  rfl

end

theorem directivesOf_eq_nil_iff {sys : Sys} {pool : PoolId} {A : NgxStr}
    (hA : DirectiveList sys pool A) : directivesOf sys pool A = [] ↔ (lexedText A).1 = [] := by
  obtain ⟨file, hfile⟩ := hA.accepted
  have hparse := hfile
  rw [htaccessParse_lexed, if_pos hA.whole] at hparse
  obtain ⟨st, hst, rfl⟩ := Option.map_eq_some_iff.mp hparse
  have hdirectives : directivesOf sys pool A = st.directives := by
    rw [directivesOf, hfile]
    rfl
  have hcount := parseLines_count sys pool nested_initial hA.named hst
  have hinitial : ParserState.initial.directives.length = 0 := rfl
  rw [hinitial, Nat.zero_add] at hcount
  rw [hdirectives, ← List.length_eq_zero_iff, hcount]
  constructor
  · intro hnone
    cases hlines : (lexedText A).1 with
    | nil => rfl
    | cons line lines =>
        have hconds := hA.conds
        rw [hlines, List.countP_eq_zero] at hnone
        rw [hlines] at hconds
        -- a condition has its rule behind it
        have hline := hnone line List.mem_cons_self
        obtain ⟨rule, hrule, hid⟩ := hconds.1 (by simpa using hline)
        have hcond : lineId rule = some .rewriteCond := by
          simpa using hnone rule (List.mem_cons_of_mem _ hrule)
        rw [hid] at hcond
        cases hcond
  · intro hlines
    rw [hlines]
    rfl

/-- Exactly one of the two blocks is active. -/
def OneBranch (sys : Sys) (pool : PoolId) (name A B : NgxStr) : Prop :=
  ∃ file, htaccessParse sys pool (ifModulePair name A B) = some file ∧
    (file.directives = directivesOf sys pool A ∨ file.directives = directivesOf sys pool B)

/-- One branch alone is active exactly if the other one is empty. -/
theorem oneBranch_iff (sys : Sys) (pool : PoolId) {name A B : NgxStr} (hname : ch '>' ∉ name)
    (hA : DirectiveList sys pool A) (hB : DirectiveList sys pool B) :
    OneBranch sys pool name A B ↔ (lexedText A).1 = [] ∨ (lexedText B).1 = [] := by
  rw [OneBranch, htaccessParse_ifModulePair hname hA hB, ← directivesOf_eq_nil_iff hA,
    ← directivesOf_eq_nil_iff hB]
  constructor
  · rintro ⟨file, hfile, hone⟩
    cases hfile
    rcases hone with hone | hone
    · exact .inr (List.append_right_eq_self.mp hone)
    · exact .inl (List.append_left_eq_self.mp hone)
  · rintro (hnone | hnone)
    · refine ⟨_, rfl, .inr ?_⟩
      rw [hnone, List.nil_append]
    · refine ⟨_, rfl, .inl ?_⟩
      rw [hnone, List.append_nil]

theorem directiveList_granted :
    DirectiveList (siteSys (siteFs 0 [])) 0 (lit "Require all granted\n") where
  ends _ := ⟨lit "Require all granted", ch '\n', by decide, rfl, by decide⟩
  whole := by decide +kernel
  named line hline := by
    have hlines : (lexedText (lit "Require all granted\n")).1 =
        [[lit "Require", lit "all", lit "granted"]] := by
      decide +kernel
    rw [hlines, List.mem_singleton] at hline
    exact ⟨.require, by rw [hline]; decide⟩
  conds := by decide +kernel
  accepted := Option.isSome_iff_exists.mp (by decide +kernel)

def guardedLines : NgxStr :=
  lit "Require all granted\nRewriteCond %{HTTP:A} 1\nRewriteRule old /new\n"

theorem directiveList_guarded : DirectiveList (siteSys (siteFs 0 [])) 0 guardedLines where
  ends _ := ⟨guardedLines.dropLast, ch '\n', by decide, by decide, by decide⟩
  whole := by decide +kernel
  named := by
    have hnamed : ∀ line ∈ (lexedText guardedLines).1, (lineId line).isSome = true := by
      decide +kernel
    exact fun line hline => Option.isSome_iff_exists.mp (hnamed line hline)
  conds := by decide +kernel
  accepted := Option.isSome_iff_exists.mp (by decide +kernel)

theorem directiveList_comment : DirectiveList (siteSys (siteFs 0 [])) 0 (lit "# none\n") where
  ends _ := ⟨lit "# none", ch '\n', by decide, rfl, by decide⟩
  whole := by decide +kernel
  named := by
    have hlines : (lexedText (lit "# none\n")).1 = [] := by decide +kernel
    rw [hlines]
    exact fun _ hline => nomatch hline
  conds := by decide +kernel
  accepted := Option.isSome_iff_exists.mp (by decide +kernel)

theorem guarded_alone :
    OneBranch (siteSys (siteFs 0 [])) 0 (lit "mod_authz_core.c") guardedLines (lit "# none\n") :=
  (oneBranch_iff (siteSys (siteFs 0 [])) 0 (by decide) directiveList_guarded
    directiveList_comment).mpr (.inr (by decide +kernel))

/-- Both branches are active at once. -/
theorem both_branches_active :
    DirectiveList (siteSys (siteFs 0 [])) 0 (lit "Require all granted\n") ∧
      ¬ OneBranch (siteSys (siteFs 0 [])) 0 (lit "mod_authz_core.c") (lit "Require all granted\n")
        (lit "Require all granted\n") := by
  refine ⟨directiveList_granted, ?_⟩
  rintro ⟨file, hfile, hone⟩
  have hboth : (htaccessParse (siteSys (siteFs 0 [])) 0 (ifModulePair (lit "mod_authz_core.c")
      (lit "Require all granted\n") (lit "Require all granted\n"))).map (·.directives.length) =
        some 2 := by
    decide +kernel
  have hbranch : (directivesOf (siteSys (siteFs 0 [])) 0 (lit "Require all granted\n")).length =
      1 := by
    decide +kernel
  rw [hfile, Option.map_some, Option.some.injEq] at hboth
  rw [or_self] at hone
  rw [hone, hbranch] at hboth
  cases hboth

end NgxHtaccess
