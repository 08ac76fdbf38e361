import NgxHtaccess.Vars
import NgxHtaccess.Lib.BoundedBuffer

/-!
A template as the pieces that `htaccess_expand` finds in it. The expansion is the text of
the pieces one after the other, as long as it fits into the buffer, whose size depends on
the template alone.
-/
namespace NgxHtaccess
open BoundedBuffer

/-- What a template is made of: a byte that stands for itself, `$d` and `%{name}`. -/
inductive Piece where
  | byte (c : UInt8)
  | capture (d : Nat)
  | named (name : NgxStr)
  deriving DecidableEq

def Piece.text (sys : Sys) (r : Request) (state : RequestState) (m : Option MatchCtx) :
    Piece → NgxStr
  | .byte c => [c]
  | .capture d => captureRef sys m d
  | .named name => (expandVariable r state name).getD []

/-- The first piece of the template `c :: p` and what is behind it, unless a `%{` is open. -/
def templateHead (c : UInt8) : NgxStr → Option (Piece × NgxStr)
  | [] => some (.byte c, [])
  | d :: p =>
      if c = ch '\\' then some (.byte d, p)
      else if c = ch '$' ∧ isDigit d then some (.capture (d - ch '0').toNat, p)
      else if c = ch '%' ∧ d = ch '{' then
        (ngxStrlchr p (ch '}')).map fun parts => (.named parts.1, parts.2)
      else some (.byte c, d :: p)

/-- The pieces up to the end, or up to a `%{` that is not closed, and whether it is the end. -/
def templateScan : Nat → NgxStr → List Piece × Bool
  | 0, _ => ([], true)
  | _ + 1, [] => ([], true)
  | fuel + 1, c :: p =>
      match templateHead c p with
      | none => ([], false)
      | some (piece, p) => ((templateScan fuel p).1.cons piece, (templateScan fuel p).2)

def templatePieces (tpl : NgxStr) : List Piece := (templateScan tpl.length tpl).1

def templateClosed (tpl : NgxStr) : Bool := (templateScan tpl.length tpl).2

def piecesText (sys : Sys) (r : Request) (state : RequestState) (m : Option MatchCtx)
    (ps : List Piece) : NgxStr :=
  ps.flatMap (Piece.text sys r state m)

/-- The size of the buffer for a template. -/
def expandLimit (tpl : NgxStr) : Nat := tpl.length * 4 + 256

theorem templateHead_suffix {c : UInt8} {p rest : NgxStr} {piece : Piece}
    (h : templateHead c p = some (piece, rest)) : rest <:+ p := by
  unfold templateHead at h
  split at h
  · cases h
    exact List.suffix_refl []
  · rename_i d p
    split at h
    · cases h
      exact List.suffix_cons d rest
    split at h
    · cases h
      exact List.suffix_cons d rest
    split at h
    · obtain ⟨parts, hname, heq⟩ := Option.map_eq_some_iff.mp h
      cases heq
      rw [(ngxStrlchr_eq_some hname).1]
      exact ⟨d :: (parts.1 ++ [ch '}']), by simp⟩
    · cases h
      exact List.suffix_refl _

theorem templateHead_byte {c b : UInt8} {p rest : NgxStr}
    (h : templateHead c p = some (.byte b, rest)) : b ∈ c :: p := by
  unfold templateHead at h
  split at h
  · cases h
    exact List.mem_cons_self
  · split_ifs at h
    · cases h
      exact List.mem_cons_of_mem _ List.mem_cons_self
    · cases h
    · obtain ⟨_, _, hpiece⟩ := Option.map_eq_some_iff.mp h
      cases hpiece
    · cases h
      exact List.mem_cons_self

theorem templateScan_byte {fuel : Nat} {tpl : NgxStr} {b : UInt8}
    (h : Piece.byte b ∈ (templateScan fuel tpl).1) : b ∈ tpl := by
  induction fuel generalizing tpl with
  | zero => cases h
  | succ fuel ih =>
      cases tpl with
      | nil => cases h
      | cons c p =>
          rw [templateScan] at h
          cases hhead : templateHead c p with
          | none =>
              rw [hhead] at h
              cases h
          | some head =>
              obtain ⟨piece, rest⟩ := head
              rw [hhead] at h
              rcases List.mem_cons.mp h with rfl | h
              · exact templateHead_byte hhead
              · exact List.mem_cons_of_mem c ((templateHead_suffix hhead).subset (ih h))

section Expand
variable (sys : Sys) (r : Request) (state : RequestState) (m : Option MatchCtx)

theorem htaccessExpandLoop_cons {limit : Nat} (fuel : Nat) (c : UInt8) (p : NgxStr)
    {dst : NgxStr} (h : dst.length ≤ limit) :
    htaccessExpandLoop sys r state m limit (fuel + 1) (c :: p) dst =
      (templateHead c p).bind fun head =>
        (put limit dst (head.1.text sys r state m)).bind
          (htaccessExpandLoop sys r state m limit fuel head.2) := by
  cases p with
  | nil => rfl
  | cons d p =>
      rw [htaccessExpandLoop, templateHead]
      by_cases hescape : c = ch '\\'
      · rw [if_pos hescape, if_pos hescape]
        rfl
      rw [if_neg hescape, if_neg hescape]
      by_cases hcapture : c = ch '$' ∧ isDigit d = true
      · rw [if_pos hcapture, if_pos hcapture]
        rfl
      rw [if_neg hcapture, if_neg hcapture]
      by_cases hvariable : c = ch '%' ∧ d = ch '{'
      · rw [if_pos hvariable, if_pos hvariable]
        cases ngxStrlchr p (ch '}') with
        | none => rfl
        | some parts =>
            simp only [Option.map_some, Option.bind_some, Piece.text]
            cases expandVariable r state parts.1 with
            | none => rw [Option.getD_none, put_nil h, Option.bind_some]
            | some value => rfl
      rw [if_neg hvariable, if_neg hvariable]
      rfl

/-- The loop writes the texts of the pieces, and fails at the end if a `%{` is open. -/
theorem htaccessExpandLoop_eq (limit fuel : Nat) (tpl : NgxStr) {dst : NgxStr}
    (h : dst.length ≤ limit) :
    htaccessExpandLoop sys r state m limit fuel tpl dst =
      if (templateScan fuel tpl).2 then
        putAll limit dst ((templateScan fuel tpl).1.map (Piece.text sys r state m))
      else none := by
  induction fuel generalizing tpl dst with
  | zero => rfl
  | succ fuel ih =>
      cases tpl with
      | nil => rfl
      | cons c p =>
          rw [htaccessExpandLoop_cons sys r state m fuel c p h, templateScan]
          cases templateHead c p with
          | none => rfl
          | some head =>
              obtain ⟨piece, rest⟩ := head
              simp only [Option.bind_some, List.map_cons, putAll]
              cases hput : put limit dst (piece.text sys r state m) with
              | none => simp only [Option.bind_none, ite_self]
              | some dst' =>
                  obtain ⟨hfits, rfl⟩ := put_eq_some.mp hput
                  have hdst : (dst ++ piece.text sys r state m).length ≤ limit := by
                    rw [List.length_append]
                    exact hfits
                  exact ih rest hdst

/-- The expansion is the text of the whole template, when it is closed and the text fits. -/
theorem htaccessExpand_eq (tpl : NgxStr) :
    htaccessExpand sys r state tpl m =
      if templateClosed tpl = true ∧
          (piecesText sys r state m (templatePieces tpl)).length ≤ expandLimit tpl then
        some (piecesText sys r state m (templatePieces tpl))
      else none := by
  have hnil : ([] : NgxStr).length ≤ expandLimit tpl := Nat.zero_le _
  have hloop := htaccessExpandLoop_eq sys r state m (expandLimit tpl) tpl.length tpl hnil
  rw [putAll_eq (Nat.zero_le _), List.nil_append, ← List.flatMap_def] at hloop
  rw [ite_and]
  exact hloop

end Expand

theorem htaccessExpand_eq_some {sys : Sys} {r : Request} {state : RequestState} {tpl out : NgxStr}
    {m : Option MatchCtx} (h : htaccessExpand sys r state tpl m = some out) :
    out = piecesText sys r state m (templatePieces tpl) := by
  rw [htaccessExpand_eq] at h
  split at h
  · exact (Option.some.inj h).symm
  · cases h

end NgxHtaccess
