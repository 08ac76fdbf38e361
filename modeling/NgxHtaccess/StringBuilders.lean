import Mathlib.Algebra.GroupWithZero.Nat
import Mathlib.Data.List.Forall2
import Mathlib.Data.List.GetD
import NgxHtaccess.Site
import NgxHtaccess.Lib.Filling
import NgxHtaccess.Lib.Outcomes

/-!
The functions that build strings, with the sizes that they allocate, the bytes that they store
and the lengths that they record. A store behind the end of an allocation, a length that goes
below zero and a read of bytes that are not there are faults; a sum of lengths that `size_t` does
not hold is one too, so that no size is ever taken modulo 2^64.
-/
namespace NgxHtaccess
open Filling Outcomes

inductive BuildFault where
  | overrun
  | belowZero
  | outside
  | sum
  deriving DecidableEq

abbrev Building (α : Type) := Except BuildFault α

def totalLen : List Nat → Nat
  | [] => 0
  | len :: lens => len + totalLen lens

@[simp] theorem totalLen_nil : totalLen [] = 0 := rfl

@[simp] theorem totalLen_cons (len : Nat) (lens : List Nat) :
    totalLen (len :: lens) = len + totalLen lens := rfl

/-- A sum of lengths as a `size_t`. -/
def sizeSum (lens : List Nat) : Building Nat :=
  if totalLen lens < UInt64.size then .ok (totalLen lens) else .error .sum

def sizeSub (a b : Nat) : Building Nat := if b ≤ a then .ok (a - b) else .error .belowZero

def readByte (s : NgxStr) (i : Nat) : Building UInt8 :=
  match s[i]? with
  | some c => .ok c
  | none => .error .outside

def readBytes (s : NgxStr) (start len : Nat) : Building NgxStr :=
  if start + len ≤ s.length then .ok ((s.drop start).take len) else .error .outside

/-- `p = ngx_cpymem(p, ...)`, and `*p++ = c` with one byte. -/
def cpymem (p : Cursor UInt8) (src : NgxStr) : Building (Cursor UInt8) :=
  match p.copy src with
  | some p => .ok p
  | none => .error .overrun

/-- A store at an offset that leaves the pointer where it is. -/
def storeAt (b : Buffer UInt8) (off : Nat) (src : NgxStr) : Building (Buffer UInt8) :=
  match b.store off src with
  | some b => .ok b
  | none => .error .overrun

/-- An `ngx_str_t`: where its data lies and the length that it records. -/
structure Built where
  buffer : Buffer UInt8
  len : Nat

namespace Built

def front (s : NgxStr) (len : Nat) : Built := ⟨.full s, len⟩

def read (b : Built) : Building NgxStr := readBytes b.buffer.written 0 b.len

/-- No more is recorded than was written, and what is recorded is the text. -/
structure Holds (b : Built) (s : NgxStr) : Prop where
  bound : b.len ≤ b.buffer.written.length
  text : b.buffer.written.take b.len = s

structure Fills (b : Built) (s : NgxStr) : Prop where
  written : b.buffer.written = s
  len : b.len = s.length

end Built

/-- `s.data[s.len - 1]` -/
def lastByte (s : NgxStr) : Building UInt8 := do
  let last ← sizeSub s.length 1
  readByte s last

/-- The slash behind a path that does not end in one: `if (s.len == 0 || ...) *p++ = '/'`. -/
def addSlash (p : Cursor UInt8) (s : NgxStr) : Building (Cursor UInt8) :=
  if s.length = 0 then cpymem p [ch '/']
  else do
    let c ← lastByte s
    if c = ch '/' then return p else cpymem p [ch '/']

/-- `htaccess_join_path`: the buffer with the path and the length of its directory part. -/
def htaccessJoinPathBytes (root suffix filename : NgxStr) : Building (Buffer UInt8 × Nat) := do
  let len ← sizeSum [root.length, suffix.length, filename.length, 3]
  let p ← cpymem (.start len) root
  let p ← addSlash p root
  let dir ← (if 0 < suffix.length then do
      let p ← cpymem p suffix
      addSlash p suffix
    else pure p)
  let p ← cpymem dir filename
  let data ← storeAt p.buffer p.pos [0]
  return (data, dir.pos)

/-- `htaccess_resolve_filename`: no string without a root. -/
def htaccessResolveFilenameBytes (root uri : NgxStr) : Building (List Built) :=
  if root.length = 0 then .ok []
  else do
    let len ← sizeSum [root.length, uri.length, 1]
    let p ← cpymem (.start len) root
    let c ← lastByte root
    let p ← (if c = ch '/' then pure p else cpymem p [ch '/'])
    let p ← (if 1 < uri.length then do
        let n ← sizeSub uri.length 1
        let s ← readBytes uri 1 n
        cpymem p s
      else pure p)
    return [⟨p.buffer, p.pos⟩]

/-- The FSPATH case of `htaccess_test_cond`, behind the expansion. -/
def fspathBytes (root expanded : NgxStr) : Building Built := do
  let len ← sizeSum [root.length, expanded.length, 2]
  let p ← cpymem (.start len) root
  let p ← addSlash p root
  let p ← cpymem p expanded
  let data ← storeAt p.buffer p.pos [0]
  return ⟨data, p.pos⟩

def htaccessApplySubstitutionBytes (substitution input base : NgxStr) : Building Built :=
  if substitution = lit "-" then .ok (.front input input.length)
  else if substitution.head? = some (ch '/') then do
    let p ← cpymem (.start substitution.length) substitution
    return ⟨p.buffer, substitution.length⟩
  else if isHttpUrl substitution || isHttpsUrl substitution then
    .ok (.front substitution substitution.length)
  else do
    let len ← sizeSum [base.length, substitution.length, 1]
    let p ← (if 0 < base.length then cpymem (.start len) base else pure (.start len))
    let p ← cpymem p substitution
    return ⟨p.buffer, p.pos⟩

/-- The split of the target at its question mark. -/
def splitBytes (target : NgxStr) : Building (Built × Built) :=
  match ngxStrlchr target (ch '?') with
  | none => .ok (.front target target.length, .front [] 0)
  | some (uri, _) => do
      let behind ← sizeSub target.length uri.length
      let len ← sizeSub behind 1
      let args ← readBytes target (uri.length + 1) len
      return (.front target uri.length, .front args len)

/-- The query string behind the arguments of the target. -/
def mergeArgsBytes (args : Built) (queryString : NgxStr) (qsa : Bool) : Building Built :=
  if qsa ∧ 0 < queryString.length then
    if 0 < args.len then do
      let len ← sizeSum [args.len, 1, queryString.length]
      let s ← args.read
      let p ← cpymem (.start len) s
      let p ← cpymem p [ch '&']
      let p ← cpymem p queryString
      return ⟨p.buffer, len⟩
    else .ok (.front queryString queryString.length)
  else .ok args

/-- The slash in front of the URI. -/
def slashedBytes (uri : Built) : Building Built :=
  if 0 < uri.len then do
    let s ← uri.read
    let c ← readByte s 0
    if c = ch '/' then return uri
    else do
      let len ← sizeSum [uri.len, 1]
      let p ← cpymem (.start len) [ch '/']
      let p ← cpymem p s
      return ⟨p.buffer, len⟩
  else .ok uri

/-- `ngx_snprintf(data, len, "%V?%V", &uri, &args)`, which stops at the size that it is given. -/
def unparsedBytes (uri args : Built) : Building Built :=
  if 0 < args.len then do
    let len ← sizeSum [uri.len, 1, args.len]
    let u ← uri.read
    let a ← args.read
    let p ← cpymem (.start len) ((u ++ ch '?' :: a).take len)
    return ⟨p.buffer, len⟩
  else .ok uri

def htaccessApplyTargetUriBytes (target queryString : NgxStr) (qsa : Bool) :
    Building (List Built) := do
  let split ← splitBytes target
  let args ← mergeArgsBytes split.2 queryString qsa
  let uri ← slashedBytes split.1
  let s ← uri.read
  let p ← cpymem (.start uri.len) s
  let copied : Built := ⟨p.buffer, uri.len⟩
  let unparsed ← unparsedBytes copied args
  return [args, uri, copied, unparsed]

/-- The loop that adds up the lengths of the arguments and their separators. -/
def argsLen : List NgxStr → Bool → Nat → Building Nat
  | [], _, len => .ok len
  | a :: args, first, len => do
      let len ← sizeSum [len, a.length, if first then 0 else 1]
      argsLen args false len

/-- The loop that copies the arguments. -/
def copyArgs : List NgxStr → Bool → Cursor UInt8 → Building (Cursor UInt8)
  | [], _, p => .ok p
  | a :: args, first, p => do
      let p ← (if first then pure p else cpymem p [ch ' '])
      let p ← cpymem p a
      copyArgs args false p

/-- `htaccess_join_args`, with no string on its error. -/
def htaccessJoinArgsBytes (args : List NgxStr) (start : Nat) : Building (List Built) :=
  if args.length ≤ start then .ok []
  else do
    let len ← argsLen (args.drop start) true 0
    let p ← copyArgs (args.drop start) true (.start len)
    return [⟨p.buffer, len⟩]

/-- `ngx_strlen`, which reads up to a zero byte. -/
def strlen (b : Buffer UInt8) : Building Nat :=
  if 0 ∈ b.written then .ok (cString b.written).length else .error .outside

/-- The loop of `htaccess_build_merged_ctx` over the indices of the URI: the suffix buffer, the
joined path, its directory part and the URL prefix of every round. -/
def suffixRounds (root uri filename : NgxStr) : List Nat → Buffer UInt8 → Building (List Built)
  | [], _ => .ok []
  | i :: indices, suffix => do
      let c ← readByte uri i
      if c ≠ ch '/' then suffixRounds root uri filename indices suffix
      else do
        let len ← sizeSub i 1
        let suffix ← (if 0 < len then do
            let s ← readBytes uri 1 len
            storeAt suffix 0 s
          else pure suffix)
        let s ← readBytes suffix.written 0 len
        let joined ← htaccessJoinPathBytes root s filename
        let path ← strlen joined.1
        let rest ← suffixRounds root uri filename indices suffix
        return ⟨suffix, len⟩ :: ⟨joined.1, path⟩ :: ⟨joined.1, joined.2⟩ :: .front uri i :: rest

def htaccessBuildMergedCtxBytes (root uri filename : NgxStr) : Building (List Built) := do
  let joined ← htaccessJoinPathBytes root [] filename
  let path ← strlen joined.1
  let rest ← suffixRounds root uri filename (List.range' 1 (uri.length - 1)) (.alloc uri.length)
  return ⟨joined.1, path⟩ :: rest

/-- What the list model puts behind a path that does not end in a slash. -/
def slashAfter (s : NgxStr) : NgxStr := if s.getLast? = some (ch '/') then [] else [ch '/']

/-- The computation gives a value with the property, or a sum was too large that is no larger than
what is needed. -/
abbrev Gives {α : Type} (needs : Nat) (x : Building α) (P : α → Prop) : Prop :=
  Yields (fun fault => fault = .sum ∧ UInt64.size ≤ needs) x P

section Steps
variable {needs : Nat}

theorem sizeSum_gives {lens : List Nat} (h : totalLen lens ≤ needs) :
    Gives needs (sizeSum lens) (· = totalLen lens) := by
  unfold sizeSum
  exact yields_ite (fun _ => rfl) fun hlarge => ⟨rfl, Nat.le_trans (Nat.not_lt.mp hlarge) h⟩

theorem sizeSub_gives {a b : Nat} (h : b ≤ a) : Gives needs (sizeSub a b) (· = a - b) := by
  rw [sizeSub, if_pos h]
  rfl

theorem readBytes_gives {s : NgxStr} {start len : Nat} (h : start + len ≤ s.length) :
    Gives needs (readBytes s start len) (· = (s.drop start).take len) := by
  rw [readBytes, if_pos h]
  rfl

theorem readByte_gives {s : NgxStr} {i : Nat} {c : UInt8} (h : s[i]? = some c) :
    Gives needs (readByte s i) (· = c) := by
  rw [readByte, h]
  rfl

theorem cpymem_gives {p : Cursor UInt8} {size : Nat} {s src : NgxStr} (h : p.Behind size s)
    (hroom : (s ++ src).length ≤ size) : Gives needs (cpymem p src) (·.Behind size (s ++ src)) := by
  obtain ⟨q, hcopy, hq⟩ := h.copy hroom
  rw [cpymem, hcopy]
  exact hq

theorem storeAt_gives {p : Cursor UInt8} {size : Nat} {s src : NgxStr} (h : p.Behind size s)
    (hroom : (s ++ src).length ≤ size) :
    Gives needs (storeAt p.buffer p.pos src) fun b => b.size = size ∧ b.written = s ++ src := by
  obtain ⟨q, hcopy, hq⟩ := h.copy hroom
  rw [Cursor.copy] at hcopy
  obtain ⟨b, hstore, rfl⟩ := Option.map_eq_some_iff.mp hcopy
  rw [storeAt, hstore]
  exact ⟨hq.size, hq.written⟩

theorem lastByte_gives {s : NgxStr} (h : 0 < s.length) :
    Gives needs (lastByte s) fun c => s.getLast? = some c := by
  refine (sizeSub_gives h).bind fun last hlast => ?_
  subst hlast
  have hlt : s.length - 1 < s.length := Nat.sub_lt h Nat.one_pos
  refine (readByte_gives (List.getElem?_eq_getElem hlt)).mono fun c hc => ?_
  rw [hc, List.getLast?_eq_getElem?, List.getElem?_eq_getElem hlt]

theorem slashAfter_length (s : NgxStr) : (slashAfter s).length ≤ 1 := by
  unfold slashAfter
  split
  · exact Nat.zero_le 1
  · exact Nat.le_refl 1

theorem slashAfter_of_last {s : NgxStr} {c : UInt8} (h : s.getLast? = some c) :
    slashAfter s = if c = ch '/' then [] else [ch '/'] := by
  unfold slashAfter
  simp only [h, Option.some_inj]

theorem addSlash_gives {p : Cursor UInt8} {size : Nat} {s t : NgxStr} (h : p.Behind size s)
    (hroom : s.length + 1 ≤ size) :
    Gives needs (addSlash p t) (·.Behind size (s ++ slashAfter t)) := by
  have hslash : (s ++ [ch '/']).length ≤ size := by rwa [List.length_append]
  unfold addSlash
  refine yields_ite (fun hempty => ?_) fun hne => ?_
  · rw [List.length_eq_zero_iff.mp hempty]
    exact cpymem_gives h hslash
  · refine (lastByte_gives (Nat.pos_of_ne_zero hne)).bind fun c hc => ?_
    rw [slashAfter_of_last hc]
    refine yields_ite (fun hc => ?_) fun hc => ?_
    · rw [if_pos hc, List.append_nil]
      exact h
    · rw [if_neg hc]
      exact cpymem_gives h hslash

end Steps

section Strings
variable {needs : Nat}

theorem Built.Fills.holds {b : Built} {s : NgxStr} (h : b.Fills s) : b.Holds s where
  bound := by rw [h.len, h.written]
  text := by rw [h.len, h.written, List.take_length]

theorem Built.fills_behind {p : Cursor UInt8} {size : Nat} {s : NgxStr} (h : p.Behind size s) :
    (⟨p.buffer, p.pos⟩ : Built).Fills s := ⟨h.written, h.pos⟩

theorem Built.holds_behind {p : Cursor UInt8} {size : Nat} {s : NgxStr} (h : p.Behind size s) :
    (⟨p.buffer, s.length⟩ : Built).Holds s := Built.Fills.holds ⟨h.written, rfl⟩

theorem Built.holds_front {s : NgxStr} {len : Nat} (h : len ≤ s.length) :
    (Built.front s len).Holds (s.take len) := ⟨h, rfl⟩

theorem Built.holds_whole (s : NgxStr) : (Built.front s s.length).Holds s :=
  ⟨Nat.le_refl _, List.take_length⟩

theorem Built.Holds.length {b : Built} {s : NgxStr} (h : b.Holds s) : b.len = s.length := by
  rw [← h.text, List.length_take, Nat.min_eq_left h.bound]

theorem Built.Holds.read {b : Built} {s : NgxStr} (h : b.Holds s) : Gives needs b.read (· = s) := by
  have hread : 0 + b.len ≤ b.buffer.written.length := by
    rw [Nat.zero_add]
    exact h.bound
  refine (readBytes_gives hread).mono fun t ht => ?_
  rw [ht, List.drop_zero, h.text]

theorem htaccessJoinPathBytes_gives {root suffix filename : NgxStr}
    (hneeds : totalLen [root.length, suffix.length, filename.length, 3] ≤ needs) :
    Gives needs (htaccessJoinPathBytes root suffix filename) fun joined =>
      joined.1.written = (htaccessJoinPath root suffix filename).1 ++ [0] ∧
        joined.2 = (htaccessJoinPath root suffix filename).2 := by
  have hroot := slashAfter_length root
  have hsuffix := slashAfter_length suffix
  refine (sizeSum_gives hneeds).bind fun size hsize => ?_
  simp only [totalLen_cons, totalLen_nil] at hsize
  refine (cpymem_gives (Cursor.behind_start size) (by simp; omega)).bind fun p hp => ?_
  refine (addSlash_gives hp (by simp; omega)).bind fun p hp => ?_
  rw [List.nil_append] at hp
  have hdir : Gives needs (if 0 < suffix.length then do
        let p ← cpymem p suffix
        addSlash p suffix
      else pure p)
      (·.Behind size (root ++ slashAfter root ++
        if suffix = [] then [] else suffix ++ slashAfter suffix)) := by
    refine yields_ite (fun hpos => ?_) fun hzero => ?_
    · rw [if_neg (List.ne_nil_of_length_pos hpos), ← List.append_assoc]
      refine (cpymem_gives hp (by simp; omega)).bind fun p hp => ?_
      exact addSlash_gives hp (by simp; omega)
    · have hnil : suffix = [] := List.length_eq_zero_iff.mp (Nat.eq_zero_of_not_pos hzero)
      rw [if_pos hnil, List.append_nil]
      exact hp
  have hlen : (root ++ slashAfter root ++
      if suffix = [] then [] else suffix ++ slashAfter suffix).length ≤
        root.length + suffix.length + 2 := by
    split
    · simp
      omega
    · simp
      omega
  refine hdir.bind fun dir hdir => ?_
  refine (cpymem_gives hdir (by rw [List.length_append]; omega)).bind fun p hp => ?_
  refine (storeAt_gives hp ?_).bind fun data hdata => ⟨hdata.2, hdir.pos⟩
  rw [List.length_append, List.length_append, List.length_singleton]
  omega

theorem htaccessResolveFilenameBytes_gives {conf : LocConf} {state : RequestState}
    (hneeds : totalLen [conf.root.length, state.uri.length, 1] ≤ needs) :
    Gives needs (htaccessResolveFilenameBytes conf.root state.uri) fun outs =>
      List.Forall₂ Built.Fills outs
        (if conf.root = [] then [] else [(htaccessResolveFilename conf state).filename]) := by
  unfold htaccessResolveFilenameBytes
  refine yields_ite (fun hempty => ?_) fun hne => ?_
  · rw [if_pos (List.length_eq_zero_iff.mp hempty)]
    exact .nil
  have hroot : conf.root ≠ [] := fun h => hne (congrArg List.length h)
  have hslash := slashAfter_length conf.root
  rw [if_neg hroot, htaccessResolveFilename, if_neg hroot, ← slashAfter]
  refine (sizeSum_gives hneeds).bind fun size hsize => ?_
  simp only [totalLen_cons, totalLen_nil] at hsize
  refine (cpymem_gives (Cursor.behind_start size) (by simp; omega)).bind fun p hp => ?_
  refine (lastByte_gives (Nat.pos_of_ne_zero hne)).bind fun c hc => ?_
  have hdir : Gives needs (if c = ch '/' then pure p else cpymem p [ch '/'])
      (·.Behind size (conf.root ++ slashAfter conf.root)) := by
    rw [slashAfter_of_last hc]
    refine yields_ite (fun hc => ?_) fun hc => ?_
    · rw [if_pos hc, List.append_nil]
      exact hp
    · rw [if_neg hc]
      exact cpymem_gives hp (by simp; omega)
  refine hdir.bind fun p hp => ?_
  have hrest : Gives needs (if 1 < state.uri.length then do
        let n ← sizeSub state.uri.length 1
        let s ← readBytes state.uri 1 n
        cpymem p s
      else pure p)
      (·.Behind size (conf.root ++ slashAfter conf.root ++ state.uri.drop 1)) := by
    refine yields_ite (fun hlong => ?_) fun hshort => ?_
    · refine (sizeSub_gives (Nat.le_of_lt hlong)).bind fun n hn => ?_
      refine (readBytes_gives (by omega)).bind fun s hs => ?_
      have hall : (state.uri.drop 1).take n = state.uri.drop 1 :=
        List.take_of_length_le (by rw [List.length_drop]; omega)
      rw [hs, hall]
      refine cpymem_gives hp ?_
      simp only [List.length_append, List.length_drop]
      omega
    · rw [List.drop_of_length_le (by omega), List.append_nil]
      exact hp
  exact hrest.bind fun p hp => .cons (Built.fills_behind hp) .nil

theorem fspathBytes_gives {root expanded : NgxStr}
    (hneeds : totalLen [root.length, expanded.length, 2] ≤ needs) :
    Gives needs (fspathBytes root expanded) fun path =>
      path.buffer.written = root ++ slashAfter root ++ expanded ++ [0] ∧
        path.Holds (root ++ slashAfter root ++ expanded) := by
  have hslash := slashAfter_length root
  refine (sizeSum_gives hneeds).bind fun size hsize => ?_
  simp only [totalLen_cons, totalLen_nil] at hsize
  refine (cpymem_gives (Cursor.behind_start size) (by simp; omega)).bind fun p hp => ?_
  refine (addSlash_gives hp (by simp; omega)).bind fun p hp => ?_
  rw [List.nil_append] at hp
  refine (cpymem_gives hp (by simp; omega)).bind fun p hp => ?_
  refine (storeAt_gives hp (by simp; omega)).bind fun data hdata => ?_
  refine ⟨hdata.2, ?_, ?_⟩
  · simp only [hdata.2, hp.pos, List.length_append]
    exact Nat.le_add_right _ _
  · simp only [hdata.2, hp.pos, List.take_left]

theorem htaccessApplySubstitutionBytes_gives {rule : RewriteRule} {base : NgxStr}
    (hneeds : totalLen [base.length, rule.substitution.length, 1] ≤ needs) (input : NgxStr) :
    Gives needs (htaccessApplySubstitutionBytes rule.substitution input base)
      (·.Holds (htaccessApplySubstitution rule input base)) := by
  unfold htaccessApplySubstitutionBytes htaccessApplySubstitution
  split
  · exact Built.holds_whole input
  split
  · refine (cpymem_gives (Cursor.behind_start _) (by simp)).bind fun p hp => ?_
    rw [List.nil_append] at hp
    exact Built.holds_behind hp
  split
  · exact Built.holds_whole rule.substitution
  refine (sizeSum_gives hneeds).bind fun size hsize => ?_
  simp only [totalLen_cons, totalLen_nil] at hsize
  have hbase : Gives needs
      (if 0 < base.length then cpymem (.start size) base else pure (.start size))
      (·.Behind size base) := by
    refine yields_ite (fun _ => ?_) fun hzero => ?_
    · exact cpymem_gives (Cursor.behind_start size) (by simp; omega)
    · rw [List.length_eq_zero_iff.mp (Nat.eq_zero_of_not_pos hzero)]
      exact Cursor.behind_start size
  refine hbase.bind fun p hp => ?_
  exact (cpymem_gives hp (by simp; omega)).bind fun p hp => (Built.fills_behind hp).holds

theorem argsLen_gives {args : List NgxStr} {len : Nat}
    (hneeds : len + totalLen (args.map (·.length + 1)) ≤ needs) :
    Gives needs (argsLen args false len) (· = len + totalLen (args.map (·.length + 1))) := by
  induction args generalizing len with
  | nil => rfl
  | cons a args ih =>
      rw [List.map_cons, totalLen_cons] at hneeds ⊢
      refine (sizeSum_gives ?_).bind fun size hsize => ?_
      · simp only [totalLen_cons, totalLen_nil, Bool.false_eq_true, if_false]
        omega
      · simp only [totalLen_cons, totalLen_nil, Bool.false_eq_true, if_false] at hsize
        refine (ih (by omega)).mono fun total htotal => ?_
        omega

def argsTail (args : List NgxStr) : NgxStr := args.flatMap (ch ' ' :: ·)

theorem argsTail_length (args : List NgxStr) :
    (argsTail args).length = totalLen (args.map (·.length + 1)) := by
  induction args with
  | nil => rfl
  | cons a args ih =>
      rw [argsTail, List.flatMap_cons, List.length_append, ← argsTail, ih]
      simp

theorem intercalate_cons (a : NgxStr) (args : List NgxStr) :
    (lit " ").intercalate (a :: args) = a ++ argsTail args := by
  induction args generalizing a with
  | nil => simp [argsTail]
  | cons b args ih =>
      rw [List.intercalate_cons_cons, ih, argsTail, argsTail, List.flatMap_cons, List.append_assoc]
      rfl

theorem copyArgs_gives {p : Cursor UInt8} {size : Nat} {s : NgxStr} (h : p.Behind size s)
    {args : List NgxStr} (hroom : (s ++ argsTail args).length ≤ size) :
    Gives needs (copyArgs args false p) (·.Behind size (s ++ argsTail args)) := by
  induction args generalizing p s with
  | nil =>
      rw [argsTail, List.flatMap_nil, List.append_nil]
      exact h
  | cons a args ih =>
      have hsplit : s ++ argsTail (a :: args) = s ++ [ch ' '] ++ a ++ argsTail args := by
        simp [argsTail]
      rw [hsplit] at hroom ⊢
      simp only [List.length_append, List.length_singleton] at hroom
      refine (cpymem_gives h (by simp; omega)).bind fun p hp => ?_
      refine (cpymem_gives hp (by simp; omega)).bind fun p hp => ?_
      exact ih hp (by simp; omega)

theorem htaccessJoinArgsBytes_gives {args : List NgxStr} {start : Nat}
    (hneeds : totalLen ((args.drop start).map (·.length + 1)) ≤ needs) :
    Gives needs (htaccessJoinArgsBytes args start) fun outs =>
      List.Forall₂ Built.Holds outs (htaccessJoinArgs args start).toList := by
  unfold htaccessJoinArgsBytes htaccessJoinArgs
  split
  · exact .nil
  rename_i hlong
  obtain ⟨a, rest, hargs⟩ : ∃ a rest, args.drop start = a :: rest :=
    ⟨_, _, List.drop_eq_getElem_cons (Nat.not_le.mp hlong)⟩
  rw [hargs, List.map_cons, totalLen_cons] at hneeds
  rw [hargs, intercalate_cons]
  have hlen : Gives needs (argsLen (a :: rest) true 0) (· = (a ++ argsTail rest).length) := by
    have hfirst : totalLen [0, a.length, if true then 0 else 1] = a.length := by simp
    refine (sizeSum_gives (by omega)).bind fun size hsize => ?_
    rw [hfirst] at hsize
    refine (argsLen_gives (by omega)).mono fun n hn => ?_
    rw [hn, hsize, List.length_append, argsTail_length]
  refine hlen.bind fun len hlen => ?_
  subst hlen
  have hcopy : Gives needs (copyArgs (a :: rest) true (.start (a ++ argsTail rest).length))
      (·.Behind (a ++ argsTail rest).length (a ++ argsTail rest)) := by
    refine (cpymem_gives (Cursor.behind_start _) (by simp)).bind fun p hp => ?_
    exact copyArgs_gives hp (Nat.le_refl _)
  exact hcopy.bind fun p hp => .cons (Built.holds_behind hp) .nil

theorem splitBytes_gives (target : NgxStr) :
    Gives needs (splitBytes target) fun split =>
      split.1.Holds ((ngxStrlchr target (ch '?')).getD (target, [])).1 ∧
        split.2.Holds ((ngxStrlchr target (ch '?')).getD (target, [])).2 := by
  unfold splitBytes
  cases hfind : ngxStrlchr target (ch '?') with
  | none => exact ⟨Built.holds_whole target, Built.holds_whole []⟩
  | some parts =>
      obtain ⟨uri, args⟩ := parts
      obtain ⟨rfl, -⟩ := ngxStrlchr_eq_some hfind
      have hlen : (uri ++ ch '?' :: args).length = uri.length + 1 + args.length := by
        simp
        omega
      refine (sizeSub_gives (by omega)).bind fun behind hbehind => ?_
      refine (sizeSub_gives (by omega)).bind fun len hlen' => ?_
      refine (readBytes_gives (by omega)).bind fun s hs => ⟨?_, ?_⟩
      · have huri := @Built.holds_front (uri ++ ch '?' :: args) uri.length (by omega)
        rwa [List.take_left] at huri
      · have hargs : s = args := by
          have hdrop : (uri ++ ch '?' :: args).drop (uri.length + 1) = args := by
            rw [← List.drop_drop, List.drop_left]
            rfl
          rw [hs, hdrop, List.take_of_length_le (by omega)]
        have hsame : len = args.length := by omega
        rw [hargs, hsame]
        exact Built.holds_whole args

theorem mergeArgsBytes_gives {args : Built} {a queryString : NgxStr} (h : args.Holds a)
    (hneeds : totalLen [a.length, 1, queryString.length] ≤ needs) (qsa : Bool) :
    Gives needs (mergeArgsBytes args queryString qsa)
      (·.Holds (if qsa ∧ queryString ≠ [] then
        if a ≠ [] then a ++ ch '&' :: queryString else queryString else a)) := by
  unfold mergeArgsBytes
  rw [h.length]
  simp only [List.length_pos_iff]
  split
  · refine yields_ite (fun hne => ?_) fun hempty => ?_
    · rw [if_pos hne]
      refine (sizeSum_gives hneeds).bind fun size hsize => ?_
      refine h.read.bind fun s hs => ?_
      subst hs
      have hlen : size = (s ++ ch '&' :: queryString).length := by
        rw [hsize]
        simp
        omega
      rw [hlen]
      refine (cpymem_gives (Cursor.behind_start _) (by simp)).bind fun p hp => ?_
      refine (cpymem_gives hp (by simp)).bind fun p hp => ?_
      refine (cpymem_gives hp (by simp)).bind fun p hp => ?_
      rw [List.nil_append, List.append_assoc] at hp
      exact Built.holds_behind hp
    · rw [if_neg hempty]
      exact Built.holds_whole queryString
  · exact h

theorem slashedBytes_gives {uri : Built} {u : NgxStr} (h : uri.Holds u)
    (hneeds : totalLen [u.length, 1] ≤ needs) :
    Gives needs (slashedBytes uri)
      (·.Holds (if u ≠ [] ∧ u.head? ≠ some (ch '/') then ch '/' :: u else u)) := by
  unfold slashedBytes
  rw [h.length]
  cases u with
  | nil => exact h
  | cons c u =>
      rw [if_pos (by simp : 0 < (c :: u).length)]
      refine h.read.bind fun s hs => ?_
      subst hs
      refine (readByte_gives (rfl : (c :: u)[0]? = some c)).bind fun d hd => ?_
      subst hd
      refine yields_ite (fun hslash => ?_) fun hother => ?_
      · simp only [hslash, List.head?_cons, ne_eq, not_true_eq_false, and_false, if_false]
        exact hslash ▸ h
      · have hfirst : d :: u ≠ [] ∧ (d :: u).head? ≠ some (ch '/') :=
          ⟨List.cons_ne_nil _ _, fun hhead => hother (Option.some_inj.mp hhead)⟩
        rw [if_pos hfirst]
        refine (sizeSum_gives hneeds).bind fun size hsize => ?_
        have hlen : size = (ch '/' :: d :: u).length := by
          rw [hsize]
          simp
        rw [hlen]
        refine (cpymem_gives (Cursor.behind_start _) (by simp)).bind fun p hp => ?_
        refine (cpymem_gives hp (Nat.le_refl _)).bind fun p hp => ?_
        exact Built.holds_behind hp

theorem unparsedBytes_gives {uri args : Built} {u a : NgxStr} (hu : uri.Holds u)
    (ha : args.Holds a) (hneeds : totalLen [u.length, 1, a.length] ≤ needs) :
    Gives needs (unparsedBytes uri args) (·.Holds (unparsedOf u a)) := by
  unfold unparsedBytes unparsedOf
  rw [hu.length, ha.length]
  refine yields_ite (fun hpos => ?_) fun hzero => ?_
  · rw [if_neg (List.ne_nil_of_length_pos hpos)]
    refine (sizeSum_gives hneeds).bind fun size hsize => ?_
    refine hu.read.bind fun s hs => ?_
    refine ha.read.bind fun t ht => ?_
    subst hs ht
    have hlen : size = (s ++ ch '?' :: t).length := by
      rw [hsize]
      simp
      omega
    rw [hlen, List.take_length]
    refine (cpymem_gives (Cursor.behind_start _) (Nat.le_refl _)).bind fun p hp => ?_
    exact Built.holds_behind hp
  · rw [if_pos (List.length_eq_zero_iff.mp (Nat.eq_zero_of_not_pos hzero))]
    exact hu

/-- The strings that the target leaves: the arguments, the URI, its copy in the request and the
unparsed URI. -/
def targetStrings (r : Request) : List NgxStr := [r.args, r.uri, r.uri, r.unparsedUri]

theorem length_split_le (target : NgxStr) :
    ((ngxStrlchr target (ch '?')).getD (target, [])).1.length +
      ((ngxStrlchr target (ch '?')).getD (target, [])).2.length ≤ target.length := by
  cases hfind : ngxStrlchr target (ch '?') with
  | none => exact Nat.le_refl _
  | some parts =>
      obtain ⟨uri, args⟩ := parts
      obtain ⟨rfl, -⟩ := ngxStrlchr_eq_some hfind
      simp only [Option.getD_some, List.length_append, List.length_cons]
      omega

theorem htaccessApplyTargetUriBytes_gives (r : Request) {state : RequestState} {target : NgxStr}
    (hneeds : totalLen [target.length, state.queryString.length, 3] ≤ needs) (qsa : Bool) :
    Gives needs (htaccessApplyTargetUriBytes target state.queryString qsa) fun outs =>
      List.Forall₂ Built.Holds outs
        (targetStrings (htaccessApplyTargetUri r state target qsa).1) := by
  have hparts := length_split_le target
  simp only [totalLen_cons, totalLen_nil] at hneeds
  refine (splitBytes_gives target).bind fun split hsplit => ?_
  refine (mergeArgsBytes_gives hsplit.2 (by simp only [totalLen_cons, totalLen_nil]; omega)
    qsa).bind fun args hargs => ?_
  refine (slashedBytes_gives hsplit.1 (by simp only [totalLen_cons, totalLen_nil]; omega)).bind
    fun uri huri => ?_
  refine huri.read.bind fun s hs => ?_
  have hlen := huri.length
  rw [← hs] at huri hlen
  refine (cpymem_gives (Cursor.behind_start _) (by simp [hlen])).bind fun p hp => ?_
  have hcopied := Built.holds_behind hp
  rw [List.nil_append, ← hlen] at hcopied
  refine (unparsedBytes_gives hcopied hargs ?_).bind fun unparsed hunparsed => ?_
  · rw [hs]
    simp only [totalLen_cons, totalLen_nil]
    split_ifs <;> (try simp only [List.length_cons, List.length_append]) <;> omega
  rw [hs] at huri hcopied hunparsed
  exact .cons hargs (.cons huri (.cons hcopied (.cons hunparsed .nil)))

end Strings

section Walk
variable {needs : Nat}

theorem strlen_gives {b : Buffer UInt8} {path : NgxStr} (h : b.written = path ++ [0]) :
    Gives needs (strlen b) fun len => (⟨b, len⟩ : Built).Holds (cString path) := by
  have hcut : cString (path ++ [0]) = cString path := takeWhile_ne_cut path 0 []
  rw [strlen, h, if_pos (by simp)]
  refine ⟨?_, ?_⟩
  · rw [h]
    exact (List.takeWhile_sublist _).length_le
  · have hfront := @List.takeWhile_prefix _ (path ++ [0]) (· ≠ 0)
    rw [h]
    exact (List.prefix_iff_eq_take.mp hfront).symm.trans hcut

theorem htaccessJoinPath_dir (root suffix filename : NgxStr) :
    (htaccessJoinPath root suffix filename).2 ≤
      (htaccessJoinPath root suffix filename).1.length := by
  simp only [htaccessJoinPath, List.length_append]
  exact Nat.le_add_right _ _

def walkStrings (d : WalkDir) : List NgxStr := [d.urlPrefix.drop 1, d.path, d.dirPath, d.urlPrefix]

theorem suffixCopy_gives {uri : NgxStr} {suffix : Buffer UInt8} {i : Nat}
    (hsize : suffix.size = uri.length) (hi : i < uri.length) :
    Gives needs (if 0 < i - 1 then do
        let s ← readBytes uri 1 (i - 1)
        storeAt suffix 0 s
      else pure suffix) fun b => b.size = uri.length ∧ i - 1 ≤ b.written.length ∧
        b.written.take (i - 1) = (uri.drop 1).take (i - 1) := by
  refine yields_ite (fun _ => ?_) fun hzero => ?_
  · have hfront : ((uri.drop 1).take (i - 1)).length = i - 1 := by
      rw [List.length_take, List.length_drop]
      omega
    refine (readBytes_gives (by omega)).bind fun s hs => ?_
    obtain ⟨b, hstore, hb, htake, hwritten⟩ :=
      suffix.store_front (show s.length ≤ suffix.size by rw [hs, hfront]; omega)
    rw [storeAt, hstore]
    rw [hs, hfront] at htake hwritten
    exact ⟨hb.trans hsize, hwritten, htake⟩
  · rw [Nat.eq_zero_of_not_pos hzero]
    exact ⟨hsize, Nat.zero_le _, by simp⟩

theorem suffixRounds_gives {conf : LocConf} {uri : NgxStr} {indices : List Nat}
    (suffix : Buffer UInt8) (hsize : suffix.size = uri.length)
    (hneeds : totalLen [conf.root.length, uri.length, conf.filename.length, 3] ≤ needs)
    (hindices : ∀ i ∈ indices, 1 ≤ i ∧ i < uri.length) :
    Gives needs (suffixRounds conf.root uri conf.filename indices suffix) fun outs =>
      List.Forall₂ Built.Holds outs
        (((indices.filter fun i => uri.getD i 0 = ch '/').map (walkAt conf uri)).flatMap
          walkStrings) := by
  induction indices generalizing suffix with
  | nil => exact .nil
  | cons i indices ih =>
      have hrest := fun j hj => hindices j (List.mem_cons_of_mem i hj)
      obtain ⟨hpos, hlt⟩ := hindices i List.mem_cons_self
      rw [suffixRounds]
      refine (readByte_gives (List.getElem?_eq_getElem hlt)).bind fun c hc => ?_
      have hget : uri.getD i 0 = c := by rw [hc, List.getD_eq_getElem _ _ hlt]
      rw [List.filter_cons, hget]
      refine yields_ite (fun hother => ?_) fun hslash => ?_
      · rw [if_neg (by simpa using hother)]
        exact ih suffix hsize hrest
      rw [if_pos (by simpa using hslash), List.map_cons, List.flatMap_cons]
      refine (sizeSub_gives hpos).bind fun len hlen => ?_
      subst hlen
      refine (suffixCopy_gives hsize hlt).bind fun b hb => ?_
      obtain ⟨hbsize, hwritten, htake⟩ := hb
      refine (readBytes_gives (by omega)).bind fun s hs => ?_
      rw [List.drop_zero, htake] at hs
      subst hs
      have hfront : ((uri.drop 1).take (i - 1)).length ≤ uri.length :=
        (List.length_take_le _ _).trans ((Nat.sub_le _ _).trans (Nat.le_of_lt hlt))
      have hjoin : totalLen [conf.root.length, ((uri.drop 1).take (i - 1)).length,
          conf.filename.length, 3] ≤ needs := by
        simp only [totalLen_cons, totalLen_nil] at hneeds ⊢
        omega
      refine (htaccessJoinPathBytes_gives hjoin).bind fun joined hjoined => ?_
      refine (strlen_gives hjoined.1).bind fun path hpath => ?_
      refine (ih b hbsize hrest).bind fun rest hrounds => ?_
      have hdir := htaccessJoinPath_dir conf.root ((uri.drop 1).take (i - 1)) conf.filename
      have hsuffix : (walkAt conf uri i).urlPrefix.drop 1 = (uri.drop 1).take (i - 1) :=
        List.drop_take
      refine .cons ⟨hwritten, htake.trans hsuffix.symm⟩ (.cons hpath (.cons ⟨?_, ?_⟩
        (.cons (Built.holds_front (Nat.le_of_lt hlt)) hrounds)))
      · rw [hjoined.1, hjoined.2, List.length_append]
        exact Nat.le_add_right_of_le hdir
      · rw [hjoined.1, hjoined.2, List.take_append_of_le_length hdir]
        rfl

theorem walkDirs_tail (conf : LocConf) (uri : NgxStr) :
    (walkDirs conf uri).tail =
      (((List.range' 1 (uri.length - 1)).filter fun i => uri.getD i 0 = ch '/').map
        (walkAt conf uri)) := by
  rw [walkDirs, List.tail_cons]
  cases hlen : uri.length with
  | zero => rfl
  | succ n =>
      rw [List.range_eq_range', List.range'_succ, List.filter_cons, if_neg (by simp)]
      refine congrArg (List.map (walkAt conf uri)) (List.filter_congr fun i hi => ?_)
      have hpos := (List.mem_range'_1.mp hi).1
      simp [hpos]

theorem htaccessBuildMergedCtxBytes_gives {conf : LocConf} {uri : NgxStr}
    (hneeds : totalLen [conf.root.length, uri.length, conf.filename.length, 3] ≤ needs) :
    Gives needs (htaccessBuildMergedCtxBytes conf.root uri conf.filename) fun outs =>
      List.Forall₂ Built.Holds outs
        ((walkRoot conf).path :: (walkDirs conf uri).tail.flatMap walkStrings) := by
  have hjoin :
      totalLen [conf.root.length, ([] : NgxStr).length, conf.filename.length, 3] ≤ needs := by
    simp only [totalLen_cons, totalLen_nil, List.length_nil] at hneeds ⊢
    omega
  refine (htaccessJoinPathBytes_gives hjoin).bind fun joined hjoined => ?_
  refine (strlen_gives hjoined.1).bind fun path hpath => ?_
  have hindices : ∀ i ∈ List.range' 1 (uri.length - 1), 1 ≤ i ∧ i < uri.length := by
    intro i hi
    have hrange := List.mem_range'_1.mp hi
    omega
  rw [walkDirs_tail]
  refine (suffixRounds_gives (.alloc uri.length) rfl hneeds hindices).bind fun rest hrest => ?_
  exact .cons hpath hrest

end Walk

/-- The functions that build strings, with what they are called on. -/
inductive Builder where
  | joinPath (root suffix filename : NgxStr)
  | resolveFilename (conf : LocConf) (state : RequestState)
  | fspath (root expanded : NgxStr)
  | applySubstitution (rule : RewriteRule) (input base : NgxStr)
  | applyTargetUri (r : Request) (state : RequestState) (target : NgxStr) (qsa : Bool)
  | joinArgs (args : List NgxStr) (start : Nat)
  | buildMergedCtx (conf : LocConf) (uri : NgxStr)

namespace Builder

/-- The strings that the function leaves, in the order in which they are built. -/
def run : Builder → Building (List Built)
  | joinPath root suffix filename => do
      let joined ← htaccessJoinPathBytes root suffix filename
      return [⟨joined.1, joined.2⟩]
  | resolveFilename conf state => htaccessResolveFilenameBytes conf.root state.uri
  | fspath root expanded => do
      let path ← fspathBytes root expanded
      return [path]
  | applySubstitution rule input base => do
      let out ← htaccessApplySubstitutionBytes rule.substitution input base
      return [out]
  | applyTargetUri _ state target qsa => htaccessApplyTargetUriBytes target state.queryString qsa
  | joinArgs args start => htaccessJoinArgsBytes args start
  | buildMergedCtx conf uri => htaccessBuildMergedCtxBytes conf.root uri conf.filename

def strings : Builder → List NgxStr
  | joinPath root suffix filename =>
      [(htaccessJoinPath root suffix filename).1.take (htaccessJoinPath root suffix filename).2]
  | resolveFilename conf state =>
      if conf.root = [] then [] else [(htaccessResolveFilename conf state).filename]
  | fspath root expanded => [root ++ slashAfter root ++ expanded]
  | applySubstitution rule input base => [htaccessApplySubstitution rule input base]
  | applyTargetUri r state target qsa => targetStrings (htaccessApplyTargetUri r state target qsa).1
  | joinArgs args start => (htaccessJoinArgs args start).toList
  | buildMergedCtx conf uri =>
      (walkRoot conf).path :: (walkDirs conf uri).tail.flatMap walkStrings

/-- A bound of all sums of lengths that the function takes. -/
def needs : Builder → Nat
  | joinPath root suffix filename =>
      totalLen [root.length, suffix.length, filename.length, 3]
  | resolveFilename conf state => totalLen [conf.root.length, state.uri.length, 1]
  | fspath root expanded => totalLen [root.length, expanded.length, 2]
  | applySubstitution rule _ base => totalLen [base.length, rule.substitution.length, 1]
  | applyTargetUri _ state target _ => totalLen [target.length, state.queryString.length, 3]
  | joinArgs args start => totalLen ((args.drop start).map (·.length + 1))
  | buildMergedCtx conf uri =>
      totalLen [conf.root.length, uri.length, conf.filename.length, 3]

/-- Every builder stores, step for step, the strings of the model on lists. -/
theorem run_gives (b : Builder) : Gives b.needs b.run (List.Forall₂ Built.Holds · b.strings) := by
  have hneeds := Nat.le_refl b.needs
  cases b with
  | joinPath root suffix filename =>
      refine (htaccessJoinPathBytes_gives hneeds).bind fun joined hjoined => ?_
      have hdir := htaccessJoinPath_dir root suffix filename
      refine .cons ⟨?_, ?_⟩ .nil
      · rw [hjoined.1, hjoined.2, List.length_append]
        exact Nat.le_add_right_of_le hdir
      · rw [hjoined.1, hjoined.2, List.take_append_of_le_length hdir]
  | resolveFilename conf state =>
      exact (htaccessResolveFilenameBytes_gives hneeds).mono
        fun _ houts => houts.imp fun _ _ h => h.holds
  | fspath root expanded =>
      exact (fspathBytes_gives hneeds).bind fun _ hpath => .cons hpath.2 .nil
  | applySubstitution rule input base =>
      exact (htaccessApplySubstitutionBytes_gives hneeds input).bind fun _ hout => .cons hout .nil
  | applyTargetUri r state target qsa => exact htaccessApplyTargetUriBytes_gives r hneeds qsa
  | joinArgs args start => exact htaccessJoinArgsBytes_gives hneeds
  | buildMergedCtx conf uri => exact htaccessBuildMergedCtxBytes_gives hneeds

end Builder

/-- Where its sums of lengths are below 2^64, no builder stores behind the end of an allocation,
takes a length below zero or reads what is not there, and no string records more than was written
of it. -/
theorem builders_in_bounds (b : Builder) (hneeds : b.needs < 2 ^ 64) :
    ∃ outs, b.run = .ok outs ∧
      ∀ out ∈ outs, out.buffer.written.length ≤ out.buffer.size ∧
        out.len ≤ out.buffer.written.length := by
  rcases yields_iff.mp b.run_gives with ⟨fault, -, -, hlarge⟩ | ⟨outs, hrun, houts⟩
  · exact absurd hneeds (Nat.not_lt.mpr hlarge)
  · have hbounds := houts.imp fun out _ hout =>
      And.intro (And.intro out.buffer.fits hout.bound) hout
    exact ⟨outs, hrun, ((List.forall₂_and_left _ _).mp hbounds).1⟩

/-- A walk over two directories. -/
theorem builders_in_bounds_walk :
    ∃ outs, (Builder.buildMergedCtx (siteConf 0) (lit "/a/b/x")).run = .ok outs ∧
      ∀ out ∈ outs, out.buffer.written.length ≤ out.buffer.size ∧
        out.len ≤ out.buffer.written.length :=
  builders_in_bounds (.buildMergedCtx (siteConf 0) (lit "/a/b/x")) (by decide)

/-- With both slashes and its zero byte a joined path takes all that was allocated. -/
example : (Builder.joinPath (lit "/w") (lit "a") (lit ".htaccess")).run.map
    (fun outs => outs.map fun out => (out.buffer.size, out.buffer.written, out.len)) =
      .ok [(15, lit "/w/a/.htaccess" ++ [0], 5)] := rfl

end NgxHtaccess
