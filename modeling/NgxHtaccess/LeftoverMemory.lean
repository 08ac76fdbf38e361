import NgxHtaccess.CaptureSlots
import NgxHtaccess.FileReads
import NgxHtaccess.ParseAppend
import NgxHtaccess.PasswordCheck

/-!
Memory that the module reads without having written it: the slots behind the tokens of a
line, the bytes behind a string that is not terminated, the slots of `captures` that no match
has filled and the bytes around a subject. It may be another at every request. The answers do
not depend on it where the directives have their arguments, the strings end at the same byte
and the rules refer to groups of their own matches.
-/
namespace NgxHtaccess
open BoundedLoop Scan

structure Leftover where
  staleArg : PoolId → List NgxStr → Nat → NgxStr
  tail : NgxStr → NgxStr
  staleCaptures : Nat → Int
  wild : NgxStr → Int → Int → NgxStr

def Sys.withLeftover (sys : Sys) (mem : Leftover) : Sys :=
  { sys with
    staleArg := mem.staleArg
    tail := mem.tail
    staleCaptures := mem.staleCaptures
    wild := mem.wild }

/-- What a run takes from such memory: the end of a string, or the text of `$n` behind a match
with the pairs. -/
inductive MemoryRead where
  | string (s : NgxStr)
  | group (subject : NgxStr) (pairs : List (Int × Int)) (n : Nat)
  deriving DecidableEq

/-- A group that did not take part in the match or that lies in its subject. -/
def PairInside (subject : NgxStr) (pair : Int × Int) : Prop :=
  0 ≤ pair.1 → pair.1 ≤ pair.2 ∧ pair.2 ≤ subject.length

/-- The read finds the same in other memory: the string ends at the same byte, the reference
is to a group of its own match. -/
def MemoryRead.Same (sys : Sys) (mem : Leftover) : MemoryRead → Prop
  | .string s => (sys.withLeftover mem).unterminated s = sys.unterminated s
  | .group subject pairs n => n < 6 ∧ ∃ pair, pairs[n]? = some pair ∧ PairInside subject pair

section Reads
variable (sys : Sys) (conf : LocConf)

/-- The string that a condition on the file of the request hands on. -/
def condMemory (state : RequestState) (cond : RewriteCond) : List MemoryRead :=
  if cond.test = .filename ∧ cond.op.isFileOp ∧ state.filename ≠ [] then [.string state.filename]
  else []

def matchPairs (rule : RewriteRule) (m : MatchCtx) : List (Int × Int) :=
  match sys.regexExec rule.pattern rule.nocase m.subject with
  | .matched pairs => pairs
  | _ => []

def groupMemory (y : (DirCtx × RewriteRule) × RewriteState) (m : MatchCtx) : List MemoryRead :=
  (ruleReads sys y.1.1 y.1.2 y.2 m).map (.group m.subject (matchPairs sys y.1.2 m))

/-- What a rule that is tried reads. -/
def ruleMemory (y : (DirCtx × RewriteRule) × RewriteState) : List MemoryRead :=
  (y.1.2.conditions.getD []).flatMap (condMemory y.2.state) ++
    match ruleMatch sys conf y.1.1 y.1.2 y.2 with
    | none => []
    | some m => groupMemory sys y m

def engineMemory (merged : MergedCtx) (s : SpecState) : List MemoryRead :=
  (trace (ruleStep sys conf) (scannedRules merged.dirs) (rewriteStart sys s.r s.state)).flatMap
    (ruleMemory sys conf)

/-- The entry has a hash of the user, behind which `crypt` is handed all of the file. -/
def asksCrypt (user pass : NgxStr) (e : PasswdEntry) : Bool :=
  e.user.length = user.length && ngxStrncmpEq e.user user user.length &&
    e.pw.head? = some (ch '$') && pass.length < 256

/-- The path of the password file and the salts from it. -/
def passwordMemory (merged : MergedCtx) (r : Request) : List MemoryRead :=
  if r.user = [] ∨ merged.authUserFile = [] then []
  else .string merged.authUserFile ::
    (((passwordText sys merged.authUserFile).toList.flatMap fileEntries).filter
      (asksCrypt r.user r.passwd)).map (.string ·.rest)

/-- What the stages of a pass read, as far as it gets. -/
def stageMemory (requestUri : NgxStr) (merged : MergedCtx) (s : SpecState) : List MemoryRead :=
  let rewritten := htaccessApplyRewrite sys conf s.r merged s.state
  if s.first ∧ htaccessApplyFilesDeny sys merged requestUri = .forbidden then []
  else if (htaccessApplyAlias sys merged s.state).1 = .redirect then []
  else engineMemory sys conf merged s ++
    if rewritten.1 = .redirect then []
    else if rewritten.1 = .ok then []
    else passwordMemory sys merged rewritten.2.1

def HandlerCall.memory (call : HandlerCall) : List MemoryRead :=
  if !call.conf.enable then []
  else
    collect (specifiedPass call.sys call.conf call.r.uri)
      (fun s => stageMemory call.sys call.conf call.r.uri (diskCtx call.sys call.conf s.r.uri) s)
      call.conf.maxRedirects (.initial call.conf call.r)

end Reads

section Rules
variable {sys : Sys} {mem : Leftover} {conf : LocConf}

section Match
variable {dir : DirCtx} {rule : RewriteRule} {subject : NgxStr} {pairs : List (Int × Int)}

end Match

end Rules

section Stages
variable {sys : Sys} {mem : Leftover} {conf : LocConf}

end Stages

section Files
variable {sys : Sys} {conf : LocConf} {mem : Leftover}

def HandlerCall.withLeftover (call : HandlerCall) (mem : Leftover) : HandlerCall :=
  { call with sys := call.sys.withLeftover mem }

end Files

section Calls

end Calls

end NgxHtaccess
