import NgxHtaccess.Rewrite
import NgxHtaccess.Site

/-!
The polarity of the file tests. `htaccess_file_test` returns a truth value and
`htaccess_test_cond` hands it on as a result code, in which zero is `NGX_OK`: a file
condition holds exactly when the property that it asks for does not.
-/
namespace NgxHtaccess

/-- What a file operator asks of the path that it is applied to. -/
def FileProperty (info : Option FileInfo) : CondOp → Prop
  | .file => ∃ fi ∈ info, fi.isDir = false
  | .dir => ∃ fi ∈ info, fi.isDir = true
  | .symlink => ∃ fi ∈ info, fi.isLink = true
  | .exist => ∃ fi, fi ∈ info
  | .notFile => ¬ ∃ fi ∈ info, fi.isDir = false
  | .notDir => ¬ ∃ fi ∈ info, fi.isDir = true
  | .notSymlink => ¬ ∃ fi ∈ info, fi.isLink = true
  | .notExist => ¬ ∃ fi, fi ∈ info
  | _ => False

/-- The path that a condition on a file system path is about. -/
def fspath (conf : LocConf) (expanded : NgxStr) : NgxStr :=
  cString (conf.root ++ (if conf.root.getLast? = some (ch '/') then [] else [ch '/']) ++ expanded)

/-- What `ngx_file_info` reports for the path that the condition tests, if there is one. -/
def testedInfo (sys : Sys) (conf : LocConf) (r : Request) (state : RequestState)
    (cond : RewriteCond) : Option (Option FileInfo) :=
  match cond.test with
  | .filename => some (filenameInfo sys state)
  | .fspath =>
      (htaccessExpand sys r state cond.name none).map fun expanded =>
        sys.fs.fileInfo (fspath conf expanded)
  | _ => none

theorem cBool_eq_ngxOk (b : Bool) : cBool b = ngxOk ↔ b = false := by
  cases b <;> decide

/-- The truth value zero of a file test is the code of a condition that holds. -/
theorem htaccessFileTest_eq_ngxOk {op : CondOp} (hop : op.isFileOp = true)
    (info : Option FileInfo) :
    htaccessFileTest info op = ngxOk ↔ ¬ FileProperty info op := by
  cases op <;> simp only [CondOp.isFileOp, Bool.false_eq_true] at hop <;>
    rw [htaccessFileTest, cBool_eq_ngxOk] <;> cases info <;> simp [FileProperty]

section Test
variable {sys : Sys} {conf : LocConf} {r : Request} {state : RequestState} {cond : RewriteCond}
  {info : Option FileInfo}

theorem htaccessTestCond_file (hop : cond.op.isFileOp = true)
    (hinfo : testedInfo sys conf r state cond = some info) :
    htaccessTestCond sys conf r state cond = htaccessFileTest info cond.op := by
  unfold testedInfo at hinfo
  unfold htaccessTestCond
  cases htest : cond.test <;> rw [htest] at hinfo
  case filename =>
    injection hinfo with hinfo
    rw [if_pos ⟨rfl, hop⟩, hinfo]
  case fspath =>
    rw [if_neg (fun h => by cases h.1), if_pos rfl]
    obtain ⟨expanded, hexpand, hinfo⟩ := Option.map_eq_some_iff.mp hinfo
    rw [hexpand, ← hinfo]
    rfl
  all_goals cases hinfo

variable (sys conf r state cond info)

/-- No file condition is decided as the property that it asks for. -/
theorem file_test_inverted (hop : cond.op.isFileOp = true)
    (hinfo : testedInfo sys conf r state cond = some info) :
    ¬ (htaccessTestCond sys conf r state cond = ngxOk ↔ FileProperty info cond.op) := by
  rw [htaccessTestCond_file hop hinfo, htaccessFileTest_eq_ngxOk hop]
  exact fun h => iff_not_self h.symm

end Test

def pageCond : RewriteCond where
  test := .fspath
  name := lit "page"
  op := .file
  value := lit "-f"
  orNext := false

def pageState : RequestState := { siteState "/page" with filename := lit "/w/page" }

def pageSys : Sys := siteSys (siteFs 0 [("/w/page", "text")])

def pageInfo : FileInfo where
  mtime := 0
  size := 4
  isDir := false
  isLink := false

theorem file_test_inverted_page :
    ¬ (htaccessTestCond pageSys (siteConf 10) (siteRequest "/page") pageState pageCond = ngxOk ↔
      FileProperty (some pageInfo) pageCond.op) :=
  file_test_inverted pageSys (siteConf 10) (siteRequest "/page") pageState pageCond (some pageInfo)
    rfl (by decide +kernel)

/-- The file is there, and the condition that asks for it does not hold. -/
theorem file_test_fails_on_file :
    testedInfo pageSys (siteConf 10) (siteRequest "/page") pageState pageCond =
        some (some pageInfo) ∧
      FileProperty (some pageInfo) pageCond.op ∧
      htaccessTestCond pageSys (siteConf 10) (siteRequest "/page") pageState pageCond ≠ ngxOk :=
  ⟨by decide +kernel, ⟨pageInfo, rfl, rfl⟩, by decide +kernel⟩

end NgxHtaccess
