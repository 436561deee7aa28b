/-
# Evaluation on a corpus

A corpus is a directory with two groups of crates, `safe` and `unsafe`, each crate a directory with
its batch of sites.  A crate is HIT if its report has a dangerous verdict.  The safe ones pass
without a hit, the unsafe ones with one.
-/
import SinkReach.Analyzer
import SinkReach.Batch
import SinkReach.Complaint
import SinkReach.SpanTable

namespace SinkReach

/-! ## 1. Outcomes -/

/-- A group of crates. -/
inductive CrateGroup where
  | safe
  | unsound
deriving DecidableEq

namespace CrateGroup

/-- The groups in the order in which they are evaluated. -/
def every : List CrateGroup := [.safe, .unsound]

def name : CrateGroup → String
  | .safe => "safe"
  | .unsound => "unsafe"

/-- Whether the crates of the group are to be hit. -/
def expectsHit : CrateGroup → Bool
  | .safe => false
  | .unsound => true

end CrateGroup

/-- What came of a crate. -/
structure CrateOutcome where
  group : CrateGroup
  name : String
  hit : Bool
deriving DecidableEq

namespace CrateOutcome

def passed (o : CrateOutcome) : Bool := o.hit = o.group.expectsHit

def label (o : CrateOutcome) : String := if o.passed then "PASS" else "FAIL"

/-- The crate with its group. -/
def render (o : CrateOutcome) : String := o.group.name ++ "/" ++ o.name

/-- A row of the table of results. -/
def row (o : CrateOutcome) : String :=
  Csv.line [o.group.name, o.name, renderBool o.hit, o.label]

end CrateOutcome

/-- What came of a corpus. -/
structure Evaluation where
  outcomes : List CrateOutcome := []
deriving DecidableEq

namespace Evaluation

def total (e : Evaluation) : Nat := e.outcomes.length

def passed (e : Evaluation) : Nat := e.outcomes.countP (·.passed)

def failed (e : Evaluation) : List CrateOutcome := e.outcomes.filter (!·.passed)

def allPassed (e : Evaluation) : Bool := e.outcomes.all (·.passed)

/-- The table of results. -/
def table (e : Evaluation) : String :=
  e.outcomes.foldl (fun text o => text ++ o.row ++ "\n") "group,crate,hit,result\n"

/-- Writes the table of results, over what stands there. -/
def writeTable (e : Evaluation) (t : FileTree) (path : String) : Except Complaint FileTree :=
  match t.write path e.table with
  | .ok t => .ok t
  | .error cause => .error ((Complaint.ofOs cause).within ("cannot create " ++ path))

end Evaluation

/-! ## 2. Evaluating -/

/-- The batch in a file. -/
def Batch.load (t : FileTree) (path : String) : Except Failure Batch :=
  match t.read path with
  | .error e => .error (.io e)
  | .ok text =>
    match Batch.read text with
    | .error e => .error (.input e)
    | .ok b => .ok b

/-- The name of the file with the sites of a crate. -/
def sitesFile : String := "sites.json"

namespace Analyzer

/-- Evaluates the crate in a directory.  One without a file of sites has none.  With `keepSpans`
its table of spans is written beside the sites. -/
def evaluateCrate (a : Analyzer) (decide : Decider) (keepSpans : Bool) (t : FileTree)
    (dir : String) : Except Complaint (Bool × FileTree) :=
  let path := joinPath dir sitesFile
  if t.exists? path then
    match Batch.load t path with
    | .error e => .error ((Complaint.ofFailure e).within ("cannot load " ++ path))
    | .ok batch =>
      match decide a batch.sites with
      | .error e => .error (.ofFailure e)
      | .ok (report, _) =>
        if keepSpans then
          match SpanTable.write t (joinPath dir spanTableName) report with
          | .error e => .error (.ofReport e)
          | .ok t => .ok (report.hasDangerous, t)
        else .ok (report.hasDangerous, t)
  else .ok (false, t)

/-- Evaluates crates of a group, by their names.  The files written before a failure stay. -/
def evaluateCrates (a : Analyzer) (decide : Decider) (keepSpans : Bool) (group : CrateGroup)
    (dir : String) (done : List CrateOutcome) (t : FileTree) :
    List String → Except Complaint (List CrateOutcome) × FileTree
  | [] => (.ok done, t)
  | name :: names =>
    match a.evaluateCrate decide keepSpans t (joinPath dir name) with
    | .error e => (.error e, t)
    | .ok (hit, t) =>
      evaluateCrates a decide keepSpans group dir (done ++ [⟨group, name, hit⟩]) t names

/-- Evaluates groups of a corpus.  A group without a directory is passed over. -/
def evaluateGroups (a : Analyzer) (decide : Decider) (keepSpans : Bool) (root : String)
    (done : List CrateOutcome) (t : FileTree) :
    List CrateGroup → Except Complaint Evaluation × FileTree
  | [] => (.ok ⟨done⟩, t)
  | group :: groups =>
    let dir := joinPath root group.name
    if t.isDir dir then
      match a.evaluateCrates decide keepSpans group dir done t (t.subdirectories dir) with
      | (.error e, t) => (.error e, t)
      | (.ok done, t) => evaluateGroups a decide keepSpans root done t groups
    else evaluateGroups a decide keepSpans root done t groups

/-- Evaluates a corpus. -/
def evaluate (a : Analyzer) (decide : Decider) (keepSpans : Bool) (root : String)
    (t : FileTree) : Except Complaint Evaluation × FileTree :=
  a.evaluateGroups decide keepSpans root [] t CrateGroup.every

end Analyzer

end SinkReach
