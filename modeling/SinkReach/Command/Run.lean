/-
# Running a command

What a command prints, what it writes, and the status it ends with: 0 where nothing is amiss, 1
where something dangerous or a failed crate was found, and 2 where the command itself failed.
What was printed and written before a failure stays.
-/
import SinkReach.Command.Arguments
import SinkReach.Evaluation
import SinkReach.Percent

namespace SinkReach

/-- What came of a command. -/
structure Transcript where
  status : Nat
  /-- What was printed. -/
  output : String := ""
  /-- Why the command failed, if it did. -/
  complaint? : Option Complaint := none
  /-- The files afterwards. -/
  files : FileTree

namespace Transcript

/-- A command that failed. -/
def failed (e : Complaint) (t : FileTree) (output : String := "") : Transcript :=
  ⟨2, output, some e, t⟩

end Transcript

/-- Lines of text, each with its break. -/
def unlines (lines : List String) : String := lines.foldl (fun text l => text ++ l ++ "\n") ""

/-- The analyzer of a run. -/
def Settings.analyzer (s : Settings) (t : FileTree) : Except Complaint Analyzer := do
  let c ← s.resolve t
  match Analyzer.ofConfig c with
  | .ok a => return a
  | .error e => throw (.ofFailure e)

namespace Report

/-- The dangerous verdicts, with what is dangerous about them. -/
def dangerLines (r : Report) : List String :=
  r.dangerous.map fun v => v.render ++ " -> " ++ v.dangerousValue

/-- The list of dangerous spans as it is printed. -/
def listing (r : Report) : String :=
  unlines ("=== Dangerous Spans ===" ::
    if r.hasDangerous then r.dangerLines else ["No dangerous spans found."])

/-- The last line that is printed about a run. -/
def closing (r : Report) (stats : Stats) : String :=
  let s := r.summary
  "\n[SUMMARY] " ++ toString s.total ++ " sites: " ++ toString s.sat ++ " SAT, "
    ++ toString s.unsat ++ " UNSAT, " ++ toString s.unknown ++ " UNKNOWN (lightweight "
    ++ (percentage stats.lightweight stats.total).fixed 1 ++ "%, solver "
    ++ (percentage stats.solver stats.total).fixed 1 ++ "%)\n"

/-- Writes the table of spans, and the document if one is asked for.  The table stays where the
document cannot be written. -/
def writeFiles (r : Report) (t : FileTree) (table : String) (document? : Option String) :
    Except OsError Unit × FileTree :=
  match SpanTable.write t table r with
  | .error e => (.error e, t)
  | .ok t =>
    match document? with
    | none => (.ok (), t)
    | some path =>
      match r.writeDocument t path with
      | .error e => (.error e, t)
      | .ok t => (.ok (), t)

end Report

namespace Evaluation

/-- The outcomes as they are printed. -/
def listing (e : Evaluation) : String :=
  unlines (e.outcomes.map fun o => "[INFO] " ++ o.group.name ++ ": " ++ o.name ++ " → " ++ o.label)

/-- The last lines that are printed about an evaluation. -/
def closing (e : Evaluation) (path : String) : String :=
  unlines (("\n[SUMMARY] Tests passed: " ++ toString e.passed ++ " / " ++ toString e.total) ::
    (if e.allPassed then ["[ALL TESTS PASSED]"]
      else "[FAILED TESTS]:" :: e.failed.map fun o => "  - " ++ o.render)
    ++ ["\n[DONE] Wrote " ++ path])

end Evaluation

namespace Command

/-- Decides the sites of a batch. -/
def runAnalyze (decide : Decider) (sites table : String) (document? : Option String)
    (settings : Settings) (t : FileTree) : Transcript :=
  let decided : Except Complaint (Report × Stats) := do
    let a ← settings.analyzer t
    match Batch.load t sites with
    | .error e => throw (.ofFailure e)
    | .ok batch =>
      match decide a batch.sites with
      | .error e => throw (.ofFailure e)
      | .ok run => return run
  match decided with
  | .error e => .failed e t
  | .ok (report, stats) =>
    match report.writeFiles t table document? with
    | (.error e, t) => .failed (.ofReport e) t report.listing
    | (.ok (), t) =>
      { status := report.status
        output := report.listing ++ report.closing stats
        files := t }

/-- Evaluates a corpus. -/
def runEvaluate (decide : Decider) (root : String) (results? : Option String) (keepSpans : Bool)
    (settings : Settings) (t : FileTree) : Transcript :=
  match settings.analyzer t with
  | .error e => .failed e t
  | .ok a =>
    match a.evaluate decide keepSpans root t with
    | (.error e, t) => .failed e t
    | (.ok summary, t) =>
      let path := results?.getD (joinPath root "results.csv")
      match summary.writeTable t path with
      | .error e => .failed e t summary.listing
      | .ok t =>
        { status := if summary.allPassed then 0 else 1
          output := summary.listing ++ summary.closing path
          files := t }

/-- Runs a command. -/
def run (decide : Decider) (t : FileTree) : Command → Transcript
  | .analyze sites table document? settings =>
    runAnalyze decide sites table document? settings t
  | .evaluate root results? keepSpans settings =>
    runEvaluate decide root results? keepSpans settings t

end Command

end SinkReach
