/-
# Report documents

A report as a JSON document, with its version, a summary and the verdicts.
-/
import SinkReach.Batch
import SinkReach.Files.Tree
import SinkReach.Report

namespace SinkReach

/-- Why a report cannot be written or read. -/
inductive ReportFault where
  /-- The operating system refused. -/
  | system (cause : OsError)
  /-- The text is not a report. -/
  | malformed
  /-- Writing or reading failed for a reason told in other words. -/
  | io (detail : String)
  /-- Encoding or decoding failed for a reason told in other words. -/
  | serialization (detail : String)

def ReportFault.message : ReportFault → String
  | .system cause => "[io] I/O error: " ++ cause.message
  | .malformed => "[serialization] JSON error"
  | .io detail => "[io] " ++ detail
  | .serialization detail => "[serialization] " ++ detail

namespace Summary

def toJson (s : Summary) : Json :=
  .obj [("total", .int s.total), ("sat", .int s.sat), ("unsat", .int s.unsat),
    ("unknown", .int s.unknown)]

def ofJson? (j : Json) : Option Summary := do
  let [some total, some sat, some unsat, some unknown] ←
    j.record? ["total", "sat", "unsat", "unknown"] | none
  return ⟨← total.count?, ← sat.count?, ← unsat.count?, ← unknown.count?⟩

end Summary

/-- A report as it is written down. -/
structure ReportDocument where
  version : UInt32
  summary : Summary
  verdicts : List Verdict
deriving DecidableEq

namespace ReportDocument

/-- The document of a report. -/
def ofReport (r : Report) : ReportDocument := ⟨formatVersion, r.summary, r.verdicts⟩

def toJson (d : ReportDocument) : Json :=
  .obj [("version", .ofUInt32 d.version), ("summary", d.summary.toJson),
    ("verdicts", .arr (d.verdicts.map Verdict.toJson))]

def ofJson? (j : Json) : Option ReportDocument := do
  let [some version, some summary, some verdicts] ←
    j.record? ["version", "summary", "verdicts"] | none
  return ⟨← version.uint32?, ← Summary.ofJson? summary,
    ← (← verdicts.arr?).mapM Verdict.ofJson?⟩

/-- The text of a document. -/
def write (d : ReportDocument) : String := d.toJson.write

/-- Reads a document.  Its version is not looked at. -/
def read (text : String) : Except ReportFault ReportDocument :=
  match (Json.read? nestingLimit text).bind ofJson? with
  | some d => .ok d
  | none => .error .malformed

end ReportDocument

/-- Writes the document of a report to a file. -/
def Report.writeDocument (r : Report) (t : FileTree) (path : String) : Except OsError FileTree :=
  t.write path (ReportDocument.ofReport r).write

end SinkReach
