/-
# Writing configurations

A configuration is written out in full, as a YAML document that reads back as the same
configuration.
-/
import SinkReach.Config.Document
import SinkReach.Yaml.Writer

namespace SinkReach.Config

open Yaml (Tree)

/-- A field that is written if it is given. -/
def given {α : Type} (key : String) (write : α → Tree) : Option α → List (String × Tree)
  | none => []
  | some a => [(key, write a)]

def ofUInt64 (n : UInt64) : Tree := .number n.toNat

def ofUInt32 (n : UInt32) : Tree := .number n.toNat

def SolverOverrides.toTree (o : SolverOverrides) : Tree :=
  .record (given "timeout_ms" ofUInt64 o.timeoutMs ++ given "seed" ofUInt32 o.seed
    ++ given "int_semantics" (fun m => .text (IntMode.name m)) o.intMode
    ++ given "int_width" ofUInt32 o.intWidth)

/-- A pattern; the sinks are left out if there are none. -/
def patternTree (p : PatternSpec) : Tree :=
  let sinks := if p.sinks.isEmpty then none else some p.sinks
  .record ([("name", .text p.name), ("template", .text p.template), ("mode", .text p.mode.name)]
    ++ given "sinks" (fun names => .list (names.map .text)) sinks
    ++ given "arg_index" ofUInt64 p.argIndex)

/-- The fields of a document. -/
def Document.fields (d : Document) : List (String × Tree) :=
  given "version" ofUInt32 d.version ++ given "preset" .text d.preset
    ++ given "solver" SolverOverrides.toTree d.solver
    ++ given "parallel" (fun p => .record [("workers", ofUInt64 p.workers)]) d.parallel
    ++ given "patterns" (fun ps => .list (ps.map patternTree)) d.patterns

/-- The text of a document. -/
def Document.write (d : Document) : String := .ofList (Yaml.writeFields 0 false d.fields)

/-- Writes a configuration. -/
def write (c : Config) : String := (Document.ofConfig c).write

end SinkReach.Config
