/-
# Patterns in JSON

A pattern as it is specified, as a record.  It is written without what it leaves open, and read
with no other fields than its own.
-/
import SinkReach.Json.Record
import SinkReach.Pattern.Basic

namespace SinkReach.PatternSpec

def toJson (p : PatternSpec) : Json :=
  .obj ([("name", .str p.name), ("template", .str p.template), ("mode", .str p.mode.name)]
    ++ (if p.sinks.isEmpty then [] else [("sinks", .arr (p.sinks.map .str))])
    ++ (match p.argIndex with
      | some n => [("arg_index", .ofUInt64 n)]
      | none => []))

/-- The fields of a pattern. -/
def fieldNames : List String := ["name", "template", "mode", "sinks", "arg_index"]

/-- Whether a record has no other fields than those of a pattern. -/
def hasOwnFields : Json → Bool
  | .obj fields => fields.all fun f => fieldNames.contains f.1
  | _ => true

/-- The fields of a pattern as they are written: mode, sinks and argument may be missing, and the
argument may be `null`. -/
def ofFields? (name template : Json) (mode sinks argIndex : Option Json) : Option PatternSpec := do
  let mode ← match mode with
    | some m => m.name?.bind MatchMode.ofName?
    | none => some .exact
  let sinks ← match sinks with
    | some s => do (← s.arr?).mapM Json.str?
    | none => some []
  let argIndex ← match argIndex with
    | none | some .null => some none
    | some n => n.uint64?.map some
  return ⟨← name.str?, ← template.str?, mode, sinks, argIndex⟩

def ofJson? (j : Json) : Option PatternSpec := do
  let [some name, some template, mode, sinks, argIndex] ← j.record? fieldNames | none
  if hasOwnFields j then ofFields? name template mode sinks argIndex else none

end SinkReach.PatternSpec
