/-
# Comma-separated fields

A field is written as it is unless it has a comma, a quote or a line break; then it stands between
quotes, with its own quotes doubled.
-/

namespace SinkReach.Csv

/-- Whether a character forces a field into quotes. -/
def isSpecial (c : Char) : Bool := c = ',' || c = '"' || c = '\n' || c = '\r'

/-- A character between quotes. -/
def quoteChar (c : Char) : List Char := if c = '"' then ['"', '"'] else [c]

/-- A field as it is written. -/
def field (s : String) : String :=
  if s.toList.any isSpecial then .ofList ('"' :: s.toList.flatMap quoteChar ++ ['"']) else s

/-- The fields of a record on one line, without the line break. -/
def line (fields : List String) : String := ",".intercalate (fields.map field)

end SinkReach.Csv
