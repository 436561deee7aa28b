/-
# Writing JSON text

Documents are written over several lines: two blanks of indentation for each level, one item or
field a line, a blank after the colon, and `[]` or `{}` for a collection without content.  Of the
characters in a string only the quote, the backslash and the controls below the space are
escaped.
-/
import SinkReach.Json.Basic
import SinkReach.Text.Quoted

namespace SinkReach.Json

/-- One character of a JSON string. -/
def writeChar (c : Char) : List Char :=
  match c with
  | '"' => ['\\', '"']
  | '\\' => ['\\', '\\']
  | '\x08' => ['\\', 'b']
  | '\x0c' => ['\\', 'f']
  | '\n' => ['\\', 'n']
  | '\r' => ['\\', 'r']
  | '\t' => ['\\', 't']
  | _ =>
    if c.toNat < 0x20 then
      ['\\', 'u', '0', '0'] ++ (if c.toNat < 0x10 then ['0'] else []) ++ Text.hexDigits c.toNat
    else [c]

/-- A string between its quotes. -/
def writeString (s : String) : String :=
  .ofList ('"' :: s.toList.flatMap writeChar ++ ['"'])

/-- A new line at the given level. -/
def newline (level : Nat) : String := "\n" ++ .ofList (List.replicate (2 * level) ' ')

mutual

/-- A value at the given level of indentation. -/
def writeAt (level : Nat) : Json → String
  | .null | .unreadable => "null"
  | .bool b => if b then "true" else "false"
  | .int n => toString n
  | .real lexeme => lexeme
  | .str s => writeString s
  | .arr [] => "[]"
  | .arr (j :: js) =>
    "[" ++ newline (level + 1) ++ j.writeAt (level + 1) ++ writeItems (level + 1) js
      ++ newline level ++ "]"
  | .obj [] => "\x7b\x7d"
  | .obj ((k, j) :: fs) =>
    "\x7b" ++ newline (level + 1) ++ writeString k ++ ": " ++ j.writeAt (level + 1)
      ++ writeFields (level + 1) fs ++ newline level ++ "\x7d"

/-- The items after the first, each with the comma before it. -/
def writeItems (level : Nat) : List Json → String
  | [] => ""
  | j :: js => "," ++ newline level ++ j.writeAt level ++ writeItems level js

/-- The fields after the first, each with the comma before it. -/
def writeFields (level : Nat) : List (String × Json) → String
  | [] => ""
  | (k, j) :: fs =>
    "," ++ newline level ++ writeString k ++ ": " ++ j.writeAt level ++ writeFields level fs

end

/-- The text of a document. -/
def write (j : Json) : String := j.writeAt 0

end SinkReach.Json
