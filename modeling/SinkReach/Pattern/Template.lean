/-
# Templates

A template describes a set of texts.  It is written as a text in which `*` stands for any text,
the empty one included, and `\` takes the next character literally.

`Template.parse` reads a template and refuses those that are empty, end in a lone `\`, have two
stars next to each other, or would describe every text.  `Template.render` writes one back, with
every backslash and star of its literals escaped.
-/
import SinkReach.Failure

namespace SinkReach

/-- A piece of a template. -/
inductive Segment where
  | literal (s : String)
  | wildcard
deriving DecidableEq

/-- The pieces of a template, in order. -/
abbrev Template := List Segment

namespace Template

/-- Puts the characters read since the last star, which are handed along in reverse, in front of
the pieces that follow them. -/
def flush (buffer : List Char) (rest : Template) : Template :=
  if buffer.isEmpty then rest else .literal (.ofList buffer.reverse) :: rest

/-- Reads the pieces of a template.  `afterStar` says that the piece before the characters in the
buffer is a wildcard. -/
def parseFrom (buffer : List Char) (afterStar : Bool) : List Char → Except PatternFault Template
  | [] => .ok (flush buffer [])
  | '\\' :: c :: rest => parseFrom (c :: buffer) afterStar rest
  | '\\' :: [] => .error .trailingEscape
  | '*' :: rest =>
    if buffer.isEmpty && afterStar then .error .adjacentWildcards
    else do
      let more ← parseFrom [] true rest
      return flush buffer (.wildcard :: more)
  | c :: rest => parseFrom (c :: buffer) afterStar rest

/-- Reads a template. -/
def parse (text : String) : Except PatternFault Template :=
  if text.toList.isEmpty then .error .emptyTemplate
  else do
    let segments ← parseFrom [] false text.toList
    if segments.all (· = .wildcard) then .error .noLiteral else return segments

/-- A character of a literal as it is written in a template. -/
def escapeChar (c : Char) : List Char := if c = '\\' ∨ c = '*' then ['\\', c] else [c]

/-- A piece as it is written in a template. -/
def renderSegment : Segment → List Char
  | .wildcard => ['*']
  | .literal s => s.toList.flatMap escapeChar

/-- Writes a template. -/
def render (t : Template) : String := .ofList (t.flatMap renderSegment)

/-- The number of wildcards. -/
def wildcards (t : Template) : Nat := t.countP (· = .wildcard)

end Template

end SinkReach
