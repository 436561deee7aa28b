/-
# Characters and places of a YAML text

Which characters a YAML text may have, which of them are blanks and line breaks, and how a place in
the text moves when they are read.
-/

namespace SinkReach.Yaml

/-! ## 1. Classes of characters -/

/-- The characters that a text may have: control characters are left out, but for the tab and
the line breaks. -/
def isAllowed (c : Char) : Bool :=
  let n := c.toNat
  n = 0x9 || n = 0xA || n = 0xD || (0x20 ≤ n && n ≤ 0x7E) || n = 0x85
    || (0xA0 ≤ n && n ≤ 0xFFFD) || 0x10000 ≤ n

/-- The mark that may stand at the beginning of a text. -/
def byteOrderMark : Char := '\ufeff'

/-- A space or a tab. -/
def isBlank (c : Char) : Bool := c = ' ' || c = '\t'

/-- A line break.  A carriage return and a line feed together are one. -/
def isBreak (c : Char) : Bool :=
  c = '\n' || c = '\r' || c = '\u0085' || c = '\u2028' || c = '\u2029'

/-- A line break as it counts in a text: the separators of lines and paragraphs stay, the others
become line feeds. -/
def breakChar (c : Char) : Char := if c = '\u2028' || c = '\u2029' then c else '\n'

/-- A character of a name: an anchor, a tag handle or a directive. -/
def isNameChar (c : Char) : Bool := c.isAlphanum || c = '_' || c = '-'

/-- Whether a text is at its end, at a blank or at a line break. -/
def atBlankOrEnd : List Char → Bool
  | [] => true
  | c :: _ => isBlank c || isBreak c

/-- Whether a text is at its end or at a line break. -/
def atBreakOrEnd : List Char → Bool
  | [] => true
  | c :: _ => isBreak c

/-- Whether a text is at a mark between documents, read from the beginning of a line. -/
def atDocumentMark : List Char → Bool
  | '-' :: '-' :: '-' :: rest => atBlankOrEnd rest
  | '.' :: '.' :: '.' :: rest => atBlankOrEnd rest
  | _ => false

/-! ## 2. Places -/

/-- A place in a text: the characters before it, the lines before it, and those before it on its
own line. -/
structure Mark where
  index : Nat := 0
  line : Nat := 0
  column : Nat := 0
deriving DecidableEq

namespace Mark

/-- After a number of characters of the line. -/
def next (m : Mark) (n : Nat := 1) : Mark := ⟨m.index + n, m.line, m.column + n⟩

/-- After a line break of a number of characters. -/
def newline (m : Mark) (n : Nat := 1) : Mark := ⟨m.index + n, m.line + 1, 0⟩

end Mark

/-- A text from a place on. -/
structure Cursor where
  rest : List Char
  mark : Mark := {}

namespace Cursor

/-- After a character of the line. -/
def advance (c : Cursor) : Cursor := ⟨c.rest.tail, c.mark.next⟩

/-- After a number of characters of the line. -/
def advanceBy (c : Cursor) (n : Nat) : Cursor := ⟨c.rest.drop n, c.mark.next n⟩

/-- The longest stretch of characters of a class that contains no line break, and what follows
it. -/
def takeWhile (p : Char → Bool) (c : Cursor) : List Char × Cursor :=
  let taken := c.rest.takeWhile p
  (taken, c.advanceBy taken.length)

/-- After the characters of a class. -/
def dropWhile (p : Char → Bool) (c : Cursor) : Cursor := (c.takeWhile p).2

/-- After a line break, if there is one. -/
def skipBreak (c : Cursor) : Cursor :=
  match c.rest with
  | '\r' :: '\n' :: rest => ⟨rest, c.mark.newline 2⟩
  | b :: rest => if isBreak b then ⟨rest, c.mark.newline⟩ else c
  | [] => c

/-- The rest of a line that may have blanks and a comment only, up to and with its break. -/
def finishLine? (c : Cursor) : Option Cursor :=
  let c := c.dropWhile isBlank
  let c := if c.rest.head? = some '#' then c.dropWhile (fun x => !isBreak x) else c
  if atBreakOrEnd c.rest then some c.skipBreak else none

end Cursor

end SinkReach.Yaml
