/-
# Scalars of a YAML text

The text of a scalar in each of the ways to write one: PLAIN, between single or double QUOTES, and
as a BLOCK of indented lines.  Lines are FOLDED in all of them but the literal block: a single line
break between two lines becomes a space, and of several the first is dropped.
-/
import SinkReach.Text.Numeral
import SinkReach.Yaml.Cursor

namespace SinkReach.Yaml

/-- How a scalar is written. -/
inductive ScalarStyle where
  | plain
  | quoted
  | literal
  | folded
deriving DecidableEq

/-! ## 1. Folding -/

/-- The text of a scalar so far, with the blanks and line breaks read since its last character.
All lists have their latest character first. -/
structure Fold where
  text : List Char := []
  /-- Blanks since the last character, on its line. -/
  blanks : List Char := []
  /-- The first line break since the last character. -/
  lead : List Char := []
  /-- The line breaks after the first. -/
  more : List Char := []
  /-- Whether a line has ended since the last character. -/
  broken : Bool := false

namespace Fold

/-- Reads a blank.  Those at the beginning of a line do not count. -/
def blank (f : Fold) (c : Char) : Fold :=
  if f.broken then f else { f with blanks := c :: f.blanks }

/-- Reads a line break.  The blanks before it do not count. -/
def newline (f : Fold) (c : Char) : Fold :=
  if f.broken then { f with more := breakChar c :: f.more }
  else { f with blanks := [], lead := [breakChar c], broken := true }

/-- Reads a line break that is not to count. -/
def skippedNewline (f : Fold) : Fold := { f with blanks := [], lead := [], broken := true }

/-- Puts the blanks and line breaks since the last character into the text. -/
def join (f : Fold) : Fold :=
  if f.broken then
    if f.lead = ['\n'] then { text := if f.more.isEmpty then ' ' :: f.text else f.more ++ f.text }
    else { text := f.more ++ f.lead ++ f.text }
  else { text := f.blanks ++ f.text }

/-- Reads a character of the text. -/
def push (f : Fold) (c : Char) : Fold :=
  let f := f.join
  { f with text := c :: f.text }

/-- The text read so far. -/
def result (f : Fold) : String := .ofList f.text.reverse

/-- Whether blanks or line breaks were read since the last character. -/
def pending (f : Fold) : Bool := f.broken || !f.blanks.isEmpty

end Fold

/-! ## 2. Plain scalars -/

/-- Whether a character that is no blank ends a plain scalar. -/
def endsPlain (flow : Bool) (c : Char) (rest : List Char) : Bool :=
  (c = ':' && atBlankOrEnd rest) || (flow && [',', '[', ']', '\x7b', '\x7d'].contains c)

/-- A colon that a plain scalar of a flow collection may not have. -/
def isStrayColon (flow : Bool) (c : Char) (rest : List Char) : Bool :=
  flow && c = ':' &&
    rest.head?.any fun d => [',', '?', '[', ']', '\x7b', '\x7d'].contains d

/-- Reads a plain scalar.  Outside of flow collections its lines are indented to a column at
least. -/
def plainFrom (flow : Bool) (indent : Nat) : List Char → Mark → Fold → Option (Fold × Cursor)
  | [], m, f => some (f, ⟨[], m⟩)
  | '\r' :: '\n' :: rest, m, f => plainFrom flow indent rest (m.newline 2) (f.newline '\n')
  | c :: rest, m, f =>
    if isBreak c then plainFrom flow indent rest m.newline (f.newline c)
    else if isBlank c then
      if f.broken && c = '\t' && m.column < indent then none
      else plainFrom flow indent rest m.next (f.blank c)
    else if f.pending &&
        ((!flow && m.column < indent) || c = '#'
          || (m.column = 0 && atDocumentMark (c :: rest))) then
      some (f, ⟨c :: rest, m⟩)
    else if isStrayColon flow c rest then none
    else if endsPlain flow c rest then some (f, ⟨c :: rest, m⟩)
    else plainFrom flow indent rest m.next (f.push c)

/-! ## 3. Quoted scalars -/

/-- The characters that are written with a backslash and one other character. -/
def escapeChar? : Char → Option Char
  | '0' => some '\x00'
  | 'a' => some '\x07'
  | 'b' => some '\x08'
  | 't' | '\t' => some '\t'
  | 'n' => some '\n'
  | 'v' => some '\x0b'
  | 'f' => some '\x0c'
  | 'r' => some '\r'
  | 'e' => some '\x1b'
  | ' ' => some ' '
  | '"' => some '"'
  | '/' => some '/'
  | '\\' => some '\\'
  | 'N' => some '\u0085'
  | '_' => some '\u00a0'
  | 'L' => some '\u2028'
  | 'P' => some '\u2029'
  | _ => none

/-- The number of digits of a character that is written by its number. -/
def escapeDigits? : Char → Option Nat
  | 'x' => some 2
  | 'u' => some 4
  | 'U' => some 8
  | _ => none

/-- The character of a number. -/
def charOfCode? (n : Nat) : Option Char := if h : n.isValidChar then some (.ofNatAux n h) else none

/-- Where the reading of a quoted scalar stands. -/
inductive Escape where
  /-- Among characters that stand for themselves. -/
  | none
  /-- After a backslash. -/
  | started
  /-- Before a number of digits, of which those read have the value given. -/
  | digits (left value : Nat)

/-- Reads a quoted scalar, after its opening quote. -/
def quotedFrom (double : Bool) : Escape → List Char → Mark → Fold → Option (Fold × Cursor)
  | _, [], _, _ => none
  | .digits left value, c :: rest, m, f => do
    let value := value * 16 + (← Text.hexValue? c)
    if left ≤ 1 then quotedFrom double .none rest m.next (f.push (← charOfCode? value))
    else quotedFrom double (.digits (left - 1) value) rest m.next f
  | .started, '\r' :: '\n' :: rest, m, f =>
    quotedFrom double .none rest (m.newline 2) f.skippedNewline
  | .started, c :: rest, m, f =>
    if isBreak c then quotedFrom double .none rest m.newline f.skippedNewline
    else match escapeChar? c, escapeDigits? c with
      | some d, _ => quotedFrom double .none rest m.next (f.push d)
      | _, some n => quotedFrom double (.digits n 0) rest m.next f
      | _, _ => none
  | .none, '\r' :: '\n' :: rest, m, f =>
    quotedFrom double .none rest (m.newline 2) (f.newline '\n')
  | .none, '\'' :: '\'' :: rest, m, f =>
    if double then quotedFrom double .none rest (m.next 2) ((f.push '\'').push '\'')
    else quotedFrom double .none rest (m.next 2) (f.push '\'')
  | .none, c :: rest, m, f =>
    if isBreak c then quotedFrom double .none rest m.newline (f.newline c)
    else if isBlank c then quotedFrom double .none rest m.next (f.blank c)
    else if m.column = 0 && atDocumentMark (c :: rest) then none
    else if c = (if double then '"' else '\'') then some (f.join, ⟨rest, m.next⟩)
    else if double && c = '\\' then quotedFrom double .started rest m.next f.join
    else quotedFrom double .none rest m.next (f.push c)

/-! ## 4. Block scalars -/

/-- What becomes of the line breaks at the end of a block. -/
inductive Chomping where
  /-- The last line keeps its break. -/
  | clip
  /-- They are dropped. -/
  | strip
  /-- They are kept. -/
  | keep
deriving DecidableEq

/-- The chomping that a sign in the header asks for. -/
def Chomping.ofSign? : Char → Option Chomping
  | '+' => some .keep
  | '-' => some .strip
  | _ => none

/-- The indentation that a digit in the header asks for: `none` if there is no digit, and zero is
none of them. -/
def indentOfDigit? (c : Char) : Option Nat :=
  if '0' ≤ c ∧ c ≤ '9' then some (c.toNat - '0'.toNat) else none

/-- The header of a block, after its first character: chomping and indentation in either order. -/
def blockHeader? (c : Cursor) : Option (Chomping × Option Nat × Cursor) :=
  let chomping? : Option Chomping := c.rest.head?.bind Chomping.ofSign?
  match chomping? with
  | some chomping =>
    let c := c.advance
    match c.rest.head?.bind indentOfDigit? with
    | some 0 => none
    | some n => some (chomping, some n, c.advance)
    | none => some (chomping, none, c)
  | none =>
    match c.rest.head?.bind indentOfDigit? with
    | some 0 => none
    | some n =>
      let c := c.advance
      match c.rest.head?.bind Chomping.ofSign? with
      | some chomping => some (chomping, some n, c.advance)
      | none => some (.clip, some n, c)
    | none => some (.clip, none, c)

/-- The text of a block so far.  All lists have their latest character first. -/
structure Block where
  text : List Char := []
  /-- The break of the last line. -/
  lead : List Char := []
  /-- The breaks of empty lines after the last line. -/
  more : List Char := []
  /-- Whether the last line began with a blank. -/
  indented : Bool := false

namespace Block

/-- Begins a line with the character that is given. -/
def startLine (b : Block) (literal : Bool) (c : Char) : Block :=
  let folds := !literal && b.lead = ['\n'] && !b.indented && !isBlank c
  let gap := if folds then if b.more.isEmpty then [' '] else [] else b.lead
  ⟨c :: (b.more ++ gap ++ b.text), [], [], isBlank c⟩

/-- The text of a block that has ended. -/
def result (b : Block) (chomping : Chomping) : String :=
  let text := if chomping = .strip then b.text else b.lead ++ b.text
  let text := if chomping = .keep then b.more ++ text else text
  .ofList text.reverse

end Block

/-- Reads the lines of a block.  `within` says that the place is within a line.  The indentation
is that of the first line that is not empty, if it is not known; `least` is the smallest it may
be, and `widest` the column of the widest empty line so far. -/
def blockFrom (literal : Bool) (least : Nat) (within : Bool) (indent? : Option Nat) (widest : Nat) :
    List Char → Mark → Block → Option (Block × Cursor)
  | [], m, b => some (b, ⟨[], m⟩)
  | '\r' :: '\n' :: rest, m, b =>
    blockFrom literal least false indent? (max widest m.column) rest (m.newline 2)
      (if within then { b with lead := ['\n'] } else { b with more := '\n' :: b.more })
  | c :: rest, m, b =>
    if isBreak c then
      blockFrom literal least false indent? (max widest m.column) rest m.newline
        (if within then { b with lead := [breakChar c] }
        else { b with more := breakChar c :: b.more })
    else if within then
      blockFrom literal least true indent? widest rest m.next { b with text := c :: b.text }
    else if isBlank c && indent?.all (m.column < ·) then
      if c = ' ' then blockFrom literal least false indent? widest rest m.next b else none
    else
      let indent := indent?.getD (max (max widest m.column) least)
      if m.column = indent then
        blockFrom literal least true (some indent) widest rest m.next (b.startLine literal c)
      else some (b, ⟨c :: rest, m⟩)

/-- Reads a block, after its first character, in a collection that is indented to a column.  The
column of a text that is in no collection is -1. -/
def block? (literal : Bool) (parent : Int) (c : Cursor) : Option (String × Cursor) := do
  let (chomping, digit, c) ← blockHeader? c
  let c ← c.finishLine?
  let indent? := digit.map fun n => (max parent 0).toNat + n
  let least := (max (parent + 1) 1).toNat
  let (b, c) ← blockFrom literal least false indent? 0 c.rest c.mark {}
  return (b.result chomping, c)

end SinkReach.Yaml
