/-
# Tokens of a YAML text

The text is cut into tokens: scalars, names, and the marks of documents and collections.  A
collection that is written by INDENTATION has no marks of its own in the text; the tokens that
open and close it follow from the columns in which its entries stand.

A key is only known by the `:` after it.  Wherever one may begin, the place is kept as a
CANDIDATE, and the tokens for the key, and for the mapping if it begins there, are put in at that
place when the `:` comes.
-/
import SinkReach.Yaml.Scalar

namespace SinkReach.Yaml

inductive Token where
  | versionDirective (major minor : Nat)
  | tagDirective (handle text : String)
  | documentStart
  | documentEnd
  | blockSequenceStart
  | blockMappingStart
  | blockEnd
  | flowSequenceStart
  | flowSequenceEnd
  | flowMappingStart
  | flowMappingEnd
  | blockEntry
  | flowEntry
  | key
  | value
  | alias (name : String)
  | anchor (name : String)
  | tag (handle suffix : String)
  | scalar (style : ScalarStyle) (text : String)
deriving DecidableEq

/-! ## 1. The state -/

/-- A place where a key may have begun. -/
structure Candidate where
  /-- The number of tokens before it. -/
  position : Nat
  mark : Mark
  /-- Whether nothing but a key can stand there. -/
  required : Bool

/-- The state of cutting a text into tokens. -/
structure Scanner where
  cursor : Cursor
  /-- The number of flow collections that are open. -/
  flow : Nat := 0
  /-- The column of the innermost collection that is written by indentation; -1 outside of all. -/
  indent : Int := -1
  /-- The columns of those around it. -/
  outer : List Int := []
  /-- Whether a key may begin at this place. -/
  keyAllowed : Bool := true
  /-- The candidate at each level of flow collections, the innermost first. -/
  candidates : List (Option Candidate) := [none]
  tokens : Array Token := #[]

namespace Scanner

def emit (s : Scanner) (t : Token) : Scanner := { s with tokens := s.tokens.push t }

/-- The text from the place on. -/
def rest (s : Scanner) : List Char := s.cursor.rest

/-- The column of the place. -/
def column (s : Scanner) : Int := s.cursor.mark.column

/-- Puts in a token in front of those after a number of others. -/
def insertAt (s : Scanner) (position : Nat) (t : Token) : Scanner :=
  { s with tokens := s.tokens.take position ++ #[t] ++ s.tokens.drop position }

/-- After a number of characters, which are a token. -/
def consume (s : Scanner) (n : Nat) (t : Token) : Scanner :=
  { s.emit t with cursor := s.cursor.advanceBy n }

/-! ## 2. Indentation -/

/-- Opens a collection at a column, unless it stands in the innermost one already. -/
def openBlock (s : Scanner) (column : Int) (t : Token) (position : Nat) : Scanner :=
  if s.flow = 0 ∧ s.indent < column then
    { s.insertAt position t with indent := column, outer := s.indent :: s.outer }
  else s

/-- The collections that end before a column, and those that stay open. -/
def closeBlocks (column indent : Int) :
    List Int → Array Token → Int × List Int × Array Token
  | [], tokens => (indent, [], tokens)
  | i :: outer, tokens =>
    if column < indent then closeBlocks column i outer (tokens.push .blockEnd)
    else (indent, i :: outer, tokens)

/-- Closes the collections that end before a column. -/
def closeTo (s : Scanner) (column : Int) : Scanner :=
  if s.flow = 0 then
    let (indent, outer, tokens) := closeBlocks column s.indent s.outer s.tokens
    { s with indent, outer, tokens }
  else s

/-! ## 3. Candidates -/

/-- The candidate of the innermost level. -/
def candidate? (s : Scanner) : Option Candidate := s.candidates.head?.join

/-- Replaces the candidate of the innermost level. -/
def setCandidate (s : Scanner) (c : Option Candidate) : Scanner :=
  { s with candidates := c :: s.candidates.tail }

/-- Gives up the candidate of the innermost level; one that is required cannot be given up. -/
def dropCandidate? (s : Scanner) : Option Scanner :=
  match s.candidate? with
  | some c => if c.required then none else some (s.setCandidate none)
  | none => some s

/-- Keeps the place as a candidate, if a key may begin there. -/
def saveCandidate? (s : Scanner) : Option Scanner :=
  if s.keyAllowed then do
    let s ← s.dropCandidate?
    return s.setCandidate (some ⟨s.tokens.size, s.cursor.mark, s.flow = 0 ∧ s.indent = s.column⟩)
  else some s

/-- Whether a candidate is too far back: a key stands on one line and has 1024 characters at
most. -/
def Candidate.isStale (c : Candidate) (m : Mark) : Bool :=
  c.mark.line < m.line || c.mark.index + 1024 < m.index

/-- Gives up the candidates that are too far back. -/
def dropStale? (s : Scanner) : Option Scanner := do
  let candidates ← s.candidates.mapM fun
    | some c => if Candidate.isStale c s.cursor.mark then
        if c.required then none else some none
      else some (some c)
    | none => some none
  return { s with candidates }

/-! ## 4. Blanks and comments -/

/-- Passes over blanks, comments and line breaks.  A tab counts as a blank where no key may begin,
and in flow collections.  Outside of these a key may begin on every new line. -/
def skipFrom (flow : Bool) (keyAllowed comment : Bool) : List Char → Mark → Bool × Cursor
  | [], m => (keyAllowed, ⟨[], m⟩)
  | '\r' :: '\n' :: rest, m => skipFrom flow (keyAllowed || !flow) false rest (m.newline 2)
  | c :: rest, m =>
    if isBreak c then skipFrom flow (keyAllowed || !flow) false rest m.newline
    else if comment || c = ' ' || (c = '\t' && (flow || !keyAllowed))
        || (c = byteOrderMark && m.index = 0) then
      skipFrom flow keyAllowed comment rest m.next
    else if c = '#' then skipFrom flow keyAllowed true rest m.next
    else (keyAllowed, ⟨c :: rest, m⟩)

/-- Goes on to the next token. -/
def skip (s : Scanner) : Scanner :=
  let (keyAllowed, cursor) := skipFrom (0 < s.flow) s.keyAllowed false s.rest s.cursor.mark
  { s with keyAllowed, cursor }

/-! ## 5. Names, tags and directives -/

/-- A name after its first character, which says whether it is an anchor or an alias. -/
def anchorName? (c : Cursor) : Option (String × Cursor) :=
  let (name, c) := c.advance.takeWhile isNameChar
  if name.isEmpty then none
  else if atBlankOrEnd c.rest
      || c.rest.head?.any (fun d => ['?', ':', ',', ']', '\x7d', '%', '@', '\x60'].contains d) then
    some (.ofList name, c)
  else none

/-- A character of a tag, outside of `<` and `>`. -/
def isTagChar (c : Char) : Bool :=
  isNameChar c || [';', '/', '?', ':', '@', '&', '=', '+', '$', '.', '!', '~', '*', '\'', '(',
    ')'].contains c

/-- A character of a tag that is written in full. -/
def isUriChar (c : Char) : Bool := isTagChar c || [',', '[', ']'].contains c

/-- The bytes written as `%` and two digits, one after the other. -/
def uriBytes : Nat → List Char → List UInt8 × List Char
  | 0, cs => ([], cs)
  | fuel + 1, '%' :: a :: b :: rest =>
    match Text.hexValue? a, Text.hexValue? b with
    | some x, some y =>
      let (bytes, rest) := uriBytes fuel rest
      (.ofNat (16 * x + y) :: bytes, rest)
    | _, _ => ([], '%' :: a :: b :: rest)
  | _ + 1, cs => ([], cs)

/-- The number of bytes of the character that a byte begins. -/
def utf8Width? (b : UInt8) : Option Nat :=
  if b < 0x80 then some 1
  else if 0xC0 ≤ b ∧ b < 0xE0 then some 2
  else if 0xE0 ≤ b ∧ b < 0xF0 then some 3
  else if 0xF0 ≤ b ∧ b < 0xF8 then some 4
  else none

/-- A character written by its bytes, and the number of characters that it is written with. -/
def uriEscape? (cs : List Char) : Option (String × Nat) := do
  let width ← utf8Width? (← (uriBytes 1 cs).1.head?)
  let bytes := (uriBytes width cs).1
  if bytes.length = width then
    return (← String.fromUTF8? ⟨bytes.toArray⟩, 3 * width)
  else none

/-- The characters of a tag, of a class.  The first argument bounds the number of characters. -/
def uriText? (p : Char → Bool) : Nat → Cursor → Option (String × Cursor)
  | 0, c => some ("", c)
  | fuel + 1, c =>
    match c.rest with
    | '%' :: _ => do
      let (text, n) ← uriEscape? c.rest
      let (more, c) ← uriText? p fuel (c.advanceBy n)
      return (text ++ more, c)
    | d :: _ =>
      if p d then do
        let (more, c) ← uriText? p fuel c.advance
        return (String.singleton d ++ more, c)
      else some ("", c)
    | [] => some ("", c)

/-- The handle at the beginning of a tag: an exclamation mark, and possibly a name and another. -/
def tagHandle? (c : Cursor) : Option (String × Cursor) :=
  if c.rest.head? = some '!' then
    let (name, c) := c.advance.takeWhile isNameChar
    if c.rest.head? = some '!' then some ("!" ++ .ofList name ++ "!", c.advance)
    else some ("!" ++ .ofList name, c)
  else none

/-- Handle and suffix of a tag.  A tag written in full has no handle. -/
def tagParts? (c : Cursor) : Option (String × String × Cursor) :=
  match c.rest with
  | '!' :: '<' :: _ => do
    let c := c.advanceBy 2
    let (uri, c) ← uriText? isUriChar c.rest.length c
    if uri = "" ∨ c.rest.head? ≠ some '>' then none else some ("", uri, c.advance)
  | _ => do
    let (handle, c) ← tagHandle? c
    let (text, c) ← uriText? isTagChar c.rest.length c
    if handle.length > 1 ∧ handle.endsWith "!" then
      if text = "" then none else some (handle, text, c)
    else
      let suffix := (handle.drop 1).toString ++ text
      if suffix = "" then some ("", "!", c) else some ("!", suffix, c)

/-- A tag. -/
def tag? (flow : Bool) (c : Cursor) : Option (Token × Cursor) := do
  let (handle, suffix, c) ← tagParts? c
  if (flow && c.rest.head? = some ',') || atBlankOrEnd c.rest then some (.tag handle suffix, c)
  else none

/-- A number of a version, of nine digits at most. -/
def versionNumber? (c : Cursor) : Option (Nat × Cursor) :=
  let (digits, c) := c.takeWhile Char.isDigit
  if digits.isEmpty ∨ 9 < digits.length then none
  else some (digits.foldl (fun n d => 10 * n + (d.toNat - '0'.toNat)) 0, c)

/-- A directive, which is a line of its own. -/
def directive? (c : Cursor) : Option (Token × Cursor) := do
  let (name, c) := c.advance.takeWhile isNameChar
  if !atBlankOrEnd c.rest then none
  let c := c.dropWhile isBlank
  match String.ofList name with
  | "YAML" =>
    let (major, c) ← versionNumber? c
    if c.rest.head? ≠ some '.' then none
    let (minor, c) ← versionNumber? c.advance
    return (.versionDirective major minor, ← c.finishLine?)
  | "TAG" =>
    let (handle, c) ← tagHandle? c
    if handle ≠ "!" ∧ !handle.endsWith "!" then none
    if !c.rest.head?.any isBlank then none
    let c := c.dropWhile isBlank
    let (uri, c) ← uriText? isUriChar c.rest.length c
    if uri = "" ∨ !atBlankOrEnd c.rest then none
    return (.tagDirective handle uri, ← c.finishLine?)
  | _ => none

/-! ## 6. One token -/

/-- A mark between documents, or a directive: all collections end. -/
def betweenDocuments? (s : Scanner) : Option Scanner := do
  let s ← (s.closeTo (-1)).dropCandidate?
  return { s with keyAllowed := false }

/-- Opens a flow collection. -/
def openFlow? (s : Scanner) (t : Token) : Option Scanner := do
  let s ← s.saveCandidate?
  return { s.consume 1 t with
    flow := s.flow + 1, candidates := none :: s.candidates, keyAllowed := true }

/-- Closes a flow collection. -/
def closeFlow? (s : Scanner) (t : Token) : Option Scanner := do
  let s ← s.dropCandidate?
  let s := if s.flow = 0 then s
    else { s with flow := s.flow - 1, candidates := s.candidates.tail }
  return { s.consume 1 t with keyAllowed := false }

/-- A comma. -/
def flowEntry? (s : Scanner) : Option Scanner := do
  let s ← s.dropCandidate?
  return { s.consume 1 .flowEntry with keyAllowed := true }

/-- The dash of an entry. -/
def blockEntry? (s : Scanner) : Option Scanner := do
  if s.flow = 0 ∧ !s.keyAllowed then none
  let s ← (s.openBlock s.column .blockSequenceStart s.tokens.size).dropCandidate?
  return { s.consume 1 .blockEntry with keyAllowed := true }

/-- The question mark in front of a key. -/
def explicitKey? (s : Scanner) : Option Scanner := do
  if s.flow = 0 ∧ !s.keyAllowed then none
  let s ← (s.openBlock s.column .blockMappingStart s.tokens.size).dropCandidate?
  return { s.consume 1 .key with keyAllowed := s.flow = 0 }

/-- The colon in front of a value.  If there is a candidate, it was a key. -/
def value? (s : Scanner) : Option Scanner :=
  match s.candidate? with
  | some c =>
    let s := s.insertAt c.position .key
    let s := s.openBlock c.mark.column .blockMappingStart c.position
    some { (s.setCandidate none).consume 1 .value with keyAllowed := false }
  | none => do
    if s.flow = 0 ∧ !s.keyAllowed then none
    let s := s.openBlock s.column .blockMappingStart s.tokens.size
    return { s.consume 1 .value with keyAllowed := s.flow = 0 }

/-- An anchor, an alias or a tag. -/
def property? (s : Scanner) (read : Cursor → Option (Token × Cursor)) : Option Scanner := do
  let s ← s.saveCandidate?
  let (t, cursor) ← read s.cursor
  return { s.emit t with cursor, keyAllowed := false }

/-- A block scalar. -/
def blockScalar? (s : Scanner) (literal : Bool) : Option Scanner := do
  let s ← s.dropCandidate?
  let (text, cursor) ← block? literal s.indent s.cursor.advance
  return { s.emit (.scalar (if literal then .literal else .folded) text) with
    cursor, keyAllowed := true }

/-- A quoted scalar. -/
def quotedScalar? (s : Scanner) (double : Bool) : Option Scanner := do
  let s ← s.saveCandidate?
  let start := s.cursor.advance
  let (f, cursor) ← quotedFrom double .none start.rest start.mark {}
  return { s.emit (.scalar .quoted f.result) with cursor, keyAllowed := false }

/-- A plain scalar. -/
def plainScalar? (s : Scanner) : Option Scanner := do
  let s ← s.saveCandidate?
  let (f, cursor) ← plainFrom (0 < s.flow) (s.indent + 1).toNat s.rest s.cursor.mark {}
  return { s.emit (.scalar .plain f.result) with cursor, keyAllowed := f.broken }

/-- The characters that have a meaning of their own at the beginning of a token. -/
def indicators : List Char :=
  ['-', '?', ':', ',', '[', ']', '\x7b', '\x7d', '#', '&', '*', '!', '|', '>', '\'', '"', '%', '@',
    '\x60']

/-- Whether a plain scalar may begin with a character. -/
def startsPlain (flow : Bool) (c : Char) (rest : List Char) : Bool :=
  (!indicators.contains c && !isBlank c) || (c = '-' && !rest.head?.any isBlank)
    || (!flow && (c = '?' || c = ':') && !atBlankOrEnd rest)

/-- Reads one token, at a place that is not the end. -/
def token? (s : Scanner) : Option Scanner :=
  let flow : Bool := 0 < s.flow
  let startsLine := s.cursor.mark.column = 0
  match s.rest with
  | [] => none
  | c :: rest =>
    if startsLine && c = '%' then do
      (← s.betweenDocuments?).property? directive?
    else if startsLine && atDocumentMark (c :: rest) then do
      return (← s.betweenDocuments?).consume 3 (if c = '-' then .documentStart else .documentEnd)
    else if c = '[' then s.openFlow? .flowSequenceStart
    else if c = '\x7b' then s.openFlow? .flowMappingStart
    else if c = ']' then s.closeFlow? .flowSequenceEnd
    else if c = '\x7d' then s.closeFlow? .flowMappingEnd
    else if c = ',' then s.flowEntry?
    else if c = '-' && atBlankOrEnd rest then s.blockEntry?
    else if c = '?' && (flow || atBlankOrEnd rest) then s.explicitKey?
    else if c = ':' && (flow || atBlankOrEnd rest) then s.value?
    else if c = '*' then s.property? fun c => (anchorName? c).map fun (n, c) => (.alias n, c)
    else if c = '&' then s.property? fun c => (anchorName? c).map fun (n, c) => (.anchor n, c)
    else if c = '!' then s.property? (tag? flow)
    else if c = '|' && !flow then s.blockScalar? true
    else if c = '>' && !flow then s.blockScalar? false
    else if c = '\'' then s.quotedScalar? false
    else if c = '"' then s.quotedScalar? true
    else if startsPlain flow c rest then s.plainScalar?
    else none

/-! ## 7. All tokens -/

/-- Ends the text: all collections end, and no key may be missing. -/
def finish? (s : Scanner) : Option (List Token) := do
  let s ← s.betweenDocuments?
  return s.tokens.toList

/-- Reads tokens to the end of the text; the first argument bounds their number. -/
def run? : Nat → Scanner → Option (List Token)
  | 0, _ => none
  | fuel + 1, s => do
    let s ← s.skip.dropStale?
    let s := s.closeTo s.column
    if s.rest.isEmpty then s.finish? else run? fuel (← s.token?)

end Scanner

/-- The tokens of a text.  Every token has a character of its own, so their number is bounded by
that of the characters. -/
def Token.scan? (text : String) : Option (List Token) :=
  let cs := text.toList
  if cs.all isAllowed then
    let cs := if cs.head? = some byteOrderMark then cs.tail else cs
    Scanner.run? (cs.length + 1) { cursor := ⟨cs, {}⟩ }
  else none

end SinkReach.Yaml
