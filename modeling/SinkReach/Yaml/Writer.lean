/-
# Writing YAML

Trees of texts and numbers are written by indentation, with the lists of a record in the column of
its keys.  A text is written PLAIN if it reads back as the same text, and not as anything else;
otherwise between single QUOTES; as a LITERAL block if it has lines; and between double quotes,
with escapes, if nothing else can hold it.
-/
import SinkReach.Text.Numeral
import SinkReach.Yaml.Cursor

namespace SinkReach.Yaml

/-! ## 1. Texts that read as something else -/

/-- The rest of a text after a sign. -/
def dropSign : List Char → List Char
  | '+' :: cs | '-' :: cs => cs
  | cs => cs

/-- Digits with needless zeros in front, which are read as a text by some and as a number by
others. -/
def hasNeedlessZeros (cs : List Char) : Bool :=
  match dropSign cs with
  | '0' :: d :: ds => (d :: ds).all Char.isDigit
  | _ => false

/-- Whether digits in a base make a number up to a bound. -/
def isBaseNumeral (base bound : Nat) (ds : List Char) : Bool :=
  !ds.isEmpty && ds.all (fun d => (Text.hexValue? d).any (· < base))
    && ds.foldl (fun n d => base * n + (Text.hexValue? d).getD 0) 0 < bound

/-- An integer in base 16, 8 or 2, of 128 bits at most. -/
def isRadixNumeral (cs : List Char) : Bool :=
  let bound := if cs.head? = some '-' then (1 <<< 127) + 1 else 1 <<< 128
  match dropSign cs with
  | '0' :: 'x' :: ds => isBaseNumeral 16 bound ds
  | '0' :: 'o' :: ds => isBaseNumeral 8 bound ds
  | '0' :: 'b' :: ds => isBaseNumeral 2 bound ds
  | _ => false

/-- A decimal number that a double can hold.  The digits on one side of the point may be left
out. -/
def isDecimalNumeral (cs : List Char) : Bool :=
  let (whole, rest) := Text.digits (dropSign cs)
  let (frac, rest) := match rest with
    | '.' :: rest => Text.digits rest
    | rest => ([], rest)
  match Text.exponent? rest with
  | some (exp, []) =>
    !(whole.isEmpty && frac.isEmpty) &&
      Text.inDoubleRange (Text.ofDigits (whole ++ frac)) (exp.getD 0 - frac.length)
        (whole.length + frac.length)
  | _ => false

/-- The names of what is no finite number. -/
def isSpecialNumeral (s : String) : Bool :=
  s ∈ [".inf", ".Inf", ".INF", "+.inf", "+.Inf", "+.INF", "-.inf", "-.Inf", "-.INF", ".nan",
    ".NaN", ".NAN"]

/-- Whether a plain scalar with this text reads as something else than a text. -/
def readsAsOther (s : String) : Bool :=
  s ∈ ["", "null", "Null", "NULL", "~", "true", "True", "TRUE", "false", "False", "FALSE"]
    || hasNeedlessZeros s.toList || isRadixNumeral s.toList || isDecimalNumeral s.toList
    || isSpecialNumeral s

/-! ## 2. What a way of writing can hold -/

/-- The characters that may be written as they are. -/
def isPrintable (c : Char) : Bool :=
  let n := c.toNat
  n = 0xA || (0x20 ≤ n && n ≤ 0x7E) || (0xA0 ≤ n && n ≤ 0xFFFD && n ≠ 0xFEFF) || 0x10000 ≤ n

/-- Whether a plain scalar with these characters would begin with something else. -/
def startsWithIndicator : List Char → Bool
  | [] => false
  | c :: rest =>
    ['#', ',', '[', ']', '\x7b', '\x7d', '&', '*', '!', '|', '>', '\'', '"', '%', '@',
        '\x60'].contains c
      || (['?', ':', '-'].contains c && atBlankOrEnd rest)

/-- Whether a plain scalar with these characters would end before they do: at a colon in front of
a blank, or at a comment after one. -/
def hasIndicator : List Char → Bool
  | [] => false
  | c :: rest =>
    (c = ':' && atBlankOrEnd rest) || ((isBlank c || isBreak c) && rest.head? = some '#')
      || hasIndicator rest

/-- Whether characters of one class are followed by such of another anywhere. -/
def hasPair (p q : Char → Bool) : List Char → Bool
  | a :: b :: rest => (p a && q b) || hasPair p q (b :: rest)
  | _ => false

/-- Whether a text can be written as a plain scalar. -/
def fitsPlain (cs : List Char) : Bool :=
  !(startsWithIndicator cs || hasIndicator cs
    || ['-', '-', '-'].isPrefixOf cs || ['.', '.', '.'].isPrefixOf cs
    || cs.head? = some ' ' || cs.getLast? = some ' ' || cs.any isBreak || !cs.all isPrintable)

/-- Whether a text can be written between single quotes. -/
def fitsSingle (cs : List Char) : Bool :=
  cs.all isPrintable && !hasPair (· = ' ') isBreak cs && !hasPair isBreak (· = ' ') cs

/-- Whether a text can be written as a literal block. -/
def fitsLiteral (cs : List Char) : Bool :=
  cs.all isPrintable && !hasPair (· = ' ') isBreak cs && cs.getLast? ≠ some ' '

/-! ## 3. The ways of writing -/

/-- A number of spaces. -/
def spaces (n : Nat) : List Char := List.replicate n ' '

/-- The characters between single quotes.  A quote is doubled, and the line after a break is
indented.  `broken` says that a line has just ended. -/
def singleChars (indent : Nat) (broken : Bool) : List Char → List Char
  | [] => if broken then spaces indent else []
  | c :: rest =>
    if isBreak c then c :: singleChars indent true rest
    else if c = ' ' then c :: singleChars indent broken rest
    else (if broken then spaces indent else []) ++ (if c = '\'' then [c, c] else [c])
      ++ singleChars indent false rest

/-- The hexadecimal digits of a number, upper case, of a width. -/
def hexChars (width n : Nat) : List Char :=
  let digits := (Nat.toDigits 16 n).map Char.toUpper
  List.replicate (width - digits.length) '0' ++ digits

/-- A character between double quotes. -/
def doubleChar (c : Char) : List Char :=
  match c with
  | '\x00' => ['\\', '0']
  | '\x07' => ['\\', 'a']
  | '\x08' => ['\\', 'b']
  | '\t' => ['\\', 't']
  | '\n' => ['\\', 'n']
  | '\x0b' => ['\\', 'v']
  | '\x0c' => ['\\', 'f']
  | '\r' => ['\\', 'r']
  | '\x1b' => ['\\', 'e']
  | '"' => ['\\', '"']
  | '\\' => ['\\', '\\']
  | '\u0085' => ['\\', 'N']
  | '\u2028' => ['\\', 'L']
  | '\u2029' => ['\\', 'P']
  | c =>
    if isPrintable c then [c]
    else if c.toNat ≤ 0xFF then ['\\', 'x'] ++ hexChars 2 c.toNat
    else if c.toNat ≤ 0xFFFF then ['\\', 'u'] ++ hexChars 4 c.toNat
    else ['\\', 'U'] ++ hexChars 8 c.toNat

/-- How a literal block treats the breaks at its end: nothing where the last line keeps its break,
`-` where it has none, and `+` where more are to be kept. -/
def chompingSign (cs : List Char) : List Char :=
  match cs.reverse with
  | [] => ['-']
  | [c] => if isBreak c then ['+'] else ['-']
  | c :: d :: _ => if !isBreak c then ['-'] else if isBreak d then ['+'] else []

/-- The lines of a literal block.  `broken` says that a line has just ended. -/
def literalChars (indent : Nat) (broken : Bool) : List Char → List Char
  | [] => []
  | c :: rest =>
    if isBreak c then c :: literalChars indent true rest
    else (if broken then spaces indent else []) ++ c :: literalChars indent false rest

/-- A literal block.  Where it begins with a blank its indentation is given. -/
def literalBlock (indent : Nat) (cs : List Char) : List Char :=
  let hint := if cs.head?.any (fun c => c = ' ' || isBreak c) then ['2'] else []
  '|' :: hint ++ chompingSign cs ++ '\n' :: literalChars indent true cs

/-- A text as it is written, with further lines indented to a column. -/
def writeText (indent : Nat) (s : String) : List Char :=
  let cs := s.toList
  if cs.contains '\n' && fitsLiteral cs then literalBlock indent cs
  else if !cs.contains '\n' && !readsAsOther s && fitsPlain cs then cs
  else if !cs.contains '\n' && fitsSingle cs then '\'' :: singleChars indent false cs ++ ['\'']
  else '"' :: cs.flatMap doubleChar ++ ['"']

/-! ## 4. Trees -/

/-- What is written. -/
inductive Tree where
  | text (s : String)
  | number (n : Nat)
  | list (items : List Tree)
  | record (fields : List (String × Tree))

/-- Ends a line, if it has not ended yet. -/
def endLine (cs : List Char) : List Char := if cs.getLast?.any isBreak then cs else cs ++ ['\n']

mutual

/-- A tree after a key or a dash, from the blank on.  `indent` is the column of what belongs to
it, and `hanging` says that the fields of a record begin on the same line. -/
def Tree.write (indent : Nat) (hanging : Bool) : Tree → List Char
  | .text s => ' ' :: endLine (writeText (indent + 2) s)
  | .number n => ' ' :: (toString n).toList ++ ['\n']
  | .list [] => [' ', '[', ']', '\n']
  | .list items => '\n' :: writeItems indent items
  | .record [] => [' ', '\x7b', '\x7d', '\n']
  | .record fields =>
    if hanging then ' ' :: writeFields (indent + 2) true fields
    else '\n' :: writeFields (indent + 2) false fields

/-- The items of a list at a column. -/
def writeItems (indent : Nat) : List Tree → List Char
  | [] => []
  | item :: items => spaces indent ++ '-' :: item.write indent true ++ writeItems indent items

/-- The fields of a record at a column; the place may be there already. -/
def writeFields (indent : Nat) (there : Bool) : List (String × Tree) → List Char
  | [] => []
  | (key, value) :: fields =>
    (if there then [] else spaces indent) ++ key.toList ++ ':' :: value.write indent false
      ++ writeFields indent false fields

end

end SinkReach.Yaml
