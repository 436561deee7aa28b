/-
# Reading JSON text

A strict reader: the text is one value with blanks around it and nothing else.  Only the four
ASCII blanks separate; numbers have no leading zeros and no bare points; strings have no raw
control characters and no escapes but the standard ones.

`Json.read? limit text` allows `limit` brackets to be open at once.
-/
import SinkReach.Json.Basic
import SinkReach.Text.Numeral

namespace SinkReach.Json.Reader

open Text (hexValue? ofDigits digits exponent? inDoubleRange)

/-! ## 1. Blanks and strings -/

/-- The blanks between tokens. -/
def isSeparator (c : Char) : Bool := c = ' ' || c = '\t' || c = '\n' || c = '\r'

/-- Passes over blanks. -/
def skip (cs : List Char) : List Char := cs.dropWhile isSeparator

/-- The code unit of four hexadecimal digits. -/
def unit? (a b c d : Char) : Option Nat := do
  return (((← hexValue? a) * 16 + (← hexValue? b)) * 16 + (← hexValue? c)) * 16 + (← hexValue? d)

/-- What a one-letter escape stands for. -/
def escape? : Char → Option Nat
  | '"' => some 0x22
  | '\\' => some 0x5c
  | '/' => some 0x2f
  | 'b' => some 0x8
  | 'f' => some 0xc
  | 'n' => some 0xa
  | 'r' => some 0xd
  | 't' => some 0x9
  | _ => none

/-- The code units of a string up to its closing quote, and what follows the quote.  The units
already read are handed along in reverse. -/
def units? (done : List Nat) : List Char → Option (List Nat × List Char)
  | [] => none
  | '"' :: rest => some (done.reverse, rest)
  | '\\' :: 'u' :: a :: b :: c :: d :: rest =>
    match unit? a b c d with
    | some n => units? (n :: done) rest
    | none => none
  | '\\' :: c :: rest =>
    match escape? c with
    | some n => units? (n :: done) rest
    | none => none
  | c :: rest => if c.toNat < 0x20 then none else units? (c.toNat :: done) rest

/-- Joins surrogate pairs; `none` where half of a pair stands alone. -/
def joinSurrogates? (done : List Char) : List Nat → Option (List Char)
  | [] => some done.reverse
  | n :: rest =>
    if 0xdc00 ≤ n ∧ n < 0xe000 then none
    else if 0xd800 ≤ n ∧ n < 0xdc00 then
      match rest with
      | m :: rest =>
        if 0xdc00 ≤ m ∧ m < 0xe000 then
          joinSurrogates? (.ofNat (0x10000 + (n - 0xd800) * 0x400 + (m - 0xdc00)) :: done) rest
        else none
      | [] => none
    else joinSurrogates? (.ofNat n :: done) rest

/-- A string after its opening quote: its text, if it has one, and what follows. -/
def string? (cs : List Char) : Option (Option String × List Char) := do
  let (units, rest) ← units? [] cs
  return ((joinSurrogates? [] units).map .ofList, rest)

/-! ## 2. Numbers -/

/-- The digits after a decimal point; none where there is no point. -/
def fraction? (cs : List Char) : Option (List Char × List Char) :=
  match cs with
  | '.' :: rest =>
    let (ds, rest) := digits rest
    if ds.isEmpty then none else some (ds, rest)
  | _ => some ([], cs)

/-- A number at the head of the text. -/
def number? (cs : List Char) : Option (Json × List Char) := do
  let (negative, body) := match cs with
    | '-' :: rest => (true, rest)
    | _ => (false, cs)
  let (whole, afterWhole) := digits body
  if whole.isEmpty ∨ (whole.head? = some '0' ∧ 1 < whole.length) then none
  else
    let (frac, afterFrac) ← fraction? afterWhole
    let (exp, rest) ← exponent? afterFrac
    let mantissa := ofDigits (whole ++ frac)
    let scale := exp.getD 0 - frac.length
    if !inDoubleRange mantissa scale (whole.length + frac.length) then
      return (.unreadable, rest)
    else if frac.isEmpty ∧ exp.isNone ∧ ¬ (negative ∧ mantissa = 0) then
      return (.int (if negative then -mantissa else mantissa), rest)
    else
      return (.real (.ofList (cs.take (cs.length - rest.length))), rest)

/-! ## 3. Values -/

mutual

/-- A value, with at most `limit` more brackets open.  Each call spends one unit of fuel. -/
def value? : Nat → Nat → List Char → Option (Json × List Char)
  | 0, _, _ => none
  | fuel + 1, limit, cs =>
    match skip cs with
    | 'n' :: 'u' :: 'l' :: 'l' :: rest => some (.null, rest)
    | 't' :: 'r' :: 'u' :: 'e' :: rest => some (.bool true, rest)
    | 'f' :: 'a' :: 'l' :: 's' :: 'e' :: rest => some (.bool false, rest)
    | '"' :: rest => do
      let (s, rest) ← string? rest
      return (match s with | some s => .str s | none => .unreadable, rest)
    | '[' :: rest => do
      let (items, rest) ← match skip rest with
        | ']' :: rest => some ([], rest)
        | rest => items? fuel (limit - 1) [] rest
      return (if limit = 0 then .unreadable else .arr items, rest)
    | '\x7b' :: rest => do
      let (fields, rest) ← match skip rest with
        | '\x7d' :: rest => some (some [], rest)
        | rest => fields? fuel (limit - 1) (some []) rest
      return (match fields with
        | some fields => if limit = 0 then .unreadable else .obj fields
        | none => .unreadable, rest)
    | cs => number? cs

/-- The items of an array after its opening bracket, those already read handed along in
reverse. -/
def items? : Nat → Nat → List Json → List Char → Option (List Json × List Char)
  | 0, _, _, _ => none
  | fuel + 1, limit, done, cs =>
    match value? fuel limit cs with
    | none => none
    | some (v, rest) =>
      match skip rest with
      | ',' :: rest => items? fuel limit (v :: done) rest
      | ']' :: rest => some ((v :: done).reverse, rest)
      | _ => none

/-- The fields of an object after its opening brace, those already read handed along in reverse.
A name that cannot be held makes the whole object unreadable. -/
def fields? : Nat → Nat → Option (List (String × Json)) → List Char →
    Option (Option (List (String × Json)) × List Char)
  | 0, _, _, _ => none
  | fuel + 1, limit, done, cs =>
    match skip cs with
    | '"' :: rest =>
      match string? rest with
      | none => none
      | some (name, rest) =>
        match skip rest with
        | ':' :: rest =>
          match value? fuel limit rest with
          | none => none
          | some (v, rest) =>
            let done := match name, done with
              | some name, some done => some ((name, v) :: done)
              | _, _ => none
            match skip rest with
            | ',' :: rest => fields? fuel limit done rest
            | '\x7d' :: rest => some (done.map List.reverse, rest)
            | _ => none
        | _ => none
    | _ => none

end

end Reader

/-- The value of a JSON text in which at most `limit` brackets are open at once.  Every call that
reads a value, an item or a field and does not take a character itself is followed by one that
does, so twice the length of the text is fuel enough. -/
def read? (limit : Nat) (text : String) : Option Json :=
  let cs := text.toList
  match Reader.value? (2 * cs.length + 2) limit cs with
  | some (v, rest) => if (Reader.skip rest).isEmpty then some v else none
  | none => none

end SinkReach.Json
