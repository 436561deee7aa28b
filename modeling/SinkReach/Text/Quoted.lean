/-
# Quoted text

How a string constant is shown inside a term: between double quotes, with the characters that
would end or garble it escaped.  A quote and a backslash take a backslash, the five common
controls take their letter, and every other character that is not printable is written by its
code in lower-case hexadecimal between braces.
-/
import SinkReach.Text.Printable

namespace SinkReach.Text

/-- The hexadecimal digits of a number, lower case, without leading zeros. -/
def hexDigits (n : Nat) : List Char := Nat.toDigits 16 n

/-- One character of a quoted text. -/
def quoteChar (c : Char) : List Char :=
  match c with
  | '"' => ['\\', '"']
  | '\\' => ['\\', '\\']
  | '\n' => ['\\', 'n']
  | '\r' => ['\\', 'r']
  | '\t' => ['\\', 't']
  | '\x00' => ['\\', '0']
  | _ => if isPrintable c then [c] else ['\\', 'u', '\x7b'] ++ hexDigits c.toNat ++ ['\x7d']

/-- A string as it is shown inside a term. -/
def quoted (s : String) : String :=
  .ofList ('"' :: s.toList.flatMap quoteChar ++ ['"'])

end SinkReach.Text
