/-
# Numerals

Digits, exponents, and which decimal numbers a double can hold.
-/

namespace SinkReach.Text

/-- The value of a hexadecimal digit. -/
def hexValue? (c : Char) : Option Nat :=
  if '0' ≤ c ∧ c ≤ '9' then some (c.toNat - 48)
  else if 'a' ≤ c ∧ c ≤ 'f' then some (c.toNat - 87)
  else if 'A' ≤ c ∧ c ≤ 'F' then some (c.toNat - 55)
  else none

/-- The number that decimal digits make. -/
def ofDigits (ds : List Char) : Nat := ds.foldl (fun n d => n * 10 + (d.toNat - 48)) 0

/-- Digits and what follows them. -/
def digits (cs : List Char) : List Char × List Char :=
  (cs.takeWhile Char.isDigit, cs.dropWhile Char.isDigit)

/-- The exponent, if one is written. -/
def exponent? (cs : List Char) : Option (Option Int × List Char) :=
  let signed (sign : Int) (cs : List Char) : Option (Option Int × List Char) :=
    let (ds, rest) := digits cs
    if ds.isEmpty then none else some (some (sign * ofDigits ds), rest)
  match cs with
  | 'e' :: '-' :: rest | 'E' :: '-' :: rest => signed (-1) rest
  | 'e' :: '+' :: rest | 'E' :: '+' :: rest => signed 1 rest
  | 'e' :: rest | 'E' :: rest => signed 1 rest
  | _ => some (none, cs)

/-- The least number that no double can hold: halfway past the greatest of them. -/
def doubleBound : Nat := (1 <<< 1024) - (1 <<< 970)

/-- Whether `mantissa * 10 ^ scale` is a number of the doubles.  A mantissa of at most `width`
digits leaves their range on its own once the scale passes 310. -/
def inDoubleRange (mantissa : Nat) (scale : Int) (width : Nat) : Bool :=
  if mantissa = 0 then true
  else if scale ≤ 0 then
    if scale + width < 0 then true else mantissa < doubleBound * Nat.pow 10 (-scale).toNat
  else if 310 < scale then false
  else mantissa * Nat.pow 10 scale.toNat < doubleBound

end SinkReach.Text
