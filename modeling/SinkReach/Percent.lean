/-
# Percentages

A share of a total is given as a percentage in double precision: the count is divided by the
total and the quotient multiplied by a hundred, each result rounded to the nearest double.  What
is printed is the exact value of that double, rounded to the places asked for.  A tie goes to the
even neighbour in both.

All of it is arithmetic on natural numbers: a double is a mantissa and a power of two.
-/

namespace SinkReach

/-- The number `mantissa * 2 ^ exponent`. -/
structure Binary where
  mantissa : Nat
  exponent : Int
deriving DecidableEq

/-- The quotient rounded to the nearest integer, a tie to the even one. -/
def roundDiv (num den : Nat) : Nat :=
  let q := num / den
  let r := num % den
  if 2 * r < den then q
  else if den < 2 * r then q + 1
  else if q % 2 = 0 then q else q + 1

namespace Binary

/-- The double nearest to `num / den * 2 ^ scale`.  The quotient is first scaled so that it has 53
or 54 bits before the point, and then to exactly 53. -/
def nearest (num den : Nat) (scale : Int) : Binary :=
  if num = 0 ∨ den = 0 then ⟨0, 0⟩
  else
    let shift : Int := (num.log2 : Int) - den.log2 - 52
    let at' (s : Int) : Nat × Nat :=
      if 0 ≤ s then (num, den <<< s.toNat) else (num <<< (-s).toNat, den)
    let (n, d) := at' shift
    if n / d < 1 <<< 52 then
      let (n, d) := at' (shift - 1)
      ⟨roundDiv n d, shift - 1 + scale⟩
    else ⟨roundDiv n d, shift + scale⟩

/-- The double nearest to a natural number. -/
def ofNat (n : Nat) : Binary := nearest n 1 0

/-- The double nearest to a quotient of doubles. -/
def div (a b : Binary) : Binary := nearest a.mantissa b.mantissa (a.exponent - b.exponent)

/-- The double nearest to a multiple of a double. -/
def scale (a : Binary) (k : Nat) : Binary := nearest (a.mantissa * k) 1 a.exponent

/-- The number rounded to a number of decimal places. -/
def fixed (a : Binary) (places : Nat) : String :=
  let unit := Nat.pow 10 places
  let scaled := a.mantissa * unit
  let n := if 0 ≤ a.exponent then scaled <<< a.exponent.toNat
    else roundDiv scaled (1 <<< (-a.exponent).toNat)
  let digits := toString (n % unit)
  let padding := String.ofList (List.replicate (places - digits.length) '0')
  toString (n / unit) ++ "." ++ padding ++ digits

end Binary

/-- A share of a total as a percentage; of nothing, it is zero. -/
def percentage (count total : Nat) : Binary :=
  if total = 0 then ⟨0, 0⟩ else ((Binary.ofNat count).div (.ofNat total)).scale 100

end SinkReach
