/-
# Integers: unbounded, or words of a given width

Arithmetic is carried out exactly and its result is then brought into the domain.  Under the
UNBOUNDED reading the domain is what a 64-bit word can hold, and a result outside it is not
represented at all: a wrapped number never passes for an exact one.  Under the WRAPPING reading
a result is cut to a number of bits, at least 1 and at most 64, and read as two's complement.

Division follows the reading: Euclidean for unbounded integers, toward zero for words.
-/
import SinkReach.Term.Basic

namespace SinkReach

/-- How integers behave. -/
inductive IntSemantics where
  /-- Mathematical integers, as far as a 64-bit word can hold them. -/
  | unbounded
  /-- Two's complement words of the given width. -/
  | wrapping (bits : UInt32)
deriving DecidableEq

/-- The number of bits a width stands for: at least 1 and at most 64. -/
def clampWidth (bits : UInt32) : Nat := max 1 (min 64 bits.toNat)

/-- Keeps the low bits of a 128-bit word and repeats the topmost of them up to 64 bits: the word
is shifted left until the bits below the width stand at the top, and shifted back with its sign. -/
def wrap (v : Int) (bits : UInt32) : Int64 :=
  let shift := 128 - clampWidth bits
  .ofBitVec (((BitVec.ofInt 128 v <<< shift).sshiftRight shift).setWidth 64)

/-- Reads the low bits of a raw 64-bit pattern as two's complement. -/
def signExtend (raw : UInt64) (bits : UInt32) : Int64 := wrap raw.toNat bits

/-- An exact integer as a 64-bit word, if it is one. -/
def exactWord (v : Int) : Option Int64 :=
  if -0x8000000000000000 ≤ v ∧ v < 0x8000000000000000 then some (.ofInt v) else none

namespace IntSemantics

/-- Brings an exact result into the domain; `none` where the domain does not have it. -/
def normalize : IntSemantics → Int → Option Int64
  | .unbounded, v => exactWord v
  | .wrapping bits, v => some (wrap v bits)

/-- Whether results wrap around. -/
def isWrapping : IntSemantics → Bool
  | .unbounded => false
  | .wrapping _ => true

/-- The reading in words. -/
def render : IntSemantics → String
  | .unbounded => "unbounded"
  | .wrapping bits => "wrapping(" ++ toString bits.toNat ++ " bits)"

end IntSemantics

/-- The exact result of an operation; there is none for a division by zero. -/
def ArithOp.exact (sem : IntSemantics) : ArithOp → Int → Int → Option Int
  | .add, l, r => some (l + r)
  | .sub, l, r => some (l - r)
  | .mul, l, r => some (l * r)
  | .div, l, r =>
    if r = 0 then none
    else match sem with
      | .unbounded => some (l / r)
      | .wrapping _ => some (l.tdiv r)
  | .rem, l, r =>
    if r = 0 then none
    else match sem with
      | .unbounded => some (l % r)
      | .wrapping _ => some (l.tmod r)

/-- An operation on words: exact first, then brought into the domain. -/
def ArithOp.apply (sem : IntSemantics) (op : ArithOp) (l r : Int64) : Option Int64 :=
  (op.exact sem l.toInt r.toInt).bind sem.normalize

end SinkReach
