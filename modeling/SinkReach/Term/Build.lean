/-
# Building well-sorted terms

The constructors of this file check the sorts of what they are given and refuse an ill-sorted
composition, so a tree built through them alone is well-sorted throughout.  Negation and
junctions of guards cannot go wrong and need no check.
-/
import SinkReach.Term.Typing

namespace SinkReach

namespace Value

/-- A variable for a string. -/
def stringVar (name : String) : Value := .var name .string

/-- A variable for an integer. -/
def intVar (name : String) : Value := .var name .int

/-- A variable for a truth value. -/
def boolVar (name : String) : Value := .var name .bool

/-- Whether every part is a string; a part that is not is named by its place. -/
def checkParts (index : Nat) : List Value → Except SortFault Unit
  | [] => .ok ()
  | v :: vs => do
    let s ← v.sort
    if s = .string then checkParts (index + 1) vs else .error (.partSort index s)

/-- The concatenation of strings. -/
def mkConcat (parts : List Value) : Except SortFault Value := do
  checkParts 0 parts
  return .concat parts

/-- Arithmetic on integers. -/
def mkArith (op : ArithOp) (left right : Value) : Except SortFault Value := do
  let ls ← left.sort
  let rs ← right.sort
  let _ ← op.resultSort ls rs
  return .arith op left right

/-- The choice between two values of one sort. -/
def mkIte (cond : Guard) (yes no : Value) : Except SortFault Value := do
  cond.check
  let ts ← yes.sort
  let es ← no.sort
  let _ ← choiceSort ts es
  return .ite cond yes no

end Value

namespace Guard

/-- The comparison of two values of one sort. -/
def mkCompare (op : CompareOp) (left right : Value) : Except SortFault Guard := do
  (Guard.compare op left right).check
  return .compare op left right

/-- The test whether a string begins, or ends, with another. -/
def mkAffix (side : Side) (part text : Value) : Except SortFault Guard := do
  (Guard.affix side part text).check
  return .affix side part text

end Guard

/-- The path that a component leads to from a base: an absolute component stands for itself, an
empty side gives the other, and otherwise one separator stands between the two.

Put in front of the base, a separator is the last character exactly when the base is empty or
ends in one; this is the test that decides whether another is needed. -/
def Value.pathJoin (base component : Value) : Except SortFault Value := do
  let slash := Value.str "/"
  let atEmpty ← Guard.mkCompare .eq component (.str "")
  let anchored ← Value.mkConcat [slash, base]
  let atSlash ← Guard.mkAffix .finish slash anchored
  let separator ← Value.mkIte (.any [atEmpty, atSlash]) (.str "") slash
  let relative ← Value.mkConcat [base, separator, component]
  let absolute ← Guard.mkAffix .start slash component
  Value.mkIte absolute component relative

end SinkReach
