/-
# Evaluation of terms

Under an assignment of constants to variables a value has a constant and a guard a truth value,
or neither: `none` means UNDECIDED.  A term is undecided where it needs a variable that is not
bound to a constant of its sort, where it divides by zero, where an integer leaves its domain,
and where an operator meets operands it is not made for.

Junctions are decided in three-valued logic: one part with the absorbing truth value decides the
whole, however many of the others are undecided, and otherwise every part has to be decided.
-/
import SinkReach.Bindings
import SinkReach.Integer
import SinkReach.Term.Order

namespace SinkReach

/-- Constants for variables. -/
abbrev Assignment := Bindings Constant

/-- Whether the text begins, or ends, with the part. -/
def Side.tests : Side → String → String → Bool
  | .start, part, text => part.toList.isPrefixOf text.toList
  | .finish, part, text => part.toList.isSuffixOf text.toList

/-- A constant as evaluation reads it: an integer is brought into the domain. -/
def Constant.eval (sem : IntSemantics) : Constant → Option Constant
  | .int n => (sem.normalize n.toInt).map .int
  | c => some c

/-- A comparison of constants.  Strings are compared for equality only. -/
def CompareOp.eval (op : CompareOp) : Constant → Constant → Option Bool
  | .int a, .int b => some (op.holds (compare a.toInt b.toInt))
  | .bool a, .bool b => some (op.holds (compare a b))
  | .str a, .str b => if op.isEquality then some (op.holds (compare a b)) else none
  | _, _ => none

/-- A variable under an assignment: what it is bound to, if that has its sort. -/
def Assignment.read (env : Assignment) (name : String) (s : ValueSort) : Option Constant :=
  (env.find? name).filter fun c => c.sort = s

/-- One more part in front of a junction: the absorbing truth value decides, and an undecided
part leaves the junction open unless the others decide it. -/
def Junction.combine (j : Junction) (part rest : Option Bool) : Option Bool :=
  match part with
  | some b => if b = j.absorbing then some b else rest
  | none => if rest = some j.absorbing then rest else none

mutual

/-- The constant a value has under an assignment. -/
def Value.eval (sem : IntSemantics) (env : Assignment) : Value → Option Constant
  | .lit c => c.eval sem
  | .var name s => env.read name s
  | .concat parts => (Value.evalText sem env parts).map .str
  | .arith op l r => do
    let a ← (← l.eval sem env).int?
    let b ← (← r.eval sem env).int?
    return .int (← op.apply sem a b)
  | .ite c t e => do
    if ← c.eval sem env then t.eval sem env else e.eval sem env

/-- The text of a list of string values, one after the other. -/
def Value.evalText (sem : IntSemantics) (env : Assignment) : List Value → Option String
  | [] => some ""
  | v :: vs => do
    let s ← (← v.eval sem env).str?
    let rest ← Value.evalText sem env vs
    return s ++ rest

/-- The truth value of a guard under an assignment. -/
def Guard.eval (sem : IntSemantics) (env : Assignment) : Guard → Option Bool
  | .const b => some b
  | .compare op l r => do
    let a ← l.eval sem env
    let b ← r.eval sem env
    op.eval a b
  | .not g => (g.eval sem env).map (!·)
  | .junction kind parts => Guard.evalJunction sem env kind parts
  | .affix side part text => do
    let p ← part.eval sem env
    let t ← text.eval sem env
    return side.tests (← p.str?) (← t.str?)

/-- The truth value of a junction of parts. -/
def Guard.evalJunction (sem : IntSemantics) (env : Assignment) (kind : Junction) :
    List Guard → Option Bool
  | [] => some kind.neutral
  | g :: gs => kind.combine (g.eval sem env) (Guard.evalJunction sem env kind gs)

end

end SinkReach
