/-
# Terms: values and the guards over them

The argument of a sink call is described by a VALUE, a tree that says how a string, an integer
or a truth value is put together from constants and free variables.  A GUARD is a truth test
over values; guards stand on the branches of a path and in the alternatives a pattern gives.
The two families refer to each other, because a value may choose between two values by a guard.

Trees are kept raw: nothing here asks that they be well-sorted.  `Term/Typing.lean` says which
of them are, and `Term/Build.lean` has the constructors that refuse the others.
-/

namespace SinkReach

/-! ## 1. Sorts and constants -/

/-- The sorts a value may have, in the order in which variables of one name are ranked. -/
inductive ValueSort where
  | string
  | int
  | bool
deriving DecidableEq, Ord

/-- A constant: the content of a literal, and what a variable is bound to.  Integers are
64-bit words; `Integer.lean` says how arithmetic on them behaves. -/
inductive Constant where
  | bool (b : Bool)
  | int (n : Int64)
  | str (s : String)
deriving DecidableEq

namespace Constant

/-- The sort of a constant. -/
def sort : Constant → ValueSort
  | .bool _ => .bool
  | .int _ => .int
  | .str _ => .string

/-- The text of a string constant. -/
def str? : Constant → Option String
  | .str s => some s
  | _ => none

/-- The number of an integer constant. -/
def int? : Constant → Option Int64
  | .int n => some n
  | _ => none

/-- The truth value of a boolean constant. -/
def bool? : Constant → Option Bool
  | .bool b => some b
  | _ => none

end Constant

/-- What an unconstrained variable of the sort is taken to be. -/
def ValueSort.default : ValueSort → Constant
  | .string => .str ""
  | .int => .int 0
  | .bool => .bool false

/-- The default of a sort has that sort. -/
@[simp] theorem ValueSort.sort_default (s : ValueSort) : s.default.sort = s := by
  cases s <;> rfl

/-! ## 2. Operators -/

/-- Integer operators. -/
inductive ArithOp where
  | add
  | sub
  | mul
  | div
  | rem
deriving DecidableEq, Ord

/-- Comparison operators. -/
inductive CompareOp where
  | lt
  | gt
  | eq
  | ne
  | le
  | ge
deriving DecidableEq, Ord

namespace CompareOp

/-- The operator that holds exactly when this one does not. -/
def negate : CompareOp → CompareOp
  | .lt => .ge
  | .gt => .le
  | .eq => .ne
  | .ne => .eq
  | .le => .gt
  | .ge => .lt

@[simp] theorem negate_negate (op : CompareOp) : op.negate.negate = op := by
  cases op <;> rfl

/-- Equality and its negation are the two operators that strings admit. -/
def isEquality : CompareOp → Bool
  | .eq | .ne => true
  | _ => false

/-- The truth of a comparison, from the order of its operands. -/
def holds : CompareOp → Ordering → Bool
  | .lt, o => o.isLT
  | .gt, o => o.isGT
  | .eq, o => o.isEq
  | .ne, o => o.isNe
  | .le, o => o.isLE
  | .ge, o => o.isGE

theorem holds_negate (op : CompareOp) (o : Ordering) : op.negate.holds o = !op.holds o := by
  cases op <;> cases o <;> rfl

end CompareOp

/-- How the parts of a junction are joined. -/
inductive Junction where
  | all
  | any
deriving DecidableEq, Ord

namespace Junction

/-- The truth value that a part may have without deciding the junction; it is also the truth
value of a junction without parts. -/
def neutral : Junction → Bool
  | .all => true
  | .any => false

/-- The truth value that decides the whole junction as soon as one part has it. -/
def absorbing (j : Junction) : Bool := !j.neutral

end Junction

/-- Which end of a text an affix test looks at. -/
inductive Side where
  | start
  | finish
deriving DecidableEq, Ord

/-! ## 3. The two families of trees -/

mutual

/-- A symbolic value. -/
inductive Value where
  /-- A constant. -/
  | lit (c : Constant)
  /-- A variable under foreign control. -/
  | var (name : String) (sort : ValueSort)
  /-- Strings, one after the other. -/
  | concat (parts : List Value)
  /-- Integer arithmetic. -/
  | arith (op : ArithOp) (left right : Value)
  /-- The first value where the guard holds, the second where it does not. -/
  | ite (cond : Guard) (yes no : Value)

/-- A truth test over values. -/
inductive Guard where
  /-- A constant truth value. -/
  | const (b : Bool)
  /-- A comparison of two values of one sort. -/
  | compare (op : CompareOp) (left right : Value)
  /-- The negation of a guard. -/
  | not (g : Guard)
  /-- All of the parts, or any of them. -/
  | junction (kind : Junction) (parts : List Guard)
  /-- Whether `text` begins, or ends, with `part`. -/
  | affix (side : Side) (part text : Value)

end

namespace Value

/-- A string literal. -/
abbrev str (s : String) : Value := .lit (.str s)

/-- An integer literal. -/
abbrev int (n : Int64) : Value := .lit (.int n)

/-- A truth value as a literal. -/
abbrev bool (b : Bool) : Value := .lit (.bool b)

end Value

namespace Guard

/-- The guard that always holds. -/
abbrev truth : Guard := .const true

/-- The guard that never holds. -/
abbrev falsity : Guard := .const false

/-- The conjunction of a list of guards; of none, it holds. -/
abbrev all (parts : List Guard) : Guard := .junction .all parts

/-- The disjunction of a list of guards; of none, it does not hold. -/
abbrev any (parts : List Guard) : Guard := .junction .any parts

end Guard

/-! ## 4. Size and closedness -/

mutual

/-- The number of nodes of a value, those of its guards included. -/
def Value.size : Value → Nat
  | .lit _ | .var _ _ => 1
  | .concat parts => 1 + Value.sizeList parts
  | .arith _ l r => 1 + l.size + r.size
  | .ite c t e => 1 + c.size + t.size + e.size

/-- The sizes of a list of values, added up. -/
def Value.sizeList : List Value → Nat
  | [] => 0
  | v :: vs => v.size + Value.sizeList vs

/-- The number of nodes of a guard, those of its operands included. -/
def Guard.size : Guard → Nat
  | .const _ => 1
  | .compare _ l r => 1 + l.size + r.size
  | .not g => 1 + g.size
  | .junction _ parts => 1 + Guard.sizeList parts
  | .affix _ p t => 1 + p.size + t.size

/-- The sizes of a list of guards, added up. -/
def Guard.sizeList : List Guard → Nat
  | [] => 0
  | g :: gs => g.size + Guard.sizeList gs

end

mutual

/-- Whether a value is free of variables. -/
def Value.isClosed : Value → Bool
  | .lit _ => true
  | .var _ _ => false
  | .concat parts => Value.allClosed parts
  | .arith _ l r => l.isClosed && r.isClosed
  | .ite c t e => c.isClosed && t.isClosed && e.isClosed

/-- Whether every value of a list is free of variables. -/
def Value.allClosed : List Value → Bool
  | [] => true
  | v :: vs => v.isClosed && Value.allClosed vs

/-- Whether a guard is free of variables. -/
def Guard.isClosed : Guard → Bool
  | .const _ => true
  | .compare _ l r => l.isClosed && r.isClosed
  | .not g => g.isClosed
  | .junction _ parts => Guard.allClosed parts
  | .affix _ p t => p.isClosed && t.isClosed

/-- Whether every guard of a list is free of variables. -/
def Guard.allClosed : List Guard → Bool
  | [] => true
  | g :: gs => g.isClosed && Guard.allClosed gs

end

end SinkReach
