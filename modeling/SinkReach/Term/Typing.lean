/-
# Sorts of terms

`Value.sort` infers the sort of a value and `Guard.check` checks a guard, both through the whole
tree.  Operands are looked at from left to right and the first fault is the one reported.  What
can be at fault is a `SortFault`; its wording is `SortFault.message`.
-/
import SinkReach.Term.Display

namespace SinkReach

/-- Why a term, or what is to be done with it, is ill-sorted. -/
inductive SortFault where
  /-- A part handed to a concatenation, by its place, is not a string. -/
  | partSort (index : Nat) (sort : ValueSort)
  /-- A part inside a concatenation is not a string. -/
  | notString (part : Value)
  /-- Arithmetic on something else than two integers. -/
  | arithOperands (op : ArithOp) (left right : ValueSort)
  /-- A choice between values of two sorts. -/
  | branches (yes no : ValueSort)
  /-- A comparison across two sorts. -/
  | incomparable (op : CompareOp) (left right : Value) (leftSort rightSort : ValueSort)
  /-- An order comparison of strings. -/
  | stringOrder (op : CompareOp)
  /-- An affix test on something else than two strings. -/
  | affixOperands (part text : ValueSort)
  /-- One name for variables of two sorts. -/
  | clash (name : String) (first second : ValueSort)
  /-- A variable has a name that a pattern reserves for itself. -/
  | reserved (name : String)
  /-- A pattern is asked about a value that is not a string. -/
  | subject (pattern : String) (sort : ValueSort)
  /-- The argument of a sink is not a string. -/
  | sinkArgument (sort : ValueSort)
  /-- A fault that a solver backend reports in its own words. -/
  | reported (detail : String)

/-- The wording of a fault. -/
def SortFault.message : SortFault → String
  | .partSort i s =>
    "Concat operand " ++ toString i ++ " is " ++ s.render
      ++ ", expected String (convert explicitly first)"
  | .notString part => "Concat operand " ++ part.render ++ " is not String-typed"
  | .arithOperands op l r =>
    "Arith '" ++ op.symbol ++ "' operands are " ++ l.render ++ " and " ++ r.render
      ++ ", expected Int"
  | .branches t e => "Ite branches are " ++ t.render ++ " and " ++ e.render
  | .incomparable op l r ls rs =>
    "cannot compare " ++ ls.render ++ " with " ++ rs.render ++ " "
      ++ renderBinary l.render op.symbol r.render
  | .stringOrder op => "String operands only support == and != (got " ++ op.symbol ++ ")"
  | .affixOperands p t =>
    "prefix/suffix test over " ++ p.render ++ " and " ++ t.render ++ ", expected String"
  | .clash name s t =>
    "variable '" ++ name ++ "' used as both " ++ s.render ++ " and " ++ t.render
  | .reserved name => "variable '" ++ name ++ "' collides with a pattern variable"
  | .subject pattern s => "pattern '" ++ pattern ++ "' matched against a " ++ s.render ++ " value"
  | .sinkArgument s => "sink argument is " ++ s.render ++ ", expected String"
  | .reported detail => detail

/-! ## One node -/

/-- The sort of an arithmetic node, from the sorts of its operands. -/
def ArithOp.resultSort (op : ArithOp) (left right : ValueSort) : Except SortFault ValueSort :=
  if left = .int ∧ right = .int then .ok .int else .error (.arithOperands op left right)

/-- The sort of a choice, from the sorts of its branches. -/
def choiceSort (yes no : ValueSort) : Except SortFault ValueSort :=
  if yes = no then .ok yes else .error (.branches yes no)

/-- Whether two values of the given sorts may be compared. -/
def CompareOp.admits (op : CompareOp) (left right : Value) (ls rs : ValueSort) :
    Except SortFault Unit :=
  if ls ≠ rs then .error (.incomparable op left right ls rs)
  else if ls = .string ∧ op.isEquality = false then .error (.stringOrder op)
  else .ok ()

/-- Whether values of the given sorts admit an affix test. -/
def affixAdmits (part text : ValueSort) : Except SortFault Unit :=
  if part = .string ∧ text = .string then .ok () else .error (.affixOperands part text)

/-! ## Whole trees -/

mutual

/-- The sort of a value, or the first fault in it. -/
def Value.sort : Value → Except SortFault ValueSort
  | .lit c => .ok c.sort
  | .var _ s => .ok s
  | .concat parts => do
    Value.allStrings parts
    return .string
  | .arith op l r => do
    let ls ← l.sort
    let rs ← r.sort
    op.resultSort ls rs
  | .ite c t e => do
    c.check
    let ts ← t.sort
    let es ← e.sort
    choiceSort ts es

/-- Whether every part is a string, or the first fault. -/
def Value.allStrings : List Value → Except SortFault Unit
  | [] => .ok ()
  | v :: vs => do
    let s ← v.sort
    if s = .string then Value.allStrings vs else .error (.notString v)

/-- Whether a guard is well-sorted throughout, or the first fault in it. -/
def Guard.check : Guard → Except SortFault Unit
  | .const _ => .ok ()
  | .compare op l r => do
    let ls ← l.sort
    let rs ← r.sort
    op.admits l r ls rs
  | .not g => g.check
  | .junction _ parts => Guard.checkAll parts
  | .affix _ part text => do
    let ps ← part.sort
    let ts ← text.sort
    affixAdmits ps ts

/-- Whether every guard is well-sorted, or the first fault. -/
def Guard.checkAll : List Guard → Except SortFault Unit
  | [] => .ok ()
  | g :: gs => do
    g.check
    Guard.checkAll gs

end

end SinkReach
