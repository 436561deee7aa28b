/-
# Terms in JSON

A term is written as an object with one field, named for the kind of its root; the field holds
the fields of the node, or its content alone where there is only one.  Reading accepts what
writing produces and the list form of records as well.

A constant is written as the bare truth value, number or string.
-/
import SinkReach.Json.Record
import SinkReach.Term.Eval

namespace SinkReach

/-! ## 1. Constants and names -/

namespace Constant

def toJson : Constant → Json
  | .bool b => .bool b
  | .int n => .int n.toInt
  | .str s => .str s

def ofJson? : Json → Option Constant
  | .bool b => some (.bool b)
  | .str s => some (.str s)
  | j => j.int64?.map .int

end Constant

/-- The name of a sort in documents. -/
def ValueSort.name : ValueSort → String
  | .string => "string"
  | .int => "int"
  | .bool => "bool"

def ValueSort.ofName? : String → Option ValueSort
  | "string" => some .string
  | "int" => some .int
  | "bool" => some .bool
  | _ => none

/-- The name of an integer operator in documents. -/
def ArithOp.name : ArithOp → String
  | .add => "add"
  | .sub => "sub"
  | .mul => "mul"
  | .div => "div"
  | .rem => "rem"

def ArithOp.ofName? : String → Option ArithOp
  | "add" => some .add
  | "sub" => some .sub
  | "mul" => some .mul
  | "div" => some .div
  | "rem" => some .rem
  | _ => none

/-- The name of a comparison operator in documents. -/
def CompareOp.name : CompareOp → String
  | .lt => "lt"
  | .gt => "gt"
  | .eq => "eq"
  | .ne => "ne"
  | .le => "le"
  | .ge => "ge"

def CompareOp.ofName? : String → Option CompareOp
  | "lt" => some .lt
  | "gt" => some .gt
  | "eq" => some .eq
  | "ne" => some .ne
  | "le" => some .le
  | "ge" => some .ge
  | _ => none

/-- The name of a junction in documents. -/
def Junction.name : Junction → String
  | .all => "and"
  | .any => "or"

/-- The name of an affix test in documents. -/
def Side.name : Side → String
  | .start => "prefix_of"
  | .finish => "suffix_of"

/-- The name of the field that holds the affix. -/
def Side.fieldName : Side → String
  | .start => "prefix"
  | .finish => "suffix"

/-! ## 2. Writing -/

mutual

/-- A value as JSON. -/
def Value.toJson : Value → Json
  | .lit c => .obj [("literal", c.toJson)]
  | .var name s => .obj [("free_var", .obj [("name", .str name), ("sort", .str s.name)])]
  | .concat parts => .obj [("concat", .arr (Value.toJsonAll parts))]
  | .arith op l r =>
    .obj [("arith", .obj [("op", .str op.name), ("left", l.toJson), ("right", r.toJson)])]
  | .ite c t e =>
    .obj [("ite", .obj [("cond", c.toJson), ("then", t.toJson), ("otherwise", e.toJson)])]

/-- A list of values as JSON. -/
def Value.toJsonAll : List Value → List Json
  | [] => []
  | v :: vs => v.toJson :: Value.toJsonAll vs

/-- A guard as JSON. -/
def Guard.toJson : Guard → Json
  | .const b => .obj [("bool_literal", .bool b)]
  | .compare op l r =>
    .obj [("compare", .obj [("op", .str op.name), ("left", l.toJson), ("right", r.toJson)])]
  | .not g => .obj [("not", g.toJson)]
  | .junction kind parts => .obj [(kind.name, .arr (Guard.toJsonAll parts))]
  | .affix side part text =>
    .obj [(side.name, .obj [(side.fieldName, part.toJson), ("value", text.toJson)])]

/-- A list of guards as JSON. -/
def Guard.toJsonAll : List Guard → List Json
  | [] => []
  | g :: gs => g.toJson :: Guard.toJsonAll gs

end

/-! ## 3. Reading -/

mutual

/-- A value from JSON that nests at most as deep as the first argument says. -/
def Value.ofJsonWithin? : Nat → Json → Option Value
  | 0, _ => none
  | n + 1, j =>
    match j.choice? with
    | some ("literal", some body) => (Constant.ofJson? body).map .lit
    | some ("free_var", some body) => do
      let [some name, some s] ← body.record? ["name", "sort"] | none
      return .var (← name.str?) (← ValueSort.ofName? (← s.name?))
    | some ("concat", some body) => do
      return .concat (← (← body.arr?).mapM (Value.ofJsonWithin? n))
    | some ("arith", some body) => do
      let [some op, some l, some r] ← body.record? ["op", "left", "right"] | none
      return .arith (← ArithOp.ofName? (← op.name?)) (← Value.ofJsonWithin? n l)
        (← Value.ofJsonWithin? n r)
    | some ("ite", some body) => do
      let [some c, some t, some e] ← body.record? ["cond", "then", "otherwise"] | none
      return .ite (← Guard.ofJsonWithin? n c) (← Value.ofJsonWithin? n t)
        (← Value.ofJsonWithin? n e)
    | _ => none

/-- A guard from JSON that nests at most as deep as the first argument says. -/
def Guard.ofJsonWithin? : Nat → Json → Option Guard
  | 0, _ => none
  | n + 1, j =>
    match j.choice? with
    | some ("bool_literal", some body) => body.bool?.map .const
    | some ("compare", some body) => do
      let [some op, some l, some r] ← body.record? ["op", "left", "right"] | none
      return .compare (← CompareOp.ofName? (← op.name?)) (← Value.ofJsonWithin? n l)
        (← Value.ofJsonWithin? n r)
    | some ("not", some body) => (Guard.ofJsonWithin? n body).map .not
    | some ("and", some body) => do
      return .all (← (← body.arr?).mapM (Guard.ofJsonWithin? n))
    | some ("or", some body) => do
      return .any (← (← body.arr?).mapM (Guard.ofJsonWithin? n))
    | some ("prefix_of", some body) => do
      let [some p, some t] ← body.record? ["prefix", "value"] | none
      return .affix .start (← Value.ofJsonWithin? n p) (← Value.ofJsonWithin? n t)
    | some ("suffix_of", some body) => do
      let [some p, some t] ← body.record? ["suffix", "value"] | none
      return .affix .finish (← Value.ofJsonWithin? n p) (← Value.ofJsonWithin? n t)
    | _ => none

end

/-- A value from JSON. -/
def Value.ofJson? (j : Json) : Option Value := Value.ofJsonWithin? (j.depth + 1) j

/-- A guard from JSON. -/
def Guard.ofJson? (j : Json) : Option Guard := Guard.ofJsonWithin? (j.depth + 1) j

/-! ## 4. Assignments -/

/-- An assignment as an object, by increasing name. -/
def Assignment.toJson (env : Assignment) : Json :=
  .obj (env.entries.map fun (name, c) => (name, c.toJson))

/-- An assignment from an object; of a repeated name the last one counts. -/
def Assignment.ofJson? : Json → Option Assignment
  | .obj fields => do
    let pairs ← fields.mapM fun (name, j) => do return (name, ← Constant.ofJson? j)
    return .ofList pairs
  | _ => none

end SinkReach
