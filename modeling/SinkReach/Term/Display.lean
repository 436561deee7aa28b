/-
# The text of terms

Terms are shown in a compact notation that reports and error messages use: a string constant is
quoted, a variable is its bare name, operators stand between their operands in parentheses.
-/
import SinkReach.Term.Basic
import SinkReach.Text.Quoted

namespace SinkReach

/-- The name of a sort. -/
def ValueSort.render : ValueSort → String
  | .string => "String"
  | .int => "Int"
  | .bool => "Bool"

/-- The sign of an integer operator. -/
def ArithOp.symbol : ArithOp → String
  | .add => "+"
  | .sub => "-"
  | .mul => "*"
  | .div => "/"
  | .rem => "%"

/-- The sign of a comparison operator. -/
def CompareOp.symbol : CompareOp → String
  | .lt => "<"
  | .gt => ">"
  | .eq => "=="
  | .ne => "!="
  | .le => "<="
  | .ge => ">="

/-- A truth value in words. -/
def renderBool (b : Bool) : String := if b then "true" else "false"

/-- A constant. -/
def Constant.render : Constant → String
  | .bool b => renderBool b
  | .int n => toString n.toInt
  | .str s => Text.quoted s

/-- The sign between the parts of a junction. -/
def Junction.symbol : Junction → String
  | .all => " && "
  | .any => " || "

/-- The name of an affix test. -/
def Side.testName : Side → String
  | .start => "prefixof"
  | .finish => "suffixof"

/-- A binary node. -/
def renderBinary (left symbol right : String) : String :=
  "(" ++ left ++ " " ++ symbol ++ " " ++ right ++ ")"

/-- A junction of parts already shown. -/
def Junction.renderParts (j : Junction) : List String → String
  | [] => renderBool j.neutral
  | parts => "(" ++ j.symbol.intercalate parts ++ ")"

mutual

/-- The text of a value. -/
def Value.render : Value → String
  | .lit c => c.render
  | .var name _ => name
  | .concat parts => "concat(" ++ ", ".intercalate (Value.renderAll parts) ++ ")"
  | .arith op l r => renderBinary l.render op.symbol r.render
  | .ite c t e => "ite(" ++ c.render ++ ", " ++ t.render ++ ", " ++ e.render ++ ")"

/-- The texts of a list of values. -/
def Value.renderAll : List Value → List String
  | [] => []
  | v :: vs => v.render :: Value.renderAll vs

/-- The text of a guard. -/
def Guard.render : Guard → String
  | .const b => renderBool b
  | .compare op l r => renderBinary l.render op.symbol r.render
  | .not g => "!" ++ g.render
  | .junction kind parts => kind.renderParts (Guard.renderAll parts)
  | .affix side part text => side.testName ++ "(" ++ part.render ++ ", " ++ text.render ++ ")"

/-- The texts of a list of guards. -/
def Guard.renderAll : List Guard → List String
  | [] => []
  | g :: gs => g.render :: Guard.renderAll gs

end

end SinkReach
