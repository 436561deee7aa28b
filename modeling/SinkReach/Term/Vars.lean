/-
# The variables of terms

`occurrences` lists the variables of a tree with their sorts, from left to right and as often as
they occur; `collectVars` gathers them into a map and refuses a name that comes with two sorts.
-/
import SinkReach.Bindings
import SinkReach.Term.Typing

namespace SinkReach

mutual

/-- The variables of a value, in order of occurrence. -/
def Value.occurrences : Value → List (String × ValueSort)
  | .lit _ => []
  | .var name s => [(name, s)]
  | .concat parts => Value.occurrencesIn parts
  | .arith _ l r => l.occurrences ++ r.occurrences
  | .ite c t e => c.occurrences ++ (t.occurrences ++ e.occurrences)

/-- The variables of a list of values, in order of occurrence. -/
def Value.occurrencesIn : List Value → List (String × ValueSort)
  | [] => []
  | v :: vs => v.occurrences ++ Value.occurrencesIn vs

/-- The variables of a guard, in order of occurrence. -/
def Guard.occurrences : Guard → List (String × ValueSort)
  | .const _ => []
  | .compare _ l r => l.occurrences ++ r.occurrences
  | .not g => g.occurrences
  | .junction _ parts => Guard.occurrencesIn parts
  | .affix _ p t => p.occurrences ++ t.occurrences

/-- The variables of a list of guards, in order of occurrence. -/
def Guard.occurrencesIn : List Guard → List (String × ValueSort)
  | [] => []
  | g :: gs => g.occurrences ++ Guard.occurrencesIn gs

end

/-- The sorts that variables are declared with. -/
abbrev Declarations := Bindings ValueSort

/-- Declares a variable, once or again with the sort it already has. -/
def Declarations.declare (vars : Declarations) (name : String) (s : ValueSort) :
    Except SortFault Declarations :=
  match vars.find? name with
  | none => .ok (vars.insert name s)
  | some t => if t = s then .ok vars else .error (.clash name t s)

/-- Declares a list of variables one after the other. -/
def Declarations.declareAll (vars : Declarations) :
    List (String × ValueSort) → Except SortFault Declarations
  | [] => .ok vars
  | (name, s) :: rest => do
    let vars ← vars.declare name s
    declareAll vars rest

/-- Adds the variables of a value to those already declared. -/
def Value.collectVars (v : Value) (vars : Declarations) : Except SortFault Declarations :=
  vars.declareAll v.occurrences

/-- Adds the variables of a guard to those already declared. -/
def Guard.collectVars (g : Guard) (vars : Declarations) : Except SortFault Declarations :=
  vars.declareAll g.occurrences

end SinkReach
