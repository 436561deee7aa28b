/-
# Alternatives: a pattern as guards on a value

Whether a value can match a pattern is put as a question about guards.  For an exact match there
is one ALTERNATIVE: the value equals the template, each wildcard being a fresh variable.  For an
occurrence there is one alternative for each top-level part of the value, in order: the match
begins inside that part.  With `p` the part, and `rest` what is left of it where the match begins,

    p = pre ++ rest      and      rest ++ (the parts after p) = template ++ post.

The fresh variables are named after the pattern, `<pattern>#<role><k>`; a variable of the value
or of the path that already has such a name is a fault.
-/
import SinkReach.Pattern.Basic
import SinkReach.Term.Build
import SinkReach.Term.Canonical
import SinkReach.Term.Vars

namespace SinkReach.Pattern

/-- The name of a fresh variable. -/
def freshName (p : Pattern) (role : String) (k : Nat) : String :=
  p.name ++ "#" ++ role ++ toString k

/-- A fresh variable, unless its name is taken. -/
def fresh (p : Pattern) (taken : Declarations) (role : String) (k : Nat) :
    Except SortFault Value :=
  let name := p.freshName role k
  if taken.contains name then .error (.reserved name) else .ok (.stringVar name)

/-- The pieces of a template as values; the wildcards are counted from `k`. -/
def templateParts (p : Pattern) (taken : Declarations) (k : Nat) :
    Template → Except SortFault (List Value)
  | [] => .ok []
  | .literal s :: rest => do
    let more ← templateParts p taken k rest
    return .str s :: more
  | .wildcard :: rest => do
    let w ← p.fresh taken "w" k
    let more ← templateParts p taken (k + 1) rest
    return w :: more

/-- The template as a value. -/
def templateValue (p : Pattern) (taken : Declarations) : Except SortFault Value := do
  Value.mkConcat (← p.templateParts taken 0 p.template)

/-- One alternative for each of the parts, which are counted from `k`. -/
def alignments (p : Pattern) (taken : Declarations) (template : Value) (k : Nat) :
    List Value → Except SortFault (List Guard)
  | [] => .ok []
  | part :: after => do
    let pre ← p.fresh taken "pre" k
    let rest ← p.fresh taken "rest" k
    let post ← p.fresh taken "post" k
    let split ← Guard.mkCompare .eq part (← Value.mkConcat [pre, rest])
    let tail ← Value.mkConcat (rest :: after)
    let anchored ← Guard.mkCompare .eq tail (← Value.mkConcat [template, post])
    let more ← alignments p taken template (k + 1) after
    return .all [split, anchored] :: more

/-- The parts a match can begin in: those of the value, or one empty part if it has none. -/
def searchParts (v : Value) : List Value :=
  match v.topParts with
  | [] => [.str ""]
  | parts => parts

/-- The alternatives for a value to match the pattern, at the end of the given path. -/
def alternatives (p : Pattern) (v : Value) (path : Guard) : Except SortFault (List Guard) := do
  let s ← v.sort
  if s ≠ .string then .error (.subject p.name s)
  else
    let taken ← v.collectVars .empty
    let taken ← path.collectVars taken
    let template ← p.templateValue taken
    match p.mode with
    | .exact => return [← Guard.mkCompare .eq v template]
    | .contains => p.alignments taken template 0 (searchParts v)

end SinkReach.Pattern
