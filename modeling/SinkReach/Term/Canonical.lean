/-
# Canonical forms

Many trees say the same thing; the canonical form picks one of them by structure alone, so that
it means the same under every reading of integers.

* A concatenation is flat, its neighbouring literals are one literal and none is empty; with one
  part or none it is no concatenation at all.
* A choice whose guard is constant, or whose branches are the same, is the branch it takes.
* A comparison or affix test that its operands already decide is a constant.
* A negation is pushed into constants and comparisons, and two of them cancel.
* A junction is flat, has its parts in structural order without repetition, and does not hold
  constants; with one part or none it is no junction.

Integer literals are left alone: what they are depends on the width.
-/
import SinkReach.Order
import SinkReach.Term.Eval

namespace SinkReach

/-! ## 1. Values, one node at a time -/

/-- The parts of a value when it is seen as a concatenation. -/
def Value.parts : Value → List Value
  | .concat parts => parts
  | v => [v]

/-- Puts a part in front of fused parts. -/
def Value.fuseCons : Value → List Value → List Value
  | .lit (.str s), rest =>
    if s = "" then rest
    else match rest with
      | .lit (.str t) :: more => .lit (.str (s ++ t)) :: more
      | rest => .lit (.str s) :: rest
  | v, rest => v :: rest

/-- Drops the empty literals of a list and makes one literal of neighbours. -/
def Value.fuse (parts : List Value) : List Value := parts.foldr Value.fuseCons []

/-- The value that fused parts make. -/
def Value.ofParts : List Value → Value
  | [] => .str ""
  | [v] => v
  | parts => .concat parts

/-- The concatenation of canonical values. -/
def Value.join (parts : List Value) : Value :=
  .ofParts (Value.fuse (parts.flatMap Value.parts))

/-- The choice between canonical values by a canonical guard. -/
def Value.choose : Guard → Value → Value → Value
  | .const true, yes, _ => yes
  | .const false, _, no => no
  | cond, yes, no => if yes = no then yes else .ite cond yes no

/-! ## 2. Guards, one node at a time -/

/-- The comparison of canonical values. -/
def Guard.ofCompare (op : CompareOp) (left right : Value) : Guard :=
  if left = right then .const (op.holds .eq)
  else match left, right with
    | .lit (.str _), .lit (.str _) => .const (op = .ne)
    | .lit (.bool a), .lit (.bool b) => .const (op.holds (Ord.compare a b))
    | left, right => .compare op left right

/-- The negation of a canonical guard. -/
def Guard.negate : Guard → Guard
  | .const b => .const !b
  | .not g => g
  | .compare op l r => .compare op.negate l r
  | g => .not g

/-- The affix test of canonical values. -/
def Guard.ofAffix (side : Side) (part text : Value) : Guard :=
  match part, text with
  | .lit (.str p), .lit (.str t) => .const (side.tests p t)
  | part, text => if part = text then .const true else .affix side part text

/-- What a canonical guard contributes to a junction of the kind: nothing if it is constant, its
parts if it is a junction of that kind, and itself otherwise. -/
def Junction.contribution (j : Junction) : Guard → List Guard
  | .const _ => []
  | .junction k parts => if k = j then parts else [.junction k parts]
  | g => [g]

/-- Keeps one of each run of equal neighbours. -/
def Guard.dropRepeats : List Guard → List Guard
  | [] => []
  | [g] => [g]
  | g :: h :: rest =>
    if g = h then Guard.dropRepeats (h :: rest) else g :: Guard.dropRepeats (h :: rest)

/-- The junction of ordered parts. -/
def Junction.ofParts (j : Junction) : List Guard → Guard
  | [] => .const j.neutral
  | [g] => g
  | parts => .junction j parts

/-- The junction of canonical guards. -/
def Junction.join (j : Junction) (parts : List Guard) : Guard :=
  if Guard.const j.absorbing ∈ parts then .const j.absorbing
  else j.ofParts (Guard.dropRepeats (sortBy Guard.cmp (parts.flatMap j.contribution)))

/-! ## 3. Whole trees -/

mutual

/-- The canonical form of a value. -/
def Value.canonical : Value → Value
  | .lit c => .lit c
  | .var name s => .var name s
  | .concat parts => .join (Value.canonicalAll parts)
  | .arith op l r => .arith op l.canonical r.canonical
  | .ite c t e => .choose c.canonical t.canonical e.canonical

/-- The canonical forms of a list of values. -/
def Value.canonicalAll : List Value → List Value
  | [] => []
  | v :: vs => v.canonical :: Value.canonicalAll vs

/-- The canonical form of a guard. -/
def Guard.canonical : Guard → Guard
  | .const b => .const b
  | .compare op l r => .ofCompare op l.canonical r.canonical
  | .not g => g.canonical.negate
  | .junction kind parts => kind.join (Guard.canonicalAll parts)
  | .affix side part text => .ofAffix side part.canonical text.canonical

/-- The canonical forms of a list of guards. -/
def Guard.canonicalAll : List Guard → List Guard
  | [] => []
  | g :: gs => g.canonical :: Guard.canonicalAll gs

end

/-- The top-level parts of a string value, in order; the empty text has none. -/
def Value.topParts (v : Value) : List Value :=
  match v.canonical with
  | .concat parts => parts
  | .lit (.str s) => if s = "" then [] else [.str s]
  | w => [w]

end SinkReach
