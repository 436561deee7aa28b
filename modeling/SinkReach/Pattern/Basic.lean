/-
# Dangerous patterns

A pattern names a template and says how and where it counts: whether it has to be the whole value
or may occur anywhere in it, for which sinks, and for which of their arguments.  A pattern is
specified with its template as text and compiled once; a set of patterns keeps the order of its
specification and has every name once.
-/
import SinkReach.Pattern.Template
import SinkReach.Text.Blank

namespace SinkReach

/-- How a template is compared with a value. -/
inductive MatchMode where
  /-- The whole value is an instance of the template. -/
  | exact
  /-- An instance of the template occurs in the value. -/
  | contains
deriving DecidableEq

def MatchMode.name : MatchMode → String
  | .exact => "exact"
  | .contains => "contains"

def MatchMode.ofName? : String → Option MatchMode
  | "exact" => some .exact
  | "contains" => some .contains
  | _ => none

/-- A pattern as it is specified. -/
structure PatternSpec where
  name : String
  template : String
  mode : MatchMode := .exact
  /-- The sinks it is meant for; none means all of them. -/
  sinks : List String := []
  /-- The argument it is meant for; none means any. -/
  argIndex : Option UInt64 := none
deriving DecidableEq

/-- Adds a sink, and makes the given argument the one the pattern is meant for. -/
def PatternSpec.addSink (p : PatternSpec) (function : String) (argIndex : UInt64) : PatternSpec :=
  { p with sinks := p.sinks ++ [function], argIndex := some argIndex }

/-- A pattern ready for use. -/
structure Pattern where
  name : String
  template : Template
  mode : MatchMode
  sinks : List String
  argIndex : Option UInt64
deriving DecidableEq

namespace Pattern

/-- A pattern for all sinks. -/
def parse (name template : String) (mode : MatchMode) : Except Failure Pattern :=
  if Text.isBlank name then .error (.malformedPattern name .blankName)
  else match Template.parse template with
    | .error cause => .error (.malformedPattern name cause)
    | .ok segments => .ok ⟨name, segments, mode, [], none⟩

/-- The pattern of a specification. -/
def ofSpec (spec : PatternSpec) : Except Failure Pattern := do
  let p ← parse spec.name spec.template spec.mode
  return { p with sinks := spec.sinks, argIndex := spec.argIndex }

/-- Whether the pattern is meant for this argument of this sink. -/
def appliesTo (p : Pattern) (function : String) (argIndex : UInt64) : Bool :=
  (p.sinks.isEmpty || p.sinks.contains function) && p.argIndex.all (· = argIndex)

/-- The template as text. -/
def render (p : Pattern) : String := p.template.render

/-- Whether the template has no wildcard. -/
def isLiteral (p : Pattern) : Bool := p.template.wildcards = 0

end Pattern

/-! ## Sets of patterns -/

/-- Patterns in the order of their specification. -/
structure PatternSet where
  patterns : List Pattern
deriving DecidableEq

namespace PatternSet

/-- Compiles specifications whose names are not among those already seen.  A repeated name is
found before its template is read. -/
def compileFrom (seen : List String) : List PatternSpec → Except Failure (List Pattern)
  | [] => .ok []
  | spec :: specs =>
    if spec.name ∈ seen then .error (.malformedPattern spec.name .duplicateName)
    else do
      let p ← Pattern.ofSpec spec
      let ps ← compileFrom (spec.name :: seen) specs
      return p :: ps

/-- The set of a list of specifications. -/
def compile (specs : List PatternSpec) : Except Failure PatternSet := do
  return ⟨← compileFrom [] specs⟩

/-- The first name that occurs again, in order of the later occurrence. -/
def repeatedName? (seen : List String) : List Pattern → Option String
  | [] => none
  | p :: ps => if p.name ∈ seen then some p.name else repeatedName? (p.name :: seen) ps

/-- The set of a list of patterns. -/
def ofPatterns (patterns : List Pattern) : Except Failure PatternSet :=
  match repeatedName? [] patterns with
  | some name => .error (.malformedPattern name .duplicateName)
  | none => .ok ⟨patterns⟩

/-- The patterns that are meant for this argument of this sink. -/
def applicable (s : PatternSet) (function : String) (argIndex : UInt64) : List Pattern :=
  s.patterns.filter fun p => p.appliesTo function argIndex

end PatternSet

end SinkReach
