/-
# Path conditions

The guards that have to hold for a site to be reached, in the order in which they are met.  Only
well-sorted guards are taken in.
-/
import SinkReach.Term.Typing

namespace SinkReach

/-- The guards met on the way to a site. -/
structure PathCondition where
  guards : List Guard

namespace PathCondition

/-- The path on which no guard has been met. -/
def empty : PathCondition := ⟨[]⟩

/-- Adds a guard at the end of the path, unless it is ill-sorted. -/
def push (p : PathCondition) (g : Guard) : Except SortFault PathCondition := do
  g.check
  return ⟨p.guards ++ [g]⟩

/-- The path of a list of guards, unless one of them is ill-sorted. -/
def ofGuards (gs : List Guard) : Except SortFault PathCondition :=
  gs.foldlM push empty

/-- The path as one guard: their conjunction, which for a single guard is that guard itself. -/
def fold (p : PathCondition) : Guard :=
  match p.guards with
  | [] => .truth
  | [g] => g
  | gs => .all gs

def render (p : PathCondition) : String := p.fold.render

end PathCondition

end SinkReach
