/-
# Sorting by a comparison

A stable sort over any comparison: elements that compare as equal keep the order they came in.
-/

namespace SinkReach

variable {α : Type}

/-- Puts an element in front of the first one that it does not exceed. -/
def insertBy (cmp : α → α → Ordering) (a : α) : List α → List α
  | [] => [a]
  | b :: bs => if (cmp a b).isLE then a :: b :: bs else b :: insertBy cmp a bs

/-- The elements in the order of the comparison. -/
def sortBy (cmp : α → α → Ordering) (l : List α) : List α := l.foldr (insertBy cmp) []

end SinkReach
