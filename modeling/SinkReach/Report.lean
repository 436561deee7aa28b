/-
# Reports

The verdicts of a run, in the order in which the sites were found.  A report is put together by
one of two builders: one takes verdicts in their order, the other takes them in any order with
the place of their site and puts them in order at the end.
-/
import SinkReach.Verdict

namespace SinkReach

/-- The verdicts of a run. -/
structure Report where
  verdicts : List Verdict
deriving DecidableEq

/-- How many verdicts there are of each outcome. -/
structure Summary where
  total : Nat
  sat : Nat
  unsat : Nat
  unknown : Nat
deriving DecidableEq

/-- The number of dangerous verdicts. -/
def Summary.dangerous (s : Summary) : Nat := s.sat + s.unknown

namespace Report

/-- The dangerous verdicts, in order. -/
def dangerous (r : Report) : List Verdict := r.verdicts.filter (·.isDangerous)

/-- Whether a verdict is dangerous. -/
def hasDangerous (r : Report) : Bool := r.verdicts.any (·.isDangerous)

def summary (r : Report) : Summary where
  total := r.verdicts.length
  sat := r.verdicts.countP (·.outcome.isSat)
  unsat := r.verdicts.countP (·.outcome.isUnsat)
  unknown := r.verdicts.countP (·.outcome.isUnknown)

/-- The status that a run with this report ends with. -/
def status (r : Report) : Nat := if 0 < r.summary.dangerous then 1 else 0

end Report

/-! ## Builders -/

/-- Verdicts taken one after the other. -/
structure Reporter where
  verdicts : List Verdict := []

namespace Reporter

/-- Takes a verdict as it is. -/
def append (r : Reporter) (v : Verdict) : Reporter := ⟨r.verdicts ++ [v]⟩

def finalize (r : Reporter) : Report := ⟨r.verdicts⟩

end Reporter

/-- Verdicts taken with the places of their sites, in order of arrival. -/
structure Submissions where
  entries : List (Nat × Verdict) := []

namespace Submissions

/-- Takes the verdict of the site at a place. -/
def submit (s : Submissions) (index : Nat) (v : Verdict) : Submissions :=
  ⟨s.entries ++ [(index, v)]⟩

/-- The verdicts by place; those of one place keep the order of arrival. -/
def finalize (s : Submissions) : Report :=
  ⟨(sortBy (fun a b => compare a.1 b.1) s.entries).map (·.2)⟩

end Submissions

end SinkReach
