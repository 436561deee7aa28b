/-
# Backends without a solver

Backends that need no external program.  `replay` gives prepared answers one after the other,
`search` tries candidate assignments with the evaluator, and `logged` writes down what another
backend is asked.  A build without a solver has none of them by default: `unavailable` is what
creating its backend gives.
-/
import SinkReach.Solver.Oracle

namespace SinkReach.Backend

variable {σ : Type}

/-- Gives the prepared answers in order, and says UNSAT when they are used up. -/
def replay : Backend (List (Except Failure Outcome)) where
  name := "mock"
  check
    | [], _, _ => (.ok .unsat, [])
    | answer :: rest, _, _ => (answer, rest)

/-- Always gives the same answer. -/
def constant (answer : Except Failure Outcome) : Backend Unit where
  name := "mock"
  check _ _ _ := (answer, ())

/-- The verdict of a list of candidates on a formula: the first that makes it true is a model,
cut down to the variables of the formula.  Where none does, a candidate that leaves the formula
undecided leaves the question open. -/
def trial (sem : IntSemantics) (formula : Guard) (vars : Declarations) :
    List Assignment → Bool → Outcome
  | [], undecided => if undecided then .unknown (.declined "undecided") else .unsat
  | env :: rest, undecided =>
    match formula.eval sem env with
    | some true => .sat (env.filterNames fun name => vars.contains name)
    | some false => trial sem formula vars rest undecided
    | none => trial sem formula vars rest true

/-- Tries candidate assignments. -/
def search (sem : IntSemantics) (candidates : List Assignment) : Backend Unit where
  name := "mock"
  check _ formula vars := (.ok (trial sem formula vars candidates false), ())

/-- A question put to a backend. -/
structure Question where
  formula : Guard
  vars : Declarations

/-- A backend that also keeps the questions it is asked, the latest first. -/
def logged (b : Backend σ) : Backend (σ × List Question) where
  name := b.name
  check := fun (state, log) formula vars =>
    let (answer, state) := b.check state formula vars
    (answer, state, ⟨formula, vars⟩ :: log)

/-- What creating a backend gives in a build without a solver. -/
def unavailable : Failure :=
  .solverUnavailable "spanwatch-core was built without the `z3` feature"

end SinkReach.Backend
