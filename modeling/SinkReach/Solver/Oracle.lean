/-
# The oracle

The oracle decides formulas in two stages.  A formula is first brought into canonical form; if it
is then constant, or has no variables and evaluates, that settles it.  What is left goes to a
BACKEND, which may keep a state of its own and may fail.  A model from either stage is completed:
a variable of the formula that the canonical form no longer has is bound to the default of its
sort, since any constant will do.

The oracle counts what it was asked and how it came to its answers; `Stats` has the counters.
-/
import SinkReach.Failure
import SinkReach.Solver.Outcome
import SinkReach.Term.Canonical
import SinkReach.Term.Vars

namespace SinkReach

/-! ## 1. Counting -/

/-- How many queries were asked, and how those that were answered were settled. -/
structure Stats where
  total : Nat := 0
  lightweight : Nat := 0
  solver : Nat := 0
  unknown : Nat := 0
deriving DecidableEq

/-- The counts of two oracles together. -/
def Stats.merge (a b : Stats) : Stats :=
  ⟨a.total + b.total, a.lightweight + b.lightweight, a.solver + b.solver, a.unknown + b.unknown⟩

/-! ## 2. Deciding without a backend -/

/-- Decides a formula that is constant, or that has no variables and evaluates. -/
def Guard.decideClosed (sem : IntSemantics) (g : Guard) : Option Outcome :=
  match g with
  | .const b => some (if b then .sat .empty else .unsat)
  | g =>
    if g.isClosed then
      (g.eval sem .empty).map fun b => if b then .sat .empty else .unsat
    else none

/-! ## 3. Backends -/

/-- A solver with states of type `σ`.  It is given a canonical formula with the variables of the
formula, and answers or fails; either way it may change its state. -/
structure Backend (σ : Type) where
  name : String
  check : σ → Guard → Declarations → Except Failure Outcome × σ

/-! ## 4. The oracle -/

/-- Binds the variables that a model leaves out to the defaults of their sorts. -/
def Assignment.complete (model : Assignment) (vars : Declarations) : Assignment :=
  vars.entries.foldl
    (fun m (name, s) => if m.contains name then m else m.insert name s.default) model

/-- Completes the model of an outcome, if it has one. -/
def Outcome.complete (vars : Declarations) : Outcome → Outcome
  | .sat model => .sat (model.complete vars)
  | o => o

/-- The state of an oracle: that of its backend, and the counts. -/
structure Oracle (σ : Type) where
  state : σ
  stats : Stats := {}

namespace Oracle

variable {σ : Type}

/-- What is known of a formula before it is decided: its variables, its canonical form, and the
variables of that. -/
structure Prepared where
  vars : Declarations
  canonical : Guard
  canonicalVars : Declarations

/-- Checks a formula and brings it into canonical form. -/
def prepare (formula : Guard) : Except SortFault Prepared := do
  formula.check
  let vars ← formula.collectVars .empty
  let canonical := formula.canonical
  let canonicalVars ← canonical.collectVars .empty
  return ⟨vars, canonical, canonicalVars⟩

/-- Counts an answer of the backend. -/
def countAnswer (stats : Stats) (o : Outcome) : Stats :=
  if o.isUnknown then { stats with unknown := stats.unknown + 1 }
  else { stats with solver := stats.solver + 1 }

/-- Decides a formula.  An ill-sorted formula fails before the backend is asked. -/
def decideFormula (b : Backend σ) (sem : IntSemantics) (formula : Guard) (o : Oracle σ) :
    Except Failure Outcome × Oracle σ :=
  let asked : Stats := { o.stats with total := o.stats.total + 1 }
  match prepare formula with
  | .error e => (.error (.typeMismatch e), { o with stats := asked })
  | .ok p =>
    match p.canonical.decideClosed sem with
    | some outcome =>
      (.ok (outcome.complete p.vars),
        { o with stats := { asked with lightweight := asked.lightweight + 1 } })
    | none =>
      match b.check o.state p.canonical p.canonicalVars with
      | (.error e, state) => (.error e, ⟨state, asked⟩)
      | (.ok outcome, state) => (.ok (outcome.complete p.vars), ⟨state, countAnswer asked outcome⟩)

/-- Decides whether an alternative can hold at the end of a path. -/
def decide (b : Backend σ) (sem : IntSemantics) (path alternative : Guard) (o : Oracle σ) :
    Except Failure Outcome × Oracle σ :=
  decideFormula b sem (.all [path, alternative]) o

end Oracle

end SinkReach
