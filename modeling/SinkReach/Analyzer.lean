/-
# The analyzer

A checked configuration with its patterns compiled, ready to decide lists of sites.
-/
import SinkReach.Config.Basic
import SinkReach.Pool
import SinkReach.Solver.Backends

namespace SinkReach

/-- A configuration ready for use. -/
structure Analyzer where
  config : Config
  patterns : PatternSet

namespace Analyzer

variable {σ : Type}

/-- Checks a configuration and compiles its patterns. -/
def ofConfig (c : Config) : Except Failure Analyzer :=
  match c.validate with
  | .error e => .error (.config e)
  | .ok () => do
    let patterns ← PatternSet.compile c.patterns
    return ⟨c, patterns⟩

/-- The job of deciding a list of sites. -/
def job (a : Analyzer) (b : Backend σ) (create : Nat → Except Failure σ) (sites : List Site) :
    Job σ :=
  ⟨b, create, a.config.solver.semantics, a.patterns, sites⟩

/-- Decides a list of sites, on a machine with the given number of processors. -/
def analyze (a : Analyzer) (b : Backend σ) (create : Nat → Except Failure σ) (processors : Nat)
    (sites : List Site) : Except Failure (Report × Stats) :=
  (a.job b create sites).run (a.config.parallel.effectiveWorkers processors)

end Analyzer

/-- How an analyzer decides a list of sites. -/
abbrev Decider := Analyzer → List Site → Except Failure (Report × Stats)

/-- Decides sites with no solver at hand: every list that is not empty fails. -/
def Decider.withoutSolver : Decider := fun a sites =>
  a.analyze (Backend.constant (.ok .unsat)) (fun _ => .error Backend.unavailable) 1 sites

end SinkReach
