/-
# The decision about one site

The alternatives of the applicable patterns are put to the oracle in order, patterns as they are
configured and the alternatives of each from the first part on.  The first one that can hold
decides the site.  If there is none, the first one that was not decided does, and if all were
decided nothing can happen.

`Site.analyze` hands back every failure.  `Site.analyzeOrUnknown` records those that concern the
site alone in its verdict.
-/
import SinkReach.Pattern.Alternatives
import SinkReach.Solver.Oracle
import SinkReach.Verdict

namespace SinkReach

/-- How far the scan of a site has come. -/
inductive Finding where
  /-- An alternative can hold. -/
  | found (matched : PatternMatch) (model : Assignment)
  /-- None so far; the first one that was not decided is kept. -/
  | none (open? : Option (PatternMatch × Reason))

namespace Scan

variable {σ : Type}

/-- What a verdict says about an alternative of a pattern. -/
def matchOf (p : Pattern) (k : Nat) : PatternMatch := ⟨p.name, p.render, .ofNat k⟩

/-- Puts the alternatives of a pattern to the oracle, counted from `k`. -/
def alternatives (b : Backend σ) (sem : IntSemantics) (path : Guard) (p : Pattern) (k : Nat)
    (open? : Option (PatternMatch × Reason)) (o : Oracle σ) :
    List Guard → Except Failure Finding × Oracle σ
  | [] => (.ok (.none open?), o)
  | g :: gs =>
    match o.decide b sem path g with
    | (.error e, o) => (.error e, o)
    | (.ok (.sat model), o) => (.ok (.found (matchOf p k) model), o)
    | (.ok .unsat, o) => alternatives b sem path p (k + 1) open? o gs
    | (.ok (.unknown reason), o) =>
      alternatives b sem path p (k + 1) (open?.or (some (matchOf p k, reason))) o gs

/-- Puts the alternatives of patterns to the oracle, pattern by pattern. -/
def patterns (b : Backend σ) (sem : IntSemantics) (path : Guard) (v : Value)
    (open? : Option (PatternMatch × Reason)) (o : Oracle σ) :
    List Pattern → Except Failure Finding × Oracle σ
  | [] => (.ok (.none open?), o)
  | p :: ps =>
    match p.alternatives v path with
    | .error e => (.error (.typeMismatch e), o)
    | .ok gs =>
      match alternatives b sem path p 0 open? o gs with
      | (.ok (.none open?), o) => patterns b sem path v open? o ps
      | decided => decided

end Scan

/-- The verdict that a finding gives on a site. -/
def Finding.verdict (site : Site) : Finding → Verdict
  | .found matched model => ⟨site.id, site.value.render, .sat model, some matched⟩
  | .none (some (matched, reason)) => ⟨site.id, site.value.render, .unknown reason, some matched⟩
  | .none Option.none => ⟨site.id, site.value.render, .unsat, Option.none⟩

namespace Site

variable {σ : Type}

/-- Decides a site. -/
def analyze (b : Backend σ) (sem : IntSemantics) (patterns : PatternSet) (site : Site)
    (o : Oracle σ) : Except Failure Verdict × Oracle σ :=
  let checked : Except SortFault PathCondition := do
    site.check
    PathCondition.ofGuards site.path
  match checked with
  | .error e => (.error (.typeMismatch e), o)
  | .ok path =>
    let applicable := patterns.applicable site.id.function site.id.argIndex
    match Scan.patterns b sem path.fold site.value none o applicable with
    | (.error e, o) => (.error e, o)
    | (.ok finding, o) => (.ok (finding.verdict site), o)

/-- The verdict on a site that could not be decided. -/
def undecided (site : Site) (reason : Reason) : Verdict :=
  ⟨site.id, site.value.render, .unknown reason, none⟩

/-- Turns a failure that concerns the site alone into a verdict. -/
def absorb (site : Site) : Except Failure Verdict → Except Failure Verdict
  | .error (.typeMismatch cause) => .ok (site.undecided (.typeMismatch cause.message))
  | .error (.solverTimeout _) => .ok (site.undecided .timeout)
  | result => result

/-- Decides a site; only failures that end the run are handed back. -/
def analyzeOrUnknown (b : Backend σ) (sem : IntSemantics) (patterns : PatternSet) (site : Site)
    (o : Oracle σ) : Except Failure Verdict × Oracle σ :=
  let (result, o) := site.analyze b sem patterns o
  (site.absorb result, o)

end Site

end SinkReach
