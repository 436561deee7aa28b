/-
# A run over many sites

The sites of a run are decided by a number of WORKERS.  The workers share a cursor into the list
of sites, a flag that asks them to stop, the verdicts submitted so far, the counts of those that
have ended, and the first failure.  Each has a backend of its own.

A worker takes atomic steps (`Worker.step`): it creates its backend, looks at the flag, takes the
next place from the cursor, looks up the site of that place, decides it and submits the verdict,
and at the end adds its counts.  `run` lets one worker after the other take its steps to the end;
the report has the verdicts in the order of the sites whatever order they arrive in.
-/
import SinkReach.Report
import SinkReach.Scan

namespace SinkReach

/-- What a run is about. -/
structure Job (σ : Type) where
  backend : Backend σ
  /-- Creates the state of a worker's backend, or fails to. -/
  create : Nat → Except Failure σ
  semantics : IntSemantics
  patterns : PatternSet
  sites : List Site

/-- What the workers of a run share. -/
structure Shared where
  cursor : Nat := 0
  aborted : Bool := false
  submitted : Submissions := {}
  stats : Stats := {}
  fatal : Option Failure := none

namespace Shared

/-- Asks the workers to stop, and keeps the failure if it is the first. -/
def fail (s : Shared) (e : Failure) : Shared :=
  { s with aborted := true, fatal := s.fatal.or (some e) }

/-- What a run gives once all of its workers have ended. -/
def result (s : Shared) : Except Failure (Report × Stats) :=
  match s.fatal with
  | some e => .error e
  | none => .ok (s.submitted.finalize, s.stats)

end Shared

/-- Where a worker is in its work. -/
inductive Worker (σ : Type) where
  /-- It has yet to create its backend. -/
  | starting (id : Nat)
  /-- It is about to look at the flag. -/
  | polling (o : Oracle σ)
  /-- It is about to take a place from the cursor. -/
  | claiming (o : Oracle σ)
  /-- It is about to look up the site of a place. -/
  | locating (o : Oracle σ) (index : Nat)
  /-- It is about to decide the site of a place. -/
  | deciding (o : Oracle σ) (index : Nat) (site : Site)
  /-- It is about to add its counts. -/
  | closing (o : Oracle σ)
  /-- It has ended. -/
  | ended

namespace Worker

variable {σ : Type}

/-- One step of a worker. -/
def step (job : Job σ) : Worker σ → Shared → Worker σ × Shared
  | .starting id, s =>
    match job.create id with
    | .ok state => (.polling ⟨state, {}⟩, s)
    | .error e => (.ended, s.fail e)
  | .polling o, s => (if s.aborted then .closing o else .claiming o, s)
  | .claiming o, s => (.locating o s.cursor, { s with cursor := s.cursor + 1 })
  | .locating o index, s =>
    match job.sites[index]? with
    | some site => (.deciding o index site, s)
    | none => (.closing o, s)
  | .deciding o index site, s =>
    match site.analyzeOrUnknown job.backend job.semantics job.patterns o with
    | (.ok v, o) => (.polling o, { s with submitted := s.submitted.submit index v })
    | (.error e, o) => (.closing o, s.fail e)
  | .closing o, s => (.ended, { s with stats := s.stats.merge o.stats })
  | .ended, s => (.ended, s)

/-- Takes a number of steps. -/
def steps (job : Job σ) : Nat → Worker σ → Shared → Worker σ × Shared
  | 0, w, s => (w, s)
  | n + 1, w, s =>
    let (w, s) := w.step job s
    steps job n w s

end Worker

namespace Job

variable {σ : Type}

/-- Steps enough for a worker to end: it creates a backend, takes four steps for each site and at
most four to find that there are no more, and closes. -/
def stepBound (job : Job σ) : Nat := 4 * (job.sites.length + 1) + 2

/-- Lets a worker work to its end. -/
def runWorker (job : Job σ) (s : Shared) (id : Nat) : Shared :=
  (Worker.steps job job.stepBound (.starting id) s).2

/-- Runs a number of workers, at least one, unless there is nothing to do. -/
def run (job : Job σ) (workers : Nat) : Except Failure (Report × Stats) :=
  if job.sites.isEmpty then .ok (⟨[]⟩, {})
  else ((List.range (max 1 (min workers job.sites.length))).foldl job.runWorker {}).result

end Job

end SinkReach
