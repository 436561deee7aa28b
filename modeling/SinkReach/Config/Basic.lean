/-
# Configuration

What an analysis is run with: the settings of the solver, the number of workers, and the
patterns.  A configuration starts from a PRESET, which fixes the time the solver gets for a
query, and every section of it is checked before use.
-/
import SinkReach.Integer
import SinkReach.Pattern.Basic

namespace SinkReach

/-! ## 1. Sections and their validation -/

/-- A section of a configuration: it has a name and can be checked. -/
class Section (α : Type) where
  validate : α → Except ConfigFault Unit
  sectionName : String := "Config"

/-- Checks sections one after the other; the first fault counts. -/
def Section.validateAll {α : Type} [Section α] : List α → Except ConfigFault Unit
  | [] => .ok ()
  | a :: as => do
    Section.validate a
    validateAll as

/-! ## 2. Presets -/

/-- Ready-made amounts of time for the solver. -/
inductive Preset where
  | fast
  | balanced
  | thorough
deriving DecidableEq

namespace Preset

/-- The preset where none is named. -/
def standard : Preset := .balanced

/-- The time for a query, in milliseconds. -/
def timeoutMs : Preset → UInt64
  | .fast => 1000
  | .balanced => 5000
  | .thorough => 30000

def name : Preset → String
  | .fast => "fast"
  | .balanced => "balanced"
  | .thorough => "thorough"

/-- The preset of a name, upper and lower case being the same.  No letter of these names is the
small form of a letter outside ASCII, so ASCII case is all that matters. -/
def ofName (s : String) : Except ConfigFault Preset :=
  match s.toLower with
  | "fast" => .ok .fast
  | "balanced" => .ok .balanced
  | "thorough" => .ok .thorough
  | _ => .error (.unknownPreset s)

end Preset

/-! ## 3. The solver -/

/-- How integers are read, as a configuration names it. -/
inductive IntMode where
  | unbounded
  | wrapping
deriving DecidableEq

def IntMode.name : IntMode → String
  | .unbounded => "unbounded"
  | .wrapping => "wrapping"

def IntMode.ofName? : String → Option IntMode
  | "unbounded" => some .unbounded
  | "wrapping" => some .wrapping
  | _ => none

/-- The widest words the solver is asked to wrap at. -/
def maxIntWidth : UInt32 := 64

/-- The settings of the solver. -/
structure SolverConfig where
  /-- The time for a query, in milliseconds. -/
  timeoutMs : UInt64
  seed : UInt32
  intMode : IntMode
  /-- The width at which integers wrap, if they do. -/
  intWidth : UInt32
deriving DecidableEq

namespace SolverConfig

def ofPreset (p : Preset) : SolverConfig := ⟨p.timeoutMs, 0, .unbounded, maxIntWidth⟩

/-- The settings where nothing is configured. -/
def standard : SolverConfig := ofPreset .standard

/-- Makes integers wrap at a width. -/
def wrapping (c : SolverConfig) (bits : UInt32) : SolverConfig :=
  { c with intMode := .wrapping, intWidth := bits }

/-- Makes integers unbounded. -/
def unbounded (c : SolverConfig) : SolverConfig := { c with intMode := .unbounded }

/-- How integers are read. -/
def semantics (c : SolverConfig) : IntSemantics :=
  match c.intMode with
  | .unbounded => .unbounded
  | .wrapping => .wrapping c.intWidth

/-- The time is positive and at most ten minutes; where integers wrap, the width is that of a
machine word at most. -/
def validate (c : SolverConfig) : Except ConfigFault Unit :=
  if c.timeoutMs.toNat < 1 ∨ 600000 < c.timeoutMs.toNat then
    .error (.range "solver.timeout_ms" c.timeoutMs.toNat 1 600000
      "A zero timeout would turn every verdict into UNKNOWN")
  else if c.intMode = .wrapping ∧ (c.intWidth.toNat < 1 ∨ maxIntWidth.toNat < c.intWidth.toNat) then
    .error (.range "solver.int_width" c.intWidth.toNat 1 maxIntWidth.toNat
      "Bit-vector width must fit a machine integer")
  else .ok ()

end SolverConfig

instance : Section SolverConfig := ⟨SolverConfig.validate, "SolverConfig"⟩

/-! ## 4. Workers -/

/-- How many workers a run has; none stands for one for each processor. -/
structure ParallelConfig where
  workers : UInt64 := 0
deriving DecidableEq

namespace ParallelConfig

/-- The number of workers on a machine with the given number of processors. -/
def effectiveWorkers (c : ParallelConfig) (processors : Nat) : Nat :=
  if c.workers = 0 then max 1 processors else c.workers.toNat

def validate (c : ParallelConfig) : Except ConfigFault Unit :=
  if 256 < c.workers.toNat then
    .error (.range "parallel.workers" c.workers.toNat 0 256
      "Number of workers must be reasonable (0=auto)")
  else .ok ()

end ParallelConfig

instance : Section ParallelConfig := ⟨ParallelConfig.validate, "ParallelConfig"⟩

/-! ## 5. Patterns -/

/-- No sink of a pattern is blank.  The template is looked at when the pattern is compiled. -/
def PatternSpec.validate (p : PatternSpec) : Except ConfigFault Unit :=
  if p.sinks.any Text.isBlank then
    .error (.invalid ("pattern '" ++ p.name ++ "' lists an empty sink name"))
  else .ok ()

instance : Section PatternSpec := ⟨PatternSpec.validate, "PatternConfig"⟩

/-- The patterns where none are configured. -/
def standardPatterns : List PatternSpec := [
  { name := "proc_self_mem", template := "/proc/self/mem", sinks := ["std::fs::write"],
    argIndex := some 0 },
  { name := "proc_any", template := "/proc/*", sinks := ["std::fs::write"], argIndex := some 0 },
  { name := "rustc_env", template := "RUSTC", sinks := ["std::env::set_var"],
    argIndex := some 0 },
  { name := "rm_rf", template := "rm -rf *", sinks := ["std::process::Command::new"],
    argIndex := some 0 }]

/-! ## 6. The whole -/

/-- What an analysis is run with. -/
structure Config where
  preset : Preset
  solver : SolverConfig
  parallel : ParallelConfig
  patterns : List PatternSpec
deriving DecidableEq

namespace Config

/-- The configuration of a preset. -/
def ofPreset (p : Preset) : Config := ⟨p, .ofPreset p, {}, standardPatterns⟩

def withWorkers (c : Config) (workers : UInt64) : Config := { c with parallel := ⟨workers⟩ }

def withTimeout (c : Config) (ms : UInt64) : Config :=
  { c with solver := { c.solver with timeoutMs := ms } }

/-- The solver is checked first, then the workers, then the patterns in order. -/
def validate (c : Config) : Except ConfigFault Unit := do
  c.solver.validate
  c.parallel.validate
  Section.validateAll c.patterns

end Config

instance : Section Config := ⟨Config.validate, "AnalysisConfig"⟩

end SinkReach
