/-
# Configuration documents

A configuration as it is written down: a version, and sections that may be left out.  What is left
out is taken from the preset.

`Document.load` makes a configuration of a document and `Document.ofConfig` writes one out in
full.
-/
import SinkReach.Config.Basic

namespace SinkReach.Config

/-- The settings of the solver that a document gives. -/
structure SolverOverrides where
  timeoutMs : Option UInt64 := none
  seed : Option UInt32 := none
  intMode : Option IntMode := none
  intWidth : Option UInt32 := none
deriving DecidableEq

/-- Puts the settings that are given over others. -/
def SolverOverrides.applyTo (o : SolverOverrides) (base : SolverConfig) : SolverConfig :=
  ⟨o.timeoutMs.getD base.timeoutMs, o.seed.getD base.seed, o.intMode.getD base.intMode,
    o.intWidth.getD base.intWidth⟩

/-- A configuration as it is written down. -/
structure Document where
  version : Option UInt32 := none
  preset : Option String := none
  solver : Option SolverOverrides := none
  parallel : Option ParallelConfig := none
  patterns : Option (List PatternSpec) := none
deriving DecidableEq

namespace Document

/-- The version is looked at first. -/
def checkVersion (d : Document) : Except ConfigFault Unit :=
  match d.version with
  | none => .error .missingVersion
  | some v => if v = formatVersion then .ok () else .error (.unsupportedVersion v)

/-- The preset of a document, or the standard one. -/
def presetOf (d : Document) : Except ConfigFault Preset :=
  match d.preset with
  | none => .ok .standard
  | some name => Preset.ofName name

/-- The configuration that a document describes, not yet checked. -/
def resolve (d : Document) (preset : Preset) : Config where
  preset := preset
  solver := (d.solver.getD {}).applyTo (.ofPreset preset)
  parallel := d.parallel.getD {}
  patterns := d.patterns.getD standardPatterns

/-- The configuration of a document. -/
def load (d : Document) : Except ConfigFault Config := do
  d.checkVersion
  let preset ← d.presetOf
  let config := d.resolve preset
  config.validate
  return config

/-- The document that writes a configuration out in full. -/
def ofConfig (c : Config) : Document where
  version := some formatVersion
  preset := some c.preset.name
  solver := some ⟨some c.solver.timeoutMs, some c.solver.seed, some c.solver.intMode,
    some c.solver.intWidth⟩
  parallel := some c.parallel
  patterns := some c.patterns

end Document

end SinkReach.Config
