/-
# The settings of a run

A run takes its configuration from a file or from a preset, and lets flags have the last word on
the number of workers and on the time for the solver.
-/
import SinkReach.Complaint
import SinkReach.Config.Reader

namespace SinkReach

/-- The configuration in a file. -/
def Config.load (t : FileTree) (path : String) : Except ConfigFault Config :=
  match t.read path with
  | .ok text => Config.read text
  | .error e => .error (.io e)

/-- What the flags of a run say about its configuration. -/
structure Settings where
  /-- The configuration file. -/
  file? : Option String := none
  /-- The preset, where there is no file. -/
  preset? : Option Preset := none
  workers? : Option UInt64 := none
  timeoutMs? : Option UInt64 := none
deriving DecidableEq

namespace Settings

/-- Puts the flags over a configuration. -/
def override (s : Settings) (c : Config) : Config :=
  let c := match s.workers? with
    | some n => c.withWorkers n
    | none => c
  match s.timeoutMs? with
  | some ms => c.withTimeout ms
  | none => c

/-- The configuration before the flags are put over it. -/
def base (s : Settings) (t : FileTree) : Except Complaint Config :=
  match s.file? with
  | none => .ok (.ofPreset (s.preset?.getD .standard))
  | some path =>
    match Config.load t path with
    | .ok c => .ok c
    | .error e => .error ((Complaint.ofConfig e).within ("cannot load configuration " ++ path))

/-- The configuration of a run. -/
def resolve (s : Settings) (t : FileTree) : Except Complaint Config := do
  let c := s.override (← s.base t)
  match c.validate with
  | .ok () => return c
  | .error e => throw (.ofConfig e)

end Settings

end SinkReach
