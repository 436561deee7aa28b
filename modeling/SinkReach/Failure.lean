/-
# What can go wrong

Every cause of failure of an analysis, with its wording in one function, `Failure.message`.  A
failure either spoils the site under analysis alone or the whole run; `Failure.scope` says which.
-/
import SinkReach.Term.Typing

namespace SinkReach

/-! ## 1. The operating system, patterns and site batches -/

/-- An error of the operating system on a file. -/
inductive OsError where
  | notFound
  | notDirectory
  | isDirectory
  /-- Any other error, in the system's words. -/
  | other (text : String)
deriving DecidableEq

def OsError.message : OsError → String
  | .notFound => "No such file or directory (os error 2)"
  | .notDirectory => "Not a directory (os error 20)"
  | .isDirectory => "Is a directory (os error 21)"
  | .other text => text

/-- Why a pattern cannot be used. -/
inductive PatternFault where
  | blankName
  | emptyTemplate
  | trailingEscape
  | adjacentWildcards
  | noLiteral
  | duplicateName
  /-- A fault reported in other words. -/
  | reported (reason : String)
deriving DecidableEq

def PatternFault.message : PatternFault → String
  | .blankName => "empty pattern name"
  | .emptyTemplate => "empty template"
  | .trailingEscape => "trailing escape character"
  | .adjacentWildcards => "adjacent wildcards"
  | .noLiteral => "template has no literal segment and would match every value"
  | .duplicateName => "duplicate pattern name"
  | .reported reason => reason

/-- Why a batch of sites cannot be used. -/
inductive BatchFault where
  /-- The text is not a batch. -/
  | malformed
  /-- The batch has a version that this library does not read. -/
  | unsupportedVersion (found : UInt32)
  /-- A fault reported in other words. -/
  | reported (detail : String)
deriving DecidableEq

/-- The version of batches, reports and configurations that this library reads and writes. -/
def formatVersion : UInt32 := 1

def BatchFault.message : BatchFault → String
  | .malformed => "invalid site batch"
  | .unsupportedVersion found =>
    "unsupported site batch version " ++ toString found.toNat ++ " (supported: "
      ++ toString formatVersion.toNat ++ ")"
  | .reported detail => detail

/-! ## 2. Configuration -/

/-- Why a configuration cannot be used. -/
inductive ConfigFault where
  /-- A field is outside its range. -/
  | range (field : String) (value min max : Nat) (hint : String)
  /-- The document does not say its version. -/
  | missingVersion
  /-- The document has a version that this library does not read. -/
  | unsupportedVersion (found : UInt32)
  /-- There is no preset of this name. -/
  | unknownPreset (name : String)
  /-- The document cannot be read. -/
  | io (cause : OsError)
  /-- The document is not a configuration. -/
  | malformed
  /-- The configuration contradicts itself. -/
  | invalid (detail : String)
deriving DecidableEq

def ConfigFault.message : ConfigFault → String
  | .range field value min max hint =>
    "Invalid range for field '" ++ field ++ "': " ++ toString value ++ " not in " ++ toString min
      ++ "..=" ++ toString max ++ ". " ++ hint
  | .missingVersion =>
    "Missing 'version' field in configuration file. "
      ++ "Add 'version: 1' to the top of your YAML file."
  | .unsupportedVersion found =>
    "Unsupported configuration version " ++ toString found.toNat ++ ". Supported versions: "
      ++ toString formatVersion.toNat
  | .unknownPreset name =>
    "Unknown preset '" ++ name ++ "'. Valid presets: fast, balanced, thorough"
  | .io cause => "IO error: " ++ cause.message
  | .malformed => "YAML parsing error"
  | .invalid detail => "Validation error: " ++ detail

/-! ## 3. Analysis -/

/-- Why an analysis, or one of its sites, failed. -/
inductive Failure where
  | typeMismatch (cause : SortFault)
  | solverUnavailable (detail : String)
  | solverTimeout (ms : UInt64)
  | malformedPattern (name : String) (cause : PatternFault)
  | config (cause : ConfigFault)
  | input (cause : BatchFault)
  | workerPool (detail : String)
  | io (cause : OsError)

def Failure.message : Failure → String
  | .typeMismatch cause => "Type mismatch: " ++ cause.message
  | .solverUnavailable detail => "Solver unavailable: " ++ detail
  | .solverTimeout ms => "Solver timeout after " ++ toString ms.toNat ++ "ms"
  | .malformedPattern name cause => "Malformed pattern '" ++ name ++ "': " ++ cause.message
  | .config cause => cause.message
  | .input cause => "Input error: " ++ cause.message
  | .workerPool detail => "Worker pool error: " ++ detail
  | .io cause => "IO error: " ++ cause.message

/-- How far a failure reaches. -/
inductive Scope where
  /-- It is recorded in the verdict of the site, and the run goes on. -/
  | site
  /-- It ends the run, and there is no report. -/
  | run
deriving DecidableEq

def Failure.scope : Failure → Scope
  | .typeMismatch _ | .solverTimeout _ => .site
  | _ => .run

end SinkReach
