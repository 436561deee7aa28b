/-
# Command lines

The two commands of the program and how they are written.

* `analyze SITES` decides the sites of a batch.
* `eval ROOT` evaluates a corpus.

An option has a long name after two dashes and may have a letter after one.  The value of an option
follows it, after an equals sign or as the next argument; letters without values may be run
together.  After two dashes alone, nothing is an option.  Every option but `--verbose` may be given
once.
-/
import SinkReach.Settings
import SinkReach.SpanTable

namespace SinkReach

/-- What the program is asked to do. -/
inductive Command where
  | analyze (sites table : String) (document? : Option String) (settings : Settings)
  | evaluate (root : String) (results? : Option String) (keepSpans : Bool) (settings : Settings)
deriving DecidableEq

namespace Command

/-! ## 1. Options -/

inductive Flag where
  | verbose
  | csv
  | json
  | results
  | keepSpans
  | config
  | preset
  | workers
  | timeoutMs
deriving DecidableEq

namespace Flag

/-- The name after two dashes. -/
def long : Flag → String
  | .verbose => "verbose"
  | .csv => "csv"
  | .json => "json"
  | .results => "results"
  | .keepSpans => "keep-spans"
  | .config => "config"
  | .preset => "preset"
  | .workers => "workers"
  | .timeoutMs => "timeout-ms"

/-- The letter after one dash. -/
def short? : Flag → Option Char
  | .verbose => some 'v'
  | .config => some 'c'
  | .preset => some 'p'
  | .workers => some 'w'
  | _ => none

def takesValue : Flag → Bool
  | .verbose | .keepSpans => false
  | _ => true

/-- The options that both commands have. -/
def shared : List Flag := [.verbose, .config, .preset, .workers, .timeoutMs]

end Flag

/-- The arguments of a command, sorted out. -/
structure Arguments where
  options : List (Flag × String) := []
  operands : List String := []

namespace Arguments

/-- The value of an option, if it is given. -/
def value? (a : Arguments) (f : Flag) : Option String := a.options.lookup f

/-- Adds an option; only the verbosity may be given again. -/
def add? (a : Arguments) (f : Flag) (value : String) : Option Arguments :=
  if f ≠ .verbose ∧ (a.value? f).isSome then none
  else some { a with options := a.options ++ [(f, value)] }

def addOperand (a : Arguments) (s : String) : Arguments := { a with operands := a.operands ++ [s] }

end Arguments

/-- Whether an argument is an option rather than a value. -/
def isOption (arg : String) : Bool := arg.toList.head? = some '-' && arg ≠ "-"

/-- Letters run together: the options without values, and the last one with the value that is
attached to it, if it takes one. -/
def letters? (flags : List Flag) (a : Arguments) :
    List Char → Option (Arguments × Option (Flag × Option String))
  | [] => some (a, none)
  | c :: cs => do
    let f ← flags.find? (·.short? = some c)
    if f.takesValue then
      match cs with
      | [] => some (a, some (f, none))
      | '=' :: value => some (a, some (f, some (.ofList value)))
      | value => some (a, some (f, some (.ofList value)))
    else letters? flags (← a.add? f "") cs

/-- An option with a long name, and the value that is attached to it. -/
def long? (flags : List Flag) (body : List Char) : Option (Flag × Option String) := do
  let name := body.takeWhile (· ≠ '=')
  let f ← flags.find? (·.long = .ofList name)
  return (f, if body.contains '=' then some (.ofList (body.drop (name.length + 1))) else none)

/-- What an argument is, when the options are known. -/
inductive Reading where
  | operand
  /-- Options that need nothing else. -/
  | complete (a : Arguments)
  /-- An option whose value is the next argument. -/
  | pending (a : Arguments) (f : Flag)

/-- Reads one argument. -/
def readOne? (flags : List Flag) (a : Arguments) (arg : String) : Option Reading :=
  match arg.toList with
  | '-' :: '-' :: body => do
    let (f, value?) ← long? flags body
    match f.takesValue, value? with
    | true, some value => return .complete (← a.add? f value)
    | true, none => return .pending a f
    | false, none => return .complete (← a.add? f "")
    | false, some _ => none
  | '-' :: c :: cs => do
    match ← letters? flags a (c :: cs) with
    | (a, none) => return .complete a
    | (a, some (f, some value)) => return .complete (← a.add? f value)
    | (a, some (f, none)) => return .pending a f
  | _ => some .operand

/-- Sorts out the arguments of a command. -/
def sortOut? (flags : List Flag) (a : Arguments) : List String → Option Arguments
  | [] => some a
  | "--" :: rest => some (rest.foldl Arguments.addOperand a)
  | arg :: rest =>
    match readOne? flags a arg with
    | none => none
    | some .operand => sortOut? flags (a.addOperand arg) rest
    | some (.complete a) => sortOut? flags a rest
    | some (.pending a f) =>
      match rest with
      | [] => none
      | value :: rest =>
        if isOption value then none
        else match a.add? f value with
          | some a => sortOut? flags a rest
          | none => none

/-! ## 2. Values -/

/-- An unsigned 64-bit number in decimal, possibly with a plus sign. -/
def word? (s : String) : Option UInt64 :=
  let ds := match s.toList with
    | '+' :: ds => ds
    | ds => ds
  if ds.isEmpty ∨ !ds.all Char.isDigit ∨ UInt64.size ≤ Text.ofDigits ds then none
  else some (.ofNat (Text.ofDigits ds))

/-- A path has a character at least. -/
def path? (s : String) : Option String := if s = "" then none else some s

def preset? (s : String) : Option Preset := (Preset.ofName s).toOption

/-- The value of an option, read; `none` if it cannot be. -/
def optionValue? {α : Type} (read : String → Option α) (a : Arguments) (f : Flag) :
    Option (Option α) :=
  match a.value? f with
  | none => some none
  | some s => (read s).map some

/-- The settings among the arguments.  A file and a preset exclude each other. -/
def settings? (a : Arguments) : Option Settings := do
  let s : Settings := ⟨← optionValue? path? a .config, ← optionValue? preset? a .preset,
    ← optionValue? word? a .workers, ← optionValue? word? a .timeoutMs⟩
  if s.file?.isSome ∧ s.preset?.isSome then none else some s

/-! ## 3. Commands -/

/-- `analyze`, after its name. -/
def analyze? (args : List String) : Option Command := do
  let a ← sortOut? (.csv :: .json :: Flag.shared) {} args
  let [sites] := a.operands | none
  return .analyze (← path? sites) ((← optionValue? path? a .csv).getD spanTableName)
    (← optionValue? path? a .json) (← settings? a)

/-- `eval`, after its name. -/
def evaluate? (args : List String) : Option Command := do
  let a ← sortOut? (.results :: .keepSpans :: Flag.shared) {} args
  let [root] := a.operands | none
  return .evaluate (← path? root) (← optionValue? path? a .results)
    (a.value? .keepSpans).isSome (← settings? a)

/-- The command of a command line; `none` if it is not one. -/
def parse? : List String → Option Command
  | [] => none
  | "analyze" :: args => analyze? args
  | "eval" :: args => evaluate? args
  | arg :: args =>
    match readOne? [.verbose] {} arg with
    | some (.complete _) => parse? args
    | _ => none

end Command

end SinkReach
