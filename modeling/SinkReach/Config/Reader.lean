/-
# Reading configurations

A configuration is a YAML document: a mapping of known keys, each given once at most.  A text is
any scalar, a number is a plain one, and a choice is a scalar with its name, or a tag with its name
on nothing.  What is given as nothing or `null` is left out, where it may be.
-/
import SinkReach.Config.Document
import SinkReach.Yaml.Node

namespace SinkReach.Config

open Yaml (Node ScalarStyle)

/-! ## 1. Scalars -/

/-- The texts that stand for nothing. -/
def isNull (text : String) : Bool := text ∈ ["null", "Null", "NULL", "~"]

/-- The value of a digit of a base. -/
def digitOf? (base : Nat) (c : Char) : Option Nat :=
  (Text.hexValue? c).filter (· < base)

/-- A number below a bound, by its digits in a base. -/
def ofDigits? (base bound : Nat) (cs : List Char) : Option Nat :=
  if cs.isEmpty then none
  else do
    let n ← cs.foldlM (fun n c => do return base * n + (← digitOf? base c)) 0
    if n < bound then some n else none

/-- A number below a bound: decimal without needless zeros, or in base 16, 8 or 2 after `0x`,
`0o` or `0b`; a plus sign may stand in front. -/
def natural? (bound : Nat) (text : String) : Option Nat :=
  let cs := match text.toList with
    | '+' :: cs => cs
    | cs => cs
  match cs with
  | '0' :: 'x' :: digits => ofDigits? 16 bound digits
  | '0' :: 'o' :: digits => ofDigits? 8 bound digits
  | '0' :: 'b' :: digits => ofDigits? 2 bound digits
  | '0' :: _ :: _ => none
  | cs => ofDigits? 10 bound cs

/-- The tag of integers. -/
def integerTag : String := "tag:yaml.org,2002:int"

/-- The tag of what stands for nothing. -/
def nullTag : String := "tag:yaml.org,2002:null"

/-! ## 2. Nodes

All of these take nodes in which aliases are resolved. -/

/-- The text of a scalar. -/
def text? : Node → Option String
  | .scalar _ _ text => some text
  | _ => none

/-- A number below a bound: a plain scalar, or a literal one that is tagged as an integer. -/
def number? (bound : Nat) : Node → Option Nat
  | .scalar tag? style text =>
    if style = .plain ∨ (style = .literal ∧ tag? = some integerTag) then natural? bound text
    else none
  | _ => none

def uint64? (n : Node) : Option UInt64 := (number? UInt64.size n).map UInt64.ofNat

def uint32? (n : Node) : Option UInt32 := (number? UInt32.size n).map UInt32.ofNat

/-- The name of a choice. -/
def choice? : Node → Option String
  | .scalar none _ text => some text
  | .scalar (some tag) style text =>
    if style = .plain ∧ (text = "" ∨ isNull text) then
      some (if tag.startsWith "!" then (tag.drop 1).toString else tag)
    else none
  | _ => none

/-- What may be left out, if it is given. -/
def optional? {α : Type} (read : Node → Option α) : Node → Option (Option α)
  | .scalar none .plain text =>
    if text = "" ∨ isNull text then some none
    else (read (.scalar none .plain text)).map some
  | .scalar (some tag) .plain text =>
    if tag = nullTag then if isNull text then some none else none
    else (read (.scalar (some tag) .plain text)).map some
  | node => (read node).map some

/-- The items of a list; nothing is an empty one. -/
def items? (d : Yaml.Document) : Node → Option (List Node)
  | .sequence items => some (items.map d.resolve)
  | .scalar _ .plain "" => some []
  | _ => none

/-- The pairs of a mapping with its keys as texts; nothing is an empty one. -/
def pairs? (d : Yaml.Document) : Node → Option (List (String × Node))
  | .mapping pairs => pairs.mapM fun (k, v) => do return (← text? (d.resolve k), d.resolve v)
  | .scalar _ .plain "" => some []
  | _ => none

/-- The values of known keys, in the order of the keys.  Every key of the mapping has to be one of
them, and may stand once only. -/
def fields? (d : Yaml.Document) (keys : List String) (n : Node) : Option (List (Option Node)) := do
  let pairs ← pairs? d n
  if pairs.all (fun p => keys.contains p.1) then
    keys.mapM fun key =>
      match pairs.filter (·.1 = key) with
      | [] => some none
      | [(_, v)] => some (some v)
      | _ => none
  else none

/-- The value of a key that may be missing. -/
def field? {α : Type} (read : Node → Option α) (default : α) : Option Node → Option α
  | none => some default
  | some n => read n

/-! ## 3. Sections -/

def solverOverrides? (d : Yaml.Document) (n : Node) : Option SolverOverrides := do
  let [timeout, seed, mode, width] ←
    fields? d ["timeout_ms", "seed", "int_semantics", "int_width"] n | none
  return ⟨← field? (optional? uint64?) none timeout, ← field? (optional? uint32?) none seed,
    ← field? (optional? fun n => (choice? n).bind IntMode.ofName?) none mode,
    ← field? (optional? uint32?) none width⟩

def parallelConfig? (d : Yaml.Document) (n : Node) : Option ParallelConfig := do
  let [workers] ← fields? d ["workers"] n | none
  return ⟨← field? uint64? 0 workers⟩

def patternSpec? (d : Yaml.Document) (n : Node) : Option PatternSpec := do
  let [some name, some template, mode, sinks, argIndex] ←
    fields? d ["name", "template", "mode", "sinks", "arg_index"] n | none
  return ⟨← text? name, ← text? template,
    ← field? (fun n => (choice? n).bind MatchMode.ofName?) .exact mode,
    ← field? (fun n => do (← items? d n).mapM text?) [] sinks,
    ← field? (optional? uint64?) none argIndex⟩

def patternSpecs? (d : Yaml.Document) (n : Node) : Option (List PatternSpec) := do
  (← items? d n).mapM (patternSpec? d)

/-- The configuration document of a tree. -/
def Document.ofYaml? (d : Yaml.Document) : Option Document := do
  let [version, preset, solver, parallel, patterns] ←
    fields? d ["version", "preset", "solver", "parallel", "patterns"] (d.resolve d.root) | none
  return ⟨← field? (optional? uint32?) none version, ← field? (optional? text?) none preset,
    ← field? (optional? (solverOverrides? d)) none solver,
    ← field? (optional? (parallelConfig? d)) none parallel,
    ← field? (optional? (patternSpecs? d)) none patterns⟩

/-- Reads a configuration. -/
def read (text : String) : Except ConfigFault Config :=
  match (Yaml.Document.read? text).bind Document.ofYaml? with
  | some d => d.load
  | none => .error .malformed

end SinkReach.Config
