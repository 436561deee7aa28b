/-
# Outcomes

The answer to the question whether a formula can be made true: yes, with a model; no; or not
known, with a reason.
-/
import SinkReach.Term.Json

namespace SinkReach

/-- Why a formula was not decided. -/
inductive Reason where
  | timeout
  | declined (detail : String)
  | typeMismatch (detail : String)
deriving DecidableEq

/-- The answer about a formula. -/
inductive Outcome where
  /-- The assignment makes the formula true. -/
  | sat (model : Assignment)
  /-- No assignment makes it true. -/
  | unsat
  /-- It was not decided. -/
  | unknown (reason : Reason)
deriving DecidableEq

def Reason.render : Reason → String
  | .timeout => "timeout"
  | .declined detail => "solver declined: " ++ detail
  | .typeMismatch detail => "type mismatch: " ++ detail

namespace Outcome

/-- The bare answer. -/
def label : Outcome → String
  | .sat _ => "SAT"
  | .unsat => "UNSAT"
  | .unknown _ => "UNKNOWN"

/-- The answer, with the reason if there is one. -/
def render : Outcome → String
  | .unknown reason => "UNKNOWN (" ++ reason.render ++ ")"
  | o => o.label

def isSat : Outcome → Bool
  | .sat _ => true
  | _ => false

def isUnsat : Outcome → Bool
  | .unsat => true
  | _ => false

def isUnknown : Outcome → Bool
  | .unknown _ => true
  | _ => false

def model? : Outcome → Option Assignment
  | .sat model => some model
  | _ => none

end Outcome

/-! ## In JSON

An outcome is a record whose field `result` says which one it is; a reason has its kind and, where
it carries one, its detail.  Either tag may be given by its place among the alternatives. -/

def Reason.toJson : Reason → Json
  | .timeout => .obj [("kind", .str "timeout")]
  | .declined detail => .obj [("kind", .str "solver_declined"), ("detail", .str detail)]
  | .typeMismatch detail => .obj [("kind", .str "type_mismatch"), ("detail", .str detail)]

/-- The fields of an outcome. -/
def Outcome.fields : Outcome → List (String × Json)
  | .sat model => [("result", .str "SAT"), ("model", model.toJson)]
  | .unsat => [("result", .str "UNSAT")]
  | .unknown reason => [("result", .str "UNKNOWN"), ("reason", reason.toJson)]

def Outcome.toJson (o : Outcome) : Json := .obj o.fields

/-- The place of a tag among the names of the alternatives. -/
def tagIndex? (names : List String) : Json → Option Nat
  | .str name => names.findIdx? (· = name)
  | .int n => if 0 ≤ n ∧ n.toNat < names.length then some n.toNat else none
  | _ => none

/-- A reason from the kind and the detail that are written for it. -/
def Reason.ofParts? (kind : Json) (detail : Option Json) : Option Reason := do
  match ← tagIndex? ["timeout", "solver_declined", "type_mismatch"] kind, detail with
  | 0, none | 0, some .null => return .timeout
  | 1, some (.str s) => return .declined s
  | 2, some (.str s) => return .typeMismatch s
  | _, _ => none

def Reason.ofJson? : Json → Option Reason
  | .arr [kind, detail] => Reason.ofParts? kind (some detail)
  | .obj fields => do
    let some kind ← Json.field? "kind" fields | none
    Reason.ofParts? kind (← Json.field? "detail" fields)
  | _ => none

/-- The names of the outcomes. -/
def outcomeNames : List String := ["SAT", "UNSAT", "UNKNOWN"]

/-- An outcome from the fields of a record; fields it does not know are passed over. -/
def Outcome.ofFields? (fields : List (String × Json)) : Option Outcome := do
  let some result ← Json.field? "result" fields | none
  match ← tagIndex? outcomeNames result with
  | 0 => do
    let some model ← Json.field? "model" fields | none
    return .sat (← Assignment.ofJson? model)
  | 1 => return .unsat
  | _ => do
    let some reason ← Json.field? "reason" fields | none
    return .unknown (← Reason.ofJson? reason)

/-- An outcome from a record, or from the list of its fields. -/
def Outcome.ofJson? : Json → Option Outcome
  | .obj fields => Outcome.ofFields? fields
  | .arr (result :: rest) => do
    match ← tagIndex? outcomeNames result, rest with
    | 0, [model] => return .sat (← Assignment.ofJson? model)
    | 1, _ => return .unsat
    | 2, [reason] => return .unknown (← Reason.ofJson? reason)
    | _, _ => none
  | _ => none

end SinkReach
