/-
# Verdicts

The decision about one site: the outcome, and the alternative of the pattern that it is about.  A
verdict is DANGEROUS unless its outcome is that nothing can happen; what was not decided counts
as dangerous.
-/
import SinkReach.Site
import SinkReach.Solver.Outcome

namespace SinkReach

/-- The alternative of a pattern that a verdict is about. -/
structure PatternMatch where
  pattern : String
  template : String
  /-- The place of the alternative among those of the pattern. -/
  alternative : UInt64
deriving DecidableEq

namespace PatternMatch

def toJson (m : PatternMatch) : Json :=
  .obj [("pattern", .str m.pattern), ("template", .str m.template),
    ("alternative", .ofUInt64 m.alternative)]

def ofJson? (j : Json) : Option PatternMatch := do
  let [some pattern, some template, some alternative] ←
    j.record? ["pattern", "template", "alternative"] | none
  return ⟨← pattern.str?, ← template.str?, ← alternative.uint64?⟩

end PatternMatch

/-- The decision about a site. -/
structure Verdict where
  site : SiteId
  /-- The value of the site as it is shown. -/
  value : String
  outcome : Outcome
  /-- The alternative that can hold, or that was not decided. -/
  matched : Option PatternMatch := none
deriving DecidableEq

namespace Verdict

def isDangerous (v : Verdict) : Bool := !v.outcome.isUnsat

/-- What is dangerous about the site: the template that was matched, or the value itself where no
pattern is involved. -/
def dangerousValue (v : Verdict) : String :=
  match v.matched with
  | some m => m.template
  | none => v.value

def render (v : Verdict) : String :=
  v.site.render ++ ": " ++ v.outcome.render ++
    match v.matched with
    | some m => " [pattern " ++ m.pattern ++ " #" ++ toString m.alternative.toNat ++ "]"
    | none => ""

/-- A verdict as an object: the fields of the outcome stand beside its own. -/
def toJson (v : Verdict) : Json :=
  .obj ([("site", v.site.toJson), ("value", .str v.value)] ++ v.outcome.fields ++
    match v.matched with
    | some m => [("matched", m.toJson)]
    | none => [])

/-- The match of a verdict: absent, `null`, or written out. -/
def matchOfJson? : Option Json → Option (Option PatternMatch)
  | none | some .null => some none
  | some j => (PatternMatch.ofJson? j).map some

/-- A verdict from an object.  The fields that are not its own are handed to the outcome, and so
have to be readable. -/
def ofJson? : Json → Option Verdict
  | .obj fields => do
    let some site ← Json.field? "site" fields | none
    let some value ← Json.field? "value" fields | none
    let matched ← Json.field? "matched" fields
    let others := fields.filter fun f => f.1 ∉ ["site", "value", "matched"]
    if Json.fieldsReadable others then
      return ⟨← SiteId.ofJson? site, ← value.str?, ← Outcome.ofFields? others,
        ← matchOfJson? matched⟩
    else none
  | _ => none

end Verdict

end SinkReach
