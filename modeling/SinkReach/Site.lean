/-
# Candidate sites

A candidate site is one argument of one call of a sink: which one it is, how its value is put
together, and the guards on the way to it.
-/
import SinkReach.Order
import SinkReach.Path
import SinkReach.Term.Json
import SinkReach.Term.Vars

namespace SinkReach

/-- Which argument of which call. -/
structure SiteId where
  /-- The sink. -/
  function : String
  /-- The place of the argument. -/
  argIndex : UInt64 := 0
  /-- Where the call stands in the source. -/
  span : String
deriving DecidableEq

namespace SiteId

def render (id : SiteId) : String :=
  id.function ++ "[" ++ toString id.argIndex.toNat ++ "] @ " ++ id.span

/-- By sink, then by argument, then by place in the source. -/
def cmp (a b : SiteId) : Ordering :=
  (compare a.function b.function).then
    ((compare a.argIndex.toNat b.argIndex.toNat).then (compare a.span b.span))

def toJson (id : SiteId) : Json :=
  .obj [("function", .str id.function), ("arg_index", .ofUInt64 id.argIndex),
    ("span", .str id.span)]

def ofJson? (j : Json) : Option SiteId := do
  let [some function, argIndex, some span] ← j.record? ["function", "arg_index", "span"] | none
  let argIndex ← match argIndex with
    | some j => j.uint64?
    | none => some 0
  return ⟨← function.str?, argIndex, ← span.str?⟩

end SiteId

/-- An argument of a sink that is to be decided. -/
structure Site where
  id : SiteId
  /-- How the argument is put together. -/
  value : Value
  /-- The guards on the way to the call, outermost first. -/
  path : List Guard := []
deriving DecidableEq

namespace Site

/-- The guards of a path are well-sorted and agree with the variables already declared. -/
def checkPath (vars : Declarations) : List Guard → Except SortFault Unit
  | [] => .ok ()
  | g :: gs => do
    g.check
    let vars ← g.collectVars vars
    checkPath vars gs

/-- Checks that the value is a string, that the guards are well-sorted, and that each variable
has one sort throughout. -/
def check (site : Site) : Except SortFault Unit := do
  let s ← site.value.sort
  if s ≠ .string then .error (.sinkArgument s)
  else
    let vars ← site.value.collectVars .empty
    checkPath vars site.path

/-- The site with one more guard at the end of its path. -/
def withGuard (site : Site) (g : Guard) : Site := { site with path := site.path ++ [g] }

/-- The site with more guards at the end of its path. -/
def withGuards (site : Site) (gs : List Guard) : Site := { site with path := site.path ++ gs }

def toJson (site : Site) : Json :=
  .obj [("id", site.id.toJson), ("value", site.value.toJson),
    ("path_conditions", .arr (Guard.toJsonAll site.path))]

def ofJson? (j : Json) : Option Site := do
  let [some id, some value, path] ← j.record? ["id", "value", "path_conditions"] | none
  let path ← match path with
    | some j => (← j.arr?).mapM Guard.ofJson?
    | none => some []
  return ⟨← SiteId.ofJson? id, ← Value.ofJson? value, path⟩

end Site

end SinkReach
