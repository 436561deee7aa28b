/-
# The tree of a YAML text

Scalars, sequences and mappings, put together from the tokens of a text.  A node may be given a
name by an ANCHOR and stand again elsewhere by an ALIAS; anchors are numbered in the order in
which they come, and `Document.resolve` finds the node of an alias.
-/
import SinkReach.Yaml.Token

namespace SinkReach.Yaml

inductive Node where
  | scalar (tag? : Option String) (style : ScalarStyle) (text : String)
  | sequence (items : List Node)
  | mapping (pairs : List (Node × Node))
  /-- The node of an anchor, by its number. -/
  | alias (number : Nat)

/-- What stands where nothing is written. -/
def Node.absent : Node := .scalar none .plain ""

/-- What a text means: its tree, if there is one, and the nodes that have anchors. -/
structure Document where
  root : Node
  anchored : List (Nat × Node) := []

/-- The node that a node stands for. -/
def Document.resolve (d : Document) : Node → Node
  | .alias n => (d.anchored.lookup n).getD .absent
  | node => node

/-! ## 1. Names -/

/-- What is known of names at a place: the texts that tag handles stand for, the numbers of the
anchors, and the nodes of those that are complete. -/
structure Names where
  handles : List (String × String)
  anchors : List (String × Nat) := []
  anchored : List (Nat × Node) := []

namespace Names

/-- Gives an anchor the next number. -/
def addAnchor (names : Names) (name : String) : Nat × Names :=
  let number := names.anchors.length
  let others := names.anchors.filter (·.1 ≠ name)
  (number, { names with anchors := (name, number) :: others })

/-- Keeps the node of an anchor. -/
def complete (names : Names) (number : Nat) (node : Node) : Names :=
  { names with anchored := (number, node) :: names.anchored }

/-- The tag that a handle and a suffix stand for. -/
def tag? (names : Names) (handle suffix : String) : Option String :=
  if handle = "" then some suffix else (names.handles.lookup handle).map (· ++ suffix)

end Names

/-! ## 2. Nodes -/

/-- Anchor and tag in front of a node, in either order. -/
structure Properties where
  anchor? : Option String := none
  tag? : Option (String × String) := none

/-- Reads the anchor and the tag in front of a node. -/
def Properties.read : List Token → Properties × List Token
  | .anchor a :: .tag h s :: ts => (⟨some a, some (h, s)⟩, ts)
  | .tag h s :: .anchor a :: ts => (⟨some a, some (h, s)⟩, ts)
  | .anchor a :: ts => (⟨some a, none⟩, ts)
  | .tag h s :: ts => (⟨none, some (h, s)⟩, ts)
  | ts => ({}, ts)

/-- Whether no node can begin with a token, in a collection written by indentation. -/
def Token.endsBlockNode : Token → Bool
  | .key | .value | .blockEnd => true
  | _ => false

/-- What was read, with the names that are known after it and the tokens that follow. -/
abbrev Read (α : Type) := α × Names × List Token

mutual

/-- Reads a node.  `block` says that collections written by indentation may stand there, and
`indentless` that the entries of one may stand in the column of the key they belong to. -/
def readNode? : Nat → (block indentless : Bool) → Names → List Token → Option (Read Node)
  | 0, _, _, _, _ => none
  | _ + 1, _, _, names, .alias name :: ts => do
    return (.alias (← names.anchors.lookup name), names, ts)
  | fuel + 1, block, indentless, names, ts => do
    let (props, ts) := Properties.read ts
    let tag? ← match props.tag? with
      | some (h, s) => (names.tag? h s).map some
      | none => some none
    match props.anchor? with
    | some name =>
      let (number, names) := names.addAnchor name
      let (node, names, ts) ← readContent? fuel block indentless true tag? names ts
      return (node, names.complete number node, ts)
    | none => readContent? fuel block indentless false tag? names ts

/-- Reads a node after its anchor and tag. -/
def readContent? : Nat → (block indentless anchored : Bool) → Option String → Names →
    List Token → Option (Read Node)
  | 0, _, _, _, _, _, _ => none
  | fuel + 1, block, indentless, anchored, tag?, names, ts =>
    match ts with
    | .scalar style text :: ts => some (.scalar tag? style text, names, ts)
    | .flowSequenceStart :: ts => do
      let (items, names, ts) ← readFlowItems? fuel true names ts
      return (.sequence items, names, ts)
    | .flowMappingStart :: ts => do
      let (pairs, names, ts) ← readFlowPairs? fuel true names ts
      return (.mapping pairs, names, ts)
    | .blockEntry :: _ =>
      if indentless then do
        let (items, names, ts) ← readEntries? fuel true names ts
        return (.sequence items, names, ts)
      else if anchored || tag?.isSome then some (.scalar tag? .plain "", names, ts)
      else none
    | .blockSequenceStart :: rest =>
      if block then do
        let (items, names, ts) ← readEntries? fuel false names rest
        return (.sequence items, names, ts)
      else if anchored || tag?.isSome then some (.scalar tag? .plain "", names, ts)
      else none
    | .blockMappingStart :: rest =>
      if block then do
        let (pairs, names, ts) ← readPairs? fuel names rest
        return (.mapping pairs, names, ts)
      else if anchored || tag?.isSome then some (.scalar tag? .plain "", names, ts)
      else none
    | ts =>
      if anchored || tag?.isSome then some (.scalar tag? .plain "", names, ts) else none

/-- Reads the entries of a sequence written by indentation.  One in the column of its key has no
token for its end. -/
def readEntries? : Nat → (indentless : Bool) → Names → List Token → Option (Read (List Node))
  | 0, _, _, _ => none
  | fuel + 1, indentless, names, .blockEntry :: ts => do
    let isAbsent := match ts with
      | .blockEntry :: _ | .blockEnd :: _ => true
      | .key :: _ | .value :: _ => indentless
      | _ => false
    let (item, names, ts) ←
      if isAbsent then some (.absent, names, ts) else readNode? fuel true false names ts
    let (items, names, ts) ← readEntries? fuel indentless names ts
    return (item :: items, names, ts)
  | _ + 1, true, names, ts => some ([], names, ts)
  | _ + 1, false, names, .blockEnd :: ts => some ([], names, ts)
  | _ + 1, false, _, _ => none

/-- Reads the pairs of a mapping written by indentation. -/
def readPairs? : Nat → Names → List Token → Option (Read (List (Node × Node)))
  | 0, _, _ => none
  | fuel + 1, names, .key :: ts => do
    let (key, names, ts) ← readOptional? fuel names ts
    let (value, names, ts) ← match ts with
      | .value :: ts => readOptional? fuel names ts
      | ts => some (.absent, names, ts)
    let (pairs, names, ts) ← readPairs? fuel names ts
    return ((key, value) :: pairs, names, ts)
  | _ + 1, names, .blockEnd :: ts => some ([], names, ts)
  | _ + 1, _, _ => none

/-- Reads a key or a value of a mapping written by indentation, which may be absent. -/
def readOptional? : Nat → Names → List Token → Option (Read Node)
  | 0, _, _ => none
  | fuel + 1, names, ts =>
    if ts.head?.all Token.endsBlockNode then some (.absent, names, ts)
    else readNode? fuel true true names ts

/-- Reads the items of a flow sequence.  Commas stand between them, and one may stand at the
end.  A pair among them is a mapping of its own. -/
def readFlowItems? : Nat → (first : Bool) → Names → List Token → Option (Read (List Node))
  | 0, _, _, _ => none
  | _ + 1, _, names, .flowSequenceEnd :: ts => some ([], names, ts)
  | fuel + 1, first, names, ts => do
    let ts ← if first then some ts else match ts with
      | .flowEntry :: ts => some ts
      | _ => none
    match ts with
    | .flowSequenceEnd :: ts => some ([], names, ts)
    | .key :: ts => do
      let (key, names, ts) ← readFlowPart? fuel names ts
      let (value, names, ts) ← match ts with
        | .value :: ts => readFlowPart? fuel names ts
        | ts => some (.absent, names, ts)
      let (items, names, ts) ← readFlowItems? fuel false names ts
      return (.mapping [(key, value)] :: items, names, ts)
    | ts => do
      let (item, names, ts) ← readNode? fuel false false names ts
      let (items, names, ts) ← readFlowItems? fuel false names ts
      return (item :: items, names, ts)

/-- Reads the pairs of a flow mapping.  Commas stand between them, and one may stand at the end.
A key may stand alone. -/
def readFlowPairs? : Nat → (first : Bool) → Names → List Token → Option (Read (List (Node × Node)))
  | 0, _, _, _ => none
  | _ + 1, _, names, .flowMappingEnd :: ts => some ([], names, ts)
  | fuel + 1, first, names, ts => do
    let ts ← if first then some ts else match ts with
      | .flowEntry :: ts => some ts
      | _ => none
    match ts with
    | .flowMappingEnd :: ts => some ([], names, ts)
    | .key :: ts => do
      let (key, names, ts) ← readFlowPart? fuel names ts
      let (value, names, ts) ← match ts with
        | .value :: ts => readFlowPart? fuel names ts
        | ts => some (.absent, names, ts)
      let (pairs, names, ts) ← readFlowPairs? fuel false names ts
      return ((key, value) :: pairs, names, ts)
    | ts => do
      let (key, names, ts) ← readNode? fuel false false names ts
      let (pairs, names, ts) ← readFlowPairs? fuel false names ts
      return ((key, .absent) :: pairs, names, ts)

/-- Reads a key or a value in a flow collection, which may be absent. -/
def readFlowPart? : Nat → Names → List Token → Option (Read Node)
  | 0, _, _ => none
  | fuel + 1, names, ts =>
    match ts with
    | .value :: _ | .flowEntry :: _ | .flowSequenceEnd :: _ | .flowMappingEnd :: _ =>
      some (.absent, names, ts)
    | ts => readNode? fuel false false names ts

end

/-! ## 3. Documents -/

/-- The directives in front of a document: a version, once at most, and handles of tags, each once
at most. -/
def readDirectives? (versioned : Bool) (handles : List (String × String)) :
    List Token → Option (List (String × String) × List Token)
  | .versionDirective major minor :: ts =>
    if versioned ∨ major ≠ 1 ∨ (minor ≠ 1 ∧ minor ≠ 2) then none
    else readDirectives? true handles ts
  | .tagDirective handle text :: ts =>
    if (handles.lookup handle).isSome then none
    else readDirectives? versioned ((handle, text) :: handles) ts
  | ts => some (handles, ts)

/-- The handles that are known without a directive. -/
def standardHandles : List (String × String) := [("!", "!"), ("!!", "tag:yaml.org,2002:")]

/-- Whether a document without a mark at its beginning ends with a token. -/
def Token.endsDocument : Token → Bool
  | .documentStart | .documentEnd | .versionDirective .. | .tagDirective .. => true
  | _ => false

/-- Steps enough for a number of tokens: a node and its content are read for each at most, and
so are its entries and whether they are there. -/
def readingFuel (ts : List Token) : Nat := 4 * (ts.length + 1)

/-- Reads the document that a text begins with.  A text without any has an empty one, and so has
one in which nothing follows the mark at its beginning. -/
def readDocument? (ts : List Token) : Option (Read Node) :=
  let names : Names := { handles := standardHandles }
  match ts with
  | [] => some (.absent, names, [])
  | .versionDirective .. :: _ | .tagDirective .. :: _ | .documentStart :: _ =>
    match readDirectives? false [] ts with
    | some (handles, .documentStart :: ts) =>
      let names : Names := { handles := handles ++ standardHandles }
      if ts.head?.all Token.endsDocument then some (.absent, names, ts)
      else readNode? (readingFuel ts) true false names ts
    | _ => none
  | ts => readNode? (readingFuel ts) true false names ts

/-- Reads the one document of a text. -/
def Document.read? (text : String) : Option Document := do
  let (root, names, ts) ← readDocument? (← Token.scan? text)
  if ts.all (· = .documentEnd) then return ⟨root, names.anchored⟩ else none

end SinkReach.Yaml
