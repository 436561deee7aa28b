/-
# A tree of files

The files that a run reads and writes, as a value.  A tree maps PLACES, given by the names on the
way from the root, to files with their text and to directories.  Paths are texts with `/` between
the names; one that begins with it is followed from the root, any other from the working
directory.  A dot stands for the directory it is in, two dots for the one above, and a path that
ends in `/` has to be a directory.
-/
import SinkReach.Failure
import SinkReach.Order

namespace SinkReach

/-- What stands at a place. -/
inductive Entry where
  | file (text : String)
  | dir
deriving DecidableEq

/-- Files and directories. -/
structure FileTree where
  entries : List (List String × Entry) := []
  /-- The working directory. -/
  home : List String := []

namespace FileTree

/-! ## 1. Places -/

/-- What a list of pairs has at a place. -/
def findIn (place : List String) : List (List String × Entry) → Option Entry
  | [] => none
  | (p, e) :: rest => if p = place then some e else findIn place rest

/-- What stands at a place; the root is a directory. -/
def find? (t : FileTree) (place : List String) : Option Entry :=
  if place.isEmpty then some .dir else findIn place t.entries

/-- Puts something at a place, over what stands there. -/
def putIn (place : List String) (e : Entry) :
    List (List String × Entry) → List (List String × Entry)
  | [] => [(place, e)]
  | (p, d) :: rest => if p = place then (p, e) :: rest else (p, d) :: putIn place e rest

/-- Puts something at a place. -/
def put (t : FileTree) (place : List String) (e : Entry) : FileTree :=
  { t with entries := putIn place e t.entries }

/-! ## 2. Paths -/

/-- The names of a path. -/
def names (path : String) : List String :=
  (path.toList.splitOn '/').map String.ofList

/-- Follows the names of a path from a directory.  The result is the place the path leads to, and
whether it has to be a directory. -/
def walk (t : FileTree) (at' : List String) : List String → Except OsError (List String × Bool)
  | [] => .ok (at', true)
  | name :: rest =>
    if name = "" ∨ name = "." then t.walk at' rest
    else if name = ".." then t.walk at'.dropLast rest
    else
      let place := at' ++ [name]
      if rest.all (· = "") then .ok (place, !rest.isEmpty)
      else match t.find? place with
        | some .dir => t.walk place rest
        | some (.file _) => .error .notDirectory
        | none => .error .notFound

/-- The place from which a path is followed. -/
def startOf (t : FileTree) (path : String) : List String :=
  if path.toList.head? = some '/' then [] else t.home

/-- The place a path leads to, and whether it has to be a directory. -/
def locate (t : FileTree) (path : String) : Except OsError (List String × Bool) :=
  if path = "" then .error .notFound else t.walk (t.startOf path) (names path)

/-! ## 3. Looking -/

/-- What a path leads to. -/
def lookUp (t : FileTree) (path : String) : Except OsError Entry := do
  let (place, asDir) ← t.locate path
  match t.find? place with
  | none => .error .notFound
  | some (.file text) => if asDir then .error .notDirectory else .ok (.file text)
  | some .dir => .ok .dir

/-- Whether a path leads anywhere. -/
def exists? (t : FileTree) (path : String) : Bool := (t.lookUp path).isOk

/-- Whether a path leads to a directory. -/
def isDir (t : FileTree) (path : String) : Bool :=
  match t.lookUp path with
  | .ok .dir => true
  | _ => false

/-- The text of a file. -/
def read (t : FileTree) (path : String) : Except OsError String := do
  match ← t.lookUp path with
  | .file text => .ok text
  | .dir => .error .isDirectory

/-- The names of the directories in a directory, in order. -/
def subdirectories (t : FileTree) (path : String) : List String :=
  match t.locate path with
  | .error _ => []
  | .ok (place, _) =>
    sortBy compare (t.entries.filterMap fun (p, e) =>
      match e, p.getLast? with
      | .dir, some name => if p.dropLast = place then some name else none
      | _, _ => none)

/-! ## 4. Writing -/

/-- The place and the text of a file that is to be written; a file that does not exist has no
text yet. -/
def openFile (t : FileTree) (path : String) : Except OsError (List String × String) := do
  let (place, asDir) ← t.locate path
  match t.find? place with
  | some (.file text) => if asDir then .error .notDirectory else .ok (place, text)
  | some .dir => .error .isDirectory
  | none => if asDir then .error .isDirectory else .ok (place, "")

/-- Replaces the text of a file, or makes a file. -/
def write (t : FileTree) (path text : String) : Except OsError FileTree := do
  let (place, _) ← t.openFile path
  return t.put place (.file text)

/-- Adds to the text of a file, or makes a file. -/
def append (t : FileTree) (path text : String) : Except OsError FileTree := do
  let (place, old) ← t.openFile path
  return t.put place (.file (old ++ text))

/-! ## 5. Whole trees -/

/-- The path of a place. -/
def pathOf (place : List String) : String := "/".intercalate place

/-- The place of a path that need not lead anywhere. -/
def placeOf (t : FileTree) (path : String) : List String :=
  (names path).foldl (fun place name =>
    if name = "" ∨ name = "." then place
    else if name = ".." then place.dropLast
    else place ++ [name]) (t.startOf path)

/-- Makes the directories on the way from one place to another, those that are missing. -/
def makeDirs (t : FileTree) (done : List String) : List String → FileTree
  | [] => t
  | name :: rest =>
    let place := done ++ [name]
    let t := if (t.find? place).isSome then t else t.put place .dir
    t.makeDirs place rest

/-- Puts in a directory, with those around it. -/
def addDir (t : FileTree) (path : String) : FileTree := t.makeDirs [] (t.placeOf path)

/-- Puts in a file, with the directories around it. -/
def addFile (t : FileTree) (path text : String) : FileTree :=
  let place := t.placeOf path
  (t.makeDirs [] place.dropLast).put place (.file text)

/-- The files that are new in a later tree or have another text there, by their paths. -/
def changes (before after : FileTree) : List (String × String) :=
  after.entries.filterMap fun (place, e) =>
    match e with
    | .file text =>
      if before.find? place = some (.file text) then none else some (pathOf place, text)
    | .dir => none

end FileTree

/-- The path that a component leads to from a base.  A separator is put between them where there is
none, also before a component that is empty. -/
def joinPath (base component : String) : String :=
  if component.toList.head? = some '/' then component
  else if base = "" then component
  else if base.toList.getLast? = some '/' then base ++ component
  else base ++ "/" ++ component

end SinkReach
