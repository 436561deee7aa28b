/-
# Batches of sites

The document in which sites are handed over for analysis: a version and a list of sites.
-/
import SinkReach.Failure
import SinkReach.Json.Reader
import SinkReach.Json.Writer
import SinkReach.Site

namespace SinkReach

/-- How many brackets may be open at once in a document that is read. -/
def nestingLimit : Nat := 127

/-- Sites handed over for analysis. -/
structure Batch where
  version : UInt32
  sites : List Site
deriving DecidableEq

namespace Batch

/-- The batch of a list of sites. -/
def ofSites (sites : List Site) : Batch := ⟨formatVersion, sites⟩

def toJson (b : Batch) : Json :=
  .obj [("version", .ofUInt32 b.version), ("sites", .arr (b.sites.map Site.toJson))]

def ofJson? (j : Json) : Option Batch := do
  let [some version, some sites] ← j.record? ["version", "sites"] | none
  return ⟨← version.uint32?, ← (← sites.arr?).mapM Site.ofJson?⟩

/-- A batch of the version that this library reads. -/
def checkVersion (b : Batch) : Except BatchFault Batch :=
  if b.version = formatVersion then .ok b else .error (.unsupportedVersion b.version)

/-- Reads a batch. -/
def read (text : String) : Except BatchFault Batch :=
  match (Json.read? nestingLimit text).bind ofJson? with
  | some b => b.checkVersion
  | none => .error .malformed

/-- Writes a batch. -/
def write (b : Batch) : String := b.toJson.write

end Batch

end SinkReach
