/-
# Complaints

What a command tells its user when it fails: what it was doing, and the chain of causes from the
outermost to the innermost.
-/
import SinkReach.Failure
import SinkReach.ReportDocument

namespace SinkReach

/-- A failure with its causes, the outermost first. -/
structure Complaint where
  causes : List String
deriving DecidableEq

namespace Complaint

/-- The causes on one line. -/
def render (c : Complaint) : String := ": ".intercalate c.causes

/-- Says what was being done. -/
def within (c : Complaint) (activity : String) : Complaint := ⟨activity :: c.causes⟩

def ofOs (e : OsError) : Complaint := ⟨[e.message]⟩

/-- A failure to read a file also tells what the operating system said. -/
def ofConfig (e : ConfigFault) : Complaint :=
  match e with
  | .io cause => ⟨[e.message, cause.message]⟩
  | e => ⟨[e.message]⟩

/-- A failure to read a file also tells what the operating system said. -/
def ofFailure (e : Failure) : Complaint :=
  match e with
  | .io cause => ⟨[e.message, cause.message]⟩
  | .config cause => ofConfig cause
  | e => ⟨[e.message]⟩

/-- A failure to write a report also tells what the operating system said. -/
def ofReport (e : OsError) : Complaint := ⟨[(ReportFault.system e).message, e.message]⟩

end Complaint

end SinkReach
