/-
# The table of dangerous spans

A table of comma-separated records with one row for each dangerous verdict.  Several runs may add
to one table; its header is written by the run that makes the file.

The rows of a report are numbered within each pair of sink and dangerous value, from one.
-/
import SinkReach.Csv
import SinkReach.Files.Tree
import SinkReach.Json.Record
import SinkReach.Report

namespace SinkReach

/-- A row of the table. -/
structure SpanRow where
  function : String
  value : String
  /-- The number of the row among those of its sink and value. -/
  index : Nat
  span : String
  result : String
deriving DecidableEq

/-- What the rows are numbered by: the sink, and what is dangerous about the site. -/
def Verdict.key (v : Verdict) : String × String := (v.site.function, v.dangerousValue)

/-- How many rows there are so far of each pair of sink and value; of a pair that is not listed
there are none. -/
abbrev Tally := List ((String × String) × Nat)

namespace Tally

/-- The number of rows of a pair. -/
def count (key : String × String) : Tally → Nat
  | [] => 0
  | (k, n) :: rest => if k = key then n else count key rest

/-- Counts one more row of a pair. -/
def bump (key : String × String) : Tally → Tally
  | [] => [(key, 1)]
  | (k, n) :: rest => if k = key then (k, n + 1) :: rest else (k, n) :: bump key rest

/-- One more row of a pair is one more of that pair, and of no other. -/
@[simp] theorem count_bump (key other : String × String) : ∀ t : Tally,
    (t.bump key).count other = if other = key then t.count key + 1 else t.count other
  | [] => by
    by_cases h : key = other
    · simp [bump, count, h]
    · simp [bump, count, h, Ne.symm h]
  | (k, n) :: rest => by
    have ih := count_bump key other rest
    rw [bump]
    by_cases hk : k = key
    · subst hk
      by_cases h : k = other
      · simp [count, h]
      · simp [count, h, Ne.symm h]
    · rw [if_neg hk]
      by_cases h : k = other
      · subst h
        simp [count, hk]
      · simp [count, h, hk, ih]

end Tally

namespace SpanRow

def ofJson? (j : Json) : Option SpanRow := do
  let [some function, some value, some index, some span, some result] ←
    j.record? ["function", "value", "index", "span", "result"] | none
  return ⟨← function.str?, ← value.str?, ← index.count?, ← span.str?, ← result.str?⟩

/-- The row of a verdict with its number. -/
def ofVerdict (index : Nat) (v : Verdict) : SpanRow where
  function := v.site.function
  value := v.dangerousValue
  index := index
  span := v.site.span
  result := v.outcome.label

/-- The rows of verdicts, after rows that have been counted already. -/
def ofVerdicts (seen : Tally) : List Verdict → List SpanRow
  | [] => []
  | v :: vs =>
    let seen := seen.bump v.key
    ofVerdict (seen.count v.key) v :: ofVerdicts seen vs

/-- The rows of a report. -/
def ofReport (r : Report) : List SpanRow := ofVerdicts [] r.dangerous

/-- A row on one line, without the line break. -/
def line (row : SpanRow) : String :=
  Csv.line [row.function, row.value, toString row.index, row.span, row.result]

end SpanRow

/-- The name of the file that a table has unless another is given. -/
def spanTableName : String := "dangerous_spans.csv"

namespace SpanTable

def header : String := "function,value,index,span,result"

/-- Rows as they are added to a table. -/
def lines (rows : List SpanRow) : String :=
  rows.foldl (fun text row => text ++ row.line ++ "\n") ""

/-- Adds rows to the table at a path.  A table that does not exist starts with the header. -/
def append (t : FileTree) (path : String) (rows : List SpanRow) : Except OsError FileTree :=
  t.append path (if t.exists? path then lines rows else header ++ "\n" ++ lines rows)

/-- Adds the rows of a report to the table at a path. -/
def write (t : FileTree) (path : String) (r : Report) : Except OsError FileTree :=
  append t path (SpanRow.ofReport r)

end SpanTable

end SinkReach
