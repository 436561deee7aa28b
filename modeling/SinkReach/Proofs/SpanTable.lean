/-
# The table of dangerous spans can be read back

A table is added to by several runs, and its fields are arbitrary texts.  Whatever the runs add, the
table is still one that `Csv.read?` reads, and it reads the header once and then every row that was
added, in order (`SpanTable.read_back_after_appends`).

The text of a table is that of its rows, one line for each, after the header (`SpanTable.text`); one
run adds lines to what was there (`append_to_file`) or makes the file (`append_to_new`), and a whole
sequence of runs follows by induction (`appendAll_to_file`).
-/
import SinkReach.Proofs.Csv
import SinkReach.Proofs.Files
import SinkReach.Proofs.Numeral
import SinkReach.SpanTable

namespace SinkReach

/-! ## 1. The text of a table -/

/-- The fields of a row, in the order of the columns. -/
def SpanRow.fields (row : SpanRow) : List String :=
  [row.function, row.value, toString row.index, row.span, row.result]

theorem SpanRow.fields_injective : Function.Injective SpanRow.fields := by
  intro a b h
  obtain ⟨function, value, index, span, result⟩ := a
  obtain ⟨function', value', index', span', result'⟩ := b
  simp only [fields, List.cons.injEq] at h
  obtain ⟨rfl, rfl, hindex, rfl, rfl, -⟩ := h
  rw [Text.toString_injective hindex]

namespace SpanTable

/-- The names of the columns. -/
def columns : List String := ["function", "value", "index", "span", "result"]

/-- The text of a table with the given rows. -/
def text (rows : List SpanRow) : String := header ++ "\n" ++ lines rows

theorem toList_lines (rows : List SpanRow) :
    (lines rows).toList
      = (rows.map SpanRow.fields).flatMap fun row => (Csv.line row).toList ++ ['\n'] := by
  -- The lines are gathered from the left, onto a text that grows.
  have hfold : ∀ done : String,
      (rows.foldl (fun text row => text ++ row.line ++ "\n") done).toList = done.toList
        ++ (rows.map SpanRow.fields).flatMap fun row => (Csv.line row).toList ++ ['\n'] := by
    induction rows with
    | nil => intro done; simp
    | cons row rows ih =>
      intro done
      rw [List.foldl_cons, ih, List.map_cons, List.flatMap_cons]
      simp [SpanRow.line, SpanRow.fields]
  exact hfold ""

theorem lines_append (rows more : List SpanRow) :
    lines (rows ++ more) = lines rows ++ lines more := by
  apply String.toList_injective
  simp only [String.toList_append, toList_lines, List.map_append, List.flatMap_append]

theorem fields_ne_nil (rows : List SpanRow) : ∀ fields ∈ rows.map SpanRow.fields, fields ≠ [] := by
  intro fields h
  obtain ⟨row, -, rfl⟩ := List.mem_map.mp h
  exact List.cons_ne_nil _ _

/-- **Rows that are added to a table are read after those it has.** -/
theorem read?_append_lines {old : String} {records : List (List String)}
    (hold : Csv.read? old = some records) (rows : List SpanRow) :
    Csv.read? (old ++ lines rows) = some (records ++ rows.map SpanRow.fields) :=
  Csv.read?_append_records hold (fields_ne_nil rows) (toList_lines rows)

theorem read?_lines (rows : List SpanRow) :
    Csv.read? (lines rows) = some (rows.map SpanRow.fields) :=
  Csv.read?_records (fields_ne_nil rows) (toList_lines rows)

theorem read?_text (rows : List SpanRow) :
    Csv.read? (text rows) = some (columns :: rows.map SpanRow.fields) := by
  have hheader : Csv.read? (header ++ "\n") = some [columns] := by decide +kernel
  exact read?_append_lines hheader rows

/-- What is read determines the rows, so the lines do. -/
theorem lines_injective : Function.Injective lines := by
  intro rows rows' h
  have hread := read?_lines rows
  rw [h, read?_lines rows', Option.some.injEq] at hread
  exact ((List.map_inj_right SpanRow.fields_injective).mp hread).symm

theorem text_injective : Function.Injective text := by
  intro rows rows' h
  have hread := read?_text rows
  rw [h, read?_text rows', Option.some.injEq, List.cons.injEq] at hread
  exact ((List.map_inj_right SpanRow.fields_injective).mp hread.2).symm

/-! ## 2. Adding to a table -/

/-- Adds rows to the table at a path, one list after the other. -/
def appendAll (t : FileTree) (path : String) (calls : List (List SpanRow)) :
    Except OsError FileTree :=
  calls.foldlM (fun t rows => append t path rows) t

variable {t : FileTree} {path : String}

/-- **A file keeps its text**, and gets the lines of the new rows after it. -/
theorem append_to_file {old : String} (h : t.read path = .ok old) (rows : List SpanRow) :
    ∃ t', append t path rows = .ok t' ∧ t'.read path = .ok (old ++ lines rows) := by
  obtain ⟨place, hopen⟩ := FileTree.openFile_of_read h
  rw [append, if_pos (FileTree.exists?_of_read h)]
  exact FileTree.read_append hopen _

/-- **A file that is made starts with the header.** -/
theorem append_to_new (hnew : t.exists? path = false) (hopen : (t.openFile path).isOk = true)
    (rows : List SpanRow) :
    ∃ t', append t path rows = .ok t' ∧ t'.read path = .ok (text rows) := by
  cases hfile : t.openFile path with
  | error e => exact absurd (hfile ▸ hopen) nofun
  | ok found =>
    obtain ⟨place, old⟩ := found
    obtain rfl := FileTree.openFile_of_not_exists hnew hfile
    have hneg : ¬t.exists? path = true := hnew ▸ Bool.false_ne_true
    have h := FileTree.read_append hfile (header ++ "\n" ++ lines rows)
    rw [append, if_neg hneg]
    rwa [String.empty_append] at h

/-- The file that the first call finds is there for all of them. -/
theorem appendAll_to_file {old : String} (h : t.read path = .ok old)
    (calls : List (List SpanRow)) :
    ∃ t', appendAll t path calls = .ok t' ∧ t'.read path = .ok (old ++ lines calls.flatten) := by
  induction calls generalizing t old with
  | nil => exact ⟨t, rfl, by rw [h]; simp [lines]⟩
  | cons rows calls ih =>
    obtain ⟨s, happend, hread⟩ := append_to_file h rows
    obtain ⟨t', hcalls, hread'⟩ := ih hread
    refine ⟨t', ?_, ?_⟩
    · rw [appendAll, List.foldlM_cons, happend]
      exact hcalls
    · rw [hread', List.flatten_cons, lines_append, String.append_assoc]

/-- The first call makes the file, and the others add to it. -/
theorem appendAll_to_new (hnew : t.exists? path = false) (hopen : (t.openFile path).isOk = true)
    (rows : List SpanRow) (calls : List (List SpanRow)) :
    ∃ t', appendAll t path (rows :: calls) = .ok t' ∧
      t'.read path = .ok (text (rows :: calls).flatten) := by
  obtain ⟨s, happend, hread⟩ := append_to_new hnew hopen rows
  obtain ⟨t', hcalls, hread'⟩ := appendAll_to_file hread calls
  refine ⟨t', ?_, ?_⟩
  · rw [appendAll, List.foldlM_cons, happend]
    exact hcalls
  · rw [hread', List.flatten_cons, text, text, lines_append, ← String.append_assoc]

/-! ## 3. Reading it back -/

/-- **A table decodes to its rows across any number of calls.**  At a path where there is nothing
and a file can be made, a sequence of calls leaves a text that is read as the header once and then
the rows of all calls in order.  A file that is there keeps its text, and the lines of the rows
follow it without a header; if it was a table, it is still one.  Different rows give different
texts. -/
theorem read_back_after_appends (t : FileTree) (path : String) (calls : List (List SpanRow)) :
    (t.exists? path = false → (t.openFile path).isOk = true → calls ≠ [] →
      ∃ t', appendAll t path calls = .ok t' ∧ t'.read path = .ok (text calls.flatten) ∧
        Csv.read? (text calls.flatten) = some (columns :: calls.flatten.map SpanRow.fields)) ∧
    (∀ old, t.read path = .ok old →
      ∃ t', appendAll t path calls = .ok t' ∧ t'.read path = .ok (old ++ lines calls.flatten) ∧
        Csv.read? (lines calls.flatten) = some (calls.flatten.map SpanRow.fields) ∧
        ∀ records, Csv.read? old = some records →
          Csv.read? (old ++ lines calls.flatten)
            = some (records ++ calls.flatten.map SpanRow.fields)) ∧
    (∀ rows rows', rows ≠ rows' →
      text rows ≠ text rows' ∧ ∀ old, old ++ lines rows ≠ old ++ lines rows') := by
  refine ⟨?_, ?_, ?_⟩
  · intro hnew hopen hcalls
    obtain ⟨rows, calls, rfl⟩ := List.exists_cons_of_ne_nil hcalls
    obtain ⟨t', happend, hread⟩ := appendAll_to_new hnew hopen rows calls
    exact ⟨t', happend, hread, read?_text _⟩
  · intro old hold
    obtain ⟨t', happend, hread⟩ := appendAll_to_file hold calls
    exact ⟨t', happend, hread, read?_lines _, fun _ hrecords => read?_append_lines hrecords _⟩
  · intro rows rows' hne
    refine ⟨fun h => hne (text_injective h), fun old h => hne (lines_injective ?_)⟩
    exact (String.append_right_inj old).mp h

/-- A row whose value has a comma, quotes and a line break. -/
def brokenRow : SpanRow := ⟨"fs::write", "\"a\",\r\nb", 1, "src/io.rs:4:2", "SAT"⟩

theorem read_back_after_appends_brokenRow :
    (({} : FileTree).exists? "spans.csv" = false ∧
      (({} : FileTree).openFile "spans.csv").isOk = true ∧ [[brokenRow], [], [brokenRow]] ≠ [] ∧
      ∃ t', appendAll {} "spans.csv" [[brokenRow], [], [brokenRow]] = .ok t' ∧
        t'.read "spans.csv" = .ok (text [brokenRow, brokenRow]) ∧
        Csv.read? (text [brokenRow, brokenRow])
          = some [columns, brokenRow.fields, brokenRow.fields]) ∧
    ((⟨[(["old.csv"], .file "a,b\n")], []⟩ : FileTree).read "old.csv" = .ok "a,b\n" ∧
      ∃ t', appendAll ⟨[(["old.csv"], .file "a,b\n")], []⟩ "old.csv" [[brokenRow]] = .ok t' ∧
        t'.read "old.csv" = .ok ("a,b\n" ++ lines [brokenRow])) ∧
    ([brokenRow] ≠ [] ∧ text [brokenRow] ≠ text []) := by
  have hnew : ({} : FileTree).exists? "spans.csv" = false := by decide +kernel
  have hopen : (({} : FileTree).openFile "spans.csv").isOk = true := by decide +kernel
  have hold : (⟨[(["old.csv"], .file "a,b\n")], []⟩ : FileTree).read "old.csv" = .ok "a,b\n" := by
    with_unfolding_all rfl
  obtain ⟨t', happend, hread, -⟩ := (read_back_after_appends _ _ [[brokenRow]]).2.1 _ hold
  refine ⟨⟨hnew, hopen, nofun, ?_⟩, ⟨hold, t', happend, hread⟩, nofun, ?_⟩
  · exact (read_back_after_appends {} "spans.csv" [[brokenRow], [], [brokenRow]]).1 hnew hopen nofun
  · exact ((read_back_after_appends {} "spans.csv" []).2.2 [brokenRow] [] nofun).1

end SpanTable

end SinkReach
