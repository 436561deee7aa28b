/-
# Comma-separated records can be read back

A reader for tables of comma-separated records, and the proof that it reads what `Csv.field` and
`Csv.line` write.

The reader goes through the text one character at a time.  What a character means depends on where
the reader stands: between quotes a comma or a line break is a character like any other, and a quote
is either the end of the field or the first of two that stand for one.  A record is ended by a line
break, with or without a carriage return before it.

Reading a text is reading its first piece and going on with the second (`Reader.run_append`).  So
the proof is one lemma for each thing that is written, about a reader that stands where that thing
may begin: a field (`run_field`), a record (`run_line`) and a list of them (`run_records`).  For the
same reason records that are added to a table are read after those that it has
(`Csv.read?_append_records`).
-/
import SinkReach.Csv

namespace SinkReach.Csv

/-! ## 1. The reader -/

/-- Where in a record the reader stands. -/
inductive Place where
  /-- Before a field. -/
  | start
  /-- In a field without quotes. -/
  | plain
  /-- Between quotes. -/
  | quoted
  /-- After a quote that ends the field, unless another follows it. -/
  | closing
  /-- After a carriage return, which a line feed has to follow. -/
  | returned
deriving DecidableEq

/-- What has been read: whole records, the fields of the record that is being read, and the
characters of its field. -/
structure Reader where
  records : List (List String) := []
  fields : List String := []
  chars : List Char := []
  place : Place := .start
deriving DecidableEq

namespace Reader

/-- One more character of the field. -/
def take (r : Reader) (c : Char) (place : Place) : Reader :=
  { r with chars := r.chars ++ [c], place }

/-- The end of a field. -/
def endField (r : Reader) : Reader :=
  { r with fields := r.fields ++ [.ofList r.chars], chars := [], place := .start }

/-- The end of a field that is the last of its record. -/
def endRecord (r : Reader) : Reader :=
  { records := r.records ++ [r.fields ++ [.ofList r.chars]] }

/-- A character that may follow a field. -/
def delimit (r : Reader) (c : Char) : Option Reader :=
  if c = ',' then some r.endField
  else if c = '\n' then some r.endRecord
  else if c = '\r' then some { r with place := .returned }
  else none

/-- Reads a character. -/
def step (r : Reader) (c : Char) : Option Reader :=
  match r.place with
  | .start =>
    if c = '"' then some { r with place := .quoted }
    else (r.delimit c).or (some (r.take c .plain))
  | .plain => if c = '"' then none else (r.delimit c).or (some (r.take c .plain))
  | .quoted => if c = '"' then some { r with place := .closing } else some (r.take c .quoted)
  | .closing => if c = '"' then some (r.take c .quoted) else r.delimit c
  | .returned => if c = '\n' then some r.endRecord else none

/-- Reads characters. -/
def run (r : Reader) (cs : List Char) : Option Reader := cs.foldlM step r

/-- The reader stands before a record, or before a field of one. -/
def before (records : List (List String)) (fields : List String) : Reader := { records, fields }

end Reader

/-- The records of a table, each of them ended by a line break. -/
def read? (text : String) : Option (List (List String)) := do
  let r ← Reader.run {} text.toList
  if r = .before r.records [] then some r.records else none

namespace Reader

/-! ## 2. Characters -/

theorem run_append (r : Reader) (cs ds : List Char) :
    r.run (cs ++ ds) = (r.run cs).bind fun r => r.run ds := by
  rw [run, List.foldlM_append]
  rfl

theorem run_cons {r next : Reader} {c : Char} (h : r.step c = some next) (cs : List Char) :
    r.run (c :: cs) = next.run cs := by
  rw [run, List.foldlM_cons, h]
  rfl

/-- A character that forces no quotes belongs to the field. -/
theorem delimit_of_not_special {r : Reader} {c : Char} (h : isSpecial c = false) :
    r.delimit c = none := by
  simp only [isSpecial, Bool.or_eq_false_iff, decide_eq_false_iff_not] at h
  obtain ⟨⟨⟨hcomma, -⟩, hfeed⟩, hreturn⟩ := h
  rw [delimit, if_neg hcomma, if_neg hfeed, if_neg hreturn]

theorem step_of_not_special {r : Reader} {c : Char} (h : isSpecial c = false)
    (hplace : r.place = .start ∨ r.place = .plain) : r.step c = some (r.take c .plain) := by
  have hquote : c ≠ '"' := by
    rintro rfl
    exact absurd h (by decide)
  unfold step
  rcases hplace with hplace | hplace
  · simp only [hplace, if_neg hquote, delimit_of_not_special h, Option.none_or]
  · simp only [hplace, if_neg hquote, delimit_of_not_special h, Option.none_or]

/-! ## 3. Fields -/

/-- A text that needs no quotes is read as it stands. -/
theorem run_plain {r : Reader} {cs : List Char} (hplace : r.place = .start ∨ r.place = .plain)
    (hcs : ∀ c ∈ cs, isSpecial c = false) :
    ∃ place, (place = .start ∨ place = .plain) ∧
      r.run cs = some { r with chars := r.chars ++ cs, place } := by
  induction cs generalizing r with
  | nil => exact ⟨r.place, hplace, by rw [List.append_nil]; rfl⟩
  | cons c cs ih =>
    obtain ⟨hc, hcs⟩ := List.forall_mem_cons.mp hcs
    obtain ⟨place, hp, hrun⟩ := ih (r := r.take c .plain) (.inr rfl) hcs
    refine ⟨place, hp, ?_⟩
    rw [run_cons (step_of_not_special hc hplace), hrun, take, List.append_assoc]
    rfl

/-- Between quotes a text is read character by character, with its quotes doubled. -/
theorem run_quoted {r : Reader} (hplace : r.place = .quoted) (cs : List Char) :
    r.run (cs.flatMap quoteChar) = some { r with chars := r.chars ++ cs } := by
  induction cs generalizing r with
  | nil => rw [List.append_nil]; rfl
  | cons c cs ih =>
    have hrest := ih (r := r.take c .quoted) rfl
    have htake : r.run (quoteChar c) = some (r.take c .quoted) := by
      unfold quoteChar
      split
      · next hc =>
        have hfirst : r.step '"' = some { r with place := .closing } := by
          simp only [step, hplace, if_pos]
        rw [run_cons hfirst, hc]
        rfl
      · next hc =>
        have hstep : r.step c = some (r.take c .quoted) := by
          simp only [step, hplace, if_neg hc]
        rw [run_cons hstep]
        rfl
    rw [List.flatMap_cons, run_append, htake, Option.bind_some, hrest, take, List.append_assoc,
      ← hplace]
    rfl

/-- The characters of a field have been read, and what ends the field may follow. -/
structure Ready (records : List (List String)) (fields : List String) (s : String) (r : Reader) :
    Prop where
  records_eq : r.records = records
  fields_eq : r.fields = fields
  chars_eq : r.chars = s.toList
  place_eq : r.place = .start ∨ r.place = .plain ∨ r.place = .closing

/-- **A field is read back**, whatever its text. -/
theorem run_field (records : List (List String)) (fields : List String) (s : String) :
    ∃ r, (before records fields).run (field s).toList = some r ∧ Ready records fields s r := by
  unfold field
  split
  · have hopen : (before records fields).step '"'
        = some { before records fields with place := .quoted } := rfl
    refine ⟨⟨records, fields, s.toList, .closing⟩, ?_, rfl, rfl, rfl, .inr (.inr rfl)⟩
    rw [String.toList_ofList, List.cons_append, run_cons hopen, run_append,
      run_quoted rfl, Option.bind_some]
    rfl
  · next hplain =>
    have hchars : ∀ c ∈ s.toList, isSpecial c = false := by simpa using hplain
    obtain ⟨place, hplace, hrun⟩ := run_plain (r := before records fields) (.inl rfl) hchars
    refine ⟨_, hrun, rfl, rfl, rfl, ?_⟩
    rcases hplace with rfl | rfl
    · exact .inl rfl
    · exact .inr (.inl rfl)

theorem Ready.step_comma {records : List (List String)} {fields : List String} {s : String}
    {r : Reader} (h : Ready records fields s r) :
    r.step ',' = some (before records (fields ++ [s])) := by
  obtain ⟨rfl, rfl, hchars, hplace⟩ := h
  have hend : r.endField = before r.records (r.fields ++ [s]) := by
    rw [endField, hchars, String.ofList_toList]
    rfl
  rw [← hend]
  rcases hplace with hplace | hplace | hplace <;> simp [step, delimit, hplace]

theorem Ready.step_newline {records : List (List String)} {fields : List String} {s : String}
    {r : Reader} (h : Ready records fields s r) :
    r.step '\n' = some (before (records ++ [fields ++ [s]]) []) := by
  obtain ⟨rfl, rfl, hchars, hplace⟩ := h
  have hend : r.endRecord = before (r.records ++ [r.fields ++ [s]]) [] := by
    rw [endRecord, hchars, String.ofList_toList]
    rfl
  rw [← hend]
  rcases hplace with hplace | hplace | hplace <;> simp [step, delimit, hplace]

/-! ## 4. Records -/

theorem toList_line_cons_cons (s t : String) (ss : List String) :
    (line (s :: t :: ss)).toList = (field s).toList ++ ',' :: (line (t :: ss)).toList := by
  simp [line, String.toList_intercalate]

/-- **A record is read back**, with the line break that ends it. -/
theorem run_line (records : List (List String)) (s : String) (ss : List String) :
    ∀ fields, (before records fields).run ((line (s :: ss)).toList ++ ['\n'])
      = some (before (records ++ [fields ++ s :: ss]) []) := by
  induction ss generalizing s with
  | nil =>
    intro fields
    obtain ⟨r, hr, hready⟩ := run_field records fields s
    have hline : line [s] = field s := String.intercalate_singleton
    rw [hline, run_append, hr, Option.bind_some, run_cons hready.step_newline]
    rfl
  | cons t ss ih =>
    intro fields
    obtain ⟨r, hr, hready⟩ := run_field records fields s
    rw [toList_line_cons_cons, List.append_assoc, run_append, hr, Option.bind_some,
      List.cons_append, run_cons hready.step_comma, ih t, List.append_assoc,
      List.singleton_append]

/-- **Records are read back**, one after the other. -/
theorem run_records (rows : List (List String)) (hrows : ∀ row ∈ rows, row ≠ []) :
    ∀ records, (before records []).run (rows.flatMap fun row => (line row).toList ++ ['\n'])
      = some (before (records ++ rows) []) := by
  induction rows with
  | nil => intro records; rw [List.append_nil]; rfl
  | cons row rows ih =>
    intro records
    obtain ⟨hrow, hrest⟩ := List.forall_mem_cons.mp hrows
    obtain ⟨s, ss, rfl⟩ := List.exists_cons_of_ne_nil hrow
    rw [List.flatMap_cons, run_append, run_line, Option.bind_some, ih hrest, List.nil_append,
      List.append_assoc, List.singleton_append]

end Reader

theorem read?_eq_some_iff {text : String} {records : List (List String)} :
    read? text = some records ↔ Reader.run {} text.toList = some (.before records []) := by
  unfold read?
  cases Reader.run {} text.toList with
  | none => simp
  | some r =>
    simp only [Option.bind_eq_bind, Option.bind_some, Option.some.injEq]
    constructor
    · intro h
      split at h
      · next hr =>
        rw [← Option.some.inj h]
        exact hr
      · exact absurd h nofun
    · rintro rfl
      exact if_pos rfl

/-- **A table that is added to is read as before**, and then come the records that were added. -/
theorem read?_append_records {old text : String} {records rows : List (List String)}
    (hold : read? old = some records) (hrows : ∀ row ∈ rows, row ≠ [])
    (htext : text.toList = rows.flatMap fun row => (line row).toList ++ ['\n']) :
    read? (old ++ text) = some (records ++ rows) := by
  rw [read?_eq_some_iff] at hold ⊢
  rw [String.toList_append, Reader.run_append, hold, Option.bind_some, htext,
    Reader.run_records rows hrows]

/-- A table of records that are not empty is read back. -/
theorem read?_records {text : String} {rows : List (List String)} (hrows : ∀ row ∈ rows, row ≠ [])
    (htext : text.toList = rows.flatMap fun row => (line row).toList ++ ['\n']) :
    read? text = some rows := by
  have hempty : read? "" = some [] := read?_eq_some_iff.mpr rfl
  have h := read?_append_records hempty hrows htext
  rwa [String.empty_append, List.nil_append] at h

/-- Commas, quotes and line breaks inside a field do not end it. -/
example : read? (line ["a,b", "say \"hi\"", "", "x\r\ny"] ++ "\n")
    = some [["a,b", "say \"hi\"", "", "x\r\ny"]] := by decide +kernel

end SinkReach.Csv
