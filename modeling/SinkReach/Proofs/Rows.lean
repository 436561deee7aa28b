/-
# Rows, summary and danger

What a report finds dangerous is told in three ways: by the rows of the table of spans, by the
counts of the summary, and by one flag.  They are computed apart from each other, and they AGREE
(`SpanRow.rows_agree_with_report`).

The rows are numbered by counters that are handed along from verdict to verdict, one for each pair
of sink and value.  What the numbers come to does not mention the counters: a row has one more than
the rows of its pair before it (`index_of_split`), and so the rows of a pair are numbered from one
without a gap (`indices_ofVerdicts`).  Both are stated for rows that follow others, when the
counters may stand anywhere.
-/
import SinkReach.SpanTable

namespace SinkReach

/-! ## 1. Counting verdicts -/

/-- An outcome is one of three, and not two of them. -/
theorem Outcome.one_of_three (o : Outcome) :
    (if o.isSat then 1 else 0) + (if o.isUnsat then 1 else 0) + (if o.isUnknown then 1 else 0)
      = 1 := by
  cases o <;> rfl

/-- Dangerous are the two outcomes that do not exclude anything. -/
theorem Verdict.dangerous_of_two (v : Verdict) :
    (if v.isDangerous then 1 else 0)
      = (if v.outcome.isSat then 1 else 0) + (if v.outcome.isUnknown then 1 else 0) := by
  unfold Verdict.isDangerous
  cases v.outcome <;> rfl

theorem Verdict.isDangerous_eq (v : Verdict) : v.isDangerous = decide (v.outcome ≠ .unsat) := by
  unfold Verdict.isDangerous
  cases v.outcome <;> rfl

namespace Report

theorem countP_outcomes (vs : List Verdict) :
    vs.countP (·.outcome.isSat) + vs.countP (·.outcome.isUnsat) + vs.countP (·.outcome.isUnknown)
      = vs.length := by
  induction vs with
  | nil => rfl
  | cons v vs ih =>
    have hv := v.outcome.one_of_three
    simp only [List.countP_cons, List.length_cons]
    omega

theorem countP_isDangerous (vs : List Verdict) :
    vs.countP (·.isDangerous)
      = vs.countP (·.outcome.isSat) + vs.countP (·.outcome.isUnknown) := by
  induction vs with
  | nil => rfl
  | cons v vs ih =>
    have hv := v.dangerous_of_two
    simp only [List.countP_cons]
    omega

variable (r : Report)

theorem summary_total :
    r.summary.sat + r.summary.unsat + r.summary.unknown = r.summary.total :=
  countP_outcomes r.verdicts

theorem length_dangerous : r.dangerous.length = r.summary.dangerous := by
  rw [dangerous, ← List.countP_eq_length_filter]
  exact countP_isDangerous r.verdicts

theorem hasDangerous_iff : r.hasDangerous = true ↔ r.dangerous ≠ [] := by
  rw [hasDangerous, List.any_eq_true, dangerous, Ne, List.filter_eq_nil_iff]
  simp

end Report

/-! ## 2. Numbering rows -/

namespace SpanRow

/-- The pair that a row is numbered by. -/
def key (row : SpanRow) : String × String := (row.function, row.value)

@[simp] theorem key_ofVerdict (index : Nat) (v : Verdict) : (ofVerdict index v).key = v.key := rfl

/-- One row is numbered after those counted so far, and counted for those that follow. -/
theorem ofVerdicts_cons (seen : Tally) (v : Verdict) (vs : List Verdict) :
    ofVerdicts seen (v :: vs)
      = ofVerdict (seen.count v.key + 1) v :: ofVerdicts (seen.bump v.key) vs := by
  rw [ofVerdicts, Tally.count_bump, if_pos rfl]

/-- Numbers apart, a row shows what its verdict says. -/
theorem map_ofVerdicts (seen : Tally) (vs : List Verdict) :
    ((ofVerdicts seen vs).map fun row => (row.function, row.value, row.span, row.result))
      = vs.map fun v => (v.site.function, v.dangerousValue, v.site.span, v.outcome.label) := by
  induction vs generalizing seen with
  | nil => rfl
  | cons v vs ih =>
    rw [ofVerdicts_cons, List.map_cons, List.map_cons, ih]
    rfl

theorem length_ofVerdicts (seen : Tally) (vs : List Verdict) :
    (ofVerdicts seen vs).length = vs.length := by
  have hlength := congrArg List.length (map_ofVerdicts seen vs)
  rwa [List.length_map, List.length_map] at hlength

/-- **The number of a row** counts the rows of its pair up to it: those from before, and those among
the rows here. -/
theorem index_of_split {seen : Tally} {vs : List Verdict} {before after : List SpanRow}
    {row : SpanRow} (h : ofVerdicts seen vs = before ++ row :: after) :
    row.index = seen.count row.key + 1 + before.countP (·.key = row.key) := by
  induction vs generalizing seen before with
  | nil => simp [ofVerdicts] at h
  | cons v vs ih =>
    rw [ofVerdicts_cons] at h
    cases before with
    | nil =>
      obtain ⟨rfl, -⟩ := List.cons.inj h
      rfl
    | cons first before =>
      obtain ⟨rfl, hrest⟩ := List.cons.inj h
      rw [ih hrest, Tally.count_bump, List.countP_cons, key_ofVerdict]
      -- The first row counts for those of its own pair: in the tally on one side, in the list on
      -- the other.
      by_cases hkey : row.key = v.key
      · simp [hkey]
        omega
      · simp [hkey, Ne.symm hkey]

/-- **The numbers of a pair** go up by one from row to row, after those that were given before. -/
theorem indices_ofVerdicts (key : String × String) (seen : Tally) (vs : List Verdict) :
    ((ofVerdicts seen vs).filter (·.key = key)).map (·.index)
      = List.range' (seen.count key + 1) ((ofVerdicts seen vs).countP (·.key = key)) := by
  induction vs generalizing seen with
  | nil => rfl
  | cons v vs ih =>
    rw [ofVerdicts_cons, List.filter_cons, List.countP_cons, key_ofVerdict]
    by_cases hkey : v.key = key
    · subst hkey
      simp [ih, List.range'_succ, ofVerdict]
    · simp [hkey, ih, Ne.symm hkey]

/-! ## 3. The three ways agree -/

theorem length_ofReport (r : Report) : (ofReport r).length = r.summary.dangerous := by
  rw [ofReport, length_ofVerdicts, r.length_dangerous]

/-- **Rows, summary and danger agree.**

* The rows are the verdicts that do not exclude everything, in the order of the report.
* The number of a row is one more than the number of rows before it with its sink and value, so
  those of each sink and value are numbered 1, 2, 3 and so on.
* The summary counts every verdict once, and as many dangerous ones as there are rows.
* The report has something dangerous exactly if there is a row, and the status of a run tells
  that. -/
theorem rows_agree_with_report (r : Report) :
    ((ofReport r).map fun row => (row.function, row.value, row.span, row.result))
      = ((r.verdicts.filter fun v => v.outcome ≠ .unsat).map fun v =>
          (v.site.function, v.dangerousValue, v.site.span, v.outcome.label)) ∧
    (∀ before row after, ofReport r = before ++ row :: after →
      row.index = 1 + before.countP fun u => u.function = row.function ∧ u.value = row.value) ∧
    (∀ function value,
      ((ofReport r).filter fun row => row.function = function ∧ row.value = value).map (·.index)
        = List.range' 1
            ((ofReport r).countP fun row => row.function = function ∧ row.value = value)) ∧
    (r.summary.sat + r.summary.unsat + r.summary.unknown = r.summary.total ∧
      r.summary.total = r.verdicts.length ∧ r.summary.dangerous = (ofReport r).length) ∧
    (r.hasDangerous = true ↔ ofReport r ≠ []) ∧
    r.status = if (ofReport r).isEmpty then 0 else 1 := by
  refine ⟨?_, ?_, ?_, ⟨r.summary_total, rfl, (length_ofReport r).symm⟩, ?_, ?_⟩
  · rw [ofReport, map_ofVerdicts, Report.dangerous]
    simp only [Verdict.isDangerous_eq]
  · intro before row after hsplit
    have hindex := index_of_split hsplit
    simp only [key, Prod.mk.injEq] at hindex
    rw [hindex]
    simp [Tally.count]
  · intro function value
    have hindices := indices_ofVerdicts (function, value) [] r.dangerous
    simp only [key, Prod.mk.injEq] at hindices
    exact hindices
  · rw [r.hasDangerous_iff, Ne, Ne, ← List.length_eq_zero_iff, ← List.length_eq_zero_iff,
      length_ofReport, r.length_dangerous]
  · rw [Report.status, ← length_ofReport]
    cases ofReport r with
    | nil => rfl
    | cons row rows => simp

/-- Two sinks with the same dangerous value in turns, and a verdict between them that excludes
everything. -/
def alternating : Report where
  verdicts :=
    [{ site := ⟨"fs::write", 0, "a.rs:1"⟩, value := "x", outcome := .sat .empty,
        matched := some ⟨"mem", "/proc/self/mem", 0⟩ },
      { site := ⟨"env::set_var", 1, "a.rs:2"⟩, value := "/proc/self/mem",
        outcome := .unknown .timeout },
      { site := ⟨"fs::write", 0, "a.rs:3"⟩, value := "/proc/self/mem", outcome := .unsat },
      { site := ⟨"fs::write", 0, "a.rs:4"⟩, value := "y", outcome := .unknown .timeout,
        matched := some ⟨"mem", "/proc/self/mem", 2⟩ }]

theorem rows_agree_with_report_alternating :
    let first : SpanRow := ⟨"fs::write", "/proc/self/mem", 1, "a.rs:1", "SAT"⟩
    let other : SpanRow := ⟨"env::set_var", "/proc/self/mem", 1, "a.rs:2", "UNKNOWN"⟩
    let second : SpanRow := ⟨"fs::write", "/proc/self/mem", 2, "a.rs:4", "UNKNOWN"⟩
    ofReport alternating = [first, other] ++ second :: [] ∧
      (second.index = 1 + [first, other].countP fun u =>
        u.function = second.function ∧ u.value = second.value) ∧
      alternating.summary.dangerous = 3 ∧ alternating.hasDangerous = true ∧
      alternating.status = 1 := by
  intro first other second
  have hrows : ofReport alternating = [first, other] ++ second :: [] := by decide
  obtain ⟨-, hindex, -, ⟨-, -, hdangerous⟩, hflag, hstatus⟩ := rows_agree_with_report alternating
  rw [hrows] at hdangerous hflag hstatus
  exact ⟨hrows, hindex _ _ _ hrows, hdangerous, hflag.mpr nofun, hstatus⟩

end SpanRow

end SinkReach
