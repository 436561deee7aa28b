/-
# How deep a JSON text is nested

The number of brackets that are open at once in a text, counted without reading it: a bracket
between quotes is a character like any other, and a quote after a backslash ends nothing.  The text
of a value is nested as deep as the value is (`Json.nesting_write`), so a limit on the depth of a
value is one on its text.
-/
import SinkReach.Proofs.Json.Text

namespace SinkReach.Json

/-! ## 1. Counting brackets -/

/-- Where a count of brackets stands. -/
inductive Quoting where
  /-- Outside strings. -/
  | outside
  /-- In a string. -/
  | inside
  /-- In a string, after a backslash. -/
  | escape
deriving DecidableEq

/-- The brackets open now, and the most that were open at once. -/
structure Brackets where
  opened : Nat := 0
  most : Nat := 0
  place : Quoting := .outside

namespace Brackets

/-- Counts a character. -/
def step (s : Brackets) (c : Char) : Brackets :=
  match s.place with
  | .outside =>
    if c = '"' then { s with place := .inside }
    else if c = '[' ∨ c = '\x7b' then
      { s with opened := s.opened + 1, most := max s.most (s.opened + 1) }
    else if c = ']' ∨ c = '\x7d' then { s with opened := s.opened - 1 }
    else s
  | .inside =>
    if c = '"' then { s with place := .outside }
    else if c = '\\' then { s with place := .escape }
    else s
  | .escape => { s with place := .inside }

/-- Counts characters. -/
def run (s : Brackets) (cs : List Char) : Brackets := cs.foldl step s

end Brackets

/-- The number of brackets open at once where a text nests deepest. -/
def nesting (text : String) : Nat := (Brackets.run {} text.toList).most

namespace Brackets

@[simp] theorem run_nil (s : Brackets) : s.run [] = s := rfl

@[simp] theorem run_cons (s : Brackets) (c : Char) (cs : List Char) :
    s.run (c :: cs) = (s.step c).run cs := rfl

@[simp] theorem run_append (s : Brackets) (cs ds : List Char) :
    s.run (cs ++ ds) = (s.run cs).run ds := List.foldl_append

/-- Characters that change nothing one by one change nothing. -/
theorem run_eq_self {s : Brackets} {cs : List Char} (h : ∀ c ∈ cs, s.step c = s) :
    s.run cs = s := by
  induction cs with
  | nil => rfl
  | cons c cs ih =>
    obtain ⟨hc, hcs⟩ := List.forall_mem_cons.mp h
    rw [run_cons, hc, ih hcs]

/-! ## 2. Strings -/

variable {opened most : Nat}

theorem step_inside {c : Char} (hquote : c ≠ '"') (hslash : c ≠ '\\') :
    step ⟨opened, most, .inside⟩ c = ⟨opened, most, .inside⟩ := by
  simp [step, hquote, hslash]

/-- A hexadecimal digit does not end a string. -/
theorem step_hexValue {c : Char} {n : Nat} (h : Text.hexValue? c = some n) :
    step ⟨opened, most, .inside⟩ c = ⟨opened, most, .inside⟩ := by
  apply step_inside
  · rintro rfl
    exact absurd h nofun
  · rintro rfl
    exact absurd h nofun

theorem run_writeChar (c : Char) :
    run ⟨opened, most, .inside⟩ (writeChar c) = ⟨opened, most, .inside⟩ := by
  rcases Reader.writeChar_cases c with hescaped | ⟨hplain, hquote, hslash, -⟩
  · rcases Reader.escaped?_eq_some hescaped with ⟨letter, hc, -⟩ | ⟨w, x, y, z, hc, hunit⟩
    · rw [hc]
      rfl
    · simp only [Reader.unit?, Option.bind_eq_bind, Option.bind_eq_some_iff] at hunit
      obtain ⟨_, hw, _, hx, _, hy, _, hz, -⟩ := hunit
      rw [hc]
      change run ⟨opened, most, .inside⟩ [w, x, y, z] = ⟨opened, most, .inside⟩
      rw [run_cons, step_hexValue hw, run_cons, step_hexValue hx, run_cons, step_hexValue hy,
        run_cons, step_hexValue hz, run_nil]
  · rw [hplain]
    exact step_inside hquote hslash

theorem run_writeString (s : String) :
    run ⟨opened, most, .outside⟩ (writeString s).toList = ⟨opened, most, .outside⟩ := by
  have hchars : ∀ cs : List Char,
      run ⟨opened, most, .inside⟩ (cs.flatMap writeChar) = ⟨opened, most, .inside⟩ := by
    intro cs
    induction cs with
    | nil => rfl
    | cons c cs ih => rw [List.flatMap_cons, run_append, run_writeChar, ih]
  rw [Reader.toList_writeString, run_cons]
  change run ⟨opened, most, .inside⟩ (s.toList.flatMap writeChar ++ ['"']) = _
  rw [run_append, hchars]
  rfl

/-! ## 3. Values -/

theorem run_newline (level : Nat) :
    run ⟨opened, most, .outside⟩ (newline level).toList = ⟨opened, most, .outside⟩ := by
  apply run_eq_self
  intro c hc
  rw [Reader.toList_newline, List.mem_cons, List.mem_replicate] at hc
  rcases hc with rfl | ⟨-, rfl⟩ <;> rfl

theorem run_toString (n : Int) :
    run ⟨opened, most, .outside⟩ (toString n).toList = ⟨opened, most, .outside⟩ := by
  apply run_eq_self
  intro c hc
  have hdigit := Text.isDigit_of_mem_toString hc
  have hquote : c ≠ '"' := Text.ne_of_isDigit hdigit (by decide)
  have hopen : ¬(c = '[' ∨ c = '\x7b') := by
    rintro (rfl | rfl) <;> exact absurd hdigit (by decide)
  have hclose : ¬(c = ']' ∨ c = '\x7d') := by
    rintro (rfl | rfl) <;> exact absurd hdigit (by decide)
  rw [step, if_neg hquote, if_neg hopen, if_neg hclose]

/-- The name of a field opens no bracket. -/
theorem run_field (k : String) (cs : List Char) :
    run ⟨opened, most, .outside⟩ ((writeString k).toList ++ ':' :: ' ' :: cs)
      = run ⟨opened, most, .outside⟩ cs := by
  rw [run_append, run_writeString]
  rfl

/-- A value that is no collection opens no bracket. -/
theorem run_scalar {j : Json} (hj : j.isExact = true) (hdepth : j.depth = 0) (level : Nat) :
    run ⟨opened, most, .outside⟩ (j.writeAt level).toList = ⟨opened, most, .outside⟩ := by
  cases j with
  | null => simp [writeAt, step]
  | bool b => cases b <;> simp [writeAt, step]
  | int n => exact run_toString n
  | str s => exact run_writeString s
  | arr items => exact absurd hdepth nofun
  | obj fields => exact absurd hdepth nofun
  | real _ => exact absurd hj Bool.false_ne_true
  | unreadable => exact absurd hj Bool.false_ne_true

mutual

/-- **A value closes the brackets that it opens**, and opens as many at once as it is deep. -/
theorem run_writeAt (j : Json) (hj : j.isExact = true) (level opened most : Nat)
    (hmost : opened ≤ most) : run ⟨opened, most, .outside⟩ (j.writeAt level).toList
      = ⟨opened, max most (opened + j.depth), .outside⟩ := by
  have hscalar (h : j.depth = 0) : run ⟨opened, most, .outside⟩ (j.writeAt level).toList
      = ⟨opened, max most (opened + j.depth), .outside⟩ := by
    rw [run_scalar hj h, h, Nat.add_zero, Nat.max_eq_left hmost]
  cases j with
  | null => exact hscalar rfl
  | bool b => exact hscalar rfl
  | int n => exact hscalar rfl
  | str s => exact hscalar rfl
  | real _ => exact absurd hj Bool.false_ne_true
  | unreadable => exact absurd hj Bool.false_ne_true
  | arr items =>
    cases items with
    | nil => simp [writeAt, step, depth, itemsDepth]
    | cons j js =>
      rw [isExact, itemsExact, Bool.and_eq_true] at hj
      have hopen : step ⟨opened, most, .outside⟩ '['
          = ⟨opened + 1, max most (opened + 1), .outside⟩ := rfl
      have hclose : ∀ m, step ⟨opened + 1, m, .outside⟩ ']' = ⟨opened, m, .outside⟩ := fun _ => rfl
      rw [Reader.toList_writeAt_arr, run_cons, hopen, run_append, run_newline, run_append,
        run_writeAt j hj.1 _ _ _ (by omega), run_append, run_writeItems js hj.2 _ _ _ (by omega),
        run_append, run_newline, run_cons, hclose, run_nil, depth, itemsDepth]
      congr 1
      omega
  | obj fields =>
    cases fields with
    | nil => simp [writeAt, step, depth, fieldsDepth]
    | cons f fs =>
      obtain ⟨k, j⟩ := f
      rw [isExact, fieldsExact, Bool.and_eq_true] at hj
      have hopen : step ⟨opened, most, .outside⟩ '\x7b'
          = ⟨opened + 1, max most (opened + 1), .outside⟩ := rfl
      have hclose : ∀ m, step ⟨opened + 1, m, .outside⟩ '\x7d' = ⟨opened, m, .outside⟩ :=
        fun _ => rfl
      rw [Reader.toList_writeAt_obj, run_cons, hopen, run_append, run_newline, run_field,
        run_append, run_writeAt j hj.1 _ _ _ (by omega), run_append,
        run_writeFields fs hj.2 _ _ _ (by omega), run_append, run_newline, run_cons, hclose,
        run_nil, depth, fieldsDepth]
      congr 1
      omega

theorem run_writeItems (js : List Json) (hjs : itemsExact js = true) (level opened most : Nat)
    (hmost : opened ≤ most) : run ⟨opened, most, .outside⟩ (writeItems level js).toList
      = ⟨opened, max most (opened + itemsDepth js), .outside⟩ := by
  cases js with
  | nil => simp [writeItems, itemsDepth, Nat.max_eq_left hmost]
  | cons j js =>
    rw [itemsExact, Bool.and_eq_true] at hjs
    have hcomma : step ⟨opened, most, .outside⟩ ',' = ⟨opened, most, .outside⟩ := rfl
    rw [Reader.toList_writeItems_cons, run_cons, hcomma, run_append, run_newline, run_append,
      run_writeAt j hjs.1 _ _ _ hmost, run_writeItems js hjs.2 _ _ _ (by omega), itemsDepth]
    congr 1
    omega

theorem run_writeFields (fs : List (String × Json)) (hfs : fieldsExact fs = true)
    (level opened most : Nat) (hmost : opened ≤ most) :
    run ⟨opened, most, .outside⟩ (writeFields level fs).toList
      = ⟨opened, max most (opened + fieldsDepth fs), .outside⟩ := by
  cases fs with
  | nil => simp [writeFields, fieldsDepth, Nat.max_eq_left hmost]
  | cons f fs =>
    obtain ⟨k, j⟩ := f
    rw [fieldsExact, Bool.and_eq_true] at hfs
    have hcomma : step ⟨opened, most, .outside⟩ ',' = ⟨opened, most, .outside⟩ := rfl
    rw [Reader.toList_writeFields_cons, run_cons, hcomma, run_append, run_newline, run_field,
      run_append, run_writeAt j hfs.1 _ _ _ hmost, run_writeFields fs hfs.2 _ _ _ (by omega),
      fieldsDepth]
    congr 1
    omega

end

end Brackets

/-- **A text is nested as deep as the value that it says.** -/
theorem nesting_write {j : Json} (hj : j.isExact = true) : nesting j.write = j.depth := by
  rw [nesting, write, Brackets.run_writeAt j hj 0 0 0 (Nat.le_refl 0), Nat.zero_max, Nat.zero_add]

end SinkReach.Json
