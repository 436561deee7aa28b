/-
# What templates are, and how they are written

A template is read from left to right, and each step takes one MARK: a star, a character, or a
backslash together with the character after it.  `Template.marks` does no more than that, and never
fails.  Which templates are accepted, which pieces they have and how they are written again is said
of their marks:

* `Template.parse_eq_ok_iff`: a template is accepted exactly if its marks are `Grammatical`, and its
  pieces are then the stars and the runs of characters between them;
* `Template.proper_group`: such pieces are `Proper`, that is, nothing could be left out or put
  together;
* `Template.parse_render`: proper pieces are read back from what is written for them;
* `Template.render_parse_iff`: a text is written again as it was exactly if it escapes nothing but
  backslashes and stars.
-/
import Mathlib.Data.List.Chain
import SinkReach.Pattern.Basic
import SinkReach.Proofs.WellSorted

namespace SinkReach

/-! ## 1. Marks -/

/-- What one step through a template takes. -/
inductive Mark where
  /-- A star that is not escaped. -/
  | star
  /-- A character that stands for itself, and whether there is a backslash before it. -/
  | char (c : Char) (escaped : Bool)
  /-- A backslash at the end. -/
  | dangling
deriving DecidableEq

/-- Two marks that may stand next to each other: not both are stars. -/
def Mark.Apart (a b : Mark) : Prop := ¬ (a = .star ∧ b = .star)

/-- A mark as it stands in the template. -/
def Mark.written : Mark → List Char
  | .star => ['*']
  | .char c true => ['\\', c]
  | .char c false => [c]
  | .dangling => ['\\']

/-- A mark as it is written again: a character is escaped if it has to be. -/
def Mark.rendered : Mark → List Char
  | .star => ['*']
  | .char c _ => Template.escapeChar c
  | .dangling => []

/-- The marks of a piece that has been written. -/
def Segment.marks : Segment → List Mark
  | .wildcard => [.star]
  | .literal s => s.toList.map fun c => .char c (c = '\\' ∨ c = '*')

/-- Two pieces that may stand next to each other: one is a wildcard and the other a literal. -/
def Segment.Alternate (a b : Segment) : Prop := a = .wildcard ↔ b ≠ .wildcard

namespace Template

/-- The marks of a template. -/
def marks : List Char → List Mark
  | [] => []
  | '\\' :: c :: rest => .char c true :: marks rest
  | '\\' :: [] => [.dangling]
  | '*' :: rest => .star :: marks rest
  | c :: rest => .char c false :: marks rest

theorem marks_plain {c : Char} (hslash : c ≠ '\\') (hstar : c ≠ '*') (rest : List Char) :
    marks (c :: rest) = .char c false :: marks rest := by
  rw [marks]
  · exact fun _ _ h => absurd h hslash
  · exact fun h => absurd h hslash
  · exact hstar

theorem parseFrom_plain {c : Char} (hslash : c ≠ '\\') (hstar : c ≠ '*') (buffer : List Char)
    (afterStar : Bool) (rest : List Char) :
    parseFrom buffer afterStar (c :: rest) = parseFrom (c :: buffer) afterStar rest := by
  rw [parseFrom]
  · exact fun _ _ h => absurd h hslash
  · exact fun h => absurd h hslash
  · exact hstar

/-- The steps through a template, as an induction. -/
theorem marks_induction {motive : List Char → Prop} (nil : motive [])
    (escaped : ∀ c rest, motive rest → motive ('\\' :: c :: rest)) (dangling : motive ['\\'])
    (star : ∀ rest, motive rest → motive ('*' :: rest))
    (plain : ∀ c rest, c ≠ '\\' → c ≠ '*' → motive rest → motive (c :: rest))
    (cs : List Char) : motive cs := by
  fun_induction marks cs with
  | case1 => exact nil
  | case2 c rest ih => exact escaped c rest ih
  | case3 => exact dangling
  | case4 rest ih => exact star rest ih
  | case5 c rest hescaped hdangling hstar ih =>
    refine plain c rest ?_ hstar ih
    rintro rfl
    cases rest with
    | nil => exact hdangling rfl rfl
    | cons d rest => exact hescaped d rest rfl rfl

/-- The marks of a template make up the whole of it. -/
theorem flatMap_written_marks (cs : List Char) : (marks cs).flatMap Mark.written = cs := by
  induction cs using marks_induction with
  | nil => rfl
  | escaped c rest ih => rw [marks, List.flatMap_cons, ih]; rfl
  | dangling => rfl
  | star rest ih => rw [marks, List.flatMap_cons, ih]; rfl
  | plain c rest hslash hstar ih => rw [marks_plain hslash hstar, List.flatMap_cons, ih]; rfl

/-- A character without a backslash before it is no star, and no backslash itself. -/
theorem plain_of_mem_marks {cs : List Char} {c : Char} (h : .char c false ∈ marks cs) :
    c ≠ '\\' ∧ c ≠ '*' := by
  induction cs using marks_induction with
  | nil => simp [marks] at h
  | escaped d rest ih => exact ih (by simpa [marks] using h)
  | dangling => simp [marks] at h
  | star rest ih => exact ih (by simpa [marks] using h)
  | plain d rest hslash hstar ih =>
    rw [marks_plain hslash hstar] at h
    rcases List.mem_cons.mp h with heq | h
    · obtain ⟨rfl, -⟩ := Mark.char.inj heq
      exact ⟨hslash, hstar⟩
    · exact ih h

/-! ## 2. Pieces -/

/-- The pieces that marks make: stars, and the runs of characters between them.  The characters
since the last star are handed along in reverse. -/
def group (buffer : List Char) : List Mark → Template
  | [] => flush buffer []
  | .star :: ms => flush buffer (.wildcard :: group [] ms)
  | .char c _ :: ms => group (c :: buffer) ms
  | .dangling :: ms => group buffer ms

/-- The star that a reader has just seen, if nothing has come after it. -/
def lead (buffer : List Char) (afterStar : Bool) : List Mark :=
  if buffer.isEmpty && afterStar then [.star] else []

/-- Anything may stand next to a character. -/
theorem isChain_char_cons {c : Char} {escaped : Bool} {ms : List Mark} :
    (Mark.char c escaped :: ms).IsChain Mark.Apart ↔ ms.IsChain Mark.Apart := by
  simp [List.isChain_cons, Mark.Apart]

/-- A character keeps the stars around it apart. -/
theorem isChain_lead_char {buffer : List Char} {afterStar : Bool} {c : Char} {escaped : Bool}
    {ms : List Mark} : (lead buffer afterStar ++ .char c escaped :: ms).IsChain Mark.Apart ↔
      ms.IsChain Mark.Apart := by
  unfold lead
  split
  · simp [isChain_char_cons, Mark.Apart]
  · exact isChain_char_cons

/-- **What reading from the middle on accepts**: marks among which there is no backslash at the end
and no star next to a star, not even to the one just before them. -/
theorem parseFrom_eq_ok_iff {cs buffer : List Char} {afterStar : Bool} {t : Template} :
    parseFrom buffer afterStar cs = .ok t ↔ .dangling ∉ marks cs ∧
      (lead buffer afterStar ++ marks cs).IsChain Mark.Apart ∧ t = group buffer (marks cs) := by
  induction cs using marks_induction generalizing buffer afterStar t with
  | nil =>
    have hlead : (lead buffer afterStar).IsChain Mark.Apart := by
      unfold lead
      split <;> simp
    simp [parseFrom, marks, group, hlead, eq_comm]
  | escaped c rest ih =>
    rw [parseFrom, ih, marks, isChain_lead_char, group]
    simp [lead]
  | dangling => simp [parseFrom, marks]
  | star rest ih =>
    rw [parseFrom, marks, group]
    -- The test of the reader is whether there is a lead, and the next lead is this star.
    by_cases hpair : (buffer.isEmpty && afterStar) = true
    · simp [hpair, lead, Mark.Apart]
    · rw [if_neg hpair, bind_eq_ok]
      have hlead : lead buffer afterStar = [] := if_neg hpair
      constructor
      · rintro ⟨more, hmore, hflush⟩
        obtain ⟨hend, hapart, rfl⟩ := ih.mp hmore
        exact ⟨by simpa using hend, by rw [hlead]; exact hapart, (Except.ok.inj hflush).symm⟩
      · rintro ⟨hend, hapart, rfl⟩
        rw [hlead] at hapart
        exact ⟨_, ih.mpr ⟨by simpa using hend, hapart, rfl⟩, rfl⟩
  | plain c rest hslash hstar ih =>
    rw [parseFrom_plain hslash hstar, ih, marks_plain hslash hstar, isChain_lead_char, group]
    simp [lead]

/-! ## 3. Which templates are accepted -/

/-- The marks of a template that can be used. -/
structure Grammatical (ms : List Mark) : Prop where
  /-- No backslash stands at the end. -/
  complete : .dangling ∉ ms
  /-- No star stands next to another. -/
  apart : ms.IsChain Mark.Apart
  /-- There is a character. -/
  literal : ∃ c escaped, .char c escaped ∈ ms

theorem all_wildcard_eq_false_iff {t : Template} :
    t.all (· = .wildcard) = false ↔ ∃ s, .literal s ∈ t := by
  rw [List.all_eq_false]
  constructor
  · rintro ⟨segment, hmem, hne⟩
    cases segment with
    | literal s => exact ⟨s, hmem⟩
    | wildcard => simp at hne
  · rintro ⟨s, hmem⟩
    exact ⟨_, hmem, by simp⟩

theorem mem_flush {buffer : List Char} {rest : Template} {segment : Segment} :
    segment ∈ flush buffer rest ↔
      (buffer ≠ [] ∧ segment = .literal (.ofList buffer.reverse)) ∨ segment ∈ rest := by
  unfold flush
  cases buffer with
  | nil => simp
  | cons c buffer => simp

/-- There is a literal exactly if there is a character. -/
theorem exists_literal_mem_group {ms : List Mark} {buffer : List Char} :
    (∃ s, .literal s ∈ group buffer ms) ↔ buffer ≠ [] ∨ ∃ c escaped, .char c escaped ∈ ms := by
  induction ms generalizing buffer with
  | nil => simp [group, mem_flush]
  | cons m ms ih =>
    cases m with
    | star =>
      simp only [group, mem_flush, List.mem_cons, reduceCtorEq, false_or]
      rw [exists_or, ih]
      simp
    | char c escaped =>
      rw [group, ih]
      simp only [ne_eq, reduceCtorEq, not_false_eq_true, true_or, true_iff]
      exact .inr ⟨c, escaped, List.mem_cons_self ..⟩
    | dangling =>
      rw [group, ih]
      simp

/-- **Which templates are accepted, and which pieces they have.** -/
theorem parse_eq_ok_iff {text : String} {t : Template} :
    parse text = .ok t ↔
      Grammatical (marks text.toList) ∧ t = group [] (marks text.toList) := by
  unfold parse
  split
  · next hempty =>
    have hnil : text.toList = [] := by simpa using hempty
    constructor
    · exact fun h => absurd h (by simp)
    · rintro ⟨⟨-, -, c, escaped, hmem⟩, -⟩
      exact absurd hmem (by simp [hnil, marks])
  · rw [bind_eq_ok]
    constructor
    · rintro ⟨segments, hsegments, h⟩
      obtain ⟨hend, hapart, rfl⟩ := parseFrom_eq_ok_iff.mp hsegments
      split at h
      · exact absurd h (by simp)
      · next hall =>
        have hliteral := all_wildcard_eq_false_iff.mp (by simpa using hall)
        rcases exists_literal_mem_group.mp hliteral with hne | hchar
        · exact absurd rfl hne
        · exact ⟨⟨hend, hapart, hchar⟩, (Except.ok.inj h).symm⟩
    · rintro ⟨⟨hend, hapart, hchar⟩, rfl⟩
      refine ⟨_, parseFrom_eq_ok_iff.mpr ⟨hend, hapart, rfl⟩, ?_⟩
      have hliteral : ∃ s, .literal s ∈ group [] (marks text.toList) :=
        exists_literal_mem_group.mpr (.inr hchar)
      rw [all_wildcard_eq_false_iff.mpr hliteral]
      rfl

/-! ## 4. Proper pieces -/

/-- Pieces of which none could be left out or put together with the next. -/
structure Proper (t : Template) : Prop where
  /-- No literal is empty. -/
  nonempty : .literal "" ∉ t
  /-- Wildcards and literals take turns. -/
  alternating : t.IsChain Segment.Alternate
  /-- There is a literal. -/
  literal : ∃ s, .literal s ∈ t

theorem literal_empty_not_mem_flush {buffer : List Char} {rest : Template}
    (h : .literal "" ∉ rest) : .literal "" ∉ flush buffer rest := by
  intro hmem
  rcases mem_flush.mp hmem with ⟨hne, heq⟩ | hmem
  · have hbuffer : "" = String.ofList buffer.reverse := Segment.literal.inj heq
    exact hne (by simpa [← String.toList_inj] using hbuffer)
  · exact h hmem

theorem literal_empty_not_mem_group {ms : List Mark} {buffer : List Char} :
    .literal "" ∉ group buffer ms := by
  induction ms generalizing buffer with
  | nil => exact literal_empty_not_mem_flush (by simp)
  | cons m ms ih =>
    cases m with
    | star => exact literal_empty_not_mem_flush (by simpa using ih)
    | char c escaped => exact ih
    | dangling => exact ih

/-- Characters that have been read become a literal, whatever comes after them. -/
theorem head?_group_cons (c : Char) (buffer : List Char) (ms : List Mark) :
    ∃ s, (group (c :: buffer) ms).head? = some (.literal s) := by
  induction ms generalizing c buffer with
  | nil => exact ⟨_, rfl⟩
  | cons m ms ih =>
    cases m with
    | star => exact ⟨_, rfl⟩
    | char d escaped => exact ih d _
    | dangling => exact ih c _

theorem alternating_group {ms : List Mark} {buffer : List Char} (hend : .dangling ∉ ms)
    (hapart : ms.IsChain Mark.Apart) : (group buffer ms).IsChain Segment.Alternate := by
  induction ms generalizing buffer with
  | nil => cases buffer <;> simp [group, flush]
  | cons m ms ih =>
    obtain ⟨hnext, htail⟩ := List.isChain_cons.mp hapart
    have hrest : .dangling ∉ ms := fun hmem => hend (List.mem_cons_of_mem _ hmem)
    cases m with
    | star =>
      -- What comes after the star is no star, so the pieces after it begin with a literal.
      have hwild : (Segment.wildcard :: group [] ms).IsChain Segment.Alternate := by
        refine List.isChain_cons.mpr ⟨?_, ih hrest htail⟩
        cases ms with
        | nil => simp [group, flush]
        | cons m ms =>
          cases m with
          | star => exact absurd ⟨rfl, rfl⟩ (hnext .star rfl)
          | dangling => exact absurd (List.mem_cons_self ..) hrest
          | char c escaped =>
            intro segment hsegment
            obtain ⟨s, hs⟩ := head?_group_cons c [] ms
            rw [group, hs] at hsegment
            obtain rfl := Option.some.inj hsegment
            simp [Segment.Alternate]
      cases buffer with
      | nil => exact hwild
      | cons c buffer => exact List.isChain_cons.mpr ⟨by simp [Segment.Alternate], hwild⟩
    | char c escaped => exact ih hrest htail
    | dangling => exact ih hrest htail

/-- **The pieces of a template are proper.** -/
theorem proper_group {ms : List Mark} (h : Grammatical ms) : Proper (group [] ms) where
  nonempty := literal_empty_not_mem_group
  alternating := alternating_group h.complete h.apart
  literal := exists_literal_mem_group.mpr (.inr h.literal)

/-! ## 5. Reading what is written -/

/-- The text in place of every occurrence of the character. -/
def replaceChar (c : Char) (text cs : List Char) : List Char :=
  cs.flatMap fun x => if x = c then text else [x]

/-- **Escaping in one pass is escaping in two**, first every backslash and then every star.  The
other way round the backslashes put before stars would be escaped as well. -/
theorem renderSegment_literal_eq_replaceChar (s : String) :
    renderSegment (.literal s) =
      replaceChar '*' ['\\', '*'] (replaceChar '\\' ['\\', '\\'] s.toList) := by
  have hchar : ∀ c : Char, escapeChar c =
      replaceChar '*' ['\\', '*'] (if c = '\\' then ['\\', '\\'] else [c]) := by
    intro c
    by_cases hslash : c = '\\'
    · subst hslash
      decide
    · by_cases hstar : c = '*'
      · subst hstar
        decide
      · simp [escapeChar, replaceChar, hslash, hstar]
  rw [renderSegment, replaceChar, replaceChar, List.flatMap_assoc]
  exact congrArg s.toList.flatMap (funext hchar)

theorem marks_escapeChar (c : Char) (rest : List Char) :
    marks (escapeChar c ++ rest) = .char c (c = '\\' ∨ c = '*') :: marks rest := by
  unfold escapeChar
  split
  · next h => simp [marks, h]
  · next h =>
    obtain ⟨hslash, hstar⟩ := not_or.mp h
    simp [marks_plain hslash hstar, hslash, hstar]

theorem marks_flatMap_escapeChar (cs rest : List Char) :
    marks (cs.flatMap escapeChar ++ rest) =
      (cs.map fun c => Mark.char c (c = '\\' ∨ c = '*')) ++ marks rest := by
  induction cs with
  | nil => rfl
  | cons c cs ih =>
    rw [List.flatMap_cons, List.append_assoc, marks_escapeChar, ih]
    rfl

/-- The marks of what is written are those of its pieces, one piece after the other. -/
theorem marks_flatMap_renderSegment (t : Template) :
    marks (t.flatMap renderSegment) = t.flatMap Segment.marks := by
  induction t with
  | nil => rfl
  | cons segment t ih =>
    rw [List.flatMap_cons, List.flatMap_cons, ← ih]
    cases segment with
    | wildcard => rfl
    | literal s => exact marks_flatMap_escapeChar _ _

theorem group_map_char (f : Char → Bool) (cs buffer : List Char) (ms : List Mark) :
    group buffer ((cs.map fun c => .char c (f c)) ++ ms) = group (cs.reverse ++ buffer) ms := by
  induction cs generalizing buffer with
  | nil => rfl
  | cons c cs ih => simp [group, ih]

theorem flush_reverse_toList {s : String} (hs : s ≠ "") (rest : Template) :
    flush s.toList.reverse rest = .literal s :: rest := by
  have hne : s.toList ≠ [] := fun h => hs (String.toList_inj.mp h)
  simp [flush, hne]

/-- **Proper pieces are found again from their marks.** -/
theorem group_flatMap_marks {t : Template} (hnonempty : .literal "" ∉ t)
    (halternating : t.IsChain Segment.Alternate) : group [] (t.flatMap Segment.marks) = t := by
  induction t with
  | nil => rfl
  | cons segment t ih =>
    obtain ⟨hnext, halternating⟩ := List.isChain_cons.mp halternating
    have ih := ih (fun hmem => hnonempty (List.mem_cons_of_mem _ hmem)) halternating
    cases segment with
    | wildcard => exact congrArg (Segment.wildcard :: ·) ih
    | literal s =>
      have hs : s ≠ "" := by
        rintro rfl
        exact hnonempty (List.mem_cons_self ..)
      rw [List.flatMap_cons, Segment.marks, group_map_char, List.append_nil]
      -- The literal ends here: a wildcard comes next, or nothing does.
      cases t with
      | nil => exact flush_reverse_toList hs []
      | cons next t =>
        cases next with
        | literal s' => simpa [Segment.Alternate] using hnext (.literal s') rfl
        | wildcard =>
          have htail : group [] (t.flatMap Segment.marks) = t := List.cons.inj ih |>.2
          change flush s.toList.reverse (.wildcard :: group [] (t.flatMap Segment.marks)) = _
          rw [htail, flush_reverse_toList hs]

theorem isChain_map_char (f : Char → Bool) (cs : List Char) {ms : List Mark} :
    ((cs.map fun c => Mark.char c (f c)) ++ ms).IsChain Mark.Apart ↔ ms.IsChain Mark.Apart := by
  induction cs with
  | nil => rfl
  | cons c cs ih => rw [List.map_cons, List.cons_append, isChain_char_cons, ih]

theorem apart_flatMap_marks {t : Template} (hnonempty : .literal "" ∉ t)
    (halternating : t.IsChain Segment.Alternate) :
    (t.flatMap Segment.marks).IsChain Mark.Apart := by
  induction t with
  | nil => simp
  | cons segment t ih =>
    obtain ⟨hnext, htail⟩ := List.isChain_cons.mp halternating
    have hrest : .literal "" ∉ t := fun hmem => hnonempty (List.mem_cons_of_mem _ hmem)
    have ih := ih hrest htail
    rw [List.flatMap_cons]
    cases segment with
    | literal s => exact (isChain_map_char _ _).mpr ih
    | wildcard =>
      refine List.isChain_cons.mpr ⟨?_, ih⟩
      cases t with
      | nil => simp
      | cons next t =>
        cases next with
        | wildcard => simpa [Segment.Alternate] using hnext .wildcard rfl
        | literal s =>
          -- The literal has a first character, and that is what comes after the star.
          cases hs : s.toList with
          | nil =>
            obtain rfl : s = "" := String.toList_inj.mp hs
            exact absurd (List.mem_cons_self ..) hrest
          | cons c cs => simp [Segment.marks, hs, Mark.Apart]

theorem grammatical_flatMap_marks {t : Template} (h : Proper t) :
    Grammatical (t.flatMap Segment.marks) where
  complete hmem := by
    obtain ⟨segment, -, hmem⟩ := List.mem_flatMap.mp hmem
    cases segment <;> simp [Segment.marks] at hmem
  apart := apart_flatMap_marks h.nonempty h.alternating
  literal := by
    have hliteral := h.literal
    rw [← group_flatMap_marks h.nonempty h.alternating] at hliteral
    exact (exists_literal_mem_group.mp hliteral).resolve_left fun hne => hne rfl

/-- **Proper pieces are read back from what is written for them.** -/
theorem parse_render {t : Template} (h : Proper t) : parse t.render = .ok t := by
  rw [parse_eq_ok_iff, render, String.toList_ofList, marks_flatMap_renderSegment]
  exact ⟨grammatical_flatMap_marks h, (group_flatMap_marks h.nonempty h.alternating).symm⟩

/-! ## 6. Writing what was read -/

theorem flatMap_renderSegment_flush (buffer : List Char) (rest : Template) :
    (flush buffer rest).flatMap renderSegment =
      buffer.reverse.flatMap escapeChar ++ rest.flatMap renderSegment := by
  cases buffer with
  | nil => rfl
  | cons c buffer => simp [flush, renderSegment]

/-- What was read is written mark by mark. -/
theorem flatMap_renderSegment_group (ms : List Mark) (buffer : List Char) :
    (group buffer ms).flatMap renderSegment =
      buffer.reverse.flatMap escapeChar ++ ms.flatMap Mark.rendered := by
  induction ms generalizing buffer with
  | nil => rw [group, flatMap_renderSegment_flush]; rfl
  | cons m ms ih =>
    cases m with
    | star =>
      rw [group, flatMap_renderSegment_flush, List.flatMap_cons, ih]
      rfl
    | char c escaped => simp [group, ih, Mark.rendered]
    | dangling => simp [group, ih, Mark.rendered]

/-- **Marks are written as they stood exactly if nothing was escaped that need not be.**  After the
first such escape the two texts differ: one goes on with the character, the other with a
backslash. -/
theorem flatMap_rendered_eq_written_iff {ms : List Mark} (hend : .dangling ∉ ms)
    (hplain : ∀ c, .char c false ∈ ms → c ≠ '\\' ∧ c ≠ '*') :
    ms.flatMap Mark.rendered = ms.flatMap Mark.written ↔
      ∀ c, .char c true ∈ ms → c = '\\' ∨ c = '*' := by
  induction ms with
  | nil => simp
  | cons m ms ih =>
    have ih := ih (fun hmem => hend (List.mem_cons_of_mem _ hmem))
      fun c hmem => hplain c (List.mem_cons_of_mem _ hmem)
    rw [List.flatMap_cons, List.flatMap_cons]
    cases m with
    | star => simpa [Mark.rendered, Mark.written] using ih
    | dangling => exact absurd (List.mem_cons_self ..) hend
    | char c escaped =>
      cases escaped with
      | false =>
        obtain ⟨hslash, hstar⟩ := hplain c (List.mem_cons_self ..)
        simpa [Mark.rendered, Mark.written, escapeChar, hslash, hstar] using ih
      | true =>
        by_cases hspecial : c = '\\' ∨ c = '*'
        · simp [Mark.rendered, Mark.written, escapeChar, hspecial, ih]
        · obtain ⟨hslash, hstar⟩ := not_or.mp hspecial
          constructor
          · intro h
            simp [Mark.rendered, Mark.written, escapeChar, hslash, hstar] at h
          · exact fun h => absurd (h c (List.mem_cons_self ..)) hspecial

/-- **A text is written as it was exactly if it escapes nothing but backslashes and stars.** -/
theorem render_parse_iff {text : String} {t : Template} (h : parse text = .ok t) :
    t.render = text ↔ ∀ c, .char c true ∈ marks text.toList → c = '\\' ∨ c = '*' := by
  obtain ⟨hgrammatical, rfl⟩ := parse_eq_ok_iff.mp h
  rw [← flatMap_rendered_eq_written_iff hgrammatical.complete fun c => plain_of_mem_marks,
    flatMap_written_marks, ← String.toList_inj, render, String.toList_ofList,
    flatMap_renderSegment_group]
  rfl

end Template

/-! ## 7. Patterns -/

namespace Pattern

theorem parse_eq_ok_iff {name text : String} {mode : MatchMode} {p : Pattern}
    (hname : Text.isBlank name = false) :
    parse name text mode = .ok p ↔
      ∃ t, Template.parse text = .ok t ∧ p = ⟨name, t, mode, [], none⟩ := by
  rw [parse, hname]
  cases Template.parse text with
  | error cause => simp
  | ok t => simp [eq_comm]

/-- **Templates are accepted exactly by their grammar, and writing and reading undo each other.**
For a pattern with a name: its template is accepted exactly if its marks are `Grammatical`; its
pieces are then `Proper`, and they are written as they stood exactly if nothing was escaped but
backslashes and stars; and whatever proper pieces a pattern has, they are read back from what is
written for it. -/
theorem templates_read_and_written {name : String} (hname : Text.isBlank name = false)
    (mode : MatchMode) :
    (∀ text, (∃ p, parse name text mode = .ok p) ↔
      Template.Grammatical (Template.marks text.toList)) ∧
    (∀ text p, parse name text mode = .ok p → p.template.Proper ∧
      (p.render = text ↔
        ∀ c, .char c true ∈ Template.marks text.toList → c = '\\' ∨ c = '*')) ∧
    (∀ p : Pattern, p.template.Proper →
      parse name p.render mode = .ok ⟨name, p.template, mode, [], none⟩) := by
  refine ⟨fun text => ⟨?_, fun h => ?_⟩, fun text p h => ?_, fun p h => ?_⟩
  · rintro ⟨p, h⟩
    obtain ⟨t, ht, -⟩ := (parse_eq_ok_iff hname).mp h
    exact (Template.parse_eq_ok_iff.mp ht).1
  · exact ⟨_, (parse_eq_ok_iff hname).mpr ⟨_, Template.parse_eq_ok_iff.mpr ⟨h, rfl⟩, rfl⟩⟩
  · obtain ⟨t, ht, rfl⟩ := (parse_eq_ok_iff hname).mp h
    obtain ⟨hgrammatical, rfl⟩ := Template.parse_eq_ok_iff.mp ht
    exact ⟨Template.proper_group hgrammatical, Template.render_parse_iff ht⟩
  · exact (parse_eq_ok_iff hname).mpr ⟨_, Template.parse_render h, rfl⟩

/-- A template with a star between escapes, one of which is not needed: its pieces are proper, it is
written without that escape, and what is written has the same pieces. -/
theorem templates_read_and_written_escapes :
    let p : Pattern := ⟨"shell", [.literal "rm q", .wildcard, .literal "\\*"], .exact, [], none⟩
    parse "shell" "rm \\q*\\\\\\*" .exact = .ok p ∧ p.template.Proper ∧
      p.render ≠ "rm \\q*\\\\\\*" ∧ parse "shell" p.render .exact = .ok p := by
  intro p
  have hname : Text.isBlank "shell" = false := by decide
  obtain ⟨-, hread, hwritten⟩ := templates_read_and_written hname .exact
  have hparse : parse "shell" "rm \\q*\\\\\\*" .exact = .ok p := by rfl
  obtain ⟨hproper, hrender⟩ := hread _ p hparse
  exact ⟨hparse, hproper, fun h => absurd (hrender.mp h 'q' (by decide)) (by decide),
    hwritten p hproper⟩

end Pattern

end SinkReach
