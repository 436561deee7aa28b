/-
# The texts and the arguments a pattern is about

An INSTANCE of a template is a text that the template becomes when each wildcard is replaced by
some text, two wildcards by two texts that need not be the same.  A pattern accepts a text that is
an instance, or that an instance occurs in, as its mode says.

Nothing here mentions how a match is looked for; `Proofs/Pattern/Matching.lean` compares the
two.

Which arguments of which sinks a pattern counts for is in its specification, where nothing said
means no restriction (`Pattern.appliesTo_iff`).
-/
import SinkReach.Pattern.Basic

namespace SinkReach

/-! ## 1. Texts -/

/-- The text is what the template becomes when its wildcards are filled in. -/
inductive Template.Instance : Template → String → Prop where
  | nil : Instance [] ""
  | literal (l : String) {t : Template} {s : String} (h : Instance t s) :
      Instance (.literal l :: t) (l ++ s)
  | wildcard (w : String) {t : Template} {s : String} (h : Instance t s) :
      Instance (.wildcard :: t) (w ++ s)

/-- Some instance of the template stands in the text. -/
def Template.OccursIn (t : Template) (s : String) : Prop :=
  ∃ before u after, t.Instance u ∧ s = before ++ u ++ after

/-- The language of a pattern. -/
def Pattern.Accepts (p : Pattern) (s : String) : Prop :=
  match p.mode with
  | .exact => p.template.Instance s
  | .contains => p.template.OccursIn s

theorem Pattern.accepts_exact {p : Pattern} {s : String} (h : p.mode = .exact) :
    p.Accepts s ↔ p.template.Instance s := by
  rw [Pattern.Accepts, h]

theorem Pattern.accepts_contains {p : Pattern} {s : String} (h : p.mode = .contains) :
    p.Accepts s ↔ p.template.OccursIn s := by
  rw [Pattern.Accepts, h]

/-! ## 2. Arguments of sinks -/

/-- A pattern is meant for an argument of a sink if it lists that sink or none, and has the index of
that argument or none. -/
theorem Pattern.appliesTo_iff {p : Pattern} {function : String} {argIndex : UInt64} :
    p.appliesTo function argIndex = true ↔
      (p.sinks = [] ∨ function ∈ p.sinks) ∧
        (p.argIndex = none ∨ p.argIndex = some argIndex) := by
  rw [Pattern.appliesTo, Bool.and_eq_true, Bool.or_eq_true, List.isEmpty_iff,
    List.contains_iff_mem]
  refine and_congr_right fun _ => ?_
  cases p.argIndex with
  | none => simp
  | some i => simp

/-- **Which patterns are applicable**: all that are meant for the argument, in the order of the
set. -/
theorem PatternSet.applicable_eq_filter (s : PatternSet) (function : String) (argIndex : UInt64) :
    s.applicable function argIndex = s.patterns.filter fun p =>
      (p.sinks = [] ∨ function ∈ p.sinks) ∧
        (p.argIndex = none ∨ p.argIndex = some argIndex) := by
  refine List.filter_congr fun p _ => ?_
  rw [Bool.eq_iff_iff, decide_eq_true_iff]
  exact Pattern.appliesTo_iff

theorem PatternSet.mem_applicable {s : PatternSet} {function : String} {argIndex : UInt64}
    {p : Pattern} :
    p ∈ s.applicable function argIndex ↔
      p ∈ s.patterns ∧ (p.sinks = [] ∨ function ∈ p.sinks) ∧
        (p.argIndex = none ∨ p.argIndex = some argIndex) := by
  rw [PatternSet.applicable_eq_filter, List.mem_filter, decide_eq_true_iff]

end SinkReach
