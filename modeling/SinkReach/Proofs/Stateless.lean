/-
# Backends that remember nothing

A backend is STATELESS when its answers do not depend on its state.  With such a backend, what an
oracle answers to a question, and what it counts for it, depends on the question alone: not on the
state the oracle is in, and not on what it has counted so far.  Everything that is made of
questions inherits this (`Oracle.Uniform`), up to the decision about a whole site
(`Site.uniform_analyzeOrUnknown`).

Counts of different oracles are added up; that they form a commutative monoid is what later makes
the order in which they arrive irrelevant.
-/
import Mathlib.Algebra.BigOperators.Group.List.Basic
import SinkReach.Scan

namespace SinkReach

variable {σ α : Type}

/-! ## 1. Counts add up -/

instance : Add Stats := ⟨Stats.merge⟩

instance : Zero Stats := ⟨{}⟩

theorem Stats.merge_eq_add (a b : Stats) : a.merge b = a + b := rfl

instance : AddCommMonoid Stats where
  add_assoc a b c := by simp only [← Stats.merge_eq_add, Stats.merge, Nat.add_assoc]
  zero_add a := by
    change Stats.merge {} a = a
    simp only [Stats.merge, Nat.zero_add]
  add_zero a := rfl
  add_comm a b := by simp only [← Stats.merge_eq_add, Stats.merge, Nat.add_comm]
  nsmul := nsmulRec

/-! ## 2. Questions -/

/-- The backend's answers do not depend on its state. -/
def Backend.Stateless (b : Backend σ) : Prop :=
  ∀ s s' f vars, (b.check s f vars).1 = (b.check s' f vars).1

namespace Oracle

/-- From `o` to `q` the same is counted as from `o'` to `q'`. -/
def SameCount (o q o' q' : Oracle σ) : Prop :=
  ∃ cost, q.stats = o.stats + cost ∧ q'.stats = o'.stats + cost

/-- Whichever oracle takes the step, the result is the same, and so is what is counted for it. -/
def Uniform (step : Oracle σ → α × Oracle σ) : Prop :=
  ∀ o o', ∃ result q q', step o = (result, q) ∧ step o' = (result, q') ∧ SameCount o q o' q'

theorem SameCount.refl (o o' : Oracle σ) : SameCount o o o' o' :=
  ⟨0, (add_zero o.stats).symm, (add_zero o'.stats).symm⟩

theorem SameCount.trans {o p q o' p' q' : Oracle σ} (h : SameCount o p o' p')
    (hnext : SameCount p q p' q') : SameCount o q o' q' := by
  obtain ⟨cost, hp, hp'⟩ := h
  obtain ⟨more, hq, hq'⟩ := hnext
  exact ⟨cost + more, by rw [hq, hp, add_assoc], by rw [hq', hp', add_assoc]⟩

theorem countAnswer_eq_add (stats : Stats) (outcome : Outcome) :
    countAnswer { stats with total := stats.total + 1 } outcome
      = stats + if outcome.isUnknown then ⟨1, 0, 0, 1⟩ else ⟨1, 0, 1, 0⟩ := by
  unfold countAnswer
  split
  · rfl
  · rfl

variable {b : Backend σ}

/-- **A stateless backend makes the oracle uniform.** -/
theorem uniform_decideFormula (hb : b.Stateless) (sem : IntSemantics) (f : Guard) :
    Uniform (decideFormula b sem f) := by
  intro o o'
  unfold decideFormula
  cases prepare f with
  | error e => exact ⟨_, _, _, rfl, rfl, ⟨1, 0, 0, 0⟩, rfl, rfl⟩
  | ok q =>
    dsimp only
    cases q.canonical.decideClosed sem with
    | some outcome => exact ⟨_, _, _, rfl, rfl, ⟨1, 1, 0, 0⟩, rfl, rfl⟩
    | none =>
      have hanswer := hb o.state o'.state q.canonical q.canonicalVars
      revert hanswer
      obtain ⟨answer, state⟩ := b.check o.state q.canonical q.canonicalVars
      obtain ⟨answer', state'⟩ := b.check o'.state q.canonical q.canonicalVars
      rintro (rfl : answer = answer')
      cases answer with
      | error e => exact ⟨_, _, _, rfl, rfl, ⟨1, 0, 0, 0⟩, rfl, rfl⟩
      | ok outcome =>
        exact ⟨_, _, _, rfl, rfl, _, countAnswer_eq_add _ _, countAnswer_eq_add _ _⟩

end Oracle

/-! ## 3. Scans -/

namespace Scan

variable {b : Backend σ}

theorem uniform_alternatives (hb : b.Stateless) (sem : IntSemantics) (path : Guard) (p : Pattern)
    (gs : List Guard) (k : Nat) (open? : Option (PatternMatch × Reason)) :
    Oracle.Uniform fun o => alternatives b sem path p k open? o gs := by
  induction gs generalizing k open? with
  | nil => exact fun o o' => ⟨_, _, _, rfl, rfl, .refl o o'⟩
  | cons g gs ih =>
    intro o o'
    obtain ⟨answer, q, q', hq, hq', hcount⟩ :=
      Oracle.uniform_decideFormula hb sem (.all [path, g]) o o'
    simp only [alternatives, Oracle.decide, hq, hq']
    -- The answer, which is the same on both sides, says whether the scan goes on.
    match answer with
    | .error e => exact ⟨_, _, _, rfl, rfl, hcount⟩
    | .ok (.sat model) => exact ⟨_, _, _, rfl, rfl, hcount⟩
    | .ok .unsat =>
      obtain ⟨finding, r, r', hr, hr', hrest⟩ := ih (k + 1) open? q q'
      exact ⟨finding, r, r', hr, hr', hcount.trans hrest⟩
    | .ok (.unknown reason) =>
      obtain ⟨finding, r, r', hr, hr', hrest⟩ :=
        ih (k + 1) (open?.or (some (matchOf p k, reason))) q q'
      exact ⟨finding, r, r', hr, hr', hcount.trans hrest⟩

theorem uniform_patterns (hb : b.Stateless) (sem : IntSemantics) (path : Guard) (v : Value)
    (ps : List Pattern) (open? : Option (PatternMatch × Reason)) :
    Oracle.Uniform fun o => patterns b sem path v open? o ps := by
  induction ps generalizing open? with
  | nil => exact fun o o' => ⟨_, _, _, rfl, rfl, .refl o o'⟩
  | cons p ps ih =>
    intro o o'
    simp only [patterns]
    cases p.alternatives v path with
    | error e => exact ⟨_, _, _, rfl, rfl, .refl o o'⟩
    | ok gs =>
      obtain ⟨finding, q, q', hq, hq', hcount⟩ :=
        uniform_alternatives hb sem path p gs 0 open? o o'
      simp only [hq, hq']
      match finding with
      | .error e => exact ⟨_, _, _, rfl, rfl, hcount⟩
      | .ok (.found matched model) => exact ⟨_, _, _, rfl, rfl, hcount⟩
      | .ok (.none open?) =>
        obtain ⟨finding, r, r', hr, hr', hrest⟩ := ih open? q q'
        exact ⟨finding, r, r', hr, hr', hcount.trans hrest⟩

end Scan

/-! ## 4. Sites -/

/-- **A stateless backend decides a site in one way**, whatever was decided before. -/
theorem Site.uniform_analyze {b : Backend σ} (hb : b.Stateless) (sem : IntSemantics)
    (patterns : PatternSet) (site : Site) : Oracle.Uniform (site.analyze b sem patterns) := by
  intro o o'
  simp only [analyze]
  cases (do site.check; PathCondition.ofGuards site.path : Except SortFault PathCondition) with
  | error e => exact ⟨_, _, _, rfl, rfl, .refl o o'⟩
  | ok path =>
    obtain ⟨finding, q, q', hq, hq', hcount⟩ :=
      Scan.uniform_patterns hb sem path.fold site.value
        (patterns.applicable site.id.function site.id.argIndex) none o o'
    simp only [hq, hq']
    cases finding with
    | error e => exact ⟨_, _, _, rfl, rfl, hcount⟩
    | ok finding => exact ⟨_, _, _, rfl, rfl, hcount⟩

theorem Site.uniform_analyzeOrUnknown {b : Backend σ} (hb : b.Stateless) (sem : IntSemantics)
    (patterns : PatternSet) (site : Site) :
    Oracle.Uniform (site.analyzeOrUnknown b sem patterns) := by
  intro o o'
  obtain ⟨result, q, q', hq, hq', hcount⟩ := site.uniform_analyze hb sem patterns o o'
  exact ⟨site.absorb result, q, q', by rw [analyzeOrUnknown, hq], by rw [analyzeOrUnknown, hq'],
    hcount⟩

end SinkReach
