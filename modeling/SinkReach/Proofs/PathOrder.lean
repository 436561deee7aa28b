/-
# The order of a path does not matter

The guards on the way to a site are given as a list, in the order in which they are met and as
often as they are.  The verdict depends on the SET of them.  This is not a matter of what the guards
mean: the oracle is asked literally the same questions, in the same order, with the same variables,
so that even a backend that remembers what it was asked sees no difference.

* `PathCondition.canonical_fold_append`: how many guards there are decides which shape the folded
  path has, and none of that is left in the canonical form of a question.
* `Oracle.prepare_congr`: what the oracle makes of a question depends on its canonical form and on
  which variables occur in it.
* `Scan.patterns_congr`: scans that ask the same come to the same.
-/
import SinkReach.Proofs.Canonical.Constructions
import SinkReach.Proofs.Checks
import SinkReach.Proofs.Stateless

namespace SinkReach

variable {σ : Type} {sem : IntSemantics}

/-! ## 1. Questions about a path -/

namespace PathCondition

/-- A path and a guard make the conjunction of the guards of the path and that guard, also where the
folded path is a single guard or no guard at all. -/
theorem canonical_fold_append (gs : List Guard) (a : Guard) :
    (Guard.all [(mk gs).fold, a]).canonical = (Guard.all (gs ++ [a])).canonical := by
  match gs with
  | [] => exact Junction.join_append_neutral [] [a.canonical]
  | [g] => rfl
  | g :: h :: rest =>
    have hjoin := Junction.join_append_join (j := .all) [] [a.canonical]
      (Guard.normal_canonicalAll (g :: h :: rest))
    rw [Guard.canonical, Guard.canonical, Guard.canonicalAll_eq_map (_ ++ _), List.map_append,
      ← Guard.canonicalAll_eq_map]
    exact hjoin

/-- **The canonical form of a question** does not depend on the order of the path. -/
theorem canonical_fold_congr {gs hs : List Guard} (h : ∀ g, g ∈ gs ↔ g ∈ hs) (a : Guard) :
    (Guard.all [(mk gs).fold, a]).canonical = (Guard.all [(mk hs).fold, a]).canonical := by
  calc (Guard.all [(mk gs).fold, a]).canonical
    _ = (Guard.all (gs ++ [a])).canonical := canonical_fold_append gs a
    _ = (Guard.all (hs ++ [a])).canonical :=
      Guard.canonical_junction_congr fun g => by simp only [List.mem_append, h]
    _ = (Guard.all [(mk hs).fold, a]).canonical := (canonical_fold_append hs a).symm

theorem mem_occurrences_fold_congr {gs hs : List Guard} (h : ∀ g, g ∈ gs ↔ g ∈ hs)
    (q : String × ValueSort) : q ∈ (mk gs).fold.occurrences ↔ q ∈ (mk hs).fold.occurrences := by
  simp only [occurrences_fold, Guard.mem_occurrencesIn, h]

end PathCondition

namespace Oracle

variable {b : Backend σ} {o : Oracle σ} {f f' : Guard}

/-- **What the oracle makes of a question** that passes its checks is decided by the canonical form
and the variables. -/
theorem prepare_congr {q q' : Prepared} (h : prepare f = .ok q) (h' : prepare f' = .ok q')
    (hcanonical : f.canonical = f'.canonical)
    (hvars : ∀ p, p ∈ f.occurrences ↔ p ∈ f'.occurrences) : prepare f = prepare f' := by
  obtain ⟨vars, canonical, canonicalVars⟩ := q
  obtain ⟨vars', canonical', canonicalVars'⟩ := q'
  obtain ⟨-, hall, rfl, hfew⟩ := prepare_eq_ok h
  obtain ⟨-, hall', rfl, hfew'⟩ := prepare_eq_ok h'
  rw [h, h', Except.ok.injEq, Prepared.mk.injEq]
  refine ⟨Declarations.declareAll_empty_congr hall hall' hvars, hcanonical, ?_⟩
  exact Declarations.declareAll_empty_congr hfew hfew' fun p => by rw [hcanonical]

theorem decideFormula_congr (h : prepare f = prepare f') :
    decideFormula b sem f o = decideFormula b sem f' o := by
  unfold decideFormula
  rw [h]

end Oracle

/-! ## 2. Scans that ask the same -/

namespace Scan

variable {b : Backend σ} {path path' : Guard} {v : Value}

/-- The oracle makes the same of a guard at the end of either path. -/
def SameQuestion (path path' g : Guard) : Prop :=
  Oracle.prepare (.all [path, g]) = Oracle.prepare (.all [path', g])

theorem alternatives_congr {p : Pattern} {gs : List Guard}
    (h : ∀ g ∈ gs, SameQuestion path path' g) (k : Nat)
    (open? : Option (PatternMatch × Reason)) (o : Oracle σ) :
    alternatives b sem path p k open? o gs = alternatives b sem path' p k open? o gs := by
  induction gs generalizing k open? o with
  | nil => rfl
  | cons g gs ih =>
    obtain ⟨hg, hgs⟩ := List.forall_mem_cons.mp h
    have hdecide : o.decide b sem path g = o.decide b sem path' g := Oracle.decideFormula_congr hg
    simp only [alternatives, hdecide]
    -- The answer is the same, so both scans stop here or both go on.
    split
    · rfl
    · rfl
    · exact ih hgs _ _ _
    · exact ih hgs _ _ _

/-- **Scans that ask the same come to the same**: each pattern has the same alternatives, and the
oracle makes the same of every one of them. -/
theorem patterns_congr {ps : List Pattern}
    (halts : ∀ p ∈ ps, p.alternatives v path = p.alternatives v path')
    (hsame : ∀ p ∈ ps, ∀ alts, p.alternatives v path = .ok alts →
      ∀ g ∈ alts, SameQuestion path path' g)
    (open? : Option (PatternMatch × Reason)) (o : Oracle σ) :
    patterns b sem path v open? o ps = patterns b sem path' v open? o ps := by
  induction ps generalizing open? o with
  | nil => rfl
  | cons p ps ih =>
    obtain ⟨hp, hps⟩ := List.forall_mem_cons.mp halts
    obtain ⟨hask, hasks⟩ := List.forall_mem_cons.mp hsame
    rw [patterns, patterns, ← hp]
    cases hgs : p.alternatives v path with
    | error e => rfl
    | ok gs =>
      dsimp only
      rw [alternatives_congr (hask gs hgs) 0 open? o]
      split
      · exact ih hps hasks _ _
      · rfl

end Scan

/-! ## 3. Sites -/

namespace Site

variable {site other : Site}

theorem mem_occurrences_congr (hvalue : site.value = other.value)
    (hpath : ∀ g, g ∈ site.path ↔ g ∈ other.path) (q : String × ValueSort) :
    q ∈ site.occurrences ↔ q ∈ other.occurrences := by
  simp only [occurrences, List.mem_append, Guard.mem_occurrencesIn, hvalue, hpath]

/-- Whether a site passes the check does not depend on the order of its path either. -/
theorem check_congr (hsite : site.check = .ok ()) (hvalue : site.value = other.value)
    (hpath : ∀ g, g ∈ site.path ↔ g ∈ other.path) : other.check = .ok () := by
  obtain ⟨hsort, hguards, hvars⟩ := check_eq_ok_iff.mp hsite
  refine check_eq_ok_iff.mpr ⟨hvalue ▸ hsort, fun g hg => hguards g ((hpath g).mpr hg), ?_⟩
  exact hvars.mono fun q hq => (mem_occurrences_congr hvalue hpath q).mpr hq

theorem alternatives_congr (hsite : site.check = .ok ()) (hvalue : site.value = other.value)
    (hpath : ∀ g, g ∈ site.path ↔ g ∈ other.path) (p : Pattern) :
    p.alternatives site.value (PathCondition.mk site.path).fold
      = p.alternatives other.value (PathCondition.mk other.path).fold := by
  obtain ⟨hsort, -, hvars⟩ := check_eq_ok_iff.mp hsite
  obtain ⟨hsort', -, hvars'⟩ := check_eq_ok_iff.mp (check_congr hsite hvalue hpath)
  obtain ⟨taken, htaken⟩ := Declarations.exists_declareAll_empty_iff.mpr
    (hvars.mono fun q hq => mem_occurrences_fold.mp hq)
  obtain ⟨taken', htaken'⟩ := Declarations.exists_declareAll_empty_iff.mpr
    (hvars'.mono fun q hq => mem_occurrences_fold.mp hq)
  obtain rfl : taken = taken' := by
    refine Declarations.declareAll_empty_congr htaken htaken' fun q => ?_
    rw [mem_occurrences_fold, mem_occurrences_fold, mem_occurrences_congr hvalue hpath]
  rw [Pattern.alternatives_eq_alternativesFrom hsort htaken,
    Pattern.alternatives_eq_alternativesFrom hsort' htaken', hvalue]

theorem sameQuestion (hsite : site.check = .ok ()) (hvalue : site.value = other.value)
    (hpath : ∀ g, g ∈ site.path ↔ g ∈ other.path) {p : Pattern} {alts : List Guard}
    (halts : p.alternatives site.value (PathCondition.mk site.path).fold = .ok alts)
    {g : Guard} (hg : g ∈ alts) :
    Scan.SameQuestion (PathCondition.mk site.path).fold (PathCondition.mk other.path).fold g := by
  have halts' := (alternatives_congr hsite hvalue hpath p).symm.trans halts
  obtain ⟨q, hq⟩ := exists_prepare hsite halts hg
  obtain ⟨q', hq'⟩ := exists_prepare (check_congr hsite hvalue hpath) halts' hg
  refine Oracle.prepare_congr hq hq' (PathCondition.canonical_fold_congr hpath g) fun r => ?_
  simp only [Guard.occurrences, Guard.occurrencesIn, List.mem_append,
    PathCondition.mem_occurrences_fold_congr hpath r]

/-- Sites that differ in the order of their paths only are analyzed alike, step by step. -/
theorem analyze_congr (hsite : site.check = .ok ()) (hid : site.id = other.id)
    (hvalue : site.value = other.value) (hpath : ∀ g, g ∈ site.path ↔ g ∈ other.path)
    (b : Backend σ) (sem : IntSemantics) (patterns : PatternSet) (o : Oracle σ) :
    site.analyze b sem patterns o = other.analyze b sem patterns o := by
  have hverdict : ∀ finding : Finding, finding.verdict site = finding.verdict other := by
    intro finding
    unfold Finding.verdict
    rw [hid, hvalue]
  have hscan : Scan.patterns b sem (PathCondition.mk site.path).fold site.value none o
        (patterns.applicable site.id.function site.id.argIndex)
      = Scan.patterns b sem (PathCondition.mk other.path).fold site.value none o
        (patterns.applicable site.id.function site.id.argIndex) := by
    refine Scan.patterns_congr (fun p _ => ?_) (fun p _ alts halts g hg => ?_) none o
    · rw [alternatives_congr hsite hvalue hpath p, hvalue]
    · exact sameQuestion hsite hvalue hpath halts hg
  rw [analyze_of_check hsite, analyze_of_check (check_congr hsite hvalue hpath), ← hvalue, ← hid,
    hscan]
  simp only [hverdict]

/-- **The order of a path does not matter.**  Take a site that passes the check, and another with
the same id, the same value and the same guards on its path, in any order and number.  The analysis
gives the same verdict for both, with its model and its match, or the same failure; it also leaves
the oracle and its backend in the same state, whatever the backend remembers.  If the backend
remembers nothing, the two may even be analyzed by oracles in different states. -/
theorem order_of_path_is_irrelevant (hsite : site.check = .ok ()) (hid : site.id = other.id)
    (hvalue : site.value = other.value) (hpath : ∀ g, g ∈ site.path ↔ g ∈ other.path)
    (b : Backend σ) (sem : IntSemantics) (patterns : PatternSet) (o : Oracle σ) :
    site.analyze b sem patterns o = other.analyze b sem patterns o ∧
      (b.Stateless → ∀ o' : Oracle σ,
        (site.analyze b sem patterns o).1 = (other.analyze b sem patterns o').1) := by
  have hsame := analyze_congr hsite hid hvalue hpath b sem patterns
  refine ⟨hsame o, fun hb o' => ?_⟩
  obtain ⟨result, q, q', hq, hq', -⟩ := other.uniform_analyze hb sem patterns o o'
  rw [hsame o, hq, hq']

/-- The write of `memoryWrite`, behind a test of `dir` and one of `n` ... -/
def testedWrite : Site :=
  { memoryWrite with path := memoryWrite.path ++ [.compare .gt (.intVar "n") (.int 0)] }

/-- ... and behind the same tests, met the other way round and one of them twice. -/
def retestedWrite : Site :=
  { testedWrite with path := testedWrite.path.reverse ++ testedWrite.path.drop 1 }

/-- Both writes reach the memory of a process in the same way. -/
theorem order_of_path_is_irrelevant_testedWrite :
    let b := Backend.search .unbounded [memoryModel.insert "n" (.int 1)]
    testedWrite.check = .ok () ∧ retestedWrite.check = .ok () ∧
      (∀ g, g ∈ testedWrite.path ↔ g ∈ retestedWrite.path) ∧
      (testedWrite.analyze b .unbounded ⟨[Pattern.procMem]⟩ ⟨(), {}⟩).1
        = .ok ⟨memoryWrite.id, memoryWrite.value.render, .sat (memoryModel.insert "n" (.int 1)),
            some (Scan.matchOf Pattern.procMem 0)⟩ ∧
      (retestedWrite.analyze b .unbounded ⟨[Pattern.procMem]⟩ ⟨(), ⟨5, 1, 3, 1⟩⟩).1
        = (testedWrite.analyze b .unbounded ⟨[Pattern.procMem]⟩ ⟨(), {}⟩).1 := by
  intro b
  have hcheck : testedWrite.check = .ok () := by with_unfolding_all rfl
  have hrecheck : retestedWrite.check = .ok () := by with_unfolding_all rfl
  have hpath : ∀ g, g ∈ testedWrite.path ↔ g ∈ retestedWrite.path := by
    intro g
    simp only [testedWrite, retestedWrite, memoryWrite, List.singleton_append, List.reverse_cons,
      List.reverse_nil, List.nil_append, List.drop_succ_cons, List.drop_zero, List.mem_cons,
      List.mem_append, List.not_mem_nil, or_false]
    tauto
  have hid : testedWrite.id = retestedWrite.id := rfl
  have hvalue : testedWrite.value = retestedWrite.value := rfl
  have hb : b.Stateless := fun _ _ _ _ => rfl
  refine ⟨hcheck, hrecheck, hpath, by with_unfolding_all rfl, ?_⟩
  exact ((order_of_path_is_irrelevant hcheck hid hvalue hpath b .unbounded ⟨[Pattern.procMem]⟩
    ⟨(), {}⟩).2 hb ⟨(), ⟨5, 1, 3, 1⟩⟩).symm

end Site

end SinkReach
