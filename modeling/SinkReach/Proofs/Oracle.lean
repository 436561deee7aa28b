/-
# What the answers of the oracle mean

The oracle answers about the canonical form of a formula, or lets a backend do so.  Its answers are
about the formula all the same, as far as the backend can be trusted, and the two kinds of answer
need two kinds of TRUST:

* `Oracle.not_true_of_unsat`: if the backend is right to call a canonical form unsatisfiable, then
  nothing makes the formula true;
* `Oracle.declares_of_sat`, `Oracle.true_of_sat`: if the backend's models of a canonical form are
  models, then the oracle's bind the variables of the formula and no others, each to a constant of
  its sort, and neither they nor what extends them make the formula false.

No trust is needed in what is decided without a backend (`Oracle.eval_of_decideClosed`).

A model need not make the formula TRUE: what the canonical form no longer has may be undecided
under it, a division by zero, say.
-/
import SinkReach.Proofs.Canonical.Variables
import SinkReach.Proofs.Declarations
import SinkReach.Solver.Oracle

namespace SinkReach

variable {σ : Type} {sem : IntSemantics}

/-! ## 1. Closed terms -/

mutual

theorem Value.occurrences_of_isClosed : ∀ {v : Value}, v.isClosed = true → v.occurrences = []
  | .lit _, _ => rfl
  | .var _ _, h => by simp [Value.isClosed] at h
  | .concat _, h => Value.occurrencesIn_of_allClosed h
  | .arith _ l r, h => by
    obtain ⟨hl, hr⟩ := Bool.and_eq_true_iff.mp h
    rw [Value.occurrences, Value.occurrences_of_isClosed hl, Value.occurrences_of_isClosed hr]
    rfl
  | .ite c t e, h => by
    obtain ⟨hct, he⟩ := Bool.and_eq_true_iff.mp h
    obtain ⟨hc, ht⟩ := Bool.and_eq_true_iff.mp hct
    rw [Value.occurrences, Guard.occurrences_of_isClosed hc, Value.occurrences_of_isClosed ht,
      Value.occurrences_of_isClosed he]
    rfl

theorem Value.occurrencesIn_of_allClosed : ∀ {vs : List Value}, Value.allClosed vs = true →
    Value.occurrencesIn vs = []
  | [], _ => rfl
  | v :: vs, h => by
    obtain ⟨hv, hvs⟩ := Bool.and_eq_true_iff.mp h
    rw [Value.occurrencesIn, Value.occurrences_of_isClosed hv,
      Value.occurrencesIn_of_allClosed hvs]
    rfl

theorem Guard.occurrences_of_isClosed : ∀ {g : Guard}, g.isClosed = true → g.occurrences = []
  | .const _, _ => rfl
  | .compare _ l r, h => by
    obtain ⟨hl, hr⟩ := Bool.and_eq_true_iff.mp h
    rw [Guard.occurrences, Value.occurrences_of_isClosed hl, Value.occurrences_of_isClosed hr]
    rfl
  | .not g, h => by
    rw [Guard.isClosed] at h
    rw [Guard.occurrences]
    exact Guard.occurrences_of_isClosed h
  | .junction _ _, h => Guard.occurrencesIn_of_allClosed h
  | .affix _ p t, h => by
    obtain ⟨hp, ht⟩ := Bool.and_eq_true_iff.mp h
    rw [Guard.occurrences, Value.occurrences_of_isClosed hp, Value.occurrences_of_isClosed ht]
    rfl

theorem Guard.occurrencesIn_of_allClosed : ∀ {gs : List Guard}, Guard.allClosed gs = true →
    Guard.occurrencesIn gs = []
  | [], _ => rfl
  | g :: gs, h => by
    obtain ⟨hg, hgs⟩ := Bool.and_eq_true_iff.mp h
    rw [Guard.occurrencesIn, Guard.occurrences_of_isClosed hg,
      Guard.occurrencesIn_of_allClosed hgs]
    rfl

end

mutual

theorem Value.isClosed_of_occurrences : ∀ {v : Value}, v.occurrences = [] → v.isClosed = true
  | .lit _, _ => rfl
  | .var _ _, h => by simp [Value.occurrences] at h
  | .concat _, h => Value.allClosed_of_occurrencesIn h
  | .arith _ _ _, h => by
    obtain ⟨hl, hr⟩ := List.append_eq_nil_iff.mp h
    rw [Value.isClosed, Value.isClosed_of_occurrences hl, Value.isClosed_of_occurrences hr]
    rfl
  | .ite _ _ _, h => by
    obtain ⟨hc, hte⟩ := List.append_eq_nil_iff.mp h
    obtain ⟨ht, he⟩ := List.append_eq_nil_iff.mp hte
    rw [Value.isClosed, Guard.isClosed_of_occurrences hc, Value.isClosed_of_occurrences ht,
      Value.isClosed_of_occurrences he]
    rfl

theorem Value.allClosed_of_occurrencesIn : ∀ {vs : List Value}, Value.occurrencesIn vs = [] →
    Value.allClosed vs = true
  | [], _ => rfl
  | _ :: _, h => by
    obtain ⟨hv, hvs⟩ := List.append_eq_nil_iff.mp h
    rw [Value.allClosed, Value.isClosed_of_occurrences hv, Value.allClosed_of_occurrencesIn hvs]
    rfl

theorem Guard.isClosed_of_occurrences : ∀ {g : Guard}, g.occurrences = [] → g.isClosed = true
  | .const _, _ => rfl
  | .compare _ _ _, h => by
    obtain ⟨hl, hr⟩ := List.append_eq_nil_iff.mp h
    rw [Guard.isClosed, Value.isClosed_of_occurrences hl, Value.isClosed_of_occurrences hr]
    rfl
  | .not _, h => by
    rw [Guard.occurrences] at h
    rw [Guard.isClosed]
    exact Guard.isClosed_of_occurrences h
  | .junction _ _, h => Guard.allClosed_of_occurrencesIn h
  | .affix _ _ _, h => by
    obtain ⟨hp, ht⟩ := List.append_eq_nil_iff.mp h
    rw [Guard.isClosed, Value.isClosed_of_occurrences hp, Value.isClosed_of_occurrences ht]
    rfl

theorem Guard.allClosed_of_occurrencesIn : ∀ {gs : List Guard}, Guard.occurrencesIn gs = [] →
    Guard.allClosed gs = true
  | [], _ => rfl
  | _ :: _, h => by
    obtain ⟨hg, hgs⟩ := List.append_eq_nil_iff.mp h
    rw [Guard.allClosed, Guard.isClosed_of_occurrences hg, Guard.allClosed_of_occurrencesIn hgs]
    rfl

end

/-- **What is settled without a backend**: a formula without variables, by its truth value. -/
theorem Guard.decideClosed_eq_some {g : Guard} {outcome : Outcome}
    (h : g.decideClosed sem = some outcome) :
    g.occurrences = [] ∧ ∃ b, g.eval sem .empty = some b ∧
      outcome = if b then .sat .empty else .unsat := by
  unfold Guard.decideClosed at h
  split at h
  · next b => exact ⟨rfl, b, rfl, (Option.some.inj h).symm⟩
  · split at h
    · next hclosed =>
      obtain ⟨b, hb, heq⟩ := Option.map_eq_some_iff.mp h
      exact ⟨Guard.occurrences_of_isClosed hclosed, b, hb, heq.symm⟩
    · exact absurd h (by simp)

/-- A formula without variables that evaluates is settled without a backend. -/
theorem Guard.decideClosed_of_eval {g : Guard} {b : Bool} (hclosed : g.isClosed = true)
    (h : g.eval sem .empty = some b) :
    g.decideClosed sem = some (if b then .sat .empty else .unsat) := by
  unfold Guard.decideClosed
  split
  · obtain rfl := Option.some.inj h
    rfl
  · rw [if_pos hclosed, h]
    rfl

/-- A guard without variables has the same truth value under all assignments. -/
theorem Guard.eval_of_occurrences_nil {g : Guard} (h : g.occurrences = [])
    (env env' : Assignment) : g.eval sem env = g.eval sem env' :=
  Guard.eval_congr fun p hp => absurd (h ▸ hp) (by simp)

/-! ## 2. Completing a model -/

theorem Assignment.find?_foldl_complete : ∀ (l : List (String × ValueSort)) (m : Assignment)
    (name : String),
    (l.foldl (fun m (name, s) => if m.contains name then m else m.insert name s.default)
        m).find? name
      = (m.find? name).or ((Bindings.findEntry name l).map ValueSort.default)
  | [], m, name => by simp [Bindings.findEntry]
  | (n, s) :: rest, m, name => by
    rw [List.foldl_cons, Assignment.find?_foldl_complete rest]
    dsimp only
    rw [Bindings.findEntry]
    by_cases hbound : m.contains n = true
    · rw [if_pos hbound]
      split
      · next heq =>
        obtain ⟨c, hc⟩ := Option.isSome_iff_exists.mp hbound
        rw [heq, hc]
        rfl
      · rfl
    · rw [if_neg hbound, Bindings.find?_insert]
      split
      · next heq =>
        have hnone : m.find? n = none := by simpa [Bindings.contains] using hbound
        rw [heq, hnone]
        rfl
      · rfl

/-- **What a completed model binds**: what the model does, and the other variables to the defaults
of their sorts. -/
theorem Assignment.find?_complete (m : Assignment) (vars : Declarations) (name : String) :
    (m.complete vars).find? name = (m.find? name).or ((vars.find? name).map ValueSort.default) :=
  Assignment.find?_foldl_complete vars.entries m name

theorem Assignment.refines_complete (m : Assignment) (vars : Declarations)
    (used : List (String × ValueSort)) : m.Refines (m.complete vars) used := by
  refine Assignment.refines_of_find? fun name c hc => ?_
  rw [Assignment.find?_complete, hc]
  rfl

/-- The model binds these variables and no others, each to a constant of its sort. -/
def Assignment.Declares (m : Assignment) (vars : Declarations) : Prop :=
  ∀ name, (m.find? name).map Constant.sort = vars.find? name

theorem Bindings.findEntry_map {α β : Type} (f : α → β) (name : String) :
    ∀ l : List (String × α),
      findEntry name (l.map fun e => (e.1, f e.2)) = (findEntry name l).map f
  | [] => rfl
  | (n, x) :: rest => by
    rw [List.map_cons, findEntry, findEntry, findEntry_map f name rest]
    split
    · rfl
    · rfl

/-- The sorts of what a model binds, pair by pair. -/
theorem Assignment.declares_iff {m : Assignment} {vars : Declarations} :
    m.Declares vars ↔ (m.entries.map fun e => (e.1, e.2.sort)) = vars.entries := by
  have hsorts : ∀ name, (m.find? name).map Constant.sort =
      Bindings.findEntry name (m.entries.map fun e => (e.1, e.2.sort)) :=
    fun name => (Bindings.findEntry_map Constant.sort name m.entries).symm
  constructor
  · intro h
    refine Bindings.eq_of_findEntry_eq ?_ vars.increasing fun name => ?_
    · exact m.increasing.map _ fun _ _ hlt => hlt
    · rw [← hsorts]
      exact h name
  · intro h name
    rw [hsorts, h]
    rfl

instance (m : Assignment) (vars : Declarations) : Decidable (m.Declares vars) :=
  decidable_of_iff _ Assignment.declares_iff.symm

/-- Completing a model of some of the variables makes it one of all of them. -/
theorem Assignment.Declares.complete {m : Assignment} {few vars : Declarations}
    (hm : m.Declares few) (hsub : ∀ name s, few.find? name = some s → vars.find? name = some s) :
    (m.complete vars).Declares vars := by
  intro name
  rw [Assignment.find?_complete]
  cases hc : m.find? name with
  | none => cases vars.find? name <;> simp
  | some c =>
    have hsort := hm name
    rw [hc] at hsort
    exact (hsub name c.sort hsort.symm).symm

theorem Assignment.Declares.binds {m : Assignment} {vars : Declarations}
    {used : List (String × ValueSort)} (hm : m.Declares vars)
    (hused : ∀ p ∈ used, vars.find? p.1 = some p.2) : m.Binds used := by
  intro p hp
  have hsort := hm p.1
  rw [hused p hp] at hsort
  obtain ⟨c, hc, hcs⟩ := Option.map_eq_some_iff.mp hsort
  exact ⟨c, hc, hcs⟩

/-! ## 3. Trust -/

/-- What the backend calls unsatisfiable, nothing makes true. -/
def Backend.UnsatSound (b : Backend σ) (sem : IntSemantics) : Prop :=
  ∀ state f vars state', b.check state f vars = (.ok .unsat, state') →
    ∀ env, f.eval sem env ≠ some true

/-- The models of the backend are models: they bind the variables they were asked for, and make
the formula true. -/
def Backend.SatSound (b : Backend σ) (sem : IntSemantics) : Prop :=
  ∀ state f vars m state', b.check state f vars = (.ok (.sat m), state') →
    m.Declares vars ∧ f.eval sem m = some true

/-- What the backend says of this one formula when it calls it unsatisfiable is right. -/
def Backend.UnsatSoundOn (b : Backend σ) (sem : IntSemantics) (f : Guard) : Prop :=
  ∀ state vars state', b.check state f vars = (.ok .unsat, state') →
    ∀ env, f.eval sem env ≠ some true

/-- The models of this one formula that the backend gives are models. -/
def Backend.SatSoundOn (b : Backend σ) (sem : IntSemantics) (f : Guard) : Prop :=
  ∀ state vars m state', b.check state f vars = (.ok (.sat m), state') →
    m.Declares vars ∧ f.eval sem m = some true

theorem Backend.UnsatSound.about {b : Backend σ} (hb : b.UnsatSound sem) (f : Guard) :
    b.UnsatSoundOn sem f := fun state vars state' => hb state f vars state'

theorem Backend.SatSound.about {b : Backend σ} (hb : b.SatSound sem) (f : Guard) :
    b.SatSoundOn sem f := fun state vars m state' => hb state f vars m state'

/-- A backend that knows a model of one formula, and declines the others. -/
def Backend.knowing (formula : Guard) (vars : Declarations) (m : Assignment) : Backend Unit where
  name := "knowing"
  check _ f fvars :=
    (.ok (if f = formula ∧ fvars = vars then .sat m else .unknown (.declined "not known")), ())

theorem Backend.satSound_knowing {formula : Guard} {vars : Declarations} {m : Assignment}
    (hvars : m.Declares vars) (htrue : formula.eval sem m = some true) :
    (Backend.knowing formula vars m).SatSound sem := by
  intro _ f fvars m' _ h
  have hanswer := Except.ok.inj (Prod.mk.inj h).1
  split at hanswer
  · next heq =>
    obtain ⟨rfl, rfl⟩ := heq
    obtain rfl := Outcome.sat.inj hanswer
    exact ⟨hvars, htrue⟩
  · exact absurd hanswer (by simp)

/-- A backend that refutes one formula, and is out of time on the others. -/
def Backend.refuting (formula : Guard) : Backend Unit where
  name := "refuting"
  check _ f _ := (if f = formula then .ok .unsat else .error (.solverTimeout 500), ())

theorem Backend.unsatSound_refuting {formula : Guard}
    (hfalse : ∀ env, formula.eval sem env ≠ some true) :
    (Backend.refuting formula).UnsatSound sem := by
  intro _ f _ _ h
  have hanswer := (Prod.mk.inj h).1
  split at hanswer
  · next heq =>
    obtain rfl := heq
    exact hfalse
  · exact absurd hanswer (by simp)

/-! ## 4. The oracle -/

namespace Oracle

variable {b : Backend σ} {o : Oracle σ} {f : Guard}

theorem prepare_eq_ok {q : Prepared} (h : prepare f = .ok q) :
    f.check = .ok () ∧ Declarations.declareAll .empty f.occurrences = .ok q.vars ∧
      q.canonical = f.canonical ∧
      Declarations.declareAll .empty f.canonical.occurrences = .ok q.canonicalVars := by
  obtain ⟨_, hcheck, h⟩ := bind_eq_ok.mp h
  obtain ⟨vars, hvars, h⟩ := bind_eq_ok.mp h
  obtain ⟨canonicalVars, hcanonical, h⟩ := bind_eq_ok.mp h
  obtain rfl := Except.ok.inj h
  exact ⟨hcheck, hvars, rfl, hcanonical⟩

/-- **Where an answer of the oracle comes from**, and which of the two stages counts it. -/
theorem decideFormula_stage {outcome : Outcome} {o' : Oracle σ}
    (h : decideFormula b sem f o = (.ok outcome, o')) :
    ∃ q raw, prepare f = .ok q ∧ outcome = raw.complete q.vars ∧
      ((q.canonical.decideClosed sem = some raw ∧
          o'.stats.lightweight = o.stats.lightweight + 1) ∨
        ∃ state', b.check o.state q.canonical q.canonicalVars = (.ok raw, state') ∧
          o'.stats.lightweight = o.stats.lightweight) := by
  unfold decideFormula at h
  dsimp only at h
  split at h
  · exact absurd (Prod.mk.inj h).1 (by simp)
  · next q hq =>
    split at h
    · next raw hraw =>
      obtain ⟨houtcome, rfl⟩ := Prod.mk.inj h
      exact ⟨q, raw, hq, (Except.ok.inj houtcome).symm, .inl ⟨hraw, rfl⟩⟩
    · split at h
      · exact absurd (Prod.mk.inj h).1 (by simp)
      · next raw state' hraw =>
        obtain ⟨houtcome, rfl⟩ := Prod.mk.inj h
        refine ⟨q, raw, hq, (Except.ok.inj houtcome).symm, .inr ⟨state', hraw, ?_⟩⟩
        unfold countAnswer
        split
        · rfl
        · rfl

theorem decideFormula_eq_ok {outcome : Outcome}
    (h : (decideFormula b sem f o).1 = .ok outcome) :
    ∃ q raw, prepare f = .ok q ∧ outcome = raw.complete q.vars ∧
      (q.canonical.decideClosed sem = some raw ∨
        ∃ state', b.check o.state q.canonical q.canonicalVars = (.ok raw, state')) := by
  obtain ⟨q, raw, hq, houtcome, hraw⟩ := decideFormula_stage (Prod.ext h rfl)
  refine ⟨q, raw, hq, houtcome, ?_⟩
  rcases hraw with ⟨hclosed, -⟩ | ⟨state', hcheck, -⟩
  · exact .inl hclosed
  · exact .inr ⟨state', hcheck⟩

theorem complete_eq_unsat {raw : Outcome} {vars : Declarations}
    (h : .unsat = raw.complete vars) : raw = .unsat := by
  cases raw with
  | unsat => rfl
  | _ => exact absurd h (by simp [Outcome.complete])

theorem complete_eq_sat {raw : Outcome} {vars : Declarations} {m : Assignment}
    (h : .sat m = raw.complete vars) : ∃ m', raw = .sat m' ∧ m = m'.complete vars := by
  cases raw with
  | sat m' => exact ⟨m', rfl, Outcome.sat.inj h⟩
  | _ => exact absurd h (by simp [Outcome.complete])

/-- **A formula that needs no backend** has one truth value wherever it is decided, and the outcome
says which. -/
theorem eval_of_decideClosed {outcome : Outcome}
    (h : f.canonical.decideClosed sem = some outcome) :
    ∃ c, outcome = (if c then .sat .empty else .unsat) ∧
      ∀ env c', f.eval sem env = some c' → c' = c := by
  obtain ⟨hnil, c, hc, houtcome⟩ := Guard.decideClosed_eq_some h
  refine ⟨c, houtcome, fun env c' hc' => ?_⟩
  rw [Guard.eval_of_occurrences_nil hnil .empty env, Guard.eval_canonical hc'] at hc
  exact Option.some.inj hc

/-- What the oracle calls unsatisfiable, nothing makes true, if the backend is right about the
canonical form. -/
theorem not_true_of_unsat (hb : b.UnsatSoundOn sem f.canonical)
    (h : (decideFormula b sem f o).1 = .ok .unsat) (env : Assignment) :
    f.eval sem env ≠ some true := by
  intro htrue
  obtain ⟨q, raw, hq, houtcome, hraw⟩ := decideFormula_eq_ok h
  obtain rfl := complete_eq_unsat houtcome
  obtain ⟨-, -, hcanonical, -⟩ := prepare_eq_ok hq
  rw [hcanonical] at hraw
  rcases hraw with hclosed | ⟨state', hcheck⟩
  · obtain ⟨c, hunsat, hvalue⟩ := eval_of_decideClosed hclosed
    rw [← hvalue env true htrue] at hunsat
    exact absurd hunsat (by simp)
  · exact hb _ _ _ hcheck env (Guard.eval_canonical htrue)

/-- **What the oracle calls unsatisfiable, nothing makes true.** -/
theorem not_true_of_decideFormula_unsat (hb : b.UnsatSound sem)
    (h : (decideFormula b sem f o).1 = .ok .unsat) (env : Assignment) :
    f.eval sem env ≠ some true := not_true_of_unsat (hb.about _) h env

/-- The model of an answer completes one that makes the canonical form true. -/
theorem exists_of_decideFormula_sat {m : Assignment} (hb : b.SatSoundOn sem f.canonical)
    (h : (decideFormula b sem f o).1 = .ok (.sat m)) :
    ∃ q raw, prepare f = .ok q ∧ m = raw.complete q.vars ∧ raw.Declares q.canonicalVars ∧
      f.canonical.eval sem raw = some true := by
  obtain ⟨q, outcome, hq, houtcome, hraw⟩ := decideFormula_eq_ok h
  obtain ⟨raw, rfl, rfl⟩ := complete_eq_sat houtcome
  obtain ⟨-, -, hcanonical, hvars⟩ := prepare_eq_ok hq
  refine ⟨q, raw, hq, rfl, ?_⟩
  rw [hcanonical] at hraw
  rcases hraw with hclosed | ⟨state', hcheck⟩
  · obtain ⟨hnil, c, hc, hsat⟩ := Guard.decideClosed_eq_some hclosed
    cases c with
    | false => exact absurd hsat (by simp)
    | true =>
      obtain rfl := Outcome.sat.inj hsat
      rw [hnil] at hvars
      rw [← Except.ok.inj hvars]
      exact ⟨fun _ => rfl, hc⟩
  · exact hb _ _ _ _ hcheck

/-- The model of an answer binds the variables of the formula and no others. -/
theorem declares_of_sat {m : Assignment} (hb : b.SatSoundOn sem f.canonical)
    (h : (decideFormula b sem f o).1 = .ok (.sat m)) :
    ∃ vars, Declarations.declareAll .empty f.occurrences = .ok vars ∧ m.Declares vars := by
  obtain ⟨q, raw, hq, rfl, hdeclares, -⟩ := exists_of_decideFormula_sat hb h
  obtain ⟨-, hvars, -, hcanonicalVars⟩ := prepare_eq_ok hq
  refine ⟨q.vars, hvars, hdeclares.complete fun name s hs => ?_⟩
  have hmem := (Declarations.declareAll_empty hcanonicalVars).mp hs
  exact (Declarations.declareAll_empty hvars).mpr (Guard.occurrences_canonical f hmem)

/-- **The oracle's models bind every variable of the formula**, also those that its canonical form
does not have. -/
theorem binds_of_decideFormula_sat {m : Assignment} (hb : b.SatSound sem)
    (h : (decideFormula b sem f o).1 = .ok (.sat m)) : m.Binds f.occurrences := by
  obtain ⟨vars, hvars, hdeclares⟩ := declares_of_sat (hb.about _) h
  exact hdeclares.binds (Declarations.find?_of_declareAll hvars)

theorem true_of_sat {m env : Assignment} {c : Bool} (hb : b.SatSoundOn sem f.canonical)
    (h : (decideFormula b sem f o).1 = .ok (.sat m))
    (hkeep : ∀ name k, m.find? name = some k → env.find? name = some k)
    (hc : f.eval sem env = some c) : c = true := by
  obtain ⟨q, raw, hq, rfl, -, htrue⟩ := exists_of_decideFormula_sat hb h
  have hmodel := Guard.eval_of_refines (raw.refines_complete q.vars _) htrue
  have hcanonical := Guard.eval_of_refines (Assignment.refines_of_find? hkeep) hmodel
  exact Option.some.inj ((Guard.eval_canonical hc).symm.trans hcanonical)

/-- **The oracle's models do not make the formula false**, however they are extended: where it is
decided, it is true. -/
theorem true_of_decideFormula_sat {m env : Assignment} {c : Bool} (hb : b.SatSound sem)
    (h : (decideFormula b sem f o).1 = .ok (.sat m))
    (hkeep : ∀ name k, m.find? name = some k → env.find? name = some k)
    (hc : f.eval sem env = some c) : c = true :=
  true_of_sat (hb.about _) h hkeep hc

/-! ## 5. The formula that was asked about -/

/-- **The answers of the oracle are about the formula**, though it is the canonical form that is
decided.

* Without a backend: what is called unsatisfiable nothing makes true, and what is called satisfiable
  nothing makes false.
* If the backend is right to call the canonical form unsatisfiable, then nothing makes the formula
  true.
* If the backend's models of the canonical form are models, then the model of an answer keeps every
  binding of the backend's, binds the variables of the formula and no others, each to a constant of
  its sort, and makes the formula true wherever it is decided.  Where integers wrap around and
  nothing is divided it is decided. -/
theorem answers_concern_formula {outcome : Outcome} {o' : Oracle σ}
    (h : decideFormula b sem f o = (.ok outcome, o')) :
    (o'.stats.lightweight = o.stats.lightweight + 1 →
      (outcome = .unsat → ∀ env, f.eval sem env ≠ some true) ∧
      ∀ m, outcome = .sat m → ∀ env, f.eval sem env ≠ some false) ∧
    (b.UnsatSoundOn sem f.canonical → outcome = .unsat → ∀ env, f.eval sem env ≠ some true) ∧
    (b.SatSoundOn sem f.canonical → ∀ m, outcome = .sat m →
      (o'.stats.lightweight ≠ o.stats.lightweight + 1 →
        ∃ vars raw state', f.canonical.collectVars .empty = .ok vars ∧
          b.check o.state f.canonical vars = (.ok (.sat raw), state') ∧
          ∀ name c, raw.find? name = some c → m.find? name = some c) ∧
      (∀ name s, (∃ c, m.find? name = some c ∧ c.sort = s) ↔ (name, s) ∈ f.occurrences) ∧
      (∀ c, f.eval sem m = some c → c = true) ∧
      ∀ bits, sem = .wrapping bits → (∀ n ∈ f.arithNodes, n.divisionFree = true) →
        f.eval sem m = some true) := by
  have hanswer : (decideFormula b sem f o).1 = .ok outcome := by rw [h]
  obtain ⟨q, raw, hq, houtcome, hstage⟩ := decideFormula_stage h
  obtain ⟨hcheck, -, hcanonical, hcanonicalVars⟩ := prepare_eq_ok hq
  rw [hcanonical] at hstage
  refine ⟨fun hlight => ?_, ?_, ?_⟩
  · rcases hstage with ⟨hclosed, -⟩ | ⟨_, -, hcount⟩
    · obtain ⟨c, hraw, hvalue⟩ := eval_of_decideClosed hclosed
      constructor
      · rintro rfl env htrue
        rw [← hvalue env true htrue] at hraw
        exact absurd (hraw.symm.trans (complete_eq_unsat houtcome)) (by simp)
      · rintro m rfl env hfalse
        rw [← hvalue env false hfalse] at hraw
        obtain ⟨m', hsat, -⟩ := complete_eq_sat houtcome
        exact absurd (hraw.symm.trans hsat) (by simp)
    · omega
  · rintro hb rfl env
    exact not_true_of_unsat hb hanswer env
  · rintro hb m rfl
    obtain ⟨vars, hvars, hdeclares⟩ := declares_of_sat hb hanswer
    refine ⟨fun hlight => ?_, fun name s => ?_, fun c => true_of_sat hb hanswer fun _ _ => id, ?_⟩
    · rcases hstage with ⟨-, hcount⟩ | ⟨state', hbackend, -⟩
      · exact absurd hcount hlight
      · obtain ⟨m', rfl, rfl⟩ := complete_eq_sat houtcome
        refine ⟨q.canonicalVars, m', state', hcanonicalVars, hbackend, fun name c hc => ?_⟩
        rw [Assignment.find?_complete, hc]
        rfl
    · rw [← Declarations.declareAll_empty hvars, ← hdeclares name, Option.map_eq_some_iff]
    · rintro bits rfl hdivisionFree
      have hbinds : m.Binds f.occurrences :=
        hdeclares.binds (Declarations.find?_of_declareAll hvars)
      obtain ⟨c, hc⟩ := Guard.exists_eval hcheck hbinds
        fun n hn => ArithNode.defined_of_divisionFree (hdivisionFree n hn)
      rw [hc, true_of_sat hb hanswer (fun _ _ => id) hc]

/-- `x` is positive; `flag` is named, but does not matter. -/
def flaggedPositive : Guard :=
  .all [.compare .eq (.var "flag" .bool) (.var "flag" .bool), .compare .gt (.intVar "x") (.int 0)]

def positiveSolver : Backend Unit :=
  .knowing flaggedPositive.canonical (.ofList [("x", .int)]) (.ofList [("x", .int 1)])

/-- The solver is not asked about `flag`, and the model has it all the same; of a number that is not
itself the solver is not asked at all. -/
theorem answers_concern_formula_flaggedPositive :
    let m : Assignment := .ofList [("flag", .bool false), ("x", .int 1)]
    let other : Guard := .compare .ne (.intVar "n") (.intVar "n")
    positiveSolver.SatSoundOn (.wrapping 8) flaggedPositive.canonical ∧
      decideFormula positiveSolver (.wrapping 8) flaggedPositive ⟨(), {}⟩
        = (.ok (.sat m), ⟨(), ⟨1, 0, 1, 0⟩⟩) ∧
      flaggedPositive.eval (.wrapping 8) m = some true ∧
      decideFormula positiveSolver (.wrapping 8) other ⟨(), {}⟩
        = (.ok .unsat, ⟨(), ⟨1, 1, 0, 0⟩⟩) ∧
      ∀ env, other.eval (.wrapping 8) env ≠ some true := by
  intro m other
  have hb : positiveSolver.SatSound (.wrapping 8) :=
    Backend.satSound_knowing (by decide) (by decide +kernel)
  have hpositive : decideFormula positiveSolver (.wrapping 8) flaggedPositive ⟨(), {}⟩
      = (.ok (.sat m), ⟨(), ⟨1, 0, 1, 0⟩⟩) := by with_unfolding_all rfl
  have hother : decideFormula positiveSolver (.wrapping 8) other ⟨(), {}⟩
      = (.ok .unsat, ⟨(), ⟨1, 1, 0, 0⟩⟩) := by with_unfolding_all rfl
  obtain ⟨-, -, hsat⟩ := answers_concern_formula hpositive
  obtain ⟨-, -, -, htrue⟩ := hsat (hb.about _) m rfl
  obtain ⟨hlight, -, -⟩ := answers_concern_formula hother
  exact ⟨hb.about _, hpositive, htrue 8 rfl (by decide), hother, (hlight rfl).1 rfl⟩

end Oracle

end SinkReach
