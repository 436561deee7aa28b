/-
# What is decided without a backend

The oracle SETTLES a question itself if its canonical form is constant, or has no variables and
evaluates.  The backend is not asked then, and it does not matter what it would have said or whether
it works at all.  Two kinds of sites come of nothing but such questions:

* `Site.concrete_decided`: a site without variables, with patterns that are plain texts, is decided
  as plain evaluation says;
* `Site.infeasible_unsat`: a site whose path has a false conjunct cannot be reached.

`Oracle.settled` is what such questions do to the oracle, and the lemmas of section 4 count them.
-/
import SinkReach.Proofs.Canonical.Constructions
import SinkReach.Proofs.Checks
import SinkReach.Solver.Backends

namespace SinkReach

variable {σ : Type} {sem : IntSemantics} {env : Assignment}

/-! ## 1. Settled questions -/

namespace Oracle

variable {b : Backend σ} {o : Oracle σ} {f : Guard}

/-- The oracle after `n` more questions that it settled itself: they are counted, and nothing else
has happened. -/
def settled (o : Oracle σ) (n : Nat) : Oracle σ :=
  { o with stats := o.stats.merge ⟨n, n, 0, 0⟩ }

theorem settled_settled (o : Oracle σ) (m n : Nat) :
    (o.settled m).settled n = o.settled (m + n) := by
  simp [settled, Stats.merge, Nat.add_assoc]

/-- **A question that is settled** is answered without the backend, and counted. -/
theorem decideFormula_of_decideClosed {q : Prepared} {outcome : Outcome} (hq : prepare f = .ok q)
    (h : f.canonical.decideClosed sem = some outcome) :
    decideFormula b sem f o = (.ok (outcome.complete q.vars), o.settled 1) := by
  obtain ⟨-, -, hcanonical, -⟩ := prepare_eq_ok hq
  rw [← hcanonical] at h
  unfold decideFormula
  simp only [hq, h]
  rfl

/-- A formula that canonicalizes to false is settled. -/
theorem decideFormula_of_falsity {q : Prepared} (hq : prepare f = .ok q)
    (h : f.canonical = .falsity) : decideFormula b sem f o = (.ok .unsat, o.settled 1) := by
  have hclosed : f.canonical.decideClosed sem = some .unsat := by rw [h]; rfl
  exact decideFormula_of_decideClosed hq hclosed

/-- **A formula without variables is settled as it evaluates.**  Its canonical form has no variables
either, and what is decided stays so. -/
theorem decideFormula_of_closed {c : Bool} (hcheck : f.check = .ok ())
    (hclosed : f.occurrences = []) (heval : f.eval sem .empty = some c) :
    decideFormula b sem f o = (.ok (if c then .sat .empty else .unsat), o.settled 1) := by
  have hnil : f.canonical.occurrences = [] :=
    List.subset_nil.mp (hclosed ▸ Guard.occurrences_canonical f)
  have hsettled := Guard.decideClosed_of_eval (Guard.isClosed_of_occurrences hnil)
    (Guard.eval_canonical heval)
  obtain ⟨q, hq⟩ := exists_prepare hcheck (by simp [hclosed, Declarations.OneSorted])
  obtain ⟨-, hvars, -, -⟩ := prepare_eq_ok hq
  rw [hclosed] at hvars
  have hempty : Bindings.empty = q.vars := Except.ok.inj hvars
  rw [decideFormula_of_decideClosed hq hsettled, ← hempty]
  cases c <;> rfl

end Oracle

/-! ## 2. False conjuncts -/

/-- The guard is reached from the other through conjunctions, however deep they are nested. -/
inductive Guard.Conjunct : Guard → Guard → Prop
  | self (g : Guard) : Conjunct g g
  | part {c g : Guard} {parts : List Guard} (hg : g ∈ parts) (hc : Conjunct c g) :
    Conjunct c (.all parts)

/-- A conjunction with a false part is false, and stays so among others. -/
theorem Guard.canonical_all_of_mem {g : Guard} {parts : List Guard} (hg : g ∈ parts)
    (h : g.canonical = .falsity) : (Guard.all parts).canonical = .falsity := by
  have hmem : Guard.falsity ∈ Guard.canonicalAll parts := by
    rw [Guard.canonicalAll_eq_map, ← h]
    exact List.mem_map_of_mem hg
  rw [Guard.canonical, Junction.join]
  exact if_pos hmem

theorem Guard.Conjunct.canonical_falsity {c g : Guard} (h : c.Conjunct g)
    (hc : c.canonical = .falsity) : g.canonical = .falsity := by
  induction h with
  | self => exact hc
  | part hg _ ih => exact Guard.canonical_all_of_mem hg ih

theorem PathCondition.canonical_fold_of_mem {path : PathCondition} {g : Guard}
    (hg : g ∈ path.guards) (h : g.canonical = .falsity) : path.fold.canonical = .falsity := by
  unfold fold
  split
  · next heq => exact absurd (heq ▸ hg) (by simp)
  · next g' heq =>
    obtain rfl : g = g' := List.mem_singleton.mp (heq ▸ hg)
    exact h
  · exact Guard.canonical_all_of_mem hg h

/-! ## 3. Plain texts -/

/-- The text of the literals of a template. -/
def Template.literalText : Template → String
  | [] => ""
  | .literal s :: rest => s ++ literalText rest
  | .wildcard :: rest => literalText rest

/-- Without wildcards the pieces of a template have one text, whatever is assigned. -/
theorem Pattern.evalText_pieces {p : Pattern} : ∀ {t : Template} {k : Nat}, t.wildcards = 0 →
    Value.evalText sem env (p.pieces k t) = some t.literalText
  | [], _, _ => rfl
  | .literal s :: rest, k, h => by
    rw [wildcards_literal] at h
    exact Value.evalText_cons_eq_some.mpr ⟨s, rfl, _, evalText_pieces h, rfl⟩
  | .wildcard :: rest, _, h => by
    rw [wildcards_wildcard] at h
    omega

/-- The only alternative of a plain text: the value is that text. -/
def Pattern.equation (p : Pattern) (v : Value) : Guard :=
  .compare .eq v (.concat (p.pieces 0 p.template))

theorem Pattern.alternativesOf_exact {p : Pattern} (hmode : p.mode = .exact) (v : Value) :
    p.alternativesOf v = [p.equation v] := by
  rw [alternativesOf, hmode]
  rfl

theorem Pattern.freshNames_of_plain {p : Pattern} (hmode : p.mode = .exact)
    (hliteral : p.isLiteral = true) (v : Value) : p.freshNames v = [] := by
  have hwild : p.template.wildcards = 0 := by simpa [isLiteral] using hliteral
  simp [freshNames, hmode, hwild]

theorem Pattern.eval_equation {p : Pattern} {v : Value} {s : String}
    (hliteral : p.isLiteral = true) (hv : v.eval sem env = some (.str s)) :
    (p.equation v).eval sem env = some (decide (p.template.literalText = s)) := by
  have hwild : p.template.wildcards = 0 := by simpa [isLiteral] using hliteral
  have htext : (Value.concat (p.pieces 0 p.template)).eval sem env
      = some (.str p.template.literalText) :=
    Value.eval_concat_eq_some.mpr ⟨_, evalText_pieces hwild, rfl⟩
  rw [equation, Guard.eval_eq_of_str hv htext]
  exact congrArg some (decide_eq_decide.mpr eq_comm)

/-! ## 4. Scans -/

namespace Scan

variable {b : Backend σ} {path : Guard} {v : Value}

/-- Alternatives that are all refuted by the oracle itself leave the scan where it was. -/
theorem alternatives_of_unsat {p : Pattern} {gs : List Guard} {k : Nat}
    {open? : Option (PatternMatch × Reason)} {o : Oracle σ}
    (h : ∀ g ∈ gs, ∀ o : Oracle σ, o.decide b sem path g = (.ok .unsat, o.settled 1)) :
    alternatives b sem path p k open? o gs = (.ok (.none open?), o.settled gs.length) := by
  induction gs generalizing k o with
  | nil => rfl
  | cons g gs ih =>
    obtain ⟨hg, hgs⟩ := List.forall_mem_cons.mp h
    rw [alternatives, hg o]
    dsimp only
    rw [ih hgs, Oracle.settled_settled, List.length_cons, Nat.add_comm]

/-- Patterns of which all alternatives are refuted by the oracle itself. -/
theorem patterns_of_unsat {ps : List Pattern} {open? : Option (PatternMatch × Reason)}
    {o : Oracle σ}
    (h : ∀ p ∈ ps, p.alternatives v path = .ok (p.alternativesOf v) ∧
      ∀ g ∈ p.alternativesOf v, ∀ o : Oracle σ, o.decide b sem path g = (.ok .unsat, o.settled 1)) :
    patterns b sem path v open? o ps =
      (.ok (.none open?), o.settled (ps.flatMap fun p => p.alternativesOf v).length) := by
  induction ps generalizing o with
  | nil => rfl
  | cons p ps ih =>
    obtain ⟨⟨hbuilt, hunsat⟩, hps⟩ := List.forall_mem_cons.mp h
    rw [patterns, hbuilt]
    dsimp only
    rw [alternatives_of_unsat hunsat]
    dsimp only
    rw [ih hps, Oracle.settled_settled, List.flatMap_cons, List.length_append]

/-- **Patterns with one alternative each, which the oracle decides itself**: the first that holds is
found, and the questions up to it are counted. -/
theorem patterns_of_single {holds : Pattern → Bool} {ps : List Pattern}
    (open? : Option (PatternMatch × Reason)) (o : Oracle σ)
    (h : ∀ p ∈ ps, p.alternatives v path = .ok [p.equation v] ∧ ∀ o : Oracle σ,
      o.decide b sem path (p.equation v)
        = (.ok (if holds p then .sat .empty else .unsat), o.settled 1)) :
    patterns b sem path v open? o ps =
      (.ok ((ps.find? holds).elim (.none open?) fun p => .found (matchOf p 0) .empty),
        o.settled (min (ps.findIdx holds + 1) ps.length)) := by
  induction ps generalizing o with
  | nil => rfl
  | cons p ps ih =>
    obtain ⟨⟨hbuilt, hdecide⟩, hps⟩ := List.forall_mem_cons.mp h
    rw [patterns, hbuilt]
    dsimp only
    rw [alternatives, hdecide o, List.find?_cons, List.findIdx_cons]
    cases hp : holds p with
    | true => simp
    | false =>
      simp only [Bool.false_eq_true, if_false, alternatives]
      rw [ih _ hps, Oracle.settled_settled]
      congr 2
      simp only [List.length_cons, cond_false]
      omega

end Scan

/-! ## 5. Sites without variables -/

/-- A path of decided guards is taken or not: it is if all of them hold, and not if one does not. -/
theorem PathCondition.exists_eval_fold (path : PathCondition)
    (h : ∀ g ∈ path.guards, ∃ c, g.eval sem env = some c) :
    ∃ taken, path.fold.eval sem env = some taken ∧
      ((∀ g ∈ path.guards, g.eval sem env = some true) → taken = true) ∧
      ((∃ g ∈ path.guards, g.eval sem env = some false) → taken = false) := by
  obtain ⟨taken, htaken⟩ := Guard.exists_evalJunction_of_forall (j := .all) h
  refine ⟨taken, (eval_fold path).trans htaken, fun hall => ?_, fun hsome => ?_⟩
  · exact Option.some.inj (htaken.symm.trans (Guard.evalJunction_eq_neutral.mpr hall))
  · exact Option.some.inj (htaken.symm.trans (Guard.evalJunction_eq_absorbing.mpr hsome))

namespace Site

variable {b : Backend σ} {patterns : PatternSet} {site : Site} {o : Oracle σ}

/-- Where no fresh name is a variable of the site, the alternatives are built. -/
theorem alternatives_of_free {p : Pattern} (hsite : site.check = .ok ())
    (hfree : ∀ name ∈ p.freshNames site.value, ¬ site.Uses name) :
    p.alternatives site.value (PathCondition.mk site.path).fold
      = .ok (p.alternativesOf site.value) := by
  obtain ⟨hvalue, -, -⟩ := check_eq_ok_iff.mp hsite
  rcases Pattern.alternatives_cases (p := p) hvalue (oneSorted_of_check hsite) with
    hok | ⟨name, hname, ⟨s, hs⟩, -⟩
  · exact hok
  · exact absurd ⟨s, mem_occurrences_fold.mp hs⟩ (hfree name hname)

theorem occurrences_of_closed (hvalue : site.value.isClosed = true)
    (hpath : ∀ g ∈ site.path, g.isClosed = true) : site.occurrences = [] := by
  refine List.append_eq_nil_iff.mpr ⟨Value.occurrences_of_isClosed hvalue, ?_⟩
  refine List.eq_nil_iff_forall_not_mem.mpr fun q hq => ?_
  obtain ⟨g, hg, hq⟩ := Guard.mem_occurrencesIn.mp hq
  rw [Guard.occurrences_of_isClosed (hpath g hg)] at hq
  exact absurd hq (by simp)

/-- **The question whether a site without variables is a plain text** is settled: it is, if the path
is taken and the texts are the same. -/
theorem decide_equation {p : Pattern} {s : String} {taken : Bool} (hsite : site.check = .ok ())
    (hclosed : site.occurrences = []) (heval : site.value.eval sem .empty = some (.str s))
    (htaken : (PathCondition.mk site.path).fold.eval sem .empty = some taken)
    (hmode : p.mode = .exact) (hliteral : p.isLiteral = true) :
    p.alternatives site.value (PathCondition.mk site.path).fold = .ok [p.equation site.value] ∧
      ∀ o : Oracle σ, o.decide b sem (PathCondition.mk site.path).fold (p.equation site.value)
        = (.ok (if taken && p.template.literalText = s then .sat .empty else .unsat),
          o.settled 1) := by
  have hnames := Pattern.freshNames_of_plain hmode hliteral site.value
  have hmem : p.equation site.value ∈ p.alternativesOf site.value := by
    simp [Pattern.alternativesOf_exact hmode]
  have hbuilt := alternatives_of_free (p := p) hsite (by simp [hnames])
  rw [Pattern.alternativesOf_exact hmode] at hbuilt
  obtain ⟨hcheck, -⟩ := question_of_check hsite hbuilt (List.mem_singleton_self _)
  refine ⟨hbuilt, fun o => Oracle.decideFormula_of_closed hcheck ?_ ?_⟩
  · refine List.eq_nil_iff_forall_not_mem.mpr fun q hq => ?_
    rcases occurrences_question hmem hq with hq | ⟨hq, -⟩
    · exact absurd (hclosed ▸ hq) (by simp)
    · exact absurd (hnames ▸ hq) (by simp)
  · rw [Guard.eval, Guard.evalJunction, Guard.evalJunction, Guard.evalJunction, htaken,
      Pattern.eval_equation hliteral heval]
    cases taken <;> cases decide (p.template.literalText = s) <;> rfl

/-- What becomes of a site without variables whose patterns are plain texts. -/
theorem analyze_of_closed {s : String} {taken : Bool} (hsite : site.check = .ok ())
    (hclosed : site.occurrences = []) (heval : site.value.eval sem .empty = some (.str s))
    (htaken : (PathCondition.mk site.path).fold.eval sem .empty = some taken)
    (hpatterns : ∀ p ∈ patterns.applicable site.id.function site.id.argIndex,
      p.mode = .exact ∧ p.isLiteral = true) (b : Backend σ) (o : Oracle σ) :
    ∃ n, site.analyze b sem patterns o =
      (.ok (Finding.verdict site
        (((patterns.applicable site.id.function site.id.argIndex).find? fun p =>
          taken && p.template.literalText = s).elim (.none none)
            fun p => .found (Scan.matchOf p 0) .empty)), o.settled n) := by
  have hscan := Scan.patterns_of_single none o fun p hp =>
    decide_equation (b := b) hsite hclosed heval htaken (hpatterns p hp).1 (hpatterns p hp).2
  rw [analyze_of_check hsite, hscan]
  exact ⟨_, rfl⟩

/-- **Concrete sites are decided exactly, and without a backend.**  Let the value and the path of a
checked site have no variables and evaluate, and let the patterns that list its function or no sink,
and have the index of its argument or none, be plain texts that the whole value has to be.  The site
is SAT with an empty model if the path is taken and one of these texts is that of the value; the
first such pattern is named.  Otherwise it is UNSAT.  The backend may be anything: it is not asked,
and all questions are counted as settled. -/
theorem concrete_decided {s : String} (hsite : site.check = .ok ())
    (hvalue : site.value.isClosed = true) (heval : site.value.eval sem .empty = some (.str s))
    (hpath : ∀ g ∈ site.path, g.isClosed = true ∧ ∃ c, g.eval sem .empty = some c)
    (hpatterns : ∀ p ∈ patterns.patterns, (p.sinks = [] ∨ site.id.function ∈ p.sinks) →
      (p.argIndex = none ∨ p.argIndex = some site.id.argIndex) →
        p.mode = .exact ∧ p.isLiteral = true)
    (b : Backend σ) (o : Oracle σ) :
    let hit? := patterns.patterns.find? fun p =>
      ((p.sinks = [] ∨ site.id.function ∈ p.sinks) ∧
        (p.argIndex = none ∨ p.argIndex = some site.id.argIndex)) ∧ p.template.literalText = s
    ((∀ g ∈ site.path, g.eval sem .empty = some true) → ∀ p, hit? = some p →
      (site.analyze b sem patterns o).1
        = .ok ⟨site.id, site.value.render, .sat .empty, some ⟨p.name, p.render, 0⟩⟩) ∧
    ((∃ g ∈ site.path, g.eval sem .empty = some false) ∨ hit? = none →
      (site.analyze b sem patterns o).1 = .ok ⟨site.id, site.value.render, .unsat, none⟩) ∧
    (∃ n, (site.analyze b sem patterns o).2 = o.settled n) ∧
    ∀ state log stats,
      (site.analyze b.logged sem patterns ⟨(state, log), stats⟩).2.state = (state, log) := by
  intro hit?
  have hclosed := occurrences_of_closed hvalue fun g hg => (hpath g hg).1
  obtain ⟨taken, htaken, hall, hsome⟩ :=
    PathCondition.exists_eval_fold ⟨site.path⟩ fun g hg => (hpath g hg).2
  have hplain : ∀ p ∈ patterns.applicable site.id.function site.id.argIndex,
      p.mode = .exact ∧ p.isLiteral = true := by
    intro p hp
    obtain ⟨hmem, hsinks, hindex⟩ := PatternSet.mem_applicable.mp hp
    exact hpatterns p hmem hsinks hindex
  have hfind : ((patterns.applicable site.id.function site.id.argIndex).find? fun p =>
      taken && p.template.literalText = s) = if taken then hit? else none := by
    rw [PatternSet.applicable_eq_filter, List.find?_filter]
    cases taken <;> simp [hit?]
  obtain ⟨n, hverdict⟩ := analyze_of_closed hsite hclosed heval htaken hplain b o
  rw [hfind] at hverdict
  refine ⟨fun htrue p hp => ?_, fun hno => ?_, ⟨n, by rw [hverdict]⟩, fun state log stats => ?_⟩
  · rw [hverdict, hall htrue, hp]
    rfl
  · have hmiss : (if taken then hit? else none) = none := by
      rcases hno with hfalse | hnone
      · rw [hsome hfalse]
        rfl
      · rw [hnone, ite_self]
    rw [hverdict, hmiss]
    rfl
  · obtain ⟨m, hlogged⟩ := analyze_of_closed hsite hclosed heval htaken hplain b.logged
      ⟨(state, log), stats⟩
    rw [hlogged]
    rfl

/-- The memory of a process, chosen by the sign of a sum that wraps around in eight bits. -/
def chosenMemory : Site where
  id := { function := "write", span := "main:9" }
  value := .concat [.str "/proc/", .ite (.compare .lt (.arith .add (.int 100) (.int 100)) (.int 0))
    (.str "self") (.str "1"), .str "/mem"]
  path := [.compare .gt (.int 300) (.int 0)]

/-- Which text it is depends on the width, and a backend that always fails is not asked which: in
eight bits it is that of the last pattern, and in unbounded integers no pattern has it.  One pattern
is meant for another sink and has the text, and one for another argument and has a wildcard. -/
theorem concrete_decided_chosenMemory :
    let b := Backend.constant (.error (.solverTimeout 500))
    let patterns : PatternSet := ⟨[⟨"source", [.literal "/proc/self/mem"], .exact, ["read"], none⟩,
      ⟨"count", [.literal "/proc/", .wildcard], .contains, ["write"], some 1⟩,
      ⟨"any", [.literal "/proc/mem"], .exact, [], none⟩,
      ⟨"own", [.literal "/proc/self/mem"], .exact, ["write"], some 0⟩]⟩
    chosenMemory.check = .ok () ∧ chosenMemory.value.isClosed = true ∧
      (chosenMemory.analyze b (.wrapping 8) patterns ⟨(), {}⟩).1
        = .ok ⟨chosenMemory.id, chosenMemory.value.render, .sat .empty,
          some ⟨"own", "/proc/self/mem", 0⟩⟩ ∧
      (chosenMemory.analyze b.logged (.wrapping 8) patterns ⟨((), []), {}⟩).2.state = ((), []) ∧
      (chosenMemory.analyze b .unbounded patterns ⟨(), {}⟩).1
        = .ok ⟨chosenMemory.id, chosenMemory.value.render, .unsat, none⟩ := by
  intro b patterns
  have hcheck : chosenMemory.check = .ok () := by with_unfolding_all rfl
  have hclosed : chosenMemory.value.isClosed = true := by decide
  have hpatterns : ∀ p ∈ patterns.patterns, (p.sinks = [] ∨ chosenMemory.id.function ∈ p.sinks) →
      (p.argIndex = none ∨ p.argIndex = some chosenMemory.id.argIndex) →
        p.mode = .exact ∧ p.isLiteral = true := by decide
  have hwrapped : chosenMemory.value.eval (.wrapping 8) .empty = some (.str "/proc/self/mem") := by
    with_unfolding_all rfl
  have hunbounded : chosenMemory.value.eval .unbounded .empty = some (.str "/proc/1/mem") := by
    with_unfolding_all rfl
  have htaken : ∀ sem ∈ [IntSemantics.wrapping 8, .unbounded], ∀ g ∈ chosenMemory.path,
      g.isClosed = true ∧ g.eval sem .empty = some true := by decide
  have hdecided : ∀ sem ∈ [IntSemantics.wrapping 8, .unbounded], ∀ g ∈ chosenMemory.path,
      g.isClosed = true ∧ ∃ c, g.eval sem .empty = some c :=
    fun sem hsem g hg => ⟨(htaken sem hsem g hg).1, true, (htaken sem hsem g hg).2⟩
  obtain ⟨hsat, -, -, hlog⟩ :=
    concrete_decided hcheck hclosed hwrapped (hdecided _ (by simp)) hpatterns b ⟨(), {}⟩
  obtain ⟨-, hunsat, -, -⟩ :=
    concrete_decided hcheck hclosed hunbounded (hdecided _ (by simp)) hpatterns b ⟨(), {}⟩
  refine ⟨hcheck, hclosed, ?_, hlog () [] {}, hunsat (.inr (by decide))⟩
  exact hsat (fun g hg => (htaken _ (by simp) g hg).2)
    ⟨"own", [.literal "/proc/self/mem"], .exact, ["write"], some 0⟩ (by decide)

/-! ## 6. Sites that cannot be reached -/

/-- What becomes of a site whose path canonicalizes to false: every alternative of every pattern is
refuted before a backend is asked. -/
theorem analyze_of_falsity (hsite : site.check = .ok ())
    (hfree : ∀ p ∈ patterns.applicable site.id.function site.id.argIndex,
      ∀ name ∈ p.freshNames site.value, ¬ site.Uses name)
    (hfalse : (PathCondition.mk site.path).fold.canonical = .falsity)
    (b : Backend σ) (o : Oracle σ) :
    site.analyze b sem patterns o = (.ok ⟨site.id, site.value.render, .unsat, none⟩,
      o.settled ((patterns.applicable site.id.function site.id.argIndex).flatMap fun p =>
        p.alternativesOf site.value).length) := by
  rw [analyze_of_check hsite, Scan.patterns_of_unsat]
  · rfl
  · intro p hp
    have hbuilt := alternatives_of_free hsite (hfree p hp)
    refine ⟨hbuilt, fun g hg o => ?_⟩
    obtain ⟨q, hq⟩ := exists_prepare hsite hbuilt hg
    exact Oracle.decideFormula_of_falsity hq
      (Guard.canonical_all_of_mem (List.mem_cons_self ..) hfalse)

/-- **A site that cannot be reached is UNSAT, whatever the patterns and the backend.**  Only, no
variable of the site may have a fresh name of a pattern.  The path of a checked site is taken in,
and it canonicalizes to false as soon as one guard does that is reached from it through
conjunctions.  Then the verdict is UNSAT, every alternative of every pattern is one question, all of
them are counted as settled, and the backend is not asked. -/
theorem infeasible_unsat (hsite : site.check = .ok ())
    (hfree : ∀ p ∈ patterns.applicable site.id.function site.id.argIndex,
      ∀ name ∈ p.freshNames site.value, ¬ site.Uses name) :
    ∃ path, PathCondition.ofGuards site.path = .ok path ∧
      ((∃ g ∈ site.path, ∃ c : Guard, c.Conjunct g ∧ c.canonical = .falsity) →
        path.fold.canonical = .falsity) ∧
      (path.fold.canonical = .falsity →
        ∀ (σ : Type) (b : Backend σ) (sem : IntSemantics),
          (∀ o, site.analyze b sem patterns o = (.ok ⟨site.id, site.value.render, .unsat, none⟩,
            o.settled ((patterns.applicable site.id.function site.id.argIndex).flatMap fun p =>
              p.alternativesOf site.value).length)) ∧
          ∀ state log stats,
            (site.analyze b.logged sem patterns ⟨(state, log), stats⟩).2.state
              = (state, log)) := by
  obtain ⟨-, hpath, -⟩ := check_eq_ok_iff.mp hsite
  refine ⟨⟨site.path⟩, PathCondition.ofGuards_of_forall hpath, ?_, fun hfalse σ b sem => ?_⟩
  · rintro ⟨g, hg, c, hconjunct, hc⟩
    exact PathCondition.canonical_fold_of_mem hg (hconjunct.canonical_falsity hc)
  · refine ⟨analyze_of_falsity hsite hfree hfalse b, fun state log stats => ?_⟩
    rw [analyze_of_falsity hsite hfree hfalse b.logged]
    rfl

/-- A write behind a test that a number is not itself, two conjunctions deep. -/
def unreachableWrite : Site where
  id := { function := "write", span := "main:11" }
  value := .concat [.stringVar "dir", .str "/mem"]
  path := [.compare .gt (.intVar "n") (.int 0),
    .all [.affix .start (.str "/proc") (.stringVar "dir"),
      .all [.not (.compare .eq (.intVar "n") (.intVar "n"))]]]

/-- Both alternatives of `Pattern.procMem` are refuted, and a backend that calls everything
satisfiable does not hear of them. -/
theorem infeasible_unsat_unreachableWrite :
    let b := Backend.constant (.ok (.sat .empty))
    unreachableWrite.check = .ok () ∧
      unreachableWrite.analyze b .unbounded ⟨[Pattern.procMem]⟩ ⟨(), {}⟩
        = (.ok ⟨unreachableWrite.id, unreachableWrite.value.render, .unsat, none⟩,
          ⟨(), ⟨2, 2, 0, 0⟩⟩) ∧
      (unreachableWrite.analyze b.logged .unbounded ⟨[Pattern.procMem]⟩ ⟨((), []), {}⟩).2.state
        = ((), []) := by
  intro b
  have hcheck : unreachableWrite.check = .ok () := by with_unfolding_all rfl
  have hnames : ∀ p ∈ PatternSet.applicable ⟨[Pattern.procMem]⟩ unreachableWrite.id.function
      unreachableWrite.id.argIndex, ∀ name ∈ p.freshNames unreachableWrite.value,
        ∀ q ∈ unreachableWrite.occurrences, q.1 ≠ name := by decide +kernel
  obtain ⟨path, hpath, hfalse, hunsat⟩ := infeasible_unsat hcheck
    fun p hp name hname ⟨s, hs⟩ => hnames p hp name hname _ hs rfl
  let other : Guard := .not (.compare .eq (.intVar "n") (.intVar "n"))
  have hconjunct : other.Conjunct
      (.all [.affix .start (.str "/proc") (.stringVar "dir"), .all [other]]) :=
    .part (.tail _ (.head _)) (.part (.head _) (.self _))
  have hother : other.canonical = .falsity := by decide +kernel
  obtain ⟨hrun, hlog⟩ :=
    hunsat (hfalse ⟨_, .tail _ (.head _), other, hconjunct, hother⟩) Unit b .unbounded
  exact ⟨hcheck, hrun ⟨(), {}⟩, hlog () [] {}⟩

end Site

end SinkReach
