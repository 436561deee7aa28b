/-
# What can still fail once a site is checked

A site is checked before anything else is done with it, and sorts and variables are checked again
at every later stage: when the path is taken in, when a pattern is turned into alternatives, and
when the oracle is asked about one of them.  The later checks cannot fail any more, with ONE
exception, a pattern whose fresh names a variable of the site already has.

* `Site.check_eq_ok_iff`: what the first check establishes.
* `Site.exists_prepare`: every question that comes of a checked site passes the oracle's checks.
* `Scan.error_of_patterns`: where the failure of a scan comes from.

So a checked site fails by a collision or by the backend, and in no other way
(`Site.only_collisions_fail`).
-/
import SinkReach.Proofs.Pattern.Collisions
import SinkReach.Proofs.Verdicts

namespace SinkReach

variable {σ : Type} {sem : IntSemantics}

/-! ## 1. The path -/

namespace PathCondition

theorem foldlM_push {gs : List Guard} (h : ∀ g ∈ gs, g.check = .ok ()) (start : PathCondition) :
    gs.foldlM push start = .ok ⟨start.guards ++ gs⟩ := by
  induction gs generalizing start with
  | nil => rw [List.append_nil]; rfl
  | cons g gs ih =>
    obtain ⟨hg, hgs⟩ := List.forall_mem_cons.mp h
    have hpush : push start g = .ok ⟨start.guards ++ [g]⟩ := bind_eq_ok.mpr ⟨(), hg, rfl⟩
    rw [List.foldlM_cons, hpush]
    refine (ih hgs _).trans ?_
    rw [List.append_assoc, List.singleton_append]

/-- Well-sorted guards are all taken in. -/
theorem ofGuards_of_forall {gs : List Guard} (h : ∀ g ∈ gs, g.check = .ok ()) :
    ofGuards gs = .ok ⟨gs⟩ := foldlM_push h empty

theorem check_fold {path : PathCondition} (h : ∀ g ∈ path.guards, g.check = .ok ()) :
    path.fold.check = .ok () := by
  unfold fold
  split
  · rfl
  · next g heq => exact h g (heq ▸ List.mem_singleton_self g)
  · exact Guard.checkAll_eq_ok.mpr h

end PathCondition

/-! ## 2. The first check -/

namespace Site

/-- The variables of the value and of the path. -/
def occurrences (site : Site) : List (String × ValueSort) :=
  site.value.occurrences ++ Guard.occurrencesIn site.path

/-- A variable of the site has this name. -/
def Uses (site : Site) (name : String) : Prop := ∃ s, (name, s) ∈ site.occurrences

theorem checkPath_eq_ok_iff {vars : Declarations} {gs : List Guard} :
    checkPath vars gs = .ok () ↔ (∀ g ∈ gs, g.check = .ok ()) ∧
      ∃ vars', vars.declareAll (Guard.occurrencesIn gs) = .ok vars' := by
  induction gs generalizing vars with
  | nil => exact ⟨fun _ => ⟨by simp, vars, rfl⟩, fun _ => rfl⟩
  | cons g gs ih =>
    rw [checkPath, bind_eq_ok, List.forall_mem_cons, Guard.occurrencesIn,
      Declarations.declareAll_append]
    constructor
    · rintro ⟨_, hg, h⟩
      obtain ⟨mid, hmid, h⟩ := bind_eq_ok.mp h
      obtain ⟨hgs, vars', hvars'⟩ := ih.mp h
      exact ⟨⟨hg, hgs⟩, vars', bind_eq_ok.mpr ⟨mid, hmid, hvars'⟩⟩
    · rintro ⟨⟨hg, hgs⟩, vars', h⟩
      obtain ⟨mid, hmid, hvars'⟩ := bind_eq_ok.mp h
      exact ⟨(), hg, bind_eq_ok.mpr ⟨mid, hmid, ih.mpr ⟨hgs, vars', hvars'⟩⟩⟩

/-- **What the check of a site establishes**: the value is a string, the guards are well-sorted, and
no name occurs with two sorts. -/
theorem check_eq_ok_iff {site : Site} :
    site.check = .ok () ↔ site.value.sort = .ok .string ∧ (∀ g ∈ site.path, g.check = .ok ()) ∧
      Declarations.OneSorted site.occurrences := by
  rw [occurrences, ← Declarations.exists_declareAll_empty_iff, Declarations.declareAll_append,
    check, bind_eq_ok]
  constructor
  · rintro ⟨s, hs, h⟩
    split at h
    · exact absurd h (by simp)
    · next hstr =>
      obtain rfl : s = .string := by simpa using hstr
      obtain ⟨vars, hvars, h⟩ := bind_eq_ok.mp h
      obtain ⟨hpath, vars', hvars'⟩ := checkPath_eq_ok_iff.mp h
      exact ⟨hs, hpath, vars', bind_eq_ok.mpr ⟨vars, hvars, hvars'⟩⟩
  · rintro ⟨hs, hpath, vars', h⟩
    obtain ⟨vars, hvars, hvars'⟩ := bind_eq_ok.mp h
    refine ⟨.string, hs, ?_⟩
    rw [if_neg (by simp)]
    exact bind_eq_ok.mpr ⟨vars, hvars, checkPath_eq_ok_iff.mpr ⟨hpath, vars', hvars'⟩⟩

theorem mem_occurrences_fold {site : Site} {q : String × ValueSort} :
    q ∈ site.value.occurrences ++ (PathCondition.mk site.path).fold.occurrences ↔
      q ∈ site.occurrences := by
  rw [PathCondition.occurrences_fold, occurrences]

/-- No name occurs with two sorts in the value and the folded path of a checked site. -/
theorem oneSorted_of_check {site : Site} (hsite : site.check = .ok ()) : Declarations.OneSorted
    (site.value.occurrences ++ (PathCondition.mk site.path).fold.occurrences) := by
  obtain ⟨-, -, hvars⟩ := check_eq_ok_iff.mp hsite
  exact hvars.mono fun q hq => mem_occurrences_fold.mp hq

end Site

/-! ## 3. Questions to the oracle -/

namespace Oracle

variable {b : Backend σ} {o : Oracle σ} {f : Guard}

/-- A well-sorted formula in which no name occurs with two sorts passes all checks: its canonical
form has no variables but its own. -/
theorem exists_prepare (hcheck : f.check = .ok ())
    (hvars : Declarations.OneSorted f.occurrences) : ∃ q, prepare f = .ok q := by
  obtain ⟨vars, hcollect⟩ := Declarations.exists_declareAll_empty_iff.mpr hvars
  obtain ⟨few, hfew⟩ := Declarations.exists_declareAll_empty_iff.mpr
    (hvars.mono (Guard.occurrences_canonical f))
  exact ⟨⟨vars, f.canonical, few⟩, bind_eq_ok.mpr ⟨(), hcheck,
    bind_eq_ok.mpr ⟨vars, hcollect, bind_eq_ok.mpr ⟨few, hfew, rfl⟩⟩⟩⟩

/-- **Where a failure of the oracle comes from**: its own checks, or the backend. -/
theorem decideFormula_eq_error {e : Failure} (h : (decideFormula b sem f o).1 = .error e) :
    (∃ fault, prepare f = .error fault ∧ e = .typeMismatch fault) ∨
      ∃ q state', prepare f = .ok q ∧
        b.check o.state q.canonical q.canonicalVars = (.error e, state') := by
  unfold decideFormula at h
  dsimp only at h
  split at h
  · next fault hfault => exact .inl ⟨fault, hfault, (Except.error.inj h).symm⟩
  · next q hq =>
    split at h
    · exact absurd h (by simp)
    · split at h
      · next e' state' hcheck =>
        obtain rfl := Except.error.inj h
        exact .inr ⟨q, state', hq, hcheck⟩
      · exact absurd h (by simp)

end Oracle

namespace Site

variable {site : Site} {p : Pattern} {alts : List Guard} {g : Guard}

/-- A variable of the question about an alternative is one of the site, or a fresh string. -/
theorem occurrences_question {q : String × ValueSort} (hg : g ∈ p.alternativesOf site.value)
    (hq : q ∈ (Guard.all [(PathCondition.mk site.path).fold, g]).occurrences) :
    q ∈ site.occurrences ∨ (q.1 ∈ p.freshNames site.value ∧ q.2 = .string) := by
  obtain ⟨x, hx, hqx⟩ := Guard.mem_occurrencesIn.mp hq
  rcases List.mem_cons.mp hx with rfl | hx
  · exact .inl (mem_occurrences_fold.mp (List.mem_append_right _ hqx))
  · obtain rfl := List.mem_singleton.mp hx
    rcases Pattern.occurrences_alternativesOf hg hqx with hqv | hfresh
    · exact .inl (List.mem_append_left _ hqv)
    · exact .inr hfresh

/-- The question about an alternative of a checked site is well-sorted, and no name occurs with two
sorts in it. -/
theorem question_of_check (hsite : site.check = .ok ())
    (halts : p.alternatives site.value (PathCondition.mk site.path).fold = .ok alts)
    (hg : g ∈ alts) :
    (Guard.all [(PathCondition.mk site.path).fold, g]).check = .ok () ∧
      Declarations.OneSorted
        (Guard.all [(PathCondition.mk site.path).fold, g]).occurrences := by
  obtain ⟨hvalue, hpath, hvars⟩ := check_eq_ok_iff.mp hsite
  obtain ⟨-, rfl, hfree⟩ := Pattern.alternatives_eq_ok halts
  have hnotFresh : ∀ q ∈ site.occurrences, q.1 ∉ p.freshNames site.value :=
    fun q hq => hfree q (mem_occurrences_fold.mpr hq)
  constructor
  · exact Guard.checkAll_eq_ok.mpr (List.forall_mem_cons.mpr ⟨PathCondition.check_fold hpath,
      List.forall_mem_singleton.mpr (Pattern.check_alternativesOf hvalue hg)⟩)
  · intro q hq r hr hname
    rcases occurrences_question hg hq with hq | ⟨hqfresh, hqsort⟩
    · rcases occurrences_question hg hr with hr | ⟨hrfresh, -⟩
      · exact hvars q hq r hr hname
      · exact absurd (hname ▸ hrfresh) (hnotFresh q hq)
    · rcases occurrences_question hg hr with hr | ⟨-, hrsort⟩
      · exact absurd (hname ▸ hqfresh) (hnotFresh r hr)
      · rw [hqsort, hrsort]

/-- **Every question that comes of a checked site passes the oracle's checks.** -/
theorem exists_prepare (hsite : site.check = .ok ())
    (halts : p.alternatives site.value (PathCondition.mk site.path).fold = .ok alts)
    (hg : g ∈ alts) :
    ∃ q, Oracle.prepare (.all [(PathCondition.mk site.path).fold, g]) = .ok q := by
  obtain ⟨hcheck, hvars⟩ := question_of_check hsite halts hg
  exact Oracle.exists_prepare hcheck hvars

end Site

/-! ## 4. Scans that fail -/

namespace Scan

variable {b : Backend σ} {path : Guard} {v : Value} {e : Failure}

theorem error_of_alternatives {p : Pattern} : ∀ {gs : List Guard} {k : Nat}
    {open? : Option (PatternMatch × Reason)} {o : Oracle σ},
    (alternatives b sem path p k open? o gs).1 = .error e →
      ∃ g ∈ gs, ∃ o' : Oracle σ, (o'.decide b sem path g).1 = .error e
  | [], _, _, _, h => absurd h (by simp [alternatives])
  | g :: gs, k, open?, o, h => by
    rw [alternatives] at h
    split at h
    · next e' o' hg =>
      obtain rfl := Except.error.inj h
      exact ⟨g, List.mem_cons_self .., o, by rw [hg]⟩
    · exact absurd h (by simp)
    · obtain ⟨g', hg', hfail⟩ := error_of_alternatives h
      exact ⟨g', List.mem_cons_of_mem _ hg', hfail⟩
    · obtain ⟨g', hg', hfail⟩ := error_of_alternatives h
      exact ⟨g', List.mem_cons_of_mem _ hg', hfail⟩

/-- **Where the failure of a scan comes from**: a pattern without alternatives, or a question that
the oracle fails on. -/
theorem error_of_patterns : ∀ {ps : List Pattern} {open? : Option (PatternMatch × Reason)}
    {o : Oracle σ}, (patterns b sem path v open? o ps).1 = .error e →
      ∃ p ∈ ps, (∃ fault, p.alternatives v path = .error fault ∧ e = .typeMismatch fault) ∨
        ∃ alts, p.alternatives v path = .ok alts ∧
          ∃ g ∈ alts, ∃ o' : Oracle σ, (o'.decide b sem path g).1 = .error e
  | [], _, _, h => absurd h (by simp [patterns])
  | p :: ps, open?, o, h => by
    rw [patterns] at h
    split at h
    · next fault hfault =>
      exact ⟨p, List.mem_cons_self .., .inl ⟨fault, hfault, (Except.error.inj h).symm⟩⟩
    · next alts halts =>
      split at h
      · obtain ⟨q, hq, hfail⟩ := error_of_patterns h
        exact ⟨q, List.mem_cons_of_mem _ hq, hfail⟩
      · exact ⟨p, List.mem_cons_self .., .inr ⟨alts, halts, error_of_alternatives h⟩⟩

end Scan

/-! ## 5. Sites that fail -/

theorem Pattern.length_searchParts (v : Value) :
    (Pattern.searchParts v).length = max 1 v.topParts.length := by
  unfold Pattern.searchParts
  split
  · next heq => rw [heq]; rfl
  · next hne =>
    have hpos := List.length_pos_iff.mpr hne
    omega

namespace Site

variable {b : Backend σ} {patterns : PatternSet} {site : Site} {o : Oracle σ}

/-- What becomes of a checked site is decided by the scan of its patterns. -/
theorem analyze_of_check (hsite : site.check = .ok ()) :
    site.analyze b sem patterns o =
      match Scan.patterns b sem (PathCondition.mk site.path).fold site.value none o
        (patterns.applicable site.id.function site.id.argIndex) with
      | (.error e, o) => (.error e, o)
      | (.ok finding, o) => (.ok (finding.verdict site), o) := by
  obtain ⟨-, hpath, -⟩ := check_eq_ok_iff.mp hsite
  have hchecked : (do site.check; PathCondition.ofGuards site.path : Except SortFault PathCondition)
      = .ok ⟨site.path⟩ :=
    bind_eq_ok.mpr ⟨(), hsite, PathCondition.ofGuards_of_forall hpath⟩
  unfold analyze
  revert hchecked
  generalize (do site.check; PathCondition.ofGuards site.path : Except SortFault PathCondition)
    = checked
  rintro rfl
  rfl

/-- **How a checked site can fail**: a fresh name of a pattern is taken, or the backend fails on the
canonical form of a question. -/
theorem error_of_analyze (hsite : site.check = .ok ()) {e : Failure}
    (h : (site.analyze b sem patterns o).1 = .error e) :
    ∃ p ∈ patterns.applicable site.id.function site.id.argIndex,
      (∃ name ∈ p.freshNames site.value, site.Uses name ∧ e = .typeMismatch (.reserved name)) ∨
      ∃ alts, p.alternatives site.value (PathCondition.mk site.path).fold = .ok alts ∧
        ∃ g ∈ alts, ∃ state vars state',
          b.check state (Guard.all [(PathCondition.mk site.path).fold, g]).canonical vars
            = (.error e, state') := by
  obtain ⟨hvalue, -, -⟩ := check_eq_ok_iff.mp hsite
  rw [analyze_of_check hsite] at h
  have hscan : (Scan.patterns b sem (PathCondition.mk site.path).fold site.value none o
      (patterns.applicable site.id.function site.id.argIndex)).1 = .error e := by
    split at h
    · next e' o' hscan =>
      obtain rfl := Except.error.inj h
      rw [hscan]
    · exact absurd h (by simp)
  obtain ⟨p, hp, hfail⟩ := Scan.error_of_patterns hscan
  refine ⟨p, hp, ?_⟩
  rcases hfail with ⟨fault, hfault, rfl⟩ | ⟨alts, halts, g, hg, o', hdecide⟩
  · rcases Pattern.alternatives_cases (p := p) hvalue (oneSorted_of_check hsite) with
      hok | ⟨name, hname, ⟨s, hs⟩, herror⟩
    · exact absurd (hfault.symm.trans hok) (by simp)
    · obtain rfl := Except.error.inj (hfault.symm.trans herror)
      exact .inl ⟨name, hname, ⟨s, mem_occurrences_fold.mp hs⟩, rfl⟩
  · obtain ⟨q, hq⟩ := exists_prepare hsite halts hg
    rcases Oracle.decideFormula_eq_error hdecide with ⟨fault, hfault, -⟩ | ⟨q', state', hq', hb⟩
    · exact absurd (hfault.symm.trans hq) (by simp)
    · obtain ⟨-, -, hcanonical, -⟩ := Oracle.prepare_eq_ok hq'
      rw [hcanonical] at hb
      exact .inr ⟨alts, halts, g, hg, _, _, state', hb⟩

/-- **After the check only collisions of names can fail.**

* A site passes the check exactly if its value is a string, its guards are well-sorted and no name
  occurs with two sorts.
* The path of a site that passes is taken in, and a pattern has no alternatives exactly if a
  variable of the site has the name of a fresh one: of a wildcard or, where the match may begin
  anywhere, of one of the three for each part.
* The question about an alternative passes every check of the oracle, and its canonical form is
  well-sorted.
* What the analysis fails with is such a collision, or an error of the backend's. -/
theorem only_collisions_fail (site : Site) :
    (site.check = .ok () ↔ site.value.sort = .ok .string ∧ (∀ g ∈ site.path, g.check = .ok ()) ∧
      ∀ name s t, (name, s) ∈ site.occurrences → (name, t) ∈ site.occurrences → s = t) ∧
    (site.check = .ok () → ∃ path, PathCondition.ofGuards site.path = .ok path ∧
      (∀ p : Pattern,
        ((∃ e, p.alternatives site.value path.fold = .error e) ↔
          (∃ i < p.template.wildcards, site.Uses (p.freshName "w" i)) ∨
          (p.mode = .contains ∧ ∃ k < max 1 site.value.topParts.length,
            site.Uses (p.freshName "pre" k) ∨ site.Uses (p.freshName "rest" k) ∨
              site.Uses (p.freshName "post" k))) ∧
        ∀ alts, p.alternatives site.value path.fold = .ok alts → ∀ g ∈ alts,
          (∃ q, Oracle.prepare (.all [path.fold, g]) = .ok q) ∧
            (Guard.all [path.fold, g]).canonical.check = .ok ()) ∧
      ∀ (σ : Type) (b : Backend σ) (sem : IntSemantics) (patterns : PatternSet) (o : Oracle σ)
        (e : Failure), (site.analyze b sem patterns o).1 = .error e →
          ∃ p ∈ patterns.applicable site.id.function site.id.argIndex,
            (∃ name ∈ p.freshNames site.value,
              site.Uses name ∧ e = .typeMismatch (.reserved name)) ∨
            ∃ alts, p.alternatives site.value path.fold = .ok alts ∧
              ∃ g ∈ alts, ∃ state vars state',
                b.check state (Guard.all [path.fold, g]).canonical vars = (.error e, state')) := by
  constructor
  · rw [check_eq_ok_iff]
    refine and_congr_right fun _ => and_congr_right fun _ => ?_
    exact ⟨fun h name s t hs ht => h _ hs _ ht rfl,
      fun h p hp q hq hname => h q.1 p.2 q.2 (hname ▸ hp) hq⟩
  · intro hsite
    obtain ⟨hvalue, hpath, hvars⟩ := check_eq_ok_iff.mp hsite
    refine ⟨⟨site.path⟩, PathCondition.ofGuards_of_forall hpath, fun p => ⟨?_, ?_⟩,
      fun σ b sem patterns o e => error_of_analyze hsite⟩
    · rw [Pattern.alternatives_error_iff hvalue (hvars.mono fun q hq => mem_occurrences_fold.mp hq)]
      simp only [mem_occurrences_fold, Pattern.mem_freshNames, Pattern.length_searchParts]
      constructor
      · rintro ⟨name, ⟨i, hi, rfl⟩ | ⟨hmode, k, hk, hname⟩, huse⟩
        · exact .inl ⟨i, hi, huse⟩
        · refine .inr ⟨hmode, k, hk, ?_⟩
          simp only [List.mem_cons, List.not_mem_nil, or_false] at hname
          rcases hname with rfl | rfl | rfl
          · exact .inl huse
          · exact .inr (.inl huse)
          · exact .inr (.inr huse)
      · rintro (⟨i, hi, huse⟩ | ⟨hmode, k, hk, huse | huse | huse⟩)
        · exact ⟨_, .inl ⟨i, hi, rfl⟩, huse⟩
        · exact ⟨_, .inr ⟨hmode, k, hk, by simp⟩, huse⟩
        · exact ⟨_, .inr ⟨hmode, k, hk, by simp⟩, huse⟩
        · exact ⟨_, .inr ⟨hmode, k, hk, by simp⟩, huse⟩
    · intro alts halts g hg
      obtain ⟨hcheck, -⟩ := question_of_check hsite halts hg
      exact ⟨exists_prepare hsite halts hg, Guard.check_canonical hcheck⟩

/-- A write to a path whose second part has a name that `Pattern.procMem` keeps for itself. -/
def collidingWrite : Site where
  id := { function := "write", span := "main:7" }
  value := .concat [.stringVar "dir", .stringVar "mem#rest1"]

/-- The site passes the check and the pattern fails on it, as it would not if it had to match the
whole value; the analysis fails with the name. -/
theorem only_collisions_fail_collidingWrite :
    let whole : Pattern := { Pattern.procMem with mode := .exact }
    let b := Backend.constant (.ok .unsat)
    collidingWrite.check = .ok () ∧ collidingWrite.Uses (Pattern.procMem.freshName "rest" 1) ∧
      (∃ e, Pattern.procMem.alternatives collidingWrite.value .truth = .error e) ∧
      (¬ ∃ e, whole.alternatives collidingWrite.value .truth = .error e) ∧
      ∃ name, (collidingWrite.analyze b .unbounded ⟨[Pattern.procMem]⟩ ⟨(), {}⟩).1
        = .error (.typeMismatch (.reserved name)) ∧ collidingWrite.Uses name := by
  intro whole b
  have hcheck : collidingWrite.check = .ok () := by with_unfolding_all rfl
  have huse : collidingWrite.Uses (Pattern.procMem.freshName "rest" 1) :=
    ⟨.string, by decide +kernel⟩
  obtain ⟨path, hpath, hpatterns, hfailures⟩ := (only_collisions_fail collidingWrite).2 hcheck
  obtain rfl : PathCondition.mk [] = path := Except.ok.inj hpath
  have hparts : 1 < max 1 collidingWrite.value.topParts.length := by decide +kernel
  have hwhole : ¬ collidingWrite.Uses (whole.freshName "w" 0) := by
    rintro ⟨s, hs⟩
    revert hs
    cases s <;> decide +kernel
  refine ⟨hcheck, huse, (hpatterns Pattern.procMem).1.mpr (.inr ⟨rfl, 1, hparts, .inr (.inl huse)⟩),
    fun hfail => ?_, ?_⟩
  · rcases (hpatterns whole).1.mp hfail with ⟨i, hi, hname⟩ | ⟨hmode, -⟩
    · obtain rfl : i = 0 := Nat.lt_one_iff.mp hi
      exact hwhole hname
    · exact absurd hmode (by decide)
  · have hrun : (collidingWrite.analyze b .unbounded ⟨[Pattern.procMem]⟩ ⟨(), {}⟩).1
        = .error (.typeMismatch (.reserved "mem#rest1")) := by with_unfolding_all rfl
    obtain ⟨p, -, ⟨name, -, hname, herror⟩ | ⟨_, _, _, _, _, _, _, hb⟩⟩ :=
      hfailures Unit b .unbounded ⟨[Pattern.procMem]⟩ ⟨(), {}⟩ _ hrun
    · exact ⟨name, herror ▸ hrun, hname⟩
    · exact absurd (Prod.mk.inj hb).1 (by simp)

end Site

end SinkReach
