/-
# What verdicts on sites mean

A site is reached when the guards of its path are true, and what happens there is dangerous when
its value is in the language of an applicable pattern.  The verdict on a site is about exactly
that, in both directions, as far as the backend can be trusted:

* NO MISSED DANGER: under an assignment that reaches the site with a dangerous value, the verdict
  is not that nothing can happen.
* A MODEL IS A WITNESS: the model of a verdict does not contradict the path, and wherever it is
  extended so that path and value are decided it reaches the site with a value that the matched
  pattern accepts.

A verdict comes out of a scan, so both rest on what a scan has seen when it ends: all alternatives
(`Scan.unsat_of_patterns`) or one that can hold (`Scan.sat_of_patterns`).
-/
import SinkReach.Proofs.Oracle
import SinkReach.Proofs.Pattern.Matching
import SinkReach.Scan
import SinkReach.Solver.Backends

namespace SinkReach

variable {σ : Type} {sem : IntSemantics} {env : Assignment}

/-! ## 1. Paths -/

namespace PathCondition

theorem guards_of_foldlM : ∀ {gs : List Guard} {start path : PathCondition},
    gs.foldlM push start = .ok path → path.guards = start.guards ++ gs
  | [], start, path, h => by
    obtain rfl := Except.ok.inj h
    rw [List.append_nil]
  | g :: gs, start, path, h => by
    rw [List.foldlM_cons] at h
    obtain ⟨next, hnext, h⟩ := bind_eq_ok.mp h
    obtain ⟨_, -, hpush⟩ := bind_eq_ok.mp hnext
    obtain rfl := Except.ok.inj hpush
    rw [guards_of_foldlM h, List.append_assoc, List.singleton_append]

/-- A path that is taken in has all its guards. -/
theorem guards_of_ofGuards {gs : List Guard} {path : PathCondition} (h : ofGuards gs = .ok path) :
    path.guards = gs := by
  rw [guards_of_foldlM h]
  rfl

/-- A path is decided as the conjunction of its guards, however few there are. -/
theorem eval_fold (path : PathCondition) :
    path.fold.eval sem env = Guard.evalJunction sem env .all path.guards := by
  unfold fold
  split
  · next h => rw [h]; rfl
  · next g h =>
    rw [h, Guard.evalJunction, Guard.evalJunction]
    cases hg : g.eval sem env with
    | none => rfl
    | some b => cases b <;> rfl
  · rw [Guard.eval]

theorem occurrences_fold (path : PathCondition) :
    path.fold.occurrences = Guard.occurrencesIn path.guards := by
  unfold fold
  split
  · next h => rw [h]; rfl
  · next g h => rw [h, Guard.occurrencesIn, Guard.occurrencesIn, List.append_nil]
  · rw [Guard.occurrences]

end PathCondition

/-! ## 2. Scans -/

namespace Scan

variable {b : Backend σ} {path : Guard} {v : Value}

/-- A pattern whose scan leaves nothing open has been refuted alternative by alternative. -/
theorem unsat_of_alternatives {p : Pattern} : ∀ {gs : List Guard} {k : Nat}
    {open? : Option (PatternMatch × Reason)} {o : Oracle σ},
    (alternatives b sem path p k open? o gs).1 = .ok (.none none) →
      open? = none ∧ ∀ g ∈ gs, ∃ o' : Oracle σ, (o'.decide b sem path g).1 = .ok .unsat
  | [], _, open?, _, h => by
    obtain rfl : open? = none := Finding.none.inj (Except.ok.inj h)
    exact ⟨rfl, fun g hg => absurd hg (by simp)⟩
  | g :: gs, k, open?, o, h => by
    rw [alternatives] at h
    split at h
    · exact absurd h (by simp)
    · exact absurd h (by simp)
    · next o' hg =>
      obtain ⟨hopen, hgs⟩ := unsat_of_alternatives h
      refine ⟨hopen, fun g' hg' => ?_⟩
      rcases List.mem_cons.mp hg' with rfl | hg'
      · exact ⟨o, by rw [hg]⟩
      · exact hgs g' hg'
    · obtain ⟨hopen, -⟩ := unsat_of_alternatives h
      -- An undecided alternative is kept, so it would have been left open.
      cases open? with
      | none => exact absurd hopen (by simp)
      | some _ => exact absurd hopen (by simp)

/-- **A scan that ends with nothing found and nothing left open** has refuted every alternative of
every pattern. -/
theorem unsat_of_patterns : ∀ {ps : List Pattern} {open? : Option (PatternMatch × Reason)}
    {o : Oracle σ}, (patterns b sem path v open? o ps).1 = .ok (.none none) →
      open? = none ∧ ∀ p ∈ ps, ∃ gs, p.alternatives v path = .ok gs ∧
        ∀ g ∈ gs, ∃ o' : Oracle σ, (o'.decide b sem path g).1 = .ok .unsat
  | [], open?, _, h => by
    obtain rfl : open? = none := Finding.none.inj (Except.ok.inj h)
    exact ⟨rfl, fun p hp => absurd hp (by simp)⟩
  | p :: ps, open?, o, h => by
    rw [patterns] at h
    split at h
    · exact absurd h (by simp)
    · next gs hgs =>
      split at h
      · next open?' o' hscan =>
        obtain ⟨rfl, hps⟩ := unsat_of_patterns h
        obtain ⟨hopen, hunsat⟩ := unsat_of_alternatives (congrArg Prod.fst hscan)
        refine ⟨hopen, fun q hq => ?_⟩
        rcases List.mem_cons.mp hq with rfl | hq
        · exact ⟨gs, hgs, hunsat⟩
        · exact hps q hq
      · next hother => exact (hother none _ (Prod.ext h rfl)).elim

/-- A pattern whose scan stops has an alternative that the oracle has a model of. -/
theorem sat_of_alternatives {p : Pattern} {matched : PatternMatch} {m : Assignment} :
    ∀ {gs : List Guard} {k : Nat} {open? : Option (PatternMatch × Reason)} {o : Oracle σ},
      (alternatives b sem path p k open? o gs).1 = .ok (.found matched m) →
        ∃ i g, gs[i]? = some g ∧ matched = matchOf p (k + i) ∧
          ∃ o' : Oracle σ, (o'.decide b sem path g).1 = .ok (.sat m)
  | [], _, _, _, h => absurd (Except.ok.inj h) (by simp)
  | g :: gs, k, open?, o, h => by
    -- Whatever was said of `g`, an alternative found further on is counted from `g` on.
    have hrest : ∀ {open? : Option (PatternMatch × Reason)} {o : Oracle σ},
        (alternatives b sem path p (k + 1) open? o gs).1 = .ok (.found matched m) →
          ∃ i g', (g :: gs)[i]? = some g' ∧ matched = matchOf p (k + i) ∧
            ∃ o' : Oracle σ, (o'.decide b sem path g').1 = .ok (.sat m) := by
      intro open? o h
      obtain ⟨i, g', hi, hmatched, hsat⟩ := sat_of_alternatives h
      exact ⟨i + 1, g', hi, by rw [hmatched, Nat.add_right_comm, Nat.add_assoc], hsat⟩
    rw [alternatives] at h
    split at h
    · exact absurd h (by simp)
    · next m' o' hg =>
      obtain ⟨rfl, rfl⟩ := Finding.found.inj (Except.ok.inj h)
      exact ⟨0, g, rfl, rfl, o, by rw [hg]⟩
    · exact hrest h
    · exact hrest h

/-- **A scan that stops** has found an alternative that the oracle has a model of. -/
theorem sat_of_patterns {matched : PatternMatch} {m : Assignment} : ∀ {ps : List Pattern}
    {open? : Option (PatternMatch × Reason)} {o : Oracle σ},
    (patterns b sem path v open? o ps).1 = .ok (.found matched m) →
      ∃ p ∈ ps, ∃ gs k g, p.alternatives v path = .ok gs ∧ gs[k]? = some g ∧
        matched = matchOf p k ∧ ∃ o' : Oracle σ, (o'.decide b sem path g).1 = .ok (.sat m)
  | [], _, _, h => absurd (Except.ok.inj h) (by simp)
  | p :: ps, open?, o, h => by
    rw [patterns] at h
    split at h
    · exact absurd h (by simp)
    · next gs hgs =>
      split at h
      · obtain ⟨q, hq, hfound⟩ := sat_of_patterns h
        exact ⟨q, List.mem_cons_of_mem _ hq, hfound⟩
      · obtain ⟨k, g, hk, hmatched, hsat⟩ := sat_of_alternatives h
        rw [Nat.zero_add] at hmatched
        exact ⟨p, List.mem_cons_self .., gs, k, g, hgs, hk, hmatched, hsat⟩

end Scan

/-! ## 3. Verdicts -/

namespace Site

variable {b : Backend σ} {patterns : PatternSet} {site : Site} {o : Oracle σ}

/-- **Where a verdict comes from**: a site whose value is a string, and a scan that ended. -/
theorem analyze_eq_ok {verdict : Verdict} (h : (site.analyze b sem patterns o).1 = .ok verdict) :
    site.value.sort = .ok .string ∧
      ∃ path finding, PathCondition.ofGuards site.path = .ok path ∧
        (Scan.patterns b sem path.fold site.value none o
          (patterns.applicable site.id.function site.id.argIndex)).1 = .ok finding ∧
        verdict = finding.verdict site := by
  unfold analyze at h
  dsimp only at h
  split at h
  · exact absurd h (by simp)
  · next path hchecked =>
    obtain ⟨_, hcheck, hpath⟩ := bind_eq_ok.mp hchecked
    obtain ⟨s, hsort, hcheck⟩ := bind_eq_ok.mp hcheck
    have hstr : s = .string := by
      split at hcheck
      · exact absurd hcheck (by simp)
      · next hs => simpa using hs
    split at h
    · exact absurd h (by simp)
    · next finding o' hscan =>
      exact ⟨hstr ▸ hsort, path, finding, hpath, congrArg Prod.fst hscan,
        (Except.ok.inj h).symm⟩

theorem finding_of_unsat {finding : Finding} (h : (finding.verdict site).outcome = .unsat) :
    finding = .none none := by
  unfold Finding.verdict at h
  split at h
  · exact absurd h (by simp)
  · exact absurd h (by simp)
  · rfl

theorem finding_of_sat {finding : Finding} {m : Assignment}
    (h : (finding.verdict site).outcome = .sat m) :
    ∃ matched, finding = .found matched m ∧ (finding.verdict site).matched = some matched := by
  unfold Finding.verdict at h ⊢
  split at h
  · next matched m' =>
    obtain rfl := Outcome.sat.inj h
    exact ⟨matched, rfl, rfl⟩
  · exact absurd h (by simp)
  · exact absurd h (by simp)

/-- What is handed back in place of a verdict ends the run, and what is made of a failure counts as
dangerous. -/
theorem absorb_of_ne_unsat {result : Except Failure Verdict}
    (h : ∀ verdict, result = .ok verdict → verdict.outcome ≠ .unsat) :
    (∃ verdict, site.absorb result = .ok verdict ∧ verdict.isDangerous = true ∧
        (verdict.outcome.isSat = true ∨ verdict.outcome.isUnknown = true)) ∨
      ∃ e, site.absorb result = .error e ∧ e.scope = .run := by
  cases result with
  | ok verdict =>
    refine .inl ⟨verdict, rfl, ?_⟩
    have hne := h verdict rfl
    unfold Verdict.isDangerous
    cases houtcome : verdict.outcome with
    | sat m => exact ⟨rfl, .inl rfl⟩
    | unsat => exact absurd houtcome hne
    | unknown reason => exact ⟨rfl, .inr rfl⟩
  | error e =>
    cases e with
    | typeMismatch cause => exact .inl ⟨_, rfl, rfl, .inr rfl⟩
    | solverTimeout ms => exact .inl ⟨_, rfl, rfl, .inr rfl⟩
    | _ => exact .inr ⟨_, rfl, rfl⟩

/-! ## 4. No missed danger -/

/-- Where a path is true and an accepted value is at its end, one of the alternatives can hold
together with the path. -/
theorem exists_true_alternative {p : Pattern} {v : Value} {path : Guard} {gs : List Guard}
    {s : String} (hgs : p.alternatives v path = .ok gs) (hpath : path.eval sem env = some true)
    (hv : v.eval sem env = some (.str s)) (haccepts : p.Accepts s) :
    ∃ g ∈ gs, ∃ env', (Guard.all [path, g]).eval sem env' = some true := by
  obtain ⟨-, rfl, hfree⟩ := Pattern.alternatives_eq_ok hgs
  have hvFree : ∀ q ∈ v.occurrences, q.1 ∉ p.freshNames v :=
    fun q hq => hfree q (List.mem_append_left _ hq)
  have hpathFree : ∀ q ∈ path.occurrences, q.1 ∉ p.freshNames v :=
    fun q hq => hfree q (List.mem_append_right _ hq)
  obtain ⟨g, hg, env', hoff, htrue⟩ := (Pattern.exists_canHold_iff_accepts hvFree hv).mpr haccepts
  refine ⟨g, hg, env', Guard.eval_all_true.mpr fun x hx => ?_⟩
  rcases List.mem_cons.mp hx with rfl | hx
  · rw [Guard.eval_congr (hoff.agreeOn hpathFree), hpath]
  · obtain rfl := List.mem_singleton.mp hx
    exact htrue

/-- **No danger is missed.**  Let the backend call only such formulas unsatisfiable as nothing makes
true.  If some assignment makes all guards of the path true and gives the value a text that an
applicable pattern accepts, then the site is not declared harmless: the verdict on it is dangerous,
or the whole run fails. -/
theorem no_missed_danger (hb : b.UnsatSound sem) {s : String} {p : Pattern}
    (hpath : ∀ g ∈ site.path, g.eval sem env = some true)
    (hvalue : site.value.eval sem env = some (.str s))
    (hp : p ∈ patterns.applicable site.id.function site.id.argIndex) (haccepts : p.Accepts s) :
    (∀ verdict, (site.analyze b sem patterns o).1 = .ok verdict → verdict.outcome ≠ .unsat) ∧
    ((∃ verdict, (site.analyzeOrUnknown b sem patterns o).1 = .ok verdict ∧
        verdict.isDangerous = true ∧
        (verdict.outcome.isSat = true ∨ verdict.outcome.isUnknown = true)) ∨
      ∃ e, (site.analyzeOrUnknown b sem patterns o).1 = .error e ∧ e.scope = .run) := by
  have hverdict : ∀ verdict, (site.analyze b sem patterns o).1 = .ok verdict →
      verdict.outcome ≠ .unsat := by
    intro verdict h hunsat
    obtain ⟨-, path, finding, hofGuards, hscan, rfl⟩ := analyze_eq_ok h
    obtain rfl := finding_of_unsat hunsat
    obtain ⟨-, hrefuted⟩ := Scan.unsat_of_patterns hscan
    obtain ⟨gs, hgs, hunsat⟩ := hrefuted p hp
    have hfold : path.fold.eval sem env = some true := by
      rw [PathCondition.eval_fold, PathCondition.guards_of_ofGuards hofGuards]
      exact Guard.evalJunction_eq_neutral.mpr hpath
    obtain ⟨g, hg, env', htrue⟩ := exists_true_alternative hgs hfold hvalue haccepts
    obtain ⟨o', ho'⟩ := hunsat g hg
    exact Oracle.not_true_of_decideFormula_unsat hb ho' env' htrue
  exact ⟨hverdict, absorb_of_ne_unsat hverdict⟩

/-- A write to `dir ++ "/mem"`, where `dir` begins with `/proc`. -/
def memoryWrite : Site where
  id := { function := "write", span := "main:3" }
  value := .concat [.stringVar "dir", .str "/mem"]
  path := [.affix .start (.str "/proc") (.stringVar "dir")]

def shadowFile : Pattern := ⟨"shadow", [.literal "/etc/shadow"], .exact, [], none⟩

/-- Whether `memoryWrite` is a write to `/etc/shadow`. -/
def shadowQuestion : Guard :=
  .all [.compare .eq (.concat [.stringVar "dir", .str "/mem"]) (.str "/etc/shadow"),
    .affix .start (.str "/proc") (.stringVar "dir")]

/-- It is not, whatever `dir` is: the two texts end in different letters. -/
theorem shadowQuestion_ne_true (env : Assignment) : shadowQuestion.eval sem env ≠ some true := by
  intro h
  have hequal := Guard.eval_all_true.mp h _ (List.mem_cons_self ..)
  obtain ⟨c, hc, hshadow⟩ := Guard.eval_eq_true.mp hequal
  obtain rfl : .str "/etc/shadow" = c := Option.some.inj hshadow
  obtain ⟨s, hs, hsame⟩ := Value.eval_concat_eq_some.mp hc
  obtain ⟨dir, -, t, ht, rfl⟩ := Value.evalText_cons_eq_some.mp hs
  obtain rfl : "/mem" = t := Option.some.inj ht
  have htexts : dir ++ "/mem" = "/etc/shadow" := Constant.str.inj hsame
  have hlast : (dir ++ "/mem").toList.getLast? = some 'm' := by simp
  rw [htexts] at hlast
  exact absurd hlast (by decide)

/-- The match is found across two parts of the value.  A solver that refutes the pattern before, and
is then out of time, does not hide it; without `Pattern.procMem` the site is UNSAT. -/
theorem no_missed_danger_memoryWrite :
    let b := Backend.refuting shadowQuestion
    let patterns : PatternSet := ⟨[shadowFile, Pattern.procMem]⟩
    let env : Assignment := .ofList [("dir", .str "/proc/7")]
    b.UnsatSound .unbounded ∧
      (memoryWrite.analyze b .unbounded ⟨[shadowFile]⟩ ⟨(), {}⟩).1
        = .ok ⟨memoryWrite.id, memoryWrite.value.render, .unsat, none⟩ ∧
      (∀ g ∈ memoryWrite.path, g.eval .unbounded env = some true) ∧
      memoryWrite.value.eval .unbounded env = some (.str "/proc/7/mem") ∧
      Pattern.procMem.Accepts "/proc/7/mem" ∧
      ∃ verdict, (memoryWrite.analyzeOrUnknown b .unbounded patterns ⟨(), {}⟩).1 = .ok verdict ∧
        verdict.isDangerous = true := by
  intro b patterns env
  have hb : b.UnsatSound .unbounded := Backend.unsatSound_refuting shadowQuestion_ne_true
  have hrefuted : (memoryWrite.analyze b .unbounded ⟨[shadowFile]⟩ ⟨(), {}⟩).1
      = .ok ⟨memoryWrite.id, memoryWrite.value.render, .unsat, none⟩ := by with_unfolding_all rfl
  have hpath : ∀ g ∈ memoryWrite.path, g.eval .unbounded env = some true := by decide
  have hvalue : memoryWrite.value.eval .unbounded env = some (.str "/proc/7/mem") := rfl
  have haccepts : Pattern.procMem.Accepts "/proc/7/mem" :=
    ⟨"", "/proc/7/mem", "", .literal "/proc/" (.wildcard "7" (.literal "/mem" .nil)), by decide⟩
  have hp : Pattern.procMem ∈
      patterns.applicable memoryWrite.id.function memoryWrite.id.argIndex := by decide
  have hrun : (memoryWrite.analyzeOrUnknown b .unbounded patterns ⟨(), {}⟩).1
      = .ok (memoryWrite.undecided .timeout) := by with_unfolding_all rfl
  refine ⟨hb, hrefuted, hpath, hvalue, haccepts, ?_⟩
  rcases (no_missed_danger (o := ⟨(), {}⟩) hb hpath hvalue hp haccepts).2 with
    ⟨verdict, hok, hdangerous, -⟩ | ⟨e, herror, -⟩
  · exact ⟨verdict, hok, hdangerous⟩
  · exact absurd (hrun.symm.trans herror) (by simp)

/-! ## 5. Models as witnesses -/

section Extended

variable {path : PathCondition} {g : Guard} {m : Assignment}

/-- What extends the model of an alternative that can hold at the end of a path says nothing false
of either. -/
theorem true_of_decide_sat {c : Bool} (hb : b.SatSound sem)
    (h : (o.decide b sem path.fold g).1 = .ok (.sat m))
    (hkeep : ∀ name k, m.find? name = some k → env.find? name = some k)
    (hg : g.eval sem env = some c) (hpath : ∀ x ∈ path.guards, ∃ y, x.eval sem env = some y) :
    (∀ x ∈ path.guards, x.eval sem env = some true) ∧ g.eval sem env = some true := by
  have hfold : ∃ y, path.fold.eval sem env = some y := by
    rw [PathCondition.eval_fold]
    exact Guard.exists_evalJunction_of_forall hpath
  have hparts : ∀ x ∈ [path.fold, g], ∃ y, x.eval sem env = some y := by
    intro x hx
    rcases List.mem_cons.mp hx with rfl | hx
    · exact hfold
    · obtain rfl := List.mem_singleton.mp hx
      exact ⟨c, hg⟩
  obtain ⟨y, hy⟩ := Guard.exists_evalJunction_of_forall (j := .all) hparts
  obtain rfl := Oracle.true_of_decideFormula_sat hb h hkeep hy
  have htrue := Guard.eval_all_true.mp hy
  refine ⟨?_, htrue g (by simp)⟩
  have hpathTrue := htrue path.fold (List.mem_cons_self ..)
  rw [PathCondition.eval_fold] at hpathTrue
  exact Guard.evalJunction_eq_neutral.mp hpathTrue

theorem ne_false_of_decide_sat {x : Guard} (hb : b.SatSound sem)
    (h : (o.decide b sem path.fold g).1 = .ok (.sat m))
    (hkeep : ∀ name k, m.find? name = some k → env.find? name = some k) (hx : x ∈ path.guards) :
    x.eval sem env ≠ some false := by
  intro hfalse
  have hfold : path.fold.eval sem env = some false := by
    rw [PathCondition.eval_fold]
    exact Guard.evalJunction_eq_absorbing.mpr ⟨x, hx, hfalse⟩
  have hformula : (Guard.all [path.fold, g]).eval sem env = some false := by
    rw [Guard.eval]
    exact Guard.evalJunction_eq_absorbing.mpr ⟨path.fold, List.mem_cons_self .., hfold⟩
  exact absurd (Oracle.true_of_decideFormula_sat hb h hkeep hformula) (by simp)

end Extended

/-- **A model is a witness.**  Let the models of the backend be models.  The model of a verdict
binds every variable of the path and of the matched alternative, each to a constant of its sort;
the alternative has the whole value, or its parts from the one on where the match begins.  Take the
model, or any assignment that extends it to variables it leaves out.  No guard of the path is false
there, and if the guards and the value are decided, the guards are true and the pattern accepts the
text of the value. -/
theorem sat_verdict_is_witness (hb : b.SatSound sem) {verdict : Verdict} {m : Assignment}
    (h : (site.analyze b sem patterns o).1 = .ok verdict) (hsat : verdict.outcome = .sat m) :
    ∃ p ∈ patterns.applicable site.id.function site.id.argIndex, ∃ path alts k g,
      PathCondition.ofGuards site.path = .ok path ∧
      p.alternatives site.value path.fold = .ok alts ∧ alts[k]? = some g ∧
      verdict.matched = some (Scan.matchOf p k) ∧
      m.Binds g.occurrences ∧ (∀ x ∈ site.path, m.Binds x.occurrences) ∧
      (p.mode = .exact → m.Binds site.value.occurrences) ∧
      (p.mode = .contains →
        m.Binds (Value.occurrencesIn ((Pattern.searchParts site.value).drop k))) ∧
      ∀ env : Assignment, (∀ name c, m.find? name = some c → env.find? name = some c) →
        (∀ x ∈ site.path, x.eval sem env ≠ some false) ∧
        ((∃ c, site.value.eval sem env = some c) →
          (∀ x ∈ site.path, ∃ y, x.eval sem env = some y) →
            (∀ x ∈ site.path, x.eval sem env = some true) ∧
            ∃ s, site.value.eval sem env = some (.str s) ∧ p.Accepts s) := by
  obtain ⟨hsort, path, finding, hpath, hscan, rfl⟩ := analyze_eq_ok h
  obtain ⟨matched, rfl, hmatched⟩ := finding_of_sat hsat
  obtain ⟨p, hp, alts, k, g, halts, hg, rfl, o', hdecide⟩ := Scan.sat_of_patterns hscan
  have hguards := PathCondition.guards_of_ofGuards hpath
  have hbinds := Oracle.binds_of_decideFormula_sat hb hdecide
  have hgBinds : m.Binds g.occurrences := hbinds.right.left
  obtain ⟨-, rfl, hfree⟩ := Pattern.alternatives_eq_ok halts
  obtain ⟨hexact, hcontains⟩ := Pattern.occurrences_alternative hg
  refine ⟨p, hp, path, _, k, g, hpath, halts, hg, hmatched, hgBinds, ?_,
    fun hmode => hgBinds.mono fun _ hq => hexact hmode hq,
    fun hmode => hgBinds.mono fun _ hq => hcontains hmode hq, fun env hkeep => ⟨?_, ?_⟩⟩
  · intro x hx
    refine hbinds.left.mono fun q hq => ?_
    rw [PathCondition.occurrences_fold, hguards]
    exact Guard.mem_occurrencesIn.mpr ⟨x, hx, hq⟩
  · intro x hx
    exact ne_false_of_decide_sat hb hdecide hkeep (hguards ▸ hx)
  · rintro ⟨c, hc⟩ hdecided
    obtain ⟨s, rfl⟩ := Value.eval_eq_str hsort hc
    obtain ⟨y, hy⟩ := Pattern.exists_eval_alternative hc hg (hgBinds.extend hkeep)
    obtain ⟨hpathTrue, hgTrue⟩ := true_of_decide_sat hb hdecide hkeep hy (hguards ▸ hdecided)
    refine ⟨hguards ▸ hpathTrue, s, hc, ?_⟩
    exact (Pattern.exists_canHold_iff_accepts (fun q hq => hfree q (List.mem_append_left _ hq))
      hc).mp ⟨g, List.mem_of_getElem? hg, Pattern.canHold_of_eval hgTrue⟩

/-- How `memoryWrite` reaches the memory of a process. -/
def memoryModel : Assignment :=
  .ofList [("dir", .str "/proc/7"), ("mem#w0", .str "7"), ("mem#pre0", .str ""),
    ("mem#rest0", .str "/proc/7"), ("mem#post0", .str "")]

/-- A solver that knows it. -/
def memorySolver : Backend Unit :=
  .knowing
    (Guard.all [.affix .start (.str "/proc") (.stringVar "dir"),
      Pattern.procMem.alignment 0 (.stringVar "dir") [.str "/mem"]]).canonical
    (.ofList [("dir", .string), ("mem#w0", .string), ("mem#pre0", .string),
      ("mem#rest0", .string), ("mem#post0", .string)])
    memoryModel

/-- What is written depends on a switch, and the match does not. -/
def switchedWrite : Site where
  id := { function := "write", span := "main:5" }
  value := .concat [.ite (.compare .eq (.var "verbose" .bool) (.lit (.bool true)))
    (.str "x") (.str "y"), .str "a/mem"]

def switchedModel : Assignment :=
  .ofList [("mem#pre1", .str "a"), ("mem#rest1", .str "/mem"), ("mem#post1", .str "")]

/-- Memory, wherever it stands in a path. -/
def anyMem : Pattern := ⟨"mem", [.literal "/mem"], .contains, [], none⟩

def switchedSolver : Backend Unit :=
  .knowing (Guard.all [.truth, anyMem.alignment 1 (.str "a/mem") []]).canonical
    (.ofList [("mem#pre1", .string), ("mem#rest1", .string), ("mem#post1", .string)])
    switchedModel

theorem satSound_switchedSolver : switchedSolver.SatSound .unbounded :=
  Backend.satSound_knowing (by decide) (by decide +kernel)

theorem analyze_switchedWrite :
    (switchedWrite.analyze switchedSolver .unbounded ⟨[anyMem]⟩ ⟨(), {}⟩).1
      = .ok ⟨switchedWrite.id, switchedWrite.value.render, .sat switchedModel,
          some (Scan.matchOf anyMem 1)⟩ := by with_unfolding_all rfl

/-- The model for `memoryWrite` decides path and value, and the value is accepted.  The one for
`switchedWrite` does not decide the value, and whichever way the switch is set, the value is
accepted. -/
theorem sat_verdict_is_witness_writes :
    memorySolver.SatSound .unbounded ∧ switchedSolver.SatSound .unbounded ∧
      (∃ verdict, (memoryWrite.analyze memorySolver .unbounded ⟨[Pattern.procMem]⟩ ⟨(), {}⟩).1
          = .ok verdict ∧ verdict.outcome = .sat memoryModel ∧
        (∀ x ∈ memoryWrite.path, x.eval .unbounded memoryModel = some true) ∧
        ∃ s, memoryWrite.value.eval .unbounded memoryModel = some (.str s) ∧
          Pattern.procMem.Accepts s) ∧
      ∃ verdict, (switchedWrite.analyze switchedSolver .unbounded ⟨[anyMem]⟩ ⟨(), {}⟩).1
          = .ok verdict ∧ verdict.outcome = .sat switchedModel ∧
        switchedWrite.value.eval .unbounded switchedModel = none ∧
        ∀ on, ∃ s, switchedWrite.value.eval .unbounded (switchedModel.insert "verbose" (.bool on))
          = some (.str s) ∧ anyMem.Accepts s := by
  have hmemory : memorySolver.SatSound .unbounded :=
    Backend.satSound_knowing (by decide) (by decide +kernel)
  refine ⟨hmemory, satSound_switchedSolver, ?_, ?_⟩
  · have hrun : (memoryWrite.analyze memorySolver .unbounded ⟨[Pattern.procMem]⟩ ⟨(), {}⟩).1
        = .ok ⟨memoryWrite.id, memoryWrite.value.render, .sat memoryModel,
            some (Scan.matchOf Pattern.procMem 0)⟩ := by with_unfolding_all rfl
    obtain ⟨p, hp, _, _, _, _, _, _, _, _, _, _, _, _, hextended⟩ :=
      sat_verdict_is_witness hmemory hrun rfl
    obtain rfl : p = Pattern.procMem := List.mem_singleton.mp hp
    exact ⟨_, hrun, rfl,
      (hextended memoryModel fun _ _ h => h).2 ⟨.str "/proc/7/mem", rfl⟩ (by decide)⟩
  · obtain ⟨p, hp, _, _, _, _, _, _, _, _, _, _, _, _, hextended⟩ :=
      sat_verdict_is_witness satSound_switchedSolver analyze_switchedWrite rfl
    obtain rfl : p = anyMem := List.mem_singleton.mp hp
    refine ⟨_, analyze_switchedWrite, rfl, by with_unfolding_all rfl, fun on => ?_⟩
    have hleftOut : switchedModel.find? "verbose" = none := by decide
    have hkeep : ∀ name c, switchedModel.find? name = some c →
        (switchedModel.insert "verbose" (.bool on)).find? name = some c := by
      intro name c hc
      rw [Bindings.find?_insert, if_neg, hc]
      rintro rfl
      exact absurd (hleftOut.symm.trans hc) (by simp)
    refine ((hextended _ hkeep).2 ?_ (by simp [switchedWrite])).2
    cases on with
    | false => exact ⟨.str "ya/mem", by with_unfolding_all rfl⟩
    | true => exact ⟨.str "xa/mem", by with_unfolding_all rfl⟩

/-- **A model need not bind every variable of the value**: the match begins in the second part, and
the switch occurs in the first. -/
theorem sat_model_leaves_out_earlier_parts :
    switchedSolver.SatSound .unbounded ∧
      (switchedWrite.analyze switchedSolver .unbounded ⟨[anyMem]⟩ ⟨(), {}⟩).1
        = .ok ⟨switchedWrite.id, switchedWrite.value.render, .sat switchedModel,
            some (Scan.matchOf anyMem 1)⟩ ∧
      ("verbose", .bool) ∈ switchedWrite.value.occurrences ∧
      ¬ switchedModel.Binds switchedWrite.value.occurrences := by
  exact ⟨satSound_switchedSolver, analyze_switchedWrite, by decide, by decide⟩

end Site

end SinkReach
