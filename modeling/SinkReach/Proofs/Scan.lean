/-
# The order of questions about a site

The scan of a site is a loop in a loop.  It leaves both at the first alternative that can hold and
at the first failure, remembers the first alternative that was not decided, turns a pattern into
alternatives only when its turn comes, and hands the state of the oracle on from question to
question.  All the same it is ONE pass over a list that is there beforehand:

* `Scan.agenda` has the alternatives of the patterns in order, and a pattern that cannot be turned
  into alternatives stands in it as its failure;
* `Scan.replies` are the answers of the oracle to the agenda, from the first entry to the last;
* `Scan.patterns_eq_conclude`: the scan draws its conclusion from the replies.

What is concluded does not depend on what stands behind the first reply that stops the scan, and if
none does the first reply that is open counts (`Scan.conclude_append`).  So the decision about a
site is read off the replies to the agenda of the patterns that are meant for its argument
(`Site.scan_follows_agenda`).
-/
import SinkReach.Proofs.Checks

namespace SinkReach

variable {σ : Type} {sem : IntSemantics}

/-! ## 1. Agenda and replies -/

namespace Scan

/-- An alternative of a pattern, with its place among those of the pattern. -/
structure Query where
  pattern : Pattern
  index : Nat
  alternative : Guard

/-- The alternatives of a pattern in order, counted from `k`. -/
def queriesFrom (p : Pattern) (k : Nat) (gs : List Guard) : List (Except Failure Query) :=
  (gs.zipIdx k).map fun x => .ok ⟨p, x.2, x.1⟩

/-- The queries of a pattern about a value at the end of a path.  A pattern that cannot be turned
into alternatives comes down to its failure. -/
def queries (v : Value) (path : Guard) (p : Pattern) : List (Except Failure Query) :=
  match p.alternatives v path with
  | .error fault => [.error (.typeMismatch fault)]
  | .ok gs => queriesFrom p 0 gs

/-- All that a scan may come to, in order. -/
def agenda (v : Value) (path : Guard) (ps : List Pattern) : List (Except Failure Query) :=
  ps.flatMap (queries v path)

/-- What comes of an entry of the agenda, and the oracle afterwards. -/
structure Reply (σ : Type) where
  result : Except Failure (Query × Outcome)
  oracle : Oracle σ

namespace Reply

/-- A failure, or an alternative that can hold. -/
def stops (r : Reply σ) : Bool :=
  match r.result with
  | .error _ => true
  | .ok (_, outcome) => outcome.isSat

/-- The alternative, if it was not decided. -/
def open? (r : Reply σ) : Option (PatternMatch × Reason) :=
  match r.result with
  | .ok (q, .unknown reason) => some (matchOf q.pattern q.index, reason)
  | _ => none

end Reply

/-- The oracle is asked whether the alternative can hold at the end of the path. -/
def reply (b : Backend σ) (sem : IntSemantics) (path : Guard) (o : Oracle σ) :
    Except Failure Query → Reply σ
  | .error e => ⟨.error e, o⟩
  | .ok q =>
    let answer := Oracle.decideFormula b sem (.all [path, q.alternative]) o
    ⟨answer.1.map fun outcome => (q, outcome), answer.2⟩

/-- The replies to a list of entries, each given by the oracle that the one before has left. -/
def replies (b : Backend σ) (sem : IntSemantics) (path : Guard) (o : Oracle σ) :
    List (Except Failure Query) → List (Reply σ)
  | [] => []
  | entry :: rest =>
    let r := reply b sem path o entry
    r :: replies b sem path r.oracle rest

/-- The oracle after these replies. -/
def oracleAfter (o : Oracle σ) (rs : List (Reply σ)) : Oracle σ :=
  (rs.getLast?.map Reply.oracle).getD o

theorem oracleAfter_cons (o : Oracle σ) (r : Reply σ) (rs : List (Reply σ)) :
    oracleAfter o (r :: rs) = oracleAfter r.oracle rs := by
  unfold oracleAfter
  rw [List.getLast?_cons]
  cases rs.getLast? with
  | none => rfl
  | some last => rfl

theorem replies_append (b : Backend σ) (path : Guard) (o : Oracle σ)
    (l more : List (Except Failure Query)) :
    replies b sem path o (l ++ more) = replies b sem path o l ++
      replies b sem path (oracleAfter o (replies b sem path o l)) more := by
  induction l generalizing o with
  | nil => rfl
  | cons entry rest ih =>
    rw [List.cons_append, replies, replies, ih, oracleAfter_cons, List.cons_append]

/-! ## 2. Conclusions -/

/-- What a scan makes of replies, one after the other. -/
def conclude (open? : Option (PatternMatch × Reason)) (o : Oracle σ) :
    List (Reply σ) → Except Failure Finding × Oracle σ
  | [] => (.ok (.none open?), o)
  | r :: rest =>
    match r.result with
    | .error e => (.error e, r.oracle)
    | .ok (q, .sat model) => (.ok (.found (matchOf q.pattern q.index) model), r.oracle)
    | .ok (_, .unsat) => conclude open? r.oracle rest
    | .ok (q, .unknown reason) =>
      conclude (open?.or (some (matchOf q.pattern q.index, reason))) r.oracle rest

variable {open? : Option (PatternMatch × Reason)} {o : Oracle σ} {r : Reply σ} {rs : List (Reply σ)}

theorem conclude_of_error {e : Failure} (h : r.result = .error e) :
    conclude open? o (r :: rs) = (.error e, r.oracle) := by
  rw [conclude, h]

theorem conclude_of_sat {q : Query} {m : Assignment} (h : r.result = .ok (q, .sat m)) :
    conclude open? o (r :: rs) = (.ok (.found (matchOf q.pattern q.index) m), r.oracle) := by
  rw [conclude, h]

/-- A reply that does not stop the scan is passed over; only if it is open, and the first such, it
is remembered. -/
theorem conclude_cons (h : r.stops = false) :
    conclude open? o (r :: rs) = conclude (open?.or r.open?) r.oracle rs := by
  obtain ⟨result, oracle⟩ := r
  match result with
  | .error e => exact absurd h (by simp [Reply.stops])
  | .ok (q, .sat m) => exact absurd h (by simp [Reply.stops, Outcome.isSat])
  | .ok (q, .unsat) => rw [conclude, Reply.open?, Option.or_none]
  | .ok (q, .unknown reason) => rw [conclude, Reply.open?]

/-- **Replies that do not stop the scan** leave it with the first of them that is open. -/
theorem conclude_append (h : ∀ r ∈ rs, r.stops = false) (more : List (Reply σ)) :
    conclude open? o (rs ++ more) =
      conclude (open?.or (rs.findSome? Reply.open?)) (oracleAfter o rs) more := by
  induction rs generalizing open? o with
  | nil => simp [oracleAfter]
  | cons r rs ih =>
    obtain ⟨hr, hrs⟩ := List.forall_mem_cons.mp h
    rw [List.cons_append, conclude_cons hr, ih hrs, oracleAfter_cons, List.findSome?_cons,
      Option.or_assoc]
    cases r.open? with
    | none => rfl
    | some first => rfl

/-- If no reply stops the scan, it ends with the first that is open. -/
theorem conclude_of_forall (h : ∀ r ∈ rs, r.stops = false) :
    conclude open? o rs = (.ok (.none (open?.or (rs.findSome? Reply.open?))), oracleAfter o rs) := by
  rw [← List.append_nil rs, conclude_append h, List.append_nil]
  rfl

/-- No alternative that was refuted is open. -/
theorem findSome?_of_refuted (h : ∀ r ∈ rs, ∃ q, r.result = .ok (q, .unsat)) :
    rs.findSome? Reply.open? = none := by
  refine List.findSome?_eq_none_iff.mpr fun r hr => ?_
  obtain ⟨q, hq⟩ := h r hr
  rw [Reply.open?, hq]

/-- Behind alternatives that were refuted, the first that was not decided is the one that counts. -/
theorem findSome?_of_first {q : Query} {reason : Reason}
    (h : ∀ r ∈ rs, ∃ q, r.result = .ok (q, .unsat)) (hr : r.result = .ok (q, .unknown reason))
    {rest : List (Reply σ)} :
    (rs ++ r :: rest).findSome? Reply.open? = some (matchOf q.pattern q.index, reason) := by
  rw [List.findSome?_append, findSome?_of_refuted h, Option.none_or, List.findSome?_cons,
    Reply.open?, hr]

/-- A reply that stops the scan ends it, whatever is behind. -/
theorem conclude_of_stops (h : r.stops = true) : ∃ finding : Except Failure Finding,
    (∀ left, finding ≠ .ok (.none left)) ∧
      ∀ open? (o : Oracle σ) rs, conclude open? o (r :: rs) = (finding, r.oracle) := by
  obtain ⟨result, oracle⟩ := r
  match result with
  | .error e => exact ⟨.error e, by simp, fun _ _ _ => conclude_of_error rfl⟩
  | .ok (q, .sat m) =>
    exact ⟨.ok (.found (matchOf q.pattern q.index) m), by simp, fun _ _ _ => conclude_of_sat rfl⟩
  | .ok (q, .unsat) => exact absurd h (by simp [Reply.stops, Outcome.isSat])
  | .ok (q, .unknown reason) => exact absurd h (by simp [Reply.stops, Outcome.isSat])

/-- The first reply that stops the scan, with those before it. -/
theorem exists_first_stop (h : ¬ ∀ r ∈ rs, r.stops = false) : ∃ asked last rest,
    rs = asked ++ last :: rest ∧ (∀ r ∈ asked, r.stops = false) ∧ last.stops = true := by
  induction rs with
  | nil => exact absurd (by simp) h
  | cons r rs ih =>
    cases hr : r.stops with
    | true => exact ⟨[], r, rs, rfl, by simp, hr⟩
    | false =>
      obtain ⟨asked, last, rest, rfl, hasked, hlast⟩ :=
        ih fun hrs => h (List.forall_mem_cons.mpr ⟨hr, hrs⟩)
      exact ⟨r :: asked, last, rest, rfl, List.forall_mem_cons.mpr ⟨hr, hasked⟩, hlast⟩

/-! ## 3. A scan is one pass over its agenda -/

variable {b : Backend σ} {path : Guard} {v : Value}

/-- The alternatives of one pattern. -/
theorem alternatives_eq_conclude (p : Pattern) (gs : List Guard) (k : Nat)
    (open? : Option (PatternMatch × Reason)) (o : Oracle σ) :
    alternatives b sem path p k open? o gs =
      conclude open? o (replies b sem path o (queriesFrom p k gs)) := by
  induction gs generalizing k open? o with
  | nil => rfl
  | cons g gs ih =>
    have hqueries : queriesFrom p k (g :: gs) = .ok ⟨p, k, g⟩ :: queriesFrom p (k + 1) gs := by
      rw [queriesFrom, List.zipIdx_cons, List.map_cons]
      rfl
    rw [hqueries, alternatives, replies, conclude, Oracle.decide]
    dsimp only [reply]
    obtain ⟨answer, o'⟩ := Oracle.decideFormula b sem (.all [path, g]) o
    rcases answer with e | outcome
    · rfl
    · cases outcome with
      | sat m => rfl
      | unsat => exact ih (k + 1) open? o'
      | unknown reason => exact ih (k + 1) _ o'

/-- **A scan is one pass over its agenda.**  A pattern whose replies do not stop the scan hands over
to the next one, and the replies to what comes later are not looked at after one that does. -/
theorem patterns_eq_conclude (ps : List Pattern) (open? : Option (PatternMatch × Reason))
    (o : Oracle σ) :
    patterns b sem path v open? o ps =
      conclude open? o (replies b sem path o (agenda v path ps)) := by
  induction ps generalizing open? o with
  | nil => rfl
  | cons p ps ih =>
    have hagenda : agenda v path (p :: ps) = queries v path p ++ agenda v path ps :=
      List.flatMap_cons
    rw [hagenda, replies_append, patterns]
    unfold queries
    cases p.alternatives v path with
    | error fault => rfl
    | ok gs =>
      dsimp only
      rw [alternatives_eq_conclude]
      generalize replies b sem path o (queriesFrom p 0 gs) = rs
      by_cases hopen : ∀ r ∈ rs, r.stops = false
      · rw [conclude_append hopen, conclude_of_forall hopen]
        exact ih _ _
      · obtain ⟨asked, last, rest, rfl, hasked, hlast⟩ := exists_first_stop hopen
        obtain ⟨finding, hfinding, hconclude⟩ := conclude_of_stops hlast
        rw [List.append_assoc, conclude_append hasked, conclude_append hasked, List.cons_append,
          hconclude, hconclude]
        rcases finding with e | found
        · rfl
        · cases found with
          | found matched m => rfl
          | none left => exact absurd rfl (hfinding left)

end Scan

/-! ## 4. The decision about a site -/

namespace Site

variable {b : Backend σ} {patterns : PatternSet} {site : Site} {o : Oracle σ}

theorem analyze_of_check_eq_error {fault : SortFault} (hsite : site.check = .error fault) :
    site.analyze b sem patterns o = (.error (.typeMismatch fault), o) := by
  have hchecked : (do site.check; PathCondition.ofGuards site.path : Except SortFault PathCondition)
      = .error fault := by
    rw [hsite]
    rfl
  unfold analyze
  revert hchecked
  generalize (do site.check; PathCondition.ofGuards site.path : Except SortFault PathCondition)
    = checked
  rintro rfl
  rfl

/-- The decision about a checked site is what is concluded from the replies to its agenda, which has
the patterns that are meant for its argument. -/
theorem analyze_of_conclude {path : PathCondition} {result : Except Failure Finding}
    {o' : Oracle σ} (hsite : site.check = .ok ()) (hpath : path.guards = site.path)
    (h : Scan.conclude none o (Scan.replies b sem path.fold o (Scan.agenda site.value path.fold
      (patterns.patterns.filter fun p => (p.sinks = [] ∨ site.id.function ∈ p.sinks) ∧
        (p.argIndex = none ∨ p.argIndex = some site.id.argIndex)))) = (result, o')) :
    site.analyze b sem patterns o = (result.map (Finding.verdict site), o') := by
  rw [analyze_of_check hsite, ← hpath, PatternSet.applicable_eq_filter, Scan.patterns_eq_conclude,
    h]
  cases result with
  | error e => rfl
  | ok finding => rfl

/-- What is handed back in place of a verdict is a failure that ends the run, and each of those is. -/
theorem absorb_eq_error_iff {result : Except Failure Verdict} {e : Failure} :
    site.absorb result = .error e ↔ result = .error e ∧ e.scope = .run := by
  constructor
  · intro h
    cases result with
    | ok verdict => exact absurd h (by simp [absorb])
    | error failure =>
      cases failure with
      | typeMismatch cause => exact absurd h (by simp [absorb])
      | solverTimeout ms => exact absurd h (by simp [absorb])
      | _ =>
        obtain rfl := Except.error.inj h
        exact ⟨rfl, rfl⟩
  · rintro ⟨rfl, hscope⟩
    cases e with
    | typeMismatch cause => exact absurd hscope (by simp [Failure.scope])
    | solverTimeout ms => exact absurd hscope (by simp [Failure.scope])
    | _ => rfl

/-- **The decision about a site follows its agenda.**

* A site that does not pass the check fails with the fault, and the oracle is not asked.
* Otherwise the agenda is that of the patterns which list the function of the site or no sink, and
  have the index of its argument or none, in the order of the set.  Its entries are gone through in
  order, each being the question whether the path and the alternative hold together, up to the first
  that stops.  If that is a failure, of a pattern or of the oracle, it is the result.  If it is an
  alternative that can hold, the site is SAT with the model, the pattern, its template and the place
  of the alternative.
* If none stops, the first alternative that was not decided is the result, with its own match, and
  if all are refuted, or there are none, the site is UNSAT without a match.

With failures absorbed the result is the same, except that a fault of sorts or a timeout becomes an
UNKNOWN verdict without a match; so what is left to fail are the failures that end the run. -/
theorem scan_follows_agenda (b : Backend σ) (sem : IntSemantics) (patterns : PatternSet)
    (site : Site) (o : Oracle σ) :
    let strict := site.analyze b sem patterns o
    let lenient := site.analyzeOrUnknown b sem patterns o
    (∀ fault, site.check = .error fault → strict = (.error (.typeMismatch fault), o)) ∧
    (site.check = .ok () → ∃ path, PathCondition.ofGuards site.path = .ok path ∧
      let replies := Scan.replies b sem path.fold o (Scan.agenda site.value path.fold
        (patterns.patterns.filter fun p => (p.sinks = [] ∨ site.id.function ∈ p.sinks) ∧
          (p.argIndex = none ∨ p.argIndex = some site.id.argIndex)))
      (∀ asked last rest, replies = asked ++ last :: rest → (∀ r ∈ asked, r.stops = false) →
        (∀ e, last.result = .error e → strict = (.error e, last.oracle)) ∧
        ∀ q m, last.result = .ok (q, .sat m) →
          strict = (.ok ⟨site.id, site.value.render, .sat m,
            some ⟨q.pattern.name, q.pattern.render, .ofNat q.index⟩⟩, last.oracle)) ∧
      ((∀ r ∈ replies, r.stops = false) →
        strict.2 = Scan.oracleAfter o replies ∧
        (∀ refuted first rest, replies = refuted ++ first :: rest →
          (∀ r ∈ refuted, ∃ q, r.result = .ok (q, .unsat)) →
            ∀ q reason, first.result = .ok (q, .unknown reason) →
              strict.1 = .ok ⟨site.id, site.value.render, .unknown reason,
                some ⟨q.pattern.name, q.pattern.render, .ofNat q.index⟩⟩) ∧
        ((∀ r ∈ replies, ∃ q, r.result = .ok (q, .unsat)) →
          strict.1 = .ok ⟨site.id, site.value.render, .unsat, none⟩))) ∧
    lenient.2 = strict.2 ∧
    (∀ verdict, strict.1 = .ok verdict → lenient.1 = .ok verdict) ∧
    (∀ fault, strict.1 = .error (.typeMismatch fault) → lenient.1
      = .ok ⟨site.id, site.value.render, .unknown (.typeMismatch fault.message), none⟩) ∧
    (∀ ms, strict.1 = .error (.solverTimeout ms) →
      lenient.1 = .ok ⟨site.id, site.value.render, .unknown .timeout, none⟩) ∧
    ∀ e, lenient.1 = .error e ↔ strict.1 = .error e ∧ e.scope = .run := by
  intro strict lenient
  have hlenient : lenient.1 = site.absorb strict.1 := rfl
  refine ⟨fun fault => analyze_of_check_eq_error, ?_, rfl, ?_, ?_, ?_,
    fun e => absorb_eq_error_iff⟩
  · intro hsite
    obtain ⟨-, hpath, -⟩ := check_eq_ok_iff.mp hsite
    refine ⟨⟨site.path⟩, PathCondition.ofGuards_of_forall hpath, ?_⟩
    intro replies
    have hconclude : ∀ {result o'}, Scan.conclude none o replies = (result, o') →
        strict = (result.map (Finding.verdict site), o') := analyze_of_conclude hsite rfl
    refine ⟨?_, ?_⟩
    · intro asked last rest hreplies hasked
      have hlast : Scan.conclude none o replies = Scan.conclude _ _ (last :: rest) :=
        hreplies ▸ Scan.conclude_append hasked (last :: rest)
      constructor
      · intro e he
        exact hconclude (hlast.trans (Scan.conclude_of_error he))
      · intro q m hq
        exact hconclude (hlast.trans (Scan.conclude_of_sat hq))
    · intro hopen
      have hstrict := hconclude (Scan.conclude_of_forall hopen)
      rw [Option.none_or] at hstrict
      rw [hstrict]
      refine ⟨rfl, ?_, ?_⟩
      · intro refuted first rest hreplies hrefuted q reason hfirst
        rw [hreplies, Scan.findSome?_of_first hrefuted hfirst]
        rfl
      · intro hrefuted
        rw [Scan.findSome?_of_refuted hrefuted]
        rfl
  · intro verdict h
    rw [hlenient, h]
    rfl
  · intro fault h
    rw [hlenient, h]
    rfl
  · intro ms h
    rw [hlenient, h]
    rfl

/-- A write behind a test of a variable that has the name of a wildcard of `latePattern`. -/
def lateWrite : Site where
  id := { function := "write", span := "main:13" }
  value := .concat [.stringVar "dir", .str "/mem"]
  path := [.compare .ne (.stringVar "late#w0") (.str "")]

/-- The first is meant for another sink, and the third for another argument.  The others have three
alternatives on `lateWrite`: one, and one for each part of the value. -/
def earlyPatterns : List Pattern :=
  [⟨"source", [.literal "/proc/self/mem"], .exact, ["read", "pread"], none⟩,
    ⟨"own", [.literal "/proc/self/mem"], .exact, [], none⟩,
    ⟨"count", [.literal "/mem"], .contains, ["write"], some 1⟩,
    ⟨"any", [.literal "/proc/", .wildcard, .literal "/mem"], .contains, ["open", "write"], some 0⟩]

def latePattern : Pattern := ⟨"late", [.literal "/x", .wildcard], .exact, [], none⟩

/-- The patterns for another sink and for another argument take no answer.  The first alternative of
the others is refuted and the second is not decided.  If the third can hold, that is the verdict,
and the last pattern is not looked at.  If it cannot, the last pattern fails, which the lenient
verdict records; and without that pattern the second alternative is the verdict. -/
theorem scan_follows_agenda_lateWrite :
    let o (answer : Outcome) : Oracle (List (Except Failure Outcome)) :=
      ⟨[.ok .unsat, .ok (.unknown .timeout), .ok answer], {}⟩
    let all : PatternSet := ⟨earlyPatterns ++ [latePattern]⟩
    lateWrite.check = .ok () ∧
      (all.patterns.filter fun p => (p.sinks = [] ∨ lateWrite.id.function ∈ p.sinks) ∧
        (p.argIndex = none ∨ p.argIndex = some lateWrite.id.argIndex)).map Pattern.name
          = ["own", "any", "late"] ∧
      (∃ m, (lateWrite.analyze .replay .unbounded all (o (.sat .empty))).1
        = .ok ⟨lateWrite.id, lateWrite.value.render, .sat m, some ⟨"any", "/proc/*/mem", 1⟩⟩) ∧
      (lateWrite.analyzeOrUnknown .replay .unbounded all (o .unsat)).1
        = .ok ⟨lateWrite.id, lateWrite.value.render,
          .unknown (.typeMismatch (SortFault.reserved "late#w0").message), none⟩ ∧
      (lateWrite.analyze .replay .unbounded ⟨earlyPatterns⟩ (o .unsat)).1
        = .ok ⟨lateWrite.id, lateWrite.value.render, .unknown .timeout,
          some ⟨"any", "/proc/*/mem", 0⟩⟩ := by
  intro o all
  have hcheck : lateWrite.check = .ok () := by with_unfolding_all rfl
  obtain ⟨-, hsat, -⟩ := scan_follows_agenda .replay .unbounded all lateWrite (o (.sat .empty))
  obtain ⟨-, hfail, -, -, hfault, -⟩ :=
    scan_follows_agenda .replay .unbounded all lateWrite (o .unsat)
  obtain ⟨-, hopen, -⟩ :=
    scan_follows_agenda .replay .unbounded ⟨earlyPatterns⟩ lateWrite (o .unsat)
  refine ⟨hcheck, by decide, ?_, hfault _ ?_, ?_⟩
  · obtain ⟨path, hpath, hstop, -⟩ := hsat hcheck
    obtain rfl : PathCondition.mk lateWrite.path = path := Except.ok.inj hpath
    obtain ⟨-, hfound⟩ :=
      hstop [_, _] _ _ (by with_unfolding_all rfl) (by with_unfolding_all decide)
    rw [hfound _ _ (by with_unfolding_all rfl)]
    exact ⟨_, by with_unfolding_all rfl⟩
  · obtain ⟨path, hpath, hstop, -⟩ := hfail hcheck
    obtain rfl : PathCondition.mk lateWrite.path = path := Except.ok.inj hpath
    obtain ⟨herror, -⟩ :=
      hstop [_, _, _] _ _ (by with_unfolding_all rfl) (by with_unfolding_all decide)
    rw [herror _ (by with_unfolding_all rfl)]
    with_unfolding_all rfl
  · obtain ⟨path, hpath, -, hnone⟩ := hopen hcheck
    obtain rfl : PathCondition.mk lateWrite.path = path := Except.ok.inj hpath
    obtain ⟨-, hfirst, -⟩ := hnone (by with_unfolding_all decide)
    rw [hfirst [_] _ _ (by with_unfolding_all rfl)
      (List.forall_mem_singleton.mpr ⟨_, by with_unfolding_all rfl⟩) _ _
      (by with_unfolding_all rfl)]
    with_unfolding_all rfl

end Site

end SinkReach
