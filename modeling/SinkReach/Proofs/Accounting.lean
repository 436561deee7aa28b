/-
# The counters of an oracle account for its work

An oracle counts its queries and how they were settled.  This file compares the counters with what
can be SEEN of an oracle from outside: the answers that its callers got, and the replies that its
backend gave.  To see the replies the backend is WATCHED, which changes nothing else.

A query ends in one of five ways (`Oracle.Exit`), each of which touches the counters differently.
What has to hold of the counters is linear in them (`Stats.Accounts`), so it is enough to look at
one query at a time:

* `Oracle.Exit.accounts`: what one query adds to the counters accounts for that query;
* `Oracle.Session.accounts`: so the counters account for every sequence of queries;
* `Merging.result_eq_sum`: merging adds the counters up, whatever the order and the grouping.
-/
import Mathlib.Algebra.GroupWithZero.Nat
import SinkReach.Proofs.Oracle
import SinkReach.Proofs.Stateless
import SinkReach.Solver.Backends

namespace SinkReach

variable {σ : Type}

/-! ## 1. What can be seen -/

namespace Reply

/-- The answer is a failure. -/
def failed : Except Failure Outcome → Bool
  | .error _ => true
  | .ok _ => false

/-- The answer leaves the question open. -/
def undecided : Except Failure Outcome → Bool
  | .error _ => false
  | .ok outcome => outcome.isUnknown

end Reply

/-- A backend that also keeps what it replies, in order. -/
def Backend.watched (b : Backend σ) : Backend (σ × List (Except Failure Outcome)) where
  name := b.name
  check s formula vars :=
    let reply := b.check s.1 formula vars
    (reply.1, reply.2, s.2 ++ [reply.1])

/-- The counters agree with the answers that callers got and with the replies of the backend. -/
structure Stats.Accounts (s : Stats) (answers replies : List (Except Failure Outcome)) : Prop where
  total : s.total = answers.length
  settled : s.lightweight + s.solver + s.unknown + answers.countP Reply.failed = s.total
  unknown : s.unknown = answers.countP Reply.undecided
  asked : replies.length = s.solver + s.unknown + replies.countP Reply.failed

theorem Stats.Accounts.nil : Stats.Accounts {} [] [] := ⟨rfl, rfl, rfl, rfl⟩

/-- **Accounts add up.** -/
theorem Stats.Accounts.append {s s' : Stats} {answers answers' replies replies'}
    (h : s.Accounts answers replies) (h' : s'.Accounts answers' replies') :
    (s + s').Accounts (answers ++ answers') (replies ++ replies') := by
  obtain ⟨htotal, hsettled, hunknown, hasked⟩ := h
  obtain ⟨htotal', hsettled', hunknown', hasked'⟩ := h'
  rw [← Stats.merge_eq_add]
  constructor
  · simp only [Stats.merge, List.length_append]
    omega
  · simp only [Stats.merge, List.countP_append]
    omega
  · simp only [Stats.merge, List.countP_append]
    omega
  · simp only [Stats.merge, List.length_append, List.countP_append]
    omega

/-! ## 2. One query -/

namespace Oracle

/-- **The ways in which a query ends**: what is answered, the state of the backend afterwards, what
is counted, and what the backend replied, if it was asked. -/
inductive Exit (b : Backend σ) (sem : IntSemantics) (f : Guard) (state : σ) :
    Except Failure Outcome → σ → Stats → List (Except Failure Outcome) → Prop where
  /-- The formula is ill-sorted, or uses a name at two sorts. -/
  | refused {e : SortFault} (hprepare : prepare f = .error e) :
    Exit b sem f state (.error (.typeMismatch e)) state ⟨1, 0, 0, 0⟩ []
  /-- The backend is not needed. -/
  | settled {p : Prepared} {outcome : Outcome} (hprepare : prepare f = .ok p)
    (hclosed : p.canonical.decideClosed sem = some outcome) :
    Exit b sem f state (.ok (outcome.complete p.vars)) state ⟨1, 1, 0, 0⟩ []
  /-- The backend fails. -/
  | failed {p : Prepared} {e : Failure} {state' : σ} (hprepare : prepare f = .ok p)
    (hopen : p.canonical.decideClosed sem = none)
    (hcheck : b.check state p.canonical p.canonicalVars = (.error e, state')) :
    Exit b sem f state (.error e) state' ⟨1, 0, 0, 0⟩ [.error e]
  /-- The backend decides the formula. -/
  | decided {p : Prepared} {outcome : Outcome} {state' : σ} (hprepare : prepare f = .ok p)
    (hopen : p.canonical.decideClosed sem = none)
    (hcheck : b.check state p.canonical p.canonicalVars = (.ok outcome, state'))
    (houtcome : outcome.isUnknown = false) :
    Exit b sem f state (.ok (outcome.complete p.vars)) state' ⟨1, 0, 1, 0⟩ [.ok outcome]
  /-- The backend leaves the formula open. -/
  | declined {p : Prepared} {outcome : Outcome} {state' : σ} (hprepare : prepare f = .ok p)
    (hopen : p.canonical.decideClosed sem = none)
    (hcheck : b.check state p.canonical p.canonicalVars = (.ok outcome, state'))
    (houtcome : outcome.isUnknown = true) :
    Exit b sem f state (.ok (outcome.complete p.vars)) state' ⟨1, 0, 0, 1⟩ [.ok outcome]

variable {b : Backend σ} {sem : IntSemantics} {f : Guard} {state state' : σ}
  {answer : Except Failure Outcome} {cost : Stats} {replies : List (Except Failure Outcome)}

/-- Every query ends in one of these ways. -/
theorem exists_exit (b : Backend σ) (sem : IntSemantics) (f : Guard) (state : σ) :
    ∃ answer state' cost replies, Exit b sem f state answer state' cost replies := by
  cases hprepare : prepare f with
  | error e => exact ⟨_, _, _, _, .refused hprepare⟩
  | ok p =>
    cases hclosed : p.canonical.decideClosed sem with
    | some outcome => exact ⟨_, _, _, _, .settled hprepare hclosed⟩
    | none =>
      rcases hcheck : b.check state p.canonical p.canonicalVars with ⟨reply, state'⟩
      cases reply with
      | error e => exact ⟨_, _, _, _, .failed hprepare hclosed hcheck⟩
      | ok outcome =>
        cases houtcome : outcome.isUnknown with
        | false => exact ⟨_, _, _, _, .decided hprepare hclosed hcheck houtcome⟩
        | true => exact ⟨_, _, _, _, .declined hprepare hclosed hcheck houtcome⟩

/-- The exit says what the oracle does. -/
theorem Exit.decideFormula_eq (h : Exit b sem f state answer state' cost replies) (stats : Stats) :
    decideFormula b sem f ⟨state, stats⟩ = (answer, ⟨state', stats + cost⟩) := by
  cases h with
  | refused hprepare =>
    simp only [decideFormula, hprepare]
    rfl
  | settled hprepare hclosed =>
    simp only [decideFormula, hprepare, hclosed]
    rfl
  | failed hprepare hopen hcheck =>
    simp only [decideFormula, hprepare, hopen, hcheck]
    rfl
  | decided hprepare hopen hcheck houtcome =>
    simp only [decideFormula, hprepare, hopen, hcheck, countAnswer_eq_add, houtcome]
    rfl
  | declined hprepare hopen hcheck houtcome =>
    simp only [decideFormula, hprepare, hopen, hcheck, countAnswer_eq_add, houtcome]
    rfl

/-- **Watching a backend changes nothing**: the query ends in the same way, and what the backend
replied has been kept. -/
theorem Exit.watched (h : Exit b sem f state answer state' cost replies)
    (seen : List (Except Failure Outcome)) :
    Exit b.watched sem f (state, seen) answer (state', seen ++ replies) cost replies := by
  have hkept {p : Prepared} {reply : Except Failure Outcome}
      (hcheck : b.check state p.canonical p.canonicalVars = (reply, state')) :
      b.watched.check (state, seen) p.canonical p.canonicalVars
        = (reply, state', seen ++ [reply]) := by
    simp only [Backend.watched, hcheck]
  cases h with
  | refused hprepare =>
    rw [List.append_nil]
    exact .refused hprepare
  | settled hprepare hclosed =>
    rw [List.append_nil]
    exact .settled hprepare hclosed
  | failed hprepare hopen hcheck => exact .failed hprepare hopen (hkept hcheck)
  | decided hprepare hopen hcheck houtcome =>
    exact .decided hprepare hopen (hkept hcheck) houtcome
  | declined hprepare hopen hcheck houtcome =>
    exact .declined hprepare hopen (hkept hcheck) houtcome

/-- Completing a model does not settle what is open. -/
theorem undecided_complete (outcome : Outcome) (vars : Declarations) :
    Reply.undecided (.ok (outcome.complete vars)) = outcome.isUnknown := by
  cases outcome <;> rfl

/-- What is settled without the backend is not left open. -/
theorem isUnknown_of_decideClosed {g : Guard} {outcome : Outcome}
    (h : g.decideClosed sem = some outcome) : outcome.isUnknown = false := by
  obtain ⟨-, c, -, rfl⟩ := Guard.decideClosed_eq_some h
  cases c <;> rfl

/-- **What one query adds to the counters accounts for it**, whichever way it ends. -/
theorem Exit.accounts (h : Exit b sem f state answer state' cost replies) :
    cost.Accounts [answer] replies := by
  cases h with
  | refused hprepare => exact ⟨rfl, rfl, rfl, rfl⟩
  | settled hprepare hclosed =>
    refine ⟨rfl, rfl, ?_, rfl⟩
    rw [List.countP_singleton, undecided_complete, isUnknown_of_decideClosed hclosed]
    rfl
  | failed hprepare hopen hcheck => exact ⟨rfl, rfl, rfl, rfl⟩
  | decided hprepare hopen hcheck houtcome =>
    refine ⟨rfl, rfl, ?_, rfl⟩
    rw [List.countP_singleton, undecided_complete, houtcome]
    rfl
  | declined hprepare hopen hcheck houtcome =>
    refine ⟨rfl, rfl, ?_, rfl⟩
    rw [List.countP_singleton, undecided_complete, houtcome]
    rfl

end Oracle

/-! ## 3. Sequences of queries -/

/-- A call on an oracle. -/
inductive Query where
  /-- Whether an alternative can hold at the end of a path. -/
  | pair (path alternative : Guard)
  /-- Whether a formula can hold. -/
  | formula (f : Guard)

/-- The formula that a query is about. -/
def Query.body : Query → Guard
  | .pair path alternative => .all [path, alternative]
  | .formula f => f

namespace Oracle

/-- Puts a query to the oracle. -/
def ask (b : Backend σ) (sem : IntSemantics) (o : Oracle σ) :
    Query → Except Failure Outcome × Oracle σ
  | .pair path alternative => decide b sem path alternative o
  | .formula f => decideFormula b sem f o

/-- Puts queries to the oracle, one after the other. -/
def askAll (b : Backend σ) (sem : IntSemantics) (o : Oracle σ) :
    List Query → List (Except Failure Outcome) × Oracle σ
  | [] => ([], o)
  | q :: qs =>
    let first := o.ask b sem q
    let rest := askAll b sem first.2 qs
    (first.1 :: rest.1, rest.2)

theorem ask_eq_decideFormula (b : Backend σ) (sem : IntSemantics) (o : Oracle σ) (q : Query) :
    o.ask b sem q = decideFormula b sem q.body o := by
  cases q <;> rfl

/-- **Queries that end one after the other**: the answers, the state of the backend afterwards,
what is counted for all of them, and what the backend replied. -/
inductive Session (b : Backend σ) (sem : IntSemantics) : σ → List Query →
    List (Except Failure Outcome) → σ → Stats → List (Except Failure Outcome) → Prop where
  | nil (state : σ) : Session b sem state [] [] state 0 []
  | cons {state mid state' : σ} {q : Query} {qs : List Query} {answer : Except Failure Outcome}
    {answers replies more : List (Except Failure Outcome)} {cost costs : Stats}
    (hexit : Exit b sem q.body state answer mid cost replies)
    (hrest : Session b sem mid qs answers state' costs more) :
    Session b sem state (q :: qs) (answer :: answers) state' (cost + costs) (replies ++ more)

variable {b : Backend σ} {sem : IntSemantics} {state state' : σ} {queries : List Query}
  {answers replies : List (Except Failure Outcome)} {costs : Stats}

theorem exists_session (b : Backend σ) (sem : IntSemantics) (queries : List Query) (state : σ) :
    ∃ answers state' costs replies, Session b sem state queries answers state' costs replies := by
  induction queries generalizing state with
  | nil => exact ⟨_, _, _, _, .nil state⟩
  | cons q qs ih =>
    obtain ⟨answer, mid, cost, replies, hexit⟩ := exists_exit b sem q.body state
    obtain ⟨answers, state', costs, more, hrest⟩ := ih mid
    exact ⟨_, _, _, _, .cons hexit hrest⟩

/-- The session says what the oracle does. -/
theorem Session.askAll_eq (h : Session b sem state queries answers state' costs replies)
    (stats : Stats) :
    askAll b sem ⟨state, stats⟩ queries = (answers, ⟨state', stats + costs⟩) := by
  induction h generalizing stats with
  | nil state =>
    rw [add_zero]
    rfl
  | cons hexit hrest ih =>
    rw [askAll, ask_eq_decideFormula, hexit.decideFormula_eq, ih, add_assoc]

/-- A session with the backend is one with the backend watched. -/
theorem Session.watched (h : Session b sem state queries answers state' costs replies)
    (seen : List (Except Failure Outcome)) :
    Session b.watched sem (state, seen) queries answers (state', seen ++ replies) costs replies := by
  induction h generalizing seen with
  | nil state =>
    rw [List.append_nil]
    exact .nil _
  | cons hexit hrest ih =>
    rw [← List.append_assoc]
    exact .cons (hexit.watched seen) (ih _)

theorem Session.length_answers (h : Session b sem state queries answers state' costs replies) :
    answers.length = queries.length := by
  induction h with
  | nil state => rfl
  | cons hexit hrest ih => rw [List.length_cons, List.length_cons, ih]

/-- **The counters account for every sequence of queries.** -/
theorem Session.accounts (h : Session b sem state queries answers state' costs replies) :
    costs.Accounts answers replies := by
  induction h with
  | nil state => exact .nil
  | cons hexit hrest ih => exact hexit.accounts.append ih

end Oracle

/-! ## 4. Several oracles -/

/-- An order in which the counters of several oracles are merged: those of one oracle, or what was
merged before with what was merged elsewhere. -/
inductive Merging where
  | single (s : Stats)
  | both (left right : Merging)

namespace Merging

/-- The counters that are merged, as they stand in the order. -/
def parts : Merging → List Stats
  | .single s => [s]
  | .both l r => l.parts ++ r.parts

/-- What comes of merging. -/
def result : Merging → Stats
  | .single s => s
  | .both l r => l.result.merge r.result

theorem result_eq_sum (m : Merging) : m.result = m.parts.sum := by
  induction m with
  | single s => rw [result, parts, List.sum_singleton]
  | both l r hl hr => rw [result, parts, List.sum_append, hl, hr, Stats.merge_eq_add]

end Merging

/-- Sums are taken counter by counter. -/
theorem Stats.sum_eq (l : List Stats) :
    l.sum = ⟨(l.map Stats.total).sum, (l.map Stats.lightweight).sum, (l.map Stats.solver).sum,
      (l.map Stats.unknown).sum⟩ := by
  induction l with
  | nil => rfl
  | cons s l ih =>
    rw [List.sum_cons, ih, ← Stats.merge_eq_add]
    rfl

/-! ## 5. The counters -/

/-- **The counters of an oracle account for every query**, whatever the formulas and whatever the
backend does.  After any calls on a new oracle

* the queries are as many as the calls;
* what was settled in process, what the backend decided, what it left open and the calls that
  failed are all the queries;
* what is counted as open are the answers that are;
* the backend, which is watched for this and does not notice, has replied as often as it decided a
  query, left one open, or failed.

Counters of several oracles are merged into their sums, in whatever order and however grouped. -/
theorem Stats.counters_account_for_queries (b : Backend σ) (sem : IntSemantics) (state : σ) :
    (∀ queries : List Query,
      let run := Oracle.askAll b sem ⟨state, {}⟩ queries
      let watched := Oracle.askAll b.watched sem ⟨(state, []), {}⟩ queries
      let stats := run.2.stats
      let replies := watched.2.state.2
      (watched.1 = run.1 ∧ watched.2.state.1 = run.2.state ∧ watched.2.stats = stats) ∧
      stats.total = queries.length ∧
      stats.lightweight + stats.solver + stats.unknown + run.1.countP Reply.failed = stats.total ∧
      stats.unknown = run.1.countP Reply.undecided ∧
      replies.length = stats.solver + stats.unknown + replies.countP Reply.failed) ∧
    ∀ m : Merging,
      m.result = ⟨(m.parts.map Stats.total).sum, (m.parts.map Stats.lightweight).sum,
        (m.parts.map Stats.solver).sum, (m.parts.map Stats.unknown).sum⟩ ∧
      ∀ m' : Merging, m'.parts.Perm m.parts → m'.result = m.result := by
  constructor
  · intro queries run watched stats replies
    obtain ⟨answers, state', costs, given, hsession⟩ := Oracle.exists_session b sem queries state
    have hrun : run = (answers, ⟨state', costs⟩) := by
      rw [← zero_add costs]
      exact hsession.askAll_eq 0
    have hwatched : watched = (answers, ⟨(state', given), costs⟩) := by
      rw [← zero_add costs]
      exact (hsession.watched []).askAll_eq 0
    obtain ⟨htotal, hsettled, hunknown, hasked⟩ := hsession.accounts
    simp only [stats, replies, hrun, hwatched, true_and]
    exact ⟨htotal.trans hsession.length_answers, hsettled, hunknown, hasked⟩
  · intro m
    refine ⟨by rw [m.result_eq_sum, Stats.sum_eq], ?_⟩
    intro m' hperm
    rw [m.result_eq_sum, m'.result_eq_sum]
    exact hperm.sum_eq

/-- One query for each exit: a text compared with a number, a path that ends in falsity, and three
that need the backend. -/
def mixedQueries : List Query :=
  let positive := Guard.compare .gt (.intVar "n") (.int 0)
  [.formula (.compare .eq (.str "n") (.int 0)), .pair positive (.const false), .formula positive,
    .pair positive (.const true), .formula (.not positive)]

/-- A backend that decides, fails and gives up in turn. -/
def mixedReplies : List (Except Failure Outcome) :=
  [.ok (.sat (.ofList [("n", .int 1)])), .error (.solverTimeout 5), .ok (.unknown .timeout)]

/-- Two of the five queries fail, but only one of them because of the backend. -/
theorem Stats.counters_account_for_queries_mixedQueries :
    let run := Oracle.askAll .replay .unbounded ⟨mixedReplies, {}⟩ mixedQueries
    let watched :=
      Oracle.askAll Backend.replay.watched .unbounded ⟨(mixedReplies, []), {}⟩ mixedQueries
    let idle : Stats := ⟨1, 1, 0, 0⟩
    let grouped := Merging.both (.both (.single run.2.stats) (.single idle)) (.single {})
    let swapped := Merging.both (.single idle) (.both (.single run.2.stats) (.single {}))
    run.2.stats = ⟨5, 1, 1, 1⟩ ∧ run.1.countP Reply.failed = 2 ∧
      watched.2.state.2.countP Reply.failed = 1 ∧ watched.2.state.2.length = 3 ∧
      swapped.parts.Perm grouped.parts ∧ swapped.result = grouped.result := by
  intro run watched idle grouped swapped
  obtain ⟨hqueries, hmerging⟩ :=
    Stats.counters_account_for_queries .replay .unbounded mixedReplies
  obtain ⟨-, -, hsettled, -, hasked⟩ := hqueries mixedQueries
  change _ + run.1.countP Reply.failed = run.2.stats.total at hsettled
  change watched.2.state.2.length = _ + watched.2.state.2.countP Reply.failed at hasked
  have hstats : run.2.stats = ⟨5, 1, 1, 1⟩ := by with_unfolding_all rfl
  have hfailed : watched.2.state.2.countP Reply.failed = 1 := by with_unfolding_all rfl
  have hperm : swapped.parts.Perm grouped.parts := .swap _ _ _
  refine ⟨hstats, ?_, hfailed, ?_, hperm, (hmerging grouped).2 swapped hperm⟩
  · simp only [run, hstats] at hsettled ⊢
    omega
  · simp only [run, hstats, hfailed] at hasked
    exact hasked

end SinkReach
