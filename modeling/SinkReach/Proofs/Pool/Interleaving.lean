/-
# Interleavings of workers

A POOL is a number of workers with what they share.  It takes a step when one of its workers does,
whichever, so the runs of a pool are all interleavings of the steps of its workers.  Along each of
them:

* FAILURES: the failure on record is the first that a worker met, and the flag is up as soon as a
  worker has met one (`Pool.Recorded`).  Every failure comes from a backend that could not be
  created or from a site (`Pool.Grounded`).
* PLACES: as long as no worker has failed, every place before the cursor is held by one worker or
  has been submitted once, and what was submitted is a decision about the site of its place
  (`Pool.Accounted`).
* COUNTS: as long as no worker has failed, and with a backend that remembers nothing, what the
  workers have counted and what they have handed in are together the counts of the sites that were
  submitted (`Pool.Counted`).

Each is shown for one step of one worker first, then for a step of the pool, and `Reaches.sound`
has all of them for whole runs.
-/
import Mathlib.Logic.Relation
import Mathlib.Tactic.Abel
import SinkReach.Pool
import SinkReach.Proofs.Stateless

namespace SinkReach

variable {σ : Type} {job : Job σ}

/-! ## 1. Pools

A worker creates its backend once.  However the backends depend on each other, there is one answer
for each worker, so a job that has an answer for each of them is general enough. -/

/-- The workers of a run, what they share, and the failures they have met, the first one first. -/
structure Pool (σ : Type) where
  workers : List (Worker σ)
  shared : Shared := {}
  met : List Failure := []

/-- Decides a site of the job. -/
def Job.decideSite (job : Job σ) (site : Site) (o : Oracle σ) :
    Except Failure Verdict × Oracle σ :=
  site.analyzeOrUnknown job.backend job.semantics job.patterns o

/-- The failure that a worker meets in its next step. -/
def Worker.failure? (job : Job σ) : Worker σ → Option Failure
  | .starting id =>
    match job.create id with
    | .ok _ => none
    | .error e => some e
  | .deciding o _ site =>
    match (job.decideSite site o).1 with
    | .ok _ => none
    | .error e => some e
  | _ => none

namespace Pool

/-- The workers before they have done anything. -/
def start (n : Nat) : Pool σ where
  workers := (List.range n).map .starting

/-- One of the workers takes a step. -/
inductive Step (job : Job σ) : Pool σ → Pool σ → Prop where
  | turn (before : List (Worker σ)) (w : Worker σ) (after : List (Worker σ)) (s : Shared)
      (met : List Failure) :
    Step job ⟨before ++ w :: after, s, met⟩
      ⟨before ++ (w.step job s).1 :: after, (w.step job s).2, met ++ (w.failure? job).toList⟩

/-- The workers take steps, in any order. -/
def Reaches (job : Job σ) : Pool σ → Pool σ → Prop := Relation.ReflTransGen (Step job)

/-- All workers have ended. -/
def Ended (p : Pool σ) : Prop := ∀ w ∈ p.workers, w = .ended

end Pool

/-! ## 2. What a worker can do

`Worker.Move` lists the steps a worker can take, each with what makes it take this one.  All that
follows looks at a step through it. -/

namespace Worker

/-- From a worker and what is shared to what they are after the step, with the failure met. -/
inductive Move (job : Job σ) : Worker σ → Shared → Worker σ → Shared → Option Failure → Prop where
  | create {id : Nat} {state : σ} {s : Shared} (h : job.create id = .ok state) :
    Move job (.starting id) s (.polling ⟨state, {}⟩) s none
  | refuse {id : Nat} {e : Failure} {s : Shared} (h : job.create id = .error e) :
    Move job (.starting id) s .ended (s.fail e) (some e)
  | pass {o : Oracle σ} {s : Shared} (h : s.aborted = false) :
    Move job (.polling o) s (.claiming o) s none
  | stop {o : Oracle σ} {s : Shared} (h : s.aborted = true) :
    Move job (.polling o) s (.closing o) s none
  | claim {o : Oracle σ} {s : Shared} :
    Move job (.claiming o) s (.locating o s.cursor) { s with cursor := s.cursor + 1 } none
  | locate {o : Oracle σ} {i : Nat} {site : Site} {s : Shared} (h : job.sites[i]? = some site) :
    Move job (.locating o i) s (.deciding o i site) s none
  | overrun {o : Oracle σ} {i : Nat} {s : Shared} (h : job.sites.length ≤ i) :
    Move job (.locating o i) s (.closing o) s none
  | submit {o o' : Oracle σ} {i : Nat} {site : Site} {v : Verdict} {s : Shared}
      (h : job.decideSite site o = (.ok v, o')) :
    Move job (.deciding o i site) s (.polling o')
      { s with submitted := s.submitted.submit i v } none
  | fail {o o' : Oracle σ} {i : Nat} {site : Site} {e : Failure} {s : Shared}
      (h : job.decideSite site o = (.error e, o')) :
    Move job (.deciding o i site) s (.closing o') (s.fail e) (some e)
  | close {o : Oracle σ} {s : Shared} :
    Move job (.closing o) s .ended { s with stats := s.stats.merge o.stats } none
  | rest {s : Shared} : Move job .ended s .ended s none

/-- A worker moves as it steps. -/
theorem move_step (job : Job σ) (w : Worker σ) (s : Shared) :
    Move job w s (w.step job s).1 (w.step job s).2 (w.failure? job) := by
  cases w with
  | starting id =>
    cases h : job.create id with
    | ok state => simpa only [step, failure?, h] using Move.create h
    | error e => simpa only [step, failure?, h] using Move.refuse h
  | polling o =>
    cases h : s.aborted with
    | false => simpa [step, failure?, h] using Move.pass h
    | true => simpa [step, failure?, h] using Move.stop h
  | claiming o => exact .claim
  | locating o i =>
    cases h : job.sites[i]? with
    | none => simpa only [step, failure?, h] using Move.overrun (List.getElem?_eq_none_iff.mp h)
    | some site => simpa only [step, failure?, h] using Move.locate h
  | deciding o i site =>
    rcases h : job.decideSite site o with ⟨result, o'⟩
    have hstep : site.analyzeOrUnknown job.backend job.semantics job.patterns o = (result, o') := h
    cases result with
    | ok v => simpa only [step, failure?, hstep, h] using Move.submit h
    | error e => simpa only [step, failure?, hstep, h] using Move.fail h
  | closing o => exact .close
  | ended => exact .rest

end Worker

/-! ## 3. Failures -/

/-- A failure that comes from one of `n` backends that cannot be created, or from a site. -/
def Job.Raises (job : Job σ) (n : Nat) (e : Failure) : Prop :=
  (∃ id < n, job.create id = .error e) ∨
    ∃ site ∈ job.sites, ∃ o, (job.decideSite site o).1 = .error e

namespace Worker

variable {w w' : Worker σ} {s s' : Shared} {f : Option Failure}

/-- A worker of `n` that is about to decide a site of the job, if any. -/
def Grounded (job : Job σ) (n : Nat) : Worker σ → Prop
  | .starting id => id < n
  | .deciding _ _ site => site ∈ job.sites
  | _ => True

theorem Move.fatal (h : Move job w s w' s' f) : s'.fatal = s.fatal.or f := by
  cases h with
  | refuse => rfl
  | fail => rfl
  | _ => exact Option.or_none.symm

theorem Move.aborted (h : Move job w s w' s' f) : s'.aborted = (s.aborted || f.isSome) := by
  cases h with
  | refuse => exact (Bool.or_true _).symm
  | fail => exact (Bool.or_true _).symm
  | _ => exact (Bool.or_false _).symm

theorem Move.grounded {n : Nat} (h : Move job w s w' s' f) (hw : w.Grounded job n) :
    w'.Grounded job n ∧ ∀ e ∈ f, job.Raises n e := by
  cases h with
  | refuse hcreate => exact ⟨trivial, by rintro _ ⟨⟩; exact .inl ⟨_, hw, hcreate⟩⟩
  | locate hsite => exact ⟨List.mem_of_getElem? hsite, by simp⟩
  | fail hfail => exact ⟨trivial, by rintro _ ⟨⟩; exact .inr ⟨_, hw, _, congrArg Prod.fst hfail⟩⟩
  | _ => exact ⟨trivial, by simp⟩

end Worker

namespace Pool

variable {p q : Pool σ}

/-- The failure on record is the first that was met, and the flag is up if there is one. -/
structure Recorded (p : Pool σ) : Prop where
  first : p.shared.fatal = p.met.head?
  flag : p.shared.aborted = p.met.head?.isSome

/-- What the workers do and what they have met comes from the job. -/
structure Grounded (job : Job σ) (n : Nat) (p : Pool σ) : Prop where
  workers : ∀ w ∈ p.workers, w.Grounded job n
  met : ∀ e ∈ p.met, job.Raises n e

theorem Step.recorded (h : Step job p q) (hp : p.Recorded) : q.Recorded := by
  obtain ⟨before, w, after, s, met⟩ := h
  have hmove := w.move_step job s
  have hhead : (met ++ (w.failure? job).toList).head? = met.head?.or (w.failure? job) := by
    rw [List.head?_append, Option.head?_toList]
  constructor
  · rw [hhead, ← hp.first]
    exact hmove.fatal
  · rw [hhead, Option.isSome_or, ← hp.flag]
    exact hmove.aborted

/-- What holds of all workers still does when one of them is replaced. -/
theorem forall_replaced {P Q : Worker σ → Prop} {before after : List (Worker σ)}
    {w w' : Worker σ} (h : ∀ u ∈ before ++ w :: after, P u) (hPQ : ∀ u, P u → Q u) (hw : Q w') :
    ∀ u ∈ before ++ w' :: after, Q u := by
  rw [List.forall_mem_append, List.forall_mem_cons] at h ⊢
  obtain ⟨hbefore, -, hafter⟩ := h
  exact ⟨fun u hu => hPQ u (hbefore u hu), hw, fun u hu => hPQ u (hafter u hu)⟩

theorem Step.grounded {n : Nat} (h : Step job p q) (hp : p.Grounded job n) :
    q.Grounded job n := by
  obtain ⟨before, w, after, s, met⟩ := h
  obtain ⟨hw, hfailure⟩ := (w.move_step job s).grounded (hp.workers w (by simp))
  refine ⟨forall_replaced hp.workers (fun _ hu => hu) hw, ?_⟩
  rw [List.forall_mem_append]
  exact ⟨hp.met, fun e he => hfailure e (Option.mem_toList.mp he)⟩

end Pool

/-! ## 4. Places -/

/-- The verdict is one that the site at the place can get. -/
def Job.Decides (job : Job σ) (i : Nat) (v : Verdict) : Prop :=
  ∃ site o, job.sites[i]? = some site ∧ (job.decideSite site o).1 = .ok v

/-- The places whose verdicts have been submitted. -/
def Shared.places (s : Shared) : List Nat := s.submitted.entries.map Prod.fst

namespace Worker

variable {w w' : Worker σ} {s s' : Shared}

/-- The place a worker has taken and not submitted. -/
def held : Worker σ → List Nat
  | .locating _ i => [i]
  | .deciding _ i _ => [i]
  | _ => []

/-- What a worker is about fits the job and the cursor, if no worker has failed. -/
def Fits (job : Job σ) (cursor : Nat) : Worker σ → Prop
  | .locating _ i => i < cursor
  | .deciding _ i site => job.sites[i]? = some site
  | .closing _ => job.sites.length ≤ cursor
  | .ended => job.sites.length ≤ cursor
  | _ => True

theorem Fits.mono {c c' : Nat} (hc : c ≤ c') (h : w.Fits job c) : w.Fits job c' := by
  cases w with
  | locating o i => exact Nat.lt_of_lt_of_le h hc
  | deciding o i site => exact h
  | closing o => exact Nat.le_trans h hc
  | ended => exact Nat.le_trans h hc
  | _ => trivial

theorem Move.cursor_le {f : Option Failure} (h : Move job w s w' s' f) : s.cursor ≤ s'.cursor := by
  cases h with
  | claim => exact Nat.le_succ _
  | _ => exact Nat.le_refl _

theorem Move.fits (h : Move job w s w' s' none) (hs : s.aborted = false)
    (hw : w.Fits job s.cursor) : w'.Fits job s'.cursor := by
  cases h with
  | create => trivial
  | pass => trivial
  | stop hstop =>
    -- A worker stops early only after a failure.
    exact absurd (hs.symm.trans hstop) (by decide)
  | claim => exact Nat.lt_succ_self _
  | locate hsite => exact hsite
  | overrun hover => exact Nat.le_trans hover (Nat.le_of_lt hw)
  | submit => trivial
  | close => exact hw
  | rest => exact hw

/-- **No place gets lost or is taken twice**: what a step moves from the workers to the submitted
places, or takes from the cursor, it accounts for. -/
theorem Move.count {i : Nat} (h : Move job w s w' s' none) (hi : i < job.sites.length) :
    w'.held.count i + s'.places.count i + (if i < s.cursor then 1 else 0)
      = w.held.count i + s.places.count i + if i < s'.cursor then 1 else 0 := by
  cases h with
  | claim =>
    simp only [held, Shared.places, List.count_singleton, List.count_nil, beq_iff_eq]
    split_ifs <;> omega
  | @overrun _ j _ hover =>
    -- A place past the last site is given up, but it is none of those counted.
    have hne : i ∉ [j] := by
      rw [List.mem_singleton]
      omega
    simp only [held, List.count_eq_zero.mpr hne, List.count_nil]
  | submit =>
    simp only [held, Shared.places, Submissions.submit, List.map_append, List.count_append,
      List.map_cons, List.map_nil, List.count_nil]
    omega
  | _ => rfl

theorem Move.decides (h : Move job w s w' s' none) (hw : w.Fits job s.cursor)
    (hs : ∀ e ∈ s.submitted.entries, job.Decides e.1 e.2) :
    ∀ e ∈ s'.submitted.entries, job.Decides e.1 e.2 := by
  cases h with
  | submit hdecide =>
    simp only [Submissions.submit, List.forall_mem_append, List.forall_mem_singleton]
    exact ⟨hs, _, _, hw, congrArg Prod.fst hdecide⟩
  | _ => exact hs

end Worker

namespace Pool

variable {p q : Pool σ}

/-- Every place before the cursor is with one worker or has been submitted once, for the site
that is there. -/
structure Accounted (job : Job σ) (p : Pool σ) : Prop where
  fits : ∀ w ∈ p.workers, w.Fits job p.shared.cursor
  once : ∀ i < job.sites.length, (p.workers.flatMap Worker.held).count i + p.shared.places.count i
    = if i < p.shared.cursor then 1 else 0
  decides : ∀ e ∈ p.shared.submitted.entries, job.Decides e.1 e.2

/-- A step after which no worker has failed: none had before, and the one that moved did not. -/
theorem Step.exists_move (h : Step job p q) (hq : q.met = []) :
    ∃ before w w' after s s', p = ⟨before ++ w :: after, s, []⟩ ∧
      q = ⟨before ++ w' :: after, s', []⟩ ∧ Worker.Move job w s w' s' none := by
  obtain ⟨before, w, after, s, met⟩ := h
  obtain ⟨rfl, hnone⟩ := List.append_eq_nil_iff.mp hq
  have hmove := w.move_step job s
  rw [Option.toList_eq_nil_iff.mp hnone] at hmove
  exact ⟨before, w, _, after, s, _, rfl, by rw [hnone, List.append_nil], hmove⟩

theorem Step.accounted (h : Step job p q) (hq : q.met = []) (hrec : p.Recorded)
    (hp : p.Accounted job) : q.Accounted job := by
  obtain ⟨before, w, w', after, s, s', rfl, rfl, hmove⟩ := h.exists_move hq
  have hfits : w.Fits job s.cursor := hp.fits w (by simp)
  constructor
  · exact forall_replaced hp.fits (fun _ hu => hu.mono hmove.cursor_le) (hmove.fits hrec.flag hfits)
  · -- The other workers hold what they held, so it comes down to the one that moved.
    intro i hi
    have honce := hp.once i hi
    have hcount := hmove.count hi
    simp only [List.flatMap_append, List.flatMap_cons, List.count_append] at honce ⊢
    omega
  · exact hmove.decides hfits hp.decides

end Pool

/-! ## 5. Counts -/

namespace Job

/-- What is counted for a site by an oracle that has counted nothing yet. -/
def cost (job : Job σ) (state : σ) (site : Site) : Stats :=
  (job.decideSite site ⟨state, {}⟩).2.stats

/-- What is counted for the site at a place. -/
def costAt (job : Job σ) (state : σ) (i : Nat) : Stats :=
  job.sites[i]?.elim 0 (job.cost state)

/-- A backend that remembers nothing decides a site as a new one would. -/
theorem decideSite_of_stateless (hb : job.backend.Stateless) (state : σ) (site : Site)
    (o : Oracle σ) :
    (job.decideSite site o).1 = (job.decideSite site ⟨state, {}⟩).1 ∧
      (job.decideSite site o).2.stats = o.stats + job.cost state site := by
  obtain ⟨result, q, q', hq, hq', cost, hcost, hcost'⟩ :=
    Site.uniform_analyzeOrUnknown hb job.semantics job.patterns site o ⟨state, {}⟩
  have hnew : q'.stats = cost := hcost'.trans (zero_add cost)
  unfold Job.cost decideSite
  rw [hq, hq']
  exact ⟨rfl, by rw [hcost, hnew]⟩

end Job

namespace Worker

variable {w w' : Worker σ} {s s' : Shared}

/-- What a worker has counted and not handed in. -/
def stats : Worker σ → Stats
  | .polling o => o.stats
  | .claiming o => o.stats
  | .locating o _ => o.stats
  | .deciding o _ _ => o.stats
  | .closing o => o.stats
  | _ => 0

/-- **Nothing is counted but for what is submitted**, and handing in changes no sum. -/
theorem Move.stats (hb : job.backend.Stateless) (state : σ) (h : Move job w s w' s' none)
    (hw : w.Fits job s.cursor) :
    ∃ new, s'.places = s.places ++ new ∧
      w'.stats + s'.stats = w.stats + s.stats + (new.map (job.costAt state)).sum := by
  cases h with
  | @submit o o' i site v _ hdecide =>
    have hcost : o'.stats = o.stats + job.cost state site := by
      have hdecided := (job.decideSite_of_stateless hb state site o).2
      rwa [hdecide] at hdecided
    have hat : job.costAt state i = job.cost state site := by
      have hsite : job.sites[i]? = some site := hw
      rw [Job.costAt, hsite, Option.elim_some]
    refine ⟨[i], by simp only [Shared.places, Submissions.submit, List.map_append, List.map_cons,
      List.map_nil], ?_⟩
    simp only [Worker.stats, List.map_cons, List.map_nil, List.sum_cons, List.sum_nil, hcost, hat]
    abel
  | close =>
    refine ⟨[], (List.append_nil _).symm, ?_⟩
    simp only [Worker.stats, Stats.merge_eq_add, List.map_nil, List.sum_nil]
    abel
  | _ => exact ⟨[], (List.append_nil _).symm, (add_zero _).symm⟩

end Worker

namespace Pool

variable {p q : Pool σ}

/-- What the workers have counted and handed in is what the submitted sites cost. -/
def Counted (job : Job σ) (state : σ) (p : Pool σ) : Prop :=
  (p.workers.map Worker.stats).sum + p.shared.stats
    = (p.shared.places.map (job.costAt state)).sum

theorem Step.counted (hb : job.backend.Stateless) {state : σ} (h : Step job p q) (hq : q.met = [])
    (hacc : p.Accounted job) (hp : p.Counted job state) : q.Counted job state := by
  obtain ⟨before, w, w', after, s, s', rfl, rfl, hmove⟩ := h.exists_move hq
  obtain ⟨new, hplaces, hstats⟩ := hmove.stats hb state (hacc.fits w (by simp))
  unfold Counted at hp ⊢
  simp only [List.map_append, List.map_cons, List.sum_append, List.sum_cons] at hp ⊢
  rw [hplaces, List.map_append, List.sum_append, ← hp]
  generalize (before.map Worker.stats).sum = b
  generalize (after.map Worker.stats).sum = a
  calc b + (w'.stats + a) + s'.stats
      = b + a + (w'.stats + s'.stats) := by abel
    _ = b + a + (w.stats + s.stats + (new.map (job.costAt state)).sum) := by rw [hstats]
    _ = b + (w.stats + a) + s.stats + (new.map (job.costAt state)).sum := by abel

end Pool

/-! ## 6. Runs -/

namespace Pool

variable {p q : Pool σ} {n : Nat}

/-- What holds of the pools that `n` workers can reach. -/
structure Sound (job : Job σ) (n : Nat) (p : Pool σ) : Prop where
  size : p.workers.length = n
  recorded : p.Recorded
  grounded : p.Grounded job n
  accounted : p.met = [] → p.Accounted job
  counted : p.met = [] → job.backend.Stateless → ∀ state, p.Counted job state

/-- What holds of every worker that has yet to start holds of the workers at the start. -/
theorem forall_start {P : Worker σ → Prop} (h : ∀ id < n, P (.starting id)) :
    ∀ w ∈ (start n).workers, P w := by
  intro w hw
  obtain ⟨id, hid, rfl⟩ := List.mem_map.mp hw
  exact h id (List.mem_range.mp hid)

theorem sound_start (job : Job σ) (n : Nat) : (start n).Sound job n where
  size := by rw [start, List.length_map, List.length_range]
  recorded := ⟨rfl, rfl⟩
  grounded := ⟨forall_start fun _ hid => hid, by simp [start]⟩
  accounted _ := by
    refine ⟨forall_start fun _ _ => trivial, fun i _ => ?_, by simp [start]⟩
    rw [List.flatMap_eq_nil_iff.mpr (forall_start fun _ _ => rfl)]
    rfl
  counted _ _ state := by
    rw [Counted, List.sum_eq_zero (List.forall_mem_map.mpr (forall_start fun _ _ => rfl))]
    rfl

theorem Step.sound (h : Step job p q) (hp : p.Sound job n) : q.Sound job n := by
  -- Whatever holds only without failures was so before the step.
  have hbefore : q.met = [] → p.met = [] := by
    intro hq
    obtain ⟨_, _, _, _, _, _, rfl, -, -⟩ := h.exists_move hq
    rfl
  constructor
  · obtain ⟨before, w, after, s, met⟩ := h
    simpa using hp.size
  · exact h.recorded hp.recorded
  · exact h.grounded hp.grounded
  · intro hq
    exact h.accounted hq hp.recorded (hp.accounted (hbefore hq))
  · intro hq hb state
    exact h.counted hb hq (hp.accounted (hbefore hq)) (hp.counted (hbefore hq) hb state)

/-- **However the steps of `n` workers are interleaved**, the pool stays sound. -/
theorem Reaches.sound (h : Reaches job (start n) p) : p.Sound job n := by
  unfold Reaches at h
  induction h with
  | refl => exact sound_start job n
  | tail _ hstep ih => exact hstep.sound ih

end Pool

end SinkReach
