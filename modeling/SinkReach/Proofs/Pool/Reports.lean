/-
# What a run reports

Whatever the interleaving, once all workers have ended nothing is held and the cursor is past the
last site.  If no worker failed, then, every place has been submitted once, and putting the
verdicts in the order of their places puts them in the order of the sites
(`Submissions.map_finalize`).

The run that lets one worker after the other work to its end is one of the interleavings
(`Pool.exists_reaches_run`); no worker goes on forever, as each step leaves it fewer to take
(`Worker.Move.remaining`).
-/
import SinkReach.Proofs.Builders
import SinkReach.Proofs.Pool.Interleaving
import SinkReach.Proofs.Verdicts

namespace SinkReach

variable {σ : Type} {job : Job σ}

/-! ## 1. The end of a run -/

namespace Pool

variable {p : Pool σ}

/-- When all workers have ended without a failure, every place has been submitted once. -/
theorem Accounted.places_perm (h : p.Accounted job) (hend : p.Ended)
    (hsize : 1 ≤ p.workers.length) : p.shared.places.Perm (List.range job.sites.length) := by
  obtain ⟨w, hw⟩ := List.exists_mem_of_length_pos hsize
  have hcursor : job.sites.length ≤ p.shared.cursor := by
    have hfits := h.fits w hw
    rwa [hend w hw] at hfits
  have hheld : p.workers.flatMap Worker.held = [] :=
    List.flatMap_eq_nil_iff.mpr fun u hu => by rw [hend u hu]; rfl
  refine List.perm_iff_count.mpr fun i => ?_
  by_cases hi : i < job.sites.length
  · have honce := h.once i hi
    rw [hheld, List.count_nil, if_pos (by omega), zero_add] at honce
    rw [honce, List.count_eq_one_of_mem List.nodup_range (List.mem_range.mpr hi)]
  · -- A place past the last site cannot have been submitted: there is nothing to decide there.
    rw [List.count_eq_zero.mpr (mt List.mem_range.mp hi)]
    refine List.count_eq_zero.mpr fun hmem => ?_
    obtain ⟨e, he, rfl⟩ := List.mem_map.mp hmem
    obtain ⟨site, o, hsite, -⟩ := h.decides e he
    exact hi (List.getElem?_eq_some_iff.mp hsite).1

end Pool

namespace Submissions

/-- **The report follows the sites**, whatever the order in which the verdicts arrived. -/
theorem map_finalize {β : Type} {subs : Submissions} {sites : List Site} {f : Verdict → β}
    {g : Site → β} (hperm : (subs.entries.map Prod.fst).Perm (List.range sites.length))
    (hfg : ∀ e ∈ subs.entries, ∃ site, sites[e.1]? = some site ∧ f e.2 = g site) :
    subs.finalize.verdicts.map f = sites.map g := by
  obtain ⟨hentries, horder, -⟩ := subs.arranged_sorted
  have hplaces : subs.sorted.map Prod.fst = List.range sites.length :=
    List.Perm.eq_of_pairwise (fun _ _ _ _ => Nat.le_antisymm) (List.pairwise_map.mpr horder)
      List.pairwise_le_range ((hentries.map _).trans hperm)
  have hlength : subs.sorted.length = sites.length := by simpa using congrArg List.length hplaces
  rw [verdicts_finalize, List.map_map]
  refine List.ext_getElem (by simpa using hlength) fun k hk hk' => ?_
  rw [List.length_map] at hk hk'
  have hplace : subs.sorted[k].1 = k := by
    have hget := List.getElem_of_eq hplaces (by simpa using hk)
    simpa using hget
  obtain ⟨site, hsite, heq⟩ := hfg subs.sorted[k] (hentries.subset (List.getElem_mem hk))
  rw [hplace, List.getElem?_eq_getElem hk'] at hsite
  simp only [List.getElem_map, Function.comp_apply, heq, Option.some.inj hsite]

end Submissions

theorem Finding.site_verdict (site : Site) (finding : Finding) :
    (finding.verdict site).site = site.id := by
  unfold verdict
  split <;> rfl

/-- A verdict is about the site it was asked for. -/
theorem Job.site_of_decideSite {site : Site} {o : Oracle σ} {v : Verdict}
    (h : (job.decideSite site o).1 = .ok v) : v.site = site.id := by
  have habsorb : site.absorb (site.analyze job.backend job.semantics job.patterns o).1 = .ok v := h
  unfold Site.absorb at habsorb
  split at habsorb
  · obtain rfl := Except.ok.inj habsorb
    rfl
  · obtain rfl := Except.ok.inj habsorb
    rfl
  · obtain ⟨-, _, finding, -, -, rfl⟩ := Site.analyze_eq_ok habsorb
    exact finding.site_verdict site

/-- The counts at the places are the counts of the sites. -/
theorem Job.map_costAt_range (job : Job σ) (state : σ) :
    (List.range job.sites.length).map (job.costAt state) = job.sites.map (job.cost state) := by
  refine List.ext_getElem (by simp) fun k hk hk' => ?_
  rw [List.length_map] at hk'
  simp only [List.getElem_map, List.getElem_range, costAt, List.getElem?_eq_getElem hk',
    Option.elim_some]

/-- When all workers have ended they have handed in the counts of all submitted sites. -/
theorem Pool.Counted.stats_eq_sum {p : Pool σ} {state : σ} (h : p.Counted job state)
    (hend : p.Ended) (hplaces : p.shared.places.Perm (List.range job.sites.length)) :
    p.shared.stats = (job.sites.map (job.cost state)).sum := by
  have hworkers : (p.workers.map Worker.stats).sum = 0 :=
    List.sum_eq_zero fun c hc => by
      obtain ⟨w, hw, rfl⟩ := List.mem_map.mp hc
      rw [hend w hw]
      rfl
  calc p.shared.stats
      = (p.workers.map Worker.stats).sum + p.shared.stats := by rw [hworkers, zero_add]
    _ = (p.shared.places.map (job.costAt state)).sum := h
    _ = ((List.range job.sites.length).map (job.costAt state)).sum := (hplaces.map _).sum_eq
    _ = (job.sites.map (job.cost state)).sum := by rw [job.map_costAt_range]

/-! ## 2. One worker after the other

The run that lets each worker work to its end before the next one starts is one of the
interleavings: each worker does end, since it has a bounded number of steps left. -/

namespace Worker

variable {w w' : Worker σ} {s s' : Shared}

/-- A bound on the steps that a worker has left. -/
def remaining (job : Job σ) (cursor : Nat) : Worker σ → Nat
  | .starting _ => 4 * (job.sites.length - cursor) + 5
  | .polling _ => 4 * (job.sites.length - cursor) + 4
  | .claiming _ => 4 * (job.sites.length - cursor) + 3
  | .locating _ i => if i < job.sites.length then 4 * (job.sites.length - cursor) + 6 else 2
  | .deciding _ _ _ => 4 * (job.sites.length - cursor) + 5
  | .closing _ => 1
  | .ended => 0

theorem Move.remaining {f : Option Failure} (h : Move job w s w' s' f) :
    w'.remaining job s'.cursor ≤ w.remaining job s.cursor - 1 := by
  cases h with
  | claim =>
    -- The place taken is where the cursor was: there is one site less to take, or none is left.
    simp only [Worker.remaining]
    split
    · omega
    · omega
  | locate hsite =>
    have hlt := (List.getElem?_eq_some_iff.mp hsite).1
    simp only [Worker.remaining, if_pos hlt]
    omega
  | overrun hover =>
    simp only [Worker.remaining, if_neg (Nat.not_lt.mpr hover)]
    omega
  | _ =>
    simp only [Worker.remaining]
    omega

theorem eq_ended_of_remaining {c : Nat} (h : w.remaining job c = 0) : w = .ended := by
  cases w with
  | ended => rfl
  | locating o i => grind [Worker.remaining]
  | _ => simp [Worker.remaining] at h

/-- A worker that takes as many steps as it has left has ended. -/
theorem steps_of_remaining_le : ∀ (k : Nat) (w : Worker σ) (s : Shared),
    w.remaining job s.cursor ≤ k → (steps job k w s).1 = .ended
  | 0, w, s, h => eq_ended_of_remaining (Nat.le_zero.mp h)
  | k + 1, w, s, h => by
    have hstep := (w.move_step job s).remaining
    exact steps_of_remaining_le k (w.step job s).1 (w.step job s).2 (by omega)

end Worker

namespace Pool

/-- The steps of one worker are steps of the pool. -/
theorem reaches_steps (job : Job σ) (before after : List (Worker σ)) :
    ∀ (k : Nat) (w : Worker σ) (s : Shared) (met : List Failure),
      ∃ met', Reaches job ⟨before ++ w :: after, s, met⟩
        ⟨before ++ (Worker.steps job k w s).1 :: after, (Worker.steps job k w s).2, met'⟩
  | 0, w, s, met => ⟨met, .refl⟩
  | k + 1, w, s, met => by
    obtain ⟨met', hrest⟩ := reaches_steps job before after k (w.step job s).1 (w.step job s).2
      (met ++ (w.failure? job).toList)
    exact ⟨met', .head (.turn before w after s met) hrest⟩

/-- Workers that start when all before them have ended leave what `Job.run` ends with. -/
theorem exists_reaches_foldl (job : Job σ) : ∀ (ids : List Nat) (before : List (Worker σ))
    (s : Shared) (met : List Failure), (∀ w ∈ before, w = .ended) →
      ∃ p, Reaches job ⟨before ++ ids.map .starting, s, met⟩ p ∧ p.Ended ∧
        p.shared = ids.foldl job.runWorker s
  | [], before, s, met, hbefore => ⟨_, .refl, by simpa [Ended] using hbefore, rfl⟩
  | id :: ids, before, s, met, hbefore => by
    obtain ⟨met', hworker⟩ := reaches_steps job before (ids.map .starting) job.stepBound
      (.starting id) s met
    have hended : (Worker.steps job job.stepBound (.starting id) s).1 = .ended := by
      refine Worker.steps_of_remaining_le _ _ _ ?_
      simp only [Worker.remaining, Job.stepBound]
      omega
    rw [hended, List.append_cons before .ended] at hworker
    have hdone : ∀ w ∈ before ++ [.ended], w = .ended :=
      List.forall_mem_append.mpr ⟨hbefore, by simp⟩
    obtain ⟨p, hrest, hend, hshared⟩ :=
      exists_reaches_foldl job ids (before ++ [.ended]) (job.runWorker s id) met' hdone
    exact ⟨p, Relation.ReflTransGen.trans hworker hrest, hend, hshared⟩

/-- **A run is an interleaving.** -/
theorem exists_reaches_run (hsites : job.sites ≠ []) (workers : Nat) :
    ∃ p, Reaches job (start (max 1 (min workers job.sites.length))) p ∧ p.Ended ∧
      p.shared.result = job.run workers := by
  obtain ⟨p, hreach, hend, hshared⟩ := exists_reaches_foldl job
    (List.range (max 1 (min workers job.sites.length))) [] {} [] (by simp)
  refine ⟨p, hreach, hend, ?_⟩
  rw [Job.run, if_neg (by simpa using hsites), hshared]

end Pool

/-! ## 3. What is reported -/

namespace Pool

variable {p : Pool σ} {n : Nat}

/-- **Nothing is lost, duplicated or reordered**, however the workers are interleaved.  If none of
them fails, the report has the verdicts on the sites in the order of the sites; with a backend that
remembers nothing they are the verdicts on each site by itself, and the counts are those of the
sites by themselves.  If any of them fails, what is handed back is a failure that one of them met.
The run of a job is one of these interleavings. -/
theorem interleavings_report_every_site (hsites : job.sites ≠ []) (hn : 1 ≤ n)
    (hrun : Reaches job (start n) p) (hend : p.Ended) :
    (p.met = [] → ∃ report stats, p.shared.result = .ok (report, stats) ∧
      report.verdicts.map (·.site) = job.sites.map (·.id) ∧
      (job.backend.Stateless → ∀ state,
        report.verdicts.map .ok
            = job.sites.map (fun site => (job.decideSite site ⟨state, {}⟩).1) ∧
          stats = (job.sites.map fun site => (job.decideSite site ⟨state, {}⟩).2.stats).sum)) ∧
    (p.met ≠ [] → ∃ e, p.met.head? = some e ∧ p.shared.result = .error e ∧ job.Raises n e) ∧
    ∀ workers, ∃ q, Reaches job (start (max 1 (min workers job.sites.length))) q ∧ q.Ended ∧
      q.shared.result = job.run workers := by
  have hsound := hrun.sound
  refine ⟨fun hmet => ?_, fun hmet => ?_, exists_reaches_run hsites⟩
  · have hacc := hsound.accounted hmet
    have hplaces := hacc.places_perm hend (hsound.size ▸ hn)
    refine ⟨p.shared.submitted.finalize, p.shared.stats, ?_, ?_, fun hb state => ⟨?_, ?_⟩⟩
    · rw [Shared.result, hsound.recorded.first, hmet]
      rfl
    · refine Submissions.map_finalize hplaces fun e he => ?_
      obtain ⟨site, o, hsite, hdecide⟩ := hacc.decides e he
      exact ⟨site, hsite, Job.site_of_decideSite hdecide⟩
    · refine Submissions.map_finalize hplaces fun e he => ?_
      obtain ⟨site, o, hsite, hdecide⟩ := hacc.decides e he
      exact ⟨site, hsite, hdecide.symm.trans (Job.decideSite_of_stateless hb state site o).1⟩
    · exact (hsound.counted hmet hb state).stats_eq_sum hend hplaces
  · obtain ⟨e, he⟩ := Option.isSome_iff_exists.mp (List.isSome_head?.mpr hmet)
    refine ⟨e, he, ?_, hsound.grounded.met e (List.mem_of_head? he)⟩
    rw [Shared.result, hsound.recorded.first, he]

/-- The worker at a place among the workers takes a step, if there is one. -/
def turn (job : Job σ) (p : Pool σ) (k : Nat) : Pool σ :=
  match p.workers.drop k with
  | [] => p
  | w :: after =>
    ⟨p.workers.take k ++ (w.step job p.shared).1 :: after, (w.step job p.shared).2,
      p.met ++ (w.failure? job).toList⟩

/-- Workers that take turns as they are called are interleaved. -/
theorem reaches_turns (job : Job σ) : ∀ (schedule : List Nat) (p : Pool σ),
    Reaches job p (schedule.foldl (turn job) p)
  | [], p => .refl
  | k :: ks, p => by
    refine Relation.ReflTransGen.trans ?_ (reaches_turns job ks (p.turn job k))
    unfold turn
    cases hdrop : p.workers.drop k with
    | nil => exact .refl
    | cons w after =>
      obtain ⟨workers, s, met⟩ := p
      have hsplit : workers = workers.take k ++ w :: after := by
        rw [← hdrop, List.take_append_drop]
      have hstep : Step job ⟨workers.take k ++ w :: after, s, met⟩ _ := .turn _ w after s met
      rw [← hsplit] at hstep
      exact .single hstep

/-- Two writes, the first of which only a backend can decide. -/
def twoWrites (create : Nat → Except Failure Unit) : Job Unit where
  backend := .constant (.ok .unsat)
  create := create
  semantics := .unbounded
  patterns := ⟨[⟨"dev", [.literal "/dev/mem"], .exact, [], none⟩]⟩
  sites := [⟨{ function := "write", span := "main:3" }, .stringVar "path", []⟩,
    ⟨{ function := "write", span := "main:4" }, .str "/dev/mem", []⟩]

/-- The worker that takes the second site submits first, and both overrun the cursor. -/
def crossing : Pool Unit :=
  [0, 1, 0, 1, 0, 1, 1, 1, 0, 0, 0, 0, 0, 1, 1, 1, 1, 0].foldl (turn (twoWrites fun _ => .ok ()))
    (start 2)

/-- The second worker has no backend, which it finds while the first has a site to decide. -/
def understaffed : Pool Unit :=
  [0, 0, 0, 1, 0, 0, 0, 0].foldl
    (turn (twoWrites fun id => if id = 0 then .ok () else .error Backend.unavailable)) (start 2)

/-- The report of `crossing` is in order and the counts are those of the two sites; of
`understaffed` there is none, although a verdict was submitted. -/
theorem interleavings_report_every_site_crossing :
    (crossing.Ended ∧ crossing.met = [] ∧ crossing.shared.places = [1, 0] ∧
      ∃ report stats, crossing.shared.result = .ok (report, stats) ∧
        report.verdicts.map (·.site)
          = [{ function := "write", span := "main:3" }, { function := "write", span := "main:4" }] ∧
        stats = ⟨2, 1, 1, 0⟩) ∧
    understaffed.Ended ∧ understaffed.met = [Backend.unavailable] ∧
      understaffed.shared.places = [0] ∧
      understaffed.shared.result = .error Backend.unavailable := by
  have hended : ∀ p : Pool Unit, p.workers = [.ended, .ended] → p.Ended := by
    intro p hp w hw
    rw [hp] at hw
    simpa using hw
  constructor
  · have hcrossed := hended crossing (by with_unfolding_all rfl)
    have hmet : crossing.met = [] := by with_unfolding_all rfl
    have hrun : Reaches (twoWrites fun _ => .ok ()) (start 2) crossing := reaches_turns _ _ _
    obtain ⟨hreport, -, -⟩ :=
      interleavings_report_every_site (by simp [twoWrites]) (by decide) hrun hcrossed
    obtain ⟨report, stats, hresult, hsites, hstateless⟩ := hreport hmet
    obtain ⟨-, hstats⟩ := hstateless (fun _ _ _ _ => rfl) ()
    refine ⟨hcrossed, hmet, by with_unfolding_all rfl, report, stats, hresult, hsites, ?_⟩
    rw [hstats]
    with_unfolding_all rfl
  · have hstopped := hended understaffed (by with_unfolding_all rfl)
    have hmet : understaffed.met = [Backend.unavailable] := by with_unfolding_all rfl
    have hrun : Reaches (twoWrites fun id => if id = 0 then .ok () else .error Backend.unavailable)
        (start 2) understaffed := reaches_turns _ _ _
    obtain ⟨-, hfailed, -⟩ :=
      interleavings_report_every_site (by simp [twoWrites]) (by decide) hrun hstopped
    obtain ⟨e, he, hresult, -⟩ := hfailed (by rw [hmet]; simp)
    rw [hmet] at he
    obtain rfl := Option.some.inj he
    exact ⟨hstopped, hmet, by with_unfolding_all rfl, hresult⟩

end Pool

end SinkReach
