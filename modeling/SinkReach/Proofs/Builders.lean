/-
# The two builders of reports

One builder takes verdicts in the order of the report, the other takes them in any order, each with
the place of its site, and puts them in order at the end.  Places need not be given once only, nor
all of them: what the second builder makes of its calls is the ARRANGEMENT of the calls by place,
where those of one place stay as they came (`Arranged`).

* `Arranged.unique`: there is only one arrangement, so `Arranged` says all there is to say;
* `Submissions.arranged_sorted`: the second builder arranges its calls;
* `eq_of_nodup`: where no place is given twice, the order in which the calls came is lost altogether.

So the first builder makes the same report of the verdicts in the order of their places.
-/
import SinkReach.Proofs.Sorting
import SinkReach.Report

namespace SinkReach

/-! ## 1. Arrangements -/

/-- The calls by place, those of one place as they came. -/
structure Arranged (ordered calls : List (Nat × Verdict)) : Prop where
  perm : ordered.Perm calls
  increasing : ordered.Pairwise fun a b => a.1 ≤ b.1
  stable : ∀ i, ordered.filter (·.1 = i) = calls.filter (·.1 = i)

/-- Lists that agree on every place have the same elements. -/
theorem mem_of_filter_eq {l l' : List (Nat × Verdict)}
    (h : ∀ i, l.filter (·.1 = i) = l'.filter (·.1 = i)) {e : Nat × Verdict} (he : e ∈ l) : e ∈ l' := by
  have hmem : e ∈ l.filter (·.1 = e.1) := List.mem_filter.mpr ⟨he, by simp⟩
  rw [h] at hmem
  exact List.mem_of_mem_filter hmem

/-- In a list by place the first element has the least place. -/
theorem le_of_mem_increasing {a e : Nat × Verdict} {l : List (Nat × Verdict)}
    (h : (a :: l).Pairwise fun a b => a.1 ≤ b.1) (he : e ∈ a :: l) : a.1 ≤ e.1 := by
  rcases List.mem_cons.mp he with rfl | he
  · exact Nat.le_refl _
  · exact (List.pairwise_cons.mp h).1 e he

/-- **Lists by place that agree on every place are the same.** -/
theorem eq_of_filter_eq {l l' : List (Nat × Verdict)} (hl : l.Pairwise fun a b => a.1 ≤ b.1)
    (hl' : l'.Pairwise fun a b => a.1 ≤ b.1)
    (h : ∀ i, l.filter (·.1 = i) = l'.filter (·.1 = i)) : l = l' := by
  induction l generalizing l' with
  | nil =>
    refine (List.eq_nil_iff_forall_not_mem.mpr fun e he => ?_).symm
    exact List.not_mem_nil (mem_of_filter_eq (fun i => (h i).symm) he)
  | cons a t ih =>
    cases l' with
    | nil => exact absurd (mem_of_filter_eq h (List.mem_cons_self ..)) List.not_mem_nil
    | cons b t' =>
      have hba : b.1 ≤ a.1 := le_of_mem_increasing hl' (mem_of_filter_eq h (List.mem_cons_self ..))
      have hab : a.1 ≤ b.1 :=
        le_of_mem_increasing hl (mem_of_filter_eq (fun i => (h i).symm) (List.mem_cons_self ..))
      have hplace : b.1 = a.1 := Nat.le_antisymm hba hab
      -- both lists begin with their first element at this place
      have hfirst := h a.1
      rw [List.filter_cons_of_pos (by simp), List.filter_cons_of_pos (by simp [hplace])] at hfirst
      obtain ⟨rfl, hrest⟩ := List.cons.inj hfirst
      have htails : ∀ i, t.filter (·.1 = i) = t'.filter (·.1 = i) := by
        intro i
        by_cases hi : a.1 = i
        · rw [← hi]
          exact hrest
        · have hother := h i
          rwa [List.filter_cons_of_neg (by simpa using hi),
            List.filter_cons_of_neg (by simpa using hi)] at hother
      rw [ih (List.pairwise_cons.mp hl).2 (List.pairwise_cons.mp hl').2 htails]

/-- **There is one arrangement.** -/
theorem Arranged.unique {ordered other calls : List (Nat × Verdict)} (h : Arranged ordered calls)
    (h' : Arranged other calls) : other = ordered :=
  eq_of_filter_eq h'.increasing h.increasing fun i => (h'.stable i).trans (h.stable i).symm

/-- Where no place is given twice, lists by place of the same calls are the same. -/
theorem eq_of_nodup {l l' calls : List (Nat × Verdict)} (hdistinct : (calls.map Prod.fst).Nodup)
    (hperm : l.Perm calls) (hperm' : l'.Perm calls) (hl : l.Pairwise fun a b => a.1 ≤ b.1)
    (hl' : l'.Pairwise fun a b => a.1 ≤ b.1) : l = l' := by
  refine List.Perm.eq_of_pairwise ?_ hl hl' (hperm.trans hperm'.symm)
  intro a b ha hb hab hba
  exact List.inj_on_of_nodup_map hdistinct (hperm.subset ha) (hperm'.subset hb)
    (Nat.le_antisymm hab hba)

/-! ## 2. The builder that appends -/

namespace Reporter

/-- Takes verdicts one after the other. -/
def ofVerdicts (verdicts : List Verdict) : Reporter := verdicts.foldl append {}

theorem verdicts_foldl_append (vs : List Verdict) (r : Reporter) :
    (vs.foldl append r).verdicts = r.verdicts ++ vs := by
  induction vs generalizing r with
  | nil => exact (List.append_nil _).symm
  | cons v vs ih => rw [List.foldl_cons, ih, append, List.append_assoc, List.singleton_append]

/-- The report has the verdicts as they were taken. -/
theorem finalize_ofVerdicts (vs : List Verdict) : (ofVerdicts vs).finalize = ⟨vs⟩ :=
  congrArg Report.mk (verdicts_foldl_append vs {})

end Reporter

/-! ## 3. The builder that sorts -/

namespace Submissions

instance : Std.TransCmp fun a b : Nat × Verdict => compare a.1 b.1 :=
  inferInstanceAs (Std.TransCmp (compareOn Prod.fst))

/-- What was submitted, by place. -/
def sorted (s : Submissions) : List (Nat × Verdict) :=
  sortBy (fun a b => compare a.1 b.1) s.entries

theorem verdicts_finalize (s : Submissions) : s.finalize.verdicts = s.sorted.map Prod.snd := rfl

/-- **Sorting arranges what was submitted.** -/
theorem arranged_sorted (s : Submissions) : Arranged s.sorted s.entries where
  perm := sortBy_perm s.entries
  increasing := (pairwise_sortBy s.entries).imp Nat.isLE_compare.mp
  stable i := by
    refine filter_sortBy s.entries fun a b ha hb => ?_
    have hplace : a.1 = b.1 := (of_decide_eq_true ha).trans (of_decide_eq_true hb).symm
    exact Nat.isLE_compare.mpr hplace.le

/-- Takes verdicts with their places, one after the other. -/
def ofCalls (calls : List (Nat × Verdict)) : Submissions :=
  calls.foldl (fun s call => s.submit call.1 call.2) {}

theorem entries_foldl_submit (calls : List (Nat × Verdict)) (s : Submissions) :
    (calls.foldl (fun s call => s.submit call.1 call.2) s).entries = s.entries ++ calls := by
  induction calls generalizing s with
  | nil => exact (List.append_nil _).symm
  | cons call calls ih =>
    rw [List.foldl_cons, ih, submit, List.append_assoc, List.singleton_append]

theorem arranged_ofCalls (calls : List (Nat × Verdict)) : Arranged (ofCalls calls).sorted calls := by
  have hentries : (ofCalls calls).entries = calls := entries_foldl_submit calls {}
  have h := (ofCalls calls).arranged_sorted
  rwa [hentries] at h

/-- The other builder makes the same report of what is in order already. -/
theorem finalize_eq_of_sorted {s : Submissions} {ordered : List (Nat × Verdict)}
    (h : s.sorted = ordered) : (Reporter.ofVerdicts (ordered.map Prod.snd)).finalize = s.finalize := by
  rw [Reporter.finalize_ofVerdicts, ← h]
  rfl

/-! ## 4. The two reports -/

/-- **Verdicts that arrive in any order are reported in the order of their places.**

* Whatever the places, repeated or left out, the report has the arrangement of the calls: they are
  all there, by place, and those of one place as they came.  There is no other such list, and the
  builder that appends makes the same report of it.
* If no place is given twice, calls in any other order give the same report, and it is the one that
  appending the verdicts in the order of their places gives. -/
theorem places_restore_order (calls : List (Nat × Verdict)) :
    (∃ ordered, Arranged ordered calls ∧ (∀ other, Arranged other calls → other = ordered) ∧
      (ofCalls calls).finalize.verdicts = ordered.map Prod.snd ∧
      (Reporter.ofVerdicts (ordered.map Prod.snd)).finalize = (ofCalls calls).finalize) ∧
    ((calls.map Prod.fst).Nodup →
      (∀ calls' : List (Nat × Verdict), calls'.Perm calls →
        (ofCalls calls').finalize = (ofCalls calls).finalize) ∧
      ∀ ordered : List (Nat × Verdict), ordered.Perm calls →
        ordered.Pairwise (fun a b => a.1 < b.1) →
        (Reporter.ofVerdicts (ordered.map Prod.snd)).finalize = (ofCalls calls).finalize) := by
  have hsorted := arranged_ofCalls calls
  constructor
  · refine ⟨_, hsorted, ?_, verdicts_finalize _, finalize_eq_of_sorted rfl⟩
    intro other hother
    exact hsorted.unique hother
  · intro hdistinct
    constructor
    · intro calls' hperm
      have hsorted' := arranged_ofCalls calls'
      have hsame : (ofCalls calls').sorted = (ofCalls calls).sorted :=
        eq_of_nodup hdistinct (hsorted'.perm.trans hperm) hsorted.perm hsorted'.increasing
          hsorted.increasing
      exact congrArg (fun l => Report.mk (l.map Prod.snd)) hsame
    · intro ordered hperm hincreasing
      have hweak : ordered.Pairwise fun a b => a.1 ≤ b.1 := hincreasing.imp Nat.le_of_lt
      exact finalize_eq_of_sorted
        (eq_of_nodup hdistinct hsorted.perm hperm hsorted.increasing hweak)

/-- The verdict on a write at a line. -/
def lineVerdict (line : String) : Verdict :=
  { site := { function := "write", span := line }, value := "path", outcome := .unsat }

/-- Place 7 is given twice, places 1 and 3 to 6 not at all; without the second verdict on place 7
the calls may come in any order. -/
theorem places_restore_order_late :
    let a := lineVerdict "main:3"
    let b := lineVerdict "main:5"
    let c := lineVerdict "main:8"
    (∃ ordered, Arranged ordered [(7, c), (0, a), (7, b), (2, b)] ∧
      (ofCalls [(7, c), (0, a), (7, b), (2, b)]).finalize.verdicts = ordered.map Prod.snd ∧
      ordered.map Prod.snd = [a, b, c, b]) ∧
    ([(7, c), (0, a), (2, b)].map Prod.fst).Nodup ∧
      (ofCalls [(0, a), (7, c), (2, b)]).finalize = (ofCalls [(7, c), (0, a), (2, b)]).finalize ∧
      (Reporter.ofVerdicts [a, b, c]).finalize = (ofCalls [(7, c), (0, a), (2, b)]).finalize := by
  intro a b c
  obtain ⟨⟨ordered, harranged, -, hreport, -⟩, -⟩ :=
    places_restore_order [(7, c), (0, a), (7, b), (2, b)]
  obtain ⟨-, hdistinct⟩ := places_restore_order [(7, c), (0, a), (2, b)]
  have hnodup : ([(7, c), (0, a), (2, b)].map Prod.fst).Nodup := by simp
  obtain ⟨hperm, hordered⟩ := hdistinct hnodup
  refine ⟨⟨ordered, harranged, hreport, ?_⟩, hnodup, hperm _ (.swap _ _ _), ?_⟩
  · rw [← hreport]
    rfl
  · exact hordered [(0, a), (2, b), (7, c)] (by decide) (by simp)

end Submissions

end SinkReach
