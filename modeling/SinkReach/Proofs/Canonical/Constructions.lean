/-
# Constructions with one canonical form

A junction may be built up in many ways from the same parts, and so may a concatenation.  Their
canonical forms are EQUAL as trees, not only in meaning: the order and the number of the parts of a
junction, its nesting and its neutral parts leave no trace, and neither do the nesting of a
concatenation and the places where its literals are cut.

The inner tree is brought into canonical form before it is taken apart, so it may no longer be a
junction or a concatenation by then.  What it contributes is all the same what its parts do
(`Junction.contribution_join`, `Value.fuse_parts_join`); both need that canonical forms are normal.
-/
import SinkReach.Proofs.Canonical.Normal

namespace SinkReach

theorem Value.canonicalAll_eq_map (vs : List Value) :
    Value.canonicalAll vs = vs.map Value.canonical := by
  induction vs with
  | nil => rfl
  | cons v vs ih => rw [Value.canonicalAll, List.map_cons, ih]

theorem Guard.canonicalAll_eq_map (gs : List Guard) :
    Guard.canonicalAll gs = gs.map Guard.canonical := by
  induction gs with
  | nil => rfl
  | cons g gs ih => rw [Guard.canonicalAll, List.map_cons, ih]

/-! ## 1. Junctions -/

namespace Junction

variable {j : Junction} {gs hs : List Guard}

/-- **What a junction depends on**: whether one of its parts decides it and, if none does, the set
of what the parts contribute. -/
theorem join_congr (habsorbing : .const j.absorbing ∈ gs ↔ .const j.absorbing ∈ hs)
    (hparts : .const j.absorbing ∉ gs →
      ∀ x, x ∈ gs.flatMap j.contribution ↔ x ∈ hs.flatMap j.contribution) :
    j.join gs = j.join hs := by
  by_cases h : Guard.const j.absorbing ∈ gs
  · rw [join, join, if_pos h, if_pos (habsorbing.mp h)]
  · rw [join, join, if_neg h, if_neg fun h' => h (habsorbing.mpr h'),
      Guard.dropRepeats_sortBy_congr (hparts h)]

/-- Ordered parts are what their junction contributes, also where there are too few of them for a
junction. -/
theorem contribution_ofParts (h : j.Ordered gs) : j.contribution (j.ofParts gs) = gs := by
  match gs, h with
  | [], _ => rfl
  | [g], h => exact contribution_of_flat (h.undecided g (by simp)) (h.flat g (by simp))
  | _ :: _ :: _, _ => simp [ofParts, contribution]

theorem ofParts_ne_absorbing (h : j.Ordered gs) : j.ofParts gs ≠ .const j.absorbing := by
  match gs, h with
  | [], _ => simpa [ofParts] using j.absorbing_ne_neutral.symm
  | [g], h =>
    rintro rfl
    exact absurd (h.undecided _ (List.mem_cons_self ..)) (by simp [Guard.isConst])
  | _ :: _ :: _, _ => simp [ofParts]

/-- A junction of normal guards is decided exactly when one of them decides it. -/
theorem join_eq_absorbing (h : Guard.AllNormal gs) :
    j.join gs = .const j.absorbing ↔ .const j.absorbing ∈ gs := by
  constructor
  · intro hjoin
    by_contra hmem
    rw [join, if_neg hmem] at hjoin
    exact ofParts_ne_absorbing (ordered_contributions h) hjoin
  · intro hmem
    rw [join, if_pos hmem]

/-- **A junction contributes what its parts do**, unless one of them decides it. -/
theorem contribution_join (h : Guard.AllNormal gs) (hmem : .const j.absorbing ∉ gs) (x : Guard) :
    x ∈ j.contribution (j.join gs) ↔ x ∈ gs.flatMap j.contribution := by
  rw [join, if_neg hmem, contribution_ofParts (ordered_contributions h),
    Guard.mem_dropRepeats_sortBy]

/-- **A junction inside a junction of its kind** may as well be its parts. -/
theorem join_append_join (as cs : List Guard) (h : Guard.AllNormal gs) :
    j.join (as ++ [j.join gs] ++ cs) = j.join (as ++ gs ++ cs) := by
  refine join_congr ?_ fun hmem x => ?_
  · rw [List.mem_append, List.mem_append, List.mem_singleton, List.mem_append, List.mem_append,
      eq_comm, join_eq_absorbing h]
  · have hgs : Guard.const j.absorbing ∉ gs := by
      intro hgs
      refine hmem (List.mem_append_left _ (List.mem_append_right _ ?_))
      rw [(join_eq_absorbing h).mpr hgs]
      exact List.mem_singleton_self _
    simp only [List.flatMap_append, List.flatMap_singleton, List.mem_append,
      contribution_join h hgs]

theorem join_append_neutral (as cs : List Guard) :
    j.join (as ++ [.const j.neutral] ++ cs) = j.join (as ++ cs) := by
  refine join_congr ?_ fun _ x => ?_
  · simp [j.absorbing_ne_neutral]
  · simp [contribution]

end Junction

/-! ## 2. Concatenations -/

namespace Value

theorem fuse_append (us vs : List Value) : fuse (us ++ vs) = us.foldr fuseCons (fuse vs) := by
  rw [fuse, List.foldr_append]
  rfl

theorem fuseCons_of_not_text {s : String} {vs : List Value} (hs : s ≠ "")
    (hvs : ∀ t more, vs ≠ .str t :: more) : fuseCons (.str s) vs = .str s :: vs := by
  rw [fuseCons, if_neg hs]
  exact hvs

/-- **A literal may be cut anywhere**: its two pieces are put in front one after the other. -/
theorem fuseCons_append (s t : String) (vs : List Value) :
    fuseCons (.str (s ++ t)) vs = fuseCons (.str s) (fuseCons (.str t) vs) := by
  by_cases hs : s = ""
  · simp [fuseCons, hs]
  by_cases ht : t = ""
  · simp [fuseCons, ht]
  have hst : s ++ t ≠ "" := by simpa using fun hs' => absurd hs' hs
  by_cases hvs : ∃ u more, vs = .str u :: more
  · obtain ⟨u, more, rfl⟩ := hvs
    simp [fuseCons, hs, ht, String.append_assoc]
  · have hvs : ∀ u more, vs ≠ .str u :: more := fun u more h => hvs ⟨u, more, h⟩
    rw [fuseCons_of_not_text hst hvs, fuseCons_of_not_text ht hvs]
    simp [fuseCons, hs]

/-- Whether a part is put in front of some others before or after these are put in front of the rest
makes no difference. -/
theorem foldr_fuseCons (v : Value) (us vs : List Value) :
    (fuseCons v us).foldr fuseCons vs = fuseCons v (us.foldr fuseCons vs) := by
  by_cases hv : ∃ s, v = .str s
  · obtain ⟨s, rfl⟩ := hv
    by_cases hs : s = ""
    · simp [fuseCons, hs]
    by_cases hus : ∃ t more, us = .str t :: more
    · obtain ⟨t, more, rfl⟩ := hus
      have hmerged : fuseCons (.str s) (.str t :: more) = .str (s ++ t) :: more := by
        simp [fuseCons, hs]
      rw [hmerged, List.foldr_cons, List.foldr_cons, fuseCons_append]
    · rw [fuseCons_of_not_text hs fun t more h => hus ⟨t, more, h⟩, List.foldr_cons]
  · have hother : ∀ rest, fuseCons v rest = v :: rest := by
      intro rest
      unfold fuseCons
      split
      · next s => exact absurd ⟨s, rfl⟩ hv
      · rfl
    rw [hother us, List.foldr_cons]

/-- **Fusing some of the parts first** makes no difference. -/
theorem fuse_fuse_append (us vs : List Value) : fuse (fuse us ++ vs) = fuse (us ++ vs) := by
  rw [fuse_append, fuse_append]
  induction us with
  | nil => rfl
  | cons u us ih =>
    calc (fuse (u :: us)).foldr fuseCons (fuse vs)
      _ = (fuseCons u (fuse us)).foldr fuseCons (fuse vs) := rfl
      _ = fuseCons u ((fuse us).foldr fuseCons (fuse vs)) := foldr_fuseCons ..
      _ = fuseCons u (us.foldr fuseCons (fuse vs)) := by rw [ih]

/-- Seen as a concatenation, what a list of parts makes is those parts again, up to an empty
literal. -/
theorem fuse_parts_ofParts {us : List Value} (h : ∀ u ∈ us, u.isConcat = false)
    (vs : List Value) : fuse ((ofParts us).parts ++ vs) = fuse (us ++ vs) := by
  match us, h with
  | [], _ => simp [ofParts, Value.parts, fuse, fuseCons]
  | [u], h => rw [ofParts, parts_of_isConcat (h u (by simp))]
  | _ :: _ :: _, _ => rfl

theorem fuse_parts_join {us : List Value} (h : AllNormal us) (vs : List Value) :
    fuse ((join us).parts ++ vs) = fuse (us.flatMap Value.parts ++ vs) := by
  have hflat : ∀ p ∈ us.flatMap Value.parts, p.isConcat = false := by
    intro p hp
    obtain ⟨u, hu, hp⟩ := List.mem_flatMap.mp hp
    exact ((allNormal_iff.mp h u hu).parts hp).1
  rw [join, fuse_parts_ofParts (fused_fuse hflat).flat, fuse_fuse_append]

/-- **A concatenation inside a concatenation** may as well be its parts. -/
theorem join_append_join (as cs : List Value) {bs : List Value} (h : AllNormal bs) :
    join (as ++ [join bs] ++ cs) = join (as ++ bs ++ cs) := by
  have hfuse : fuse ((as ++ [join bs] ++ cs).flatMap Value.parts)
      = fuse ((as ++ bs ++ cs).flatMap Value.parts) := by
    simp only [List.flatMap_append, List.flatMap_singleton, List.append_assoc]
    rw [fuse_append, fuse_parts_join h, ← fuse_append]
  exact congrArg ofParts hfuse

theorem join_append_cut (as cs : List Value) (s t : String) :
    join (as ++ [.str (s ++ t)] ++ cs) = join (as ++ [.str s, .str t] ++ cs) := by
  have hpieces (vs : List Value) : fuse (.str (s ++ t) :: vs) = fuse (.str s :: .str t :: vs) :=
    fuseCons_append s t (fuse vs)
  have hfuse : fuse ((as ++ [Value.str (s ++ t)] ++ cs).flatMap Value.parts)
      = fuse ((as ++ [Value.str s, Value.str t] ++ cs).flatMap Value.parts) := by
    simp only [List.flatMap_append, List.append_assoc, fuse_append (as.flatMap Value.parts)]
    exact congrArg (fun rest => (as.flatMap Value.parts).foldr fuseCons rest)
      (hpieces (cs.flatMap Value.parts))
  exact congrArg ofParts hfuse

end Value

/-! ## 3. Whole trees -/

/-- A junction has one canonical form for every order and number of its parts. -/
theorem Guard.canonical_junction_congr {j : Junction} {gs hs : List Guard}
    (h : ∀ g, g ∈ gs ↔ g ∈ hs) :
    (Guard.junction j gs).canonical = (Guard.junction j hs).canonical := by
  have hmap : ∀ x, x ∈ gs.map Guard.canonical ↔ x ∈ hs.map Guard.canonical := by
    simp only [List.mem_map, h, implies_true]
  rw [Guard.canonical, Guard.canonical, Guard.canonicalAll_eq_map, Guard.canonicalAll_eq_map]
  exact Junction.join_congr (hmap _) fun _ x => by simp only [List.mem_flatMap, hmap]

/-- **Equivalent constructions have one canonical form.**  A junction depends on the set of its
parts alone; one of the same kind among its parts may be replaced by the parts of that, of which
there may be none; and a neutral part may be left out.  A concatenation may stand in place of its
parts, and a literal in place of the two pieces of it.  The parts are any trees, well-sorted or
not. -/
theorem equivalent_constructions :
    (∀ (j : Junction) (ps qs : List Guard), (∀ g, g ∈ ps ↔ g ∈ qs) →
      (Guard.junction j ps).canonical = (Guard.junction j qs).canonical) ∧
    (∀ (j : Junction) (as bs cs : List Guard),
      (Guard.junction j (as ++ [.junction j bs] ++ cs)).canonical
        = (Guard.junction j (as ++ bs ++ cs)).canonical) ∧
    (∀ as cs : List Guard, (Guard.all (as ++ [.truth] ++ cs)).canonical
        = (Guard.all (as ++ cs)).canonical) ∧
    (∀ as cs : List Guard, (Guard.any (as ++ [.falsity] ++ cs)).canonical
        = (Guard.any (as ++ cs)).canonical) ∧
    (∀ as bs cs : List Value, (Value.concat (as ++ [.concat bs] ++ cs)).canonical
        = (Value.concat (as ++ bs ++ cs)).canonical) ∧
    (∀ (as cs : List Value) (x y : String),
      (Value.concat (as ++ [.str (x ++ y)] ++ cs)).canonical
        = (Value.concat (as ++ [.str x, .str y] ++ cs)).canonical) := by
  refine ⟨fun j ps qs h => Guard.canonical_junction_congr h, ?_⟩
  simp only [Guard.canonical, Value.canonical, Guard.canonicalAll_eq_map,
    Value.canonicalAll_eq_map, List.map_append, List.map_cons, List.map_nil]
  refine ⟨fun j as bs cs => ?_, fun as cs => ?_, fun as cs => ?_, fun as bs cs => ?_,
    fun as cs x y => ?_⟩
  · exact Junction.join_append_join _ _
      (Guard.canonicalAll_eq_map bs ▸ Guard.normal_canonicalAll bs)
  · exact Junction.join_append_neutral _ _
  · exact Junction.join_append_neutral _ _
  · exact Value.join_append_join _ _ (Value.canonicalAll_eq_map bs ▸ Value.normal_canonicalAll bs)
  · exact Value.join_append_cut _ _ x y

/-- Two ways to say that `dir` is under `/srv` and `n` is positive: once in order, once the other
way round, nested, with a repetition and a part that is always true. -/
theorem equivalent_constructions_nested :
    let under : Guard := .affix .start (.str "/srv") (.stringVar "dir")
    let positive : Guard := .compare .gt (.intVar "n") (.int 0)
    (∀ g, g ∈ [positive] ++ [under, positive, under] ++ [.truth]
        ↔ g ∈ [positive, under] ++ [.truth] ++ []) ∧
      (Guard.all ([positive] ++ [.all [under, positive, under]] ++ [.truth])).canonical
        = (Guard.all [positive, under]).canonical := by
  intro under positive
  obtain ⟨hset, hnest, htrue, -, -, -⟩ := equivalent_constructions
  have hmem : ∀ g, g ∈ [positive] ++ [under, positive, under] ++ [.truth]
      ↔ g ∈ [positive, under] ++ [.truth] ++ [] := by
    intro g
    simp only [List.mem_cons, List.mem_append, List.not_mem_nil, or_false]
    tauto
  refine ⟨hmem, ?_⟩
  calc (Guard.all ([positive] ++ [.all [under, positive, under]] ++ [.truth])).canonical
    _ = (Guard.all ([positive] ++ [under, positive, under] ++ [.truth])).canonical :=
      hnest .all [positive] [under, positive, under] [.truth]
    _ = (Guard.all ([positive, under] ++ [.truth] ++ [])).canonical := hset .all _ _ hmem
    _ = (Guard.all [positive, under]).canonical := htrue [positive, under] []

end SinkReach
