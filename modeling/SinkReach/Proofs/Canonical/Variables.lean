/-
# Canonical forms bring in no variables

A rewriting drops, merges and moves parts of a term; it never makes up a variable, and never
changes the sort of one.  So what occurs in a canonical form occurs in the term:
`Value.occurrences_canonical` and `Guard.occurrences_canonical`.
-/
import SinkReach.Proofs.Canonical.Meaning
import SinkReach.Term.Vars

namespace SinkReach

/-! ## 1. Lists of terms -/

theorem Value.mem_occurrencesIn {p : String × ValueSort} : ∀ {vs : List Value},
    p ∈ Value.occurrencesIn vs ↔ ∃ v ∈ vs, p ∈ v.occurrences
  | [] => by simp [Value.occurrencesIn]
  | v :: vs => by
    rw [Value.occurrencesIn, List.mem_append, Value.mem_occurrencesIn]
    simp

theorem Guard.mem_occurrencesIn {p : String × ValueSort} : ∀ {gs : List Guard},
    p ∈ Guard.occurrencesIn gs ↔ ∃ g ∈ gs, p ∈ g.occurrences
  | [] => by simp [Guard.occurrencesIn]
  | g :: gs => by
    rw [Guard.occurrencesIn, List.mem_append, Guard.mem_occurrencesIn]
    simp

/-! ## 2. One node at a time -/

theorem Value.occurrencesIn_parts (v : Value) : Value.occurrencesIn v.parts = v.occurrences := by
  cases v with
  | concat ps => rfl
  | _ => simp [Value.parts, Value.occurrencesIn]

theorem Value.occurrencesIn_flatMap_parts {vs : List Value} :
    Value.occurrencesIn (vs.flatMap Value.parts) ⊆ Value.occurrencesIn vs := by
  intro p hp
  obtain ⟨w, hw, hp⟩ := Value.mem_occurrencesIn.mp hp
  obtain ⟨v, hv, hw⟩ := List.mem_flatMap.mp hw
  refine Value.mem_occurrencesIn.mpr ⟨v, hv, ?_⟩
  rw [← Value.occurrencesIn_parts]
  exact Value.mem_occurrencesIn.mpr ⟨w, hw, hp⟩

theorem Value.occurrencesIn_fuseCons (v : Value) (rest : List Value) :
    Value.occurrencesIn (Value.fuseCons v rest) = Value.occurrencesIn (v :: rest) := by
  unfold Value.fuseCons
  split
  · split
    · simp [Value.occurrencesIn, Value.occurrences]
    · split
      · simp [Value.occurrencesIn, Value.occurrences]
      · rfl
  · rfl

theorem Value.occurrencesIn_fuse : ∀ vs : List Value,
    Value.occurrencesIn (Value.fuse vs) = Value.occurrencesIn vs
  | [] => rfl
  | v :: vs => by
    have ih : Value.occurrencesIn (vs.foldr Value.fuseCons []) = Value.occurrencesIn vs :=
      Value.occurrencesIn_fuse vs
    rw [Value.fuse, List.foldr_cons, Value.occurrencesIn_fuseCons, Value.occurrencesIn,
      Value.occurrencesIn, ih]

theorem Value.occurrences_ofParts : ∀ vs : List Value,
    (Value.ofParts vs).occurrences = Value.occurrencesIn vs
  | [] => rfl
  | [v] => by simp [Value.ofParts, Value.occurrencesIn]
  | _ :: _ :: _ => rfl

theorem Value.occurrences_join {vs : List Value} :
    (Value.join vs).occurrences ⊆ Value.occurrencesIn vs := by
  rw [Value.join, Value.occurrences_ofParts, Value.occurrencesIn_fuse]
  exact Value.occurrencesIn_flatMap_parts

theorem Value.occurrences_choose {g : Guard} {yes no : Value} :
    (Value.choose g yes no).occurrences ⊆ g.occurrences ++ (yes.occurrences ++ no.occurrences) := by
  unfold Value.choose
  split
  · exact fun p hp => List.mem_append_right _ (List.mem_append_left _ hp)
  · exact fun p hp => List.mem_append_right _ (List.mem_append_right _ hp)
  · split
    · exact fun p hp => List.mem_append_right _ (List.mem_append_left _ hp)
    · exact fun p hp => hp

theorem Guard.occurrences_ofCompare {op : CompareOp} {l r : Value} :
    (Guard.ofCompare op l r).occurrences ⊆ l.occurrences ++ r.occurrences := by
  unfold Guard.ofCompare
  split
  · exact List.nil_subset _
  · split
    · exact List.nil_subset _
    · exact List.nil_subset _
    · exact fun p hp => hp

theorem Guard.occurrences_negate (g : Guard) : g.negate.occurrences = g.occurrences := by
  cases g <;> rfl

theorem Guard.occurrences_ofAffix {side : Side} {part text : Value} :
    (Guard.ofAffix side part text).occurrences ⊆ part.occurrences ++ text.occurrences := by
  unfold Guard.ofAffix
  split
  · exact List.nil_subset _
  · split
    · exact List.nil_subset _
    · exact fun p hp => hp

theorem Junction.occurrencesIn_contribution {j : Junction} {g x : Guard}
    (hx : x ∈ j.contribution g) : x.occurrences ⊆ g.occurrences := by
  intro p hp
  cases g with
  | const b => simp [Junction.contribution] at hx
  | junction k ps =>
    by_cases hk : k = j
    · exact Guard.mem_occurrencesIn.mpr ⟨x, by simpa [Junction.contribution, hk] using hx, hp⟩
    · obtain rfl : x = .junction k ps := by simpa [Junction.contribution, hk] using hx
      exact hp
  | _ =>
    obtain rfl : x = _ := by simpa [Junction.contribution] using hx
    exact hp

theorem Junction.occurrences_ofParts (j : Junction) : ∀ gs : List Guard,
    (j.ofParts gs).occurrences = Guard.occurrencesIn gs
  | [] => rfl
  | [g] => by simp [Junction.ofParts, Guard.occurrencesIn]
  | _ :: _ :: _ => rfl

theorem Junction.occurrences_join {j : Junction} {gs : List Guard} :
    (j.join gs).occurrences ⊆ Guard.occurrencesIn gs := by
  unfold Junction.join
  split
  · exact List.nil_subset _
  · rw [Junction.occurrences_ofParts]
    intro p hp
    obtain ⟨x, hx, hp⟩ := Guard.mem_occurrencesIn.mp hp
    rw [Guard.mem_dropRepeats, mem_sortBy] at hx
    obtain ⟨g, hg, hx⟩ := List.mem_flatMap.mp hx
    exact Guard.mem_occurrencesIn.mpr ⟨g, hg, Junction.occurrencesIn_contribution hx hp⟩

/-! ## 3. Whole trees -/

/-- Two inclusions side by side. -/
theorem append_subset_append {α : Type} {as bs cs ds : List α} (h : as ⊆ cs) (k : bs ⊆ ds) :
    as ++ bs ⊆ cs ++ ds := by
  intro x hx
  rcases List.mem_append.mp hx with hx | hx
  · exact List.mem_append_left _ (h hx)
  · exact List.mem_append_right _ (k hx)

mutual

/-- **What occurs in the canonical form of a value occurs in the value.** -/
theorem Value.occurrences_canonical : ∀ v : Value, v.canonical.occurrences ⊆ v.occurrences
  | .lit _ => fun _ hp => hp
  | .var _ _ => fun _ hp => hp
  | .concat parts => fun _ hp =>
    Value.occurrencesIn_canonicalAll parts (Value.occurrences_join hp)
  | .arith _ l r =>
    append_subset_append (Value.occurrences_canonical l) (Value.occurrences_canonical r)
  | .ite c t e => fun _ hp =>
    append_subset_append (Guard.occurrences_canonical c)
      (append_subset_append (Value.occurrences_canonical t) (Value.occurrences_canonical e))
      (Value.occurrences_choose hp)

theorem Value.occurrencesIn_canonicalAll : ∀ vs : List Value,
    Value.occurrencesIn (Value.canonicalAll vs) ⊆ Value.occurrencesIn vs
  | [] => fun _ hp => hp
  | v :: vs =>
    append_subset_append (Value.occurrences_canonical v) (Value.occurrencesIn_canonicalAll vs)

/-- **What occurs in the canonical form of a guard occurs in the guard.** -/
theorem Guard.occurrences_canonical : ∀ g : Guard, g.canonical.occurrences ⊆ g.occurrences
  | .const _ => fun _ hp => hp
  | .compare _ l r => fun _ hp =>
    append_subset_append (Value.occurrences_canonical l) (Value.occurrences_canonical r)
      (Guard.occurrences_ofCompare hp)
  | .not g => by
    rw [Guard.canonical, Guard.occurrences_negate]
    exact Guard.occurrences_canonical g
  | .junction _ parts => fun _ hp =>
    Guard.occurrencesIn_canonicalAll parts (Junction.occurrences_join hp)
  | .affix _ p t => fun _ hp =>
    append_subset_append (Value.occurrences_canonical p) (Value.occurrences_canonical t)
      (Guard.occurrences_ofAffix hp)

theorem Guard.occurrencesIn_canonicalAll : ∀ gs : List Guard,
    Guard.occurrencesIn (Guard.canonicalAll gs) ⊆ Guard.occurrencesIn gs
  | [] => fun _ hp => hp
  | g :: gs =>
    append_subset_append (Guard.occurrences_canonical g) (Guard.occurrencesIn_canonicalAll gs)

end

/-- The top-level parts of a value have no variables but those of the value. -/
theorem Value.occurrences_topParts {v part : Value} (h : part ∈ v.topParts) :
    part.occurrences ⊆ v.occurrences := by
  refine List.Subset.trans ?_ (Value.occurrences_canonical v)
  unfold Value.topParts at h
  intro p hp
  split at h
  · next parts heq =>
    rw [heq]
    exact Value.mem_occurrencesIn.mpr ⟨part, h, hp⟩
  · split at h
    · exact absurd h (by simp)
    · next heq _ =>
      obtain rfl := List.mem_singleton.mp h
      rw [heq]
      exact hp
  · obtain rfl := List.mem_singleton.mp h
    exact hp

end SinkReach
