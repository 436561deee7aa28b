/-
# Canonical forms keep sorts

A rewriting puts a term in the place of another of the same sort.  So a value that has a sort has
a canonical form of that sort, and a guard that is well-sorted has a well-sorted canonical form:
`Value.sort_canonical` and `Guard.check_canonical`.

The converse fails: what is wrong with a term may be in a part that the canonical form drops.
-/
import SinkReach.Proofs.Canonical.Meaning

namespace SinkReach

/-! ## 1. Values, one node at a time -/

theorem Value.sort_concat_of_forall {vs : List Value} (h : ∀ v ∈ vs, v.sort = .ok .string) :
    (Value.concat vs).sort = .ok .string :=
  Value.sort_concat_eq_ok.mpr ⟨Value.allStrings_eq_ok.mpr h, rfl⟩

theorem Value.sort_of_mem_parts {v p : Value} (hv : v.sort = .ok .string) (hp : p ∈ v.parts) :
    p.sort = .ok .string := by
  cases v with
  | concat ps =>
    obtain ⟨hps, -⟩ := Value.sort_concat_eq_ok.mp hv
    exact Value.allStrings_eq_ok.mp hps p hp
  | _ =>
    obtain rfl := List.mem_singleton.mp hp
    exact hv

theorem Value.sort_of_mem_fuseCons {v w : Value} {rest : List Value} (hv : v.sort = .ok .string)
    (hrest : ∀ u ∈ rest, u.sort = .ok .string) (hw : w ∈ Value.fuseCons v rest) :
    w.sort = .ok .string := by
  unfold Value.fuseCons at hw
  split at hw
  · split at hw
    · exact hrest w hw
    · split at hw
      · -- The two literals are one literal now, and a literal is a string whatever its text.
        rcases List.mem_cons.mp hw with rfl | hw
        · rfl
        · exact hrest w (List.mem_cons_of_mem _ hw)
      · rcases List.mem_cons.mp hw with rfl | hw
        · rfl
        · exact hrest w hw
  · rcases List.mem_cons.mp hw with rfl | hw
    · exact hv
    · exact hrest w hw

theorem Value.sort_of_mem_fuse {vs : List Value} (h : ∀ v ∈ vs, v.sort = .ok .string) :
    ∀ w ∈ Value.fuse vs, w.sort = .ok .string := by
  induction vs with
  | nil => exact h
  | cons v vs ih =>
    obtain ⟨hv, hvs⟩ := List.forall_mem_cons.mp h
    exact fun w hw => Value.sort_of_mem_fuseCons hv (ih hvs) hw

theorem Value.sort_ofParts {vs : List Value} (h : ∀ v ∈ vs, v.sort = .ok .string) :
    (Value.ofParts vs).sort = .ok .string := by
  match vs, h with
  | [], _ => rfl
  | [v], h => exact h v (List.mem_singleton_self v)
  | _ :: _ :: _, h => exact Value.sort_concat_of_forall h

theorem Value.sort_join {vs : List Value} (h : ∀ v ∈ vs, v.sort = .ok .string) :
    (Value.join vs).sort = .ok .string := by
  refine Value.sort_ofParts (Value.sort_of_mem_fuse fun p hp => ?_)
  obtain ⟨v, hv, hp⟩ := List.mem_flatMap.mp hp
  exact Value.sort_of_mem_parts (h v hv) hp

theorem Value.sort_choose {g : Guard} {yes no : Value} {s : ValueSort} (hg : g.check = .ok ())
    (hyes : yes.sort = .ok s) (hno : no.sort = .ok s) : (Value.choose g yes no).sort = .ok s := by
  unfold Value.choose
  split
  · exact hyes
  · exact hno
  · split
    · exact hyes
    · exact Value.sort_ite_eq_ok.mpr ⟨hg, hyes, hno⟩

/-! ## 2. Guards, one node at a time -/

theorem Guard.check_ofCompare {op : CompareOp} {l r : Value}
    (h : (Guard.compare op l r).check = .ok ()) : (Guard.ofCompare op l r).check = .ok () := by
  unfold Guard.ofCompare
  split
  · rfl
  · split
    · rfl
    · rfl
    · exact h

/-- Strings admit an operator exactly if they admit its negation. -/
theorem CompareOp.isEquality_negate (op : CompareOp) : op.negate.isEquality = op.isEquality := by
  cases op <;> rfl

theorem Guard.check_negate {g : Guard} (h : g.check = .ok ()) : g.negate.check = .ok () := by
  cases g with
  | compare op l r =>
    obtain ⟨s, hl, hr, hop⟩ := Guard.check_compare_eq_ok.mp h
    exact Guard.check_compare_eq_ok.mpr ⟨s, hl, hr, by rwa [CompareOp.isEquality_negate]⟩
  | _ => exact h

theorem Guard.check_ofAffix {side : Side} {part text : Value}
    (h : (Guard.affix side part text).check = .ok ()) :
    (Guard.ofAffix side part text).check = .ok () := by
  unfold Guard.ofAffix
  split
  · rfl
  · split
    · rfl
    · exact h

theorem Junction.check_of_mem_contribution {j : Junction} {g x : Guard} (hg : g.check = .ok ())
    (hx : x ∈ j.contribution g) : x.check = .ok () := by
  cases g with
  | const b => simp [Junction.contribution] at hx
  | junction k ps =>
    by_cases hk : k = j
    · have hmem : x ∈ ps := by simpa [Junction.contribution, hk] using hx
      exact Guard.checkAll_eq_ok.mp hg x hmem
    · obtain rfl : x = .junction k ps := by simpa [Junction.contribution, hk] using hx
      exact hg
  | _ =>
    obtain rfl : x = _ := by simpa [Junction.contribution] using hx
    exact hg

theorem Junction.check_ofParts (j : Junction) {gs : List Guard} (h : ∀ g ∈ gs, g.check = .ok ()) :
    (j.ofParts gs).check = .ok () := by
  match gs, h with
  | [], _ => rfl
  | [g], h => exact h g (List.mem_singleton_self g)
  | _ :: _ :: _, h => exact Guard.checkAll_eq_ok.mpr h

theorem Junction.check_join {j : Junction} {gs : List Guard} (h : ∀ g ∈ gs, g.check = .ok ()) :
    (j.join gs).check = .ok () := by
  unfold Junction.join
  split
  · rfl
  · refine j.check_ofParts fun x hx => ?_
    rw [Guard.mem_dropRepeats, mem_sortBy] at hx
    obtain ⟨g, hg, hx⟩ := List.mem_flatMap.mp hx
    exact Junction.check_of_mem_contribution (h g hg) hx

/-! ## 3. Whole trees -/

mutual

/-- **The canonical form of a value has the sort of the value.** -/
theorem Value.sort_canonical : ∀ {v : Value} {s : ValueSort}, v.sort = .ok s →
    v.canonical.sort = .ok s
  | .lit _, _, h => h
  | .var _ _, _, h => h
  | .concat parts, s, h => by
    obtain ⟨hparts, rfl⟩ := Value.sort_concat_eq_ok.mp h
    exact Value.sort_join (Value.sort_canonicalAll (Value.allStrings_eq_ok.mp hparts))
  | .arith op l r, s, h => by
    obtain ⟨hl, hr, rfl⟩ := Value.sort_arith_eq_ok.mp h
    exact Value.sort_arith_eq_ok.mpr ⟨Value.sort_canonical hl, Value.sort_canonical hr, rfl⟩
  | .ite c t e, s, h => by
    obtain ⟨hc, ht, he⟩ := Value.sort_ite_eq_ok.mp h
    exact Value.sort_choose (Guard.check_canonical hc) (Value.sort_canonical ht)
      (Value.sort_canonical he)

theorem Value.sort_canonicalAll : ∀ {vs : List Value}, (∀ v ∈ vs, v.sort = .ok .string) →
    ∀ w ∈ Value.canonicalAll vs, w.sort = .ok .string
  | [], h => h
  | v :: vs, h => by
    obtain ⟨hv, hvs⟩ := List.forall_mem_cons.mp h
    exact List.forall_mem_cons.mpr ⟨Value.sort_canonical hv, Value.sort_canonicalAll hvs⟩

/-- **The canonical form of a well-sorted guard is well-sorted.** -/
theorem Guard.check_canonical : ∀ {g : Guard}, g.check = .ok () → g.canonical.check = .ok ()
  | .const _, h => h
  | .compare op l r, h => by
    obtain ⟨s, hl, hr, hop⟩ := Guard.check_compare_eq_ok.mp h
    exact Guard.check_ofCompare (Guard.check_compare_eq_ok.mpr
      ⟨s, Value.sort_canonical hl, Value.sort_canonical hr, hop⟩)
  | .not g, h => by
    have hg : g.check = .ok () := h
    exact Guard.check_negate (Guard.check_canonical hg)
  | .junction _ parts, h =>
    Junction.check_join (Guard.check_canonicalAll (Guard.checkAll_eq_ok.mp h))
  | .affix side part text, h => by
    obtain ⟨hp, ht⟩ := Guard.check_affix_eq_ok.mp h
    exact Guard.check_ofAffix (Guard.check_affix_eq_ok.mpr
      ⟨Value.sort_canonical hp, Value.sort_canonical ht⟩)

theorem Guard.check_canonicalAll : ∀ {gs : List Guard}, (∀ g ∈ gs, g.check = .ok ()) →
    ∀ x ∈ Guard.canonicalAll gs, x.check = .ok ()
  | [], h => h
  | g :: gs, h => by
    obtain ⟨hg, hgs⟩ := List.forall_mem_cons.mp h
    exact List.forall_mem_cons.mpr ⟨Guard.check_canonical hg, Guard.check_canonicalAll hgs⟩

end

/-- The top-level parts of a string are strings. -/
theorem Value.sort_of_mem_topParts {v part : Value} (hv : v.sort = .ok .string)
    (hpart : part ∈ v.topParts) : part.sort = .ok .string := by
  have hcanonical := Value.sort_canonical hv
  unfold Value.topParts at hpart
  split at hpart
  · next parts heq =>
    rw [heq] at hcanonical
    obtain ⟨hparts, -⟩ := Value.sort_concat_eq_ok.mp hcanonical
    exact Value.allStrings_eq_ok.mp hparts part hpart
  · split at hpart
    · exact absurd hpart (by simp)
    · obtain rfl := List.mem_singleton.mp hpart
      rfl
  · obtain rfl := List.mem_singleton.mp hpart
    exact hcanonical

end SinkReach
