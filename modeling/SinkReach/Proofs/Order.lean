/-
# The structural order is linear, and sorting by it

`Term/Order.lean` shows that trees compare as equal exactly when they are the same tree.  Here the
comparison is shown to be a LINEAR ORDER, and what is sorted by it to depend on the elements alone:

* `Value.cmp_swap`, `Guard.cmp_swap`: the comparison from the other side is the opposite one;
* `Value.chains_cmp`, `Guard.chains_cmp`: comparisons compose;
* `Guard.dropRepeats_sortBy_eq`: guards sorted and without repetitions are THE strictly increasing
  list of these guards, so it depends on their set and on nothing else.

Trees are compared lexicographically, so the second is stated for three ORDERINGS, in a form that
lexicographic combination keeps (`Chains.then`).
-/
import SinkReach.Proofs.Canonical.Meaning

namespace SinkReach

/-! ## 1. Three comparisons -/

/-- How the comparisons of three things, the first with the second, the second with the third and
the first with the third, fit together. -/
structure Chains (ab bc ac : Ordering) : Prop where
  lt : ab = .lt → bc = .lt → ac = .lt
  of_eq_left : ab = .eq → ac = bc
  of_eq_right : bc = .eq → ac = ab

/-- **Comparing by a second criterion where the first one leaves off** keeps comparisons fitting. -/
theorem Chains.then {ab bc ac ab' bc' ac' : Ordering} (h : Chains ab bc ac)
    (h' : Chains ab' bc' ac') : Chains (ab.then ab') (bc.then bc') (ac.then ac') := by
  constructor
  · intro hab hbc
    rw [Ordering.then_eq_lt] at hab hbc ⊢
    rcases hab with hab | ⟨hab, hab'⟩
    · rcases hbc with hbc | ⟨hbc, -⟩
      · exact .inl (h.lt hab hbc)
      · exact .inl ((h.of_eq_right hbc).trans hab)
    · rcases hbc with hbc | ⟨hbc, hbc'⟩
      · exact .inl ((h.of_eq_left hab).trans hbc)
      · exact .inr ⟨(h.of_eq_left hab).trans hbc, h'.lt hab' hbc'⟩
  · intro hab
    obtain ⟨hab, hab'⟩ := Ordering.then_eq_eq.mp hab
    rw [h.of_eq_left hab, h'.of_eq_left hab']
  · intro hbc
    obtain ⟨hbc, hbc'⟩ := Ordering.then_eq_eq.mp hbc
    rw [h.of_eq_right hbc, h'.of_eq_right hbc']

theorem chains_compare {α : Type} [Ord α] [Std.TransOrd α] (a b c : α) :
    Chains (compare a b) (compare b c) (compare a c) where
  lt := Std.TransCmp.lt_trans
  of_eq_left := Std.TransCmp.congr_left
  of_eq_right h := (Std.TransCmp.congr_right h).symm

/-- Where things are ranked, and what is compared further has one rank, two ranks decide. -/
theorem Chains.of_rank {i j k : Nat} {ab bc ac : Ordering} (hab : i ≠ j → ab = compare i j)
    (hbc : j ≠ k → bc = compare j k) (hac : i ≠ k → ac = compare i k)
    (h : ¬ (i = j ∧ j = k)) : Chains ab bc ac := by
  by_cases hij : i = j
  · have hik : i ≠ k := fun hik => h ⟨hij, hij ▸ hik⟩
    rw [hbc (hij ▸ hik), hac hik, hij]
    exact ⟨fun _ hlt => hlt, fun _ => rfl,
      fun heq => absurd (hij.trans (compare_eq_iff_eq.mp heq)) hik⟩
  · by_cases hjk : j = k
    · rw [hab hij, hac (hjk ▸ hij), ← hjk]
      exact ⟨fun hlt _ => hlt, fun heq => absurd (compare_eq_iff_eq.mp heq) hij, fun _ => rfl⟩
    · rw [hab hij, hbc hjk]
      refine ⟨fun hlt hlt' => ?_, fun heq => absurd (compare_eq_iff_eq.mp heq) hij,
        fun heq => absurd (compare_eq_iff_eq.mp heq) hjk⟩
      have hik : i < k := (compare_lt_iff_lt.mp hlt).trans (compare_lt_iff_lt.mp hlt')
      rw [hac hik.ne]
      exact compare_lt_iff_lt.mpr hik

theorem Constant.cmp_swap (a b : Constant) : a.cmp b = (b.cmp a).swap := by
  cases a <;> cases b <;> first | rfl | exact Std.OrientedOrd.eq_swap

theorem Constant.chains_cmp (a b c : Constant) : Chains (a.cmp b) (b.cmp c) (a.cmp c) := by
  cases a <;> cases b <;> cases c <;>
    first
    | exact chains_compare _ _ _
    | exact ⟨by simp [Constant.cmp], by simp [Constant.cmp], by simp [Constant.cmp]⟩

/-! ## 2. Trees

The operators are ordered by their places in the declarations. -/

instance : Std.TransOrd ValueSort := inferInstanceAs (Std.TransCmp (compareOn ValueSort.ctorIdx))

instance : Std.TransOrd ArithOp := inferInstanceAs (Std.TransCmp (compareOn ArithOp.ctorIdx))

instance : Std.TransOrd CompareOp := inferInstanceAs (Std.TransCmp (compareOn CompareOp.ctorIdx))

instance : Std.TransOrd Junction := inferInstanceAs (Std.TransCmp (compareOn Junction.ctorIdx))

instance : Std.TransOrd Side := inferInstanceAs (Std.TransCmp (compareOn Side.ctorIdx))

theorem Value.cmp_of_rank_ne {a b : Value} (h : a.rank ≠ b.rank) :
    a.cmp b = Ord.compare a.rank b.rank := by
  cases a <;> cases b <;> first | exact absurd rfl h | simp only [Value.cmp]

theorem Guard.cmp_of_rank_ne {a b : Guard} (h : a.rank ≠ b.rank) :
    a.cmp b = Ord.compare a.rank b.rank := by
  cases a <;> cases b <;> first | exact absurd rfl h | simp only [Guard.cmp]

theorem Value.cmp_swap_of_rank_ne {a b : Value} (h : a.rank ≠ b.rank) :
    a.cmp b = (b.cmp a).swap := by
  rw [Value.cmp_of_rank_ne h, Value.cmp_of_rank_ne h.symm]
  exact Std.OrientedOrd.eq_swap

theorem Guard.cmp_swap_of_rank_ne {a b : Guard} (h : a.rank ≠ b.rank) :
    a.cmp b = (b.cmp a).swap := by
  rw [Guard.cmp_of_rank_ne h, Guard.cmp_of_rank_ne h.symm]
  exact Std.OrientedOrd.eq_swap

theorem Value.chains_of_rank {a b c : Value} (h : ¬ (a.rank = b.rank ∧ b.rank = c.rank)) :
    Chains (a.cmp b) (b.cmp c) (a.cmp c) :=
  .of_rank Value.cmp_of_rank_ne Value.cmp_of_rank_ne Value.cmp_of_rank_ne h

theorem Guard.chains_of_rank {a b c : Guard} (h : ¬ (a.rank = b.rank ∧ b.rank = c.rank)) :
    Chains (a.cmp b) (b.cmp c) (a.cmp c) :=
  .of_rank Guard.cmp_of_rank_ne Guard.cmp_of_rank_ne Guard.cmp_of_rank_ne h

mutual

/-- **Comparing two values the other way round** gives the opposite. -/
theorem Value.cmp_swap : ∀ a b : Value, a.cmp b = (b.cmp a).swap
  | .lit x, b => by
    cases b with
    | lit y => rw [Value.cmp, Value.cmp, ← Constant.cmp_swap]
    | _ => exact Value.cmp_swap_of_rank_ne (by simp [Value.rank])
  | .var n s, b => by
    cases b with
    | var m t =>
      rw [Value.cmp, Value.cmp, Ordering.swap_then, ← Std.OrientedOrd.eq_swap,
        ← Std.OrientedOrd.eq_swap]
    | _ => exact Value.cmp_swap_of_rank_ne (by simp [Value.rank])
  | .concat ps, b => by
    cases b with
    | concat qs => rw [Value.cmp, Value.cmp, ← Value.cmpList_swap ps]
    | _ => exact Value.cmp_swap_of_rank_ne (by simp [Value.rank])
  | .arith o l r, b => by
    cases b with
    | arith o' l' r' =>
      rw [Value.cmp, Value.cmp, Ordering.swap_then, Ordering.swap_then, ← Std.OrientedOrd.eq_swap,
        ← Value.cmp_swap l, ← Value.cmp_swap r]
    | _ => exact Value.cmp_swap_of_rank_ne (by simp [Value.rank])
  | .ite c t e, b => by
    cases b with
    | ite c' t' e' =>
      rw [Value.cmp, Value.cmp, Ordering.swap_then, Ordering.swap_then, ← Guard.cmp_swap c,
        ← Value.cmp_swap t, ← Value.cmp_swap e]
    | _ => exact Value.cmp_swap_of_rank_ne (by simp [Value.rank])

theorem Value.cmpList_swap : ∀ as bs : List Value,
    Value.cmpList as bs = (Value.cmpList bs as).swap
  | [], [] => by simp [Value.cmpList]
  | [], _ :: _ => by simp [Value.cmpList]
  | _ :: _, [] => by simp [Value.cmpList]
  | a :: as, b :: bs => by
    rw [Value.cmpList, Value.cmpList, Ordering.swap_then, ← Value.cmp_swap a,
      ← Value.cmpList_swap as]

/-- **Comparing two guards the other way round** gives the opposite. -/
theorem Guard.cmp_swap : ∀ a b : Guard, a.cmp b = (b.cmp a).swap
  | .const x, b => by
    cases b with
    | const y => rw [Guard.cmp, Guard.cmp, ← Std.OrientedOrd.eq_swap]
    | _ => exact Guard.cmp_swap_of_rank_ne (by simp [Guard.rank])
  | .compare o l r, b => by
    cases b with
    | compare o' l' r' =>
      rw [Guard.cmp, Guard.cmp, Ordering.swap_then, Ordering.swap_then, ← Std.OrientedOrd.eq_swap,
        ← Value.cmp_swap l, ← Value.cmp_swap r]
    | _ => exact Guard.cmp_swap_of_rank_ne (by simp [Guard.rank])
  | .not g, b => by
    cases b with
    | not h => rw [Guard.cmp, Guard.cmp, ← Guard.cmp_swap g]
    | _ => exact Guard.cmp_swap_of_rank_ne (by simp [Guard.rank])
  | .junction k ps, b => by
    cases b with
    | junction k' qs =>
      rw [Guard.cmp, Guard.cmp, Ordering.swap_then, ← Std.OrientedOrd.eq_swap,
        ← Guard.cmpList_swap ps]
    | _ => exact Guard.cmp_swap_of_rank_ne (by simp [Guard.rank])
  | .affix s p t, b => by
    cases b with
    | affix s' p' t' =>
      rw [Guard.cmp, Guard.cmp, Ordering.swap_then, Ordering.swap_then, ← Std.OrientedOrd.eq_swap,
        ← Value.cmp_swap p, ← Value.cmp_swap t]
    | _ => exact Guard.cmp_swap_of_rank_ne (by simp [Guard.rank])

theorem Guard.cmpList_swap : ∀ as bs : List Guard,
    Guard.cmpList as bs = (Guard.cmpList bs as).swap
  | [], [] => by simp [Guard.cmpList]
  | [], _ :: _ => by simp [Guard.cmpList]
  | _ :: _, [] => by simp [Guard.cmpList]
  | a :: as, b :: bs => by
    rw [Guard.cmpList, Guard.cmpList, Ordering.swap_then, ← Guard.cmp_swap a,
      ← Guard.cmpList_swap as]

end

mutual

/-- **Comparisons of values compose.** -/
theorem Value.chains_cmp : ∀ a b c : Value, Chains (a.cmp b) (b.cmp c) (a.cmp c)
  | .lit x, b, c => by
    cases b with
    | lit y =>
      cases c with
      | lit z =>
        simp only [Value.cmp]
        exact Constant.chains_cmp x y z
      | _ => exact Value.chains_of_rank (by simp [Value.rank])
    | _ => exact Value.chains_of_rank (by simp [Value.rank])
  | .var n s, b, c => by
    cases b with
    | var n' s' =>
      cases c with
      | var n'' s'' =>
        simp only [Value.cmp]
        exact (chains_compare n n' n'').then (chains_compare s s' s'')
      | _ => exact Value.chains_of_rank (by simp [Value.rank])
    | _ => exact Value.chains_of_rank (by simp [Value.rank])
  | .concat ps, b, c => by
    cases b with
    | concat qs =>
      cases c with
      | concat rs =>
        simp only [Value.cmp]
        exact Value.chains_cmpList ps qs rs
      | _ => exact Value.chains_of_rank (by simp [Value.rank])
    | _ => exact Value.chains_of_rank (by simp [Value.rank])
  | .arith o l r, b, c => by
    cases b with
    | arith o' l' r' =>
      cases c with
      | arith o'' l'' r'' =>
        simp only [Value.cmp]
        exact (chains_compare o o' o'').then
          ((Value.chains_cmp l l' l'').then (Value.chains_cmp r r' r''))
      | _ => exact Value.chains_of_rank (by simp [Value.rank])
    | _ => exact Value.chains_of_rank (by simp [Value.rank])
  | .ite g t e, b, c => by
    cases b with
    | ite g' t' e' =>
      cases c with
      | ite g'' t'' e'' =>
        simp only [Value.cmp]
        exact (Guard.chains_cmp g g' g'').then
          ((Value.chains_cmp t t' t'').then (Value.chains_cmp e e' e''))
      | _ => exact Value.chains_of_rank (by simp [Value.rank])
    | _ => exact Value.chains_of_rank (by simp [Value.rank])

theorem Value.chains_cmpList : ∀ as bs cs : List Value,
    Chains (Value.cmpList as bs) (Value.cmpList bs cs) (Value.cmpList as cs)
  | [], bs, cs => by
    cases bs <;> cases cs <;> constructor <;> simp [Value.cmpList]
  | a :: as, bs, cs => by
    cases bs with
    | nil => cases cs <;> constructor <;> simp [Value.cmpList]
    | cons b bs =>
      cases cs with
      | nil => constructor <;> simp [Value.cmpList]
      | cons c cs =>
        simp only [Value.cmpList]
        exact (Value.chains_cmp a b c).then (Value.chains_cmpList as bs cs)

/-- **Comparisons of guards compose.** -/
theorem Guard.chains_cmp : ∀ a b c : Guard, Chains (a.cmp b) (b.cmp c) (a.cmp c)
  | .const x, b, c => by
    cases b with
    | const y =>
      cases c with
      | const z =>
        simp only [Guard.cmp]
        exact chains_compare x y z
      | _ => exact Guard.chains_of_rank (by simp [Guard.rank])
    | _ => exact Guard.chains_of_rank (by simp [Guard.rank])
  | .compare o l r, b, c => by
    cases b with
    | compare o' l' r' =>
      cases c with
      | compare o'' l'' r'' =>
        simp only [Guard.cmp]
        exact (chains_compare o o' o'').then
          ((Value.chains_cmp l l' l'').then (Value.chains_cmp r r' r''))
      | _ => exact Guard.chains_of_rank (by simp [Guard.rank])
    | _ => exact Guard.chains_of_rank (by simp [Guard.rank])
  | .not g, b, c => by
    cases b with
    | not g' =>
      cases c with
      | not g'' =>
        simp only [Guard.cmp]
        exact Guard.chains_cmp g g' g''
      | _ => exact Guard.chains_of_rank (by simp [Guard.rank])
    | _ => exact Guard.chains_of_rank (by simp [Guard.rank])
  | .junction k ps, b, c => by
    cases b with
    | junction k' qs =>
      cases c with
      | junction k'' rs =>
        simp only [Guard.cmp]
        exact (chains_compare k k' k'').then (Guard.chains_cmpList ps qs rs)
      | _ => exact Guard.chains_of_rank (by simp [Guard.rank])
    | _ => exact Guard.chains_of_rank (by simp [Guard.rank])
  | .affix s p t, b, c => by
    cases b with
    | affix s' p' t' =>
      cases c with
      | affix s'' p'' t'' =>
        simp only [Guard.cmp]
        exact (chains_compare s s' s'').then
          ((Value.chains_cmp p p' p'').then (Value.chains_cmp t t' t''))
      | _ => exact Guard.chains_of_rank (by simp [Guard.rank])
    | _ => exact Guard.chains_of_rank (by simp [Guard.rank])

theorem Guard.chains_cmpList : ∀ as bs cs : List Guard,
    Chains (Guard.cmpList as bs) (Guard.cmpList bs cs) (Guard.cmpList as cs)
  | [], bs, cs => by
    cases bs <;> cases cs <;> constructor <;> simp [Guard.cmpList]
  | a :: as, bs, cs => by
    cases bs with
    | nil => cases cs <;> constructor <;> simp [Guard.cmpList]
    | cons b bs =>
      cases cs with
      | nil => constructor <;> simp [Guard.cmpList]
      | cons c cs =>
        simp only [Guard.cmpList]
        exact (Guard.chains_cmp a b c).then (Guard.chains_cmpList as bs cs)

end

theorem Chains.isLE {ab bc ac : Ordering} (h : Chains ab bc ac) (hab : ab.isLE = true)
    (hbc : bc.isLE = true) : ac.isLE = true := by
  cases ab with
  | lt =>
    cases bc with
    | lt => rw [h.lt rfl rfl]; rfl
    | eq => rw [h.of_eq_right rfl]; rfl
    | gt => exact absurd hbc (by simp)
  | eq => rw [h.of_eq_left rfl]; exact hbc
  | gt => exact absurd hab (by simp)

instance : Std.TransCmp Value.cmp where
  eq_swap := Value.cmp_swap _ _
  isLE_trans := (Value.chains_cmp _ _ _).isLE

instance : Std.TransCmp Guard.cmp where
  eq_swap := Guard.cmp_swap _ _
  isLE_trans := (Guard.chains_cmp _ _ _).isLE

/-! ## 3. Sets of guards as lists -/

/-- The guard comes strictly before the other. -/
def Guard.Before (a b : Guard) : Prop := a.cmp b = .lt

instance (a b : Guard) : Decidable (a.Before b) := inferInstanceAs (Decidable (a.cmp b = .lt))

theorem Guard.Before.ne {a b : Guard} (h : a.Before b) : a ≠ b := by
  rintro rfl
  exact absurd (h.symm.trans (Guard.cmp_eq_iff.mpr rfl)) (by simp)

theorem Guard.Before.trans {a b c : Guard} (hab : a.Before b) (hbc : b.Before c) : a.Before c :=
  (Guard.chains_cmp a b c).lt hab hbc

theorem Guard.before_of_isLE {a b : Guard} (h : (a.cmp b).isLE = true) (hne : a ≠ b) :
    a.Before b := by
  rcases Ordering.isLE_iff_eq_lt_or_eq_eq.mp h with hlt | heq
  · exact hlt
  · exact absurd (Guard.cmp_eq_iff.mp heq) hne

instance : Std.Irrefl Guard.Before where
  irrefl _ h := h.ne rfl

instance : Std.Antisymm Guard.Before where
  antisymm _ _ hab hba := absurd rfl (hab.trans hba).ne

/-- Without its repetitions, a list in order increases strictly. -/
theorem Guard.pairwise_dropRepeats : ∀ {l : List Guard},
    l.Pairwise (fun a b => (a.cmp b).isLE = true) → (Guard.dropRepeats l).Pairwise Guard.Before
  | [], _ => by simp [Guard.dropRepeats]
  | [g], _ => by simp [Guard.dropRepeats]
  | g :: h :: rest, hl => by
    obtain ⟨hg, htail⟩ := List.pairwise_cons.mp hl
    have ih := Guard.pairwise_dropRepeats htail
    rw [Guard.dropRepeats]
    split
    · exact ih
    · next hne =>
      refine List.pairwise_cons.mpr ⟨fun x hx => ?_, ih⟩
      -- `g` is not `h`, and so is before `h`, which is the first of those that are left.
      have hgh : g.Before h := Guard.before_of_isLE (hg h (List.mem_cons_self ..)) hne
      rcases List.mem_cons.mp (Guard.mem_dropRepeats.mp hx) with rfl | hx
      · exact hgh
      · have hle : (h.cmp x).isLE = true := (List.pairwise_cons.mp htail).1 x hx
        by_cases heq : h = x
        · exact heq ▸ hgh
        · exact hgh.trans (Guard.before_of_isLE hle heq)

theorem Guard.pairwise_dropRepeats_sortBy (l : List Guard) :
    (Guard.dropRepeats (sortBy Guard.cmp l)).Pairwise Guard.Before :=
  Guard.pairwise_dropRepeats (pairwise_sortBy l)

theorem Guard.mem_dropRepeats_sortBy {g : Guard} {l : List Guard} :
    g ∈ Guard.dropRepeats (sortBy Guard.cmp l) ↔ g ∈ l := by
  rw [Guard.mem_dropRepeats, mem_sortBy]

/-- **Sorting and dropping repetitions give the strictly increasing list of the elements**, and
there is only one. -/
theorem Guard.dropRepeats_sortBy_eq {l l' : List Guard} (hl' : l'.Pairwise Guard.Before)
    (h : ∀ g, g ∈ l ↔ g ∈ l') : Guard.dropRepeats (sortBy Guard.cmp l) = l' :=
  (Guard.pairwise_dropRepeats_sortBy l).eq_of_mem_iff hl'
    fun g => Guard.mem_dropRepeats_sortBy.trans (h g)

/-- Lists with the same elements are the same list once sorted, without repetitions. -/
theorem Guard.dropRepeats_sortBy_congr {l l' : List Guard} (h : ∀ g, g ∈ l ↔ g ∈ l') :
    Guard.dropRepeats (sortBy Guard.cmp l) = Guard.dropRepeats (sortBy Guard.cmp l') :=
  Guard.dropRepeats_sortBy_eq (Guard.pairwise_dropRepeats_sortBy l')
    fun g => (h g).trans Guard.mem_dropRepeats_sortBy.symm

end SinkReach
