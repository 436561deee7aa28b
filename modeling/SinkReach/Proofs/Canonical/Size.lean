/-
# Canonical forms stay within the term

A rewriting drops nodes, merges two into one or moves them; it never copies one.  So the canonical
form of a term has AT MOST as many nodes as the term: `Value.size_canonical_le` and
`Guard.size_canonical_le`, for ill-sorted terms as well.

Each rewriting of a node is measured against the node that it replaces, operands included.  The one
case in which a node is put in is a list without parts: its constant is no larger than the empty
concatenation, or junction, in whose place it stands.

`canonical_forms_stay_within_terms` adds what canonical forms keep of the sorts and the variables.
-/
import SinkReach.Proofs.Canonical.Sorts
import SinkReach.Proofs.Canonical.Variables
import SinkReach.Proofs.Declarations
import SinkReach.Proofs.Order

namespace SinkReach

/-! ## 1. Lists of terms -/

theorem Value.sizeList_append (us vs : List Value) :
    Value.sizeList (us ++ vs) = Value.sizeList us + Value.sizeList vs := by
  induction us with
  | nil => simp [Value.sizeList]
  | cons u us ih => rw [List.cons_append, Value.sizeList, Value.sizeList, ih, Nat.add_assoc]

theorem Guard.sizeList_append (gs hs : List Guard) :
    Guard.sizeList (gs ++ hs) = Guard.sizeList gs + Guard.sizeList hs := by
  induction gs with
  | nil => simp [Guard.sizeList]
  | cons g gs ih => rw [List.cons_append, Guard.sizeList, Guard.sizeList, ih, Nat.add_assoc]

theorem Guard.sizeList_perm {gs hs : List Guard} (h : gs.Perm hs) :
    Guard.sizeList gs = Guard.sizeList hs := by
  induction h with
  | nil => rfl
  | cons g _ ih => rw [Guard.sizeList, Guard.sizeList, ih]
  | swap g h gs =>
    simp only [Guard.sizeList]
    omega
  | trans _ _ ih ih' => exact ih.trans ih'

theorem Guard.sizeList_dropRepeats_le : ∀ gs : List Guard,
    Guard.sizeList (Guard.dropRepeats gs) ≤ Guard.sizeList gs
  | [] => Nat.le_refl _
  | [_] => Nat.le_refl _
  | g :: h :: rest => by
    have ih := Guard.sizeList_dropRepeats_le (h :: rest)
    have hcons : Guard.sizeList (g :: h :: rest) = g.size + Guard.sizeList (h :: rest) := rfl
    rw [Guard.dropRepeats, hcons]
    split
    · omega
    · rw [Guard.sizeList]
      omega

/-! ## 2. Values, one node at a time -/

theorem Value.sizeList_parts_le (v : Value) : Value.sizeList v.parts ≤ v.size := by
  cases v with
  | concat ps =>
    rw [Value.parts, Value.size]
    omega
  | _ => simp [Value.parts, Value.sizeList]

theorem Value.sizeList_flatMap_parts_le (vs : List Value) :
    Value.sizeList (vs.flatMap Value.parts) ≤ Value.sizeList vs := by
  induction vs with
  | nil => exact Nat.le_refl _
  | cons v vs ih =>
    have hv := Value.sizeList_parts_le v
    rw [List.flatMap_cons, Value.sizeList_append, Value.sizeList]
    omega

/-- Two literals side by side become one, so fusing saves a node wherever it does something. -/
theorem Value.sizeList_fuseCons_le (v : Value) (rest : List Value) :
    Value.sizeList (Value.fuseCons v rest) ≤ v.size + Value.sizeList rest := by
  unfold Value.fuseCons
  split
  · split
    · omega
    · split
      · simp only [Value.sizeList, Value.size]
        omega
      · exact Nat.le_refl _
  · exact Nat.le_refl _

theorem Value.sizeList_fuse_le (vs : List Value) :
    Value.sizeList (Value.fuse vs) ≤ Value.sizeList vs := by
  unfold Value.fuse
  induction vs with
  | nil => exact Nat.le_refl _
  | cons v vs ih =>
    have hcons := Value.sizeList_fuseCons_le v (vs.foldr Value.fuseCons [])
    rw [List.foldr_cons, Value.sizeList]
    omega

theorem Value.size_ofParts_le : ∀ vs : List Value,
    (Value.ofParts vs).size ≤ 1 + Value.sizeList vs
  | [] => Nat.le_refl _
  | [v] => by
    rw [Value.ofParts, Value.sizeList, Value.sizeList]
    omega
  | _ :: _ :: _ => Nat.le_refl _

theorem Value.size_join_le (vs : List Value) : (Value.join vs).size ≤ 1 + Value.sizeList vs := by
  calc (Value.join vs).size
      ≤ 1 + Value.sizeList (Value.fuse (vs.flatMap Value.parts)) := Value.size_ofParts_le _
    _ ≤ 1 + Value.sizeList (vs.flatMap Value.parts) :=
      Nat.add_le_add_left (Value.sizeList_fuse_le _) 1
    _ ≤ 1 + Value.sizeList vs := Nat.add_le_add_left (Value.sizeList_flatMap_parts_le vs) 1

theorem Value.size_choose_le (g : Guard) (yes no : Value) :
    (Value.choose g yes no).size ≤ 1 + g.size + yes.size + no.size := by
  unfold Value.choose
  split
  · omega
  · omega
  · split
    · omega
    · exact Nat.le_refl _

/-! ## 3. Guards, one node at a time -/

/-- A constant is no larger than a test of two values, in whose place it may stand. -/
theorem Guard.size_const_le (b : Bool) (l r : Value) :
    (Guard.const b).size ≤ 1 + l.size + r.size := by
  rw [Guard.size]
  omega

theorem Guard.size_ofCompare_le (op : CompareOp) (l r : Value) :
    (Guard.ofCompare op l r).size ≤ 1 + l.size + r.size := by
  unfold Guard.ofCompare
  split
  · exact Guard.size_const_le _ l r
  · split
    · exact Guard.size_const_le _ _ _
    · exact Guard.size_const_le _ _ _
    · exact Nat.le_refl _

theorem Guard.size_negate_le (g : Guard) : g.negate.size ≤ 1 + g.size := by
  cases g with
  | not h =>
    rw [Guard.negate, Guard.size]
    omega
  | _ => simp [Guard.negate, Guard.size]

theorem Guard.size_ofAffix_le (side : Side) (part text : Value) :
    (Guard.ofAffix side part text).size ≤ 1 + part.size + text.size := by
  unfold Guard.ofAffix
  split
  · exact Guard.size_const_le _ _ _
  · split
    · exact Guard.size_const_le _ _ _
    · exact Nat.le_refl _

theorem Junction.sizeList_contribution_le (j : Junction) (g : Guard) :
    Guard.sizeList (j.contribution g) ≤ g.size := by
  cases g with
  | const b => exact Nat.zero_le _
  | junction k ps =>
    rw [Junction.contribution]
    split
    · rw [Guard.size]
      omega
    · exact Nat.le_refl _
  | _ => exact Nat.le_refl _

theorem Junction.sizeList_flatMap_contribution_le (j : Junction) (gs : List Guard) :
    Guard.sizeList (gs.flatMap j.contribution) ≤ Guard.sizeList gs := by
  induction gs with
  | nil => exact Nat.le_refl _
  | cons g gs ih =>
    have hg := j.sizeList_contribution_le g
    rw [List.flatMap_cons, Guard.sizeList_append, Guard.sizeList]
    omega

theorem Junction.size_ofParts_le (j : Junction) : ∀ gs : List Guard,
    (j.ofParts gs).size ≤ 1 + Guard.sizeList gs
  | [] => Nat.le_refl _
  | [g] => by
    rw [Junction.ofParts, Guard.sizeList, Guard.sizeList]
    omega
  | _ :: _ :: _ => Nat.le_refl _

theorem Junction.size_join_le (j : Junction) (gs : List Guard) :
    (j.join gs).size ≤ 1 + Guard.sizeList gs := by
  unfold Junction.join
  split
  · exact Nat.le_add_right 1 _
  · have hparts := j.size_ofParts_le
      (Guard.dropRepeats (sortBy Guard.cmp (gs.flatMap j.contribution)))
    have hdrop := Guard.sizeList_dropRepeats_le (sortBy Guard.cmp (gs.flatMap j.contribution))
    have hsort : Guard.sizeList (sortBy Guard.cmp (gs.flatMap j.contribution))
        = Guard.sizeList (gs.flatMap j.contribution) := Guard.sizeList_perm (sortBy_perm _)
    have hflat := j.sizeList_flatMap_contribution_le gs
    omega

/-! ## 4. Whole trees -/

mutual

/-- **The canonical form of a value is no larger than the value.** -/
theorem Value.size_canonical_le : ∀ v : Value, v.canonical.size ≤ v.size
  | .lit _ => Nat.le_refl _
  | .var _ _ => Nat.le_refl _
  | .concat parts => by
    have hjoin := Value.size_join_le (Value.canonicalAll parts)
    have ih := Value.sizeList_canonicalAll_le parts
    rw [Value.canonical, Value.size]
    omega
  | .arith _ l r => by
    have hl := Value.size_canonical_le l
    have hr := Value.size_canonical_le r
    rw [Value.canonical, Value.size, Value.size]
    omega
  | .ite c t e => by
    have hchoose := Value.size_choose_le c.canonical t.canonical e.canonical
    have hc := Guard.size_canonical_le c
    have ht := Value.size_canonical_le t
    have he := Value.size_canonical_le e
    rw [Value.canonical, Value.size]
    omega

theorem Value.sizeList_canonicalAll_le : ∀ vs : List Value,
    Value.sizeList (Value.canonicalAll vs) ≤ Value.sizeList vs
  | [] => Nat.le_refl _
  | v :: vs => Nat.add_le_add (Value.size_canonical_le v) (Value.sizeList_canonicalAll_le vs)

/-- **The canonical form of a guard is no larger than the guard.** -/
theorem Guard.size_canonical_le : ∀ g : Guard, g.canonical.size ≤ g.size
  | .const _ => Nat.le_refl _
  | .compare op l r => by
    have hcompare := Guard.size_ofCompare_le op l.canonical r.canonical
    have hl := Value.size_canonical_le l
    have hr := Value.size_canonical_le r
    rw [Guard.canonical, Guard.size]
    omega
  | .not g => by
    have hnegate := Guard.size_negate_le g.canonical
    have hg := Guard.size_canonical_le g
    rw [Guard.canonical, Guard.size]
    omega
  | .junction kind parts => by
    have hjoin := kind.size_join_le (Guard.canonicalAll parts)
    have ih := Guard.sizeList_canonicalAll_le parts
    rw [Guard.canonical, Guard.size]
    omega
  | .affix side part text => by
    have haffix := Guard.size_ofAffix_le side part.canonical text.canonical
    have hp := Value.size_canonical_le part
    have ht := Value.size_canonical_le text
    rw [Guard.canonical, Guard.size]
    omega

theorem Guard.sizeList_canonicalAll_le : ∀ gs : List Guard,
    Guard.sizeList (Guard.canonicalAll gs) ≤ Guard.sizeList gs
  | [] => Nat.le_refl _
  | g :: gs => Nat.add_le_add (Guard.size_canonical_le g) (Guard.sizeList_canonicalAll_le gs)

end

/-! ## 5. Sorts, variables and nodes -/

/-- **Canonical forms stay within their terms.**  They keep the sort of a value and the
well-sortedness of a guard.  If the variables of a term can be collected, so can those of its
canonical form, which declare no other variables and none with another sort.  And no term, whether
it is well-sorted or not, has a canonical form with more nodes. -/
theorem canonical_forms_stay_within_terms :
    (∀ (v : Value) (s : ValueSort), v.sort = .ok s → v.canonical.sort = .ok s) ∧
    (∀ g : Guard, g.check = .ok () → g.canonical.check = .ok ()) ∧
    (∀ (v : Value) (vars : Declarations), v.collectVars .empty = .ok vars →
      ∃ vars', v.canonical.collectVars .empty = .ok vars' ∧
        ∀ name s, vars'.find? name = some s → vars.find? name = some s) ∧
    (∀ (g : Guard) (vars : Declarations), g.collectVars .empty = .ok vars →
      ∃ vars', g.canonical.collectVars .empty = .ok vars' ∧
        ∀ name s, vars'.find? name = some s → vars.find? name = some s) ∧
    (∀ v : Value, v.canonical.size ≤ v.size) ∧
    ∀ g : Guard, g.canonical.size ≤ g.size := by
  refine ⟨?_, ?_, ?_, ?_, Value.size_canonical_le, Guard.size_canonical_le⟩
  · intro v s hs
    exact Value.sort_canonical hs
  · intro g hg
    exact Guard.check_canonical hg
  · intro v vars hvars
    exact Declarations.exists_declareAll_of_subset hvars (Value.occurrences_canonical v)
  · intro g vars hvars
    exact Declarations.exists_declareAll_of_subset hvars (Guard.occurrences_canonical g)

/-- A path whose last part is chosen by a test that always has the same outcome, so that the
canonical form takes one branch and knows nothing of the variables of the test and of the other. -/
def settledPath : Value :=
  .concat [.str "/proc", .concat [.str "/", .stringVar "pid"],
    .ite (.not (.compare .ne (.intVar "mode") (.intVar "mode"))) (.str "/mem") (.stringVar "other")]

theorem canonical_forms_stay_within_terms_settledPath :
    let test := Guard.not (.all [.const true, .affix .start (.str "/") settledPath])
    (settledPath.sort = .ok .string ∧ settledPath.canonical.sort = .ok .string) ∧
    (test.check = .ok () ∧ test.canonical.check = .ok ()) ∧
    (∃ vars vars', settledPath.collectVars .empty = .ok vars ∧
      settledPath.canonical.collectVars .empty = .ok vars' ∧
      (∀ name s, vars'.find? name = some s → vars.find? name = some s) ∧
      vars.find? "mode" = some .int ∧ vars'.find? "mode" ≠ some .int) ∧
    (∃ vars vars', test.collectVars .empty = .ok vars ∧
      test.canonical.collectVars .empty = .ok vars' ∧
      (∀ name s, vars'.find? name = some s → vars.find? name = some s) ∧
      vars'.find? "pid" = some .string) ∧
    settledPath.canonical.size ≤ settledPath.size ∧ test.canonical.size ≤ test.size := by
  intro test
  obtain ⟨hsort, hcheck, hvalue, hguard, hsize, hsizeGuard⟩ := canonical_forms_stay_within_terms
  obtain ⟨vars, hvars⟩ := Declarations.exists_declareAll_empty_iff.mpr
    (by decide : Declarations.OneSorted settledPath.occurrences)
  obtain ⟨tested, htested⟩ := Declarations.exists_declareAll_empty_iff.mpr
    (by decide : Declarations.OneSorted test.occurrences)
  obtain ⟨vars', hvars', hwithin⟩ := hvalue settledPath vars hvars
  obtain ⟨tested', htested', hwithinTest⟩ := hguard test tested htested
  refine ⟨⟨rfl, hsort settledPath .string rfl⟩, ⟨rfl, hcheck test rfl⟩,
    ⟨vars, vars', hvars, hvars', hwithin, ?_, ?_⟩,
    ⟨tested, tested', htested, htested', hwithinTest, ?_⟩, hsize settledPath, hsizeGuard test⟩
  · exact (Declarations.declareAll_empty hvars).mpr (by decide)
  · rw [Ne, Declarations.declareAll_empty hvars']
    decide +kernel
  · exact (Declarations.declareAll_empty htested').mpr (by decide +kernel)

end SinkReach
