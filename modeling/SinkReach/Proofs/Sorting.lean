/-
# What sorting keeps

The sort is the insertion sort of the library (`sortBy_eq_insertionSort`), from which the rest
follows: the elements are kept, they come out in the order of the comparison, and those that may
stand either way keep the order they came in (`filter_sortBy`).  Only for the second of these does
the comparison have to be an order.
-/
import Mathlib.Data.List.Sort
import SinkReach.Order

namespace SinkReach

variable {α : Type} {cmp : α → α → Ordering}

theorem insertBy_eq_orderedInsert (a : α) (l : List α) :
    insertBy cmp a l = l.orderedInsert (fun x y => (cmp x y).isLE = true) a := by
  induction l with
  | nil => rfl
  | cons b bs ih => rw [insertBy, List.orderedInsert_cons, ih]

theorem sortBy_eq_insertionSort (l : List α) :
    sortBy cmp l = l.insertionSort fun x y => (cmp x y).isLE = true := by
  induction l with
  | nil => rfl
  | cons a l ih =>
    rw [List.insertionSort_cons, ← ih, ← insertBy_eq_orderedInsert]
    rfl

/-- Sorting only changes the order. -/
theorem sortBy_perm (l : List α) : (sortBy cmp l).Perm l := by
  rw [sortBy_eq_insertionSort]
  exact List.perm_insertionSort _ l

/-- Sorting keeps the elements. -/
theorem mem_sortBy {x : α} {l : List α} : x ∈ sortBy cmp l ↔ x ∈ l :=
  (sortBy_perm l).mem_iff

instance isLE_total [Std.OrientedCmp cmp] : Std.Total fun x y => (cmp x y).isLE = true where
  total a b := by
    have hswap : cmp b a = (cmp a b).swap := Std.OrientedCmp.eq_swap
    rw [hswap]
    cases cmp a b <;> simp

instance isLE_trans [Std.TransCmp cmp] : IsTrans α fun x y => (cmp x y).isLE = true where
  trans _ _ _ := Std.TransCmp.isLE_trans

/-- What has been sorted is in order. -/
theorem pairwise_sortBy [Std.TransCmp cmp] (l : List α) :
    (sortBy cmp l).Pairwise fun x y => (cmp x y).isLE = true := by
  rw [sortBy_eq_insertionSort]
  exact List.pairwise_insertionSort _ l

/-- **Sorting is stable**: elements none of which exceeds another keep the order they came in. -/
theorem filter_sortBy {p : α → Bool} (l : List α)
    (h : ∀ a b, p a = true → p b = true → (cmp a b).isLE = true) :
    (sortBy cmp l).filter p = l.filter p := by
  have hchosen : (l.filter p).Pairwise fun a b => (cmp a b).isLE = true :=
    List.pairwise_of_forall_mem_list fun a ha b hb =>
      h a b (List.of_mem_filter ha) (List.of_mem_filter hb)
  have hkept : (l.filter p).Sublist (sortBy cmp l) := by
    rw [sortBy_eq_insertionSort]
    exact List.sublist_insertionSort hchosen List.filter_sublist
  have hagain : (l.filter p).Sublist ((sortBy cmp l).filter p) := by
    simpa using hkept.filter p
  -- a sublist that has as many elements is the whole list
  exact (hagain.eq_of_length ((sortBy_perm l).filter p).length_eq.symm).symm

end SinkReach
