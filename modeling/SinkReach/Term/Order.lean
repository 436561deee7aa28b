/-
# The structural order of terms

Values and guards are ordered by the kind of their root, then by its fields from left to right;
lists are ordered lexicographically and strings by code point.  The order is what puts the parts
of a junction into one sequence, whatever sequence they came in.

Main statements: `Value.cmp_eq_iff` and `Guard.cmp_eq_iff`, two trees compare as equal
exactly when they are the same tree.  They make equality of trees decidable.
-/
import SinkReach.Term.Basic

namespace SinkReach

/-! ## 1. Constants and operators -/

/-- Truth values come before integers and integers before strings. -/
def Constant.cmp : Constant → Constant → Ordering
  | .bool a, .bool b => Ord.compare a b
  | .bool _, _ => .lt
  | .int _, .bool _ => .gt
  | .int a, .int b => Ord.compare a.toInt b.toInt
  | .int _, .str _ => .lt
  | .str a, .str b => Ord.compare a b
  | .str _, _ => .gt

theorem Constant.cmp_eq_iff {a b : Constant} : a.cmp b = .eq ↔ a = b := by
  cases a <;> cases b <;>
    simp [Constant.cmp, Int64.toInt_inj]

theorem ValueSort.compare_eq_iff {a b : ValueSort} : Ord.compare a b = .eq ↔ a = b := by
  cases a <;> cases b <;> decide

theorem ArithOp.compare_eq_iff {a b : ArithOp} : Ord.compare a b = .eq ↔ a = b := by
  cases a <;> cases b <;> decide

theorem CompareOp.compare_eq_iff {a b : CompareOp} : Ord.compare a b = .eq ↔ a = b := by
  cases a <;> cases b <;> decide

theorem Junction.compare_eq_iff {a b : Junction} : Ord.compare a b = .eq ↔ a = b := by
  cases a <;> cases b <;> decide

theorem Side.compare_eq_iff {a b : Side} : Ord.compare a b = .eq ↔ a = b := by
  cases a <;> cases b <;> decide

/-! ## 2. Trees -/

/-- The place of a value's root among the kinds of values. -/
def Value.rank : Value → Nat
  | .lit _ => 0
  | .var _ _ => 1
  | .concat _ => 2
  | .arith _ _ _ => 3
  | .ite _ _ _ => 4

/-- The place of a guard's root among the kinds of guards. -/
def Guard.rank : Guard → Nat
  | .const _ => 0
  | .compare _ _ _ => 1
  | .not _ => 2
  | .junction _ _ => 3
  | .affix _ _ _ => 4

mutual

/-- The structural order of values. -/
def Value.cmp : Value → Value → Ordering
  | .lit a, .lit b => a.cmp b
  | .var n s, .var m t => (Ord.compare n m).then (Ord.compare s t)
  | .concat ps, .concat qs => Value.cmpList ps qs
  | .arith o l r, .arith o' l' r' =>
    (Ord.compare o o').then ((l.cmp l').then (r.cmp r'))
  | .ite c t e, .ite c' t' e' => (c.cmp c').then ((t.cmp t').then (e.cmp e'))
  | a, b => Ord.compare a.rank b.rank

/-- The lexicographic order of lists of values. -/
def Value.cmpList : List Value → List Value → Ordering
  | [], [] => .eq
  | [], _ :: _ => .lt
  | _ :: _, [] => .gt
  | a :: as, b :: bs => (a.cmp b).then (Value.cmpList as bs)

/-- The structural order of guards. -/
def Guard.cmp : Guard → Guard → Ordering
  | .const a, .const b => Ord.compare a b
  | .compare o l r, .compare o' l' r' =>
    (Ord.compare o o').then ((l.cmp l').then (r.cmp r'))
  | .not g, .not h => g.cmp h
  | .junction k ps, .junction k' qs => (Ord.compare k k').then (Guard.cmpList ps qs)
  | .affix s p t, .affix s' p' t' => (Ord.compare s s').then ((p.cmp p').then (t.cmp t'))
  | a, b => Ord.compare a.rank b.rank

/-- The lexicographic order of lists of guards. -/
def Guard.cmpList : List Guard → List Guard → Ordering
  | [], [] => .eq
  | [], _ :: _ => .lt
  | _ :: _, [] => .gt
  | a :: as, b :: bs => (a.cmp b).then (Guard.cmpList as bs)

end

/-! ## 3. Equality -/

mutual

/-- Two values compare as equal exactly when they are the same. -/
theorem Value.cmp_eq_iff : ∀ {a b : Value}, a.cmp b = .eq ↔ a = b
  | .lit _, b => by
    cases b <;> simp [Value.cmp, Value.rank, Constant.cmp_eq_iff]
  | .var _ _, b => by
    cases b <;> simp [Value.cmp, Value.rank, ValueSort.compare_eq_iff]
  | .concat ps, b => by
    cases b <;> simp [Value.cmp, Value.rank, Value.cmpList_eq_iff (p := ps)]
  | .arith _ l r, b => by
    cases b <;> simp [Value.cmp, Value.rank, ArithOp.compare_eq_iff,
      Value.cmp_eq_iff (a := l), Value.cmp_eq_iff (a := r)]
  | .ite c t e, b => by
    cases b <;> simp [Value.cmp, Value.rank, Guard.cmp_eq_iff (a := c),
      Value.cmp_eq_iff (a := t), Value.cmp_eq_iff (a := e)]

theorem Value.cmpList_eq_iff : ∀ {p q : List Value}, Value.cmpList p q = .eq ↔ p = q
  | [], q => by cases q <;> simp [Value.cmpList]
  | a :: p, q => by
    cases q <;> simp [Value.cmpList, Value.cmp_eq_iff (a := a), Value.cmpList_eq_iff (p := p)]

/-- Two guards compare as equal exactly when they are the same. -/
theorem Guard.cmp_eq_iff : ∀ {a b : Guard}, a.cmp b = .eq ↔ a = b
  | .const _, b => by
    cases b <;> simp [Guard.cmp, Guard.rank]
  | .compare _ l r, b => by
    cases b <;> simp [Guard.cmp, Guard.rank, CompareOp.compare_eq_iff,
      Value.cmp_eq_iff (a := l), Value.cmp_eq_iff (a := r)]
  | .not g, b => by
    cases b <;> simp [Guard.cmp, Guard.rank, Guard.cmp_eq_iff (a := g)]
  | .junction _ ps, b => by
    cases b <;> simp [Guard.cmp, Guard.rank, Junction.compare_eq_iff,
      Guard.cmpList_eq_iff (p := ps)]
  | .affix _ p t, b => by
    cases b <;> simp [Guard.cmp, Guard.rank, Side.compare_eq_iff,
      Value.cmp_eq_iff (a := p), Value.cmp_eq_iff (a := t)]

theorem Guard.cmpList_eq_iff : ∀ {p q : List Guard}, Guard.cmpList p q = .eq ↔ p = q
  | [], q => by cases q <;> simp [Guard.cmpList]
  | a :: p, q => by
    cases q <;> simp [Guard.cmpList, Guard.cmp_eq_iff (a := a), Guard.cmpList_eq_iff (p := p)]

end

instance : DecidableEq Value := fun a b => decidable_of_iff (a.cmp b = .eq) Value.cmp_eq_iff

instance : DecidableEq Guard := fun a b => decidable_of_iff (a.cmp b = .eq) Guard.cmp_eq_iff

end SinkReach
