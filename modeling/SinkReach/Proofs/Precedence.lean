/-
# The structural order by its rules

Which of two trees comes first is said here by RULES, one for each place where the trees may
differ for the first time: the kind of the root, a field of it, an item of a list, a byte of a
text.  `Value.Precedes` and `Guard.Precedes` are these rules, and they do not mention the
comparison.

* `utf8Bytes_lt_iff`: texts are ordered by code point, which is the order of their bytes in UTF-8;
* `Value.cmp_eq_lt_iff`, `Guard.cmp_eq_lt_iff`: the comparison says "less" exactly where the rules
  do;
* `structural_order_is_linear`: so the rules give a linear order on all trees, and sorting by it
  and dropping repetitions gives the one strictly increasing list of a set of guards.
-/
import SinkReach.Proofs.Canonical.Constructions

namespace SinkReach

/-! ## 1. Texts as bytes -/

/-- The bytes of a text in UTF-8. -/
def utf8Bytes (s : String) : List UInt8 := s.toUTF8.data.toList

theorem utf8Bytes_eq_flatMap (s : String) :
    utf8Bytes s = s.toList.flatMap String.utf8EncodeChar := by
  have hbytes : s.toUTF8 = s.toList.utf8Encode := by
    rw [String.toUTF8_eq_toByteArray, ← String.toByteArray_ofList, String.ofList_toList]
  rw [utf8Bytes, hbytes, List.utf8Encode, List.data_toByteArray]

theorem toNat_val_lt (c : Char) : c.val.toNat < 0x110000 := by
  rcases c.valid with h | h
  · exact Nat.lt_trans h (by decide)
  · exact h.2

/-- Of two numbers, the smaller one is smaller at the first of their digits that differ, where the
digits are those of base 64. -/
theorem digits_lt {v w : Nat} (h : v < w) :
    v / 262144 < w / 262144 ∨ v / 262144 = w / 262144 ∧
      (v / 4096 % 64 < w / 4096 % 64 ∨ v / 4096 % 64 = w / 4096 % 64 ∧
        (v / 64 % 64 < w / 64 % 64 ∨ v / 64 % 64 = w / 64 % 64 ∧ v % 64 < w % 64)) := by
  have h4096 (n : Nat) : n / 4096 = n / 64 / 64 := (Nat.div_div_eq_div_mul n 64 64).symm
  have h262144 (n : Nat) : n / 262144 = n / 64 / 64 / 64 := by
    rw [← h4096, Nat.div_div_eq_div_mul]
  rw [h4096, h4096, h262144, h262144]
  omega

/-- Bytes compare as the numbers they are made of. -/
theorem byte_cons_lt_iff {m n : Nat} (hm : m < 256) (hn : n < 256) {x y : List UInt8} :
    UInt8.ofNat m :: x < UInt8.ofNat n :: y ↔ m < n ∨ m = n ∧ x < y := by
  rw [List.cons_lt_cons_iff, UInt8.lt_iff_toNat_lt, ← UInt8.toNat_inj,
    UInt8.toNat_ofNat_of_lt' hm, UInt8.toNat_ofNat_of_lt' hn]

theorem utf8EncodeChar_ne_nil (c : Char) : String.utf8EncodeChar c ≠ [] := by
  simp only [String.utf8EncodeChar]
  split_ifs <;> simp

/-- **The encodings of two characters are ordered as the characters are**, whatever follows them:
neither is the beginning of the other. -/
theorem utf8EncodeChar_append_lt {c d : Char} (h : c < d) (x y : List UInt8) :
    String.utf8EncodeChar c ++ x < String.utf8EncodeChar d ++ y := by
  have hlt : c.val.toNat < d.val.toNat := UInt32.lt_iff_toNat_lt.mp h
  have hdigits := digits_lt hlt
  have hd := toNat_val_lt d
  -- four bytes have room for the highest digit as it is
  have hleadc : c.val.toNat / 262144 % 8 = c.val.toNat / 262144 := by omega
  have hleadd : d.val.toNat / 262144 % 8 = d.val.toNat / 262144 := by omega
  simp only [String.utf8EncodeChar]
  -- a longer encoding has the greater first byte; those of one length compare by their digits
  split_ifs <;>
    simp (disch := omega) only [List.cons_append, List.nil_append, byte_cons_lt_iff] <;>
    omega

theorem flatMap_utf8EncodeChar_lt {l r : List Char} (h : l < r) :
    l.flatMap String.utf8EncodeChar < r.flatMap String.utf8EncodeChar := by
  induction h with
  | @nil c cs =>
    obtain ⟨b, bs, hb⟩ := List.exists_cons_of_ne_nil (utf8EncodeChar_ne_nil c)
    rw [List.flatMap_cons, hb]
    exact List.nil_lt_cons ..
  | rel hlt => exact utf8EncodeChar_append_lt hlt _ _
  | cons _ ih => exact List.append_left_lt ih

/-- **Texts are ordered as their bytes are.** -/
theorem utf8Bytes_lt_iff {s t : String} : utf8Bytes s < utf8Bytes t ↔ s < t := by
  have hmono {a b : String} (h : a < b) : utf8Bytes a < utf8Bytes b := by
    rw [utf8Bytes_eq_flatMap, utf8Bytes_eq_flatMap]
    exact flatMap_utf8EncodeChar_lt h
  refine ⟨fun h => ?_, hmono⟩
  by_contra hnot
  by_cases heq : s = t
  · exact List.lt_irrefl (utf8Bytes t) (heq ▸ h)
  · exact List.lt_asymm h (hmono (Bindings.lt_of_not_lt_of_ne hnot heq))

theorem compare_text_eq_lt_iff {s t : String} :
    Ord.compare s t = .lt ↔ utf8Bytes s < utf8Bytes t :=
  Batteries.compareOfLessAndEq_eq_lt.trans utf8Bytes_lt_iff.symm

/-! ## 2. The rules

Operators, sorts and kinds of roots are ordered by their places in their declarations. -/

/-- The constant comes before the other. -/
inductive Constant.Precedes : Constant → Constant → Prop
  /-- Truth values, then integers, then texts. -/
  | kind {a b : Constant} (h : a.ctorIdx < b.ctorIdx) : Precedes a b
  | bool : Precedes (.bool false) (.bool true)
  | int {m n : Int64} (h : m.toInt < n.toInt) : Precedes (.int m) (.int n)
  | str {s t : String} (h : utf8Bytes s < utf8Bytes t) : Precedes (.str s) (.str t)

/-- The place of a guard among the SEVEN kinds of guards: constants, comparisons, negations,
conjunctions, disjunctions, tests of a beginning and tests of an end. -/
def Guard.kind : Guard → Nat
  | .const _ => 0
  | .compare _ _ _ => 1
  | .not _ => 2
  | .junction .all _ => 3
  | .junction .any _ => 4
  | .affix .start _ _ => 5
  | .affix .finish _ _ => 6

mutual

/-- The value comes before the other: its kind does, or both are of one kind and the first field
that differs does. -/
inductive Value.Precedes : Value → Value → Prop
  | kind {a b : Value} (h : a.ctorIdx < b.ctorIdx) : Value.Precedes a b
  | lit {c d : Constant} (h : c.Precedes d) : Value.Precedes (.lit c) (.lit d)
  | name {n m : String} {s t : ValueSort} (h : utf8Bytes n < utf8Bytes m) :
    Value.Precedes (.var n s) (.var m t)
  | sort {n : String} {s t : ValueSort} (h : s.ctorIdx < t.ctorIdx) :
    Value.Precedes (.var n s) (.var n t)
  | parts {ps qs : List Value} (h : List.Lex Value.Precedes ps qs) :
    Value.Precedes (.concat ps) (.concat qs)
  | op {o o' : ArithOp} {l l' r r' : Value} (h : o.ctorIdx < o'.ctorIdx) :
    Value.Precedes (.arith o l r) (.arith o' l' r')
  | left {o : ArithOp} {l l' r r' : Value} (h : Value.Precedes l l') :
    Value.Precedes (.arith o l r) (.arith o l' r')
  | right {o : ArithOp} {l r r' : Value} (h : Value.Precedes r r') :
    Value.Precedes (.arith o l r) (.arith o l r')
  | cond {c c' : Guard} {t t' e e' : Value} (h : Guard.Precedes c c') :
    Value.Precedes (.ite c t e) (.ite c' t' e')
  | yes {c : Guard} {t t' e e' : Value} (h : Value.Precedes t t') :
    Value.Precedes (.ite c t e) (.ite c t' e')
  | no {c : Guard} {t e e' : Value} (h : Value.Precedes e e') :
    Value.Precedes (.ite c t e) (.ite c t e')

/-- The guard comes before the other: its kind does, or both are of one kind and the first field
that differs does. -/
inductive Guard.Precedes : Guard → Guard → Prop
  | kind {a b : Guard} (h : a.kind < b.kind) : Guard.Precedes a b
  | const : Guard.Precedes (.const false) (.const true)
  | op {o o' : CompareOp} {l l' r r' : Value} (h : o.ctorIdx < o'.ctorIdx) :
    Guard.Precedes (.compare o l r) (.compare o' l' r')
  | left {o : CompareOp} {l l' r r' : Value} (h : Value.Precedes l l') :
    Guard.Precedes (.compare o l r) (.compare o l' r')
  | right {o : CompareOp} {l r r' : Value} (h : Value.Precedes r r') :
    Guard.Precedes (.compare o l r) (.compare o l r')
  | not {g h : Guard} (hgh : Guard.Precedes g h) : Guard.Precedes (.not g) (.not h)
  | parts {k : Junction} {ps qs : List Guard} (h : List.Lex Guard.Precedes ps qs) :
    Guard.Precedes (.junction k ps) (.junction k qs)
  | part {s : Side} {p p' t t' : Value} (h : Value.Precedes p p') :
    Guard.Precedes (.affix s p t) (.affix s p' t')
  | text {s : Side} {p t t' : Value} (h : Value.Precedes t t') :
    Guard.Precedes (.affix s p t) (.affix s p t')

end

/-! ## 3. Each rule for two roots of one kind -/

theorem ValueSort.compare_eq_lt_iff {s t : ValueSort} :
    Ord.compare s t = .lt ↔ s.ctorIdx < t.ctorIdx :=
  Std.compare_eq_lt (α := Nat)

theorem ArithOp.compare_eq_lt_iff {o o' : ArithOp} :
    Ord.compare o o' = .lt ↔ o.ctorIdx < o'.ctorIdx :=
  Std.compare_eq_lt (α := Nat)

theorem CompareOp.compare_eq_lt_iff {o o' : CompareOp} :
    Ord.compare o o' = .lt ↔ o.ctorIdx < o'.ctorIdx :=
  Std.compare_eq_lt (α := Nat)

theorem Junction.compare_eq_lt_iff {k k' : Junction} :
    Ord.compare k k' = .lt ↔ k.ctorIdx < k'.ctorIdx :=
  Std.compare_eq_lt (α := Nat)

theorem Side.compare_eq_lt_iff {s s' : Side} :
    Ord.compare s s' = .lt ↔ s.ctorIdx < s'.ctorIdx :=
  Std.compare_eq_lt (α := Nat)

theorem Constant.cmp_eq_lt_iff {a b : Constant} : a.cmp b = .lt ↔ a.Precedes b := by
  constructor
  · intro h
    cases a with
    | bool x =>
      cases b with
      | bool y =>
        obtain ⟨rfl, rfl⟩ := Bool.lt_iff.mp (compare_lt_iff_lt.mp h)
        exact .bool
      | _ => exact .kind (by simp [Constant.ctorIdx])
    | int m =>
      cases b with
      | bool y => exact absurd h (by simp [Constant.cmp])
      | int n => exact .int (Std.compare_eq_lt.mp h)
      | str t => exact .kind (by simp [Constant.ctorIdx])
    | str s =>
      cases b with
      | str t => exact .str (compare_text_eq_lt_iff.mp h)
      | _ => exact absurd h (by simp [Constant.cmp])
  · intro h
    cases h with
    | kind h => cases a <;> cases b <;> simp [Constant.ctorIdx, Constant.cmp] at h ⊢
    | bool => rfl
    | int h => exact Std.compare_eq_lt.mpr h
    | str h => exact compare_text_eq_lt_iff.mpr h

namespace Value

theorem lit_precedes_iff {c d : Constant} : (lit c).Precedes (.lit d) ↔ c.Precedes d := by
  constructor
  · intro h
    cases h with
    | kind h => exact absurd h (Nat.lt_irrefl _)
    | lit h => exact h
  · exact .lit

theorem var_precedes_iff {n m : String} {s t : ValueSort} :
    (var n s).Precedes (.var m t) ↔
      utf8Bytes n < utf8Bytes m ∨ n = m ∧ s.ctorIdx < t.ctorIdx := by
  constructor
  · intro h
    cases h with
    | kind h => exact absurd h (Nat.lt_irrefl _)
    | name h => exact .inl h
    | sort h => exact .inr ⟨rfl, h⟩
  · rintro (h | ⟨rfl, h⟩)
    · exact .name h
    · exact .sort h

theorem concat_precedes_iff {ps qs : List Value} :
    (concat ps).Precedes (.concat qs) ↔ List.Lex Value.Precedes ps qs := by
  constructor
  · intro h
    cases h with
    | kind h => exact absurd h (Nat.lt_irrefl _)
    | parts h => exact h
  · exact .parts

theorem arith_precedes_iff {o o' : ArithOp} {l l' r r' : Value} :
    (arith o l r).Precedes (.arith o' l' r') ↔
      o.ctorIdx < o'.ctorIdx ∨ o = o' ∧ (l.Precedes l' ∨ l = l' ∧ r.Precedes r') := by
  constructor
  · intro h
    cases h with
    | kind h => exact absurd h (Nat.lt_irrefl _)
    | op h => exact .inl h
    | left h => exact .inr ⟨rfl, .inl h⟩
    | right h => exact .inr ⟨rfl, .inr ⟨rfl, h⟩⟩
  · rintro (h | ⟨rfl, h | ⟨rfl, h⟩⟩)
    · exact .op h
    · exact .left h
    · exact .right h

theorem ite_precedes_iff {c c' : Guard} {t t' e e' : Value} :
    (ite c t e).Precedes (.ite c' t' e') ↔
      c.Precedes c' ∨ c = c' ∧ (t.Precedes t' ∨ t = t' ∧ e.Precedes e') := by
  constructor
  · intro h
    cases h with
    | kind h => exact absurd h (Nat.lt_irrefl _)
    | cond h => exact .inl h
    | yes h => exact .inr ⟨rfl, .inl h⟩
    | no h => exact .inr ⟨rfl, .inr ⟨rfl, h⟩⟩
  · rintro (h | ⟨rfl, h | ⟨rfl, h⟩⟩)
    · exact .cond h
    · exact .yes h
    · exact .no h

theorem rank_eq_ctorIdx (a : Value) : a.rank = a.ctorIdx := by
  cases a <;> rfl

theorem Precedes.rank_le {a b : Value} (h : a.Precedes b) : a.rank ≤ b.rank := by
  cases h with
  | kind h =>
    rw [rank_eq_ctorIdx, rank_eq_ctorIdx]
    exact Nat.le_of_lt h
  | _ => exact Nat.le_refl _

/-- Between values of two kinds only the kinds matter, in the comparison and in the rules. -/
theorem cmp_eq_lt_iff_of_rank_ne {a b : Value} (h : a.rank ≠ b.rank) :
    a.cmp b = .lt ↔ a.Precedes b := by
  rw [cmp_of_rank_ne h, Std.compare_eq_lt]
  constructor
  · intro hlt
    exact .kind (by rwa [← rank_eq_ctorIdx, ← rank_eq_ctorIdx])
  · exact fun hab => Nat.lt_of_le_of_ne hab.rank_le h

end Value

namespace Guard

theorem kind_junction (k : Junction) (ps : List Guard) : (junction k ps).kind = 3 + k.ctorIdx := by
  cases k <;> rfl

theorem kind_affix (s : Side) (p t : Value) : (affix s p t).kind = 5 + s.ctorIdx := by
  cases s <;> rfl

theorem const_precedes_iff {a b : Bool} : (const a).Precedes (.const b) ↔ a < b := by
  constructor
  · intro h
    cases h with
    | kind h => exact absurd h (Nat.lt_irrefl _)
    | const => decide
  · intro h
    obtain ⟨rfl, rfl⟩ := Bool.lt_iff.mp h
    exact .const

theorem compare_precedes_iff {o o' : CompareOp} {l l' r r' : Value} :
    (compare o l r).Precedes (.compare o' l' r') ↔
      o.ctorIdx < o'.ctorIdx ∨ o = o' ∧ (l.Precedes l' ∨ l = l' ∧ r.Precedes r') := by
  constructor
  · intro h
    cases h with
    | kind h => exact absurd h (Nat.lt_irrefl _)
    | op h => exact .inl h
    | left h => exact .inr ⟨rfl, .inl h⟩
    | right h => exact .inr ⟨rfl, .inr ⟨rfl, h⟩⟩
  · rintro (h | ⟨rfl, h | ⟨rfl, h⟩⟩)
    · exact .op h
    · exact .left h
    · exact .right h

theorem not_precedes_iff {g h : Guard} : (not g).Precedes (.not h) ↔ g.Precedes h := by
  constructor
  · intro hgh
    cases hgh with
    | kind h => exact absurd h (Nat.lt_irrefl _)
    | not hgh => exact hgh
  · exact .not

/-- A conjunction comes before every disjunction. -/
theorem junction_precedes_iff {k k' : Junction} {ps qs : List Guard} :
    (junction k ps).Precedes (.junction k' qs) ↔
      k.ctorIdx < k'.ctorIdx ∨ k = k' ∧ List.Lex Guard.Precedes ps qs := by
  constructor
  · intro h
    cases h with
    | kind h =>
      rw [kind_junction, kind_junction] at h
      exact .inl (Nat.lt_of_add_lt_add_left h)
    | parts h => exact .inr ⟨rfl, h⟩
  · rintro (h | ⟨rfl, h⟩)
    · refine .kind ?_
      rw [kind_junction, kind_junction]
      exact Nat.add_lt_add_left h 3
    · exact .parts h

/-- A test of a beginning comes before every test of an end. -/
theorem affix_precedes_iff {s s' : Side} {p p' t t' : Value} :
    (affix s p t).Precedes (.affix s' p' t') ↔
      s.ctorIdx < s'.ctorIdx ∨ s = s' ∧ (p.Precedes p' ∨ p = p' ∧ t.Precedes t') := by
  constructor
  · intro h
    cases h with
    | kind h =>
      rw [kind_affix, kind_affix] at h
      exact .inl (Nat.lt_of_add_lt_add_left h)
    | part h => exact .inr ⟨rfl, .inl h⟩
    | text h => exact .inr ⟨rfl, .inr ⟨rfl, h⟩⟩
  · rintro (h | ⟨rfl, h | ⟨rfl, h⟩⟩)
    · refine .kind ?_
      rw [kind_affix, kind_affix]
      exact Nat.add_lt_add_left h 5
    · exact .part h
    · exact .text h

theorem kind_lt_of_rank_lt {a b : Guard} (h : a.rank < b.rank) : a.kind < b.kind := by
  unfold kind
  split <;> split <;> simp [rank] at h ⊢

theorem Precedes.rank_le {a b : Guard} (h : a.Precedes b) : a.rank ≤ b.rank := by
  cases h with
  | kind h =>
    by_contra hnot
    exact absurd (h.trans (kind_lt_of_rank_lt (Nat.lt_of_not_le hnot))) (Nat.lt_irrefl _)
  | _ => exact Nat.le_refl _

theorem cmp_eq_lt_iff_of_rank_ne {a b : Guard} (h : a.rank ≠ b.rank) :
    a.cmp b = .lt ↔ a.Precedes b := by
  rw [cmp_of_rank_ne h, Std.compare_eq_lt]
  exact ⟨fun hlt => .kind (kind_lt_of_rank_lt hlt),
    fun hab => Nat.lt_of_le_of_ne hab.rank_le h⟩

end Guard

/-! ## 4. The comparison follows the rules -/

mutual

/-- **A value compares as less exactly where it precedes.** -/
theorem Value.cmp_eq_lt_iff : ∀ a b : Value, a.cmp b = .lt ↔ a.Precedes b
  | .lit c, b => by
    cases b with
    | lit d => rw [Value.cmp, Constant.cmp_eq_lt_iff, Value.lit_precedes_iff]
    | _ => exact Value.cmp_eq_lt_iff_of_rank_ne (by simp [Value.rank])
  | .var n s, b => by
    cases b with
    | var m t =>
      rw [Value.cmp, Ordering.then_eq_lt, compare_text_eq_lt_iff,
        Std.LawfulEqOrd.compare_eq_iff_eq, ValueSort.compare_eq_lt_iff, Value.var_precedes_iff]
    | _ => exact Value.cmp_eq_lt_iff_of_rank_ne (by simp [Value.rank])
  | .concat ps, b => by
    cases b with
    | concat qs => rw [Value.cmp, Value.cmpList_eq_lt_iff ps, Value.concat_precedes_iff]
    | _ => exact Value.cmp_eq_lt_iff_of_rank_ne (by simp [Value.rank])
  | .arith o l r, b => by
    cases b with
    | arith o' l' r' =>
      rw [Value.cmp, Ordering.then_eq_lt, Ordering.then_eq_lt, ArithOp.compare_eq_lt_iff,
        ArithOp.compare_eq_iff, Value.cmp_eq_lt_iff l, Value.cmp_eq_iff, Value.cmp_eq_lt_iff r,
        Value.arith_precedes_iff]
    | _ => exact Value.cmp_eq_lt_iff_of_rank_ne (by simp [Value.rank])
  | .ite c t e, b => by
    cases b with
    | ite c' t' e' =>
      rw [Value.cmp, Ordering.then_eq_lt, Ordering.then_eq_lt, Guard.cmp_eq_lt_iff c,
        Guard.cmp_eq_iff, Value.cmp_eq_lt_iff t, Value.cmp_eq_iff, Value.cmp_eq_lt_iff e,
        Value.ite_precedes_iff]
    | _ => exact Value.cmp_eq_lt_iff_of_rank_ne (by simp [Value.rank])

theorem Value.cmpList_eq_lt_iff : ∀ as bs : List Value,
    Value.cmpList as bs = .lt ↔ List.Lex Value.Precedes as bs
  | [], [] => by simp [Value.cmpList]
  | [], _ :: _ => by simp [Value.cmpList]
  | _ :: _, [] => by simp [Value.cmpList]
  | a :: as, b :: bs => by
    rw [Value.cmpList, Ordering.then_eq_lt, Value.cmp_eq_lt_iff a, Value.cmp_eq_iff,
      Value.cmpList_eq_lt_iff as, List.cons_lex_cons_iff]

/-- **A guard compares as less exactly where it precedes.** -/
theorem Guard.cmp_eq_lt_iff : ∀ a b : Guard, a.cmp b = .lt ↔ a.Precedes b
  | .const x, b => by
    cases b with
    | const y => rw [Guard.cmp, compare_lt_iff_lt, Guard.const_precedes_iff]
    | _ => exact Guard.cmp_eq_lt_iff_of_rank_ne (by simp [Guard.rank])
  | .compare o l r, b => by
    cases b with
    | compare o' l' r' =>
      rw [Guard.cmp, Ordering.then_eq_lt, Ordering.then_eq_lt, CompareOp.compare_eq_lt_iff,
        CompareOp.compare_eq_iff, Value.cmp_eq_lt_iff l, Value.cmp_eq_iff, Value.cmp_eq_lt_iff r,
        Guard.compare_precedes_iff]
    | _ => exact Guard.cmp_eq_lt_iff_of_rank_ne (by simp [Guard.rank])
  | .not g, b => by
    cases b with
    | not h => rw [Guard.cmp, Guard.cmp_eq_lt_iff g, Guard.not_precedes_iff]
    | _ => exact Guard.cmp_eq_lt_iff_of_rank_ne (by simp [Guard.rank])
  | .junction k ps, b => by
    cases b with
    | junction k' qs =>
      rw [Guard.cmp, Ordering.then_eq_lt, Junction.compare_eq_lt_iff, Junction.compare_eq_iff,
        Guard.cmpList_eq_lt_iff ps, Guard.junction_precedes_iff]
    | _ => exact Guard.cmp_eq_lt_iff_of_rank_ne (by simp [Guard.rank])
  | .affix s p t, b => by
    cases b with
    | affix s' p' t' =>
      rw [Guard.cmp, Ordering.then_eq_lt, Ordering.then_eq_lt, Side.compare_eq_lt_iff,
        Side.compare_eq_iff, Value.cmp_eq_lt_iff p, Value.cmp_eq_iff, Value.cmp_eq_lt_iff t,
        Guard.affix_precedes_iff]
    | _ => exact Guard.cmp_eq_lt_iff_of_rank_ne (by simp [Guard.rank])

theorem Guard.cmpList_eq_lt_iff : ∀ as bs : List Guard,
    Guard.cmpList as bs = .lt ↔ List.Lex Guard.Precedes as bs
  | [], [] => by simp [Guard.cmpList]
  | [], _ :: _ => by simp [Guard.cmpList]
  | _ :: _, [] => by simp [Guard.cmpList]
  | a :: as, b :: bs => by
    rw [Guard.cmpList, Ordering.then_eq_lt, Guard.cmp_eq_lt_iff a, Guard.cmp_eq_iff,
      Guard.cmpList_eq_lt_iff as, List.cons_lex_cons_iff]

end

/-! ## 5. A linear order, and sorting by it -/

/-- The comparison decides a linear order, the one whose strict part is `before`. -/
structure LinearlyOrders {α : Type} (cmp : α → α → Ordering) (before : α → α → Prop) : Prop where
  lt_iff : ∀ a b, cmp a b = .lt ↔ before a b
  eq_iff : ∀ a b, cmp a b = .eq ↔ a = b
  gt_iff : ∀ a b, cmp a b = .gt ↔ before b a
  total : ∀ a b, (cmp a b).isLE = true ∨ (cmp b a).isLE = true
  antisymm : ∀ a b, (cmp a b).isLE = true → (cmp b a).isLE = true → a = b
  trans : ∀ a b c, (cmp a b).isLE = true → (cmp b c).isLE = true → (cmp a c).isLE = true

theorem LinearlyOrders.of_transCmp {α : Type} {cmp : α → α → Ordering} {before : α → α → Prop}
    [Std.TransCmp cmp] (hlt : ∀ a b, cmp a b = .lt ↔ before a b)
    (heq : ∀ a b, cmp a b = .eq ↔ a = b) : LinearlyOrders cmp before where
  lt_iff := hlt
  eq_iff := heq
  gt_iff a b := Std.OrientedCmp.gt_iff_lt.trans (hlt b a)
  total := isLE_total.total
  antisymm a b hab hba := (heq a b).mp (Std.OrientedCmp.isLE_antisymm hab hba)
  trans _ _ _ := Std.TransCmp.isLE_trans

theorem Value.linearlyOrders_cmp : LinearlyOrders Value.cmp Value.Precedes :=
  .of_transCmp Value.cmp_eq_lt_iff fun _ _ => Value.cmp_eq_iff

theorem Guard.linearlyOrders_cmp : LinearlyOrders Guard.cmp Guard.Precedes :=
  .of_transCmp Guard.cmp_eq_lt_iff fun _ _ => Guard.cmp_eq_iff

theorem Guard.pairwise_precedes_iff {l : List Guard} :
    l.Pairwise Guard.Precedes ↔ l.Pairwise Guard.Before :=
  List.Pairwise.iff fun {a b} => (Guard.cmp_eq_lt_iff a b).symm

/-- What sorting and dropping repetitions give is told by two properties. -/
theorem Guard.eq_dropRepeats_sortBy_iff {l r : List Guard} :
    r = Guard.dropRepeats (sortBy Guard.cmp l) ↔
      r.Pairwise Guard.Precedes ∧ ∀ g, g ∈ r ↔ g ∈ l := by
  constructor
  · rintro rfl
    exact ⟨Guard.pairwise_precedes_iff.mpr (Guard.pairwise_dropRepeats_sortBy l),
      fun _ => Guard.mem_dropRepeats_sortBy⟩
  · rintro ⟨hr, hmem⟩
    have hbefore := Guard.pairwise_precedes_iff.mp hr
    exact (Guard.dropRepeats_sortBy_eq hbefore fun g => (hmem g).symm).symm

/-- The canonical form of a junction that no part decides. -/
theorem Guard.canonical_junction_of_ne {j : Junction} {parts : List Guard}
    (h : ∀ p ∈ parts, p.canonical ≠ .const j.absorbing) :
    (Guard.junction j parts).canonical = j.ofParts (Guard.dropRepeats (sortBy Guard.cmp
      ((parts.map Guard.canonical).flatMap j.contribution))) := by
  have hnot : Guard.const j.absorbing ∉ parts.map Guard.canonical := by
    intro hmem
    obtain ⟨p, hp, heq⟩ := List.mem_map.mp hmem
    exact h p hp heq
  rw [Guard.canonical, Guard.canonicalAll_eq_map, Junction.join, if_neg hnot]

/-- **The structural order is linear.**  On all values and on all guards the comparison decides the
linear order that the rules give, and says "equal" of equal trees only.  So a list of guards, once
it is sorted and has lost its repetitions, is the strictly increasing list of its elements, and
depends on their set alone; and a junction that no part decides has as its parts the strictly
increasing list of what its parts contribute. -/
theorem structural_order_is_linear :
    LinearlyOrders Value.cmp Value.Precedes ∧ LinearlyOrders Guard.cmp Guard.Precedes ∧
    (∀ l r : List Guard, r = Guard.dropRepeats (sortBy Guard.cmp l) ↔
      r.Pairwise Guard.Precedes ∧ ∀ g, g ∈ r ↔ g ∈ l) ∧
    (∀ l l' : List Guard, (∀ g, g ∈ l ↔ g ∈ l') →
      Guard.dropRepeats (sortBy Guard.cmp l) = Guard.dropRepeats (sortBy Guard.cmp l')) ∧
    ∀ (j : Junction) (parts : List Guard), (∀ p ∈ parts, p.canonical ≠ .const j.absorbing) →
      ∃ r : List Guard, (Guard.junction j parts).canonical = j.ofParts r ∧
        r.Pairwise Guard.Precedes ∧
        ∀ g, g ∈ r ↔ ∃ p ∈ parts, g ∈ j.contribution p.canonical := by
  refine ⟨Value.linearlyOrders_cmp, Guard.linearlyOrders_cmp,
    fun l r => Guard.eq_dropRepeats_sortBy_iff, fun l l' h => Guard.dropRepeats_sortBy_congr h,
    fun j parts hparts => ?_⟩
  obtain ⟨hincreasing, hmem⟩ := (Guard.eq_dropRepeats_sortBy_iff
    (l := (parts.map Guard.canonical).flatMap j.contribution)).mp rfl
  refine ⟨_, Guard.canonical_junction_of_ne hparts, hincreasing, fun g => (hmem g).trans ?_⟩
  simp only [List.mem_flatMap, List.mem_map, exists_exists_and_eq_and]

/-- Tests out of order and with a repetition.  Two of them differ in a text only, and the texts are
such that the order of their bytes is not the order of their code units of sixteen bits. -/
def wideTests : List Guard :=
  [.affix .start (.str "😀") (.stringVar "dir"), .any [],
    .affix .start (.str "\uffff") (.stringVar "dir"), .all [.any []],
    .affix .start (.str "😀") (.stringVar "dir")]

/-- The tests of `wideTests` in order, each of them once. -/
def wideTestsInOrder : List Guard :=
  [.all [.any []], .any [], .affix .start (.str "\uffff") (.stringVar "dir"),
    .affix .start (.str "😀") (.stringVar "dir")]

theorem structural_order_is_linear_wideTests :
    (wideTestsInOrder.Pairwise Guard.Precedes ∧ ∀ g, g ∈ wideTestsInOrder ↔ g ∈ wideTests) ∧
    wideTestsInOrder = Guard.dropRepeats (sortBy Guard.cmp wideTests) ∧
    wideTestsInOrder = Guard.dropRepeats (sortBy Guard.cmp wideTests.reverse) ∧
    (∀ p ∈ wideTests, p.canonical ≠ .const Junction.any.absorbing) ∧
    ∃ r : List Guard, (Guard.any wideTests).canonical = Junction.any.ofParts r ∧
      r.Pairwise Guard.Precedes ∧
      ∀ g, g ∈ r ↔ ∃ p ∈ wideTests, g ∈ Junction.any.contribution p.canonical := by
  obtain ⟨-, -, hsorted, hset, hjunction⟩ := structural_order_is_linear
  have hincreasing : wideTestsInOrder.Pairwise Guard.Precedes :=
    Guard.pairwise_precedes_iff.mpr (by decide +kernel)
  have hmem : ∀ g, g ∈ wideTestsInOrder ↔ g ∈ wideTests := by
    intro g
    simp only [wideTestsInOrder, wideTests, List.mem_cons, List.not_mem_nil, or_false]
    tauto
  have heq := (hsorted wideTests wideTestsInOrder).mpr ⟨hincreasing, hmem⟩
  have hfree : ∀ p ∈ wideTests, p.canonical ≠ .const Junction.any.absorbing := by decide +kernel
  exact ⟨⟨hincreasing, hmem⟩, heq, heq.trans (hset _ _ fun g => List.mem_reverse.symm),
    hfree, hjunction .any wideTests hfree⟩

end SinkReach
