/-
# Arithmetic is exact

Evaluation keeps its integers in 64-bit words.  This file compares it with an evaluation whose
integers are mathematical, so that nothing can wrap or be cut off anywhere in a tree.

* `Value.evalExact_of_eval`, `Guard.evalExact_of_eval`: what the unbounded reading decides is what
  mathematics says; where a word is too small the reading leaves the term undecided instead.
* `toInt_wrap`: cutting to a width is reduction modulo a power of two, into the range around zero.
* `Value.inWidth_of_eval`: under the wrapping reading no result leaves the width.
* `Value.eval_of_isPolynomial`: reduction is compatible with sums, differences and products, so a
  tree made of those has the mathematical value, reduced once at the end.
* `ArithOp.exact_in_doubleWord`: the exact result of one operation on words fits 128 bits.
-/
import Mathlib.Algebra.Order.Ring.Int
import Mathlib.Tactic.Ring
import SinkReach.Proofs.WellSorted

namespace SinkReach

variable {bits : UInt32} {env : Assignment}

/-! ## 1. Words of a width -/

/-- The integers that a two's complement word of the width can hold. -/
def InWidth (bits : UInt32) (n : Int) : Prop :=
  -(2 ^ (clampWidth bits - 1)) ≤ n ∧ n < 2 ^ (clampWidth bits - 1)

instance (bits : UInt32) (n : Int) : Decidable (InWidth bits n) :=
  inferInstanceAs (Decidable (_ ∧ _))

/-- The integer that the width can hold and that differs by a multiple of the power of two. -/
def residue (bits : UInt32) (n : Int) : Int := n.bmod (2 ^ clampWidth bits)

theorem clampWidth_pos (bits : UInt32) : 0 < clampWidth bits := by
  unfold clampWidth
  omega

theorem clampWidth_le (bits : UInt32) : clampWidth bits ≤ 64 := by
  unfold clampWidth
  omega

/-- The range of a width is half of the power of two on each side of zero. -/
theorem inWidth_iff_two_mul {n : Int} :
    InWidth bits n ↔ -((2 ^ clampWidth bits : Nat) : Int) ≤ n * 2
      ∧ n * 2 < ((2 ^ clampWidth bits : Nat) : Int) := by
  have hpow : ((2 ^ clampWidth bits : Nat) : Int) = 2 ^ (clampWidth bits - 1) * 2 := by
    rw [← pow_succ, Nat.sub_add_cancel (clampWidth_pos bits)]
    push_cast
    rfl
  rw [hpow]
  unfold InWidth
  omega

theorem residue_of_inWidth {n : Int} (h : InWidth bits n) : residue bits n = n := by
  obtain ⟨hlow, hhigh⟩ := inWidth_iff_two_mul.mp h
  exact Int.bmod_eq_of_le_mul_two hlow hhigh

/-- A balanced remainder by a power of two lies in the range around zero. -/
theorem bmod_two_pow_range (n : Int) {w : Nat} (hw : 0 < w) :
    -((2 ^ w : Nat) : Int) ≤ n.bmod (2 ^ w) * 2 ∧ n.bmod (2 ^ w) * 2 < ((2 ^ w : Nat) : Int) := by
  have hpos : 0 < 2 ^ w := Nat.two_pow_pos w
  have heven : 2 ∣ 2 ^ w := dvd_pow_self 2 hw.ne'
  have hlow : -(((2 ^ w : Nat) : Int) / 2) ≤ n.bmod (2 ^ w) := Int.le_bmod hpos
  have hhigh : n.bmod (2 ^ w) < (((2 ^ w : Nat) : Int) + 1) / 2 := Int.bmod_lt hpos
  constructor <;> omega

theorem inWidth_residue (bits : UInt32) (n : Int) : InWidth bits (residue bits n) :=
  inWidth_iff_two_mul.mpr (bmod_two_pow_range n (clampWidth_pos bits))

/-- Multiplying number and modulus by one power of two multiplies the balanced remainder by it. -/
theorem bmod_mul_two_pow (n : Int) {w s : Nat} (hw : 0 < w) :
    (n * 2 ^ s).bmod (2 ^ (w + s)) = n.bmod (2 ^ w) * 2 ^ s := by
  obtain ⟨hlow, hhigh⟩ := bmod_two_pow_range n hw
  have hscale : (0 : Int) < 2 ^ s := pow_pos two_pos s
  have hmod : ((2 ^ (w + s) : Nat) : Int) = ((2 ^ w : Nat) : Int) * 2 ^ s := by
    push_cast
    ring
  -- the two sides differ by a multiple of the modulus, and the right one is in its range
  have hsplit : n * 2 ^ s =
      n.bmod (2 ^ w) * 2 ^ s + ((2 ^ (w + s) : Nat) : Int) * n.bdiv (2 ^ w) := by
    calc n * 2 ^ s = (n.bmod (2 ^ w) + ((2 ^ w : Nat) : Int) * n.bdiv (2 ^ w)) * 2 ^ s := by
          rw [Int.bmod_add_bdiv]
      _ = n.bmod (2 ^ w) * 2 ^ s + ((2 ^ w : Nat) : Int) * 2 ^ s * n.bdiv (2 ^ w) := by ring
      _ = _ := by rw [hmod]
  rw [hsplit, Int.add_mul_bmod_self_left]
  apply Int.bmod_eq_of_le_mul_two
  · calc -((2 ^ (w + s) : Nat) : Int) = -((2 ^ w : Nat) : Int) * 2 ^ s := by rw [hmod]; ring
      _ ≤ n.bmod (2 ^ w) * 2 * 2 ^ s := Int.mul_le_mul_of_nonneg_right hlow hscale.le
      _ = n.bmod (2 ^ w) * 2 ^ s * 2 := by ring
  · calc n.bmod (2 ^ w) * 2 ^ s * 2 = n.bmod (2 ^ w) * 2 * 2 ^ s := by ring
      _ < ((2 ^ w : Nat) : Int) * 2 ^ s := Int.mul_lt_mul_of_pos_right hhigh hscale
      _ = ((2 ^ (w + s) : Nat) : Int) := hmod.symm

/-- Shifting up and back with the sign keeps the low bits, read as two's complement. -/
theorem toInt_shift_back (n : Int) {w s : Nat} (hw : 0 < w) :
    ((BitVec.ofInt (w + s) n <<< s).sshiftRight s).toInt = n.bmod (2 ^ w) := by
  have hshift : BitVec.ofInt (w + s) n <<< s = BitVec.ofInt (w + s) (n * 2 ^ s) := by
    have hpow : BitVec.twoPow (w + s) s = BitVec.ofInt (w + s) ((2 ^ s : Nat) : Int) := by
      apply BitVec.eq_of_toNat_eq
      rw [BitVec.ofInt_natCast, BitVec.toNat_twoPow, BitVec.toNat_ofNat]
    rw [BitVec.shiftLeft_eq_mul_twoPow, hpow, BitVec.ofInt_mul]
    push_cast
    rfl
  have hscale : (2 : Int) ^ s ≠ 0 := (pow_pos two_pos s).ne'
  rw [BitVec.toInt_sshiftRight, hshift, BitVec.toInt_ofInt, bmod_mul_two_pow n hw,
    Int.shiftRight_eq_div_pow]
  push_cast
  exact Int.mul_ediv_cancel _ hscale

/-- **Cutting to a width is reduction to its range.** -/
theorem toInt_wrap (n : Int) (bits : UInt32) : (wrap n bits).toInt = residue bits n := by
  have hpos := clampWidth_pos bits
  have hle := clampWidth_le bits
  have hback := toInt_shift_back n (w := clampWidth bits) (s := 128 - clampWidth bits) hpos
  rw [show clampWidth bits + (128 - clampWidth bits) = 128 by omega] at hback
  rw [wrap, Int64.toInt_ofBitVec, ← BitVec.signExtend_eq_setWidth_of_le _ (by omega),
    BitVec.toInt_signExtend_eq_toInt_bmod_of_le _ (by omega), hback]
  -- what is left of the 128 bits fits the 64 that are kept
  obtain ⟨hlow, hhigh⟩ := bmod_two_pow_range n hpos
  have hmono : 2 ^ clampWidth bits ≤ 2 ^ 64 := Nat.pow_le_pow_right (by decide) hle
  apply Int.bmod_eq_of_le_mul_two <;> omega

/-! ## 2. Mathematical evaluation -/

/-- A constant whose integers have no bound. -/
inductive ExactConstant where
  | bool (b : Bool)
  | int (n : Int)
  | str (s : String)
deriving DecidableEq

namespace ExactConstant

/-- The number of an integer constant. -/
def int? : ExactConstant → Option Int
  | .int n => some n
  | _ => none

/-- The text of a string constant. -/
def str? : ExactConstant → Option String
  | .str s => some s
  | _ => none

/-- The constant with its integer reduced to the range of the width. -/
def reduce (bits : UInt32) : ExactConstant → ExactConstant
  | .int n => .int (residue bits n)
  | c => c

end ExactConstant

/-- A constant with the integer that its word stands for. -/
def Constant.toExact : Constant → ExactConstant
  | .bool b => .bool b
  | .int n => .int n.toInt
  | .str s => .str s

/-- The operations of the integers, with Euclidean quotient and remainder; there is no result for
a division by zero, and there is one in all other cases. -/
def ArithOp.onIntegers : ArithOp → Int → Int → Option Int
  | .add, a, b => some (a + b)
  | .sub, a, b => some (a - b)
  | .mul, a, b => some (a * b)
  | .div, a, b => if b = 0 then none else some (a / b)
  | .rem, a, b => if b = 0 then none else some (a % b)

/-- A comparison of constants, the order of integers being that of mathematics. -/
def CompareOp.evalExact (op : CompareOp) : ExactConstant → ExactConstant → Option Bool
  | .int a, .int b => some (op.holds (compare a b))
  | .bool a, .bool b => some (op.holds (compare a b))
  | .str a, .str b => if op.isEquality then some (op.holds (compare a b)) else none
  | _, _ => none

mutual

/-- The constant a value has when no integer is bounded. -/
def Value.evalExact (env : Assignment) : Value → Option ExactConstant
  | .lit c => some c.toExact
  | .var name s => (env.read name s).map Constant.toExact
  | .concat parts => (Value.exactText env parts).map .str
  | .arith op l r => do
    let a ← (← l.evalExact env).int?
    let b ← (← r.evalExact env).int?
    return .int (← op.onIntegers a b)
  | .ite c t e => do
    if ← c.evalExact env then t.evalExact env else e.evalExact env

/-- The text of a list of string values when no integer is bounded. -/
def Value.exactText (env : Assignment) : List Value → Option String
  | [] => some ""
  | v :: vs => do
    let s ← (← v.evalExact env).str?
    let rest ← Value.exactText env vs
    return s ++ rest

/-- The truth value a guard has when no integer is bounded. -/
def Guard.evalExact (env : Assignment) : Guard → Option Bool
  | .const b => some b
  | .compare op l r => do
    let a ← l.evalExact env
    let b ← r.evalExact env
    op.evalExact a b
  | .not g => (g.evalExact env).map (!·)
  | .junction kind parts => Guard.exactJunction env kind parts
  | .affix side part text => do
    let p ← part.evalExact env
    let t ← text.evalExact env
    return side.tests (← p.str?) (← t.str?)

/-- The truth value of a junction when no integer is bounded. -/
def Guard.exactJunction (env : Assignment) (kind : Junction) : List Guard → Option Bool
  | [] => some kind.neutral
  | g :: gs => kind.combine (g.evalExact env) (Guard.exactJunction env kind gs)

end

/-! ## 3. The unbounded reading never rounds -/

/-- A word stands for the exact integer or for nothing. -/
theorem toInt_of_exactWord {k : Int} {n : Int64} (h : exactWord k = some n) : n.toInt = k := by
  unfold exactWord at h
  split at h
  · next hk =>
    obtain rfl := Option.some.inj h
    exact Int64.toInt_ofInt_of_le hk.1 hk.2
  · exact absurd h (by simp)

theorem ArithOp.exact_unbounded (op : ArithOp) (a b : Int) :
    op.exact .unbounded a b = op.onIntegers a b := by
  cases op <;> rfl

theorem ArithOp.onIntegers_of_apply {op : ArithOp} {a b n : Int64}
    (h : op.apply .unbounded a b = some n) : op.onIntegers a.toInt b.toInt = some n.toInt := by
  obtain ⟨k, hk, hn⟩ := Option.bind_eq_some_iff.mp h
  rw [← ArithOp.exact_unbounded, hk, toInt_of_exactWord hn]

theorem Constant.toExact_of_eval {k c : Constant} (h : k.eval .unbounded = some c) :
    c.toExact = k.toExact := by
  cases k with
  | int n =>
    obtain ⟨m, hm, rfl⟩ := Option.map_eq_some_iff.mp h
    exact congrArg ExactConstant.int (toInt_of_exactWord hm)
  | _ =>
    obtain rfl := Option.some.inj h
    rfl

theorem CompareOp.evalExact_toExact (op : CompareOp) (x y : Constant) :
    op.evalExact x.toExact y.toExact = op.eval x y := by
  cases x <;> cases y <;> rfl

mutual

/-- **What the unbounded reading decides of a value is its mathematical value.** -/
theorem Value.evalExact_of_eval : ∀ {v : Value} {c : Constant},
    v.eval .unbounded env = some c → v.evalExact env = some c.toExact
  | .lit k, c, h => by
    rw [Value.evalExact, Constant.toExact_of_eval h]
  | .var name s, c, h => by
    rw [Value.eval] at h
    rw [Value.evalExact, h, Option.map_some]
  | .concat parts, c, h => by
    obtain ⟨s, hs, rfl⟩ := Value.eval_concat_eq_some.mp h
    rw [Value.evalExact, Value.exactText_of_evalText hs, Option.map_some, Constant.toExact]
  | .arith op l r, c, h => by
    obtain ⟨a, ha, b, hb, n, hn, rfl⟩ := Value.eval_arith_eq_some.mp h
    have hl : l.evalExact env = some (.int a.toInt) := Value.evalExact_of_eval ha
    have hr : r.evalExact env = some (.int b.toInt) := Value.evalExact_of_eval hb
    simp [Value.evalExact, hl, hr, ExactConstant.int?, ArithOp.onIntegers_of_apply hn,
      Constant.toExact]
  | .ite g t e, c, h => by
    obtain ⟨b, hb, hc⟩ := Value.eval_ite_eq_some.mp h
    have hg : g.evalExact env = some b := Guard.evalExact_of_eval hb
    cases b with
    | false =>
      have he : e.evalExact env = some c.toExact := Value.evalExact_of_eval hc
      simp [Value.evalExact, hg, he]
    | true =>
      have ht : t.evalExact env = some c.toExact := Value.evalExact_of_eval hc
      simp [Value.evalExact, hg, ht]

theorem Value.exactText_of_evalText : ∀ {vs : List Value} {s : String},
    Value.evalText .unbounded env vs = some s → Value.exactText env vs = some s
  | [], _, h => by simpa [Value.evalText, Value.exactText] using h
  | v :: vs, s, h => by
    obtain ⟨a, ha, b, hb, rfl⟩ := Value.evalText_cons_eq_some.mp h
    have hv : v.evalExact env = some (.str a) := Value.evalExact_of_eval ha
    have hvs : Value.exactText env vs = some b := Value.exactText_of_evalText hb
    simp [Value.exactText, hv, hvs, ExactConstant.str?]

/-- **What the unbounded reading decides of a guard is its mathematical truth value.** -/
theorem Guard.evalExact_of_eval : ∀ {g : Guard} {b : Bool},
    g.eval .unbounded env = some b → g.evalExact env = some b
  | .const _, _, h => by simpa [Guard.eval, Guard.evalExact] using h
  | .compare op l r, b, h => by
    obtain ⟨x, hx, y, hy, hxy⟩ := Guard.eval_compare_eq_some.mp h
    have hl : l.evalExact env = some x.toExact := Value.evalExact_of_eval hx
    have hr : r.evalExact env = some y.toExact := Value.evalExact_of_eval hy
    simp [Guard.evalExact, hl, hr, CompareOp.evalExact_toExact, hxy]
  | .not g, b, h => by
    have hg : g.evalExact env = some !b := Guard.evalExact_of_eval (Guard.eval_not_eq_some.mp h)
    simp [Guard.evalExact, hg]
  | .junction j parts, b, h => by
    rw [Guard.eval] at h
    rw [Guard.evalExact]
    exact Guard.exactJunction_of_evalJunction h
  | .affix side part text, b, h => by
    obtain ⟨p, hp, t, ht, hpt⟩ := Guard.eval_affix_eq_some.mp h
    have hpart : part.evalExact env = some (.str p) := Value.evalExact_of_eval hp
    have htext : text.evalExact env = some (.str t) := Value.evalExact_of_eval ht
    simp [Guard.evalExact, hpart, htext, ExactConstant.str?, hpt]

theorem Guard.exactJunction_of_evalJunction {j : Junction} : ∀ {gs : List Guard} {b : Bool},
    Guard.evalJunction .unbounded env j gs = some b → Guard.exactJunction env j gs = some b
  | [], _, h => by simpa [Guard.evalJunction, Guard.exactJunction] using h
  | g :: gs, b, h => by
    rw [Guard.evalJunction] at h
    rw [Guard.exactJunction]
    exact Junction.combine_mono (fun _ => Guard.evalExact_of_eval)
      (fun _ => Guard.exactJunction_of_evalJunction) h

end

/-! ## 4. Words stay in their width -/

/-- Every integer that the assignment binds fits the width. -/
def Assignment.Within (bits : UInt32) (env : Assignment) : Prop :=
  ∀ name n, env.find? name = some (.int n) → InWidth bits n.toInt

theorem inWidth_wrap (k : Int) (bits : UInt32) : InWidth bits (wrap k bits).toInt := by
  rw [toInt_wrap]
  exact inWidth_residue bits k

/-- **No integer leaves the width**, whatever the tree computes. -/
theorem Value.inWidth_of_eval (henv : env.Within bits) : ∀ {v : Value} {n : Int64},
    v.eval (.wrapping bits) env = some (.int n) → InWidth bits n.toInt
  | .lit k, n, h => by
    cases k with
    | int m =>
      obtain rfl := Constant.int.inj (Option.some.inj h)
      exact inWidth_wrap m.toInt bits
    | _ => exact absurd (Option.some.inj h) (by simp)
  | .var name s, n, h => henv name n (Assignment.read_eq_some.mp h).1
  | .concat parts, n, h => by
    obtain ⟨s, -, hs⟩ := Value.eval_concat_eq_some.mp h
    exact absurd hs (by simp)
  | .arith op l r, n, h => by
    obtain ⟨a, -, b, -, m, hm, hn⟩ := Value.eval_arith_eq_some.mp h
    obtain rfl := Constant.int.inj hn
    obtain ⟨k, -, hk⟩ := Option.bind_eq_some_iff.mp hm
    obtain rfl := Option.some.inj hk
    exact inWidth_wrap k bits
  | .ite g t e, n, h => by
    obtain ⟨b, -, hc⟩ := Value.eval_ite_eq_some.mp h
    cases b
    · exact Value.inWidth_of_eval henv (v := e) hc
    · exact Value.inWidth_of_eval henv (v := t) hc

/-! ## 5. Reduction commutes with polynomials -/

/-- A tree of integer literals, variables, sums, differences and products. -/
def Value.isPolynomial : Value → Bool
  | .lit (.int _) | .var _ _ => true
  | .arith op l r => op ≠ .div ∧ op ≠ .rem ∧ l.isPolynomial ∧ r.isPolynomial
  | _ => false

/-- Reducing the operands first makes no difference to the reduced result, unless the operation
divides. -/
theorem ArithOp.reduce_onIntegers {op : ArithOp} (hdiv : op ≠ .div) (hrem : op ≠ .rem)
    (a b : Int) :
    (op.onIntegers (residue bits a) (residue bits b)).map (residue bits)
      = (op.onIntegers a b).map (residue bits) := by
  cases op with
  | add => exact congrArg some (Int.add_bmod a b _).symm
  | sub => exact congrArg some (Int.sub_bmod a b _).symm
  | mul => exact congrArg some (Int.mul_bmod a b _).symm
  | div => exact absurd rfl hdiv
  | rem => exact absurd rfl hrem

/-- An operation on words, unless it divides, is the operation on the integers they stand for,
reduced. -/
theorem ArithOp.toInt_apply {op : ArithOp} (hdiv : op ≠ .div) (hrem : op ≠ .rem) (a b : Int64) :
    (op.apply (.wrapping bits) a b).map Int64.toInt
      = (op.onIntegers a.toInt b.toInt).map (residue bits) := by
  cases op with
  | div => exact absurd rfl hdiv
  | rem => exact absurd rfl hrem
  | _ => exact congrArg some (toInt_wrap _ bits)

/-- The same for operands that may be missing. -/
theorem ArithOp.reduce_operands {op : ArithOp} (hdiv : op ≠ .div) (hrem : op ≠ .rem)
    {x y : Option Int64} {a b : Option Int} (hx : x.map Int64.toInt = a.map (residue bits))
    (hy : y.map Int64.toInt = b.map (residue bits)) :
    (x.bind fun m => y.bind fun n => op.apply (.wrapping bits) m n).map Int64.toInt
      = (a.bind fun i => b.bind fun j => op.onIntegers i j).map (residue bits) := by
  cases a with
  | none =>
    obtain rfl := Option.map_eq_none_iff.mp hx
    rfl
  | some i =>
    obtain ⟨m, rfl, hm⟩ := Option.map_eq_some_iff.mp hx
    cases b with
    | none =>
      obtain rfl := Option.map_eq_none_iff.mp hy
      rfl
    | some j =>
      obtain ⟨n, rfl, hn⟩ := Option.map_eq_some_iff.mp hy
      calc (op.apply (.wrapping bits) m n).map Int64.toInt
          = (op.onIntegers (residue bits i) (residue bits j)).map (residue bits) := by
            rw [ArithOp.toInt_apply hdiv hrem, hm, hn]
        _ = (op.onIntegers i j).map (residue bits) := ArithOp.reduce_onIntegers hdiv hrem i j

theorem Constant.int?_toExact (c : Constant) : c.toExact.int? = c.int?.map Int64.toInt := by
  cases c <;> rfl

theorem ExactConstant.int?_reduce (c : ExactConstant) :
    (c.reduce bits).int? = c.int?.map (residue bits) := by
  cases c <;> rfl

/-- Results that agree up to reduction are the same number up to reduction, or both no number. -/
theorem int?_of_reduce {x : Option Constant} {y : Option ExactConstant}
    (h : x.map Constant.toExact = y.map (ExactConstant.reduce bits)) :
    (x.bind Constant.int?).map Int64.toInt = (y.bind ExactConstant.int?).map (residue bits) := by
  calc (x.bind Constant.int?).map Int64.toInt
      = (x.map Constant.toExact).bind ExactConstant.int? := by
        cases x <;> simp [Constant.int?_toExact]
    _ = (y.map (ExactConstant.reduce bits)).bind ExactConstant.int? := by rw [h]
    _ = (y.bind ExactConstant.int?).map (residue bits) := by
        cases y <;> simp [ExactConstant.int?_reduce]

/-- An operation needs the numbers of both operands. -/
theorem Value.eval_arith {sem : IntSemantics} (op : ArithOp) (l r : Value) :
    (Value.arith op l r).eval sem env
      = (((l.eval sem env).bind Constant.int?).bind fun a =>
          ((r.eval sem env).bind Constant.int?).bind fun b => op.apply sem a b).map .int := by
  simp [Value.eval, Option.map_eq_bind, Option.bind_assoc]

theorem Value.evalExact_arith (op : ArithOp) (l r : Value) :
    (Value.arith op l r).evalExact env
      = (((l.evalExact env).bind ExactConstant.int?).bind fun a =>
          ((r.evalExact env).bind ExactConstant.int?).bind fun b =>
            op.onIntegers a b).map .int := by
  simp [Value.evalExact, Option.map_eq_bind, Option.bind_assoc]

/-- A binding that fits the width is not changed by reduction. -/
theorem Assignment.Within.reduce_read (henv : env.Within bits) (name : String) (s : ValueSort) :
    (env.read name s).map Constant.toExact
      = ((env.read name s).map Constant.toExact).map (ExactConstant.reduce bits) := by
  cases hread : env.read name s with
  | none => rfl
  | some c =>
    cases c with
    | int n =>
      have hn : InWidth bits n.toInt := henv name n (Assignment.read_eq_some.mp hread).1
      simp [Constant.toExact, ExactConstant.reduce, residue_of_inWidth hn]
    | _ => rfl

/-- **A polynomial has its mathematical value, reduced once.**  It has none exactly where
mathematics gives it none. -/
theorem Value.eval_of_isPolynomial (henv : env.Within bits) : ∀ {v : Value},
    v.isPolynomial = true →
      (v.eval (.wrapping bits) env).map Constant.toExact
        = (v.evalExact env).map (ExactConstant.reduce bits)
  | .lit (.int n), _ => congrArg (fun k => some (ExactConstant.int k)) (toInt_wrap n.toInt bits)
  | .var name s, _ => by
    rw [Value.eval, Value.evalExact]
    exact henv.reduce_read name s
  | .arith op l r, h => by
    obtain ⟨hdiv, hrem, hl, hr⟩ : op ≠ .div ∧ op ≠ .rem ∧ l.isPolynomial ∧ r.isPolynomial := by
      simpa [Value.isPolynomial] using h
    have hleft := int?_of_reduce (Value.eval_of_isPolynomial henv hl)
    have hright := int?_of_reduce (Value.eval_of_isPolynomial henv hr)
    have hnode := ArithOp.reduce_operands hdiv hrem hleft hright
    rw [Value.eval_arith, Value.evalExact_arith, Option.map_map, Option.map_map]
    calc Option.map (Constant.toExact ∘ Constant.int) _
        = (Option.map Int64.toInt _).map ExactConstant.int := by rw [Option.map_map]; rfl
      _ = (Option.map (residue bits) _).map ExactConstant.int := by rw [hnode]
      _ = _ := by rw [Option.map_map]; rfl
  | .lit (.bool _), h | .lit (.str _), h | .concat _, h | .ite _ _ _, h =>
    absurd h (by simp [Value.isPolynomial])

/-! ## 6. One operation fits 128 bits -/

theorem natAbs_toInt_le (n : Int64) : n.toInt.natAbs ≤ 2 ^ 63 := by
  have hlow := n.le_toInt
  have hhigh := n.toInt_lt
  omega

/-- An exact result is at most a product in size. -/
theorem ArithOp.natAbs_exact_le {sem : IntSemantics} {op : ArithOp} {a b k : Int}
    (ha : a.natAbs ≤ 2 ^ 63) (hb : b.natAbs ≤ 2 ^ 63) (h : op.exact sem a b = some k) :
    k.natAbs ≤ 2 ^ 126 := by
  cases op with
  | add =>
    obtain rfl := Option.some.inj h
    omega
  | sub =>
    obtain rfl := Option.some.inj h
    omega
  | mul =>
    obtain rfl := Option.some.inj h
    calc (a * b).natAbs = a.natAbs * b.natAbs := Int.natAbs_mul a b
      _ ≤ 2 ^ 63 * 2 ^ 63 := Nat.mul_le_mul ha hb
      _ = 2 ^ 126 := by decide
  | div =>
    cases sem with
    | unbounded =>
      obtain ⟨-, hk⟩ := Option.ite_none_left_eq_some.mp h
      obtain rfl := Option.some.inj hk
      have hle := Int.natAbs_ediv_le_natAbs a b
      omega
    | wrapping bits =>
      obtain ⟨-, hk⟩ := Option.ite_none_left_eq_some.mp h
      obtain rfl := Option.some.inj hk
      have hle := Int.natAbs_tdiv_le_natAbs a b
      omega
  | rem =>
    cases sem with
    | unbounded =>
      obtain ⟨hzero, hk⟩ := Option.ite_none_left_eq_some.mp h
      obtain rfl := Option.some.inj hk
      have hlow := Int.emod_nonneg a hzero
      have hhigh := Int.emod_lt a hzero
      omega
    | wrapping bits =>
      obtain ⟨-, hk⟩ := Option.ite_none_left_eq_some.mp h
      obtain rfl := Option.some.inj hk
      have hle := Nat.mod_le a.natAbs b.natAbs
      rw [Int.natAbs_tmod]
      omega

/-- **The exact result of an operation on words is a 128-bit word**, and a division is by
something. -/
theorem ArithOp.exact_in_doubleWord {sem : IntSemantics} {op : ArithOp} {a b : Int64} {k : Int}
    (h : op.exact sem a.toInt b.toInt = some k) :
    -(2 ^ 127) ≤ k ∧ k < 2 ^ 127 ∧ (op = .div ∨ op = .rem → b ≠ 0) := by
  have hsize := ArithOp.natAbs_exact_le (natAbs_toInt_le a) (natAbs_toInt_le b) h
  refine ⟨by omega, by omega, ?_⟩
  rintro (rfl | rfl) rfl
  · exact absurd h (by simp [ArithOp.exact])
  · exact absurd h (by simp [ArithOp.exact])

/-! ## 7. Evaluation of integers -/

/-- **Integer evaluation is exact and cannot overflow.**  What the unbounded reading decides, of a
value or of a guard, is what mathematics says.  Under the wrapping reading, with bindings that fit
the width, every integer fits it, and a polynomial has its mathematical value, reduced.  Under both
the exact result of an operation on words fits 128 bits, and nothing is divided by zero. -/
theorem integer_evaluation_is_exact (env : Assignment) :
    (∀ (v : Value) (c : Constant),
      v.eval .unbounded env = some c → v.evalExact env = some c.toExact) ∧
    (∀ (g : Guard) (b : Bool), g.eval .unbounded env = some b → g.evalExact env = some b) ∧
    (∀ bits : UInt32, env.Within bits →
      (∀ (v : Value) (n : Int64),
        v.eval (.wrapping bits) env = some (.int n) → InWidth bits n.toInt) ∧
      ∀ v : Value, v.isPolynomial = true →
        (v.eval (.wrapping bits) env).map Constant.toExact
          = (v.evalExact env).map (ExactConstant.reduce bits)) ∧
    ∀ (sem : IntSemantics) (op : ArithOp) (a b : Int64) (k : Int),
      op.exact sem a.toInt b.toInt = some k →
        -(2 ^ 127) ≤ k ∧ k < 2 ^ 127 ∧ (op = .div ∨ op = .rem → b ≠ 0) := by
  refine ⟨?_, ?_, ?_, ?_⟩
  · intro v c h
    exact Value.evalExact_of_eval h
  · intro g b h
    exact Guard.evalExact_of_eval h
  · intro bits henv
    exact ⟨fun v n h => Value.inWidth_of_eval henv h, fun v h => Value.eval_of_isPolynomial henv h⟩
  · intro sem op a b k h
    exact ArithOp.exact_in_doubleWord h

/-- The smallest number of eight bits, squared, less one: an exact integer under the one reading,
wrapped to minus one under the other.  The smallest word divided by minus one leaves 64 bits but
not 128. -/
theorem integer_evaluation_is_exact_smallest :
    let env : Assignment := .ofList [("n", .int (-128))]
    let n := Value.var "n" .int
    let v := Value.arith .sub (.arith .mul n n) (.lit (.int 1))
    (v.eval .unbounded env = some (.int 16383) ∧ v.evalExact env = some (.int 16383)) ∧
    ((Guard.compare .gt v n).eval .unbounded env = some true ∧
      (Guard.compare .gt v n).evalExact env = some true) ∧
    (v.eval (.wrapping 8) env = some (.int (-1)) ∧ InWidth 8 (-1) ∧
      (v.evalExact env).map (ExactConstant.reduce 8) = some (.int (-1))) ∧
    ArithOp.exact .unbounded .div Int64.minValue.toInt (-1 : Int64).toInt = some (2 ^ 63) ∧
      (2 ^ 63 : Int) < 2 ^ 127 := by
  intro env n v
  have hunbounded : v.eval .unbounded env = some (.int 16383) := by with_unfolding_all rfl
  have hguard : (Guard.compare .gt v n).eval .unbounded env = some true := by
    with_unfolding_all rfl
  have hwrapping : v.eval (.wrapping 8) env = some (.int (-1)) := by with_unfolding_all rfl
  have hexact : ArithOp.exact .unbounded .div Int64.minValue.toInt (-1 : Int64).toInt
      = some (2 ^ 63) := by with_unfolding_all rfl
  have hwithin : env.Within 8 := by
    intro name m hm
    obtain ⟨-, rfl⟩ : name = "n" ∧ -128 = m := by
      simpa [env, Bindings.ofList] using hm
    exact (by decide : InWidth 8 (-128))
  obtain ⟨hvalues, hguards, hwords, hops⟩ := integer_evaluation_is_exact env
  obtain ⟨hrange, hpoly⟩ := hwords 8 hwithin
  refine ⟨⟨hunbounded, hvalues v _ hunbounded⟩, ⟨hguard, hguards _ _ hguard⟩,
    ⟨hwrapping, hrange v _ hwrapping, ?_⟩, hexact, (hops _ _ _ _ _ hexact).2.1⟩
  rw [← hpoly v (by decide), hwrapping]
  rfl

end SinkReach
