/-
# Cutting to a width is two's complement reduction

`wrap` shifts a 128-bit word up and back and keeps 64 bits of what is left.  `toInt_wrap` says that
the result is a balanced remainder.  This file draws the consequences, all from one equivalence:
two integers are cut to the same word exactly if they are CONGRUENT modulo the power of two of the
width (`wrap_eq_wrap_iff`).

* `toInt_wrap_eq_iff`: the result is the one integer in the range of the width that is congruent to
  the given one;
* `wrap_add`, `wrap_sub`, `wrap_mul`: operands may be cut before an operation or not;
* `signExtend_eq_iff`: of a raw pattern the bits below the width count, and no others.
-/
import Mathlib.Data.Int.ModEq
import SinkReach.Proofs.Arithmetic

namespace SinkReach

variable {bits : UInt32}

/-! ## 1. Congruent integers -/

/-- The power of two of a width, as a natural number and as an integer. -/
theorem natCast_two_pow_width (bits : UInt32) :
    ((2 ^ clampWidth bits : Nat) : Int) = 2 ^ clampWidth bits := by
  push_cast
  rfl

/-- A residue is congruent to what it is the residue of. -/
theorem residue_modEq (bits : UInt32) (n : Int) : residue bits n ≡ n [ZMOD 2 ^ clampWidth bits] := by
  rw [← natCast_two_pow_width]
  exact Int.bmod_emod

/-- Integers have one residue exactly if they are congruent. -/
theorem residue_eq_residue_iff {m n : Int} :
    residue bits m = residue bits n ↔ m ≡ n [ZMOD 2 ^ clampWidth bits] := by
  constructor
  · intro h
    exact (residue_modEq bits m).symm.trans (h ▸ residue_modEq bits n)
  · intro h
    rw [← natCast_two_pow_width] at h
    rw [residue, residue, ← Int.emod_bmod m, ← Int.emod_bmod n, h]

/-- **Two integers are cut to the same word exactly if they are congruent.** -/
theorem wrap_eq_wrap_iff {m n : Int} :
    wrap m bits = wrap n bits ↔ m ≡ n [ZMOD 2 ^ clampWidth bits] := by
  rw [← Int64.toInt_inj, toInt_wrap, toInt_wrap, residue_eq_residue_iff]

theorem toInt_wrap_modEq (n : Int) (bits : UInt32) :
    (wrap n bits).toInt ≡ n [ZMOD 2 ^ clampWidth bits] := by
  rw [toInt_wrap]
  exact residue_modEq bits n

/-- **The result is the one integer of the width's range that is congruent to the given one.** -/
theorem toInt_wrap_eq_iff {n r : Int} :
    (wrap n bits).toInt = r ↔ InWidth bits r ∧ r ≡ n [ZMOD 2 ^ clampWidth bits] := by
  constructor
  · rintro rfl
    exact ⟨inWidth_wrap n bits, toInt_wrap_modEq n bits⟩
  · rintro ⟨hrange, hcongr⟩
    rw [toInt_wrap, residue_eq_residue_iff.mpr hcongr.symm, residue_of_inWidth hrange]

/-! ## 2. Cutting twice -/

theorem toInt_wrap_of_inWidth {n : Int} (h : InWidth bits n) : (wrap n bits).toInt = n := by
  rw [toInt_wrap, residue_of_inWidth h]

theorem wrap_wrap (n : Int) (bits : UInt32) : wrap (wrap n bits).toInt bits = wrap n bits :=
  wrap_eq_wrap_iff.mpr (toInt_wrap_modEq n bits)

theorem wrap_add (x y : Int) (bits : UInt32) :
    wrap (x + y) bits = wrap ((wrap x bits).toInt + (wrap y bits).toInt) bits :=
  wrap_eq_wrap_iff.mpr ((toInt_wrap_modEq x bits).add (toInt_wrap_modEq y bits)).symm

theorem wrap_sub (x y : Int) (bits : UInt32) :
    wrap (x - y) bits = wrap ((wrap x bits).toInt - (wrap y bits).toInt) bits :=
  wrap_eq_wrap_iff.mpr ((toInt_wrap_modEq x bits).sub (toInt_wrap_modEq y bits)).symm

theorem wrap_mul (x y : Int) (bits : UInt32) :
    wrap (x * y) bits = wrap ((wrap x bits).toInt * (wrap y bits).toInt) bits :=
  wrap_eq_wrap_iff.mpr ((toInt_wrap_modEq x bits).mul (toInt_wrap_modEq y bits)).symm

/-! ## 3. Raw patterns -/

/-- Numbers are congruent modulo a power of two exactly if their low bits are the same. -/
theorem modEq_two_pow_iff {m n w : Nat} :
    m ≡ n [MOD 2 ^ w] ↔ ∀ i < w, m.testBit i = n.testBit i := by
  constructor
  · intro h i hi
    have hbit := congrArg (Nat.testBit · i) h
    simpa [Nat.testBit_mod_two_pow, hi] using hbit
  · intro h
    refine Nat.eq_of_testBit_eq fun i => ?_
    rw [Nat.testBit_mod_two_pow, Nat.testBit_mod_two_pow]
    by_cases hi : i < w
    · rw [h i hi]
    · simp [hi]

/-- **Of a raw pattern the bits below the width count, and no others.** -/
theorem signExtend_eq_iff {raw raw' : UInt64} :
    signExtend raw bits = signExtend raw' bits ↔
      ∀ i < clampWidth bits, raw.toNat.testBit i = raw'.toNat.testBit i := by
  rw [← modEq_two_pow_iff, signExtend, signExtend, wrap_eq_wrap_iff, ← natCast_two_pow_width]
  exact Int.natCast_modEq_iff

/-! ## 4. Cutting to a width -/

/-- **Cutting to a width is two's complement reduction.**  Whatever the width that is asked for, let
`b` be the one between 1 and 64 that it stands for.

* The result is the one integer from `-2 ^ (b - 1)` up to `2 ^ (b - 1)`, this excluded, that is
  congruent to the given one modulo `2 ^ b`.
* So cutting again changes nothing, and nothing in that range is changed.
* Sums, differences and products may be cut at the end only, or their operands before.
* Raw patterns are extended to the same word exactly if their low `b` bits are the same. -/
theorem wrap_is_twos_complement (bits : UInt32) (b : Nat) (hb : b = max 1 (min 64 bits.toNat)) :
    (∀ v r : Int, (wrap v bits).toInt = r ↔
      (-(2 ^ (b - 1)) ≤ r ∧ r < 2 ^ (b - 1)) ∧ r ≡ v [ZMOD 2 ^ b]) ∧
    (∀ v : Int, wrap (wrap v bits).toInt bits = wrap v bits) ∧
    (∀ v : Int, -(2 ^ (b - 1)) ≤ v → v < 2 ^ (b - 1) → (wrap v bits).toInt = v) ∧
    (∀ x y : Int,
      wrap (x + y) bits = wrap ((wrap x bits).toInt + (wrap y bits).toInt) bits ∧
      wrap (x - y) bits = wrap ((wrap x bits).toInt - (wrap y bits).toInt) bits ∧
      wrap (x * y) bits = wrap ((wrap x bits).toInt * (wrap y bits).toInt) bits) ∧
    ∀ raw raw' : UInt64, signExtend raw bits = signExtend raw' bits ↔
      ∀ i < b, raw.toNat.testBit i = raw'.toNat.testBit i := by
  subst hb
  refine ⟨fun v r => toInt_wrap_eq_iff, fun v => wrap_wrap v bits, ?_, ?_,
    fun raw raw' => signExtend_eq_iff⟩
  · intro v hlow hhigh
    exact toInt_wrap_of_inWidth ⟨hlow, hhigh⟩
  · intro x y
    exact ⟨wrap_add x y bits, wrap_sub x y bits, wrap_mul x y bits⟩

/-- A width of zero stands for one bit and a width of 200 for 64, at both ends of 128 bits. -/
theorem wrap_is_twos_complement_extremes :
    (wrap (2 ^ 127 - 1) 0).toInt = -1 ∧ (wrap (-(2 ^ 127) + 5) 200).toInt = 5 ∧
      (wrap (-128) 8).toInt = -128 ∧ signExtend 0xA7F80 8 = signExtend 0x80 8 ∧
      signExtend 0x180 9 ≠ signExtend 0x80 9 := by
  obtain ⟨hbit, -⟩ := wrap_is_twos_complement 0 1 (by decide)
  obtain ⟨hword, -⟩ := wrap_is_twos_complement 200 64 (by decide)
  obtain ⟨-, -, hkept, -, hbyte⟩ := wrap_is_twos_complement 8 8 (by decide)
  obtain ⟨-, -, -, -, hnine⟩ := wrap_is_twos_complement 9 9 (by decide)
  refine ⟨(hbit _ _).mpr (by decide), (hword _ _).mpr (by decide), hkept _ (by decide) (by decide),
    (hbyte _ _).mpr (by decide), ?_⟩
  intro heq
  exact absurd ((hnine _ _).mp heq 8 (by decide)) (by decide)

end SinkReach
