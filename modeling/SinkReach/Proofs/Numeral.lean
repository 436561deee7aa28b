/-
# Numerals

What numbers are written as, and that the number can be told from it (`Text.ofDigits_toDigits`,
`Text.toString_injective`).
-/
import SinkReach.Text.Numeral

namespace SinkReach.Text

/-! ## 1. Natural numbers -/

theorem ofDigits_toDigits (n : Nat) : ofDigits (Nat.toDigits 10 n) = n := by
  have h : ofDigits = fun ds => Nat.ofDigitChars 10 ds 0 := by
    funext ds
    simp only [ofDigits, Nat.ofDigitChars, Nat.mul_comm]
    rfl
  rw [h]
  exact Nat.ofDigitChars_ten_toDigits

/-- The numeral tells the number. -/
theorem toString_injective {i j : Nat} (h : toString i = toString j) : i = j := by
  have hdigits : Nat.toDigits 10 i = Nat.toDigits 10 j := by
    rw [← Nat.toList_repr, ← Nat.toList_repr]
    exact congrArg String.toList h
  rw [← ofDigits_toDigits i, hdigits, ofDigits_toDigits]

theorem exists_toDigits_eq_cons (n : Nat) : ∃ d ds, Nat.toDigits 10 n = d :: ds :=
  List.exists_cons_of_ne_nil Nat.toDigits_ne_nil

/-- Only the numeral of zero starts with a zero. -/
theorem eq_zero_of_head?_toDigits {n : Nat} (h : (Nat.toDigits 10 n).head? = some '0') :
    n = 0 := by
  induction n using Nat.strongRecOn with
  | _ n ih =>
    by_cases hn : n < 10
    · have hdigit : ∀ m < 10, Nat.digitChar m = '0' → m = 0 := by decide
      rw [Nat.toDigits_of_lt_base hn, List.head?_cons, Option.some.injEq] at h
      exact hdigit n hn h
    · have hhead : (Nat.toDigits 10 (n / 10)).head? = some '0' := by
        obtain ⟨d, ds, hds⟩ := exists_toDigits_eq_cons (n / 10)
        rw [Nat.toDigits_of_base_le (by decide) (by omega), hds] at h
        rw [hds]
        exact h
      have hzero := ih (n / 10) (by omega) hhead
      omega

/-! ## 2. Integers -/

/-- The text of an integer. -/
theorem toList_toString_int (n : Int) :
    (toString n).toList = (if n < 0 then ['-'] else []) ++ Nat.toDigits 10 n.natAbs := by
  rw [Int.toString_eq_repr, Int.repr_eq_if]
  split
  · next hn =>
    rw [if_neg (by omega), Nat.toList_repr, show n.toNat = n.natAbs by omega]
    rfl
  · next hn =>
    rw [if_pos (by omega), String.toList_append, Nat.toList_repr,
      show (-n).toNat = n.natAbs by omega]
    rfl

theorem isDigit_of_mem_toString {n : Int} {c : Char} (hc : c ∈ (toString n).toList) :
    c = '-' ∨ c.isDigit = true := by
  rw [toList_toString_int, List.mem_append] at hc
  rcases hc with hc | hc
  · split at hc
    · exact .inl (List.mem_singleton.mp hc)
    · exact absurd hc List.not_mem_nil
  · exact .inr (Nat.isDigit_of_mem_toDigits (by decide) (by decide) hc)

/-- A sign or a digit is none of the characters that mean something else. -/
theorem ne_of_isDigit {c : Char} (hc : c = '-' ∨ c.isDigit = true) {d : Char}
    (hd : ¬(d = '-' ∨ d.isDigit = true)) : c ≠ d := by
  rintro rfl
  exact hd hc

end SinkReach.Text
