import Mathlib.Data.List.Basic
import PlaceWeather.Decimal.Notation
import PlaceWeather.Decimal.Reading
import PlaceWeather.Text.Pieces

/-!
# Digits

The decimal digits of a natural number spell it, also with zeros before them, and consist of digits
only.  Two places are enough below a hundred, and there a smaller number comes first in the order of
texts (`zeroPadded_two_append_lt`).
-/

namespace PlaceWeather.Decimal

/-! ## Digits of any number -/

theorem natOfDigits_natDigits (n : Nat) : natOfDigits (natDigits n) = n :=
  Nat.ofDigitChars_toDigits (by decide) (by decide)

theorem natOfDigits_zeroPadded (width n : Nat) : natOfDigits (zeroPadded width n) = n := by
  show Nat.ofDigitChars 10 (List.replicate _ '0' ++ natDigits n) 0 = n
  rw [Nat.ofDigitChars_append, Nat.ofDigitChars_replicate_zero, Nat.mul_zero]
  exact natOfDigits_natDigits n

theorem isDigit_of_mem_natDigits {n : Nat} {c : Char} (h : c ∈ natDigits n) :
    isDigit c = true := by
  have hdigit : c.isDigit = true := Nat.isDigit_of_mem_toDigits (by decide) (by decide) h
  unfold Char.isDigit at hdigit
  exact hdigit

theorem isDigit_of_mem_zeroPadded {width n : Nat} {c : Char} (h : c ∈ zeroPadded width n) :
    isDigit c = true := by
  rcases List.mem_append.mp h with h | h
  · rw [List.eq_of_mem_replicate h]
    rfl
  · exact isDigit_of_mem_natDigits h

/-- A digit stands between the codes of `0` and `9`. -/
theorem toNat_of_isDigit {c : Char} (h : isDigit c = true) : 48 ≤ c.toNat ∧ c.toNat ≤ 57 := by
  unfold isDigit at h
  simp only [Bool.and_eq_true, decide_eq_true_eq] at h
  exact ⟨UInt32.le_iff_toNat_le.mp h.1, UInt32.le_iff_toNat_le.mp h.2⟩

theorem isBlank_of_isDigit {c : Char} (h : isDigit c = true) : Text.isBlank c = false := by
  have hcode := toNat_of_isDigit h
  unfold Text.isBlank
  dsimp only
  simp only [Bool.or_eq_false_iff, Bool.and_eq_false_iff, decide_eq_false_iff_not, beq_eq_false_iff_ne]
  omega

theorem natDigits_ne_nil (n : Nat) : natDigits n ≠ [] := Nat.toDigits_ne_nil

theorem zeroPadded_ne_nil (width n : Nat) : zeroPadded width n ≠ [] :=
  List.append_ne_nil_of_right_ne_nil _ (natDigits_ne_nil n)

theorem length_zeroPadded {width n : Nat} (hwidth : 0 < width) (hn : n < tenPow width) :
    (zeroPadded width n).length = width := by
  have hle : (natDigits n).length ≤ width := (Nat.length_toDigits_le_iff (by decide) hwidth).mpr hn
  unfold zeroPadded
  dsimp only
  rw [List.length_append, List.length_replicate]
  omega

/-! ## Two digits -/

theorem zeroPadded_two {n : Nat} (hn : n < 100) :
    zeroPadded 2 n = [Nat.digitChar (n / 10), Nat.digitChar (n % 10)] := by
  have h : ∀ k : Fin 100,
      zeroPadded 2 k = [Nat.digitChar (k / 10), Nat.digitChar (k % 10)] := by decide
  exact h ⟨n, hn⟩

theorem digitChar_lt {m n : Nat} (h : m < n) (hn : n < 10) :
    Nat.digitChar m < Nat.digitChar n := by
  apply Char.lt_def.mpr
  apply UInt32.lt_iff_toNat_lt.mpr
  have hm : (Nat.digitChar m).toNat = 48 + m := Nat.toNat_digitChar_of_lt_ten (by omega)
  have hn : (Nat.digitChar n).toNat = 48 + n := Nat.toNat_digitChar_of_lt_ten hn
  show (Nat.digitChar m).toNat < (Nat.digitChar n).toNat
  omega

/-- The smaller of two numbers below a hundred comes first, whatever follows them. -/
theorem zeroPadded_two_append_lt {m n : Nat} (h : m < n) (hn : n < 100) (cs ds : List Char) :
    zeroPadded 2 m ++ cs < zeroPadded 2 n ++ ds := by
  rw [zeroPadded_two (n := m) (by omega), zeroPadded_two hn]
  apply List.cons_lt_cons_iff.mpr
  have htens : m / 10 < n / 10 ∨ (m / 10 = n / 10 ∧ m % 10 < n % 10) := by omega
  rcases htens with hlt | ⟨heq, hlt⟩
  · exact .inl (digitChar_lt hlt (by omega))
  · refine .inr ⟨by rw [heq], ?_⟩
    apply List.cons_lt_cons_iff.mpr
    exact .inl (digitChar_lt hlt (by omega))

end PlaceWeather.Decimal
