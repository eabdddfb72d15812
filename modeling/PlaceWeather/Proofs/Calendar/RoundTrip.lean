import PlaceWeather.Calendar.Stamp
import PlaceWeather.Proofs.Calendar.Civil
import PlaceWeather.Proofs.Decimal.Digits

/-!
# Timestamps that are read again

The text of a local time is read as that time (`Stamp.read_chars`), with a leap second and without.
A number of a timestamp is read up to its width, or up to the next mark when it has none; so the
digits of a signed year may be any number, while those of the other fields have to be as many as they
are written with.
-/

namespace PlaceWeather

theorem bind_of_eq_ok {ε α β : Type} {x : Except ε α} {f : α → Except ε β} {a : α}
    (h : x = .ok a) : (x >>= f) = f a := by
  rw [h]
  rfl

/-! ## Clocks -/

namespace LocalTime

theorem hour_le (t : LocalTime) : t.hour ≤ 23 := by
  have hday := t.inDay
  unfold hour
  omega

theorem minute_le (t : LocalTime) : t.minute ≤ 59 := by
  unfold minute
  omega

theorem secondOfMinute_le (t : LocalTime) : t.secondOfMinute ≤ 60 := by
  unfold secondOfMinute
  split <;> omega

end LocalTime

namespace Stamp

variable {rest : List Char}

/-! ## Numbers -/

theorem leadingDigits_some {ds : List Char} (hds : ∀ c ∈ ds, Decimal.isDigit c = true)
    (rest : List Char) : leadingDigits (some ds.length) (ds ++ rest) = ds := by
  unfold leadingDigits
  dsimp only
  rw [List.takeWhile_append_of_pos hds, List.take_left]

theorem leadingDigits_none {ds : List Char} (hds : ∀ c ∈ ds, Decimal.isDigit c = true)
    (mark : Char) (hmark : Decimal.isDigit mark = false) (rest : List Char) :
    leadingDigits none (ds ++ mark :: rest) = ds := by
  unfold leadingDigits
  dsimp only
  rw [List.takeWhile_append_of_pos hds, List.takeWhile_cons_of_neg (by simp [hmark]),
    List.append_nil]

/-- The digits that lead a text are read when there are any and their number is not too large. -/
theorem readNat_append {width : Option Nat} {ds : List Char}
    (hlead : leadingDigits width (ds ++ rest) = ds) (hne : ds ≠ [])
    (hsmall : (Decimal.natOfDigits ds : Int) ≤ Decimal.int64Max) :
    readNat width (ds ++ rest) = .ok (Decimal.natOfDigits ds, rest) := by
  have hsome : (ds ++ rest).isEmpty = false := by simp [hne]
  have hdigits : ds.isEmpty = false := by simp [hne]
  unfold readNat
  rw [hsome, if_neg Bool.false_ne_true, hlead]
  dsimp only
  rw [hdigits, if_neg Bool.false_ne_true, if_neg (by omega), List.drop_left]

/-- A number is read up to the width with which it is written. -/
theorem readNat_zeroPadded (width : Nat) {n : Nat} (hwidth : 0 < width) (hn : n < Decimal.tenPow width)
    (hsmall : (n : Int) ≤ Decimal.int64Max) (rest : List Char) :
    readNat (some width) (Decimal.zeroPadded width n ++ rest) = .ok (n, rest) := by
  have hdigits : ∀ c ∈ Decimal.zeroPadded width n, Decimal.isDigit c = true := fun c hc =>
    Decimal.isDigit_of_mem_zeroPadded hc
  have hvalue := Decimal.natOfDigits_zeroPadded width n
  have hlead := leadingDigits_some hdigits rest
  rw [Decimal.length_zeroPadded hwidth hn] at hlead
  have hread := readNat_append hlead (Decimal.zeroPadded_ne_nil width n) (by omega)
  rw [hvalue] at hread
  exact hread

/-- Without a width a number is read up to the next mark. -/
theorem readNat_zeroPadded_mark (width : Nat) {n : Nat} (hsmall : (n : Int) ≤ Decimal.int64Max)
    (mark : Char) (hmark : Decimal.isDigit mark = false) (rest : List Char) :
    readNat none (Decimal.zeroPadded width n ++ mark :: rest) = .ok (n, mark :: rest) := by
  have hdigits : ∀ c ∈ Decimal.zeroPadded width n, Decimal.isDigit c = true := fun c hc =>
    Decimal.isDigit_of_mem_zeroPadded hc
  have hvalue := Decimal.natOfDigits_zeroPadded width n
  have hlead := leadingDigits_none hdigits mark hmark rest
  have hread := readNat_append hlead (Decimal.zeroPadded_ne_nil width n) (by omega)
  rw [hvalue] at hread
  exact hread

/-- A number begins with a digit, so there is nothing to skip before it. -/
theorem exists_digit_zeroPadded (width n : Nat) (rest : List Char) :
    ∃ c cs, Decimal.zeroPadded width n ++ rest = c :: cs ∧ Decimal.isDigit c = true := by
  obtain ⟨c, cs, hcs⟩ := List.exists_cons_of_ne_nil (Decimal.zeroPadded_ne_nil width n)
  have hmem : c ∈ Decimal.zeroPadded width n := by
    rw [hcs]
    exact List.mem_cons_self
  exact ⟨c, cs ++ rest, by rw [hcs, List.cons_append], Decimal.isDigit_of_mem_zeroPadded hmem⟩

theorem trimStart_zeroPadded (width n : Nat) (rest : List Char) :
    Text.trimStart (Decimal.zeroPadded width n ++ rest) = Decimal.zeroPadded width n ++ rest := by
  obtain ⟨c, cs, hcs, hc⟩ := exists_digit_zeroPadded width n rest
  rw [hcs]
  exact Text.trimStart_cons_of_not_blank (Decimal.isBlank_of_isDigit hc) cs

/-- A number of two digits is read back within its range. -/
theorem readField_twoChars {lo hi n : Nat} (hlo : lo ≤ n) (hhi : n ≤ hi) (hn : n < 100)
    (rest : List Char) : readField lo hi (twoChars n ++ rest) = .ok (n, rest) := by
  have hsmall : (n : Int) ≤ Decimal.int64Max := by
    unfold Decimal.int64Max
    omega
  unfold readField twoChars
  rw [trimStart_zeroPadded, readNat_zeroPadded 2 (by decide) hn hsmall]
  exact if_pos ⟨hlo, hhi⟩

theorem readMark_cons (c : Char) (rest : List Char) : readMark c (c :: rest) = .ok rest :=
  if_pos rfl

/-! ## Years -/

theorem readYear_signed {sign : Char} {n : Nat} {y : Int}
    (hsign : sign = '-' ∧ y = -n ∨ sign = '+' ∧ y = n) (hlo : Decimal.int32Min ≤ y)
    (hhi : y ≤ Decimal.int32Max) (rest : List Char) :
    readYear (sign :: Decimal.zeroPadded 4 n ++ '-' :: rest) = .ok (y, '-' :: rest) := by
  have hsmall : (n : Int) ≤ Decimal.int64Max := by
    unfold Decimal.int32Min at hlo
    unfold Decimal.int32Max at hhi
    unfold Decimal.int64Max
    omega
  have hread := readNat_zeroPadded_mark 4 hsmall '-' rfl rest
  have hblank : Text.isBlank sign = false := by
    rcases hsign with ⟨rfl, -⟩ | ⟨rfl, -⟩ <;> rfl
  unfold readYear
  rw [List.cons_append, Text.trimStart_cons_of_not_blank hblank]
  -- One of the first two cases is there, by the sign.
  split
  · rename_i heq
    cases heq
    obtain ⟨-, rfl⟩ := hsign.resolve_right (by simp)
    rw [hread]
    exact if_pos ⟨hlo, hhi⟩
  · rename_i heq
    cases heq
    obtain ⟨-, rfl⟩ := hsign.resolve_left (by simp)
    rw [hread]
    exact if_pos ⟨hlo, hhi⟩
  · rename_i hminus hplus
    rcases hsign with ⟨rfl, -⟩ | ⟨rfl, -⟩
    · exact absurd rfl (hminus _)
    · exact absurd rfl (hplus _)

theorem readYear_unsigned {n : Nat} (hn : n ≤ 9999) (rest : List Char) :
    readYear (Decimal.zeroPadded 4 n ++ '-' :: rest) = .ok ((n : Int), '-' :: rest) := by
  have hsmall : (n : Int) ≤ Decimal.int64Max := by
    unfold Decimal.int64Max
    omega
  have hbounds : Decimal.int32Min ≤ (n : Int) ∧ (n : Int) ≤ Decimal.int32Max := by
    unfold Decimal.int32Min Decimal.int32Max
    omega
  have hwidth : n < Decimal.tenPow 4 := Nat.lt_succ_of_le hn
  have hread := readNat_zeroPadded 4 (by decide) hwidth hsmall ('-' :: rest)
  obtain ⟨c, cs, hcs, hc⟩ := exists_digit_zeroPadded 4 n ('-' :: rest)
  unfold readYear
  rw [trimStart_zeroPadded, hcs]
  rw [hcs] at hread
  -- The first character is a digit, so there is no sign.
  split
  · rename_i heq
    cases heq
    exact absurd hc (by decide)
  · rename_i heq
    cases heq
    exact absurd hc (by decide)
  · rw [hread]
    exact if_pos hbounds

/-- A year is read back with the mark behind it. -/
theorem readYear_yearChars {y : Int} (hlo : Decimal.int32Min ≤ y) (hhi : y ≤ Decimal.int32Max)
    (rest : List Char) : readYear (yearChars y ++ '-' :: rest) = .ok (y, '-' :: rest) := by
  unfold yearChars
  split
  · rename_i hplain
    have hread := readYear_unsigned (n := y.toNat) (by omega) rest
    rw [Int.toNat_of_nonneg hplain.1] at hread
    exact hread
  · refine readYear_signed ?_ hlo hhi rest
    by_cases hnegative : y < 0
    · exact .inl ⟨if_pos hnegative, by omega⟩
    · exact .inr ⟨if_neg hnegative, by omega⟩

/-! ## Timestamps -/

/-- Hour, minute and second of a time give that time of its date. -/
theorem ofClock?_clock (t : LocalTime) :
    LocalTime.ofClock? t.date t.hour t.minute t.secondOfMinute = some t := by
  have hday := t.inDay
  have hhour := t.hour_le
  have hminute := t.minute_le
  have hsecond := t.secondOfMinute_le
  have hends := t.endsMinute
  have hhours : t.second / 3600 = t.second / 60 / 60 := (Nat.div_div_eq_div_mul _ 60 60).symm
  unfold LocalTime.ofClock?
  rw [dif_pos ⟨by omega, by omega, hsecond⟩]
  -- Only a leap second is the sixtieth of its minute.
  by_cases hleap : t.leap = true
  · have hsixty : t.secondOfMinute = 60 := by
      unfold LocalTime.secondOfMinute
      rw [if_pos hleap, hends hleap]
    rw [dif_pos hsixty]
    apply congrArg some
    apply LocalTime.eq_of_rank_eq
    have hend := hends hleap
    simp only [LocalTime.rank, LocalTime.hour, LocalTime.minute, hleap]
    omega
  · have hplain : t.secondOfMinute = t.second % 60 := by
      unfold LocalTime.secondOfMinute
      rw [if_neg hleap, Nat.add_zero]
    rw [dif_neg (by omega)]
    apply congrArg some
    apply LocalTime.eq_of_rank_eq
    simp only [LocalTime.rank, LocalTime.hour, LocalTime.minute, hplain, if_neg hleap,
      Bool.false_eq_true, if_false]
    omega

/-- Every local time is read back from its text. -/
theorem read_chars (t : LocalTime) : read (chars t) = .ok t := by
  have hyear := Date.year_bounds t.date
  have hmonth := Date.month_bounds t.date
  have hday := Date.day_bounds t.date
  have hday' := Nat.le_trans hday.2 (Date.daysInMonth_le _ _)
  have hhour := t.hour_le
  have hminute := t.minute_le
  have hsecond := t.secondOfMinute_le
  have hlow : Decimal.int32Min ≤ t.date.civil.year := by
    unfold Decimal.int32Min
    omega
  have hhigh : t.date.civil.year ≤ Decimal.int32Max := by
    unfold Decimal.int32Max
    omega
  have hchars : chars t = yearChars t.date.civil.year ++ '-' :: (twoChars t.date.civil.month ++ '-' ::
      (twoChars t.date.civil.day ++ 'T' :: (twoChars t.hour ++ ':' ::
        (twoChars t.minute ++ ':' :: (twoChars t.secondOfMinute ++ []))))) := by
    simp only [chars, dateChars, clockChars, List.append_assoc, List.cons_append, List.append_nil]
  -- Each number is read with the mark behind it, the last one up to the end.
  rw [hchars]
  refine (bind_of_eq_ok (readYear_yearChars hlow hhigh _)).trans ?_
  refine (bind_of_eq_ok (readMark_cons '-' _)).trans ?_
  refine (bind_of_eq_ok (readField_twoChars (by omega) (by omega) (by omega) _)).trans ?_
  refine (bind_of_eq_ok (readMark_cons '-' _)).trans ?_
  refine (bind_of_eq_ok (readField_twoChars (by omega) (by omega) (by omega) _)).trans ?_
  refine (bind_of_eq_ok (readMark_cons 'T' _)).trans ?_
  refine (bind_of_eq_ok (readField_twoChars (by omega) (by omega) (by omega) _)).trans ?_
  refine (bind_of_eq_ok (readMark_cons ':' _)).trans ?_
  refine (bind_of_eq_ok (readField_twoChars (by omega) (by omega) (by omega) _)).trans ?_
  refine (bind_of_eq_ok (readMark_cons ':' _)).trans ?_
  refine (bind_of_eq_ok (readField_twoChars (by omega) (by omega) (by omega) _)).trans ?_
  dsimp only
  rw [Date.ofCivil?_civil, Option.bind_some, ofClock?_clock]
  rfl

/-! ## Blanks -/

theorem isBlank_of_mem_twoChars {n : Nat} {c : Char} (h : c ∈ twoChars n) :
    Text.isBlank c = false :=
  Decimal.isBlank_of_isDigit (Decimal.isDigit_of_mem_zeroPadded h)

theorem isBlank_of_mem_yearChars {y : Int} {c : Char} (h : c ∈ yearChars y) :
    Text.isBlank c = false := by
  unfold yearChars at h
  split at h
  · exact Decimal.isBlank_of_isDigit (Decimal.isDigit_of_mem_zeroPadded h)
  · rcases List.mem_cons.mp h with rfl | h
    · split <;> rfl
    · exact Decimal.isBlank_of_isDigit (Decimal.isDigit_of_mem_zeroPadded h)

/-- No blank stands in a timestamp. -/
theorem isBlank_of_mem_chars {t : LocalTime} {c : Char} (h : c ∈ chars t) :
    Text.isBlank c = false := by
  simp only [chars, dateChars, clockChars, List.mem_append, List.mem_cons] at h
  rcases h with (((h | rfl | h) | rfl | h) | rfl | h | rfl | h) | rfl | h
  · exact isBlank_of_mem_yearChars h
  all_goals first | rfl | exact isBlank_of_mem_twoChars h

end Stamp

end PlaceWeather
