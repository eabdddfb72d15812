import PlaceWeather.Calendar.Time

/-!
# Sums of instants and seconds

A sum with a positive number of seconds is decided by one number, the ordinary second of the
instant: `rank_of_addSeconds?` gives the place of the sum among all times, and
`lt_of_addSeconds?_eq_none` says that a sum the calendar does not have lies behind every instant it
does have.  A leap second counts as the second before it, as forward arithmetic has it.
-/

namespace PlaceWeather

namespace Instant

/-! ## Order -/

theorem lt_irrefl (t : Instant) : ¬ t < t := Int.lt_irrefl t.utc.rank

theorem lt_trans {t u v : Instant} (htu : t < u) (huv : u < v) : t < v := Int.lt_trans htu huv

theorem lt_of_le_of_lt {t u v : Instant} (htu : t ≤ u) (huv : u < v) : t < v :=
  Int.lt_of_le_of_lt htu huv

theorem not_le {t u : Instant} : ¬ t ≤ u ↔ u < t := Int.not_le

/-! ## Two instants -/

/-- The beginning of 1970. -/
def epoch : Instant := ⟨.midnight default⟩

/-- The noon of the first day of 1970. -/
def epochNoon : Instant := ⟨.ofSecond default 43200 (by decide)⟩

/-! ## Seconds -/

/-- The number of an instant's second; a leap second has the number of the second it follows. -/
def secondNumber (t : Instant) : Int := 86400 * t.utc.date.number + t.utc.second

/-- The rank of an instant is twice its second, or one more in a leap second. -/
theorem rank_le_secondNumber (t : Instant) : t.utc.rank ≤ 2 * t.secondNumber + 1 := by
  unfold secondNumber LocalTime.rank
  split <;> omega

theorem secondNumber_le_rank (t : Instant) : 2 * t.secondNumber ≤ t.utc.rank := by
  unfold secondNumber LocalTime.rank
  split <;> omega

theorem secondNumber_lt_end (t : Instant) : t.secondNumber < 86400 * (Date.lastNumber + 1) := by
  have hday := t.utc.date.le_last
  have hsecond := t.utc.inDay
  unfold secondNumber
  omega

theorem start_le_secondNumber (t : Instant) : 86400 * Date.firstNumber ≤ t.secondNumber := by
  have hday := t.utc.date.first_le
  unfold secondNumber
  omega

/-- Forward arithmetic is arithmetic on second numbers, cut off at the ends of the calendar. -/
theorem addSeconds?_of_pos (t : Instant) {n : Int} (hn : 0 < n) :
    t.addSeconds? n =
      (Date.ofNumber? ((t.secondNumber + n) / 86400)).map fun date =>
        ⟨LocalTime.ofSecond date ((t.secondNumber + n) % 86400).toNat (by omega)⟩ := by
  -- Forward from a leap second the sum counts from the second it follows.
  have hforward : ¬ n < 0 := by omega
  have hnz : n ≠ 0 := by omega
  simp only [addSeconds?, LocalTime.addSeconds?, secondNumber, hnz, hforward, and_false,
    if_false, Option.map_map, Int.add_zero]
  rfl

/-- The place of a sum among all times. -/
theorem rank_of_addSeconds? {t u : Instant} {n : Int} (hn : 0 < n)
    (h : t.addSeconds? n = some u) : u.utc.rank = 2 * (t.secondNumber + n) := by
  rw [addSeconds?_of_pos t hn, Option.map_eq_some_iff] at h
  obtain ⟨date, hdate, rfl⟩ := h
  have hnumber := Date.number_of_ofNumber? hdate
  simp only [LocalTime.rank, LocalTime.ofSecond, Bool.false_eq_true, if_false]
  omega

/-- A sum that the calendar does not have lies behind every instant that it has. -/
theorem lt_of_addSeconds?_eq_none {t : Instant} {n : Int} (hn : 0 < n)
    (h : t.addSeconds? n = none) (u : Instant) : u.utc.rank < 2 * (t.secondNumber + n) := by
  rw [addSeconds?_of_pos t hn, Option.map_eq_none_iff, Date.ofNumber?] at h
  -- A sum with a positive number of seconds can only leave the calendar at its end.
  have hend : Date.lastNumber < (t.secondNumber + n) / 86400 := by
    have hstart := start_le_secondNumber t
    rcases Int.lt_or_le Date.lastNumber ((t.secondNumber + n) / 86400) with hlt | hle
    · exact hlt
    · rw [dif_pos ⟨by omega, hle⟩] at h
      cases h
  have hu := secondNumber_lt_end u
  have hrank := rank_le_secondNumber u
  omega

end Instant

end PlaceWeather
