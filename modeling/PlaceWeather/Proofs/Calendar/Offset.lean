import PlaceWeather.Proofs.Calendar.Sum

/-!
# Offsets

Taking an offset off a local time gives an instant whose local time at that offset is the time again
(`exists_atOffset`).  It is there whenever the calendar has the second that many minutes away.
Leap seconds are left out: arithmetic never ends in one, so none is found again.
-/

namespace PlaceWeather

/-- The calendar has a second with this number, counted from the beginning of 1970. -/
def Date.HasSecond (n : Int) : Prop :=
  86400 * Date.firstNumber ≤ n ∧ n < 86400 * (Date.lastNumber + 1)

instance (n : Int) : Decidable (Date.HasSecond n) := inferInstanceAs (Decidable (_ ∧ _))

namespace LocalTime

/-- The number of a time's second; a leap second has the number of the second it follows. -/
def secondNumber (t : LocalTime) : Int := 86400 * t.date.number + t.second

theorem eq_of_secondNumber_eq {t u : LocalTime} (ht : t.leap = false) (hu : u.leap = false)
    (h : t.secondNumber = u.secondNumber) : t = u := by
  apply eq_of_rank_eq
  unfold secondNumber at h
  unfold rank
  rw [ht, hu]
  omega

theorem exists_of_hasSecond {n : Int} (h : Date.HasSecond n) :
    ∃ t : LocalTime, t.leap = false ∧ t.secondNumber = n := by
  obtain ⟨hfirst, hlast⟩ := h
  have hday : Date.firstNumber ≤ n / 86400 ∧ n / 86400 ≤ Date.lastNumber := by omega
  have hsecond : (n % 86400).toNat < 86400 := by omega
  refine ⟨.ofSecond ⟨n / 86400, hday.1, hday.2⟩ _ hsecond, rfl, ?_⟩
  show 86400 * (n / 86400) + ((n % 86400).toNat : Int) = n
  omega

/-- Arithmetic on ordinary seconds is arithmetic on their numbers. -/
theorem addSeconds?_eq_some {t u : LocalTime} {n : Int} (ht : t.leap = false) (hu : u.leap = false)
    (h : u.secondNumber = t.secondNumber + n) : t.addSeconds? n = some u := by
  unfold addSeconds?
  by_cases hzero : n = 0
  · rw [if_pos hzero]
    exact congrArg some (eq_of_secondNumber_eq ht hu (by omega))
  · have hstart : ¬ (t.leap ∧ n < 0) := by simp [ht]
    -- The sum has the number of `u`, so day and second of the sum are those of `u`.
    have htotal : 86400 * t.date.number + ((t.second : Int) + 0) + n = u.secondNumber := by
      unfold secondNumber at h ⊢
      omega
    have hsecond := u.inDay
    have hday : u.secondNumber / 86400 = u.date.number := by
      unfold secondNumber
      omega
    simp only [if_neg hzero, if_neg hstart, htotal, hday, Date.ofNumber?_number, Option.map_some]
    apply congrArg some
    apply eq_of_secondNumber_eq rfl hu
    show 86400 * u.date.number + ((u.secondNumber % 86400).toNat : Int) = u.secondNumber
    unfold secondNumber
    omega

end LocalTime

namespace Instant

/-- The date of an instant is that of its second. -/
theorem date_of_secondNumber {i : Instant} {d : Date}
    (h : 86400 * d.number ≤ i.secondNumber ∧ i.secondNumber < 86400 * (d.number + 1)) :
    i.utc.date = d := by
  have hsecond := i.utc.inDay
  unfold secondNumber at h
  apply Date.ext_number
  omega

/-- An instant that lies an offset in minutes before a local time, and whose local time at that offset
it is. -/
structure AtOffset (t : LocalTime) (offset : Int) (i : Instant) : Prop where
  not_leap : i.utc.leap = false
  secondNumber_eq : i.secondNumber = t.secondNumber - 60 * offset
  toLocal?_eq : i.toLocal? offset = some t

/-- An ordinary local time is that of an instant, as far as the calendar goes. -/
theorem exists_atOffset {t : LocalTime} {offset : Int} (ht : t.leap = false)
    (h : Date.HasSecond (t.secondNumber - 60 * offset)) :
    ∃ i, ofLocal? t offset = some i ∧ AtOffset t offset i := by
  obtain ⟨utc, hutc, hnumber⟩ := LocalTime.exists_of_hasSecond h
  have hbefore : t.addSeconds? (60 * -offset) = some utc :=
    LocalTime.addSeconds?_eq_some ht hutc (by omega)
  have hback : utc.addSeconds? (60 * offset) = some t :=
    LocalTime.addSeconds?_eq_some hutc ht (by omega)
  refine ⟨⟨utc⟩, ?_, hutc, hnumber, hback⟩
  unfold ofLocal? LocalTime.addMinutes?
  rw [hbefore]
  rfl

end Instant

end PlaceWeather
