import PlaceWeather.Calendar.Date

/-!
# Local times and instants

A local time is a second of a date.  The last second of a minute may be followed by a leap second,
which is later than it and earlier than the next minute.  Arithmetic never ends in a leap second:
going forward from one counts from the second before it, going back from the one after it.

An instant is a time of the UTC clock; the local time of a place is an instant shifted by the
place's offset in minutes.

The times of the program have fractions of a second.  They are left out here: the times that feeds
give and those that calls are made with are whole seconds, and sums only add whole ones.
-/

namespace PlaceWeather

/-- A second of a date, without the fraction that a time may have beyond it; `leap` marks the leap
second that follows it. -/
structure LocalTime where
  date : Date
  second : Nat
  leap : Bool
  inDay : second < 86400
  endsMinute : leap = true → second % 60 = 59
  deriving DecidableEq

namespace LocalTime

/-- The place of a time in the order of all times: two places for each second, the later one for the
leap second that may follow it. -/
def rank (t : LocalTime) : Int := 2 * (86400 * t.date.number + t.second) + (if t.leap then 1 else 0)

instance : LT LocalTime := ⟨fun a b => a.rank < b.rank⟩
instance : LE LocalTime := ⟨fun a b => a.rank ≤ b.rank⟩
instance : DecidableLT LocalTime := fun a b => inferInstanceAs (Decidable (a.rank < b.rank))
instance : DecidableLE LocalTime := fun a b => inferInstanceAs (Decidable (a.rank ≤ b.rank))

theorem lt_iff_rank {a b : LocalTime} : a < b ↔ a.rank < b.rank := Iff.rfl
theorem le_iff_rank {a b : LocalTime} : a ≤ b ↔ a.rank ≤ b.rank := Iff.rfl

/-- Different times have different ranks. -/
theorem eq_of_rank_eq {a b : LocalTime} (h : a.rank = b.rank) : a = b := by
  obtain ⟨da, sa, la, ha, _⟩ := a
  obtain ⟨db, sb, lb, hb, _⟩ := b
  simp only [rank] at h
  have hl : la = lb := by
    cases la <;> cases lb <;> simp at h ⊢ <;> omega
  subst hl
  have hd : da.number = db.number := by omega
  have hs : sa = sb := by omega
  cases Date.ext_number hd
  subst hs
  rfl

/-- The ordinary second of a date. -/
def ofSecond (date : Date) (second : Nat) (h : second < 86400) : LocalTime :=
  ⟨date, second, false, h, by simp⟩

/-- The first second of a date. -/
def midnight (date : Date) : LocalTime := ofSecond date 0 (by decide)

/-- The last ordinary second of a date. -/
def lastSecond (date : Date) : LocalTime := ofSecond date 86399 (by decide)

/-- The time of a date with an hour, a minute and a second, of which 60 is the leap second. -/
def ofClock? (date : Date) (hour minute second : Nat) : Option LocalTime :=
  if h : hour < 24 ∧ minute < 60 ∧ second ≤ 60 then
    if hs : second = 60 then
      some ⟨date, 3600 * hour + 60 * minute + 59, true, by omega, by omega⟩
    else
      some ⟨date, 3600 * hour + 60 * minute + second, false, by omega, by simp⟩
  else none

/-- The hour of a time. -/
def hour (t : LocalTime) : Nat := t.second / 3600
/-- The minute of the hour. -/
def minute (t : LocalTime) : Nat := t.second / 60 % 60
/-- The second of the minute, 60 for a leap second. -/
def secondOfMinute (t : LocalTime) : Nat := t.second % 60 + (if t.leap then 1 else 0)

/-- The time a number of seconds later, or earlier when the number is negative; no time when the
sum leaves the calendar. -/
def addSeconds? (t : LocalTime) (n : Int) : Option LocalTime :=
  if n = 0 then some t
  else
    let start : Int := t.second + (if t.leap ∧ n < 0 then 1 else 0)
    let total := 86400 * t.date.number + start + n
    (Date.ofNumber? (total / 86400)).map fun date =>
      ofSecond date (total % 86400).toNat (by omega)

/-- The time a number of minutes later, or earlier when the number is negative. -/
def addMinutes? (t : LocalTime) (n : Int) : Option LocalTime := t.addSeconds? (60 * n)

/-- The seconds from one time to a later one, negative when it is earlier.  A leap second lasts one
second, which counts when the later time of day lies behind it. -/
def secondsSince (t start : LocalTime) : Int :=
  let days := t.date.number - start.date.number
  let clock : Int := (t.second : Int) - start.second
  let leaps : Int :=
    (if t.leap then 1 else 0) - (if start.leap then 1 else 0) +
    (if start.second < t.second ∧ start.leap then 1
     else if t.second < start.second ∧ t.leap then -1 else 0)
  86400 * days + clock + leaps

end LocalTime

/-- A time of the UTC clock, to the second as local times are. -/
structure Instant where
  utc : LocalTime
  deriving DecidableEq

namespace Instant

instance : LT Instant := ⟨fun a b => a.utc < b.utc⟩
instance : LE Instant := ⟨fun a b => a.utc ≤ b.utc⟩
instance : DecidableLT Instant := fun a b => inferInstanceAs (Decidable (a.utc < b.utc))
instance : DecidableLE Instant := fun a b => inferInstanceAs (Decidable (a.utc ≤ b.utc))

theorem lt_iff_rank {a b : Instant} : a < b ↔ a.utc.rank < b.utc.rank := Iff.rfl
theorem le_iff_rank {a b : Instant} : a ≤ b ↔ a.utc.rank ≤ b.utc.rank := Iff.rfl

/-- The instant so many seconds after the beginning of 1970. -/
def ofUnix? (seconds : Int) : Option Instant :=
  (Date.ofNumber? (seconds / 86400)).map fun date =>
    ⟨LocalTime.ofSecond date (seconds % 86400).toNat (by omega)⟩

/-- The instant a number of seconds later. -/
def addSeconds? (t : Instant) (n : Int) : Option Instant := (t.utc.addSeconds? n).map Instant.mk

/-- The seconds from one instant to a later one. -/
def secondsSince (t start : Instant) : Int := t.utc.secondsSince start.utc

/-- The local time at an offset in minutes. -/
def toLocal? (t : Instant) (offset : Int) : Option LocalTime := t.utc.addMinutes? offset

/-- The instant of a local time at an offset in minutes. -/
def ofLocal? (t : LocalTime) (offset : Int) : Option Instant :=
  (t.addMinutes? (-offset)).map Instant.mk

end Instant

end PlaceWeather
