/-!
# Dates

Days of the proleptic Gregorian calendar, in which there is a year zero and the leap year rule holds
for all years.  A date is a day number, so that arithmetic and order on dates are those of the whole
numbers; year, month and day are read off it.  The calendar has a first and a last day, and
arithmetic that leaves it gives no date.
-/

namespace PlaceWeather

/-- The number of the first day of the calendar, 1 January of the year -262143. -/
def Date.firstNumber : Int := -96465292
/-- The number of the last day of the calendar, 31 December of the year 262142. -/
def Date.lastNumber : Int := 95026236

/-- A day of the calendar, numbered from 1 January 1970. -/
structure Date where
  number : Int
  first_le : Date.firstNumber ≤ number
  le_last : number ≤ Date.lastNumber
  deriving DecidableEq

/-- Year, month and day of a date. -/
structure Civil where
  year : Int
  month : Nat
  day : Nat
  deriving DecidableEq, Repr

namespace Date

theorem ext_number {a b : Date} (h : a.number = b.number) : a = b := by
  cases a; cases b; cases h; rfl

instance : LT Date := ⟨fun a b => a.number < b.number⟩
instance : LE Date := ⟨fun a b => a.number ≤ b.number⟩
instance : DecidableLT Date := fun a b => inferInstanceAs (Decidable (a.number < b.number))
instance : DecidableLE Date := fun a b => inferInstanceAs (Decidable (a.number ≤ b.number))

theorem lt_iff_number {a b : Date} : a < b ↔ a.number < b.number := Iff.rfl
theorem le_iff_number {a b : Date} : a ≤ b ↔ a.number ≤ b.number := Iff.rfl

/-- The last day of the calendar. -/
def last : Date := ⟨lastNumber, by decide, by decide⟩

instance : Inhabited Date := ⟨⟨0, by decide, by decide⟩⟩

/-- The day with a number, when the calendar has it. -/
def ofNumber? (n : Int) : Option Date :=
  if h : firstNumber ≤ n ∧ n ≤ lastNumber then some ⟨n, h.1, h.2⟩ else none

@[simp] theorem ofNumber?_number (d : Date) : ofNumber? d.number = some d := by
  simp [ofNumber?, d.first_le, d.le_last]

theorem number_of_ofNumber? {n : Int} {d : Date} (h : ofNumber? n = some d) : d.number = n := by
  unfold ofNumber? at h
  split at h
  · cases h; rfl
  · cases h

/-- The date a number of days later, or earlier when the number is negative. -/
def addDays? (d : Date) (n : Int) : Option Date := ofNumber? (d.number + n)

/-- The following day. -/
def next? (d : Date) : Option Date := d.addDays? 1

/-! ## Year, month and day -/

/-- Every fourth year is a leap year, except full centuries that 400 does not divide. -/
def isLeap (year : Int) : Bool := year % 4 == 0 && (year % 100 != 0 || year % 400 == 0)

/-- The number of days of a month, none for a month that does not exist. -/
def daysInMonth (year : Int) (month : Nat) : Nat :=
  match month with
  | 1 | 3 | 5 | 7 | 8 | 10 | 12 => 31
  | 4 | 6 | 9 | 11 => 30
  | 2 => if isLeap year then 29 else 28
  | _ => 0

/-- The number of the day `year-month-day`.  Years are counted from March, so that a leap day is the
last of its year; the months from March on begin after 0, 31, 61, 92, … days, which is
`(153 * k + 2) / 5` for the `k`-th of them. -/
def dayNumber (year : Int) (month day : Nat) : Int :=
  let y := if month ≤ 2 then year - 1 else year
  let k : Int := (month + 9) % 12
  365 * y + y / 4 - y / 100 + y / 400 + (153 * k + 2) / 5 + day - 719469

/-- The date `year-month-day`, when the calendar has it. -/
def ofCivil? (year : Int) (month day : Nat) : Option Date :=
  if 1 ≤ day ∧ day ≤ daysInMonth year month then ofNumber? (dayNumber year month day) else none

/-- Year, month and day of a date: whole 400-year cycles first, then centuries, four-year groups,
years counted from March, and months. -/
def civil (d : Date) : Civil :=
  let n := d.number + 719468
  let cycle := n / 146097
  let inCycle := n % 146097
  let century := min (inCycle / 36524) 3
  let inCentury := inCycle - 36524 * century
  let group := inCentury / 1461
  let inGroup := inCentury - 1461 * group
  let yearOfGroup := min (inGroup / 365) 3
  let inYear := inGroup - 365 * yearOfGroup
  let k := (5 * inYear + 2) / 153
  let day := inYear - (153 * k + 2) / 5 + 1
  let month := if k < 10 then k + 3 else k - 9
  let year := 400 * cycle + 100 * century + 4 * group + yearOfGroup
  ⟨if month ≤ 2 then year + 1 else year, month.toNat, day.toNat⟩

/-- The year of a date. -/
def year (d : Date) : Int := d.civil.year

/-- The place of a date in its year, from 1. -/
def dayOfYear (d : Date) : Int := d.number - dayNumber d.year 1 1 + 1

/-- The place of a date in its week, Monday being 0. -/
def weekday (d : Date) : Nat := ((d.number + 3) % 7).toNat

end Date

end PlaceWeather
