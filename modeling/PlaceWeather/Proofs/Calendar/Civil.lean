import PlaceWeather.Calendar.Date

/-!
# Year, month and day

Year, month and day of a date name that date again (`ofCivil?_civil`).  Taking a day number apart
leaves whole cycles of 400 years, centuries, groups of four years, years, and the days of the last
year (`DayParts`).  Each rest is smaller than the next larger unit, except that the last century of a
cycle and the last year of a group may be one day longer.
-/

namespace PlaceWeather

/-! ## Parts of a day number -/

/-- A day number, counted from 1 March of the year zero, as cycles, centuries, groups, years and days.
A year with 366 days is the last of its group; when the group is the last of its century, too, the
century is the last of its cycle. -/
structure DayParts (n : Int) where
  cycle : Int
  century : Int
  group : Int
  year : Int
  day : Int
  sum_eq : n = 146097 * cycle + 36524 * century + 1461 * group + 365 * year + day
  century_nonneg : 0 ≤ century
  century_le : century ≤ 3
  group_nonneg : 0 ≤ group
  group_le : group ≤ 24
  year_nonneg : 0 ≤ year
  year_le : year ≤ 3
  day_nonneg : 0 ≤ day
  day_le : day ≤ 365
  year_of_last : day = 365 → year = 3
  century_of_last : day = 365 → group = 24 → century = 3

namespace DayParts

/-- The parts of a day number, the largest first. -/
def ofNumber (n : Int) : DayParts n :=
  let inCycle := n % 146097
  let century := min (inCycle / 36524) 3
  let inCentury := inCycle - 36524 * century
  let group := inCentury / 1461
  let inGroup := inCentury - 1461 * group
  let year := min (inGroup / 365) 3
  let inYear := inGroup - 365 * year
  -- The minima keep the last day of a cycle and of a group with the century and the year before it.
  have hcycle : 0 ≤ inCycle ∧ inCycle < 146097 := by omega
  have hcentury : 0 ≤ inCentury ∧ inCentury ≤ 36524 ∧ (inCentury = 36524 → century = 3) := by omega
  have hgroup : 0 ≤ inGroup ∧ inGroup ≤ 1460 := by omega
  { cycle := n / 146097, century, group, year, day := inYear
    sum_eq := by omega
    century_nonneg := by omega
    century_le := by omega
    group_nonneg := by omega
    group_le := by omega
    year_nonneg := by omega
    year_le := by omega
    day_nonneg := by omega
    day_le := by omega
    year_of_last := by omega
    century_of_last := by omega }

variable {n : Int} (p : DayParts n)

/-- The year that the parts come to, counted from March. -/
def yearNumber : Int := 400 * p.cycle + 100 * p.century + 4 * p.group + p.year

/-- The place of the month in the year, March being 0. -/
def monthPlace : Int := (5 * p.day + 2) / 153

/-- The days of the year before the month. -/
def daysBefore : Int := (153 * p.monthPlace + 2) / 5

/-- The days before a year that is counted from March are those of the larger parts. -/
theorem days_of_yearNumber :
    365 * p.yearNumber + p.yearNumber / 4 - p.yearNumber / 100 + p.yearNumber / 400 + p.day = n := by
  have hsum := p.sum_eq
  have hcentury := p.century_nonneg
  have hcentury' := p.century_le
  have hgroup := p.group_nonneg
  have hgroup' := p.group_le
  have hyear := p.year_nonneg
  have hyear' := p.year_le
  -- The smaller parts never come to one more of a larger one.
  have hfour : p.yearNumber / 4 = 100 * p.cycle + 25 * p.century + p.group := by
    unfold yearNumber
    omega
  have hhundred : p.yearNumber / 100 = 4 * p.cycle + p.century := by
    unfold yearNumber
    omega
  have hcycle : p.yearNumber / 400 = p.cycle := by
    unfold yearNumber
    omega
  rw [hfour, hhundred, hcycle, yearNumber]
  omega

/-- The February of a year with 366 days is that of a leap year. -/
theorem isLeap_of_last (h : p.day = 365) : Date.isLeap (p.yearNumber + 1) = true := by
  have hyear := p.year_of_last h
  have hlast := p.century_of_last h
  have hcentury := p.century_nonneg
  have hcentury' := p.century_le
  have hgroup := p.group_nonneg
  have hgroup' := p.group_le
  -- One year more completes the group, and a whole century only with the cycle.
  have hfour : (p.yearNumber + 1) % 4 = 0 := by
    unfold yearNumber
    omega
  have hhundred : (p.yearNumber + 1) % 100 ≠ 0 ∨ (p.yearNumber + 1) % 400 = 0 := by
    unfold yearNumber
    omega
  unfold Date.isLeap
  simp only [Bool.and_eq_true, Bool.or_eq_true, beq_iff_eq, bne_iff_ne]
  exact ⟨hfour, hhundred⟩

end DayParts

/-! ## The date of a year, a month and a day -/

namespace Date

/-- The parts of a date. -/
def parts (d : Date) : DayParts (d.number + 719468) := .ofNumber _

theorem civil_eq (d : Date) :
    let month := if d.parts.monthPlace < 10 then d.parts.monthPlace + 3 else d.parts.monthPlace - 9
    d.civil = ⟨if month ≤ 2 then d.parts.yearNumber + 1 else d.parts.yearNumber, month.toNat,
      (d.parts.day - d.parts.daysBefore + 1).toNat⟩ := rfl

/-- Year, month and day of a date from its parts: a year counted from March ends with the first two
months of the next one. -/
theorem civil_cases (d : Date) :
    (d.parts.monthPlace < 10 ∧ d.civil.year = d.parts.yearNumber ∧
      (d.civil.month : Int) = d.parts.monthPlace + 3 ∨
    10 ≤ d.parts.monthPlace ∧ d.civil.year = d.parts.yearNumber + 1 ∧
      (d.civil.month : Int) = d.parts.monthPlace - 9) ∧
    (d.civil.day : Int) = d.parts.day - d.parts.daysBefore + 1 ∧
    0 ≤ d.parts.monthPlace ∧ d.parts.monthPlace ≤ 11 := by
  have hday := d.parts.day_nonneg
  have hday' := d.parts.day_le
  have hplace : 0 ≤ d.parts.monthPlace ∧ d.parts.monthPlace ≤ 11 := by
    unfold DayParts.monthPlace
    omega
  -- The day of the month is a difference, which must not be cut off at zero.
  have hbefore : d.parts.daysBefore ≤ d.parts.day := by
    unfold DayParts.daysBefore DayParts.monthPlace
    omega
  rw [civil_eq]
  dsimp only
  refine ⟨?_, by omega, hplace⟩
  by_cases hlate : d.parts.monthPlace < 10
  · rw [if_pos hlate]
    exact .inl ⟨hlate, if_neg (by omega), by omega⟩
  · rw [if_neg hlate]
    exact .inr ⟨by omega, if_pos (by omega), by omega⟩

theorem dayNumber_civil (d : Date) : dayNumber d.civil.year d.civil.month d.civil.day = d.number := by
  have hdays := d.parts.days_of_yearNumber
  obtain ⟨hmonth, hday, hlow, hhigh⟩ := civil_cases d
  -- The month and the year are counted from March again.
  have hplace : ((d.civil.month : Int) + 9) % 12 = d.parts.monthPlace := by omega
  have hyear : (if d.civil.month ≤ 2 then d.civil.year - 1 else d.civil.year) =
      d.parts.yearNumber := by
    split <;> omega
  unfold dayNumber
  dsimp only
  rw [hplace, hyear, hday, DayParts.daysBefore]
  omega

/-- Months but the last one of the year that is counted from March are as long as from their beginning
to that of the next. -/
theorem daysInMonth_eq (year : Int) (month : Nat) (hlow : 1 ≤ month) (hhigh : month ≤ 12)
    (hnot : month ≠ 2) :
    (daysInMonth year month : Int) =
      (153 * (((month : Int) + 9) % 12 + 1) + 2) / 5 - (153 * (((month : Int) + 9) % 12) + 2) / 5 := by
  have hcases : month ∈ [1, 3, 4, 5, 6, 7, 8, 9, 10, 11, 12] := by
    simp only [List.mem_cons, List.not_mem_nil, or_false]
    omega
  simp only [List.mem_cons, List.not_mem_nil, or_false] at hcases
  rcases hcases with rfl | rfl | rfl | rfl | rfl | rfl | rfl | rfl | rfl | rfl | rfl <;> rfl

theorem day_bounds (d : Date) :
    1 ≤ d.civil.day ∧ d.civil.day ≤ daysInMonth d.civil.year d.civil.month := by
  have hlastDay := d.parts.day_le
  obtain ⟨hmonth, hday, hlow, hhigh⟩ := civil_cases d
  -- The day stands behind the beginning of its month and before that of the next one.
  have hplace : 153 * d.parts.monthPlace ≤ 5 * d.parts.day + 2 ∧
      5 * d.parts.day + 2 < 153 * d.parts.monthPlace + 153 := by
    unfold DayParts.monthPlace
    omega
  rw [DayParts.daysBefore] at hday
  refine ⟨by omega, ?_⟩
  by_cases hfebruary : d.civil.month = 2
  · have hyear : d.civil.year = d.parts.yearNumber + 1 := by omega
    have hlength : daysInMonth d.civil.year 2 = if isLeap d.civil.year then 29 else 28 := rfl
    rw [hfebruary, hlength]
    by_cases hlast : d.parts.day = 365
    · rw [hyear, d.parts.isLeap_of_last hlast, if_pos rfl]
      omega
    · split <;> omega
  · have hplaceOf : ((d.civil.month : Int) + 9) % 12 = d.parts.monthPlace := by omega
    have hlength := daysInMonth_eq d.civil.year d.civil.month (by omega) (by omega) hfebruary
    rw [hplaceOf] at hlength
    omega

theorem month_bounds (d : Date) : 1 ≤ d.civil.month ∧ d.civil.month ≤ 12 := by
  obtain ⟨hmonth, -, hlow, hhigh⟩ := civil_cases d
  omega

theorem daysInMonth_le (year : Int) (month : Nat) : daysInMonth year month ≤ 31 := by
  unfold daysInMonth
  split
  case h_12 => split <;> decide
  all_goals decide

/-- The years of the calendar. -/
theorem year_bounds (d : Date) : -262143 ≤ d.civil.year ∧ d.civil.year ≤ 262142 := by
  have hnumber := dayNumber_civil d
  have hfirst := d.first_le
  have hlast := d.le_last
  have hday := (day_bounds d).1
  have hday' := Nat.le_trans (day_bounds d).2 (daysInMonth_le _ _)
  have hmonth := month_bounds d
  unfold firstNumber at hfirst
  unfold lastNumber at hlast
  unfold dayNumber at hnumber
  dsimp only at hnumber
  -- The leap years are counted exactly only in a year that is given.
  have hrough : -262145 < d.civil.year ∧ d.civil.year < 262144 := by
    split at hnumber <;> omega
  have hbefore : d.civil.year ≠ -262144 := by
    intro heq
    rw [heq] at hnumber
    split at hnumber <;> omega
  have hbehind : d.civil.year ≠ 262143 := by
    intro heq
    rw [heq] at hnumber
    split at hnumber <;> omega
  omega

/-- Year, month and day of a date name that date. -/
theorem ofCivil?_civil (d : Date) :
    ofCivil? d.civil.year d.civil.month d.civil.day = some d := by
  unfold ofCivil?
  rw [if_pos (day_bounds d), dayNumber_civil, ofNumber?_number]

end Date

end PlaceWeather
