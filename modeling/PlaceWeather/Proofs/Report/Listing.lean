import PlaceWeather.Proofs.Feed.Reading
import PlaceWeather.Proofs.Forecast.Labels
import PlaceWeather.Report.Basic

/-!
# What a report lists

A report has one part for each forecast day and, in it, one for each slot, in their order
(`listing_of_render`).  Read from the first day to the last one, the report about a selection of
entries that start at whole minutes shows each selected entry once, in the order of their starts and
under the date on which each starts; and it tells all there is to tell about the entry
(`render_lists_chosen`).
-/

namespace PlaceWeather

/-! ## Rows of a report -/

/-- A row tells about an entry: its span, and its values in the units of the display. -/
structure SlotReport.Tells (p : Presenter) (e : ForecastEntry) (row : SlotReport) : Prop where
  label : row.label = e.rangeLabel
  condition : row.condition = Condition.label e.symbol
  icon : row.icon = p.display.icons.resolve p.readable e.symbol
  temperature : row.temperature = Temperature.text e.temperature p.display.temperature
  windchill : row.windchill =
    if p.display.showWindchill then
      Temperature.windchillText? e.temperature e.windSpeed p.display.temperature
    else none
  precipitation : row.precipitation = Decimal.text e.precipitation ++ " mm"
  pressure : row.pressure = Pressure.text e.pressure p.display.pressure
  wind : row.wind = Wind.text e.windDirection e.windSpeed p.display.windSpeed
    p.display.abbreviateDirections p.display.showDegrees

theorem SlotReport.tells_ofSlot (p : Presenter) (e : ForecastEntry) :
    Tells p e (ofSlot p e.rangeLabel e.slot) where
  label := rfl
  condition := rfl
  icon := rfl
  temperature := rfl
  windchill := rfl
  precipitation := rfl
  pressure := rfl
  wind := rfl

/-! ## Days of a report -/

namespace DayReport

variable {p : Presenter} {place : Place} {offset : Int} {position : Nat}

/-- What a report says about the slots of a day, each with the date. -/
def listing (day : DayReport) : List (Date × SlotReport) :=
  day.slots.map fun slot => (day.date, slot)

/-- What a report says about a slot under a date and a label. -/
def listed (p : Presenter) (entry : Date × String × ForecastSlot) : Date × SlotReport :=
  (entry.1, SlotReport.ofSlot p entry.2.1 entry.2.2)

/-- What is said about a day is decided by the day alone, apart from its label and the sun. -/
structure Shows (p : Presenter) (position : Nat) (date : Date) (slots : DayForecasts)
    (day : DayReport) : Prop where
  date_eq : day.date = date
  label_eq : day.label = dayLabel position date
  slots_eq : day.slots = slots.entries.map fun (label, slot) => SlotReport.ofSlot p label slot

theorem shows_of_ofDay {date : Date} {slots : DayForecasts} {day : DayReport}
    (h : ofDay p place offset position date slots = .ok day) :
    Shows p position date slots day := by
  unfold ofDay at h
  dsimp only at h
  -- With the sun or without it, the rest of the day is the same.
  split at h
  · obtain ⟨sun, -, h⟩ := bind_eq_ok h
    cases h
    exact ⟨rfl, rfl, rfl⟩
  · cases h
    exact ⟨rfl, rfl, rfl⟩

theorem ofDays_cons_eq_ok {date : Date} {slots : DayForecasts} {rest : List (Date × DayForecasts)}
    {days : List DayReport}
    (h : ofDays p place offset position ((date, slots) :: rest) = .ok days) :
    ∃ day later, days = day :: later ∧ Shows p position date slots day ∧
      ofDays p place offset (position + 1) rest = .ok later := by
  rw [ofDays] at h
  obtain ⟨day, hday, h⟩ := bind_eq_ok h
  obtain ⟨later, hlater, h⟩ := bind_eq_ok h
  cases h
  exact ⟨day, later, rfl, shows_of_ofDay hday, hlater⟩

theorem listing_of_ofDays {daily : List (Date × DayForecasts)} {days : List DayReport}
    (h : ofDays p place offset position daily = .ok days) :
    days.flatMap listing =
      (DailyForecasts.listing ⟨daily⟩).map (listed p) := by
  unfold DailyForecasts.listing
  induction daily generalizing position days with
  | nil =>
      cases h
      rfl
  | cons entry rest ih =>
      obtain ⟨date, slots⟩ := entry
      obtain ⟨day, later, rfl, hshows, hlater⟩ := ofDays_cons_eq_ok h
      have hday : day.listing =
          (slots.entries.map fun (label, slot) => (date, label, slot)).map (listed p) := by
        unfold listing
        rw [hshows.slots_eq, hshows.date_eq, List.map_map, List.map_map]
        rfl
      rw [List.flatMap_cons, List.flatMap_cons, List.map_append, ih hlater, hday]

theorem dates_of_ofDays {daily : List (Date × DayForecasts)} {days : List DayReport}
    (h : ofDays p place offset position daily = .ok days) :
    days.map DayReport.date = daily.map Prod.fst := by
  induction daily generalizing position days with
  | nil =>
      cases h
      rfl
  | cons entry rest ih =>
      obtain ⟨date, slots⟩ := entry
      obtain ⟨day, later, rfl, hshows, hlater⟩ := ofDays_cons_eq_ok h
      rw [List.map_cons, List.map_cons, hshows.date_eq, ih hlater]

theorem shows_of_getElem? {daily : List (Date × DayForecasts)} {days : List DayReport}
    (h : ofDays p place offset position daily = .ok days) {i : Nat} {day : DayReport}
    (hday : days[i]? = some day) :
    ∃ date slots, daily[i]? = some (date, slots) ∧ Shows p (position + i) date slots day := by
  induction daily generalizing position days i with
  | nil =>
      cases h
      cases hday
  | cons entry rest ih =>
      obtain ⟨date, slots⟩ := entry
      obtain ⟨first, later, rfl, hshows, hlater⟩ := ofDays_cons_eq_ok h
      cases i with
      | zero =>
          cases hday
          exact ⟨date, slots, rfl, hshows⟩
      | succ i =>
          have hposition : position + 1 + i = position + (i + 1) := by omega
          obtain ⟨d, s, hentry, hshows⟩ := ih hlater hday
          rw [hposition] at hshows
          exact ⟨d, s, hentry, hshows⟩

/-- Without the sun there is a report about any days. -/
theorem exists_ofDays (hsun : p.display.showSun = false) (place : Place) (offset : Int)
    (position : Nat) (daily : List (Date × DayForecasts)) :
    ∃ days, ofDays p place offset position daily = .ok days := by
  induction daily generalizing position with
  | nil => exact ⟨[], rfl⟩
  | cons entry rest ih =>
      obtain ⟨date, slots⟩ := entry
      obtain ⟨later, hlater⟩ := ih (position + 1)
      rw [ofDays, ofDay, hsun, hlater]
      exact ⟨_, rfl⟩

end DayReport

/-! ## Reports -/

namespace WeatherReport

/-- What a report says about the slots of all its days, one day after the other. -/
def listing (report : WeatherReport) : List (Date × SlotReport) :=
  report.days.flatMap DayReport.listing

end WeatherReport

namespace Presenter

variable {p : Presenter} {place : Place} {daily : DailyForecasts} {offset : Int}
  {warning : Option String} {report : WeatherReport}

theorem days_of_render (h : p.render place daily offset warning = .ok report) :
    DayReport.ofDays p place offset 0 daily.entries = .ok report.days := by
  unfold render at h
  obtain ⟨days, hdays, h⟩ := bind_eq_ok h
  cases h
  exact hdays

theorem listing_of_render (h : p.render place daily offset warning = .ok report) :
    report.listing = daily.listing.map (DayReport.listed p) :=
  DayReport.listing_of_ofDays (days_of_render h)

theorem dates_of_render (h : p.render place daily offset warning = .ok report) :
    report.days.map DayReport.date = daily.keys :=
  DayReport.dates_of_ofDays (days_of_render h)

/-- Without the sun there is a report about any days. -/
theorem exists_render (hsun : p.display.showSun = false) (place : Place) (daily : DailyForecasts)
    (offset : Int) (warning : Option String) :
    ∃ report, p.render place daily offset warning = .ok report := by
  obtain ⟨days, hdays⟩ := DayReport.exists_ofDays hsun place offset 0 daily.entries
  rw [render, hdays]
  exact ⟨_, rfl⟩

end Presenter

namespace DailyForecasts

/-! ## Reports about a selection -/

/-- The selected entries, in their order. -/
def chosen (entries : List ForecastEntry) (days : Nat) (detailed : Bool) : List ForecastEntry :=
  entries.filter fun e =>
    decide (∀ first ∈ entries.head?, Selected first.start.date days detailed e)

theorem selection_eq_chosen {entries : List ForecastEntry}
    (hascending : entries.Pairwise fun a b => a.start < b.start)
    (hleap : ∀ e ∈ entries, e.start.leap = false) (days : Nat) (detailed : Bool) :
    selection entries days detailed = chosen entries days detailed := by
  cases entries with
  | nil => rfl
  | cons first rest =>
      rw [selection_eq_filter hascending hleap]
      unfold chosen
      refine List.filter_congr fun e _ => ?_
      simp

/-- What a report lists of entries that start one after the other, at whole minutes.

Read from the first day to the last one and within each day in order, the rows of the report and the
selected entries stand one against the other: each row is under the date on which its entry starts,
has the label of its span and tells its values.  The entries are in the order of their starts.  No
date stands there twice, and each has a row. -/
theorem render_lists_chosen {p : Presenter} {place : Place} {offset : Int}
    {warning : Option String} {report : WeatherReport} {entries : List ForecastEntry} {days : Nat}
    {detailed : Bool} (hascending : entries.Pairwise fun a b => a.start < b.start)
    (hminute : ∀ e ∈ entries, e.start.secondOfMinute = 0)
    (hrender : p.render place (select entries days detailed) offset warning = .ok report) :
    List.Forall₂ (fun e row => row.1 = e.start.date ∧ SlotReport.Tells p e row.2)
      (chosen entries days detailed) report.listing ∧
    (chosen entries days detailed).Pairwise (fun a b => a.start < b.start) ∧
    report.days.Pairwise (fun a b => a.date < b.date) ∧
    ∀ day ∈ report.days, day.slots ≠ [] := by
  have hleap : ∀ e ∈ entries, e.start.leap = false := fun e he =>
    LocalTime.leap_of_secondOfMinute (hminute e he)
  have hselect : select entries days detailed = putAll (chosen entries days detailed) := by
    rw [select_eq_putAll, selection_eq_chosen hascending hleap]
  have hchosen : (chosen entries days detailed).Pairwise fun a b => a.start < b.start :=
    hascending.filter _
  have hlisting : (select entries days detailed).listing =
      (chosen entries days detailed).map listed := by
    rw [hselect]
    exact listing_putAll hchosen fun e he => hminute e (List.mem_of_mem_filter he)
  have harranged : (select entries days detailed).Arranged := arranged_putAll _
  refine ⟨?_, hchosen, ?_, ?_⟩
  · rw [Presenter.listing_of_render hrender, hlisting, List.map_map, List.forall₂_map_right_iff,
      List.forall₂_same]
    intro e _
    exact ⟨rfl, SlotReport.tells_ofSlot p e⟩
  · have hdates : (report.days.map DayReport.date).Pairwise (· < ·) := by
      rw [Presenter.dates_of_render hrender]
      exact List.pairwise_map.mpr harranged.ascending
    exact List.pairwise_map.mp hdates
  · intro day hday
    obtain ⟨i, hi⟩ := List.getElem?_of_mem hday
    obtain ⟨date, slots, hentry, hshows⟩ :=
      DayReport.shows_of_getElem? (Presenter.days_of_render hrender) hi
    have hslots : slots.entries ≠ [] :=
      harranged.nonempty date slots (List.mem_of_getElem? hentry)
    rw [hshows.slots_eq]
    exact mt List.map_eq_nil_iff.mp hslots

/-! ## A report about two days -/

/-- A presenter that shows no sun and finds no files. -/
def plainPresenter : Presenter := ⟨.standard, Address.standardBase, fun _ => false⟩

/-- A place at the origin of all coordinates. -/
def originPlace : Place := ⟨"g_1", 0, 0, "C", "P", "L", .original⟩

/-- A day so many days after the beginning of 1970. -/
def dayAfterEpoch (n : Fin 10) : Date :=
  ⟨n, by unfold Date.firstNumber; omega, by unfold Date.lastNumber; omega⟩

/-- The entry of a time span with a period. -/
def spanEntry (start finish : LocalTime) (period : String) : ForecastEntry where
  geoid := "g_1"
  start := start
  finish := finish
  period := period
  symbol := "01d"
  precipitation := 0
  windDirection := 0
  windSpeed := 0
  temperature := 10
  pressure := 1013

/-- The evening of the first day ends on the second one and is shown under the first.  Of the second
day only the afternoon is selected. -/
theorem render_lists_chosen_twoDays :
    let first := dayAfterEpoch 0
    let second := dayAfterEpoch 1
    let evening := spanEntry (.ofSecond first (18 * 3600) (by decide)) (.midnight second) "3"
    let afternoon := spanEntry (.ofSecond second (12 * 3600) (by decide))
      (.ofSecond second (18 * 3600) (by decide)) "2"
    let late := spanEntry (.ofSecond second (18 * 3600) (by decide)) (.midnight (dayAfterEpoch 2)) "3"
    ∃ report, plainPresenter.render originPlace (select [evening, afternoon, late] 0 false) 0 none =
        .ok report ∧
      report.listing.map (fun row => (row.1, row.2.label, row.2.temperature)) =
        [(first, "18:00-00:00", "10\u2009°C"), (second, "12:00-18:00", "10\u2009°C")] := by
  intro first second evening afternoon late
  obtain ⟨report, hreport⟩ := Presenter.exists_render (p := plainPresenter) rfl originPlace
    (select [evening, afternoon, late] 0 false) 0 none
  obtain ⟨hlisting, -⟩ := render_lists_chosen (by decide) (by decide) hreport
  have hchosen : chosen [evening, afternoon, late] 0 false = [evening, afternoon] := by
    decide +kernel
  have hlabels : evening.rangeLabel = "18:00-00:00" ∧ afternoon.rangeLabel = "12:00-18:00" := by
    decide +kernel
  rw [hchosen] at hlisting
  obtain ⟨⟨_, row⟩, rows, ⟨rfl, hrow⟩, hrest, hrows⟩ := List.forall₂_cons_left_iff.mp hlisting
  obtain ⟨⟨_, other⟩, _, ⟨rfl, hother⟩, hnil, rfl⟩ := List.forall₂_cons_left_iff.mp hrest
  obtain rfl := List.forall₂_nil_left_iff.mp hnil
  have htemperature : Temperature.text 10 plainPresenter.display.temperature = "10\u2009°C" := by
    decide +kernel
  refine ⟨report, hreport, ?_⟩
  rw [hrows, List.map_cons, List.map_cons, List.map_nil, hrow.label, hother.label,
    hrow.temperature, hother.temperature, hlabels.1, hlabels.2]
  change [(first, _, Temperature.text 10 _), (second, _, Temperature.text 10 _)] = _
  rw [htemperature]

end DailyForecasts

end PlaceWeather
