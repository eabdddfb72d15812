import PlaceWeather.Address
import PlaceWeather.Display
import PlaceWeather.Forecast.Days
import PlaceWeather.Place
import PlaceWeather.Sky.Condition
import PlaceWeather.Sky.Sun

/-!
# Reports

A report shows the forecast days of a place in the units of a display: for each day a label, the
sun, and for each span of the day what is expected.
-/

namespace PlaceWeather

/-- What a report says about one span. -/
structure SlotReport where
  label : String
  condition : String
  icon : String
  temperature : String
  windchill : Option String
  precipitation : String
  pressure : String
  wind : String
  deriving DecidableEq, Repr

/-- What a report says about one day. -/
structure DayReport where
  date : Date
  label : String
  sun : Option SunDay
  slots : List SlotReport
  deriving DecidableEq

/-- A report about a place. -/
structure WeatherReport where
  geoid : String
  name : String
  /-- The address of the page about the place. -/
  page : String
  utcOffset : Int
  days : List DayReport
  /-- Why the latest download failed, when it did. -/
  warning : Option String
  deriving DecidableEq

/-- What a report needs besides the forecasts: the display, the base of page addresses, and which
files can be read. -/
structure Presenter where
  display : Display
  baseUrl : String
  readable : String → Bool

/-- What a report says about a slot. -/
def SlotReport.ofSlot (p : Presenter) (label : String) (slot : ForecastSlot) : SlotReport where
  label
  condition := Condition.label slot.symbol
  icon := p.display.icons.resolve p.readable slot.symbol
  temperature := Temperature.text slot.temperature p.display.temperature
  windchill :=
    if p.display.showWindchill then
      Temperature.windchillText? slot.temperature slot.windSpeed p.display.temperature
    else none
  precipitation := Decimal.text slot.precipitation ++ " mm"
  pressure := Pressure.text slot.pressure p.display.pressure
  wind := Wind.text slot.windDirection slot.windSpeed p.display.windSpeed
    p.display.abbreviateDirections p.display.showDegrees

namespace DayReport

/-- The label of a day by its position: the first is today, the second tomorrow. -/
def dayLabel (position : Nat) (date : Date) : String :=
  match position with
  | 0 => "Today, " ++ date.longText
  | 1 => "Tomorrow, " ++ date.longText
  | _ => date.longText

/-- What a report says about the day at a position. -/
def ofDay (p : Presenter) (place : Place) (offset : Int) (position : Nat) (date : Date)
    (slots : DayForecasts) : Except Fault DayReport := do
  let sun ←
    if p.display.showSun then
      some <$> SunDay.ofDate date place.latitude place.longitude offset
    else pure none
  pure {
    date, sun
    label := dayLabel position date
    slots := slots.entries.map fun (label, slot) => SlotReport.ofSlot p label slot }

/-- What a report says about days, the first of which is at a position. -/
def ofDays (p : Presenter) (place : Place) (offset : Int) :
    (position : Nat) → List (Date × DayForecasts) → Except Fault (List DayReport)
  | _, [] => pure []
  | position, (date, slots) :: rest => do
    let day ← ofDay p place offset position date slots
    let later ← ofDays p place offset (position + 1) rest
    pure (day :: later)

end DayReport

/-- The report about the forecast days of a place. -/
def Presenter.render (p : Presenter) (place : Place) (daily : DailyForecasts) (offset : Int)
    (warning : Option String) : Except Fault WeatherReport := do
  let days ← DayReport.ofDays p place offset 0 daily.entries
  pure {
    geoid := place.geoid
    name := place.name
    page := Address.page p.baseUrl place.country place.link
    utcOffset := offset
    days, warning }

end PlaceWeather
