import PlaceWeather.Report.Basic
import PlaceWeather.Station.Refresh

/-!
# Weather of a place

The stored forecasts of a place from its present local time on, after a freshness check; as data or
as a report.  When the check failed, what is stored is shown with a warning.
-/

namespace PlaceWeather

/-- The forecasts of a place and how fresh they are. -/
structure Weather where
  geoid : String
  utcOffset : Int
  days : DailyForecasts
  succeeded : Bool
  warning : Option String

namespace Action

/-- The weather of a place for a number of days, all of them when it is 0. -/
def weather (baseUrl geoid : String) (days : Nat) (detailed : Bool) (now : Instant) :
    Action Weather := do
  let fresh ← ensureFresh baseUrl geoid now
  let localNow ← ofExcept (Fault.onCalendar (now.toLocal? fresh.schedule.utcOffset))
  let entries ← getEntries geoid localNow
  pure {
    geoid
    utcOffset := fresh.schedule.utcOffset
    days := DailyForecasts.select entries days detailed
    succeeded := fresh.succeeded
    warning := fresh.warning }

/-- The report about a place for a number of days. -/
def report (p : Presenter) (geoid : String) (days : Nat) (detailed : Bool) (now : Instant) :
    Action WeatherReport := do
  let weather ← weather p.baseUrl geoid days detailed now
  let place ← requirePlace geoid
  ofExcept (p.render place weather.days weather.utcOffset weather.warning)

end Action

end PlaceWeather
