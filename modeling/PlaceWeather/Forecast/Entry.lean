import PlaceWeather.Calendar.Stamp
import PlaceWeather.Table

/-!
# Forecast entries

An entry is the forecast of one span of local time at a place.  The entries stored for a place are
ordered by their starts, with one entry for each start.
-/

namespace PlaceWeather

/-- The forecast of one span of time, in the local time of its place. -/
structure ForecastEntry where
  geoid : String
  start : LocalTime
  finish : LocalTime
  /-- The part of the day, `0` (night) to `3` (evening). -/
  period : String
  /-- The condition symbol, such as `03d`. -/
  symbol : String
  /-- Millimetres. -/
  precipitation : Float
  /-- Degrees, from north clockwise. -/
  windDirection : Int
  /-- Metres per second. -/
  windSpeed : Float
  /-- Degrees Celsius. -/
  temperature : Int
  /-- Hectopascal. -/
  pressure : Int
  deriving DecidableEq

namespace ForecastEntry

/-- The part of the day that stands for the whole day. -/
def representativePeriod : String := "2"

/-- Whether the entry stands for its whole day. -/
def isRepresentative (e : ForecastEntry) : Bool := e.period == representativePeriod

/-- The label `HH:MM-HH:MM` of the span. -/
def rangeLabel (e : ForecastEntry) : String := e.start.clockText ++ "-" ++ e.finish.clockText

end ForecastEntry

/-- The entries of one place, by their starts. -/
abbrev ForecastSet := Table LocalTime ForecastEntry

namespace ForecastSet

/-- The set of a list of entries; of several with one start the last wins. -/
def ofEntries (entries : List ForecastEntry) : ForecastSet :=
  Table.ofList (entries.map fun e => (e.start, e))

/-- The entries that have not ended before a time, in the order of their starts. -/
def endingFrom (set : ForecastSet) (time : LocalTime) : List ForecastEntry :=
  set.values.filter fun e => decide (time ≤ e.finish)

end ForecastSet

end PlaceWeather
