import PlaceWeather.Report.Basic
import PlaceWeather.Text.Json

/-!
# Written reports

A report as text for a terminal, and as a JSON value for programs.
-/

namespace PlaceWeather

/-! ## For a terminal -/

namespace SlotReport

/-- The width of the condition in characters. -/
def conditionWidth : Nat := 32
/-- The width of the temperature in characters. -/
def temperatureWidth : Nat := 16

/-- The two lines about a span. -/
def lines (s : SlotReport) : List String :=
  let felt :=
    match s.windchill with
    | some t => " (feels " ++ t ++ ")"
    | none => ""
  [ "  " ++ s.label ++ "  " ++ Text.padEnd conditionWidth s.condition ++ " " ++
      Text.padStart temperatureWidth s.temperature ++ felt,
    "               " ++ s.precipitation ++ " | " ++ s.pressure ++ " | " ++ s.wind ]

end SlotReport

/-- The lines about a day, the first of them empty. -/
def DayReport.lines (d : DayReport) : List String :=
  let sun :=
    match d.sun with
    | some sun => ["  " ++ sun.text]
    | none => []
  ["", d.label] ++ sun ++ d.slots.flatMap SlotReport.lines

namespace WeatherReport

/-- The lines of a report. -/
def lines (r : WeatherReport) : List String :=
  let warning :=
    match r.warning with
    | some w => ["  ! " ++ w]
    | none => []
  [r.name ++ " (" ++ r.page ++ ")"] ++ warning ++ r.days.flatMap DayReport.lines

/-- A report as text. -/
def text (r : WeatherReport) : String := String.join (r.lines.map (· ++ "\n"))

end WeatherReport

/-! ## For programs -/

/-- What the sun does, as a value: a name, or the two times. -/
def SunDay.json : SunDay → Json
  | times sunrise sunset =>
    .object [("times", .object
      [("sunrise", .string sunrise.clockText), ("sunset", .string sunset.clockText)])]
  | polarDay => .string "polar_day"
  | polarNight => .string "polar_night"

/-- A span as a value. -/
def SlotReport.json (s : SlotReport) : Json :=
  .object
    [("time_range", .string s.label), ("condition", .string s.condition),
     ("icon", .string s.icon), ("temperature", .string s.temperature),
     ("windchill", .ofString? s.windchill), ("precipitation", .string s.precipitation),
     ("pressure", .string s.pressure), ("wind", .string s.wind)]

/-- A day as a value. -/
def DayReport.json (d : DayReport) : Json :=
  .object
    [("date", .string d.date.text), ("label", .string d.label),
     ("sun", (d.sun.map SunDay.json).getD .null),
     ("time_ranges", .array (d.slots.map SlotReport.json))]

/-- A report as a value. -/
def WeatherReport.json (r : WeatherReport) : Json :=
  .object
    [("geoid", .string r.geoid), ("name", .string r.name), ("link", .string r.page),
     ("utc_offset", .whole r.utcOffset), ("days", .array (r.days.map DayReport.json)),
     ("warning", .ofString? r.warning)]

end PlaceWeather
