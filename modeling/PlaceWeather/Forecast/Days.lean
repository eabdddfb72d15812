import PlaceWeather.Forecast.Entry

/-!
# Forecasts by day

Entries are shown under the date on which they start, each under the label of its span.  The first
entry anchors the selection: its date is the first day.  A number of days limits how far the
selection goes.  The detailed selection shows every entry; the other one shows all of the first day
and of later days only the entries that stand for their day.
-/

namespace PlaceWeather

/-- The forecast shown under one label. -/
structure ForecastSlot where
  period : String
  symbol : String
  precipitation : Float
  windDirection : Int
  windSpeed : Float
  temperature : Int
  pressure : Int
  /-- The span ends on another date than the one it starts on. -/
  endsNextDay : Bool
  deriving DecidableEq

/-- What an entry shows. -/
def ForecastEntry.slot (e : ForecastEntry) : ForecastSlot where
  period := e.period
  symbol := e.symbol
  precipitation := e.precipitation
  windDirection := e.windDirection
  windSpeed := e.windSpeed
  temperature := e.temperature
  pressure := e.pressure
  endsNextDay := decide (e.finish.date ≠ e.start.date)

/-- The slots of one day by their labels. -/
abbrev DayForecasts := Table String ForecastSlot

/-- The days with forecasts, by date. -/
abbrev DailyForecasts := Table Date DayForecasts

namespace DailyForecasts

/-- Shows slots under a date beside those already there, each in the place of one with its label. -/
def putDay (daily : DailyForecasts) (date : Date) (slots : List (String × ForecastSlot)) :
    DailyForecasts :=
  daily.insert date (slots.foldl (fun day (label, slot) => day.insert label slot)
    ((daily.get? date).getD Table.empty))

/-- Shows an entry under its date and its label. -/
def putEntry (daily : DailyForecasts) (e : ForecastEntry) : DailyForecasts :=
  daily.putDay e.start.date [(e.rangeLabel, e.slot)]

theorem putEntry_eq (daily : DailyForecasts) (e : ForecastEntry) :
    daily.putEntry e =
      daily.insert e.start.date
        (((daily.get? e.start.date).getD Table.empty).insert e.rangeLabel e.slot) := rfl

/-- The last moment of the selection of `days` days from `anchor`, none when all days are asked
for.  A number of days that leads beyond the calendar ends with it. -/
def lastMoment? (anchor : Date) (days : Nat) : Option LocalTime :=
  if days = 0 then none
  else some (LocalTime.lastSecond ((anchor.addDays? (days - 1 : Nat)).getD Date.last))

/-- Whether an entry starts within the selection of `days` days from `anchor`. -/
def startsWithin (anchor : Date) (days : Nat) (e : ForecastEntry) : Bool :=
  match lastMoment? anchor days with
  | none => true
  | some t => decide (e.start ≤ t)

/-- Whether an entry starts on a day after `anchor`.  After the last day of the calendar there is
only the leap second that may end it. -/
def startsAfterDay (anchor : Date) (e : ForecastEntry) : Bool :=
  match anchor.next? with
  | some day => decide (LocalTime.midnight day ≤ e.start)
  | none => decide (LocalTime.lastSecond Date.last < e.start)

/-- The entries to show, in order. -/
def selection (entries : List ForecastEntry) (days : Nat) (detailed : Bool) :
    List ForecastEntry :=
  match entries with
  | [] => []
  | first :: _ =>
    let anchor := first.start.date
    if detailed then entries.filter (startsWithin anchor days)
    else
      let anchorDay := entries.takeWhile fun e => decide (e.start.date = anchor)
      let following := entries.filter fun e =>
        days != 1 && startsAfterDay anchor e && e.isRepresentative && startsWithin anchor days e
      anchorDay ++ following

/-- The days to show for a list of entries. -/
def select (entries : List ForecastEntry) (days : Nat) (detailed : Bool) : DailyForecasts :=
  (selection entries days detailed).foldl putEntry Table.empty

end DailyForecasts

end PlaceWeather
