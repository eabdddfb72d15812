import PlaceWeather.Address
import PlaceWeather.Calendar.Stamp
import PlaceWeather.Feed.Document
import PlaceWeather.Forecast.Entry
import PlaceWeather.Place
import PlaceWeather.Schedule.Basic

/-!
# Feeds

A feed describes a place, says when it was and will be updated, and lists forecast entries.  The
document is taken apart first; then the coordinates are read, the offset, the next and the last
update, and the entries in order.  The first thing that cannot be read decides the error.
-/

namespace PlaceWeather

/-- What a feed document tells. -/
structure Feed where
  /-- The identifier under which schedule and entries are stored. -/
  geoid : String
  /-- The place under the document's own identifier. -/
  place : Place
  schedule : Schedule
  entries : List ForecastEntry
  deriving DecidableEq

namespace Feed

/-- What is said about a document that cannot be taken apart. -/
def unreadable : WeatherError := .malformed "Failed to parse forecast XML"

/-- A number of a feed: blanks around it do not count, and no number counts as zero. -/
def readNumber (field : String) (text : Option String) : Except WeatherError Float :=
  match text.map (fun s => Text.trim s.toList) with
  | none | some [] => .ok 0.0
  | some cs =>
    match Decimal.read? cs with
    | some x => .ok x
    | none => .error (.malformed ("Invalid " ++ field ++ " '" ++ String.ofList cs ++ "'"))

/-- A number of a feed cut off to a whole number. -/
def readWhole (field : String) (text : Option String) : Except WeatherError Int :=
  (readNumber field text).map Decimal.truncate32

/-- A timestamp of a feed; blanks around it do not count. -/
def readTime (text : String) : Except WeatherError LocalTime :=
  match Stamp.read (Text.trim text.toList) with
  | .ok t => .ok t
  | .error fault =>
    .error (.malformed ("Invalid timestamp '" ++ text ++ "': " ++ fault.message))

/-- The places to which coordinates are rounded. -/
def coordinatePlaces : Int := 5

/-- A coordinate of a feed. -/
def readCoordinate (field : String) (text : Option String) : Except WeatherError Float :=
  (readNumber field text).map (Decimal.roundTo · coordinatePlaces)

/-- The symbol without what stands around it: of more than three characters, the second three. -/
def plainSymbol (symbol : String) : String :=
  let cs := symbol.toList
  if 3 < cs.length then String.ofList ((cs.drop 3).take 3) else symbol

/-- The entry of a `time` element. -/
def readEntry (geoid : String) (time : TimeElement) : Except WeatherError ForecastEntry := do
  pure {
    geoid
    start := ← readTime time.start
    finish := ← readTime time.finish
    period := time.period
    symbol := plainSymbol time.symbol
    precipitation := ← readNumber "precipitation" time.precipitation
    windDirection := ← readWhole "windDirection" time.windDirection
    windSpeed := ← readNumber "windSpeed" time.windSpeed
    temperature := ← readWhole "temperature" time.temperature
    pressure := ← readWhole "pressure" time.pressure }

/-- The place that a document describes. -/
def readPlace (d : FeedDocument) : Except WeatherError Place := do
  pure {
    geoid := d.geobase ++ "_" ++ d.geobaseId
    latitude := ← readCoordinate "latitude" d.latitude
    longitude := ← readCoordinate "longitude" d.longitude
    country := Text.trimmed d.country
    name := Text.trimmed d.name
    link := (Address.split (d.creditUrl.getD "")).2
    status := .added }

/-- The schedule that a document announces; its times are local times of the place. -/
def readSchedule (d : FeedDocument) : Except Fault Schedule := do
  let offset ← Fault.ofError (readWhole "utcoffsetMinutes" d.offset)
  let next ← Fault.ofError (readTime d.nextUpdate)
  let nextUpdate ← Fault.onCalendar (Instant.ofLocal? next offset)
  let last ← Fault.ofError (readTime d.lastUpdate)
  let lastUpdate ← Fault.onCalendar (Instant.ofLocal? last offset)
  pure { lastUpdate, nextUpdate, nextAttempt := nextUpdate, utcOffset := offset }

/-- What the parts of a document tell; `geoid` is the identifier that the document was asked for
under, and without one it is the document's own. -/
def ofDocument (d : FeedDocument) (geoid : Option String) : Except Fault Feed := do
  let place ← Fault.ofError (readPlace d)
  let schedule ← readSchedule d
  let geoid := geoid.getD place.geoid
  let entries ← Fault.ofError (d.times.mapM (readEntry geoid))
  pure { geoid, place, schedule, entries }

/-- What a document tells. -/
def read (document : String) (geoid : Option String) : Except Fault Feed :=
  match FeedDocument.ofText? document with
  | some d => ofDocument d geoid
  | none => .error (.error unreadable)

end Feed

end PlaceWeather
