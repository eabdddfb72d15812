import PlaceWeather.Decimal.Reading
import PlaceWeather.Store.Basic
import PlaceWeather.Toml.Document

/-!
# Saved stores

A store as a TOML document, to be read again by a later run: one table for each place, each key of
the link index, each schedule and each forecast entry.  Numbers that are not whole and times are
saved as their texts, which read back exactly.
-/

namespace PlaceWeather.SavedStore

/-! ## Writing -/

/-- A digit of the hexadecimal system. -/
def hexDigit (n : Nat) : Char := Nat.digitChar n

/-- A character inside quotes; quotes, backslashes and control characters are written by number. -/
def quoteChar (c : Char) : List Char :=
  if c = '"' ∨ c = '\\' ∨ c.toNat < 32 ∨ c.toNat = 127 then
    ['\\', 'u', '0', '0', hexDigit (c.toNat / 16), hexDigit (c.toNat % 16)]
  else [c]

/-- A text in quotes. -/
def quote (s : String) : String := String.ofList ('"' :: s.toList.flatMap quoteChar ++ ['"'])

/-- A table of texts and whole numbers with its header. -/
def tableText (header : String) (members : List (String × String)) : String :=
  let lines := members.map fun (k, v) => k ++ " = " ++ v ++ "\n"
  "[[" ++ header ++ "]]\n" ++ String.join lines ++ "\n"

/-- A saved place. -/
def placeText (p : Place) : String :=
  tableText "place"
    [("geoid", quote p.geoid), ("latitude", quote (Decimal.text p.latitude)),
     ("longitude", quote (Decimal.text p.longitude)), ("country", quote p.country),
     ("name", quote p.name), ("link", quote p.link), ("status", quote p.status.name)]

/-- A saved key of the link index. -/
def ownerText (entry : String × String) : String :=
  tableText "owner" [("key", quote entry.1), ("geoid", quote entry.2)]

/-- A saved schedule. -/
def scheduleText (entry : String × Schedule) : String :=
  let (geoid, s) := entry
  tableText "schedule"
    [("geoid", quote geoid), ("last_update", quote s.lastUpdate.utc.text),
     ("next_update", quote s.nextUpdate.utc.text),
     ("next_attempt", quote s.nextAttempt.utc.text),
     ("utc_offset", Decimal.intText s.utcOffset)]

/-- A saved entry of the place `key`. -/
def entryText (key : String) (e : ForecastEntry) : String :=
  tableText "forecast"
    [("place", quote key), ("geoid", quote e.geoid), ("from", quote e.start.text),
     ("to", quote e.finish.text), ("period", quote e.period), ("symbol", quote e.symbol),
     ("precipitation", quote (Decimal.text e.precipitation)),
     ("wind_direction", Decimal.intText e.windDirection),
     ("wind_speed", quote (Decimal.text e.windSpeed)),
     ("temperature", Decimal.intText e.temperature), ("pressure", Decimal.intText e.pressure)]

/-- The keys of the link index with their owners. -/
def owners : LinkIndex → List (String × String)
  | .scan => []
  | .keyed owners => owners.entries

/-- A store as a document. -/
def text (s : Store) : String :=
  String.join (s.places.values.map placeText) ++
    String.join ((owners s.links).map ownerText) ++
    String.join (s.schedules.entries.map scheduleText) ++
    String.join (s.forecasts.entries.map fun (key, set) =>
      String.join (set.values.map (entryText key)))

/-! ## Reading -/

/-- The members of a table. -/
abbrev Members := List (String × SettingValue)

/-- A text of a table. -/
def text? (ms : Members) (key : String) : Option String :=
  match SettingValue.lookup key ms with
  | some (.text s) => some s
  | _ => none

/-- A whole number of a table. -/
def whole? (ms : Members) (key : String) : Option Int :=
  match SettingValue.lookup key ms with
  | some (.whole n) => some n
  | _ => none

/-- A number of a table. -/
def number? (ms : Members) (key : String) : Option Float :=
  (text? ms key).bind fun s => Decimal.read? s.toList

/-- A time of a table. -/
def time? (ms : Members) (key : String) : Option LocalTime :=
  (text? ms key).bind fun s => (Stamp.read s.toList).toOption

/-- The tables with a header. -/
def tables (header : String) (ms : Members) : List Members :=
  match SettingValue.lookup header ms with
  | some (.list items) => items.map SettingValue.members
  | _ => []

/-- A status by its name. -/
def status? (s : String) : Option PlaceStatus :=
  [PlaceStatus.original, .modified, .added].find? (·.name == s)

/-- A place from its table. -/
def place? (ms : Members) : Option Place := do
  pure {
    geoid := ← text? ms "geoid"
    latitude := ← number? ms "latitude"
    longitude := ← number? ms "longitude"
    country := ← text? ms "country"
    name := ← text? ms "name"
    link := ← text? ms "link"
    status := ← (text? ms "status").bind status? }

/-- A schedule and its place from its table. -/
def schedule? (ms : Members) : Option (String × Schedule) := do
  pure (← text? ms "geoid", {
    lastUpdate := ⟨← time? ms "last_update"⟩
    nextUpdate := ⟨← time? ms "next_update"⟩
    nextAttempt := ⟨← time? ms "next_attempt"⟩
    utcOffset := ← whole? ms "utc_offset" })

/-- An entry and the place under which it is kept from its table. -/
def entry? (ms : Members) : Option (String × ForecastEntry) := do
  pure (← text? ms "place", {
    geoid := ← text? ms "geoid"
    start := ← time? ms "from"
    finish := ← time? ms "to"
    period := ← text? ms "period"
    symbol := ← text? ms "symbol"
    precipitation := ← number? ms "precipitation"
    windDirection := ← whole? ms "wind_direction"
    windSpeed := ← number? ms "wind_speed"
    temperature := ← whole? ms "temperature"
    pressure := ← whole? ms "pressure" })

/-- The forecast sets with an entry more. -/
def addEntry (sets : Table String ForecastSet) (entry : String × ForecastEntry) :
    Table String ForecastSet :=
  let (key, e) := entry
  sets.insert key (((sets.get? key).getD .empty).insert e.start e)

/-- A store with a link index from a document; none when it is no saved store. -/
def read? (document : String) : Option Store := do
  let ms ← Toml.read? document
  let places ← (tables "place" ms).mapM place?
  let owners ← (tables "owner" ms).mapM fun ms => do
    pure (← text? ms "key", ← text? ms "geoid")
  let schedules ← (tables "schedule" ms).mapM schedule?
  let entries ← (tables "forecast" ms).mapM entry?
  pure {
    places := .ofList (places.map fun p => (p.geoid, p))
    links := .keyed (.ofList owners)
    schedules := .ofList schedules
    forecasts := entries.foldl addEntry .empty }

end PlaceWeather.SavedStore
