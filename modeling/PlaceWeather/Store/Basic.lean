import PlaceWeather.Forecast.Entry
import PlaceWeather.Place
import PlaceWeather.Schedule.Basic

/-!
# The record store

The store holds places, refresh schedules and forecast sets, each by the identifier of its place.
A place is also found by country and link: either the places themselves are looked through, or an
index is kept whose keys are the texts `country/link`.  The last place written under a key owns it,
and a place that moves takes its old key along only while it still owns it.
-/

namespace PlaceWeather

/-- How places are found by country and link. -/
inductive LinkIndex where
  /-- The places are looked through. -/
  | scan
  /-- Each key names the place that owns it. -/
  | keyed (owners : Table String String)

/-- The records of a store. -/
structure Store where
  places : Table String Place
  links : LinkIndex
  schedules : Table String Schedule
  forecasts : Table String ForecastSet

namespace LinkIndex

/-- The key of a country and a link. -/
def key (country link : String) : String := country ++ "/" ++ link

/-- The key of a place. -/
def keyOf (p : Place) : String := key p.country p.link

/-- The owners of keys after `place` is written over `previous`. -/
def moveOwner (owners : Table String String) (previous : Option Place) (place : Place) :
    Table String String :=
  let kept :=
    match previous with
    | some old =>
      if keyOf old ≠ keyOf place ∧ owners.get? (keyOf old) = some place.geoid then
        owners.erase (keyOf old)
      else owners
    | none => owners
  kept.insert (keyOf place) place.geoid

/-- The index after `place` is written over `previous`. -/
def move (links : LinkIndex) (previous : Option Place) (place : Place) : LinkIndex :=
  match links with
  | scan => scan
  | keyed owners => keyed (moveOwner owners previous place)

end LinkIndex

namespace Store

/-- The store without records that looks through its places. -/
def scanning : Store := ⟨.empty, .scan, .empty, .empty⟩

/-- The store without records that keeps an index. -/
def indexed : Store := ⟨.empty, .keyed .empty, .empty, .empty⟩

/-- The longest key of a store that keeps an index, in bytes. -/
def keyLimit : Nat := 65535

/-- Whether the store can keep a record under a key: a store that keeps an index takes no empty key
and none that is too long. -/
def takesKey (s : Store) (key : String) : Bool :=
  match s.links with
  | .scan => true
  | .keyed _ => !key.isEmpty && decide (key.utf8ByteSize ≤ keyLimit)

/-! ## Places -/

/-- The place with an identifier. -/
def place? (s : Store) (geoid : String) : Option Place := s.places.get? geoid

/-- The store with a place under its identifier. -/
def putPlace (s : Store) (p : Place) : Store :=
  { s with places := s.places.insert p.geoid p, links := s.links.move (s.place? p.geoid) p }

/-- The place with a country and a link. -/
def findByLink? (s : Store) (country link : String) : Option Place :=
  match s.links with
  | .scan => s.places.values.find? fun p => p.country == country && p.link == link
  | .keyed owners => (owners.get? (LinkIndex.key country link)).bind s.place?

/-! ## Schedules -/

/-- The schedule of a place. -/
def schedule? (s : Store) (geoid : String) : Option Schedule := s.schedules.get? geoid

/-- The store with a schedule of a place. -/
def putSchedule (s : Store) (geoid : String) (schedule : Schedule) : Store :=
  { s with schedules := s.schedules.insert geoid schedule }

/-! ## Forecasts -/

/-- The entries of a place that have not ended before a time, in the order of their starts. -/
def entriesFrom (s : Store) (geoid : String) (time : LocalTime) : List ForecastEntry :=
  match s.forecasts.get? geoid with
  | some set => ForecastSet.endingFrom set time
  | none => []

/-- The store with the entries of a place in the place of all it had. -/
def putEntries (s : Store) (geoid : String) (entries : List ForecastEntry) : Store :=
  { s with forecasts := s.forecasts.insert geoid (ForecastSet.ofEntries entries) }

/-! ## What a write leaves as it is -/

@[simp] theorem place?_putPlace (s : Store) (p : Place) (geoid : String) :
    (s.putPlace p).place? geoid = if p.geoid = geoid then some p else s.place? geoid := by
  simp [putPlace, place?, Table.get?_insert]

@[simp] theorem schedule?_putPlace (s : Store) (p : Place) (geoid : String) :
    (s.putPlace p).schedule? geoid = s.schedule? geoid := rfl

@[simp] theorem entriesFrom_putPlace (s : Store) (p : Place) (geoid : String)
    (time : LocalTime) : (s.putPlace p).entriesFrom geoid time = s.entriesFrom geoid time := rfl

@[simp] theorem schedule?_putSchedule (s : Store) (g geoid : String) (schedule : Schedule) :
    (s.putSchedule g schedule).schedule? geoid =
      if g = geoid then some schedule else s.schedule? geoid := by
  simp [putSchedule, schedule?, Table.get?_insert]

@[simp] theorem place?_putSchedule (s : Store) (g geoid : String) (schedule : Schedule) :
    (s.putSchedule g schedule).place? geoid = s.place? geoid := rfl

@[simp] theorem entriesFrom_putSchedule (s : Store) (g geoid : String) (schedule : Schedule)
    (time : LocalTime) :
    (s.putSchedule g schedule).entriesFrom geoid time = s.entriesFrom geoid time := rfl

@[simp] theorem place?_putEntries (s : Store) (g geoid : String)
    (entries : List ForecastEntry) : (s.putEntries g entries).place? geoid = s.place? geoid := rfl

@[simp] theorem schedule?_putEntries (s : Store) (g geoid : String)
    (entries : List ForecastEntry) :
    (s.putEntries g entries).schedule? geoid = s.schedule? geoid := rfl

@[simp] theorem entriesFrom_putEntries (s : Store) (g geoid : String) (entries : List ForecastEntry)
    (time : LocalTime) :
    (s.putEntries g entries).entriesFrom geoid time =
      if g = geoid then (ForecastSet.ofEntries entries).endingFrom time
      else s.entriesFrom geoid time := by
  by_cases h : g = geoid <;> simp [entriesFrom, putEntries, Table.get?_insert, h]

end Store

end PlaceWeather
