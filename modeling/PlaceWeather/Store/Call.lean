/-!
# Calls of the store

The kinds of calls that are made to a store, each of which can fail.
-/

namespace PlaceWeather

/-- A kind of call to the store. -/
inductive StoreCall where
  | getPlace
  | putPlace
  | findByLink
  | getSchedule
  | putSchedule
  | getEntries
  | putEntries
  deriving DecidableEq, Repr

namespace StoreCall

/-- The name by which a failure of a call is reported. -/
def name : StoreCall → String
  | getPlace => "get_place"
  | putPlace => "upsert_place"
  | findByLink => "find_by_link"
  | getSchedule => "schedule_info"
  | putSchedule => "replace_schedule_info"
  | getEntries => "list_forecasts"
  | putEntries => "replace_all_forecasts"

/-- All kinds of calls. -/
def all : List StoreCall :=
  [getPlace, putPlace, findByLink, getSchedule, putSchedule, getEntries, putEntries]

/-- The kind of call with a name. -/
def ofName? (s : String) : Option StoreCall := all.find? (·.name == s)

end StoreCall

end PlaceWeather
