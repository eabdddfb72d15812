import PlaceWeather.Station.Web
import PlaceWeather.Store.Basic
import PlaceWeather.Store.Call

/-!
# The station

A station works on one store and one web.  An action is a sequence of store calls and downloads
that may stop at a fault; what was written before stays.  A store call fails before it does
anything.
-/

namespace PlaceWeather

/-- A store, the web, and what has been asked of them so far. -/
structure Station where
  store : Store
  web : Web
  /-- Which store calls fail, given how many were made before. -/
  failing : Nat → StoreCall → Bool
  /-- The number of store calls made. -/
  calls : Nat
  /-- The addresses of all downloads made, in order. -/
  downloads : List String

/-- A course of store calls and downloads. -/
abbrev Action (α : Type) := ExceptT Fault (StateM Station) α

namespace Station

/-- A station at which nothing has been asked and nothing fails. -/
def start (store : Store) (web : Web) : Station := ⟨store, web, fun _ _ => false, 0, []⟩

end Station

namespace Action

/-- The outcome of an action at a station, and the station after it. -/
def runAt {α : Type} (x : Action α) (s : Station) : Except Fault α × Station := x.run s

@[simp] theorem runAt_pure {α : Type} (a : α) (s : Station) :
    runAt (pure a : Action α) s = (.ok a, s) := rfl

@[simp] theorem runAt_throw {α : Type} (e : Fault) (s : Station) :
    runAt (throw e : Action α) s = (.error e, s) := rfl

/-- An action that stops does not go on to the next one. -/
theorem runAt_bind {α β : Type} (x : Action α) (f : α → Action β) (s : Station) :
    runAt (x >>= f) s =
      match runAt x s with
      | (.ok a, t) => runAt (f a) t
      | (.error e, t) => (.error e, t) := by
  simp only [runAt, ExceptT.run, bind, ExceptT.bind, ExceptT.mk, StateT.bind]
  rcases x s with ⟨_ | _, _⟩ <;> rfl

/-- Stops with a failure. -/
def fail {α : Type} (e : WeatherError) : Action α := throw (.error e)

/-- Goes on with an outcome that needs neither store nor web. -/
def ofExcept {α : Type} (outcome : Except Fault α) : Action α := ExceptT.mk (pure outcome)

/-- The outcome of an action; a failure does not stop the course, only a date that left the
calendar does. -/
def attempt {α : Type} (x : Action α) : Action (Except WeatherError α) :=
  ExceptT.mk do
    match ← x.run with
    | .ok a => pure (.ok (.ok a))
    | .error (.error e) => pure (.ok (.error e))
    | .error .offCalendar => pure (.error .offCalendar)

/-- A failure is dealt with by an action, and a success by another. -/
def either {α β : Type} (x : Action α) (failed : WeatherError → Action β) (ok : α → Action β) :
    Action β := do
  match ← attempt x with
  | .ok a => ok a
  | .error e => failed e

/-- A store call, unless it fails. -/
def storeCall {α : Type} (call : StoreCall) (f : Store → α × Store) : Action α := do
  let s ← get
  set { s with calls := s.calls + 1 }
  if s.failing s.calls call then fail (.store (call.name ++ " unavailable"))
  else
    let (a, store) := f s.store
    modify fun s => { s with store }
    pure a

/-- The place with an identifier. -/
def getPlace (geoid : String) : Action (Option Place) :=
  storeCall .getPlace fun s => (s.place? geoid, s)

/-- Writes a place. -/
def putPlace (p : Place) : Action Unit := storeCall .putPlace fun s => ((), s.putPlace p)

/-- The place with a country and a link. -/
def findByLink (country link : String) : Action (Option Place) :=
  storeCall .findByLink fun s => (s.findByLink? country link, s)

/-- The schedule of a place. -/
def getSchedule (geoid : String) : Action (Option Schedule) :=
  storeCall .getSchedule fun s => (s.schedule? geoid, s)

/-- Writes the schedule of a place. -/
def putSchedule (geoid : String) (schedule : Schedule) : Action Unit :=
  storeCall .putSchedule fun s => ((), s.putSchedule geoid schedule)

/-- The entries of a place that have not ended before a time. -/
def getEntries (geoid : String) (time : LocalTime) : Action (List ForecastEntry) :=
  storeCall .getEntries fun s => (s.entriesFrom geoid time, s)

/-- Writes the entries of a place. -/
def putEntries (geoid : String) (entries : List ForecastEntry) : Action Unit :=
  storeCall .putEntries fun s => ((), s.putEntries geoid entries)

/-- Downloads a document. -/
def download (url : String) : Action String := do
  let s ← get
  let (response, web) := s.web.respond url
  set { s with web, downloads := s.downloads ++ [url] }
  match response with
  | .ok document => pure document
  | .error e => fail e

/-! ## What actions do to a station -/

@[simp] theorem runAt_get (s : Station) : runAt (get : Action Station) s = (.ok s, s) := rfl

@[simp] theorem runAt_set (t s : Station) : runAt (set t : Action PUnit) s = (.ok ⟨⟩, t) := rfl

@[simp] theorem runAt_modify (f : Station → Station) (s : Station) :
    runAt (modify f : Action PUnit) s = (.ok ⟨⟩, f s) := rfl

theorem runAt_map {α β : Type} (f : α → β) (x : Action α) (s : Station) :
    runAt (f <$> x) s = ((runAt x s).1.map f, (runAt x s).2) := by
  rw [← bind_pure_comp, runAt_bind]
  rcases runAt x s with ⟨_ | _, _⟩ <;> rfl

@[simp] theorem runAt_fail {α : Type} (e : WeatherError) (s : Station) :
    runAt (fail e : Action α) s = (.error (.error e), s) := rfl

@[simp] theorem runAt_ofExcept {α : Type} (outcome : Except Fault α) (s : Station) :
    runAt (ofExcept outcome) s = (outcome, s) := rfl

/-- An attempt stops only when the action left the calendar. -/
theorem runAt_attempt {α : Type} (x : Action α) (s : Station) :
    runAt (attempt x) s =
      match runAt x s with
      | (.ok a, t) => (.ok (.ok a), t)
      | (.error (.error e), t) => (.ok (.error e), t)
      | (.error .offCalendar, t) => (.error .offCalendar, t) := by
  simp only [runAt, attempt, ExceptT.run, ExceptT.mk, bind, StateT.bind]
  generalize x s = outcome
  match outcome with
  | (.ok _, _) | (.error (.error _), _) | (.error .offCalendar, _) => rfl

/-- A store call that works changes the store alone. -/
theorem runAt_storeCall {α : Type} {call : StoreCall} {s : Station}
    (works : s.failing s.calls call = false) (f : Store → α × Store) :
    runAt (storeCall call f) s =
      (.ok (f s.store).1, { s with store := (f s.store).2, calls := s.calls + 1 }) := by
  simp [storeCall, runAt_bind, runAt_map, works, Except.map]

/-- A store call that fails leaves the store as it is. -/
theorem runAt_storeCall_of_failing {α : Type} {call : StoreCall} {s : Station}
    (fails : s.failing s.calls call = true) (f : Store → α × Store) :
    runAt (storeCall call f) s =
      (.error (.error (.store (call.name ++ " unavailable"))), { s with calls := s.calls + 1 }) := by
  simp [storeCall, runAt_bind, fails]

/-- A download changes the web and the list of downloads, whether it gives a document or not. -/
theorem runAt_download (url : String) (s : Station) :
    runAt (download url) s =
      ((s.web.respond url).1.mapError Fault.error,
        { s with web := (s.web.respond url).2, downloads := s.downloads ++ [url] }) := by
  rcases h : s.web.respond url with ⟨_ | _, _⟩ <;>
    simp [download, runAt_bind, runAt_map, h, Except.map] <;> rfl

end Action

end PlaceWeather
