import PlaceWeather.Station.Adding
import PlaceWeather.Station.Weather

/-!
# Sessions

A session is a station with a clock that is set by hand.  It takes one step after another; a step
that fails leaves what it had written, and the session goes on.
-/

namespace PlaceWeather

/-- A step of a session. -/
inductive Step where
  | setClock (now : Instant)
  | advanceClock (seconds : Int)
  /-- Other responses at some addresses. -/
  | serve (responses : List (String × List Response))
  /-- From now on exactly these store calls fail. -/
  | failStore (calls : List StoreCall)
  /-- The store is closed and opened again; its records stay. -/
  | reopenStore
  | seedPlace (place : Place)
  | weather (geoid : String) (days : Nat) (detailed : Bool)
  | report (geoid : String) (days : Nat) (detailed : Bool)
  | addPlace (url : String)
  | refresh (geoids : List String)
  | ensureFresh (geoid : String)
  | place (geoid : String)
  | findByLink (country link : String)
  | schedule (geoid : String)
  | putSchedule (geoid : String) (schedule : Schedule)
  | entries (geoid : String) (time : LocalTime)
  | putEntries (geoid : String) (entries : List ForecastEntry)

/-- What a step answers. -/
inductive Answer where
  | done
  | clock (now : Instant)
  | weather (weather : Weather)
  | report (report : WeatherReport)
  | place (place : Option Place)
  | outcomes (outcomes : List (String × Except WeatherError Freshness))
  | freshness (freshness : Freshness)
  | schedule (schedule : Option Schedule)
  | entries (entries : List ForecastEntry)

/-- A station with a clock, and how its reports are shown. -/
structure Session where
  clock : Instant
  station : Station
  presenter : Presenter

namespace Session

/-- The session with its clock set, when there is such an instant. -/
def withClock (s : Session) : Option Instant → Except Fault Answer × Session
  | some now => (.ok (.clock now), { s with clock := now })
  | none => (.error .offCalendar, s)

/-- The session after an action of its station. -/
def perform {α : Type} (s : Session) (answer : α → Answer) (action : Action α) :
    Except Fault Answer × Session :=
  let (outcome, station) := action.runAt s.station
  (outcome.map answer, { s with station })

/-- Takes a step. -/
def step (s : Session) : Step → Except Fault Answer × Session
  | .setClock now => s.withClock (some now)
  | .advanceClock seconds => s.withClock (s.clock.addSeconds? seconds)
  | .serve responses =>
    (.ok .done, { s with station := { s.station with web := s.station.web.serve responses } })
  | .failStore calls =>
    let failing (_ : Nat) (call : StoreCall) : Bool := calls.contains call
    (.ok .done, { s with station := { s.station with failing } })
  | .reopenStore => (.ok .done, s)
  | .seedPlace place => s.perform (fun _ => .done) (Action.seedPlace place)
  | .weather geoid days detailed =>
    s.perform .weather (Action.weather s.presenter.baseUrl geoid days detailed s.clock)
  | .report geoid days detailed =>
    s.perform .report (Action.report s.presenter geoid days detailed s.clock)
  | .addPlace url => s.perform (.place ∘ some) (Action.addPlace url)
  | .refresh geoids => s.perform .outcomes (Action.sweep s.presenter.baseUrl s.clock geoids)
  | .ensureFresh geoid =>
    s.perform .freshness (Action.ensureFresh s.presenter.baseUrl geoid s.clock)
  | .place geoid => s.perform .place (Action.getPlace geoid)
  | .findByLink country link => s.perform .place (Action.findByLink country link)
  | .schedule geoid => s.perform .schedule (Action.getSchedule geoid)
  | .putSchedule geoid schedule => s.perform (fun _ => .done) (Action.putSchedule geoid schedule)
  | .entries geoid time => s.perform .entries (Action.getEntries geoid time)
  | .putEntries geoid entries => s.perform (fun _ => .done) (Action.putEntries geoid entries)

/-- Takes steps one after the other. -/
def run (s : Session) : List Step → List (Except Fault Answer) × Session
  | [] => ([], s)
  | first :: rest =>
    let (answer, next) := s.step first
    let (answers, last) := next.run rest
    (answer :: answers, last)

/-- The downloads of a step, given the session before it and the one after it. -/
def downloadsSince (earlier later : Session) : List String :=
  later.station.downloads.drop earlier.station.downloads.length

end Session

end PlaceWeather
