import PlaceWeather.Proofs.Station.RefreshPath
import PlaceWeather.Session.Basic

/-!
# The history of a session

Which feeds a session was given, and which refreshes were given none, in order.  A history is read
off the addresses that were downloaded from and what the web said there; what the store holds plays
no part in it.
-/

namespace PlaceWeather

/-- What came of a download. -/
inductive Delivery where
  /-- A feed came; it is stored under its identifier. -/
  | stored (feed : Feed)
  /-- A refresh of a place got no feed and is tried again later. -/
  | failed (geoid : String) (now : Instant)

namespace Delivery

/-- The feed of a delivery, if it is one for a place. -/
def feedFor? (geoid : String) : Delivery → Option Feed
  | stored feed => if feed.geoid = geoid then some feed else none
  | failed _ _ => none

/-- The clock reading of a delivery, if it is a failed refresh of a place. -/
def failureOf? (geoid : String) : Delivery → Option Instant
  | stored _ => none
  | failed place now => if place = geoid then some now else none

/-- The last feed stored for a place. -/
def lastFeed? (past : List Delivery) (geoid : String) : Option Feed :=
  (past.filterMap (feedFor? geoid)).getLast?

/-- When a refresh of a place first failed. -/
def firstFailure? (past : List Delivery) (geoid : String) : Option Instant :=
  (past.filterMap (failureOf? geoid)).head?

theorem lastFeed?_concat (past : List Delivery) (last : Delivery) (geoid : String) :
    lastFeed? (past ++ [last]) geoid = (last.feedFor? geoid).or (lastFeed? past geoid) := by
  unfold lastFeed?
  rw [List.filterMap_append, List.getLast?_append]
  cases h : last.feedFor? geoid <;> simp [h]

theorem firstFailure?_concat (past : List Delivery) (last : Delivery) (geoid : String) :
    firstFailure? (past ++ [last]) geoid = (firstFailure? past geoid).or (last.failureOf? geoid) := by
  unfold firstFailure?
  rw [List.filterMap_append, List.head?_append]
  cases h : last.failureOf? geoid <;> simp [h]

end Delivery

/-! ## Deliveries of calls -/

namespace Station

/-- What the first download between two stations told. -/
def told? (s t : Station) (geoid : Option String) : Option (Except Fault Feed) :=
  (t.downloads.drop s.downloads.length).head?.map (s.received · geoid)

theorem told?_of_no_download {s t : Station} (h : t.downloads = s.downloads)
    (geoid : Option String) : s.told? t geoid = none := by
  unfold told?
  rw [h, List.drop_length]
  rfl

theorem told?_of_download {s t : Station} {url : String} (h : t.downloads = s.downloads ++ [url])
    (geoid : Option String) : s.told? t geoid = some (s.received url geoid) := by
  unfold told?
  rw [h, List.drop_left]
  rfl

/-- The deliveries between two stations, when a place was refreshed. -/
def refreshed (s t : Station) (geoid : String) (now : Instant) : List Delivery :=
  match s.told? t (some geoid) with
  | some (.ok feed) => [.stored feed]
  | some (.error (.error e)) => if e.recoverable then [.failed geoid now] else []
  | some (.error .offCalendar) | none => []

/-- The deliveries between two stations, when a place was added. -/
def added (s t : Station) : List Delivery :=
  match s.told? t none with
  | some (.ok feed) => [.stored feed]
  | some (.error _) | none => []

/-- The deliveries of a sweep, check by check. -/
def swept (baseUrl : String) (now : Instant) : Station → List String → List Delivery
  | _, [] => []
  | s, geoid :: rest =>
    let t := ((Action.ensureFresh baseUrl geoid now).runAt s).2
    s.refreshed t geoid now ++ swept baseUrl now t rest

end Station

namespace Session

/-- The deliveries of a step. -/
def deliveries (s : Session) (step : Step) : List Delivery :=
  let t := (s.step step).2
  match step with
  | .ensureFresh geoid | .weather geoid _ _ | .report geoid _ _ =>
    s.station.refreshed t.station geoid s.clock
  | .refresh geoids => s.station.swept s.presenter.baseUrl s.clock geoids
  | .addPlace _ => s.station.added t.station
  | _ => []

/-- The deliveries of steps taken one after the other. -/
def history (s : Session) : List Step → List Delivery
  | [] => []
  | first :: rest => s.deliveries first ++ (s.step first).2.history rest

end Session

end PlaceWeather
