import PlaceWeather.Address
import PlaceWeather.Feed.Reading
import PlaceWeather.Place.Reconcile
import PlaceWeather.Schedule.Retry
import PlaceWeather.Station.Basic

/-!
# Keeping forecasts fresh

When the schedule of a place says so, its feed is downloaded and read, the place record is
reconciled, and the forecasts and then the schedule are replaced.  The forecasts go first, so that a
failed write leaves the place due.  A download that fails, or a document that cannot be read, is
not an error of the refresh: the next attempt is put off and a warning is given.
-/

namespace PlaceWeather

/-- The outcome of a freshness check. -/
structure Freshness where
  schedule : Schedule
  /-- No download was due, or it gave a feed. -/
  succeeded : Bool
  /-- A download was due. -/
  attempted : Bool
  /-- Why the download gave no feed. -/
  warning : Option String
  deriving DecidableEq

namespace Action

/-- Reconciles a downloaded place with the stored one and writes what that asks for. -/
def reconcilePlace (downloaded : Place) : Action Unit := do
  let existing ← getPlace downloaded.geoid
  match (Place.reconcile existing downloaded).record? with
  | some place => putPlace place
  | none => pure ()

/-- Downloads, reads and stores a feed, under an identifier or under the document's own. -/
def storeFeed (url : String) (geoid : Option String) : Action Feed := do
  let document ← download url
  let feed ← ofExcept (Feed.read document geoid)
  reconcilePlace feed.place
  putEntries feed.geoid feed.entries
  putSchedule feed.geoid feed.schedule
  pure feed

/-- Puts off the next attempt of a schedule and writes it. -/
def backOff (geoid : String) (schedule : Schedule) (now : Instant) : Action Schedule := do
  let later ← ofExcept (Fault.onCalendar (schedule.backedOff? now))
  putSchedule geoid later
  pure later

/-- After a feed was stored: one whose next update has already passed is tried again later. -/
def settle (geoid : String) (feed : Feed) (now : Instant) : Action Freshness := do
  let current := (← getSchedule feed.geoid).getD feed.schedule
  let schedule ← if current.nextUpdate ≤ now then backOff geoid current now else pure current
  pure ⟨schedule, true, true, none⟩

/-- What a warning says about a failure. -/
def downloadWarning (e : WeatherError) : String := "Download of forecast failed: " ++ e.message

/-- After a failed download: tries again later if the failure allows that. -/
def absorb (geoid : String) (schedule : Schedule) (now : Instant) (e : WeatherError) :
    Action Freshness := do
  if e.recoverable then
    let later ← backOff geoid schedule now
    pure ⟨later, false, true, some (downloadWarning e)⟩
  else fail e

/-- The place with an identifier, which must be known. -/
def requirePlace (geoid : String) : Action Place := do
  match ← getPlace geoid with
  | some place => pure place
  | none => fail (.unknownPlace geoid)

/-- Downloads the feed of a place when it is due; feeds are found below a base address. -/
def ensureFresh (baseUrl geoid : String) (now : Instant) : Action Freshness := do
  let stored ← getSchedule geoid
  let schedule := stored.getD (.unknown now)
  if !Schedule.isDue now stored then pure ⟨schedule, true, false, none⟩
  else
    let place ← requirePlace geoid
    let url := Address.feed baseUrl place.country place.link
    either (storeFeed url (some geoid)) (absorb geoid schedule now) (settle geoid · now)

/-- Freshness checks of some places, one after the other; a failure at one place does not stop the
others. -/
def sweep (baseUrl : String) (now : Instant) :
    List String → Action (List (String × Except WeatherError Freshness))
  | [] => pure []
  | geoid :: rest => do
    let outcome ← attempt (ensureFresh baseUrl geoid now)
    let later ← sweep baseUrl now rest
    pure ((geoid, outcome) :: later)

end Action

end PlaceWeather
