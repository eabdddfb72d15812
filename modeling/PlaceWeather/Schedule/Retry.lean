import PlaceWeather.Schedule.Basic

/-!
# Trying again later

After a failed or stale refresh the next attempt follows the announced update time by an interval
of the retry ladder: 675 seconds, doubled up to half a day, and from then on whole days.  The
interval is the least of the ladder that leads past the present.
-/

namespace PlaceWeather.Schedule

/-- The intervals below a day, each twice the one before it. -/
def shortIntervals : List Int := [675, 1350, 2700, 5400, 10800, 21600, 43200]

/-- The seconds of a day. -/
def daySeconds : Int := 86400

/-- Whether `reference + interval` lies after `now`; what lies beyond the calendar does. -/
def leadsPast (reference now : Instant) (interval : Int) : Bool :=
  match reference.addSeconds? interval with
  | some t => decide (now < t)
  | none => true

/-- The least positive number of whole days that leads from `reference` past `now`.  Ranks count
half seconds, and going forward starts at the ordinary second of the reference. -/
def daysPast (reference now : Instant) : Int :=
  let start := 2 * (daySeconds * reference.utc.date.number + reference.utc.second)
  max 1 ((now.utc.rank - start) / (2 * daySeconds) + 1)

/-- The least interval of the ladder that leads from `reference` past `now`. -/
def retryInterval (reference now : Instant) : Int :=
  match shortIntervals.find? (leadsPast reference now) with
  | some interval => interval
  | none => daySeconds * daysPast reference now

/-- The next attempt after the announced update time `reference`, when it lies in the calendar. -/
def nextAttempt? (reference now : Instant) : Option Instant :=
  reference.addSeconds? (retryInterval reference now)

/-- The schedule with its next attempt put off; the other fields are kept. -/
def backedOff? (s : Schedule) (now : Instant) : Option Schedule :=
  (nextAttempt? s.nextUpdate now).map fun t => { s with nextAttempt := t }

/-- One step of a walk through clock readings: a due schedule is put off, another one is kept.  Says
whether it was due. -/
def stepBackoff? (s : Schedule) (now : Instant) : Option (Bool × Schedule) :=
  if isDue now (some s) then (backedOff? s now).map (true, ·) else some (false, s)

/-- The steps of a walk through clock readings. -/
def walkBackoff? (s : Schedule) : List Instant → Option (List (Bool × Schedule))
  | [] => some []
  | now :: later =>
    (stepBackoff? s now).bind fun step =>
      (walkBackoff? step.2 later).map (step :: ·)

end PlaceWeather.Schedule
