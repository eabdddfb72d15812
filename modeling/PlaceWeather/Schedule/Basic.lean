import PlaceWeather.Calendar.Time

/-!
# Refresh schedules

What is known about the feed of a place: when it was last updated and will be next, when a download
may be tried again, and the offset of the place's local time.
-/

namespace PlaceWeather

/-- The refresh record of a place. -/
structure Schedule where
  lastUpdate : Instant
  nextUpdate : Instant
  /-- No download is tried before this instant. -/
  nextAttempt : Instant
  /-- Minutes by which local time is ahead of UTC. -/
  utcOffset : Int
  deriving DecidableEq

namespace Schedule

/-- The placeholder for a place that was never downloaded. -/
def unknown (now : Instant) : Schedule := ⟨now, now, now, 0⟩

/-- A refresh is due when nothing is scheduled, or the time of the next attempt has come. -/
def isDue (now : Instant) : Option Schedule → Bool
  | none => true
  | some s => decide (s.nextAttempt ≤ now)

end Schedule

end PlaceWeather
