import PlaceWeather.Calendar.Stamp
import PlaceWeather.Error

/-!
# Sunrise and sunset

The sun equation: from the mean solar noon of a day at a longitude follow the sun's mean anomaly,
its ecliptic longitude and its declination, and with the latitude the angle between noon and the
moment at which the upper edge of the sun crosses the horizon.  Where there is no such angle the
sun stays on one side of the horizon all day.
-/

namespace PlaceWeather

namespace Sun

/-! ## The sun's position -/

/-- Half a turn. -/
def pi : Float := Float.ofBits 0x400921FB54442D18

/-- A whole turn. -/
def turn : Float := 2.0 * pi

/-- Degrees as radians. -/
def radians (degrees : Float) : Float := degrees * (pi / 180.0)

/-- The Julian day at which the year 1970 began. -/
def epochDay : Float := 2440587.5

/-- The Julian day of noon on 1 January 2000. -/
def referenceDay : Float := 2451545.0

/-- The seconds of a day. -/
def daySeconds : Float := 86400.0

/-- What is left of `x` after whole multiples of a positive `y`, with the sign of `x`; exact. -/
def remainder (x y : Float) : Float :=
  match Decimal.Binary.ofFloat x, Decimal.Binary.ofFloat y with
  | .finite negative m e, .finite _ n f =>
    let low := min e f
    let rest := m * Decimal.twoPow (e - low).toNat % (n * Decimal.twoPow (f - low).toNat)
    let r := (Float.ofNat rest).scaleB low
    if negative then -r else r
  | _, _ => Decimal.notANumber

/-- An angle within one turn, not negative. -/
def wrap (x : Float) : Float :=
  let r := remainder x turn
  if r < 0.0 then r + turn else r

/-- The Julian day of the mean solar noon of a date at a longitude. -/
def meanNoon (date : Date) (longitude : Float) : Float :=
  Float.ofInt (86400 * date.number + 43200) / daySeconds + epochDay - longitude / 360.0

/-- How far the sun has gone round since it was nearest, at a mean noon. -/
def meanAnomaly (noon : Float) : Float :=
  wrap (radians (357.5291 + 0.98560028 * (noon - referenceDay)))

/-- The difference between true and mean anomaly. -/
def centre (anomaly : Float) : Float :=
  radians (1.9148 * Float.sin anomaly + 0.02 * Float.sin (2.0 * anomaly) +
    0.0003 * Float.sin (3.0 * anomaly))

/-- The direction in which the sun is nearest, at a mean noon. -/
def perihelion (noon : Float) : Float :=
  radians (102.93005 + 0.3179526 * (noon - referenceDay) / 36525.0)

/-- The longitude of the sun on its yearly path. -/
def eclipticLongitude (anomaly noon : Float) : Float :=
  remainder (anomaly + centre anomaly + remainder (perihelion noon) turn + 3.0 * pi) turn

/-- The Julian day at which the sun is highest. -/
def transit (noon anomaly longitude : Float) : Float :=
  noon + (0.0053 * Float.sin anomaly - 0.0069 * Float.sin (2.0 * longitude))

/-- How far the sun stands north of the equator. -/
def declination (longitude : Float) : Float := Float.asin (Float.sin longitude * 0.39779)

/-- The angle by which the earth turns between noon and the crossing of the horizon, which counts
five sixths of a degree below the geometric one; no number when there is no crossing. -/
def hourAngle (latitude declination : Float) : Float :=
  let lat := radians latitude
  Float.acos ((-Float.sin (radians 5.0 / 6.0) - Float.sin lat * Float.sin declination) /
    (Float.cos lat * Float.cos declination))

/-- The second of a Julian day, counted from 1970. -/
def unixSeconds (day : Float) : Int := Decimal.truncate64 ((day - epochDay) * daySeconds)

/-- The seconds of sunrise and sunset of a date, when there are any. -/
def crossings? (date : Date) (latitude longitude : Float) : Option (Int × Int) :=
  let noon := meanNoon date longitude
  let anomaly := meanAnomaly noon
  let ecliptic := eclipticLongitude anomaly noon
  let angle := hourAngle latitude (declination ecliptic)
  if angle.isNaN then none
  else
    let highest := transit noon anomaly ecliptic
    some (unixSeconds (highest - angle / turn), unixSeconds (highest + angle / turn))

/-- About how high the sun stands at noon, in degrees. -/
def noonAltitude (date : Date) (latitude : Float) : Float :=
  let dayOfYear := Float.ofInt date.dayOfYear
  let declination := -23.44 * Float.cos (radians (360.0 / 365.0 * (dayOfYear + 10.0)))
  90.0 - Float.abs (latitude - declination)

/-! ## Reports -/

/-- Whether a position lies on the globe. -/
def isPosition (latitude longitude : Float) : Bool :=
  -90.0 ≤ latitude && latitude ≤ 90.0 && -180.0 ≤ longitude && longitude ≤ 180.0

/-- The local time of a crossing, to the nearest minute. -/
def localMinute? (seconds offset : Int) : Option LocalTime :=
  let rounded := Decimal.round64 (Float.ofInt seconds / 60.0) * 60
  ((Instant.ofUnix? rounded).or (Instant.ofUnix? seconds)).bind (·.toLocal? offset)

end Sun

/-- What the sun does on a day. -/
inductive SunDay where
  /-- It rises and sets, at these local times. -/
  | times (sunrise sunset : LocalTime)
  /-- It stays above the horizon. -/
  | polarDay
  /-- It stays below the horizon. -/
  | polarNight
  deriving DecidableEq

namespace SunDay

/-- What the sun does on a date at a position, in the local time of an offset. -/
def ofDate (date : Date) (latitude longitude : Float) (offset : Int) : Except Fault SunDay :=
  if !Sun.isPosition latitude longitude then
    .error (.error (.invalid ("Invalid coordinates: lat=" ++ Decimal.text latitude ++ ", lon=" ++
      Decimal.text longitude)))
  else
    match Sun.crossings? date latitude longitude with
    | some (rise, set) => do
      pure (times (← Fault.onCalendar (Sun.localMinute? rise offset))
        (← Fault.onCalendar (Sun.localMinute? set offset)))
    | none => .ok (if 0.0 < Sun.noonAltitude date latitude then polarDay else polarNight)

/-- What is written about the sun. -/
def text : SunDay → String
  | times sunrise sunset => "Sunrise: " ++ sunrise.clockText ++ ", sunset: " ++ sunset.clockText
  | polarDay => "No sunset, polar day"
  | polarNight => "No sunrise, polar night"

end SunDay

end PlaceWeather
