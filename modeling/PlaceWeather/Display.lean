import PlaceWeather.Measure.Pressure
import PlaceWeather.Measure.Wind
import PlaceWeather.Sky.Icon

/-!
# What is shown

The choices that a report follows: units, optional parts, how many days, and where icons are.
-/

namespace PlaceWeather

/-- The choices for reports. -/
structure Display where
  temperature : TemperatureUnit
  windSpeed : WindSpeedUnit
  pressure : PressureUnit
  showSun : Bool
  showWindchill : Bool
  abbreviateDirections : Bool
  showDegrees : Bool
  /-- The number of days shown, 0 for all there are. -/
  days : Nat
  icons : IconDirectories
  deriving DecidableEq, Repr

namespace Display

/-- The directory of the bundled icons when none is chosen. -/
def bundledIcons : String := "images"

/-- The choices when none are made. -/
def standard : Display where
  temperature := .celsius
  windSpeed := .kmh
  pressure := .hpa
  showSun := false
  showWindchill := false
  abbreviateDirections := false
  showDegrees := false
  days := 0
  icons := ⟨none, bundledIcons⟩

end Display

end PlaceWeather
