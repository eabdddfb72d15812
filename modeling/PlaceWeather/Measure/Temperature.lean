import PlaceWeather.Decimal.Notation
import PlaceWeather.Error
import PlaceWeather.Text.Pieces

/-!
# Temperature

Temperatures are whole degrees Celsius.  They are shown on one of two scales or on both, and with a
wind strong enough there is a felt temperature beside the measured one.
-/

namespace PlaceWeather

/-- The thin space between a number and its unit. -/
def thinSpace : String := String.singleton (Char.ofNat 0x2009)

/-- The scales a temperature is shown on, the first named first. -/
inductive TemperatureUnit where
  | celsius
  | fahrenheit
  | celsiusFahrenheit
  | fahrenheitCelsius
  deriving DecidableEq, Repr

namespace TemperatureUnit

/-- The name of a choice of scales. -/
def name : TemperatureUnit → String
  | celsius => "celsius"
  | fahrenheit => "fahrenheit"
  | celsiusFahrenheit => "celsiusfahrenheit"
  | fahrenheitCelsius => "fahrenheitcelsius"

/-- All choices. -/
def all : List TemperatureUnit := [celsius, fahrenheit, celsiusFahrenheit, fahrenheitCelsius]

/-- The choice with a name, exactly spelled. -/
def ofName? (s : String) : Option TemperatureUnit := all.find? (·.name == s)

/-- The choice that a text names in any case; the refusal quotes the text in lower case. -/
def parse (s : String) : Except WeatherError TemperatureUnit :=
  let lower := Text.lowerAscii s
  match ofName? lower with
  | some u => .ok u
  | none => .error (.invalid ("unknown temperature unit '" ++ lower ++ "'"))

end TemperatureUnit

namespace Temperature

/-- Degrees Celsius in degrees Fahrenheit, cut off toward zero before 32 is added. -/
def fahrenheit (celsius : Int) : Int :=
  Decimal.truncate32 (Float.ofInt celsius * 9.0 / 5.0) + 32

/-- The number on the first scale of a unit. -/
def value (celsius : Int) : TemperatureUnit → Int
  | .celsius | .celsiusFahrenheit => celsius
  | .fahrenheit | .fahrenheitCelsius => fahrenheit celsius

/-- A number of degrees Celsius with its sign. -/
def celsiusText (n : Int) : String := Decimal.intText n ++ thinSpace ++ "°C"

/-- A number of degrees Fahrenheit with its sign. -/
def fahrenheitText (n : Int) : String := Decimal.intText n ++ thinSpace ++ "°F"

/-- A temperature on the scales of a unit. -/
def text (celsius : Int) : TemperatureUnit → String
  | .celsius => celsiusText celsius
  | .fahrenheit => fahrenheitText (fahrenheit celsius)
  | .celsiusFahrenheit => celsiusText celsius ++ " / " ++ fahrenheitText (fahrenheit celsius)
  | .fahrenheitCelsius => fahrenheitText (fahrenheit celsius) ++ " / " ++ celsiusText celsius

/-- The temperature felt in a wind, by the wind chill formula of 2001 for km/h.  It is defined up to
10 °C and from 1.34 m/s on. -/
def windchill? (celsius : Int) (mps : Float) : Option Int :=
  if 10 < celsius || decide (mps < 1.34) then none
  else
    let t := Float.ofInt celsius
    let v := Float.pow (mps * 3.6) 0.16
    some (Decimal.round32 (13.12 + 0.6215 * t - 11.37 * v + 0.3965 * t * v))

/-- The felt temperature on the scales of a unit. -/
def windchillText? (celsius : Int) (mps : Float) (unit : TemperatureUnit) : Option String :=
  (windchill? celsius mps).map (text · unit)

end Temperature

end PlaceWeather
