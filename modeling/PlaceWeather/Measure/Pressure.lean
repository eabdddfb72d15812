import PlaceWeather.Measure.Temperature

/-!
# Air pressure

Pressures are whole hectopascals, shown in one of four units with the places usual for it.
-/

namespace PlaceWeather

/-- The units a pressure is shown in. -/
inductive PressureUnit where
  | hpa
  | inhg
  | mmhg
  | kpa
  deriving DecidableEq, Repr

namespace PressureUnit

/-- The name of a unit. -/
def name : PressureUnit → String
  | hpa => "hpa"
  | inhg => "inhg"
  | mmhg => "mmhg"
  | kpa => "kpa"

/-- The sign of a unit. -/
def sign : PressureUnit → String
  | hpa => "hPa"
  | inhg => "inHg"
  | mmhg => "mmHg"
  | kpa => "kPa"

/-- All units. -/
def all : List PressureUnit := [hpa, inhg, mmhg, kpa]

/-- The unit with a name, exactly spelled. -/
def ofName? (s : String) : Option PressureUnit := all.find? (·.name == s)

/-- The unit that a text names in any case; the refusal quotes the text in lower case. -/
def parse (s : String) : Except WeatherError PressureUnit :=
  let lower := Text.lowerAscii s
  match ofName? lower with
  | some u => .ok u
  | none => .error (.invalid ("unknown pressure unit '" ++ lower ++ "'"))

end PressureUnit

namespace Pressure

/-- A pressure in a unit. -/
def value (hpa : Int) (unit : PressureUnit) : Float :=
  let p := Float.ofInt hpa
  match unit with
  | .hpa => p
  | .inhg => Decimal.roundTo (p * 0.02953) 2
  | .mmhg => Decimal.roundTo (p * 0.75006) 0
  | .kpa => Decimal.roundTo (p / 10.0) 1

/-- A pressure with the sign of its unit. -/
def text (hpa : Int) (unit : PressureUnit) : String :=
  Decimal.text (value hpa unit) ++ thinSpace ++ unit.sign

end Pressure

end PlaceWeather
