import PlaceWeather.Measure.Temperature

/-!
# Wind

Wind speeds are metres per second, shown in one of four units or by their Beaufort force; wind
directions are degrees, shown by one of sixteen points of the compass.
-/

namespace PlaceWeather

/-- The units a wind speed is shown in. -/
inductive WindSpeedUnit where
  | kmh
  | mps
  | mph
  | knots
  | beaufort
  deriving DecidableEq, Repr

namespace WindSpeedUnit

/-- The name of a unit. -/
def name : WindSpeedUnit → String
  | kmh => "kmh"
  | mps => "mps"
  | mph => "mph"
  | knots => "knots"
  | beaufort => "beaufort"

/-- All units. -/
def all : List WindSpeedUnit := [kmh, mps, mph, knots, beaufort]

/-- The unit with a name, exactly spelled. -/
def ofName? (s : String) : Option WindSpeedUnit := all.find? (·.name == s)

/-- The unit that a text names in any case; the refusal quotes the text in lower case. -/
def parse (s : String) : Except WeatherError WindSpeedUnit :=
  let lower := Text.lowerAscii s
  match ofName? lower with
  | some u => .ok u
  | none => .error (.invalid ("unknown wind speed unit '" ++ lower ++ "'"))

end WindSpeedUnit

/-! ## Beaufort force -/

namespace Beaufort

/-- The least speeds of the forces 1 to 12. -/
def thresholds : List Float :=
  [0.3, 1.6, 3.5, 5.5, 8.0, 10.8, 13.9, 17.2, 20.8, 24.5, 28.5, 32.7]

/-- The force of a wind: how many thresholds it reaches, from the lowest on. -/
def force (mps : Float) : Nat := (thresholds.takeWhile (· ≤ mps)).length

/-- The name of a force. -/
def forceName : Nat → String
  | 0 => "Calm"
  | 1 => "Light air"
  | 2 => "Light breeze"
  | 3 => "Gentle breeze"
  | 4 => "Moderate breeze"
  | 5 => "Fresh breeze"
  | 6 => "Strong breeze"
  | 7 => "Near gale"
  | 8 => "Gale"
  | 9 => "Strong gale"
  | 10 => "Storm"
  | 11 => "Violent storm"
  | _ => "Hurricane"

/-- What a wind is called. -/
def description (mps : Float) : String := forceName (force mps)

end Beaufort

/-! ## Points of the compass -/

namespace Compass

/-- The points from north on clockwise, in full and in letters. -/
def points : List (String × String) :=
  [("North", "N"), ("North-Northeast", "NNE"), ("Northeast", "NE"), ("East-Northeast", "ENE"),
   ("East", "E"), ("East-Southeast", "ESE"), ("Southeast", "SE"), ("South-Southeast", "SSE"),
   ("South", "S"), ("South-Southwest", "SSW"), ("Southwest", "SW"), ("West-Southwest", "WSW"),
   ("West", "W"), ("West-Northwest", "WNW"), ("Northwest", "NW"), ("North-Northwest", "NNW")]

/-- The sector of a bearing: sectors of 22.5 degrees, the first of them centred on north. -/
def sector (bearing : Float) : Nat :=
  (Decimal.floor64 ((bearing + 11.25) / 22.5) % 16).toNat

/-- The point of the compass nearest to a bearing. -/
def point (bearing : Float) (abbreviated : Bool) : String :=
  let (long, short) := points.getD (sector bearing) ("North", "N")
  if abbreviated then short else long

end Compass

/-! ## Texts -/

namespace Wind

/-- A wind speed in a unit; in Beaufort, its force. -/
def value (mps : Float) : WindSpeedUnit → Float
  | .mps => mps
  | .mph => Decimal.roundTo (mps * 2.23694) 1
  | .knots => Decimal.roundTo (mps * 1.94384) 1
  | .kmh => Decimal.roundTo (mps * 3.6) 1
  | .beaufort => Float.ofNat (Beaufort.force mps)

/-- A wind speed with the sign of its unit. -/
def speedText (mps : Float) (unit : WindSpeedUnit) : String :=
  let number := Decimal.text (value mps unit)
  match unit with
  | .mps => number ++ thinSpace ++ "meter/s"
  | .mph => number ++ thinSpace ++ "mph"
  | .knots => number ++ thinSpace ++ "knots"
  | .kmh => number ++ thinSpace ++ "km/h"
  | .beaufort => "Beaufort " ++ number

/-- A whole description such as `Gentle breeze, 14.4 km/h from Southwest (225°)`. -/
def text (direction : Int) (mps : Float) (unit : WindSpeedUnit) (abbreviated degree : Bool) :
    String :=
  Beaufort.description mps ++ ", " ++ speedText mps unit ++ " from " ++
    Compass.point (Float.ofInt direction) abbreviated ++
    (if degree then " (" ++ Decimal.intText direction ++ "°)" else "")

end Wind

end PlaceWeather
