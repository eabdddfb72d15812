import PlaceWeather.Decimal.Reading

/-!
# Weather conditions

A symbol such as `03n` begins with the number of a condition; what follows (day or night, a
variant) does not change its name.
-/

namespace PlaceWeather.Condition

/-- What a symbol without a known number is called. -/
def noData : String := "No data"

/-- The name of a condition number. -/
def name : Nat → String
  | 1 => "Clear sky"
  | 2 => "Fair"
  | 3 => "Partly cloudy"
  | 4 => "Cloudy"
  | 5 => "Rain showers"
  | 6 => "Rain showers and thunder"
  | 7 => "Sleet showers"
  | 8 => "Snow showers"
  | 9 => "Rain"
  | 10 => "Heavy rain"
  | 11 => "Heavy rain and thunder"
  | 12 => "Sleet"
  | 13 => "Snow"
  | 14 => "Snow and thunder"
  | 15 => "Fog"
  | 20 => "Sleet showers and thunder"
  | 21 => "Snow showers and thunder"
  | 22 => "Rain and thunder"
  | 23 => "Sleet and thunder"
  | 24 => "Light rain showers and thunder"
  | 25 => "Heavy rain showers and thunder"
  | 26 => "Light sleet showers and thunder"
  | 27 => "Heavy sleet showers and thunder"
  | 28 => "Light snow showers and thunder"
  | 29 => "Heavy snow showers and thunder"
  | 30 => "Light rain and thunder"
  | 31 => "Light sleet and thunder"
  | 32 => "Heavy sleet and thunder"
  | 33 => "Light snow and thunder"
  | 34 => "Heavy snow and thunder"
  | 40 => "Light rain showers"
  | 41 => "Heavy rain showers"
  | 42 => "Light sleet showers"
  | 43 => "Heavy sleet showers"
  | 44 => "Light snow showers"
  | 45 => "Heavy snow showers"
  | 46 => "Light rain"
  | 47 => "Light sleet"
  | 48 => "Heavy sleet"
  | 49 => "Light snow"
  | 50 => "Heavy snow"
  | _ => noData

/-- The digits among the first two characters of a symbol, up to the first that is none. -/
def leadingDigits (symbol : String) : List Char :=
  (symbol.toList.take 2).takeWhile Decimal.isDigit

/-- The name of a symbol's condition. -/
def label (symbol : String) : String :=
  match leadingDigits symbol with
  | [] => noData
  | ds => name (Decimal.natOfDigits ds)

end PlaceWeather.Condition
