import PlaceWeather.Decimal.Notation
import PlaceWeather.Decimal.Reading
import PlaceWeather.Settings.Basic
import PlaceWeather.Settings.Value

/-!
# Settings from values

Settings are taken out of a tree of untyped values: what is missing keeps its standard choice, what
is not known is passed over, and what does not fit is refused.  There are two ways to fit: exactly,
or with the conversions that configuration files and the environment are used to.
-/

namespace PlaceWeather

/-- What counts as a truth value, a number, a text and a choice. -/
structure Fitting where
  bool? : SettingValue → Option Bool
  /-- A whole number below a bound. -/
  whole? : (bound : Nat) → SettingValue → Option Nat
  text? : SettingValue → Option String
  /-- One of some names. -/
  choice? : (names : List String) → SettingValue → Option String
  /-- Whether a list may hold more than the members of a table in order. -/
  longLists : Bool

namespace Fitting

/-- A whole number within bounds. -/
def inBound (bound : Nat) (n : Int) : Option Nat :=
  if 0 ≤ n ∧ n < bound then some n.toNat else none

/-! ## Exactly -/

/-- A choice by its name, or by a table whose only member has the name and no value. -/
def exactChoice? (names : List String) : SettingValue → Option String
  | .text s | .table [(s, .nothing)] => names.find? (· == s)
  | _ => none

/-- Everything has the type that is asked for. -/
def exact : Fitting where
  bool?
    | .bool b => some b
    | _ => none
  whole? bound
    | .whole n => inBound bound n
    | _ => none
  text?
    | .text s => some s
    | _ => none
  choice? := exactChoice?
  longLists := false

/-! ## With conversions -/

/-- A letter in lower case; the sign of the unit kelvin is a letter `K` too. -/
def lowerLetter (c : Char) : Char := if c = Char.ofNat 0x212A then 'k' else c.toLower

/-- A text with its letters in lower case. -/
def lowerCase (s : String) : String := String.ofList (s.toList.map lowerLetter)

/-- Texts that are equal but for the case of their letters. -/
def sameLetters (a b : String) : Bool := lowerCase a == lowerCase b

/-- The words for true and false. -/
def word? (s : String) : Option Bool :=
  if ["true", "on", "yes"].any (sameLetters s) then some true
  else if ["false", "off", "no"].any (sameLetters s) then some false
  else none

/-- A truth value: a number other than zero is true, and a text is one of some words or a digit. -/
def looseBool? : SettingValue → Option Bool
  | .bool b => some b
  | .whole n => some (n != 0)
  | .number x => some (x != 0.0)
  | .text s => (word? s).or (if s = "1" then some true else if s = "0" then some false else none)
  | _ => none

/-- A number to the nearest whole number of 64 bits that is not negative, a half going up. -/
def roundNat (x : Float) : Nat :=
  (Decimal.toWhole (fun _ num den => Decimal.Binary.roundDivUp num den) 0
    ((Decimal.natBound64 : Int) - 1) x).toNat

/-- A whole number: other numbers are rounded, truth values count as 1 and 0, and a text is a word
for a truth value or spells a number. -/
def looseWhole? (bound : Nat) (v : SettingValue) : Option Nat :=
  let n? : Option Int :=
    match v with
    | .whole n => some n
    | .bool b => some (if b then 1 else 0)
    | .number x => some (roundNat x)
    | .text s =>
      match word? s with
      | some b => some (if b then 1 else 0)
      | none => (Decimal.readNat? s.toList).map Int.ofNat
    | _ => none
  n?.bind (inBound bound)

/-- A text: numbers and truth values count as their texts. -/
def looseText? : SettingValue → Option String
  | .text s => some s
  | .bool b => some (if b then "true" else "false")
  | .whole n => some (Decimal.intText n)
  | .number x => some (Decimal.text x)
  | _ => none

/-- A choice by its name in any case, or by a table whose only member has the name. -/
def looseChoice? (names : List String) : SettingValue → Option String
  | .text s | .table [(s, _)] => names.find? (sameLetters s)
  | _ => none

/-- Values are converted where that makes sense. -/
def loose : Fitting where
  bool? := looseBool?
  whole? := looseWhole?
  text? := looseText?
  choice? := looseChoice?
  longLists := true

/-! ## Members -/

/-- The members of a table; a list gives the values of the members in order. -/
def members? (f : Fitting) (keys : List String) :
    SettingValue → Option (List (String × SettingValue))
  | .table members => some members
  | .list items =>
    if f.longLists || decide (items.length ≤ keys.length) then some (keys.zip items) else none
  | _ => none

/-- What a member gives, or the standard choice when it is missing. -/
def member? {α : Type} (members : List (String × SettingValue)) (key : String) (standard : α)
    (fit : SettingValue → Option α) : Option α :=
  match SettingValue.lookup key members with
  | some v => fit v
  | none => some standard

/-- A text that may be given as nothing. -/
def optionalText? (f : Fitting) : SettingValue → Option (Option String)
  | .nothing => some none
  | v => (f.text? v).map some

/-- A unit by its name. -/
def unit? {α : Type} (f : Fitting) (all : List α) (name : α → String) (v : SettingValue) :
    Option α :=
  (f.choice? (all.map name) v).bind fun s => all.find? (name · == s)

/-- How feeds are downloaded. -/
def feed? (f : Fitting) (d : FeedSettings) (v : SettingValue) : Option FeedSettings := do
  let ms ← f.members? ["base_url", "timeout_seconds", "max_retries"] v
  pure {
    baseUrl := ← member? ms "base_url" d.baseUrl f.text?
    timeout := ← member? ms "timeout_seconds" d.timeout (f.whole? Decimal.natBound64)
    retries := ← member? ms "max_retries" d.retries (f.whole? Decimal.natBound32) }

/-- Where the store is. -/
def store? (f : Fitting) (standard : String) (v : SettingValue) : Option String := do
  let ms ← f.members? ["location"] v
  member? ms "location" standard f.text?

/-- What is logged. -/
def logging? (f : Fitting) (d : LogSettings) (v : SettingValue) : Option LogSettings := do
  let ms ← f.members? ["level", "format"] v
  pure {
    level := ← member? ms "level" d.level f.text?
    format := ← member? ms "format" d.format f.text? }

/-- The members of the table that says what is shown, in order. -/
def displayKeys : List String :=
  ["temperature", "windspeed", "pressure", "show_sunrise_sunset", "show_windchill_temperature",
   "show_abbreviated_directions", "show_directions_degree", "forecast_days", "image_directory",
   "default_image_directory"]

/-- What is shown. -/
def display? (f : Fitting) (d : Display) (v : SettingValue) : Option Display := do
  let ms ← f.members? displayKeys v
  pure {
    temperature := ← member? ms "temperature" d.temperature
      (f.unit? TemperatureUnit.all TemperatureUnit.name)
    windSpeed := ← member? ms "windspeed" d.windSpeed
      (f.unit? WindSpeedUnit.all WindSpeedUnit.name)
    pressure := ← member? ms "pressure" d.pressure (f.unit? PressureUnit.all PressureUnit.name)
    showSun := ← member? ms "show_sunrise_sunset" d.showSun f.bool?
    showWindchill := ← member? ms "show_windchill_temperature" d.showWindchill f.bool?
    abbreviateDirections := ←
      member? ms "show_abbreviated_directions" d.abbreviateDirections f.bool?
    showDegrees := ← member? ms "show_directions_degree" d.showDegrees f.bool?
    days := ← member? ms "forecast_days" d.days (f.whole? Decimal.natBound32)
    icons :=
      { custom := ← member? ms "image_directory" d.icons.custom f.optionalText?
        bundled := ← member? ms "default_image_directory" d.icons.bundled f.text? } }

/-- Settings from a value, given the standard ones. -/
def settings? (f : Fitting) (d : Settings) (v : SettingValue) : Option Settings := do
  let ms ← f.members? ["feed", "store", "logging", "display"] v
  pure {
    feed := ← member? ms "feed" d.feed (f.feed? d.feed)
    storeLocation := ← member? ms "store" d.storeLocation (f.store? d.storeLocation)
    logging := ← member? ms "logging" d.logging (f.logging? d.logging)
    display := ← member? ms "display" d.display (f.display? d.display) }

end Fitting

end PlaceWeather
