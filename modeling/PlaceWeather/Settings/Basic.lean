import PlaceWeather.Address
import PlaceWeather.Display

/-!
# Settings

Everything that can be chosen: where feeds come from, where the store is, what is logged and what
is shown.  Empty texts and a timeout of nothing stand for the standard choice (`withDefaults`), and
some choices are refused (`check`).
-/

namespace PlaceWeather

/-- How feeds are downloaded. -/
structure FeedSettings where
  baseUrl : String
  /-- Seconds. -/
  timeout : Nat
  /-- Attempts after the first within one download. -/
  retries : Nat
  deriving DecidableEq, Repr

/-- What is logged and how. -/
structure LogSettings where
  level : String
  format : String
  deriving DecidableEq, Repr

/-- All settings. -/
structure Settings where
  feed : FeedSettings
  /-- The directory of the store. -/
  storeLocation : String
  logging : LogSettings
  display : Display
  deriving DecidableEq, Repr

namespace Settings

/-! ## Standard choices -/

/-- The standard timeout in seconds. -/
def standardTimeout : Nat := 10
/-- The standard number of further attempts. -/
def standardRetries : Nat := 2
/-- The standard log level. -/
def standardLevel : String := "info"
/-- The standard log format. -/
def standardFormat : String := "pretty"

/-- The settings when nothing is chosen, given where the store then is. -/
def standard (storeLocation : String) : Settings where
  feed := ⟨Address.standardBase, standardTimeout, standardRetries⟩
  storeLocation
  logging := ⟨standardLevel, standardFormat⟩
  display := .standard

/-- A text, or another one in its place when it is empty. -/
def orElse (s standard : String) : String := if s.isEmpty then standard else s

/-- The settings with the standard choice where there is none. -/
def withDefaults (s : Settings) (storeLocation : String) : Settings where
  feed :=
    { s.feed with
      baseUrl := orElse s.feed.baseUrl Address.standardBase
      timeout := if s.feed.timeout = 0 then standardTimeout else s.feed.timeout }
  storeLocation := orElse s.storeLocation storeLocation
  logging := ⟨orElse s.logging.level standardLevel, orElse s.logging.format standardFormat⟩
  display :=
    { s.display with
      icons :=
        { s.display.icons with bundled := orElse s.display.icons.bundled Display.bundledIcons } }

/-! ## Choices that are refused -/

/-- The longest timeout in seconds. -/
def maxTimeout : Nat := 300
/-- The most further attempts. -/
def maxRetries : Nat := 10
/-- The log levels. -/
def levels : List String := ["error", "warn", "info", "debug", "trace"]
/-- The log formats. -/
def formats : List String := ["pretty", "json"]

/-- What is said about a choice that is none of several. -/
def noneOf (what chosen : String) (choices : List String) : String :=
  "Invalid " ++ what ++ " '" ++ chosen ++ "'. Must be one of: " ++ String.intercalate ", " choices

/-- How the address of a server begins. -/
def isWebAddress (url : String) : Bool :=
  Text.startsWith "http://".toList url.toList || Text.startsWith "https://".toList url.toList

/-- Why settings are refused; the first reason in the order timeout, attempts, level, format, base
address. -/
def refusal? (s : Settings) : Option String :=
  if maxTimeout < s.feed.timeout then some "Feed timeout cannot exceed 300 seconds"
  else if maxRetries < s.feed.retries then some "Feed max retries cannot exceed 10"
  else if !levels.contains s.logging.level then
    some (noneOf "log level" s.logging.level levels)
  else if !formats.contains s.logging.format then
    some (noneOf "log format" s.logging.format formats)
  else if !isWebAddress s.feed.baseUrl then
    some "Feed base URL must be a valid HTTP or HTTPS URL"
  else none

/-- Settings that are not refused. -/
def check (s : Settings) : Except WeatherError Settings :=
  match s.refusal? with
  | none => .ok s
  | some reason => .error (.configuration reason)

end Settings

end PlaceWeather
