/-!
# Errors

What can go wrong, by cause, with the wording for operators (`message`) and for users
(`userMessage`).  Only failures of a download are absorbed by the refresh schedule
(`recoverable`).  A `Fault` is an error, or arithmetic that left the calendar, after which there is
no answer at all.
-/

namespace PlaceWeather

/-- A failure by cause. -/
inductive WeatherError where
  /-- The network failed, or the server refused, or time ran out. -/
  | transport (detail : String)
  /-- A downloaded document is no forecast feed. -/
  | malformed (detail : String)
  /-- A place is required and not known. -/
  | unknownPlace (geoid : String)
  /-- Input that cannot be accepted. -/
  | invalid (detail : String)
  /-- The record store failed. -/
  | store (detail : String)
  /-- The configuration is wrong. -/
  | configuration (detail : String)
  /-- A file operation failed. -/
  | file (detail : String)
  deriving DecidableEq, Repr

namespace WeatherError

/-- The wording for operators. -/
def message : WeatherError → String
  | transport detail => "Transport error: " ++ detail
  | malformed detail => "Malformed document: " ++ detail
  | unknownPlace geoid => "Unknown place: " ++ geoid
  | invalid detail => "Invalid input: " ++ detail
  | store detail => "Store error: " ++ detail
  | configuration detail => "Configuration error: " ++ detail
  | file detail => "I/O error: " ++ detail

/-- The wording for users: what to do, and the detail only where the user gave it. -/
def userMessage : WeatherError → String
  | transport _ => "Unable to download the forecast. Please check your internet connection."
  | malformed _ => "The forecast provider returned data that could not be read."
  | unknownPlace geoid => "No place is known with id " ++ geoid ++ "."
  | invalid detail => "Invalid input: " ++ detail
  | store _ => "Storage operation failed. You may need to clear the forecast store."
  | configuration _ => "Configuration error. Please check your config file."
  | file _ => "File operation failed. Please check file permissions."

/-- Whether the refresh schedule absorbs the failure by trying again later. -/
def recoverable : WeatherError → Bool
  | transport _ | malformed _ => true
  | _ => false

end WeatherError

/-- Why an operation gives no answer. -/
inductive Fault where
  /-- A failure that is reported. -/
  | error (e : WeatherError)
  /-- A date left the calendar. -/
  | offCalendar
  deriving DecidableEq, Repr

/-- An outcome that can only be reported, as one that may also leave the calendar. -/
def Fault.ofError {α : Type} (outcome : Except WeatherError α) : Except Fault α :=
  outcome.mapError Fault.error

/-- The result of calendar arithmetic, as an outcome. -/
def Fault.onCalendar {α : Type} : Option α → Except Fault α
  | some a => .ok a
  | none => .error .offCalendar

end PlaceWeather
