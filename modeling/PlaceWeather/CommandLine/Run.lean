import PlaceWeather.CommandLine.Help
import PlaceWeather.Report.Text
import PlaceWeather.Settings.Sources
import PlaceWeather.Station.Adding
import PlaceWeather.Station.Weather

/-!
# Running commands

A command line is run with a store and a web: the settings are loaded, the store is opened where
they say, the command is performed, and its output is written only when it succeeds.  The exit code
is 2 when the command line makes no sense and 1 when something failed, which is then said in one
line for the user.
-/

namespace PlaceWeather.CommandLine

/-- What a run ends with. -/
structure Outcome where
  exit : Nat
  output : String
  /-- What is said about a failure. -/
  message : Option String
  deriving DecidableEq, Repr

namespace Outcome

/-- A run that succeeded. -/
def success (output : String) : Outcome := ⟨0, output, none⟩

/-- A run whose command line makes no sense. -/
def misuse : Outcome := ⟨2, "", none⟩

/-- A run that failed. -/
def failure (message : String) : Outcome := ⟨1, "", some message⟩

/-- A run that could not go on because a date left the calendar. -/
def aborted : Outcome := ⟨101, "", none⟩

/-- A run that failed because there were no settings. -/
def ofLoadError : LoadError → Outcome
  | .refused e => failure e.userMessage
  | e => failure ("Error: " ++ e.message)

/-- A run that ended with the outcome of a command. -/
def ofCommand : Except Fault String → Outcome
  | .ok output => success output
  | .error (.error e) => failure e.userMessage
  | .error .offCalendar => aborted

end Outcome

/-- What a run meets outside. -/
structure Surroundings where
  environment : Environment
  /-- The store at a location; none when it cannot be opened there. -/
  store? : String → Option Store
  /-- The text of a file, if there is one. -/
  file? : String → Option String
  /-- Whether there is a file that can be read. -/
  readable : String → Bool
  clock : Instant

namespace Surroundings

/-- The variable that names the settings file. -/
def settingsVariable : String := "YRWEATHER_CONFIG"

/-- Where the settings file is: the one named on the command line, or by the environment, or the one
at its usual place. -/
def settingsPath? (environment : Environment) (named : Option String) : Option String :=
  (named.or (environment.get? settingsVariable)).or environment.settingsFile?

/-- The names under which the settings file is looked for, in order. -/
def settingsPaths (environment : Environment) (named : Option String) : List String :=
  ((settingsPath? environment named).map Settings.fileNames).getD []

/-- The text of the settings file, if there is one. -/
def settingsText? (s : Surroundings) (named : Option String) : Option String :=
  (settingsPaths s.environment named).findSome? s.file?

/-- Whether the environment names the settings file by an empty text where the command line names
none: before the command or behind it. -/
def namesNothing (s : Surroundings) (named : NamedFiles) : Bool :=
  (named.before.isNone || named.behind.isNone) &&
    s.environment.get? settingsVariable == some ""

end Surroundings

/-- The output of a command. -/
def output (settings : Settings) (s : Surroundings) : Command → Action String
  | .report geoid days detailed json => do
    let p : Presenter := {
      display := settings.display
      baseUrl := settings.feed.baseUrl
      readable := s.readable }
    let report ← Action.report p geoid (days.getD settings.display.days) detailed s.clock
    pure (if json then report.json.text ++ "\n" else report.text)
  | .addPlace url => do
    let place ← Action.addPlace url
    pure ("Added " ++ place.text ++ "\n")
  | .seedPlace place => do
    Action.seedPlace place
    pure ("Registered " ++ place.text ++ "\n")
  | .refresh geoids _ => do
    let _ ← Action.sweep settings.feed.baseUrl s.clock geoids
    pure ""

/-- The settings of a command line, and the command; the outcome when there is nothing to
perform. -/
def prepare (words : List String) (s : Surroundings) : Except Outcome (Settings × Command) :=
  match request words with
  | .misuse => .error .misuse
  | .version => .error (.success versionText)
  | .help topic =>
    .error (.success (helpText (s.environment.get? Surroundings.settingsVariable) topic))
  | .perform command named _ =>
    if s.namesNothing named then .error .misuse
    else
      match Settings.load (s.settingsText? named.chosen?) s.environment with
      | .ok settings => .ok (settings, command)
      | .error e => .error (.ofLoadError e)

/-- A run that failed because the store could not be opened. -/
def Outcome.ofClosedStore : Outcome := .failure (WeatherError.store "not opened").userMessage

/-- Runs a command line.  When it comes to a command, the store after it is given too, with its
location. -/
def run (words : List String) (s : Surroundings) (web : Web) : Outcome × Option (String × Store) :=
  match prepare words s with
  | .error outcome => (outcome, none)
  | .ok (settings, command) =>
    match s.store? settings.storeLocation with
    | none => (.ofClosedStore, none)
    | some store =>
      let (outcome, station) := (output settings s command).runAt (.start store web)
      (.ofCommand outcome, some (settings.storeLocation, station.store))

end PlaceWeather.CommandLine
