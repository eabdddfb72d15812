import PlaceWeather.CommandLine.Run
import PlaceWeather.Store.Saved
import Std.Time.DateTime.Timestamp

/-!
# The program

The outermost layer: arguments, environment, clock and files.  Downloads need a network client,
which this program does not have, so every download fails as one without a route does.
-/

namespace PlaceWeather.Program

/-- The names of the environment variables that are looked at. -/
def variableNames : List String :=
  let lead := "YRWEATHER_"
  let keys (group : String) (names : List String) : List String :=
    (lead ++ group) :: names.map fun name => lead ++ group ++ "__" ++ name.toUpper
  ["HOME", "XDG_CACHE_HOME", "XDG_CONFIG_HOME", CommandLine.Surroundings.settingsVariable] ++
    keys "FEED" ["base_url", "timeout_seconds", "max_retries"] ++ keys "STORE" ["location"] ++
    keys "LOGGING" ["level", "format"] ++ keys "DISPLAY" Fitting.displayKeys

/-- The environment. -/
def environment : IO Environment := do
  let found ← variableNames.filterMapM fun name => do
    return (← IO.getEnv name).map (name, ·)
  return Table.ofList found

/-- The present. -/
def clock : IO Instant := do
  let now ← Std.Time.Timestamp.now
  return (Instant.ofUnix? now.toSecondsSinceUnixEpoch.val).getD ⟨LocalTime.midnight default⟩

/-- The text of a file, if it can be read. -/
def file? (path : String) : IO (Option String) := do
  try
    return some (← IO.FS.readFile path)
  catch _ =>
    return none

/-- The file in which the store is kept. -/
def storeFile (settings : Settings) : String := Path.join settings.storeLocation "store.toml"

/-- The saved store, or an empty one when there is none; none when its directory cannot be made or
it cannot be read. -/
def savedStore (settings : Settings) : IO (Option Store) := do
  try
    IO.FS.createDirAll settings.storeLocation
    match ← file? (storeFile settings) with
    | none => return some .indexed
    | some text => return SavedStore.read? text
  catch _ =>
    return none

/-- Saves the store. -/
def save (settings : Settings) (store : Store) : IO Unit :=
  IO.FS.writeFile (storeFile settings) (SavedStore.text store)

/-- The icons that can be read in the user's own directory. -/
def ownIcons (settings : Settings) (store : Store) : IO (List String) := do
  match settings.display.icons.custom with
  | none => return []
  | some directory =>
    let symbols := store.forecasts.values.flatMap fun set => set.values.map (·.symbol)
    let paths := symbols.map fun symbol => Path.join directory (IconDirectories.fileName symbol)
    paths.filterM fun path => do
      try
        let _ ← IO.FS.readBinFile path
        return true
      catch _ =>
        return false

/-- Writes what a run ends with, and gives its exit code. -/
def finish (outcome : CommandLine.Outcome) : IO UInt32 := do
  let out ← IO.getStdout
  out.putStr outcome.output
  out.flush
  if let some message := outcome.message then IO.eprintln message
  return UInt32.ofNat outcome.exit

/-- Performs a command once. -/
def perform (settings : Settings) (command : CommandLine.Command)
    (surroundings : CommandLine.Surroundings) : IO UInt32 := do
  match ← savedStore settings with
  | none => finish .ofClosedStore
  | some store =>
    let icons ← ownIcons settings store
    let surroundings := { surroundings with readable := fun path => icons.contains path }
    let action := CommandLine.output settings surroundings command
    let (outcome, station) := action.runAt (.start store Web.empty)
    save settings station.store
    finish (.ofCommand outcome)

/-- The seconds to wait before a command is performed again, if it is. -/
def repetition? : CommandLine.Command → Option Nat
  | .refresh _ (some seconds) => some (max seconds 1)
  | _ => none

end PlaceWeather.Program

open PlaceWeather in
/-- Runs a command line. -/
def main (args : List String) : IO UInt32 := do
  let environment ← Program.environment
  let named :=
    match CommandLine.request args with
    | .perform _ named _ => named.chosen?
    | _ => none
  let paths := CommandLine.Surroundings.settingsPaths environment named
  let texts ← paths.filterMapM fun path => return (← Program.file? path).map (path, ·)
  let surroundings : CommandLine.Surroundings := {
    environment
    store? := fun _ => none
    file? := fun path => texts.lookup path
    readable := fun _ => false
    clock := ← Program.clock }
  match CommandLine.prepare args surroundings with
  | .error outcome => Program.finish outcome
  | .ok (settings, command) =>
    let mut code ← Program.perform settings command surroundings
    if let some seconds := Program.repetition? command then
      repeat
        IO.sleep (UInt32.ofNat (min (1000 * seconds) 4294967295))
        code ← Program.perform settings command { surroundings with clock := ← Program.clock }
    return code
