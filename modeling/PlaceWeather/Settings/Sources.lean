import PlaceWeather.Settings.Decode
import PlaceWeather.Settings.Path
import PlaceWeather.Table
import PlaceWeather.Toml.Document

/-!
# Where settings come from

Settings are read from a file, over which the environment is laid; then standard choices are filled
in and the result is checked.
-/

namespace PlaceWeather

/-- The variables of an environment, by name. -/
abbrev Environment := Table String String

/-- Why no settings could be had. -/
inductive LoadError where
  /-- The file is no TOML. -/
  | unreadable
  /-- A value does not fit. -/
  | unfit
  /-- The settings are refused. -/
  | refused (e : WeatherError)
  deriving DecidableEq, Repr

/-- The wording of an error for operators. -/
def LoadError.message : LoadError → String
  | unreadable => "Failed to build configuration"
  | unfit => "Failed to deserialize configuration"
  | refused e => e.message

namespace Environment

/-! ## Directories -/

/-- The name of the program's own directories. -/
def programDirectory : String := "yrweather"

/-- The user's directory of a kind: the one that a variable names by an absolute path, or else one
below the home directory. -/
def userDirectory? (env : Environment) (name fallback : String) : Option String :=
  match (env.get? name).filter (·.toList.head? == some '/') with
  | some directory => some directory
  | none => ((env.get? "HOME").filter (!·.isEmpty)).map (Path.join · fallback)

/-- Where the store is when nothing is chosen. -/
def storeLocation (env : Environment) : String :=
  match env.userDirectory? "XDG_CACHE_HOME" ".cache" with
  | some directory => Path.join directory programDirectory
  | none => "." ++ programDirectory

/-- Where the configuration file is when none is named. -/
def settingsFile? (env : Environment) : Option String :=
  (env.userDirectory? "XDG_CONFIG_HOME" ".config").map fun directory =>
    Path.join (Path.join directory programDirectory) "config.toml"

/-! ## Variables as settings -/

/-- How the names of variables that hold settings begin, in lower case. -/
def lead : String := "yrweather_"

/-- A name with points for pairs of underscores. -/
def withPoints : List Char → List Char
  | '_' :: '_' :: cs => '.' :: withPoints cs
  | c :: cs => c :: withPoints cs
  | [] => []

/-- The key of the setting that a variable holds, by its name in any case. -/
def settingKey? (name : String) : Option String :=
  (Text.stripStart? lead.toList (name.toList.map Fitting.lowerLetter)).map fun cs =>
    String.ofList (withPoints cs)

/-- The value that the text of a variable spells. -/
def settingValue (s : String) : SettingValue :=
  let lower := Text.lowerAscii s
  if lower = "true" then .bool true
  else if lower = "false" then .bool false
  else
    let whole? := (Decimal.readInt? s.toList).filter fun n =>
      decide (Decimal.int64Min ≤ n ∧ n ≤ Decimal.int64Max)
    match whole?, Decimal.read? s.toList with
    | some n, _ => .whole n
    | none, some x => .number x
    | none, none => .text s

/-- The settings in an environment, by their keys. -/
def settings (env : Environment) : List (String × SettingValue) :=
  env.entries.filterMap fun (name, s) => (settingKey? name).map (·, settingValue s)

end Environment

namespace Settings

/-! ## Files -/

/-- The names under which a settings file is looked for: the one that is given, and the same with an
ending, unless it names a directory. -/
def fileNames (path : String) : List String :=
  match Path.lastName? path with
  | some _ => [path, Path.withoutTail path ++ ".toml"]
  | none => [path]

/-! ## Sources over each other -/

/-- The members of a source laid over a value, their keys taken as paths. -/
def layOver (root : SettingValue) (members : List (String × SettingValue)) : SettingValue :=
  members.foldl (fun root (key, v) => root.putAt v (PathStep.ofKey key)) root

/-- Settings from the text of a file, if there is one, and an environment.  The case of letters in
the keys of either does not count. -/
def load (file : Option String) (env : Environment) : Except LoadError Settings := do
  let members ←
    match file with
    | none => pure []
    | some text =>
      match Toml.read? text with
      | some members => pure members
      | none => throw .unreadable
  let members := SettingValue.mapKeysMembers Fitting.lowerCase members
  let root := layOver (layOver .empty members) env.settings
  match Fitting.loose.settings? (standard env.storeLocation) root with
  | none => throw .unfit
  | some settings =>
    ((settings.withDefaults env.storeLocation).check).mapError LoadError.refused

end Settings

end PlaceWeather
