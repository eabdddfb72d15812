import PlaceWeather.CommandLine.Command

/-!
# Help

What is written when help or the version is asked for.
-/

namespace PlaceWeather.CommandLine

/-- The name of the program. -/
def program : String := "yrweather"

/-- What is written about the version. -/
def versionText : String := program ++ " 0.1.0\n"

/-- Lines as a text. -/
def unlines (lines : List String) : String := String.join (lines.map (· ++ "\n"))

/-- What the command that adds a place does. -/
def addPlaceSummary : String :=
  "Add a place from its yr.no page, e.g. https://www.yr.no/place/Germany/Hamburg/Hamburg/"

/-- What the command that gives help does. -/
def helpSummary : String := "Print this message or the help of the given subcommand(s)"

/-- Lines about things and what is said about each, the latter in a column; a thing about which
nothing is said is padded to the column too. -/
def column (entries : List (String × String)) : List String :=
  let width := (entries.map (·.1.length)).foldl max 0
  entries.map fun (thing, said) => "  " ++ Text.padEnd width thing ++ "  " ++ said

/-- The option that names the settings file, which the environment may name too. -/
def configEntry (fromEnvironment : Option String) : String × String :=
  ("-c, --config <CONFIG>",
    "Configuration file (TOML) [env: YRWEATHER_CONFIG=" ++ fromEnvironment.getD "" ++ "]")

/-- The switch for more log lines. -/
def verboseEntry : String × String := ("-v, --verbose", "Enable debug logging")

/-- The switch for help. -/
def helpEntry : String × String := ("-h, --help", "Print help")

/-- The help about the whole program. -/
def programHelp (config : String × String) : List String :=
  ["Weather forecasts for places from yr.no", "", "Usage: yrweather [OPTIONS] <COMMAND>", "",
   "Commands:"] ++
  column
    [("show", "Show the forecast of a place, refreshing it if due"),
     ("add-place", addPlaceSummary),
     ("seed-place", "Register a place without downloading its forecast"),
     ("refresh", "Refresh places whose download is due"),
     ("help", helpSummary)] ++
  ["", "Options:"] ++
  column [config, verboseEntry, helpEntry, ("-V, --version", "Print version")]

/-- The help about a command: what it does, how it is called, its arguments and its options. -/
def page (summary usage : String) (arguments options : List (String × String)) : List String :=
  [summary, "", "Usage: yrweather " ++ usage, "", "Arguments:"] ++ column arguments ++
  (if options.isEmpty then [] else ["", "Options:"] ++ column options)

/-- The help about a command. -/
def commandHelp (config : String × String) : CommandName → List String
  | .report =>
    page "Show the forecast of a place, refreshing it if due" "show [OPTIONS] <GEOID>"
      [("<GEOID>", "Place id, e.g. geonames_2911298")]
      [config,
       ("-d, --days <DAYS>", "Number of days, 0 for all available"),
       ("    --detailed", "Every time range instead of one per day"),
       verboseEntry,
       ("    --json", "Print JSON instead of text"),
       helpEntry]
  | .addPlace =>
    page addPlaceSummary "add-place [OPTIONS] <URL>" [("<URL>", "")]
      [config, verboseEntry, helpEntry]
  | .seedPlace =>
    page "Register a place without downloading its forecast"
      ("seed-place [OPTIONS] --latitude <LATITUDE> --longitude <LONGITUDE> " ++
        "--country <COUNTRY> --name <NAME> --link <LINK> <GEOID>")
      [("<GEOID>", "")]
      [config,
       ("    --latitude <LATITUDE>", ""),
       ("    --longitude <LONGITUDE>", ""),
       verboseEntry,
       ("    --country <COUNTRY>", ""),
       ("    --name <NAME>", ""),
       ("    --link <LINK>", "Feed path below the country, e.g. Hamburg/Hamburg"),
       helpEntry]
  | .refresh =>
    page "Refresh places whose download is due" "refresh [OPTIONS] <GEOIDS>..."
      [("<GEOIDS>...", "")]
      [config,
       ("    --every <SECONDS>", "Repeat every SECONDS instead of running once"),
       verboseEntry,
       helpEntry]

/-- The help about a topic. -/
def helpText (fromEnvironment : Option String) (topic : HelpTopic) : String :=
  let config := configEntry fromEnvironment
  unlines (match topic with
    | .program => programHelp config
    | .command name => commandHelp config name
    | .help =>
      page helpSummary "help [COMMAND]..."
        [("[COMMAND]...", "Print help for the subcommand(s)")] [])

end PlaceWeather.CommandLine
