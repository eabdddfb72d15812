import PlaceWeather.CommandLine.Items
import PlaceWeather.Place

/-!
# Commands

What a command line asks for.  The words are looked at in order; the first that makes no sense, or
a request for help, decides, and only then is it asked whether something is missing.
-/

namespace PlaceWeather.CommandLine

/-- A command with what it works on. -/
inductive Command where
  | report (geoid : String) (days : Option Nat) (detailed json : Bool)
  | addPlace (url : String)
  | seedPlace (place : Place)
  /-- Refreshes places, again after every so many seconds when a number is given. -/
  | refresh (geoids : List String) (every : Option Nat)
  deriving DecidableEq

/-- The name of a command. -/
inductive CommandName where
  | report
  | addPlace
  | seedPlace
  | refresh
  deriving DecidableEq, Repr

/-- What help is about. -/
inductive HelpTopic where
  | program
  | command (name : CommandName)
  /-- The command that gives help. -/
  | help
  deriving DecidableEq, Repr

/-- The settings files that are named before a command and behind it. -/
structure NamedFiles where
  before : Option String
  behind : Option String
  deriving DecidableEq, Repr

/-- The settings file that counts. -/
def NamedFiles.chosen? (named : NamedFiles) : Option String := named.behind.or named.before

/-- What a command line asks for. -/
inductive Request where
  /-- A command, with the settings files that are named and whether more is logged. -/
  | perform (command : Command) (named : NamedFiles) (verbose : Bool)
  | help (topic : HelpTopic)
  | version
  | misuse
  deriving DecidableEq

namespace CommandName

/-- The spelling of a name. -/
def spelling : CommandName → String
  | report => "show"
  | addPlace => "add-place"
  | seedPlace => "seed-place"
  | refresh => "refresh"

/-- All commands. -/
def all : List CommandName := [report, addPlace, seedPlace, refresh]

/-- The command with a spelling. -/
def ofSpelling? (s : String) : Option CommandName := all.find? (·.spelling == s)

end CommandName

/-! ## Options -/

/-- The option that names the settings file. -/
def configOption : OptionSpec := ⟨"config", some 'c', some .path⟩
/-- The switch for more log lines. -/
def verboseOption : OptionSpec := ⟨"verbose", some 'v', none⟩
/-- The switch for help. -/
def helpOption : OptionSpec := ⟨"help", some 'h', none⟩
/-- The switch for the version. -/
def versionOption : OptionSpec := ⟨"version", some 'V', none⟩

/-- The options before a command. -/
def leadingOptions : List OptionSpec := [configOption, verboseOption, helpOption, versionOption]

/-- The options of every command. -/
def sharedOptions : List OptionSpec := [configOption, verboseOption, helpOption]

namespace CommandName

/-- The options of a command. -/
def options : CommandName → List OptionSpec
  | .report =>
    sharedOptions ++
      [⟨"days", some 'd', some (.whole Decimal.natBound32)⟩, ⟨"detailed", none, none⟩,
       ⟨"json", none, none⟩]
  | addPlace => sharedOptions
  | seedPlace =>
    sharedOptions ++
      [⟨"latitude", none, some .number⟩, ⟨"longitude", none, some .number⟩,
       ⟨"country", none, some .text⟩, ⟨"name", none, some .text⟩,
       ⟨"link", none, some .text⟩]
  | refresh => sharedOptions ++ [⟨"every", none, some (.natural Decimal.natBound64)⟩]

/-- Whether a command takes more than one argument. -/
def manyArguments : CommandName → Bool
  | refresh => true
  | _ => false

end CommandName

/-! ## What was given -/

/-- What the items so far have given. -/
structure Given where
  switches : List String
  values : List (String × String)
  arguments : List String

namespace Given

/-- Nothing given. -/
def nothing : Given := ⟨[], [], []⟩

/-- Whether a switch was given. -/
def has (g : Given) (long : String) : Bool := g.switches.contains long

/-- The value of an option. -/
def value? (g : Given) (long : String) : Option String := g.values.lookup long

/-- What is given after one more item; none when an option comes twice or a value does not fit. -/
def add? (options : List OptionSpec) (g : Given) : Item → Option Given
  | .switch long => if g.has long then none else some { g with switches := long :: g.switches }
  | .value long text =>
    let fits :=
      match (options.find? (·.long == long)).bind (·.kind) with
      | some kind => kind.accepts text
      | none => false
    if (g.value? long).isSome || !fits then none
    else some { g with values := (long, text) :: g.values }
  | .argument text => some { g with arguments := g.arguments ++ [text] }
  | .misuse => none

end Given

/-! ## Commands from words -/

/-- What items ask for before the end decides: help or the version, or nothing that makes sense. -/
inductive Interruption where
  | help
  | version
  | misuse
  deriving DecidableEq, Repr

/-- What all items give, or the first interruption; `room` says whether there is room for one more
argument. -/
def collect (options : List OptionSpec) (room : Given → Bool) :
    Given → List Item → Except Interruption Given
  | g, [] => .ok g
  | g, item :: rest =>
    if item = .switch "help" then .error .help
    else if item = .switch "version" then .error .version
    else
      match item, room g with
      | .argument _, false => .error .misuse
      | _, _ =>
        match g.add? options item with
        | some g => collect options room g rest
        | none => .error .misuse

namespace CommandName

/-- The number that the value of an option spells. -/
def number? (g : Given) (long : String) : Option Float :=
  (g.value? long).bind fun s => Decimal.read? s.toList

/-- The command made of what was given; none when something is missing. -/
def build? (g : Given) : CommandName → Option Command
  | .report => do
    let days := (g.value? "days").bind (ValueKind.whole? Decimal.natBound32)
    pure (.report (← g.arguments.head?) days (g.has "detailed") (g.has "json"))
  | addPlace => do pure (.addPlace (← g.arguments.head?))
  | seedPlace => do
    pure (.seedPlace {
      geoid := ← g.arguments.head?
      latitude := ← number? g "latitude"
      longitude := ← number? g "longitude"
      country := ← g.value? "country"
      name := ← g.value? "name"
      link := ← g.value? "link"
      status := .original })
  | refresh =>
    if g.arguments.isEmpty then none
    else
      let every := (g.value? "every").bind (ValueKind.natural? Decimal.natBound64)
      some (.refresh g.arguments every)

/-- What a command and the words behind it ask for, given what stood before the command. -/
def request (name : CommandName) (before : Given) (words : List String) : Request :=
  let room (g : Given) : Bool := name.manyArguments || g.arguments.isEmpty
  match collect name.options room .nothing (Item.ofWords name.options words.length words) with
  | .error .help => .help (.command name)
  | .error _ => .misuse
  | .ok g =>
    match name.build? g with
    | none => .misuse
    | some command =>
      .perform command ⟨before.value? "config", g.value? "config"⟩
        (g.has "verbose" || before.has "verbose")

end CommandName

/-- What the words behind the command `help` ask for. -/
def helpRequest : List String → Request
  | [] => .help .program
  | ["help"] => .help .help
  | [name] =>
    match CommandName.ofSpelling? name with
    | some name => .help (.command name)
    | none => .misuse
  | _ => .misuse

/-- What a command line asks for, given what stood before its words. -/
def requestFrom : (fuel : Nat) → Given → List String → Request
  | 0, _, _ => .misuse
  | _, _, [] => .misuse
  | fuel + 1, before, word :: rest =>
    if Item.isOption word.toList then
      let (items, rest) :=
        if word = "--" then ([Item.misuse], []) else Item.ofWord leadingOptions word rest
      match collect leadingOptions (fun _ => true) before items with
      | .error .help => .help .program
      | .error .version => .version
      | .error .misuse => .misuse
      | .ok before => requestFrom fuel before rest
    else if word = "help" then helpRequest rest
    else
      match CommandName.ofSpelling? word with
      | some name => name.request before rest
      | none => .misuse

/-- What a command line asks for. -/
def request (words : List String) : Request := requestFrom words.length .nothing words

end PlaceWeather.CommandLine
