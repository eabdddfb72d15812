import PlaceWeather.Files

/-!
# Icons

The icon of a symbol is the file `<symbol>.png`, taken from the user's own directory when that file
can be read there and else from the bundled directory.
-/

namespace PlaceWeather

/-- Where icons are looked for. -/
structure IconDirectories where
  /-- The user's own directory, searched first. -/
  custom : Option String
  /-- The directory with the bundled icons. -/
  bundled : String
  deriving DecidableEq, Repr

namespace IconDirectories

/-- The file name of a symbol's icon. -/
def fileName (symbol : String) : String := symbol ++ ".png"

/-- The path of a symbol's icon: in the custom directory when it can be read there, and else in the
bundled directory, whether it exists or not. -/
def resolve (dirs : IconDirectories) (readable : String → Bool) (symbol : String) : String :=
  let bundled := Path.join dirs.bundled (fileName symbol)
  match dirs.custom with
  | none => bundled
  | some directory =>
    let candidate := Path.join directory (fileName symbol)
    if readable candidate then candidate else bundled

end IconDirectories

end PlaceWeather
