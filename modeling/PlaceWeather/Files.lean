import PlaceWeather.Text.Pieces

/-!
# Paths and files

Paths are names with slashes between them.  `Files` is a small directory tree to ask which files can
be read and where directories can be made.
-/

namespace PlaceWeather

/-! ## Paths -/

namespace Path

/-- A file name below a directory: an absolute name stands alone, and no separator is added behind
an empty directory or one that ends in a separator. -/
def join (directory file : String) : String :=
  if file.toList.head? = some '/' then file
  else if directory.isEmpty || directory.toList.getLast? = some '/' then directory ++ file
  else directory ++ "/" ++ file

/-- The parts of a path between its separators, without the empty ones. -/
def parts (path : String) : List String :=
  ((Text.split '/' path.toList).filter (!·.isEmpty)).map String.ofList

/-- What is left of a path, the last character first, without the separators at its end and the
points that mean the directory itself. -/
def dropTail : List Char → List Char
  | '/' :: cs => dropTail cs
  | '.' :: '/' :: cs => dropTail cs
  | cs => cs

/-- A path without the separators at its end and the points that mean the directory itself. -/
def withoutTail (path : String) : String := String.ofList (dropTail path.toList.reverse).reverse

/-- The name at the end of a path; the points that mean a directory are none. -/
def lastName? (path : String) : Option String :=
  (parts (withoutTail path)).getLast?.filter fun name => name != "." && name != ".."

end Path

/-! ## Files -/

/-- A directory tree below a working directory: the directories in it and the files, each by the
names that lead to it. -/
structure Files where
  directories : List (List String)
  files : List (List String)
  deriving Repr

namespace Files

/-- The longest name of a file or directory, in bytes. -/
def nameLimit : Nat := 255
/-- The longest path, in bytes. -/
def pathLimit : Nat := 4095

/-- The directory that a path leads to, and the directories passed through. -/
def walk (directory : List String) : List String → List String × List (List String)
  | [] => (directory, [directory])
  | "." :: rest => walk directory rest
  | ".." :: rest =>
    let (last, passed) := walk directory.dropLast rest
    (last, directory :: passed)
  | name :: rest =>
    let (last, passed) := walk (directory ++ [name]) rest
    (last, directory :: passed)

/-- The tree with a directory at a path and all that lead to it. -/
def addDirectory (t : Files) (path : String) : Files :=
  { t with directories := t.directories ++ (walk [] (Path.parts path)).2 }

/-- The tree with a readable file at a path and the directories that lead to it. -/
def addFile (t : Files) (path : String) : Files :=
  let parts := Path.parts path
  let (directory, passed) := walk [] parts.dropLast
  match parts.getLast? with
  | some name =>
    { directories := t.directories ++ passed, files := t.files ++ [directory ++ [name]] }
  | none => t

/-- The tree of some directories and some files. -/
def ofPaths (directories files : List String) : Files :=
  files.foldl addFile (directories.foldl addDirectory ⟨[[]], []⟩)

/-- Whether the names lead from a directory to a file.  Every name but the last is a directory, and
a path that climbs out of the tree leads nowhere. -/
def leadsToFile (t : Files) (directory : List String) : List String → Bool
  | [] => false
  | "." :: rest => t.leadsToFile directory rest
  | ".." :: rest => !directory.isEmpty && t.leadsToFile directory.dropLast rest
  | name :: rest =>
    let here := directory ++ [name]
    decide (name.utf8ByteSize ≤ nameLimit) &&
      (if rest.isEmpty then t.files.contains here
       else t.directories.contains here && t.leadsToFile here rest)

/-- Whether a relative path names a file that can be read. -/
def isReadable (t : Files) (path : String) : Bool :=
  let cs := path.toList
  decide (path.utf8ByteSize ≤ pathLimit) && !cs.contains (Char.ofNat 0) &&
    cs.head? != some '/' && cs.getLast? != some '/' && t.leadsToFile [] (Path.parts path)

/-- The directory that names lead to from another, with those made that are missing on the way; none
when a file is in the way or a name is too long.  Leading double points climb out of the tree. -/
def makeFrom? (t : Files) (directory : List String) : List String → Option (List String)
  | [] => some directory
  | "." :: rest => t.makeFrom? directory rest
  | ".." :: rest =>
    if directory.getLast?.all (· == "..") then t.makeFrom? (directory ++ [".."]) rest
    else t.makeFrom? directory.dropLast rest
  | name :: rest =>
    let here := directory ++ [name]
    if nameLimit < name.utf8ByteSize ∨ here ∈ t.files then none else t.makeFrom? here rest

/-- The directory at a relative path, made where it is missing. -/
def directoryAt? (t : Files) (path : String) : Option (List String) :=
  if pathLimit < path.utf8ByteSize then none else t.makeFrom? [] (Path.parts path)

end Files

end PlaceWeather
