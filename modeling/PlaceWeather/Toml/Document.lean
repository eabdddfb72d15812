import PlaceWeather.Toml.Entry

/-!
# TOML documents

A document consists of lines: nothing or a comment, a header that names the table to which the
following lines belong, or a key with a value.  No table has two headers and no key two values.
-/

namespace PlaceWeather.Toml

/-- What has been read of a document: the path of the table that lines go to, and all entries. -/
structure Draft where
  path : List String
  entries : Entries

namespace Draft

/-- The draft of a document of which nothing has been read. -/
def start : Draft := ⟨[], []⟩

/-- The draft behind the header of a table. -/
def header? (d : Draft) (path : List String) : Option Draft := do
  let name ← path.getLast?
  let change (_ : Origin) (entries : Entries) : Option Entries :=
    match Node.lookup name entries with
    | none => some (Node.put name (.table .declared []) entries)
    | some (.table .implied inner) => some (Node.put name (.table .declared inner) entries)
    | some _ => none
  pure ⟨path, ← Node.within false change path.dropLast .declared d.entries⟩

/-- The draft behind the header of one table of several. -/
def itemHeader? (d : Draft) (path : List String) : Option Draft := do
  let name ← path.getLast?
  let change (_ : Origin) (entries : Entries) : Option Entries :=
    match Node.lookup name entries with
    | none => some (Node.put name (.tables [[]]) entries)
    | some (.tables items) => some (Node.put name (.tables ([] :: items)) entries)
    | some _ => none
  pure ⟨path, ← Node.within false change path.dropLast .declared d.entries⟩

/-- The draft behind a key with a value. -/
def entry? (d : Draft) (key : List String) (v : SettingValue) : Option Draft := do
  let change (_ : Origin) (entries : Entries) : Option Entries := Node.insert? key v entries
  pure { d with entries := ← Node.within false change d.path .declared d.entries }

/-- The draft behind what stands at the head of a line, and the rest of the line. -/
def line? (d : Draft) (cs : List Char) : Option (Draft × List Char) :=
  match cs with
  | '[' :: '[' :: cs => do
    let (path, cs) ← key cs
    pure (← d.itemHeader? path, ← mark? ']' (← mark? ']' cs))
  | '[' :: cs => do
    let (path, cs) ← key cs
    pure (← d.header? path, ← mark? ']' cs)
  | cs => do
    let (k, cs) ← key cs
    let (v, rest) ← value (skipBlanks (← mark? '=' cs))
    pure (← d.entry? k v, rest)

/-- The draft behind the rest of a document; each line takes at least one character. -/
def lines? : (fuel : Nat) → Draft → List Char → Option Draft
  | 0, _, _ => none
  | fuel + 1, d, cs => do
    let cs ← skipSpace? (cs.length + 1) cs
    if cs.isEmpty then pure d
    else
      let (d, cs) ← d.line? cs
      let cs ← skipComment? (skipBlanks cs)
      if cs.isEmpty then pure d else lines? fuel d (← newline? cs)

end Draft

/-- The mark that may stand before a document to show the order of bytes. -/
def byteOrderMark : Char := Char.ofNat 0xFEFF

/-- The members of a document; none when it is no TOML. -/
def read? (document : String) : Option (List (String × SettingValue)) :=
  let cs := document.toList
  let cs := if cs.head? = some byteOrderMark then cs.drop 1 else cs
  (Draft.lines? (cs.length + 1) .start cs).map fun d => Node.settings d.entries

end PlaceWeather.Toml
