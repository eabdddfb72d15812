import PlaceWeather.Toml.Moment

/-!
# Keys and values of TOML

A key is a name or several with points between them.  Keys and nested values have bounds.  While a
document is read it is known of each
table how it came to be, because that decides whether more may be put into it.
-/

namespace PlaceWeather.Toml

/-! ## Tables in the making -/

/-- How a table came to be. -/
inductive Origin where
  /-- It stands on the way to a table with a header. -/
  | implied
  /-- It stands on the way to the last name of a key. -/
  | dotted
  /-- It has a header, or is the document itself or a table in braces. -/
  | declared
  deriving DecidableEq, Repr

/-- What a name stands for while a document is read. -/
inductive Node where
  | value (v : SettingValue)
  | table (origin : Origin) (entries : List (String × Node))
  /-- Tables with the same header, the last first. -/
  | tables (items : List (List (String × Node)))

/-- The entries of a table in the making. -/
abbrev Entries := List (String × Node)

namespace Node

/-- What a name stands for. -/
def lookup (name : String) : Entries → Option Node
  | [] => none
  | (k, n) :: rest => if k = name then some n else lookup name rest

/-- Entries with another meaning of a name. -/
def put (name : String) (node : Node) : Entries → Entries
  | [] => [(name, node)]
  | (k, n) :: rest => if k = name then (name, node) :: rest else (k, n) :: put name node rest

mutual

/-- The setting that a name stands for. -/
def setting : Node → SettingValue
  | value v => v
  | table _ entries => .table (settings entries)
  | tables items => .list (itemSettings items).reverse

/-- The settings of the entries of a table. -/
def settings : List (String × Node) → List (String × SettingValue)
  | [] => []
  | (k, n) :: rest => (k, setting n) :: settings rest

/-- The settings of tables with the same header. -/
def itemSettings : List (List (String × Node)) → List SettingValue
  | [] => []
  | entries :: rest => .table (settings entries) :: itemSettings rest

end

/-- Changes the table at the end of a path, making tables on the way.  A key does not lead through
a table that has a header. -/
def within (ofKey : Bool) (change : Origin → Entries → Option Entries) :
    (path : List String) → Origin → Entries → Option Entries
  | [], origin, entries => change origin entries
  | name :: path, _, entries =>
    match lookup name entries with
    | none => do
      let origin : Origin := if ofKey then .dotted else .implied
      let inner ← within ofKey change path origin []
      pure (put name (.table origin inner) entries)
    | some (.table origin inner) =>
      if ofKey ∧ origin = .declared then none
      else do
        let inner ← within ofKey change path origin inner
        pure (put name (.table origin inner) entries)
    | some (.tables (last :: earlier)) => do
      let inner ← within ofKey change path .declared last
      pure (put name (.tables (inner :: earlier)) entries)
    | some (.tables []) | some (.value _) => none

/-- Entries with a value at a key, which must be new.  The table of a key with points is one made by
such keys. -/
def insert? (key : List String) (v : SettingValue) (entries : Entries) : Option Entries :=
  match key.getLast? with
  | none => none
  | some name =>
    let path := key.dropLast
    let change (origin : Origin) (inner : Entries) : Option Entries :=
      if path.isEmpty ∨ origin = .dotted then
        match lookup name inner with
        | none => some (put name (.value v) inner)
        | some _ => none
      else none
    within true change path .declared entries

end Node

/-! ## Keys -/

/-- A character of a name without quotes. -/
def isBare (c : Char) : Bool := c.isAlphanum || c == '_' || c == '-'

/-- One name of a key. -/
def name : Reads String := fun cs =>
  match cs.head? with
  | some '"' | some '\'' => shortString cs
  | _ =>
    let bare := cs.takeWhile isBare
    if bare.isEmpty then none else some (String.ofList bare, cs.drop bare.length)

/-- The most names that a key can have. -/
def nameBound : Nat := 79

/-- At most `bound` names with points between them; blanks may stand around them. -/
def names : (bound : Nat) → Reads (List String)
  | 0, _ => none
  | bound + 1, cs => do
    let (first, cs) ← name (skipBlanks cs)
    match skipBlanks cs with
    | '.' :: cs => do
      let (later, rest) ← names bound cs
      pure (first :: later, rest)
    | rest => pure ([first], rest)

/-- The names of a key. -/
def key : Reads (List String) := names nameBound

/-! ## Values -/

/-- A text behind a comment at its head, if there is one; none when the comment holds a control
character. -/
def skipComment? : List Char → Option (List Char)
  | '#' :: cs =>
    let rest := cs.dropWhile isPlain
    if rest.isEmpty ∨ (newline? rest).isSome then some rest else none
  | cs => some cs

/-- A text behind blanks, line ends and comments. -/
def skipSpace? : (fuel : Nat) → List Char → Option (List Char)
  | 0, _ => none
  | fuel + 1, cs =>
    match skipBlanks cs with
    | '#' :: rest => (skipComment? ('#' :: rest)).bind (skipSpace? fuel)
    | cs =>
      match newline? cs with
      | some rest => skipSpace? fuel rest
      | none => some cs

/-- A character of a value without quotes or brackets. -/
def inWord (c : Char) : Bool := isBare c || c == '+' || c == '.' || c == ':'

/-- The value of a word. -/
def word? (cs : List Char) : Option SettingValue :=
  if cs = ['t', 'r', 'u', 'e'] then some (.bool true)
  else if cs = ['f', 'a', 'l', 's', 'e'] then some (.bool false)
  else
    ((whole? cs).map SettingValue.whole).or <|
      ((number? cs).map SettingValue.number).or <|
        (moment? cs).map fun m => .text (String.ofList m)

/-- A value that is a word, or a date and a time with a blank between them. -/
def wordValue : Reads SettingValue := fun cs =>
  let word := cs.takeWhile inWord
  match date word, cs.drop word.length with
  | some (_, []), ' ' :: d :: rest =>
    if Decimal.isDigit d then
      let time := (d :: rest).takeWhile inWord
      (word? (word ++ ' ' :: time)).map (·, (d :: rest).drop time.length)
    else (word? word).map (·, ' ' :: d :: rest)
  | _, rest => (word? word).map (·, rest)

/-- How deep lists and tables in braces can stand in each other. -/
def depthBound : Nat := 79

/-- The items of a list up to its closing bracket, given how an item is read. -/
def items (item : Reads SettingValue) : (fuel : Nat) → Reads (List SettingValue)
  | 0, _ => none
  | fuel + 1, cs => do
    match ← skipSpace? (cs.length + 1) cs with
    | ']' :: rest => pure ([], rest)
    | cs => do
      let (v, cs) ← item cs
      match ← skipSpace? (cs.length + 1) cs with
      | ',' :: cs => do
        let (vs, rest) ← items item fuel cs
        pure (v :: vs, rest)
      | ']' :: rest => pure ([v], rest)
      | _ => none

/-- The members of a table in braces up to its closing brace, put to the ones before, given how a
value is read. -/
def members (item : Reads SettingValue) : (fuel : Nat) → Entries → Reads Entries
  | 0, _, _ => none
  | fuel + 1, before, cs => do
    let (k, cs) ← key cs
    let (v, cs) ← item (skipBlanks (← mark? '=' cs))
    let entries ← Node.insert? k v before
    match skipBlanks cs with
    | ',' :: cs => members item fuel entries cs
    | '\x7d' :: rest => pure (entries, rest)
    | _ => none

/-- A value without parts. -/
def plainValue : Reads SettingValue := fun cs =>
  match cs with
  | '"' :: _ | '\'' :: _ => (string cs).map fun (s, rest) => (.text s, rest)
  | _ => wordValue cs

/-- A value, in which at most `depth` lists and tables stand in each other. -/
def valueWithin : (depth : Nat) → Reads SettingValue
  | 0, cs => if cs.head? = some '[' ∨ cs.head? = some '\x7b' then none else plainValue cs
  | depth + 1, cs =>
    match cs with
    | '[' :: cs =>
      (items (valueWithin depth) (cs.length + 1) cs).map fun (vs, rest) => (.list vs, rest)
    | '\x7b' :: cs =>
      match skipBlanks cs with
      | '\x7d' :: rest => some (.empty, rest)
      | cs =>
        (members (valueWithin depth) (cs.length + 1) [] cs).map fun (es, rest) =>
          (.table (Node.settings es), rest)
    | cs => plainValue cs

/-- A value. -/
def value : Reads SettingValue := valueWithin depthBound

end PlaceWeather.Toml
