import PlaceWeather.Decimal.Notation

/-!
# JSON text

Values of the JSON format and how they are written with one item a line, each level indented by two
blanks.  The members of an object keep their order.
-/

namespace PlaceWeather

/-- A JSON value. -/
inductive Json where
  | null
  | whole (n : Int)
  | string (s : String)
  | array (items : List Json)
  | object (members : List (String × Json))
  deriving Repr

namespace Json

/-- The string or null that stands for an optional text. -/
def ofString? : Option String → Json
  | some s => string s
  | none => null

/-- A digit of the hexadecimal system in lower case. -/
def hexDigit (n : Nat) : Char := (Nat.digitChar n).toLower

/-- A character inside quotes: quotes, backslashes and control characters are escaped. -/
def quoteChar (c : Char) : List Char :=
  if c = '"' then ['\\', '"']
  else if c = '\\' then ['\\', '\\']
  else if c = '\n' then ['\\', 'n']
  else if c = '\r' then ['\\', 'r']
  else if c = '\t' then ['\\', 't']
  else if c.toNat = 8 then ['\\', 'b']
  else if c.toNat = 12 then ['\\', 'f']
  else if c.toNat < 32 then
    ['\\', 'u', '0', '0', hexDigit (c.toNat / 16), hexDigit (c.toNat % 16)]
  else [c]

/-- A text in quotes. -/
def quote (s : String) : String := String.ofList ('"' :: s.toList.flatMap quoteChar ++ ['"'])

/-- The start of a line at a depth. -/
def newLine (depth : Nat) : String := String.ofList ('\n' :: List.replicate (2 * depth) ' ')

/-- Written items between brackets, one a line; nothing between the brackets when there are none. -/
def bracket (opening closing : String) (depth : Nat) (items : List String) : String :=
  if items.isEmpty then opening ++ closing
  else
    opening ++ newLine (depth + 1) ++ String.intercalate ("," ++ newLine (depth + 1)) items ++
      newLine depth ++ closing

mutual

/-- The text of a value whose first line stands at a depth. -/
def render (depth : Nat) : Json → String
  | null => "null"
  | whole n => Decimal.intText n
  | string s => quote s
  | array items => bracket "[" "]" depth (renderItems (depth + 1) items)
  | object members => bracket "\x7b" "\x7d" depth (renderMembers (depth + 1) members)

/-- The texts of the items of an array. -/
def renderItems (depth : Nat) : List Json → List String
  | [] => []
  | item :: rest => render depth item :: renderItems depth rest

/-- The texts of the members of an object. -/
def renderMembers (depth : Nat) : List (String × Json) → List String
  | [] => []
  | (key, value) :: rest => (quote key ++ ": " ++ render depth value) :: renderMembers depth rest

end

/-- The text of a value. -/
def text (j : Json) : String := render 0 j

end Json

end PlaceWeather
