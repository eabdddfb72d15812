import PlaceWeather.Decimal.Reading
import PlaceWeather.Settings.Value

/-!
# Paths to settings

The key of a setting can spell a path: names with points between them, and numbers in brackets for
the items of a list, as in `feed.base_url` or `feed[0]`.  What is on the way to a setting becomes a
table or a list when it is none.
-/

namespace PlaceWeather

/-- One step on the way to a setting. -/
inductive PathStep where
  /-- To the member of a table. -/
  | member (name : String)
  /-- To an item of a list; a negative number counts from the end. -/
  | item (index : Int)
  deriving DecidableEq, Repr

namespace PathStep

/-- A character of a name in a path. -/
def isNameChar (c : Char) : Bool := c.isAlphanum || c == ' ' || c == '_' || c == '-'

/-- A blank beside a number in brackets. -/
def isBlank (c : Char) : Bool := c == ' ' || c == '\t'

/-- The item at the head of a text, behind its opening bracket, and the text behind the closing one.
The number has 64 bits. -/
def readItem? (cs : List Char) : Option (PathStep × List Char) :=
  let cs := cs.dropWhile isBlank
  let sign := cs.takeWhile (· == '-')
  let unsigned := cs.drop sign.length
  let number := sign ++ unsigned.takeWhile Decimal.isDigit
  match Decimal.readInt? number, (unsigned.dropWhile Decimal.isDigit).dropWhile isBlank with
  | some n, ']' :: rest =>
    if Decimal.int64Min ≤ n ∧ n ≤ Decimal.int64Max then some (item n, rest) else none
  | _, _ => none

/-- The steps that a text spells, each behind its point or in its brackets. -/
def readAll? : (fuel : Nat) → List Char → Option (List PathStep)
  | _, [] => some []
  | 0, _ => none
  | fuel + 1, '.' :: cs =>
    let name := cs.takeWhile isNameChar
    if name.isEmpty then none
    else (readAll? fuel (cs.dropWhile isNameChar)).map (member (String.ofList name) :: ·)
  | fuel + 1, '[' :: cs =>
    (readItem? cs).bind fun (step, cs) => (readAll? fuel cs).map (step :: ·)
  | _ + 1, _ => none

/-- The steps that a key spells; a key that spells no path is one name. -/
def ofKey (key : String) : List PathStep :=
  (readAll? (key.length + 1) ('.' :: key.toList)).getD [member key]

end PathStep

namespace SettingValue

/-- The items of a list; other values have none. -/
def items : SettingValue → List SettingValue
  | list items => items
  | _ => []

/-- The place of an item by its number, and the list with as many empty items more, behind it or
before it, as it takes to have that place. -/
def makeRoom (index : Int) (items : List SettingValue) : Nat × List SettingValue :=
  let more (n : Nat) : List SettingValue := List.replicate n nothing
  if 0 ≤ index then (index.toNat, items ++ more (index.toNat + 1 - items.length))
  else (items.length - index.natAbs, more (index.natAbs - items.length) ++ items)

/-- A value laid over what is at the end of a path.  An item of a list is replaced. -/
def putAt (root : SettingValue) (value : SettingValue) : (path : List PathStep) → SettingValue
  | [] => laidOver root value
  | [.member key] => membersOver root [(key, value)]
  | [.item index] =>
    let (i, items) := makeRoom index root.items
    list (items.set i value)
  | .member key :: path =>
    let here := root.members
    table (put key (putAt ((lookup key here).getD nothing) value path) here)
  | .item index :: path =>
    let (i, items) := makeRoom index root.items
    list (items.modify i (putAt · value path))

end SettingValue

end PlaceWeather
