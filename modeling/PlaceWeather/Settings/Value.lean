/-!
# Untyped settings

What a configuration source gives before it is known what is asked for: a tree of plain values and
tables.  Sources are laid over each other member by member; a later one wins.
-/

namespace PlaceWeather

/-- A value of a configuration source. -/
inductive SettingValue where
  | nothing
  | bool (b : Bool)
  | whole (n : Int)
  | number (x : Float)
  | text (s : String)
  | list (items : List SettingValue)
  | table (members : List (String × SettingValue))
  deriving Inhabited

namespace SettingValue

/-- The table without members. -/
def empty : SettingValue := table []

/-- The members of a table; other values have none. -/
def members : SettingValue → List (String × SettingValue)
  | table members => members
  | _ => []

/-- The member with a key. -/
def lookup (key : String) : List (String × SettingValue) → Option SettingValue
  | [] => none
  | (k, v) :: rest => if k = key then some v else lookup key rest

/-- The members with a value at a key, in the place of the one that was there. -/
def put (key : String) (value : SettingValue) :
    List (String × SettingValue) → List (String × SettingValue)
  | [] => [(key, value)]
  | (k, v) :: rest => if k = key then (key, value) :: rest else (k, v) :: put key value rest

mutual

/-- A value laid over another: a table is laid over it member by member, anything else replaces
it. -/
def laidOver (below : SettingValue) : SettingValue → SettingValue
  | table members => membersOver below members
  | v => v

/-- Members laid over a value, which becomes a table if it was none and there are any. -/
def membersOver (below : SettingValue) : List (String × SettingValue) → SettingValue
  | [] => below
  | (key, value) :: rest =>
    let here := below.members
    membersOver (table (put key (laidOver ((lookup key here).getD empty) value) here)) rest

end

mutual

/-- A value with the keys of all its tables changed. -/
def mapKeys (f : String → String) : SettingValue → SettingValue
  | list items => list (mapKeysItems f items)
  | table members => table (mapKeysMembers f members)
  | v => v

/-- Values with the keys of all their tables changed. -/
def mapKeysItems (f : String → String) : List SettingValue → List SettingValue
  | [] => []
  | v :: rest => mapKeys f v :: mapKeysItems f rest

/-- Members with their keys changed, and the keys of all tables in them. -/
def mapKeysMembers (f : String → String) :
    List (String × SettingValue) → List (String × SettingValue)
  | [] => []
  | (key, v) :: rest => (f key, mapKeys f v) :: mapKeysMembers f rest

end

end SettingValue

end PlaceWeather
