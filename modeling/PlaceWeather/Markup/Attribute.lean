import PlaceWeather.Markup.Character
import PlaceWeather.Markup.Reference

/-!
# Attributes

What stands in a start tag behind its name: `name = "value"` any number of times, with either quote
and no name twice.  Where an attribute is ill formed, reading goes on behind it (`scan`), and each
reader decides what that means: an element that is read must have no ill-formed attribute
(`ofTag?`).
-/

namespace PlaceWeather.Markup

/-- The part of a name before its first colon, and the part behind it. -/
def splitName? (name : List Char) : Option (List Char × List Char) :=
  match name.dropWhile (· != ':') with
  | _ :: rest => some (name.takeWhile (· != ':'), rest)
  | [] => none

/-- A name without the part up to its first colon. -/
def localName (name : List Char) : List Char := ((splitName? name).map (·.2)).getD name

/-- An attribute with its value as written, references not yet resolved. -/
structure Attribute where
  name : List Char
  raw : List Char
  deriving DecidableEq, Repr

namespace Attribute

/-- What one step of reading attributes leaves. -/
structure Step where
  /-- The attribute, unless it is ill formed. -/
  attribute? : Option Attribute
  /-- The names that have occurred. -/
  names : List (List Char)
  /-- The text where reading goes on. -/
  rest : List Char
  deriving DecidableEq, Repr

/-- Reads an attribute from its first character on.  When `distinct` is set, one of the names that
have occurred makes it ill formed.  An attribute without a value ends before the next one; any
other ill-formed one ends before the next white space, or, when its quote does not close, with the
tag. -/
def read (distinct : Bool) (names : List (List Char)) (first : Char) (cs : List Char) : Step :=
  let inName (c : Char) : Bool := c != '=' && !isSpace c
  let toSpace (cs : List Char) : List Char := cs.dropWhile (!isSpace ·)
  let name := first :: cs.takeWhile inName
  match (cs.dropWhile inName).dropWhile isSpace with
  | '=' :: cs =>
    if distinct && names.contains name then ⟨none, names, toSpace cs⟩
    else
      match cs.dropWhile isSpace with
      | quote :: cs =>
        if quote = '"' ∨ quote = '\'' then
          match cs.dropWhile (· != quote) with
          | _ :: rest => ⟨some ⟨name, cs.takeWhile (· != quote)⟩, name :: names, rest⟩
          | [] => ⟨none, name :: names, []⟩
        else ⟨none, name :: names, toSpace cs⟩
      | [] => ⟨none, name :: names, []⟩
  | rest => ⟨none, names, rest⟩

/-- The attributes of a tag, at most `fuel` of them. -/
def scanFrom (distinct : Bool) : (fuel : Nat) → (names : List (List Char)) → List Char →
    List (Option Attribute)
  | 0, _, _ => []
  | fuel + 1, names, cs =>
    match cs.dropWhile isSpace with
    | [] => []
    | first :: cs =>
      let step := read distinct names first cs
      step.attribute? :: scanFrom distinct fuel step.names step.rest

/-- The attributes of a tag in order, with `none` for each that is ill formed. -/
def scan (distinct : Bool) (cs : List Char) : List (Option Attribute) :=
  scanFrom distinct cs.length [] cs

/-- The attributes of a tag in order.  None when one of them is ill formed or a name occurs
twice. -/
def ofTag? (cs : List Char) : Option (List Attribute) := (scan true cs).mapM id

/-- The name by which an attribute is known: its local name, where the parts `xml` and `xmlns`
before the colon belong to the name. -/
def knownName (a : Attribute) : List Char :=
  match splitName? a.name with
  | some (['x', 'm', 'l'], _) | some (['x', 'm', 'l', 'n', 's'], _) => a.name
  | _ => localName a.name

/-- The value of the attribute with a name, references resolved, if there is one.  None at all when
there are several or a reference is not valid. -/
def value? (attributes : List Attribute) (name : String) : Option (Option (List Char)) :=
  match attributes.filter (·.knownName == name.toList) with
  | [] => some none
  | [a] => (Reference.expand a.raw).map some
  | _ => none

/-- The value of an attribute that must be there. -/
def required? (attributes : List Attribute) (name : String) : Option (List Char) :=
  (value? attributes name).join

end Attribute

end PlaceWeather.Markup
