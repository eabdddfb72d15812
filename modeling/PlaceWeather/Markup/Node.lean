import PlaceWeather.Markup.Attribute

/-!
# Documents as trees

A document is one element with its content.  Only the elements that an outline names are read; any
other leaves nothing but its name.
-/

namespace PlaceWeather.Markup

/-- Which elements an element holds that are read, by their local names. -/
inductive Outline where
  /-- No more elements. -/
  | done
  /-- An element, whether it may be nil, and what is read inside it; then more elements. -/
  | part (name : String) (nillable : Bool) (inside : Outline) (more : Outline)
  deriving DecidableEq, Repr

namespace Outline

/-- Whether an element with a local name may be nil, and what is read inside it. -/
def part? (name : List Char) : Outline → Option (Bool × Outline)
  | done => none
  | part n nillable inside more =>
    if n.toList = name then some (nillable, inside) else more.part? name

end Outline

/-- A piece of a document. -/
inductive Node where
  /-- A run of text. -/
  | text (cs : List Char)
  /-- An element that is read, with its content. -/
  | element (name attributes : List Char) (children : List Node)
  /-- An element that is passed over: it is not in the outline, or it is nil. -/
  | passed (name : List Char)
  deriving Repr

/-- An element whose end tag has not come yet: its content so far and the text run at its end, both
with the last first. -/
structure Frame where
  name : List Char
  attributes : List Char
  /-- The elements that are read inside it. -/
  outline : Outline
  children : List Node
  run : List Char

namespace Frame

/-- The frame of a start tag. -/
def ofTag (name attributes : List Char) (outline : Outline) : Frame :=
  ⟨name, attributes, outline, [], []⟩

/-- The content so far with the text run as a node, the last first. -/
def content (f : Frame) : List Node :=
  if f.run.isEmpty then f.children else .text f.run.reverse :: f.children

/-- The frame with one more node. -/
def addNode (f : Frame) (n : Node) : Frame := { f with children := n :: f.content, run := [] }

/-- The frame with one more character of text. -/
def addChar (f : Frame) (c : Char) : Frame := { f with run := c :: f.run }

/-- The element of a frame whose end tag has come. -/
def close (f : Frame) : Node := .element f.name f.attributes f.content.reverse

end Frame

namespace Node

/-- The name of an element that is read, with its prefix. -/
def fullName? : Node → Option (List Char)
  | element name _ _ => some name
  | text _ | passed _ => none

/-- Whether a node is an element with a local name. -/
def isNamed (name : String) : Node → Bool
  | text _ => false
  | element n _ _ | passed n => localName n == name.toList

/-- Whether a node is text of white space only. -/
def isSpace : Node → Bool
  | text cs => cs.all Markup.isSpace
  | element .. | passed _ => false

/-- The content of an element. -/
def children : Node → List Node
  | element _ _ children => children
  | text _ | passed _ => []

/-- The text of an element that holds nothing else. -/
def text? : Node → Option (List Char)
  | element _ _ [] => some []
  | element _ _ [text cs] => some cs
  | _ => none

/-- The child element with a local name, if there is one that is not nil; none at all when there are
several. -/
def child? (node : Node) (name : String) : Option (Option Node) :=
  match node.children.filter (isNamed name) with
  | [] | [passed _] => some none
  | [child] => some (some child)
  | _ => none

/-- The one child element with a local name. -/
def required? (node : Node) (name : String) : Option Node := (node.child? name).join

/-- The attributes of an element. -/
def attributes? : Node → Option (List Attribute)
  | element _ attributes _ => Attribute.ofTag? attributes
  | text _ | passed _ => none

end Node

end PlaceWeather.Markup
