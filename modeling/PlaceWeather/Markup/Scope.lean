import PlaceWeather.Markup.Attribute

/-!
# Name spaces in force

A start tag can bind short names to name spaces with attributes `xmlns:short = "space"`.  A binding
is in force inside its element, and the last one for a short name counts.  Two short names are set
apart and two spaces are reserved for them.  With an attribute of one name space an element says
that it is nil: what it holds does not count (`marksNil`).
-/

namespace PlaceWeather.Markup

/-- The address of a name space that is given out with the standards of markup. -/
def standardSpace (path : String) : List Char := ("http:" ++ "//www.w3.org/" ++ path).toList

/-- The name space of attributes such as the language of a text. -/
def xmlSpace : List Char := standardSpace "XML/1998/namespace"

/-- The name space of the attributes that bind short names. -/
def xmlnsSpace : List Char := standardSpace "2000/xmlns/"

/-- The name space of the attributes that say how a document relates to its description. -/
def instanceSpace : List Char := standardSpace "2001/XMLSchema-instance"

/-- A short name bound to a name space. -/
structure Binding where
  short : List Char
  space : List Char
  /-- The depth of the element that binds it. -/
  depth : Nat
  deriving DecidableEq, Repr

/-- The bindings in force at a depth, the latest first. -/
structure Scope where
  depth : Nat
  bindings : List Binding
  deriving DecidableEq, Repr

namespace Scope

/-- The scope outside of every element. -/
def outermost : Scope := ⟨0, []⟩

/-- The scope with the binding that an attribute makes, if it makes one.  The short name `xml` has
its own space and `xmlns` cannot be bound; no other short name can have the space of either. -/
def bind? (scope : Scope) (a : Attribute) : Option Scope :=
  match splitName? a.name with
  | some (['x', 'm', 'l', 'n', 's'], short) =>
    if short = ['x', 'm', 'l'] then if a.raw = xmlSpace then some scope else none
    else if short = ['x', 'm', 'l', 'n', 's'] ∨ a.raw = xmlSpace ∨ a.raw = xmlnsSpace then none
    else some { scope with bindings := ⟨short, a.raw, scope.depth⟩ :: scope.bindings }
  | _ => some scope

/-- The scope behind a start tag, given what stands in it behind its name: the attributes before the
first ill-formed one bind.  None when one of them binds what it must not. -/
def enter? (scope : Scope) (attributes : List Char) : Option Scope :=
  ((Attribute.scan false attributes).takeWhile Option.isSome).reduceOption.foldlM bind?
    { scope with depth := scope.depth + 1 }

/-- The scope behind an end tag. -/
def leave (scope : Scope) : Scope :=
  ⟨scope.depth - 1, scope.bindings.dropWhile (scope.depth - 1 < ·.depth)⟩

/-- The name space of a short name, which is never empty. -/
def space? (scope : Scope) (short : List Char) : Option (List Char) :=
  if short = ['x', 'm', 'l'] then some xmlSpace
  else if short = ['x', 'm', 'l', 'n', 's'] then some xmlnsSpace
  else if short = [] then none
  else ((scope.bindings.find? (·.short == short)).map (·.space)).filter (!·.isEmpty)

/-- Whether an attribute says that its element is nil. -/
def isNil (scope : Scope) (a : Attribute) : Bool :=
  match splitName? a.name with
  | some (short, ['n', 'i', 'l']) =>
    scope.space? short == some instanceSpace && (a.raw == ['1'] || a.raw == "true".toList)
  | _ => false

/-- Whether one of the attributes of a tag says that its element is nil; ill-formed ones do not. -/
def marksNil (scope : Scope) (attributes : List Char) : Bool :=
  (Attribute.scan true attributes).reduceOption.any scope.isNil

end Scope

end PlaceWeather.Markup
