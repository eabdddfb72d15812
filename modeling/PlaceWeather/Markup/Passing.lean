import PlaceWeather.Markup.Scope
import PlaceWeather.Markup.Token

/-!
# Elements that are passed over

An element that nobody asks for is read one token at a time up to its end.  Its tags must nest.
Beyond that only its beginning is looked at: the text behind its start tag, and the tokens behind
that text, behind the start tag of its first child and behind the end tag of that child.  A start
tag that is looked at binds its short names; all other tokens are dropped, and so are the ends of
the scopes that were entered in between.
-/

namespace PlaceWeather.Markup

/-- How far an element that is passed over has been read.  Lists of names have the innermost
element first. -/
inductive Passing where
  /-- Directly behind the start tag. -/
  | start (name : List Char)
  /-- In the text behind the start tag. -/
  | lead (name : List Char)
  /-- Inside elements that are still to be left one after the other; the next token is looked at. -/
  | within (names : List (List Char))
  /-- Inside elements whose tokens are dropped.  Behind the last of them a scope is left, or two;
  then the others are still to be left. -/
  | dropping (inner : List (List Char)) (twice : Bool) (others : List (List Char))
  deriving DecidableEq, Repr

namespace Passing

/-- Whether the element has been left. -/
def isOver (p : Passing) : Bool := p == within []

/-- Leaves the element `name` by its end tag when that is the next token, and drops what comes
before the end tag otherwise. -/
def leave? (scope : Scope) (name : List Char) (others : List (List Char)) (t : Token) :
    Option (Scope × Passing) :=
  match t with
  | .char _ | .reference _ => some (scope, dropping [name] false others)
  | .opening n attributes =>
    (scope.enter? attributes).map fun scope => (scope, dropping [n, name] (n == name) others)
  | .closing n => if n = name then some (scope.leave, within others) else none
  | .broken => none

/-- Drops a token inside the elements `name :: inner`. -/
def drop? (scope : Scope) (name : List Char) (inner : List (List Char)) (twice : Bool)
    (others : List (List Char)) (t : Token) : Option (Scope × Passing) :=
  match t with
  | .char _ | .reference _ => some (scope, dropping (name :: inner) twice others)
  | .opening n _ => some (scope, dropping (n :: name :: inner) twice others)
  | .closing n =>
    if n ≠ name then none
    else if inner.isEmpty then
      some (if twice then scope.leave.leave else scope.leave, within others)
    else some (scope, dropping inner twice others)
  | .broken => none

/-- Reads one token, in the scope that is in force before it. -/
def step? (scope : Scope) (p : Passing) (t : Token) : Option (Scope × Passing) :=
  match p, t with
  | start name, .char _ | lead name, .char _ => some (scope, lead name)
  | start name, .reference r | lead name, .reference r =>
    (Reference.resolve? r).map fun _ => (scope, lead name)
  | start name, .opening n attributes =>
    (scope.enter? attributes).map fun scope => (scope, within [n, name])
  | start name, t | lead name, t => leave? scope name [] t
  | within (name :: others), t => leave? scope name others t
  | dropping (name :: inner) twice others, t => drop? scope name inner twice others t
  | within [], _ | dropping [] _ _, _ => none

end Passing

end PlaceWeather.Markup
