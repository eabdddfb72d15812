import PlaceWeather.Markup.Character

/-!
# Document type declarations

A document type declaration is read one character at a time and only to find its end.  It may hold
an internal subset of declarations, comments and processing instructions between brackets; in it
only entities, attribute lists and notations are written with quotes.
-/

namespace PlaceWeather.Markup

/-- The part of a document type declaration that is being read. -/
inductive Declaration where
  /-- Before the internal subset: whether a name has begun, and the quote inside one. -/
  | head (named : Bool) (quote : Option Char)
  /-- Inside the internal subset, between its declarations. -/
  | subset
  /-- Behind `<` in the subset, with the characters that followed so far, the last first. -/
  | begun (seen : List Char)
  /-- Inside a declaration of the subset that may hold quotes, and the quote inside one. -/
  | quoted (quote : Option Char)
  /-- Inside any other declaration of the subset. -/
  | plain
  /-- Inside a comment of the subset, behind so many hyphens in a row. -/
  | comment (hyphens : Nat)
  /-- Inside a processing instruction of the subset, behind a question mark or not. -/
  | instruction (asked : Bool)
  /-- Behind the internal subset. -/
  | tail
  /-- Behind the end of the whole declaration. -/
  | ended
  deriving DecidableEq, Repr

namespace Declaration

/-- The characters behind `<` with which the declarations of a subset begin that may hold quotes. -/
def quotedMarks : List String := ["!ENTITY", "!ATTLIST", "!NOTATION"]

/-- The characters behind `<` in a subset, the last first, decide what begins there. -/
def ofBegun (seen : List Char) : Declaration :=
  let marks := seen.reverse
  if marks = ['?'] then instruction false
  else if marks = ['!', '-', '-'] then comment 0
  else if quotedMarks.any (·.toList == marks) then quoted none
  else if marks.isPrefixOf ['!', '-', '-'] || quotedMarks.any (marks.isPrefixOf ·.toList) then
    begun seen
  else if seen.head? = some '>' then subset
  else plain

/-- One character before the internal subset.  The type must be named there or the subset begin. -/
def stepHead? (named : Bool) (quote : Option Char) (c : Char) : Option Declaration :=
  if quote.isSome then some (head named (quoteAfter quote c))
  else if c = '>' then if named then some ended else none
  else if c = '[' then some subset
  else some (head (named || !isSpace c) (quoteAfter none c))

/-- Reads one character; none when the declaration is ill formed. -/
def step? (part : Declaration) (c : Char) : Option Declaration :=
  match part with
  | head named quote => stepHead? named quote c
  | subset => some (if c = ']' then tail else if c = '<' then begun [] else subset)
  | begun seen => some (ofBegun (c :: seen))
  | quoted quote =>
    some (if c = '>' ∧ quote.isNone then subset else quoted (quoteAfter quote c))
  | plain => some (if c = '>' then subset else plain)
  | comment hyphens =>
    if c = '-' then some (comment (min 2 (hyphens + 1)))
    else some (if c = '>' ∧ hyphens = 2 then subset else comment 0)
  | instruction asked => some (if c = '>' ∧ asked then subset else instruction (c == '?'))
  | tail => some (if c = '>' then ended else tail)
  | ended => some ended

end Declaration

end PlaceWeather.Markup
