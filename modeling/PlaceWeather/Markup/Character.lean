/-!
# Characters of markup

Which characters count as white space, which end a line, and which quote the text behind them.
-/

namespace PlaceWeather.Markup

/-- White space of markup. -/
def isSpace (c : Char) : Bool := c == ' ' || c == '\t' || c == '\n' || c == '\r'

/-- The control character that ends a line and begins the next, `U+0085`. -/
def nextLine : Char := Char.ofNat 0x85

/-- The character that separates lines, `U+2028`. -/
def lineSeparator : Char := Char.ofNat 0x2028

/-- The mark that may stand before a document to show the order of bytes. -/
def byteOrderMark : Char := Char.ofNat 0xFEFF

/-- The quote that is open behind a character, given the one that is open before it. -/
def quoteAfter (quote : Option Char) (c : Char) : Option Char :=
  match quote with
  | some q => if c = q then none else some q
  | none => if c = '"' ∨ c = '\'' then some c else none

end PlaceWeather.Markup
