import PlaceWeather.Decimal.Binary

/-!
# Reading decimal text

The number syntax of feeds, configuration and command line: an optional sign, then `inf`,
`infinity` or `nan` in any case, or digits with an optional point (digits on at least one side of
it) and an optional exponent.  Nothing may be left over, and no blanks are skipped.
-/

namespace PlaceWeather.Decimal

/-- A character `0` to `9`. -/
def isDigit (c : Char) : Bool := '0' ≤ c && c ≤ '9'

/-- The value of a digit. -/
def digitValue (c : Char) : Nat := c.toNat - '0'.toNat

/-- The natural number that a list of digits spells. -/
def natOfDigits (cs : List Char) : Nat := cs.foldl (fun n c => 10 * n + digitValue c) 0

/-- A whole number with an optional sign and at least one digit. -/
def readInt? (cs : List Char) : Option Int :=
  let unsigned (ds : List Char) : Option Nat :=
    if ds.isEmpty || !ds.all isDigit then none else some (natOfDigits ds)
  match cs with
  | '-' :: ds => (unsigned ds).map fun n => -(n : Int)
  | '+' :: ds => (unsigned ds).map fun n => (n : Int)
  | ds => (unsigned ds).map fun n => (n : Int)

/-- A natural number with an optional plus and at least one digit. -/
def readNat? (cs : List Char) : Option Nat :=
  match cs with
  | '-' :: _ => none
  | cs => (readInt? cs).map Int.toNat

/-- Positive infinity. -/
def infinity : Float := Float.ofBits 0x7FF0000000000000

/-- The value that is no number. -/
def notANumber : Float := Float.ofBits 0x7FF8000000000000

/-- The double nearest to `m * 10 ^ e`.  Beyond the range of doubles the answer does not depend on
the digits, and no power of ten is formed. -/
def nearest (m : Nat) (e : Int) : Float :=
  if m = 0 then 0.0
  else
    -- `m` has at least `m.log2 / 4 + 1` and at most `m.log2 / 3 + 1` decimal digits
    if 400 < e + m.log2 / 4 then infinity
    else if e + m.log2 / 3 < -400 then 0.0
    else Float.ofScientific m (decide (e < 0)) e.natAbs

/-- The power of ten behind an exponent mark, or nothing when there is no mark. -/
def readExponent? : List Char → Option Int
  | [] => some 0
  | c :: cs => if c = 'e' ∨ c = 'E' then readInt? cs else none

/-- Digits with an optional point and an optional exponent. -/
def readDigits? (cs : List Char) : Option Float :=
  let whole := cs.takeWhile isDigit
  let rest := cs.dropWhile isDigit
  let (fraction, rest) :=
    match rest with
    | '.' :: rest => (rest.takeWhile isDigit, rest.dropWhile isDigit)
    | rest => ([], rest)
  if whole.isEmpty && fraction.isEmpty then none
  else
    (readExponent? rest).map fun e =>
      nearest (natOfDigits (whole ++ fraction)) (e - fraction.length)

/-- A number without its sign. -/
def readUnsigned? (cs : List Char) : Option Float :=
  let lower := cs.map Char.toLower
  if lower = ['i', 'n', 'f'] ∨ lower = ['i', 'n', 'f', 'i', 'n', 'i', 't', 'y'] then some infinity
  else if lower = ['n', 'a', 'n'] then some notANumber
  else readDigits? cs

/-- The double that a text spells, correctly rounded. -/
def read? (cs : List Char) : Option Float :=
  match cs with
  | '-' :: cs => (readUnsigned? cs).map (- ·)
  | '+' :: cs => readUnsigned? cs
  | cs => readUnsigned? cs

end PlaceWeather.Decimal
