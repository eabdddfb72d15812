import PlaceWeather.Decimal.Shortest

/-!
# Decimal notation

How numbers are written: plain positional notation, never an exponent; no point without a digit
behind it; a minus also before zero.  `text` writes the fewest digits that read back, `fixed` a
given number of places.
-/

namespace PlaceWeather.Decimal

/-- The decimal digits of a natural number. -/
def natDigits (n : Nat) : List Char := Nat.toDigits 10 n

/-- The decimal text of a whole number. -/
def intDigits (n : Int) : List Char :=
  if n < 0 then '-' :: natDigits n.natAbs else natDigits n.natAbs

/-- The decimal digits of a natural number with zeros before it up to a width. -/
def zeroPadded (width n : Nat) : List Char :=
  let ds := natDigits n
  List.replicate (width - ds.length) '0' ++ ds

/-- A sign and what follows it. -/
def signed (negative : Bool) (cs : List Char) : List Char := if negative then '-' :: cs else cs

/-- The texts of the values that are no numbers. -/
def special : Binary → List Char
  | .infinite negative => signed negative ['i', 'n', 'f']
  | _ => ['N', 'a', 'N']

/-- `digits * 10 ^ exponent` in positional notation. -/
def positional (d : Digits) : List Char :=
  if 0 ≤ d.exponent then
    natDigits d.digits ++ List.replicate d.exponent.toNat '0'
  else
    let places := (-d.exponent).toNat
    let ds := zeroPadded (places + 1) d.digits
    let whole := ds.take (ds.length - places)
    let fraction := (ds.drop (ds.length - places)).reverse.dropWhile (· == '0') |>.reverse
    if fraction.isEmpty then whole else whole ++ '.' :: fraction

/-- The shortest text of a double. -/
def chars (x : Float) : List Char :=
  match Binary.ofFloat x with
  | .finite negative m e =>
    signed negative (if m = 0 then ['0'] else positional (shortest m e))
  | b => special b

/-- The shortest text of a double: the fewest digits that read back, in positional notation. -/
def text (x : Float) : String := String.ofList (chars x)

/-- A double with a fixed number of places: its exact value rounded, a half to the even
neighbour. -/
def fixed (places : Nat) (x : Float) : String :=
  match Binary.ofFloat x with
  | .finite negative m e =>
    let (num, den) := Binary.quotient m e
    let n := Binary.roundDivEven (num * tenPow places) den
    let ds := zeroPadded (places + 1) n
    let whole := ds.take (ds.length - places)
    let fraction := ds.drop (ds.length - places)
    String.ofList (signed negative (if places = 0 then whole else whole ++ '.' :: fraction))
  | b => String.ofList (special b)

/-- The decimal text of a whole number. -/
def intText (n : Int) : String := String.ofList (intDigits n)

end PlaceWeather.Decimal
