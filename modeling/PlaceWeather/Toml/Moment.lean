import PlaceWeather.Calendar.Date
import PlaceWeather.Decimal.Notation
import PlaceWeather.Toml.Scalar

/-!
# Moments of TOML

Dates, times of day and both together, with or without an offset.  Settings take them as texts in
one spelling: `T` between date and time, no zeros at the end of a fraction, `Z` in upper case.
-/

namespace PlaceWeather.Toml

/-- A number of exactly so many digits within a range. -/
def fixedNumber (width lo hi : Nat) : Reads Nat := fun cs =>
  let ds := cs.take width
  let n := Decimal.natOfDigits ds
  if ds.length = width ∧ ds.all Decimal.isDigit ∧ lo ≤ n ∧ n ≤ hi then some (n, cs.drop width)
  else none

/-- What follows a character that must stand at the head. -/
def mark? (c : Char) : List Char → Option (List Char)
  | [] => none
  | d :: cs => if d = c then some cs else none

/-- A date, as it is spelled. -/
def date : Reads (List Char) := fun cs => do
  let (year, cs) ← fixedNumber 4 0 9999 cs
  let (month, cs) ← fixedNumber 2 1 12 (← mark? '-' cs)
  let (day, cs) ← fixedNumber 2 1 (Date.daysInMonth year month) (← mark? '-' cs)
  pure (Decimal.zeroPadded 4 year ++ '-' :: Decimal.zeroPadded 2 month ++
    '-' :: Decimal.zeroPadded 2 day, cs)

/-- The most digits of a fraction of a second that count. -/
def fractionDigits : Nat := 9

/-- A fraction of a second, without zeros at its end. -/
def fraction : Reads (List Char)
  | '.' :: cs =>
    let ds := cs.takeWhile Decimal.isDigit
    let kept := ((ds.take fractionDigits).reverse.dropWhile (· == '0')).reverse
    if ds.isEmpty then none
    else some (if kept.isEmpty then [] else '.' :: kept, cs.drop ds.length)
  | cs => some ([], cs)

/-- A time of day, as it is spelled. -/
def time : Reads (List Char) := fun cs => do
  let (hour, cs) ← fixedNumber 2 0 23 cs
  let (minute, cs) ← fixedNumber 2 0 59 (← mark? ':' cs)
  let (second, cs) ← fixedNumber 2 0 60 (← mark? ':' cs)
  let (rest, cs) ← fraction cs
  pure (Decimal.zeroPadded 2 hour ++ ':' :: Decimal.zeroPadded 2 minute ++
    ':' :: Decimal.zeroPadded 2 second ++ rest, cs)

/-- The offset of a moment at the end of a text, as it is spelled; an offset of nothing has a
plus. -/
def offset? : List Char → Option (List Char)
  | [] => some []
  | ['Z'] | ['z'] => some ['Z']
  | sign :: cs =>
    if sign = '+' ∨ sign = '-' then do
      let (hour, cs) ← fixedNumber 2 0 23 cs
      let (minute, cs) ← fixedNumber 2 0 59 (← mark? ':' cs)
      let sign := if hour = 0 ∧ minute = 0 then '+' else sign
      if cs.isEmpty then
        some (sign :: Decimal.zeroPadded 2 hour ++ ':' :: Decimal.zeroPadded 2 minute)
      else none
    else none

/-- A whole text that spells a moment. -/
def moment? (cs : List Char) : Option (List Char) :=
  match date cs with
  | some (d, []) => some d
  | some (d, sep :: cs) =>
    if sep = 'T' ∨ sep = 't' ∨ sep = ' ' then do
      let (t, cs) ← time cs
      pure (d ++ 'T' :: t ++ (← offset? cs))
    else none
  | none =>
    match time cs with
    | some (t, []) => some t
    | _ => none

end PlaceWeather.Toml
