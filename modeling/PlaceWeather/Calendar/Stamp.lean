import PlaceWeather.Calendar.Time
import PlaceWeather.Decimal.Notation
import PlaceWeather.Decimal.Reading
import PlaceWeather.Text.Pieces

/-!
# Timestamps

The text `YYYY-MM-DDTHH:MM:SS` of a local time, how it is written and how it is read.  Years outside
0 to 9999 carry a sign.  Reading is more lenient than writing: fields may have fewer digits, blanks
may stand before a number, and a signed year may have any number of digits.  The first thing wrong
decides the fault; whether the day exists is asked last.
-/

namespace PlaceWeather

namespace Stamp

/-! ## Writing -/

/-- A year: four digits, or a sign and at least four digits outside 0 to 9999. -/
def yearChars (y : Int) : List Char :=
  if 0 ≤ y ∧ y ≤ 9999 then Decimal.zeroPadded 4 y.toNat
  else (if y < 0 then '-' else '+') :: Decimal.zeroPadded 4 y.natAbs

/-- Two digits. -/
def twoChars (n : Nat) : List Char := Decimal.zeroPadded 2 n

/-- The text `YYYY-MM-DD`. -/
def dateChars (d : Date) : List Char :=
  let c := d.civil
  yearChars c.year ++ '-' :: twoChars c.month ++ '-' :: twoChars c.day

/-- The text `HH:MM`. -/
def clockChars (t : LocalTime) : List Char := twoChars t.hour ++ ':' :: twoChars t.minute

/-- The text `YYYY-MM-DDTHH:MM:SS`. -/
def chars (t : LocalTime) : List Char :=
  dateChars t.date ++ 'T' :: clockChars t ++ ':' :: twoChars t.secondOfMinute

/-! ## Reading -/

/-- Why a text is no timestamp. -/
inductive Fault where
  /-- The text ends where a number or a mark is expected. -/
  | premature
  /-- Something else stands where a number or a mark is expected. -/
  | invalid
  /-- A number is too large, or outside its field, or there is no such day. -/
  | outOfRange
  /-- Something is left over behind the seconds. -/
  | trailing
  deriving DecidableEq, Repr

/-- The wording of a fault. -/
def Fault.message : Fault → String
  | .premature => "premature end of input"
  | .invalid => "input contains invalid characters"
  | .outOfRange => "input is out of range"
  | .trailing => "trailing input"

/-- The mark `c`. -/
def readMark (c : Char) : List Char → Except Fault (List Char)
  | [] => .error .premature
  | d :: cs => if d = c then .ok cs else .error .invalid

/-- The digits at the head of a text, at most `width` of them when a width is given. -/
def leadingDigits (width : Option Nat) (cs : List Char) : List Char :=
  let ds := cs.takeWhile Decimal.isDigit
  match width with
  | none => ds
  | some w => ds.take w

/-- A natural number of at least one digit and at most `width` digits. -/
def readNat (width : Option Nat) (cs : List Char) : Except Fault (Nat × List Char) :=
  if cs.isEmpty then .error .premature
  else
    let ds := leadingDigits width cs
    if ds.isEmpty then .error .invalid
    else
      let n := Decimal.natOfDigits ds
      if Decimal.int64Max < n then .error .outOfRange else .ok (n, cs.drop ds.length)

/-- A number of at most two digits within a range, blanks before it being skipped. -/
def readField (lo hi : Nat) (cs : List Char) : Except Fault (Nat × List Char) := do
  let (n, rest) ← readNat (some 2) (Text.trimStart cs)
  if lo ≤ n ∧ n ≤ hi then pure (n, rest) else throw .outOfRange

/-- A year: at most four digits, or a sign and any number of digits; it fits in 32 bits. -/
def readYear (cs : List Char) : Except Fault (Int × List Char) := do
  let (y, rest) : Int × List Char ←
    match Text.trimStart cs with
    | '-' :: cs => do
      let (n, rest) ← readNat none cs
      pure (-(n : Int), rest)
    | '+' :: cs => do
      let (n, rest) ← readNat none cs
      pure ((n : Int), rest)
    | cs => do
      let (n, rest) ← readNat (some 4) cs
      pure ((n : Int), rest)
  if Decimal.int32Min ≤ y ∧ y ≤ Decimal.int32Max then pure (y, rest) else throw .outOfRange

/-- The local time that a text spells. -/
def read (cs : List Char) : Except Fault LocalTime := do
  let (year, cs) ← readYear cs
  let cs ← readMark '-' cs
  let (month, cs) ← readField 1 12 cs
  let cs ← readMark '-' cs
  let (day, cs) ← readField 1 31 cs
  let cs ← readMark 'T' cs
  let (hour, cs) ← readField 0 23 cs
  let cs ← readMark ':' cs
  let (minute, cs) ← readField 0 59 cs
  let cs ← readMark ':' cs
  let (second, cs) ← readField 0 60 cs
  if !cs.isEmpty then throw .trailing
  match (Date.ofCivil? year month day).bind fun d => LocalTime.ofClock? d hour minute second with
  | some t => pure t
  | none => throw .outOfRange

end Stamp

/-- The text `YYYY-MM-DD` of a date. -/
def Date.text (d : Date) : String := String.ofList (Stamp.dateChars d)

/-- The text `YYYY-MM-DDTHH:MM:SS` of a local time. -/
def LocalTime.text (t : LocalTime) : String := String.ofList (Stamp.chars t)

/-- The text `HH:MM` of a local time; a leap second belongs to the minute that it ends. -/
def LocalTime.clockText (t : LocalTime) : String := String.ofList (Stamp.clockChars t)

/-- The text of an instant: its UTC time with a `Z` behind it. -/
def Instant.text (t : Instant) : String := t.utc.text ++ "Z"

namespace Date

/-- The English name of the weekday. -/
def weekdayName (d : Date) : String :=
  match d.weekday with
  | 0 => "Monday"
  | 1 => "Tuesday"
  | 2 => "Wednesday"
  | 3 => "Thursday"
  | 4 => "Friday"
  | 5 => "Saturday"
  | _ => "Sunday"

/-- The English name of the month. -/
def monthName (d : Date) : String :=
  match d.civil.month with
  | 1 => "January"
  | 2 => "February"
  | 3 => "March"
  | 4 => "April"
  | 5 => "May"
  | 6 => "June"
  | 7 => "July"
  | 8 => "August"
  | 9 => "September"
  | 10 => "October"
  | 11 => "November"
  | _ => "December"

/-- Weekday, month and day, such as `Monday, October 07`. -/
def longText (d : Date) : String :=
  d.weekdayName ++ ", " ++ d.monthName ++ " " ++ String.ofList (Stamp.twoChars d.civil.day)

end Date

end PlaceWeather
