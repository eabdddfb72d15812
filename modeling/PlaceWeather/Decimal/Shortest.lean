import PlaceWeather.Decimal.Binary

/-!
# The fewest digits that read back

Every double rounds from a whole interval of real numbers.  The text of a double uses the fewest
decimal digits whose value lies in that interval, and of the candidates with so many digits the
one nearest to the double.  All arithmetic is on natural numbers.
-/

namespace PlaceWeather.Decimal

/-- Decimal digits and the power of ten of the last of them: `digits * 10 ^ exponent`. -/
structure Digits where
  digits : Nat
  exponent : Int
  deriving DecidableEq, Repr

/-- The reals that round to `m * 2 ^ e`, in quarter steps of `2 ^ e`: the lower end, the value and
the upper end over one denominator, and whether the ends belong to it.  Below a power of two the
doubles lie twice as close, so the lower end is nearer there. -/
structure Interval where
  low : Nat
  value : Nat
  high : Nat
  closed : Bool

/-- The interval of `m * 2 ^ e`. -/
def Interval.ofBinary (m : Nat) (e : Int) : Interval where
  low := 4 * m - (if m = twoPow 52 ∧ -1074 < e then 1 else 2)
  value := 4 * m
  high := 4 * m + 2
  closed := m % 2 = 0

/-- The number of decimal digits of a natural number, none for zero. -/
def digitCount (n : Nat) : Nat := if n = 0 then 0 else (Nat.toDigits 10 n).length

/-- The least `k` with `num / den < 10 ^ k`, found from the digit counts, which leave two
choices. -/
def decimalPoint (num den : Nat) : Int :=
  let guess : Int := (digitCount num : Int) - digitCount den
  let below (k : Int) : Bool :=
    if 0 ≤ k then num < tenPow k.toNat * den else num * tenPow (-k).toNat < den
  if below guess then guess else guess + 1

/-- The first grid, from `10 ^ (point - count)` on to finer ones, with a point inside the interval;
`fuel` bounds the number of digits tried.  Of two hits the nearer wins, and a tie goes up. -/
def shortestFrom (interval : Interval) (scaleNum scaleDen : Nat) (point : Int) :
    (fuel count : Nat) → Digits
  | 0, count => { digits := interval.value * scaleNum / scaleDen, exponent := point - count }
  | fuel + 1, count =>
    let exponent : Int := point - count
    -- a grid point `d * 10 ^ exponent` is compared with `q * scaleNum / scaleDen` as `d * unit`
    let (unitNum, unitDen) : Nat × Nat :=
      if 0 ≤ exponent then (tenPow exponent.toNat, 1) else (1, tenPow (-exponent).toNat)
    let step := unitNum * scaleDen
    let place (q : Nat) : Nat := q * scaleNum * unitDen
    let inside (d : Nat) : Bool :=
      let v := d * step
      if interval.closed then place interval.low ≤ v && v ≤ place interval.high
      else place interval.low < v && v < place interval.high
    let d := place interval.value / step
    let rest := place interval.value % step
    match inside d, inside (d + 1) with
    | true, true => if 2 * rest < step then ⟨d, exponent⟩ else ⟨d + 1, exponent⟩
    | true, false => ⟨d, exponent⟩
    | false, true => ⟨d + 1, exponent⟩
    | false, false => shortestFrom interval scaleNum scaleDen point fuel (count + 1)

/-- The fewest digits that read back as `m * 2 ^ e`, for a mantissa that is not zero. -/
def shortest (m : Nat) (e : Int) : Digits :=
  let (num, den) := Binary.quotient m e
  let (scaleNum, scaleDen) := Binary.quotient 1 (e - 2)
  shortestFrom (Interval.ofBinary m e) scaleNum scaleDen (decimalPoint num den) 17 1

end PlaceWeather.Decimal
