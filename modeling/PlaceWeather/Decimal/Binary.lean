/-!
# The exact value of a double

A double is a sign, a natural number `m` and a power of two, or one of the special values.  Rounding
to a whole number is done on this exact value, so no step of it depends on the rounding mode of the
machine.
-/

namespace PlaceWeather.Decimal

/-- A power of two. -/
def twoPow (n : Nat) : Nat := Nat.pow 2 n

/-- A power of ten. -/
def tenPow (n : Nat) : Nat := Nat.pow 10 n

/-- What a double stands for: `± mantissa * 2 ^ exponent`, an infinity, or no number. -/
inductive Binary where
  | nan
  | infinite (negative : Bool)
  | finite (negative : Bool) (mantissa : Nat) (exponent : Int)
  deriving DecidableEq, Repr

namespace Binary

/-- Takes the bits of a double apart: one sign bit, eleven exponent bits, fifty-two fraction bits.
The fraction of a normal number has a leading one that is not stored. -/
def ofBits (bits : Nat) : Binary :=
  let negative := bits / twoPow 63 % 2 == 1
  let exponent : Nat := bits / twoPow 52 % twoPow 11
  let fraction := bits % twoPow 52
  if exponent = 2047 then
    if fraction = 0 then infinite negative else nan
  else if exponent = 0 then
    finite negative fraction (-1074)
  else
    finite negative (fraction + twoPow 52) ((exponent : Int) - 1075)

/-- The exact value of a double. -/
def ofFloat (x : Float) : Binary := ofBits x.toBits.toNat

/-- The quotient `num / den` to the nearest whole number, a half going up. -/
def roundDivUp (num den : Nat) : Nat := (2 * num + den) / (2 * den)

/-- The quotient `num / den` to the nearest whole number, a half going to the even neighbour. -/
def roundDivEven (num den : Nat) : Nat :=
  let q := num / den
  let r := num % den
  if 2 * r < den then q else if den < 2 * r then q + 1 else if q % 2 = 0 then q else q + 1

/-- `m * 2 ^ e` as a quotient of two natural numbers. -/
def quotient (m : Nat) (e : Int) : Nat × Nat :=
  if 0 ≤ e then (m * twoPow e.toNat, 1) else (m, twoPow (-e).toNat)

end Binary

/-- A whole number held within `lo` and `hi`. -/
def clamp (lo hi n : Int) : Int := if n < lo then lo else if hi < n then hi else n

/-- The least whole number of 32 bits. -/
def int32Min : Int := -2147483648
/-- The greatest whole number of 32 bits. -/
def int32Max : Int := 2147483647
/-- The least whole number of 64 bits. -/
def int64Min : Int := -9223372036854775808
/-- The greatest whole number of 64 bits. -/
def int64Max : Int := 9223372036854775807

/-- The first natural number that needs more than 32 bits. -/
def natBound32 : Nat := 4294967296
/-- The first natural number that needs more than 64 bits. -/
def natBound64 : Nat := 18446744073709551616

/-- A double to a whole number of the range `lo` to `hi`: `rounding` decides about the magnitude,
given the sign; a value outside is held at the nearer end, and no number counts as zero. -/
def toWhole (rounding : Bool → Nat → Nat → Nat) (lo hi : Int) (x : Float) : Int :=
  match Binary.ofFloat x with
  | .nan => 0
  | .infinite negative => if negative then lo else hi
  | .finite negative m e =>
    let (num, den) := Binary.quotient m e
    let n : Int := rounding negative num den
    clamp lo hi (if negative then -n else n)

/-- A double cut off toward zero, as a whole number of 32 bits. -/
def truncate32 (x : Float) : Int :=
  toWhole (fun _ num den => num / den) int32Min int32Max x

/-- A double to the nearest whole number of 32 bits, a half going away from zero. -/
def round32 (x : Float) : Int :=
  toWhole (fun _ num den => Binary.roundDivUp num den) int32Min int32Max x

/-- A double to the nearest whole number of 64 bits, a half going away from zero. -/
def round64 (x : Float) : Int :=
  toWhole (fun _ num den => Binary.roundDivUp num den) int64Min int64Max x

/-- A double cut off toward zero, as a whole number of 64 bits. -/
def truncate64 (x : Float) : Int :=
  toWhole (fun _ num den => num / den) int64Min int64Max x

/-- The greatest whole number of 64 bits that does not exceed a double. -/
def floor64 (x : Float) : Int :=
  toWhole (fun negative num den => if negative then (num + den - 1) / den else num / den)
    int64Min int64Max x

/-- A double to the nearest whole double, a half going away from zero.  The sign of a zero is kept,
and from `2 ^ 52` on every double is whole already. -/
def roundWhole (x : Float) : Float :=
  match Binary.ofFloat x with
  | .finite negative m e =>
    if 0 ≤ e then x
    else
      let (num, den) := Binary.quotient m e
      let y := Float.ofNat (Binary.roundDivUp num den)
      if negative then -y else y
  | _ => x

/-- `b ^ n` by repeated squaring, the low bits of `n` first; `fuel` bounds the number of bits. -/
def powerBySquares : (fuel : Nat) → (b : Float) → (n : Nat) → (acc : Float) → Float
  | 0, _, _, acc => acc
  | fuel + 1, b, n, acc =>
    let acc := if n % 2 = 1 then acc * b else acc
    if n / 2 = 0 then acc else powerBySquares fuel (b * b) (n / 2) acc

/-- Ten to a whole power: repeated squaring, and the reciprocal of it for a negative power. -/
def powerOfTen (n : Int) : Float :=
  let p := powerBySquares (n.natAbs + 1) 10.0 n.natAbs 1.0
  if n < 0 then 1.0 / p else p

/-- A double to a number of decimal places, a half going away from zero: scale, round and scale
back. -/
def roundTo (x : Float) (places : Int) : Float :=
  let factor := powerOfTen places
  roundWhole (x * factor) / factor

end PlaceWeather.Decimal
