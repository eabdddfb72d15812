/-!
# Percent encoding

Text is encoded byte by byte in UTF-8: letters, digits and `-_.~` stand for themselves, every other
byte is written as a percent sign and two upper-case hexadecimal digits.  A path keeps its slashes.
`decode` reads the bytes back, and `decodeText?` the text.
-/

namespace PlaceWeather.Percent

/-- Characters that stand for themselves. -/
def isUnreserved (c : Char) : Bool :=
  ('A' ≤ c && c ≤ 'Z') || ('a' ≤ c && c ≤ 'z') || ('0' ≤ c && c ≤ '9') ||
    c == '-' || c == '_' || c == '.' || c == '~'

/-- An upper-case hexadecimal digit. -/
def hexDigit (n : Nat) : Char :=
  if n < 10 then Char.ofNat ('0'.toNat + n) else Char.ofNat ('A'.toNat + (n - 10))

/-- The value of a hexadecimal digit. -/
def hexValue? (c : Char) : Option Nat :=
  if '0' ≤ c ∧ c ≤ '9' then some (c.toNat - '0'.toNat)
  else if 'A' ≤ c ∧ c ≤ 'F' then some (c.toNat - 'A'.toNat + 10)
  else if 'a' ≤ c ∧ c ≤ 'f' then some (c.toNat - 'a'.toNat + 10)
  else none

/-- A percent sign and the two digits of a byte. -/
def escapeByte (b : UInt8) : List Char :=
  ['%', hexDigit (b.toNat / 16), hexDigit (b.toNat % 16)]

/-- The encoding of one character. -/
def encodeChar (c : Char) : List Char :=
  if isUnreserved c then [c] else (String.utf8EncodeChar c).flatMap escapeByte

/-- The encoding of a text. -/
def encode (cs : List Char) : List Char := cs.flatMap encodeChar

/-- A text with each `%2F` in it, found from left to right, replaced by a slash. -/
def restoreSlashes : List Char → List Char
  | [] => []
  | '%' :: '2' :: 'F' :: rest => '/' :: restoreSlashes rest
  | c :: rest => c :: restoreSlashes rest

/-- The encoding of a path: the text is encoded, then its slashes are put back. -/
def encodePath (cs : List Char) : List Char := restoreSlashes (encode cs)

/-- The bytes that an encoded text stands for; a percent sign without two digits is no encoding. -/
def decode : List Char → Option (List UInt8)
  | [] => some []
  | '%' :: a :: b :: rest =>
    match hexValue? a, hexValue? b with
    | some h, some l => (decode rest).map (UInt8.ofNat (16 * h + l) :: ·)
    | _, _ => none
  | c :: rest =>
    if c = '%' then none else (decode rest).map (String.utf8EncodeChar c ++ ·)

/-- The text that an encoded text stands for; bytes that are no UTF-8 stand for none. -/
def decodeText? (cs : List Char) : Option String :=
  (decode cs).bind fun bytes => String.fromUTF8? bytes.toByteArray

end PlaceWeather.Percent
