import PlaceWeather.Decimal.Reading
import PlaceWeather.Settings.Value

/-!
# Scalars of TOML

Strings in four kinds of quotes, whole numbers in four bases, floating point numbers, truth values
and moments.  A reader gives what stands at the head of a text, and the rest of it.
-/

namespace PlaceWeather.Toml

/-- Reads something at the head of a text. -/
abbrev Reads (α : Type) := List Char → Option (α × List Char)

/-- A blank inside a line. -/
def isBlank (c : Char) : Bool := c == ' ' || c == '\t'

/-- A text from its first character that is no blank. -/
def skipBlanks (cs : List Char) : List Char := cs.dropWhile isBlank

/-- A character that may stand in a comment or a literal string. -/
def isPlain (c : Char) : Bool := c == '\t' || (0x20 ≤ c.toNat && c.toNat != 0x7F)

/-- The rest of a text behind a line end. -/
def newline? : List Char → Option (List Char)
  | '\n' :: rest => some rest
  | '\r' :: '\n' :: rest => some rest
  | _ => none

/-! ## Strings -/

/-- The value of a hexadecimal digit. -/
def hexValue? (c : Char) : Option Nat :=
  if Decimal.isDigit c then some (Decimal.digitValue c)
  else if 'a' ≤ c ∧ c ≤ 'f' then some (c.toNat - 'a'.toNat + 10)
  else if 'A' ≤ c ∧ c ≤ 'F' then some (c.toNat - 'A'.toNat + 10)
  else none

/-- The character whose number has so many hexadecimal digits. -/
def scalar (digits : Nat) : Reads Char := fun cs =>
  if cs.length < digits then none
  else do
    let values ← (cs.take digits).mapM hexValue?
    let n := values.foldl (fun n d => 16 * n + d) 0
    if h : n.isValidChar then some (Char.ofNatAux n h, cs.drop digits) else none

/-- What stands behind a backslash. -/
def escape : Reads Char
  | 'b' :: cs => some (Char.ofNat 8, cs)
  | 't' :: cs => some ('\t', cs)
  | 'n' :: cs => some ('\n', cs)
  | 'f' :: cs => some (Char.ofNat 12, cs)
  | 'r' :: cs => some ('\r', cs)
  | '"' :: cs => some ('"', cs)
  | '\\' :: cs => some ('\\', cs)
  | 'u' :: cs => scalar 4 cs
  | 'U' :: cs => scalar 8 cs
  | _ => none

/-- A string in double quotes, behind the opening quote. -/
def basicTail : (fuel : Nat) → Reads (List Char)
  | 0, _ => none
  | _, [] => none
  | _, '"' :: cs => some ([], cs)
  | fuel + 1, '\\' :: cs => do
    let (c, cs) ← escape cs
    let (tail, rest) ← basicTail fuel cs
    pure (c :: tail, rest)
  | fuel + 1, c :: cs =>
    if isPlain c then (basicTail fuel cs).map fun (tail, rest) => (c :: tail, rest) else none

/-- A string in single quotes, behind the opening quote. -/
def literalTail : Reads (List Char) := fun cs =>
  let body := cs.takeWhile fun c => c != '\'' && isPlain c
  match cs.drop body.length with
  | '\'' :: rest => some (body, rest)
  | _ => none

/-- The end of a string of several lines: at least three quotes, of which up to two belong to the
string.  None when there are fewer. -/
def closing? (quote : Char) (cs : List Char) : Option (List Char × List Char) :=
  let run := (cs.takeWhile (· == quote)).length
  if run < 3 then none else some (List.replicate (min run 5 - 3) quote, cs.drop (min run 5))

/-- A text behind blanks and line ends. -/
def skipLines : (fuel : Nat) → List Char → List Char
  | 0, cs => cs
  | fuel + 1, cs =>
    match newline? (skipBlanks cs) with
    | some rest => skipLines fuel rest
    | none => skipBlanks cs

/-- A string of several lines, behind its opening quotes; in double quotes there are escapes, and a
backslash at the end of a line joins it to the next text. -/
def linesTail (quote : Char) : (fuel : Nat) → Reads (List Char)
  | 0, _ => none
  | fuel + 1, cs =>
    match closing? quote cs with
    | some found => some found
    | none =>
      match newline? cs with
      | some rest => (linesTail quote fuel rest).map fun (tail, rest) => ('\n' :: tail, rest)
      | none =>
        match cs with
        | [] => none
        | c :: cs =>
          if c = '\\' ∧ quote = '"' then
            if (newline? (skipBlanks cs)).isSome then linesTail quote fuel (skipLines fuel cs)
            else do
              let (c, cs) ← escape cs
              let (tail, rest) ← linesTail quote fuel cs
              pure (c :: tail, rest)
          else if isPlain c then
            (linesTail quote fuel cs).map fun (tail, rest) => (c :: tail, rest)
          else none

/-- A string of several lines without the line end behind its opening quotes. -/
def linesString (quote : Char) (cs : List Char) : Option (List Char × List Char) :=
  let body := (newline? cs).getD cs
  linesTail quote (body.length + 1) body

/-- A string of one line, as it may stand in a key. -/
def shortString : Reads String
  | '"' :: cs => (basicTail (cs.length + 1) cs).map fun (s, rest) => (String.ofList s, rest)
  | '\'' :: cs => (literalTail cs).map fun (s, rest) => (String.ofList s, rest)
  | _ => none

/-- A string. -/
def string : Reads String
  | '"' :: '"' :: '"' :: cs => (linesString '"' cs).map fun (s, rest) => (String.ofList s, rest)
  | '\'' :: '\'' :: '\'' :: cs => (linesString '\'' cs).map fun (s, rest) => (String.ofList s, rest)
  | cs => shortString cs

/-! ## Numbers -/

/-- Digits with single underscores between them, which are dropped. -/
def plainDigits? (isDigit : Char → Bool) (cs : List Char) : Option (List Char) :=
  let pieces := cs.splitOn '_'
  if pieces.all fun p => !p.isEmpty && p.all isDigit then some pieces.flatten else none

/-- A sign, and what stands behind it. -/
def splitSign : List Char → List Char × List Char
  | '+' :: cs => (['+'], cs)
  | '-' :: cs => (['-'], cs)
  | cs => ([], cs)

/-- The digits of a whole number: none before others is a zero. -/
def wholeDigits? (cs : List Char) : Option (List Char) :=
  (plainDigits? Decimal.isDigit cs).filter fun ds => ds.length == 1 || ds.head? != some '0'

/-- A number in a base that is a power of two. -/
def based? (base : Nat) (cs : List Char) : Option Int := do
  let isDigit (c : Char) : Bool := ((hexValue? c).filter (· < base)).isSome
  let ds ← plainDigits? isDigit cs
  pure (ds.foldl (fun n c => base * n + (hexValue? c).getD 0) 0 : Nat)

/-- A whole number of 64 bits. -/
def whole? (cs : List Char) : Option Int :=
  let n? : Option Int :=
    match cs with
    | '0' :: 'x' :: cs => based? 16 cs
    | '0' :: 'o' :: cs => based? 8 cs
    | '0' :: 'b' :: cs => based? 2 cs
    | cs =>
      let (sign, ds) := splitSign cs
      (wholeDigits? ds).bind fun ds => Decimal.readInt? (sign ++ ds)
  n?.filter fun n => decide (Decimal.int64Min ≤ n ∧ n ≤ Decimal.int64Max)

/-- The exponent of a floating point number with its mark, or nothing. -/
def exponent? : List Char → Option (List Char)
  | [] => some []
  | c :: cs =>
    if c = 'e' ∨ c = 'E' then do
      let (sign, ds) := splitSign cs
      pure ('e' :: sign ++ (← plainDigits? Decimal.isDigit ds))
    else none

/-- A floating point number: a whole part, and a fraction or an exponent or both. -/
def number? (cs : List Char) : Option Float :=
  let (sign, unsigned) := splitSign cs
  if unsigned = ['i', 'n', 'f'] ∨ unsigned = ['n', 'a', 'n'] then Decimal.read? cs
  else do
    let inDigits (c : Char) : Bool := Decimal.isDigit c || c == '_'
    let ds ← wholeDigits? (unsigned.takeWhile inDigits)
    let rest ←
      match unsigned.dropWhile inDigits with
      | '.' :: cs => do
        let fraction ← plainDigits? Decimal.isDigit (cs.takeWhile inDigits)
        pure ('.' :: fraction ++ (← exponent? (cs.dropWhile inDigits)))
      | [] => none
      | cs => exponent? cs
    let x ← Decimal.read? (sign ++ ds ++ rest)
    if x == Decimal.infinity then none else some x

end PlaceWeather.Toml
