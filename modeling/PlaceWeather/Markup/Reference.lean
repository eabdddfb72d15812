import PlaceWeather.Decimal.Reading

/-!
# Character references

In text and in attribute values a character can stand as a reference: one of five names, or its
number in decimal or hexadecimal digits, between `&` and `;`.  Reading an escaped text gives the
text back (`expand_escape`).
-/

namespace PlaceWeather.Markup

namespace Reference

/-- The value of a digit in the given base, of at most sixteen digits. -/
def digitValue? (base : Nat) (c : Char) : Option Nat :=
  let value? : Option Nat :=
    if '0' ≤ c ∧ c ≤ '9' then some (c.toNat - '0'.toNat)
    else if 'a' ≤ c ∧ c ≤ 'f' then some (c.toNat - 'a'.toNat + 10)
    else if 'A' ≤ c ∧ c ≤ 'F' then some (c.toNat - 'A'.toNat + 10)
    else none
  value?.filter (· < base)

/-- The number that at least one digit spells in a base. -/
def number? (base : Nat) (cs : List Char) : Option Nat :=
  if cs.isEmpty then none
  else
    cs.foldl (fun n? c => n?.bind fun n => (digitValue? base c).map fun d => base * n + d) (some 0)

/-- The character with a number; zero names none, nor does a number that is no scalar value. -/
def scalar? (n : Nat) : Option Char :=
  if h : n ≠ 0 ∧ n.isValidChar then some (Char.ofNatAux n h.2) else none

/-- The character that a reference names, given what stands between `&` and `;`. -/
def resolve? : List Char → Option Char
  | ['a', 'm', 'p'] => some '&'
  | ['l', 't'] => some '<'
  | ['g', 't'] => some '>'
  | ['q', 'u', 'o', 't'] => some '"'
  | ['a', 'p', 'o', 's'] => some '\''
  | '#' :: 'x' :: digits => (number? 16 digits).bind scalar?
  | '#' :: digits => (number? 10 digits).bind scalar?
  | _ => none

/-- Reads a text with references; `pending` holds the name of a reference that has begun, the last
character first. -/
def expandFrom : (pending : Option (List Char)) → List Char → Option (List Char)
  | none, [] => some []
  | some _, [] => none
  | none, c :: cs => if c = '&' then expandFrom (some []) cs else (expandFrom none cs).map (c :: ·)
  | some name, c :: cs =>
    if c = ';' then (resolve? name.reverse).bind fun r => (expandFrom none cs).map (r :: ·)
    else expandFrom (some (c :: name)) cs

/-- The text that a text with references stands for; none when a reference is not valid. -/
def expand (cs : List Char) : Option (List Char) := expandFrom none cs

/-- The reference by which a character is written where it would be taken for markup. -/
def escapeChar (c : Char) : List Char :=
  if c = '&' then ['&', 'a', 'm', 'p', ';']
  else if c = '<' then ['&', 'l', 't', ';']
  else if c = '>' then ['&', 'g', 't', ';']
  else if c = '"' then ['&', 'q', 'u', 'o', 't', ';']
  else if c = '\'' then ['&', 'a', 'p', 'o', 's', ';']
  else [c]

/-- A text with references for the characters that could be taken for markup. -/
def escape (cs : List Char) : List Char := cs.flatMap escapeChar

/-- Reading an escaped text gives the text back. -/
theorem expand_escape (cs : List Char) : expand (escape cs) = some cs := by
  unfold expand
  induction cs with
  | nil => rfl
  | cons c cs ih =>
    have step : escape (c :: cs) = escapeChar c ++ escape cs := by simp [escape]
    rw [step]
    unfold escapeChar
    split
    · subst_vars; simp [expandFrom, resolve?, ih]
    · split
      · subst_vars; simp [expandFrom, resolve?, ih]
      · split
        · subst_vars; simp [expandFrom, resolve?, ih]
        · split
          · subst_vars; simp [expandFrom, resolve?, ih]
          · split
            · subst_vars; simp [expandFrom, resolve?, ih]
            · rename_i h _ _ _ _
              simp [expandFrom, h, ih]

end Reference

end PlaceWeather.Markup
