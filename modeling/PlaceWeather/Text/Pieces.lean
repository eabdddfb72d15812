/-!
# Blanks, leads and pieces

Which characters count as white space and what is left of a text without the white space around
it; what follows a leading text; the pieces of a text between separators.  Feeds, page addresses
and timestamps are all cut up by these rules.  Splitting loses nothing (`join_split`), and a lead
can be put back (`eq_append_of_stripStart?`).
-/

namespace PlaceWeather.Text

/-- The characters with the Unicode property `White_Space`. -/
def isBlank (c : Char) : Bool :=
  let n := c.toNat
  (0x09 ≤ n && n ≤ 0x0D) || n == 0x20 || n == 0x85 || n == 0xA0 || n == 0x1680 ||
  (0x2000 ≤ n && n ≤ 0x200A) || n == 0x2028 || n == 0x2029 || n == 0x202F || n == 0x205F ||
  n == 0x3000

/-- The text from its first character that is not blank. -/
def trimStart (cs : List Char) : List Char := cs.dropWhile isBlank

/-- The text up to its last character that is not blank. -/
def trimEnd (cs : List Char) : List Char := (cs.reverse.dropWhile isBlank).reverse

/-- The text without the blank characters at either end. -/
def trim (cs : List Char) : List Char := trimEnd (trimStart cs)

/-- `trim` on strings. -/
def trimmed (s : String) : String := String.ofList (trim s.toList)

theorem trimStart_cons_of_not_blank {c : Char} (h : isBlank c = false) (cs : List Char) :
    trimStart (c :: cs) = c :: cs := by
  simp [trimStart, h]

/-- Letters `A` to `Z` in lower case; every other character is kept. -/
def lowerAscii (s : String) : String := String.ofList (s.toList.map Char.toLower)

/-- The text with blanks (`U+0020`) behind it up to a width counted in characters. -/
def padEnd (width : Nat) (s : String) : String :=
  s ++ String.ofList (List.replicate (width - s.length) ' ')

/-- The text with blanks (`U+0020`) before it up to a width counted in characters. -/
def padStart (width : Nat) (s : String) : String :=
  String.ofList (List.replicate (width - s.length) ' ') ++ s

/-- What follows a leading text, when the text begins with it. -/
def stripStart? : (lead cs : List Char) → Option (List Char)
  | [], cs => some cs
  | _ :: _, [] => none
  | p :: ps, c :: cs => if p = c then stripStart? ps cs else none

/-- Whether a text begins with another. -/
def startsWith (lead cs : List Char) : Bool := (stripStart? lead cs).isSome

theorem stripStart?_append (lead cs : List Char) : stripStart? lead (lead ++ cs) = some cs := by
  induction lead with
  | nil => rfl
  | cons p ps ih => simp [stripStart?, ih]

theorem eq_append_of_stripStart? {lead cs rest : List Char}
    (h : stripStart? lead cs = some rest) : cs = lead ++ rest := by
  induction lead generalizing cs with
  | nil => simpa [stripStart?] using h
  | cons p ps ih =>
    cases cs with
    | nil => simp [stripStart?] at h
    | cons c cs =>
      by_cases hpc : p = c
      · subst hpc
        simp only [stripStart?, if_true] at h
        simp [ih h]
      · simp [stripStart?, hpc] at h

/-- The pieces of a text between the places where one character stands; a text without that
character is one piece, and there is always at least one. -/
def split (sep : Char) : List Char → List (List Char)
  | [] => [[]]
  | c :: cs =>
    if c = sep then [] :: split sep cs
    else
      match split sep cs with
      | [] => [[c]]
      | piece :: pieces => (c :: piece) :: pieces

/-- The pieces written one after the other with one character between them. -/
def join (sep : Char) : List (List Char) → List Char
  | [] => []
  | [piece] => piece
  | piece :: next :: pieces => piece ++ sep :: join sep (next :: pieces)

theorem split_ne_nil (sep : Char) (cs : List Char) : split sep cs ≠ [] := by
  cases cs with
  | nil => simp [split]
  | cons c cs =>
    simp only [split]
    split
    · simp
    · split <;> simp

/-- Splitting loses nothing. -/
theorem join_split (sep : Char) (cs : List Char) : join sep (split sep cs) = cs := by
  induction cs with
  | nil => rfl
  | cons c cs ih =>
    rw [split]
    generalize hp : split sep cs = pieces at ih
    match pieces, hp with
    | [], hp => exact absurd hp (split_ne_nil sep cs)
    | piece :: pieces, _ =>
      split
      · rename_i h; simp [join, ih, h]
      · cases pieces with
        | nil => simpa [join] using ih
        | cons next pieces => simpa [join] using ih

end PlaceWeather.Text
