import PlaceWeather.Markup.Declaration

/-!
# Tokens of markup

A document is read one character at a time.  What counts is given out as tokens: the characters of
text with line ends unified, references, start tags and end tags.  Comments, processing
instructions and document type declarations leave no token.  The first place where the text is ill
formed gives the token `broken`, and nothing after it.

`tokensFrom_append` is the law by which a document can be read piece by piece.
-/

namespace PlaceWeather.Markup

/-- What a document consists of. -/
inductive Token where
  /-- A character of text. -/
  | char (c : Char)
  /-- A reference in text, with what stands between `&` and `;`. -/
  | reference (name : List Char)
  /-- A start tag: the name, and what stands between the name and the end of the tag. -/
  | opening (name attributes : List Char)
  /-- An end tag, or the second half of a tag that opens and closes an element. -/
  | closing (name : List Char)
  /-- The text is ill formed from here on. -/
  | broken
  deriving DecidableEq, Repr

/-- Where in a document the reader stands. -/
inductive Mode where
  /-- In text, behind a carriage return or not. -/
  | text (afterReturn : Bool)
  /-- In a reference, with the characters of its name so far, the last first. -/
  | reference (name : List Char)
  /-- Behind `<`. -/
  | mark
  /-- In a start tag: the quote inside one, and the characters so far, the last first. -/
  | tag (quote : Option Char) (seen : List Char)
  /-- In an end tag: the quote inside one, and the characters so far, the last first. -/
  | endTag (quote : Option Char) (seen : List Char)
  /-- Behind `<!`, with the characters so far, the last first. -/
  | special (seen : List Char)
  /-- In a comment, behind so many hyphens in a row. -/
  | comment (hyphens : Nat)
  /-- In a section of plain text, behind so many brackets in a row, and a carriage return or not. -/
  | plain (brackets : Nat) (afterReturn : Bool)
  /-- Behind `<?`. -/
  | instructionStart
  /-- In a processing instruction, behind a question mark or not. -/
  | instruction (asked : Bool)
  /-- In a document type declaration. -/
  | declaration (part : Declaration)
  /-- Behind a place where the text is ill formed. -/
  | broken
  deriving DecidableEq, Repr

namespace Mode

/-- The reader stops: the text is ill formed. -/
def fail : Mode × List Token := (broken, [Token.broken])

/-- A character of text.  A carriage return, a next line and a line separator each count as a line
end, a carriage return together with a line feed or a next line behind it. -/
def ofTextChar (afterReturn : Bool) (c : Char) : Bool × List Token :=
  if c = '\r' then (true, [.char '\n'])
  else if (c = '\n' ∨ c = nextLine) ∧ afterReturn then (false, [])
  else if c = nextLine ∨ c = lineSeparator then (false, [.char '\n'])
  else (false, [.char c])

/-- The tokens of a whole start tag: its name goes up to the first white space, and a slash at its
end closes the element at once. -/
def ofTag (content : List Char) : Mode × List Token :=
  let closes := content.getLast? = some '/'
  let content := if closes then content.dropLast else content
  let name := content.takeWhile (!isSpace ·)
  let opening := Token.opening name (content.dropWhile (!isSpace ·))
  (text false, if closes then [opening, .closing name] else [opening])

/-- One character inside a start tag; a `>` inside quotes does not end it. -/
def stepTag (quote : Option Char) (seen : List Char) (c : Char) : Mode × List Token :=
  if c = '>' ∧ quote.isNone then ofTag seen.reverse
  else (tag (quoteAfter quote c) (c :: seen), [])

/-- The name of an end tag: what it holds, without white space at its end if there is anything
else. -/
def endName (seen : List Char) : List Char :=
  match seen.dropWhile isSpace with
  | [] => seen.reverse
  | name => name.reverse

/-- One character inside an end tag; a `>` inside quotes does not end it. -/
def stepEndTag (quote : Option Char) (seen : List Char) (c : Char) : Mode × List Token :=
  if c = '>' ∧ quote.isNone then (text false, [.closing (endName seen)])
  else (endTag (quoteAfter quote c) (c :: seen), [])

/-- The characters that begin a section of plain text behind `<!`. -/
def sectionMark : List Char := ['[', 'C', 'D', 'A', 'T', 'A', '[']

/-- The characters that begin a document type declaration behind `<!`, in any case. -/
def doctypeMark : List Char := ['D', 'O', 'C', 'T', 'Y', 'P', 'E']

/-- The characters behind `<!` decide what begins there. -/
def stepSpecial (seen : List Char) : Mode × List Token :=
  let marks := seen.reverse
  if marks = ['-', '-'] then (comment 0, [])
  else if marks = sectionMark then (plain 0 false, [])
  else if marks.map Char.toUpper = doctypeMark then (declaration (.head false none), [])
  else if marks.isPrefixOf ['-', '-'] || marks.isPrefixOf sectionMark ||
      (marks.map Char.toUpper).isPrefixOf doctypeMark then (special seen, [])
  else fail

/-- One character inside a section of plain text, which ends with `]]>`. -/
def stepPlain (brackets : Nat) (afterReturn : Bool) (c : Char) : Mode × List Token :=
  if c = ']' then
    if brackets < 2 then (plain (brackets + 1) false, []) else (plain 2 false, [.char ']'])
  else if c = '>' ∧ brackets = 2 then (text false, [])
  else
    let (afterReturn, tokens) := ofTextChar (afterReturn && brackets == 0) c
    (plain 0 afterReturn, List.replicate brackets (.char ']') ++ tokens)

/-- Reads one character. -/
def step (mode : Mode) (c : Char) : Mode × List Token :=
  match mode with
  | text afterReturn =>
    if c = '<' then (mark, [])
    else if c = '&' then (reference [], [])
    else
      let (afterReturn, tokens) := ofTextChar afterReturn c
      (text afterReturn, tokens)
  | reference name =>
    if c = ';' then (text false, [.reference name.reverse])
    else if c = '<' ∨ c = '&' then fail
    else (reference (c :: name), [])
  | mark =>
    if c = '!' then (special [], [])
    else if c = '/' then (endTag none [], [])
    else if c = '?' then (instructionStart, [])
    else stepTag none [] c
  | tag quote seen => stepTag quote seen c
  | endTag quote seen => stepEndTag quote seen c
  | special seen => stepSpecial (c :: seen)
  | comment hyphens =>
    if c = '-' then (comment (min 2 (hyphens + 1)), [])
    else if c = '>' ∧ hyphens = 2 then (text false, [])
    else (comment 0, [])
  | plain brackets afterReturn => stepPlain brackets afterReturn c
  | instructionStart => if c = '>' then fail else (instruction (c == '?'), [])
  | instruction asked =>
    if c = '>' ∧ asked then (text false, []) else (instruction (c == '?'), [])
  | declaration part =>
    match part.step? c with
    | none => fail
    | some .ended => (text false, [])
    | some part => (declaration part, [])
  | broken => (broken, [])

/-- What the end of the document means: only in text may it end. -/
def finish : Mode → List Token
  | text _ | broken => []
  | _ => [Token.broken]

/-- The mode after some characters, and their tokens, the last first, before those seen earlier. -/
def runOnto (seen : List Token) : Mode → List Char → Mode × List Token
  | mode, [] => (mode, seen)
  | mode, c :: cs =>
    let (next, tokens) := mode.step c
    runOnto (tokens.reverse ++ seen) next cs

/-- The mode and the tokens after some characters. -/
def run (mode : Mode) (cs : List Char) : Mode × List Token :=
  let (last, tokens) := mode.runOnto [] cs
  (last, tokens.reverse)

theorem runOnto_eq (seen : List Token) (mode : Mode) (cs : List Char) :
    mode.runOnto seen cs = ((mode.run cs).1, (mode.run cs).2.reverse ++ seen) := by
  induction cs generalizing seen mode with
  | nil => simp [runOnto, run]
  | cons c cs ih =>
    simp only [run] at ih ⊢
    simp only [runOnto]
    rw [ih, ih ((mode.step c).2.reverse ++ [])]
    simp

@[simp] theorem run_nil (mode : Mode) : mode.run [] = (mode, []) := rfl

theorem run_cons (mode : Mode) (c : Char) (cs : List Char) :
    mode.run (c :: cs) =
      (((mode.step c).1.run cs).1, (mode.step c).2 ++ ((mode.step c).1.run cs).2) := by
  simp only [run, runOnto]
  rw [runOnto_eq]
  simp [run]

theorem run_append (mode : Mode) (cs ds : List Char) :
    mode.run (cs ++ ds) =
      (((mode.run cs).1.run ds).1, (mode.run cs).2 ++ ((mode.run cs).1.run ds).2) := by
  induction cs generalizing mode with
  | nil => simp
  | cons c cs ih => simp [run_cons, ih]

end Mode

/-- The tokens of a text that the reader meets in a mode. -/
def tokensFrom (mode : Mode) (cs : List Char) : List Token :=
  (mode.run cs).2 ++ (mode.run cs).1.finish

/-- A document can be read piece by piece. -/
theorem tokensFrom_append (mode : Mode) (cs ds : List Char) :
    tokensFrom mode (cs ++ ds) = (mode.run cs).2 ++ tokensFrom (mode.run cs).1 ds := by
  simp [tokensFrom, Mode.run_append]

/-- The tokens of a document. -/
def tokens (document : List Char) : List Token :=
  match document with
  | [] => []
  | c :: cs => tokensFrom (.text false) (if c = byteOrderMark then cs else c :: cs)

end PlaceWeather.Markup
