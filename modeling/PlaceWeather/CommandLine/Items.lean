import PlaceWeather.Decimal.Reading
import PlaceWeather.Text.Pieces

/-!
# Items of a command line

The words of a command line are arguments and options.  An option has a long name behind two hyphens
or a letter behind one, and letters may share one hyphen.  A value follows as the next word, or in
the same word, behind an equals sign after a long name.  Behind `--` there are only arguments.
-/

namespace PlaceWeather.CommandLine

/-- What the value of an option must be. -/
inductive ValueKind where
  | text
  /-- A text that is not empty. -/
  | path
  /-- A number, which may begin with a hyphen. -/
  | number
  /-- A whole number from zero up to a bound, which is not reached; zero may have a minus sign. -/
  | whole (bound : Nat)
  /-- The same without a minus sign. -/
  | natural (bound : Nat)
  deriving DecidableEq, Repr

namespace ValueKind

/-- The whole number below a bound that a text spells. -/
def whole? (bound : Nat) (s : String) : Option Nat :=
  match Decimal.readInt? s.toList with
  | some n => if 0 ≤ n ∧ n < bound then some n.toNat else none
  | none => none

/-- The whole number below a bound that a text spells without a minus sign. -/
def natural? (bound : Nat) (s : String) : Option Nat :=
  (Decimal.readNat? s.toList).filter (· < bound)

/-- Whether a text is such a value. -/
def accepts (s : String) : ValueKind → Bool
  | text => true
  | path => !s.isEmpty
  | number => (Decimal.read? s.toList).isSome
  | whole bound => (whole? bound s).isSome
  | natural bound => (natural? bound s).isSome

end ValueKind

/-- An option; one without a kind of value is a switch. -/
structure OptionSpec where
  long : String
  short : Option Char
  kind : Option ValueKind
  deriving DecidableEq, Repr

/-- What the words of a command line say. -/
inductive Item where
  | switch (long : String)
  | value (long text : String)
  | argument (text : String)
  /-- The words make no sense here. -/
  | misuse
  deriving DecidableEq, Repr

namespace Item

/-- Whether a word begins with a hyphen and is more than that. -/
def isOption (word : List Char) : Bool := word.head? == some '-' && 1 < word.length

/-- What an option with a value says, given the words behind it, and the words left. -/
def withValue (o : OptionSpec) : List String → Item × List String
  | [] => (misuse, [])
  | word :: rest =>
    if isOption word.toList && o.kind != some .number then (misuse, rest)
    else (value o.long word, rest)

/-- A value without the equals sign before it. -/
def dropEquals : List Char → List Char
  | '=' :: cs => cs
  | cs => cs

/-- What the letters behind one hyphen say, and the words left. -/
def ofLetters (options : List OptionSpec) : List Char → List String → List Item × List String
  | [], rest => ([], rest)
  | c :: cs, rest =>
    match options.find? (·.short == some c) with
    | none => ([misuse], rest)
    | some o =>
      match o.kind, cs with
      | none, cs =>
        let (items, rest) := ofLetters options cs rest
        (switch o.long :: items, rest)
      | some _, [] =>
        let (item, rest) := withValue o rest
        ([item], rest)
      | some _, cs => ([value o.long (String.ofList (dropEquals cs))], rest)

/-- What a word behind two hyphens says, and the words left. -/
def ofLong (options : List OptionSpec) (word : List Char) (rest : List String) :
    Item × List String :=
  let name := String.ofList (word.takeWhile (· != '='))
  match options.find? (·.long == name) with
  | none => (misuse, rest)
  | some o =>
    match o.kind, word.dropWhile (· != '=') with
    | none, [] => (switch o.long, rest)
    | none, _ => (misuse, rest)
    | some _, [] => withValue o rest
    | some _, text => (value o.long (String.ofList (dropEquals text)), rest)

/-- What the first word says, and the words left.  A lone `--` says nothing, and what follows it is
taken as arguments. -/
def ofWord (options : List OptionSpec) (word : String) (rest : List String) :
    List Item × List String :=
  match word.toList with
  | ['-', '-'] => (rest.map argument, [])
  | '-' :: '-' :: long =>
    let (item, rest) := ofLong options long rest
    ([item], rest)
  | '-' :: c :: letters => ofLetters options (c :: letters) rest
  | _ => ([argument word], rest)

/-- What words say; each step takes at least one word. -/
def ofWords (options : List OptionSpec) : (fuel : Nat) → List String → List Item
  | _, [] => []
  | 0, _ => [misuse]
  | fuel + 1, word :: rest =>
    let (items, rest) := ofWord options word rest
    items ++ ofWords options fuel rest

end Item

end PlaceWeather.CommandLine
