import PlaceWeather.Markup.Node
import PlaceWeather.Markup.Passing

/-!
# Reading a document

The tokens of a document are read one at a time, and the elements that an outline names become a
tree.  What stands behind the root element is not looked at; before it only white space may stand.
Whether an element is nil is decided with the token behind its start tag, for that token is read
before the element is.

`run?_append` is the law by which the tokens can be read piece by piece.
-/

namespace PlaceWeather.Markup

/-- What the reader does with the next token. -/
inductive Phase where
  /-- Waits for the root element, with the outline of what is read in it. -/
  | before (outline : Outline)
  /-- Reads the content of the innermost element. -/
  | content
  /-- Decides whether the element of a start tag is nil. -/
  | undecided (name attributes : List Char) (outline : Outline)
  /-- Passes over an element. -/
  | passing (p : Passing)
  /-- Is done with the root element. -/
  | finished (root : Node)

/-- A document while it is read: the name spaces in force, and the elements whose end tags have not
come yet, the innermost first. -/
structure Reader where
  scope : Scope
  frames : List Frame
  phase : Phase

namespace Reader

/-- The reader before a document. -/
def start (outline : Outline) : Reader := ⟨.outermost, [], .before outline⟩

/-- The root element, when it has been read. -/
def root? (r : Reader) : Option Node :=
  match r.phase with
  | .finished root => some root
  | _ => none

/-- An element begins that is read. -/
def begin (r : Reader) (name attributes : List Char) (outline : Outline) : Reader :=
  { r with frames := Frame.ofTag name attributes outline :: r.frames, phase := .content }

/-- An element begins that is passed over. -/
def pass (r : Reader) (name : List Char) : Reader :=
  let frames :=
    match r.frames with
    | [] => []
    | f :: outer => f.addNode (.passed name) :: outer
  { r with frames, phase := .passing (.start name) }

/-- A character of text, which is a blank before the root element. -/
def stepChar? (r : Reader) (c : Char) : Option Reader :=
  match r.frames with
  | [] => if isSpace c then some r else none
  | f :: outer => some { r with frames := f.addChar c :: outer }

/-- The start tag of an element. -/
def stepOpening? (r : Reader) (name attributes : List Char) : Option Reader := do
  let r := { r with scope := ← r.scope.enter? attributes }
  match r.phase, r.frames with
  | .before outline, _ => some (r.begin name attributes outline)
  | _, [] => none
  | _, f :: _ =>
    match f.outline.part? (localName name) with
    | none => some (r.pass name)
    | some (true, outline) => some { r with phase := .undecided name attributes outline }
    | some (false, outline) => some (r.begin name attributes outline)

/-- The end tag of the innermost element. -/
def stepClosing? (r : Reader) (name : List Char) : Option Reader :=
  match r.frames with
  | [] => none
  | f :: outer =>
    if name ≠ f.name then none
    else
      match outer with
      | [] => some ⟨r.scope.leave, [], .finished f.close⟩
      | g :: outer => some { r with scope := r.scope.leave, frames := g.addNode f.close :: outer }

/-- Reads a token of the content of the innermost element, or one before the root element. -/
def stepContent? (r : Reader) : Token → Option Reader
  | .char c => r.stepChar? c
  | .reference name => (Reference.resolve? name).bind r.stepChar?
  | .opening name attributes => r.stepOpening? name attributes
  | .closing name => r.stepClosing? name
  | .broken => none

/-- Reads a token of an element that is passed over. -/
def stepPassing? (r : Reader) (p : Passing) (t : Token) : Option Reader :=
  (p.step? r.scope t).map fun (scope, p) =>
    { r with scope, phase := if p.isOver then .content else .passing p }

/-- Whether an element is nil when a token stands behind its start tag: its own tag says so, or the
tag of the element around it. -/
def isNil (r : Reader) (attributes : List Char) (t : Token) : Bool :=
  let scope :=
    match t with
    | .opening _ inner => (r.scope.enter? inner).getD r.scope
    | _ => r.scope
  scope.marksNil attributes || (r.frames.head?.map (scope.marksNil ·.attributes)).getD false

/-- Reads one token. -/
def step? (r : Reader) (t : Token) : Option Reader :=
  match r.phase with
  | .before _ | .content => r.stepContent? t
  | .undecided name attributes outline =>
    if r.isNil attributes t then (r.pass name).stepPassing? (.start name) t
    else (r.begin name attributes outline).stepContent? t
  | .passing p => r.stepPassing? p t
  | .finished _ => some r

/-- Reads tokens one after the other. -/
def run? (r : Reader) (ts : List Token) : Option Reader := ts.foldlM step? r

/-- Tokens can be read piece by piece. -/
theorem run?_append (r : Reader) (ts us : List Token) :
    r.run? (ts ++ us) = (r.run? ts).bind (·.run? us) := by
  simp [run?, List.foldlM_append]

/-- What stands behind the root element is not looked at. -/
theorem run?_finished (scope : Scope) (frames : List Frame) (root : Node) (ts : List Token) :
    run? ⟨scope, frames, .finished root⟩ ts = some ⟨scope, frames, .finished root⟩ := by
  induction ts with
  | nil => rfl
  | cons t ts ih => simpa [run?, step?] using ih

end Reader

/-- The root element of a document, with what an outline names; none when the document is ill
formed. -/
def Node.ofDocument? (outline : Outline) (document : List Char) : Option Node :=
  ((Reader.start outline).run? (tokens document)).bind Reader.root?

end PlaceWeather.Markup
