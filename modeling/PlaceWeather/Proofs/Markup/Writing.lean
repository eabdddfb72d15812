import PlaceWeather.Markup.Character
import PlaceWeather.Markup.Reference

/-!
# How elements are written

`Written items cs` says that `cs` is a way to write some elements one after the other.  Special
characters of texts and attribute values stand as references; white space, comments and processing
instructions may stand before, between and behind elements, but not inside a text.

This is a grammar and not a program: nothing here mentions how a document is read.
-/

namespace PlaceWeather.Markup

/-- An element as it is meant by the one who writes it. -/
inductive Item where
  /-- An element with attributes that holds other elements. -/
  | element (name : String) (attributes : List (String × String)) (children : List Item)
  /-- An element without attributes that holds a text. -/
  | textual (name text : String)

/-- The name of an element. -/
def Item.name : Item → String
  | element name _ _ | textual name _ => name

@[simp] theorem Item.name_element (name : String) (attributes : List (String × String))
    (children : List Item) : (element name attributes children).name = name := rfl

@[simp] theorem Item.name_textual (name text : String) : (textual name text).name = name := rfl

/-- At least one letter, and nothing but letters. -/
structure IsWord (s : String) : Prop where
  ne_nil : s.toList ≠ []
  letters : ∀ c ∈ s.toList, c.isAlpha = true

instance (s : String) : Decidable (IsWord s) :=
  decidable_of_iff (s.toList ≠ [] ∧ s.toList.all Char.isAlpha = true)
    ⟨fun h => ⟨h.1, List.all_eq_true.mp h.2⟩, fun h => ⟨h.1, List.all_eq_true.mpr h.2⟩⟩

/-- What may stand between elements. -/
inductive Filling : List Char → Prop
  | blank {c : Char} (h : isSpace c = true) : Filling [c]
  | comment {body : List Char} (h : ¬ ['-', '-', '>'] <:+: body) :
      Filling (['<', '!', '-', '-'] ++ body ++ ['-', '-', '>'])
  | instruction {body : List Char} (hstart : body.head? ≠ some '>') (h : ¬ ['?', '>'] <:+: body) :
      Filling (['<', '?'] ++ body ++ ['?', '>'])

/-- What stands in a start tag behind the name: attributes with values in quotes, each behind white
space, and no name twice. -/
inductive TagText : List (String × String) → List Char → Prop
  | nil {blanks : List Char} (h : blanks.all isSpace = true) : TagText [] blanks
  | cons {blanks cs : List Char} {key value : String} {rest : List (String × String)}
      (hne : blanks ≠ []) (hblanks : blanks.all isSpace = true) (hkey : IsWord key)
      (hnew : key ∉ rest.map Prod.fst) (hrest : TagText rest cs) :
      TagText ((key, value) :: rest)
        (blanks ++ (key.toList ++ ('=' :: '"' :: (Reference.escape value.toList ++ '"' :: cs))))

/-- The start tag of an element. -/
def startTag (name : String) (tag : List Char) : List Char := '<' :: (name.toList ++ (tag ++ ['>']))

/-- The tag of an element that opens and closes it. -/
def soleTag (name : String) (tag : List Char) : List Char :=
  '<' :: (name.toList ++ (tag ++ ['/', '>']))

/-- The end tag of an element. -/
def endTag (name : String) : List Char := '<' :: '/' :: (name.toList ++ ['>'])

/-- The ways to write some elements one after the other. -/
inductive Written : List Item → List Char → Prop
  | nil : Written [] []
  | filling {fill cs : List Char} {items : List Item} (hfill : Filling fill)
      (hrest : Written items cs) : Written items (fill ++ cs)
  | element {name : String} {attributes : List (String × String)} {children items : List Item}
      {tag inner cs : List Char} (hname : IsWord name) (htag : TagText attributes tag)
      (hchildren : Written children inner) (hrest : Written items cs) :
      Written (.element name attributes children :: items)
        (startTag name tag ++ inner ++ endTag name ++ cs)
  | sole {name : String} {attributes : List (String × String)} {items : List Item}
      {tag cs : List Char} (hname : IsWord name) (htag : TagText attributes tag)
      (hrest : Written items cs) :
      Written (.element name attributes [] :: items) (soleTag name tag ++ cs)
  | textual {name text : String} {items : List Item} {tag cs : List Char} (hname : IsWord name)
      (htag : TagText [] tag) (hrest : Written items cs) :
      Written (.textual name text :: items)
        (startTag name tag ++ Reference.escape text.toList ++ endTag name ++ cs)

/-! ## One way to write -/

/-- The attributes of a tag, each behind one blank. -/
def writeTag : List (String × String) → List Char
  | [] => []
  | (key, value) :: rest =>
    ' ' :: (key.toList ++ ('=' :: '"' :: (Reference.escape value.toList ++ '"' :: writeTag rest)))

/-- All names are words, and no attribute occurs twice. -/
inductive Item.Proper : Item → Prop
  | element {name : String} {attributes : List (String × String)} {children : List Item}
      (hname : IsWord name) (hkeys : ∀ a ∈ attributes, IsWord a.1)
      (hdistinct : (attributes.map Prod.fst).Nodup) (hchildren : ∀ child ∈ children, child.Proper) :
      Proper (.element name attributes children)
  | textual {name text : String} (hname : IsWord name) : Proper (.textual name text)

/-- An element without any filling. -/
def Item.write : Item → List Char
  | .element name attributes children =>
    startTag name (writeTag attributes) ++ (children.map Item.write).flatten ++ endTag name
  | .textual name text => startTag name [] ++ Reference.escape text.toList ++ endTag name

theorem tagText_writeTag {attributes : List (String × String)}
    (hkeys : ∀ a ∈ attributes, IsWord a.1) (hdistinct : (attributes.map Prod.fst).Nodup) :
    TagText attributes (writeTag attributes) := by
  induction attributes with
  | nil => exact .nil rfl
  | cons a rest ih =>
      rw [List.map_cons, List.nodup_cons] at hdistinct
      have hrest := ih (fun b hb => hkeys b (List.mem_cons_of_mem _ hb)) hdistinct.2
      have hblank : [' '].all isSpace = true := rfl
      exact .cons (List.cons_ne_nil _ _) hblank (hkeys a List.mem_cons_self) hdistinct.1 hrest

theorem Written.append {items others : List Item} {cs ds : List Char} (h : Written items cs)
    (hothers : Written others ds) : Written (items ++ others) (cs ++ ds) := by
  induction h with
  | nil => exact hothers
  | filling hfill _ ih =>
      rw [List.append_assoc]
      exact .filling hfill ih
  | element hname htag hchildren _ _ ih =>
      rw [List.append_assoc _ _ ds]
      exact .element hname htag hchildren ih
  | sole hname htag _ ih =>
      rw [List.append_assoc]
      exact .sole hname htag ih
  | textual hname htag _ ih =>
      rw [List.append_assoc _ _ ds]
      exact .textual hname htag ih

theorem written_flatten {items : List Item} (h : ∀ item ∈ items, Written [item] item.write) :
    Written items (items.map Item.write).flatten := by
  induction items with
  | nil => exact .nil
  | cons item rest ih =>
      have hfirst := h item List.mem_cons_self
      exact hfirst.append (ih fun other hother => h other (List.mem_cons_of_mem _ hother))

/-- Proper elements can be written. -/
theorem Item.Proper.written {item : Item} (h : item.Proper) : Written [item] item.write := by
  induction h with
  | element hname hkeys hdistinct _ ih =>
      have hwritten := Written.element hname (tagText_writeTag hkeys hdistinct)
        (written_flatten ih) .nil
      rw [List.append_nil] at hwritten
      rw [Item.write]
      exact hwritten
  | @textual name text hname =>
      have htag : TagText [] [] := .nil rfl
      have hwritten : Written [.textual name text] _ := .textual hname htag .nil
      rw [List.append_nil] at hwritten
      rw [Item.write]
      exact hwritten

end PlaceWeather.Markup
