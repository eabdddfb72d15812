import Mathlib.Data.List.Forall2
import PlaceWeather.Markup.Reader
import PlaceWeather.Proofs.Markup.Tags

/-!
# Reading written elements

Written elements that an outline names are read as they are meant: each becomes a node with its
attributes and its text, and with its children in order, where blank text may stand between them
(`reads_written`, `ofDocument?_written`).

`Reads` follows the recursion of the grammar: what is read inside an element is read in a frame of
its own, and what stands one after the other is gained by one frame.
-/

namespace PlaceWeather.Markup

/-- An element is named in an outline, and so are the elements in it. -/
inductive Item.Fits : Outline → Item → Prop
  | element {outline inside : Outline} {nillable : Bool} {name : String}
      {attributes : List (String × String)} {children : List Item}
      (hpart : outline.part? name.toList = some (nillable, inside))
      (hchildren : ∀ child ∈ children, child.Fits inside) :
      Fits outline (.element name attributes children)
  | textual {outline inside : Outline} {nillable : Bool} {name text : String}
      (hpart : outline.part? name.toList = some (nillable, inside)) :
      Fits outline (.textual name text)

/-- A node is an element as it was meant, apart from blank text between its children. -/
inductive Item.Becomes : Item → Node → Prop
  | element {name : String} {attributes : List (String × String)} {children : List Item}
      {tag : List Char} {nodes : List Node} (hname : IsWord name) (htag : TagText attributes tag)
      (hchildren : List.Forall₂ Item.Becomes children (nodes.filter (!·.isSpace))) :
      Becomes (.element name attributes children) (.element name.toList tag nodes)
  | textual {name text : String} {tag : List Char} {nodes : List Node} (hname : IsWord name)
      (htag : TagText [] tag)
      (htext : (Node.element name.toList tag nodes).text? = some (lineEnds false text.toList)) :
      Becomes (.textual name text) (.element name.toList tag nodes)

/-! ## Frames that gain nodes -/

namespace Frame

/-- The tag of a frame says in no scope that the element is nil. -/
def Plain (f : Frame) : Prop := ∀ scope : Scope, scope.marksNil f.attributes = false

/-- The text at the end of a frame is blank. -/
def Blank (f : Frame) : Prop := f.run.all isSpace = true

/-- The nodes of a frame without blank texts, in order. -/
def solid (f : Frame) : List Node := f.children.reverse.filter (!·.isSpace)

/-- A frame becomes another one that has some more nodes, and nothing else is lost. -/
structure Gains (f g : Frame) (nodes : List Node) : Prop where
  name : g.name = f.name
  attributes : g.attributes = f.attributes
  outline : g.outline = f.outline
  blank : g.Blank
  solid : g.solid = f.solid ++ nodes

theorem Gains.trans {f g h : Frame} {nodes more : List Node} (hfg : f.Gains g nodes)
    (hgh : g.Gains h more) : f.Gains h (nodes ++ more) where
  name := hgh.name.trans hfg.name
  attributes := hgh.attributes.trans hfg.attributes
  outline := hgh.outline.trans hfg.outline
  blank := hgh.blank
  solid := by rw [hgh.solid, hfg.solid, List.append_assoc]

theorem Gains.plain {f g : Frame} {nodes : List Node} (h : f.Gains g nodes) (hf : f.Plain) :
    g.Plain := by
  intro scope
  rw [h.attributes]
  exact hf scope

theorem gains_blanks {f : Frame} {blanks : List Char} (hf : f.Blank)
    (hblanks : blanks.all isSpace = true) :
    f.Gains { f with run := blanks.reverse ++ f.run } [] where
  name := rfl
  attributes := rfl
  outline := rfl
  blank := by
    unfold Blank
    rw [List.all_append, List.all_reverse, hblanks, Bool.true_and]
    exact hf
  solid := (List.append_nil _).symm

/-- A blank text at the end of a frame is no solid node. -/
theorem Blank.filter_content {f : Frame} (h : f.Blank) :
    f.content.reverse.filter (!·.isSpace) = f.solid := by
  unfold content
  split
  · rfl
  · have htext : (Node.text f.run.reverse).isSpace = true := List.all_reverse.trans h
    rw [List.reverse_cons, List.filter_append, List.filter_cons_of_neg (by simp [htext]),
      List.filter_nil, List.append_nil]
    rfl

theorem gains_node {f : Frame} {node : Node} (hf : f.Blank) (hnode : node.isSpace = false) :
    f.Gains (f.addNode node) [node] where
  name := rfl
  attributes := rfl
  outline := rfl
  blank := rfl
  solid := by
    unfold Frame.solid addNode
    rw [List.reverse_cons, List.filter_append, hf.filter_content,
      List.filter_cons_of_pos (by simp [hnode])]
    rfl

theorem plain_ofTag {attributes : List (String × String)} {name tag : List Char}
    (h : TagText attributes tag) (outline : Outline) : (ofTag name tag outline).Plain :=
  Scope.marksNil_tagText h

theorem blank_ofTag (name tag : List Char) (outline : Outline) : (ofTag name tag outline).Blank :=
  rfl

end Frame

/-! ## Single tokens -/

namespace Reader

/-- The reader inside an element, where no short names are bound. -/
def inside (depth : Nat) (f : Frame) (outer : List Frame) : Reader :=
  ⟨⟨depth, []⟩, f :: outer, .content⟩

theorem run?_cons (r : Reader) (t : Token) (ts : List Token) :
    r.run? (t :: ts) = (r.step? t).bind (·.run? ts) := by
  simp [run?, List.foldlM_cons]

theorem run?_append_of {first mid : Reader} {ts us : List Token} (h : first.run? ts = some mid) :
    first.run? (ts ++ us) = mid.run? us := by
  rw [run?_append, h, Option.bind_some]

theorem step?_inside_of_char? {t : Token} {c : Char} (h : t.char? = some c) (depth : Nat)
    (f : Frame) (outer : List Frame) :
    (inside depth f outer).step? t = some (inside depth (f.addChar c) outer) := by
  cases t with
  | char d =>
      cases h
      rfl
  | reference name =>
      have hstep : (inside depth f outer).step? (.reference name) =
          (Reference.resolve? name).bind (inside depth f outer).stepChar? := rfl
      rw [hstep, show Reference.resolve? name = some c from h]
      rfl
  | opening | closing | broken => cases h

/-- Text is added to the run of the innermost frame. -/
theorem run?_spells {ts : List Token} {cs : List Char} (h : Spells ts cs) (depth : Nat) (f : Frame)
    (outer : List Frame) :
    (inside depth f outer).run? ts =
      some (inside depth { f with run := cs.reverse ++ f.run } outer) := by
  induction ts generalizing cs f with
  | nil =>
      cases cs with
      | nil => rfl
      | cons c cs => cases h
  | cons t ts ih =>
      cases cs with
      | nil => cases h
      | cons c cs =>
          obtain ⟨hfirst, hrest⟩ := List.cons.inj h
          rw [run?_cons, step?_inside_of_char? hfirst, Option.bind_some, ih hrest,
            List.reverse_cons, List.append_assoc]
          rfl

section Opening

variable {f : Frame} {name : String} {attributes : List (String × String)} {tag : List Char}
  {inner : Outline}

theorem stepOpening?_of_part? {nillable : Bool} (hname : IsWord name)
    (htag : TagText attributes tag) (hpart : f.outline.part? name.toList = some (nillable, inner))
    (depth : Nat) (outer : List Frame) :
    (inside depth f outer).stepOpening? name.toList tag =
      some (if nillable then ⟨⟨depth + 1, []⟩, f :: outer, .undecided name.toList tag inner⟩
        else inside (depth + 1) (Frame.ofTag name.toList tag inner) (f :: outer)) := by
  have henter : Scope.enter? ⟨depth, []⟩ tag = some ⟨depth + 1, []⟩ :=
    Scope.enter?_tagText htag ⟨depth, []⟩
  simp only [stepOpening?, inside, henter, Option.bind_eq_bind, Option.bind_some,
    Attribute.localName_of_isWord hname, hpart]
  cases nillable <;> rfl

/-- Neither its own tag nor the one around it says that an element is nil, whatever the next token
binds. -/
theorem isNil_undecided (htag : TagText attributes tag) (hplain : f.Plain) (scope : Scope)
    (outer : List Frame) (phase : Phase) (t : Token) :
    (Reader.mk scope (f :: outer) phase).isNil tag t = false := by
  unfold isNil
  dsimp only
  rw [Scope.marksNil_tagText htag]
  exact hplain _

/-- Behind the start tag of an element that the outline names, reading goes on in its frame.  That
it is not nil is seen with the next token, so there must be one. -/
theorem run?_opening {nillable : Bool} {ts : List Token} (hname : IsWord name)
    (htag : TagText attributes tag) (hpart : f.outline.part? name.toList = some (nillable, inner))
    (hplain : f.Plain) (hts : ts ≠ []) (depth : Nat) (outer : List Frame) :
    (inside depth f outer).run? (.opening name.toList tag :: ts) =
      (inside (depth + 1) (Frame.ofTag name.toList tag inner) (f :: outer)).run? ts := by
  have hstep : (inside depth f outer).step? (.opening name.toList tag) = _ :=
    stepOpening?_of_part? hname htag hpart depth outer
  rw [run?_cons, hstep, Option.bind_some]
  cases nillable with
  | false => rfl
  | true =>
      -- The element is undecided until the next token, which then goes to its frame.
      obtain ⟨t, ts, rfl⟩ := List.exists_cons_of_ne_nil hts
      have hnext : (Reader.mk ⟨depth + 1, []⟩ (f :: outer)
          (.undecided name.toList tag inner)).step? t =
            (inside (depth + 1) (Frame.ofTag name.toList tag inner) (f :: outer)).step? t := by
        have hnil := isNil_undecided htag hplain ⟨depth + 1, []⟩ outer
          (.undecided name.toList tag inner) t
        simp only [step?, hnil, Bool.false_eq_true, if_false]
        rfl
      rw [if_pos rfl, run?_cons, run?_cons, hnext]

end Opening

theorem run?_closing {f g : Frame} {name : List Char} (hname : g.name = name) (depth : Nat)
    (outer : List Frame) :
    (inside (depth + 1) g (f :: outer)).run? [.closing name] =
      some (inside depth (f.addNode g.close) outer) := by
  have hstep : (inside (depth + 1) g (f :: outer)).step? (.closing name) =
      some (inside depth (f.addNode g.close) outer) := by
    show (inside (depth + 1) g (f :: outer)).stepClosing? name = _
    unfold stepClosing?
    dsimp only [inside]
    rw [if_neg (not_not.mpr hname.symm)]
    rfl
  rw [run?_cons, hstep]
  rfl

end Reader

/-! ## Pieces of content -/

/-- A piece of text is read inside an element with an outline as nodes of a kind, wherever the
element stands and whatever it holds already. -/
def Reads (outline : Outline) (cs : List Char) (P : List Node → Prop) : Prop :=
  ∀ (afterReturn : Bool) (depth : Nat) (f : Frame) (outer : List Frame),
    f.outline = outline → f.Plain → f.Blank →
    ∃ last ts g nodes, (Mode.text afterReturn).run cs = (.text last, ts) ∧
      (Reader.inside depth f outer).run? ts = some (Reader.inside depth g outer) ∧
      f.Gains g nodes ∧ P nodes

section Reads

variable {outline : Outline} {cs ds : List Char} {P Q R : List Node → Prop}

theorem reads_nil : Reads outline [] (· = []) := by
  intro afterReturn depth f outer _ _ hblank
  exact ⟨afterReturn, [], f, [], rfl, rfl,
    ⟨rfl, rfl, rfl, hblank, (List.append_nil _).symm⟩, rfl⟩

theorem Reads.append (h : Reads outline cs P) (hrest : Reads outline ds Q)
    (hboth : ∀ nodes more, P nodes → Q more → R (nodes ++ more)) : Reads outline (cs ++ ds) R := by
  intro afterReturn depth f outer houtline hplain hblank
  obtain ⟨mid, ts, g, nodes, hrun, hread, hgains, hP⟩ :=
    h afterReturn depth f outer houtline hplain hblank
  obtain ⟨last, us, k, more, hrun', hread', hgains', hQ⟩ :=
    hrest mid depth g outer (hgains.outline.trans houtline) (hgains.plain hplain) hgains.blank
  refine ⟨last, ts ++ us, k, nodes ++ more, Mode.run_append_of hrun hrun', ?_,
    hgains.trans hgains', hboth nodes more hP hQ⟩
  rw [Reader.run?_append_of hread, hread']

theorem reads_filling (h : Filling cs) : Reads outline cs (· = []) := by
  intro afterReturn depth f outer _ _ hblank
  obtain ⟨last, ts, blanks, hrun, hspells, hblanks⟩ := Mode.run_filling h afterReturn
  exact ⟨last, ts, _, [], hrun, Reader.run?_spells hspells depth f outer,
    Frame.gains_blanks hblank hblanks, rfl⟩

variable {name : String} {attributes : List (String × String)} {tag : List Char} {inner : Outline}
  {nillable : Bool}

/-- An element is read as one node when its content is read in a frame of its own. -/
theorem reads_element (hname : IsWord name) (htag : TagText attributes tag)
    (hpart : outline.part? name.toList = some (nillable, inner)) (hcontent : Reads inner cs P) :
    Reads outline (startTag name tag ++ cs ++ endTag name) fun nodes =>
      ∃ children, nodes = [.element name.toList tag children] ∧
        P (children.filter (!·.isSpace)) := by
  intro afterReturn depth f outer houtline hplain hblank
  subst houtline
  obtain ⟨last, ts, g, nodes, hrun, hread, hgains, hP⟩ :=
    hcontent false (depth + 1) (Frame.ofTag name.toList tag inner) (f :: outer) rfl
      (Frame.plain_ofTag htag inner) (Frame.blank_ofTag _ _ _)
  have hclose : (.element name.toList tag g.content.reverse : Node) = g.close := by
    unfold Frame.close
    rw [hgains.name, hgains.attributes]
    rfl
  refine ⟨false, [.opening name.toList tag] ++ ts ++ [.closing name.toList], f.addNode g.close,
    [g.close], ?_, ?_, Frame.gains_node hblank rfl, g.content.reverse, by rw [hclose], ?_⟩
  · exact Mode.run_append_of (Mode.run_append_of (Mode.run_startTag hname htag afterReturn) hrun)
      (Mode.run_endTag hname last)
  · rw [List.append_assoc, List.singleton_append,
      Reader.run?_opening hname htag hpart hplain (by simp), Reader.run?_append_of hread]
    exact Reader.run?_closing hgains.name depth outer
  · -- The frame of the content held nothing before, so its nodes are those of the content.
    rw [hgains.blank.filter_content, hgains.solid]
    exact hP

/-- A tag that opens and closes an element is read as an empty node. -/
theorem reads_sole (hname : IsWord name) (htag : TagText attributes tag)
    (hpart : outline.part? name.toList = some (nillable, inner)) :
    Reads outline (soleTag name tag) (· = [.element name.toList tag []]) := by
  intro afterReturn depth f outer houtline hplain hblank
  subst houtline
  refine ⟨false, [.opening name.toList tag, .closing name.toList],
    f.addNode (Frame.ofTag name.toList tag inner).close, _,
    Mode.run_soleTag hname htag afterReturn, ?_, Frame.gains_node hblank rfl, rfl⟩
  rw [Reader.run?_opening hname htag hpart hplain (by simp)]
  exact Reader.run?_closing rfl depth outer

/-- A frame that has gained nothing but text closes to an element with that text. -/
theorem text?_close_ofTag (name tag : List Char) (outline : Outline) (cs : List Char) :
    (Frame.close { Frame.ofTag name tag outline with run := cs.reverse ++ [] }).text? = some cs := by
  cases cs with
  | nil => rfl
  | cons c cs =>
      have hcontent : (Frame.content { Frame.ofTag name tag outline with
          run := (c :: cs).reverse ++ [] }) = [.text (c :: cs)] := by
        simp [Frame.content, Frame.ofTag]
      unfold Frame.close
      rw [hcontent]
      rfl

/-- An element that holds a text is read as a node with that text, its line ends unified. -/
theorem reads_textual (hname : IsWord name) (htag : TagText attributes tag)
    (hpart : outline.part? name.toList = some (nillable, inner)) (text : String) :
    Reads outline (startTag name tag ++ Reference.escape text.toList ++ endTag name) fun nodes =>
      ∃ children, nodes = [.element name.toList tag children] ∧
        (Node.element name.toList tag children).text? = some (lineEnds false text.toList) := by
  intro afterReturn depth f outer houtline hplain hblank
  subst houtline
  obtain ⟨last, ts, hrun, hspells⟩ := Mode.run_escape text.toList false
  have hread := Reader.run?_spells hspells (depth + 1) (Frame.ofTag name.toList tag inner)
    (f :: outer)
  have htext := text?_close_ofTag name.toList tag inner (lineEnds false text.toList)
  refine ⟨false, [.opening name.toList tag] ++ ts ++ [.closing name.toList], _, [_],
    Mode.run_append_of (Mode.run_append_of (Mode.run_startTag hname htag afterReturn) hrun)
      (Mode.run_endTag hname last), ?_, Frame.gains_node hblank rfl, _, rfl, htext⟩
  rw [List.append_assoc, List.singleton_append,
    Reader.run?_opening hname htag hpart hplain (by simp), Reader.run?_append_of hread]
  exact Reader.run?_closing rfl depth outer

end Reads

/-- Written elements that the outline names are read as they are meant. -/
theorem reads_written {outline : Outline} {items : List Item} {cs : List Char}
    (h : Written items cs) (hfits : ∀ item ∈ items, item.Fits outline) :
    Reads outline cs (List.Forall₂ Item.Becomes items) := by
  -- The outline varies: the children of an element are read against the part of its name.
  induction h generalizing outline with
  | nil =>
      intro afterReturn depth f outer houtline hplain hblank
      obtain ⟨last, ts, g, _, hrun, hread, hgains, rfl⟩ :=
        reads_nil afterReturn depth f outer houtline hplain hblank
      exact ⟨last, ts, g, [], hrun, hread, hgains, .nil⟩
  | filling hfill hrest ih =>
      refine (reads_filling hfill).append (ih hfits) ?_
      rintro nodes more rfl hmore
      exact hmore
  | element hname htag hchildren hrest ihchildren ih =>
      cases hfits _ List.mem_cons_self with
      | element hpart hinner =>
          refine (reads_element hname htag hpart (ihchildren hinner)).append
            (ih fun item hitem => hfits item (List.mem_cons_of_mem _ hitem)) ?_
          rintro nodes more ⟨children, rfl, hbecome⟩ hmore
          exact .cons (.element hname htag hbecome) hmore
  | sole hname htag hrest ih =>
      cases hfits _ List.mem_cons_self with
      | element hpart _ =>
          refine (reads_sole hname htag hpart).append
            (ih fun item hitem => hfits item (List.mem_cons_of_mem _ hitem)) ?_
          rintro nodes more rfl hmore
          exact .cons (.element hname htag .nil) hmore
  | @textual name text items tag cs hname htag hrest ih =>
      cases hfits _ List.mem_cons_self with
      | textual hpart =>
          refine (reads_textual hname htag hpart text).append
            (ih fun item hitem => hfits item (List.mem_cons_of_mem _ hitem)) ?_
          rintro nodes more ⟨children, rfl, htext⟩ hmore
          exact .cons (.textual hname htag htext) hmore

/-! ## Whole documents -/

namespace Reader

/-- Blanks before the root element leave the reader as it is. -/
theorem run?_start_blanks {ts : List Token} {blanks : List Char} (h : Spells ts blanks)
    (hblanks : blanks.all isSpace = true) (outline : Outline) :
    (start outline).run? ts = some (start outline) := by
  induction ts generalizing blanks with
  | nil => rfl
  | cons t ts ih =>
      cases blanks with
      | nil => cases h
      | cons c cs =>
          obtain ⟨hfirst, hrest⟩ := List.cons.inj h
          rw [List.all_cons, Bool.and_eq_true] at hblanks
          have hchar : (start outline).stepChar? c = some (start outline) := if_pos hblanks.1
          have hstep : (start outline).step? t = some (start outline) := by
            cases t with
            | char d =>
                cases hfirst
                exact hchar
            | reference name =>
                show (Reference.resolve? name).bind (start outline).stepChar? = _
                rw [show Reference.resolve? name = some c from hfirst]
                exact hchar
            | opening | closing | broken => cases hfirst
          rw [run?_cons, hstep, Option.bind_some, ih hrest hblanks.2]

/-- The root element begins inside the outline, whatever its name. -/
theorem run?_start_opening {attributes : List (String × String)} {tag : List Char}
    (htag : TagText attributes tag) (outline : Outline) (name : List Char) (ts : List Token) :
    (start outline).run? (.opening name tag :: ts) =
      (inside 1 (Frame.ofTag name tag outline) []).run? ts := by
  have hstep : (start outline).step? (.opening name tag) =
      some (inside 1 (Frame.ofTag name tag outline) []) := by
    show (start outline).stepOpening? name tag = _
    have henter : Scope.outermost.enter? tag = some ⟨1, []⟩ :=
      Scope.enter?_tagText htag Scope.outermost
    simp only [stepOpening?, start, henter, Option.bind_eq_bind, Option.bind_some]
    rfl
  rw [run?_cons, hstep, Option.bind_some]

/-- The end tag of the root element ends the reading. -/
theorem root?_closing {f : Frame} {name : List Char} (hname : f.name = name) (ts : List Token) :
    ((inside 1 f []).run? (.closing name :: ts)).bind root? = some f.close := by
  have hstep : (inside 1 f []).step? (.closing name) = some ⟨.outermost, [], .finished f.close⟩ := by
    show (inside 1 f []).stepClosing? name = _
    unfold stepClosing?
    dsimp only [inside]
    rw [if_neg (not_not.mpr hname.symm)]
    rfl
  rw [run?_cons, hstep, Option.bind_some, run?_finished]
  rfl

end Reader

/-- A written document is taken for its tokens as it is: it does not begin with the mark that shows
the order of bytes. -/
theorem Written.tokens_eq {items : List Item} {cs : List Char} (h : Written items cs) :
    tokens cs = tokensFrom (.text false) cs := by
  have hhead : cs.head? ≠ some byteOrderMark := by
    cases h with
    | nil => decide
    | filling hfill =>
        cases hfill with
        | blank hc =>
            rintro hmark
            cases hmark
            cases hc
        | comment | instruction =>
            intro hmark
            cases hmark
    | element | sole | textual =>
        intro hmark
        cases hmark
  cases cs with
  | nil => rfl
  | cons c cs =>
      have hc : c ≠ byteOrderMark := fun heq => hhead (congrArg some heq)
      simp only [tokens, if_neg hc]

section Document

variable {outline : Outline} {name : String} {attributes : List (String × String)}
  {children : List Item}

/-- The root element is found behind any filling, and what follows it does not matter. -/
theorem root?_of_written {items : List Item} {cs : List Char} (h : Written items cs)
    (hroot : items = [.element name attributes children])
    (hfits : ∀ child ∈ children, child.Fits outline) (afterReturn : Bool) :
    ∃ node, ((Reader.start outline).run? (tokensFrom (.text afterReturn) cs)).bind Reader.root? =
        some node ∧ (Item.element name attributes children).Becomes node := by
  induction h generalizing afterReturn with
  | nil => cases hroot
  | filling hfill hrest ih =>
      obtain ⟨last, ts, blanks, hrun, hspells, hblanks⟩ := Mode.run_filling hfill afterReturn
      rw [tokensFrom_append, hrun,
        Reader.run?_append_of (Reader.run?_start_blanks hspells hblanks outline)]
      exact ih hroot last
  | @element name' attributes' children' items tag inner cs hname htag hchildren hrest _ _ =>
      cases hroot
      -- The content is read in the frame of the root element, which has no frame around it.
      obtain ⟨last, ts, g, nodes, hrun, hread, hgains, hbecome⟩ :=
        reads_written hchildren hfits false 1 (Frame.ofTag name.toList tag outline) [] rfl
          (Frame.plain_ofTag htag outline) (Frame.blank_ofTag _ _ _)
      have htokens := Mode.run_append_of
        (Mode.run_append_of (Mode.run_startTag hname htag afterReturn) hrun)
        (Mode.run_endTag hname last)
      refine ⟨g.close, ?_, ?_⟩
      · rw [tokensFrom_append, htokens, List.append_assoc, List.append_assoc,
          List.singleton_append, Reader.run?_start_opening htag, Reader.run?_append_of hread]
        exact Reader.root?_closing hgains.name _
      · have hclose : g.close = .element name.toList tag g.content.reverse := by
          unfold Frame.close
          rw [hgains.name, hgains.attributes]
          rfl
        rw [hclose]
        refine .element hname htag ?_
        rw [hgains.blank.filter_content, hgains.solid]
        exact hbecome
  | @sole name' attributes' items tag cs hname htag hrest _ =>
      cases hroot
      have hempty : List.Forall₂ Item.Becomes [] (([] : List Node).filter (!·.isSpace)) := .nil
      refine ⟨_, ?_, .element hname htag hempty⟩
      rw [tokensFrom_append, Mode.run_soleTag hname htag afterReturn, List.cons_append,
        Reader.run?_start_opening htag]
      exact Reader.root?_closing rfl _
  | textual => cases hroot

/-- A written document whose parts the outline names is read as it is meant. -/
theorem ofDocument?_written {cs : List Char}
    (h : Written [.element name attributes children] cs)
    (hfits : ∀ child ∈ children, child.Fits outline) :
    ∃ node, Node.ofDocument? outline cs = some node ∧
      (Item.element name attributes children).Becomes node := by
  unfold Node.ofDocument?
  rw [h.tokens_eq]
  exact root?_of_written h rfl hfits false

end Document

end PlaceWeather.Markup
