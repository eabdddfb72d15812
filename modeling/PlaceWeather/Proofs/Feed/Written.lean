import PlaceWeather.Feed.Document
import PlaceWeather.Proofs.Markup.Children

/-!
# Written feed documents

`d.Written cs` says that `cs` is a way to write the parts `d` of a feed as a document: its elements
in any order, only the `time` elements in theirs, with any filling between them.  Taking the document
apart gives the parts back; only line ends inside its four texts are unified (`ofText?_written`).
-/

namespace PlaceWeather

open Markup

/-! ## The items of a feed -/

/-- An element with one attribute, which is left out without a value. -/
def optionalItem (name key : String) : Option String → List Item
  | some value => [.element name [(key, value)] []]
  | none => []

/-- An attribute, which is left out without a value. -/
def optionalAttribute (key : String) : Option String → List (String × String)
  | some value => [(key, value)]
  | none => []

namespace TimeElement

/-- The measures of a `time` element: the name of the element, its attribute, and the value. -/
def measures (t : TimeElement) (symbol : Option String) : List (String × String × Option String) :=
  [("symbol", "var", symbol), ("precipitation", "value", t.precipitation),
    ("windDirection", "deg", t.windDirection), ("windSpeed", "mps", t.windSpeed),
    ("temperature", "value", t.temperature), ("pressure", "value", t.pressure)]

/-- The elements of the measures that have a value. -/
def measureItems (t : TimeElement) (symbol : Option String) : List Item :=
  (t.measures symbol).flatMap fun m => optionalItem m.1 m.2.1 m.2.2

/-- An item says what a `time` element of the table says, its measures in any order.  A symbol that
is left out counts as an empty one. -/
inductive SaidBy (t : TimeElement) : Item → Prop
  | time {symbol : Option String} {children : List Item} (hsymbol : symbol.getD "" = t.symbol)
      (hchildren : children.Perm (t.measureItems symbol)) :
      SaidBy t (.element "time" [("from", t.start), ("to", t.finish), ("period", t.period)]
        children)

end TimeElement

namespace FeedDocument

/-- The attributes of the position of a place. -/
def position (d : FeedDocument) : List (String × String) :=
  optionalAttribute "latitude" d.latitude ++ optionalAttribute "longitude" d.longitude ++
    [("geobase", d.geobase), ("geobaseid", d.geobaseId)]

/-- The elements of the location of a feed. -/
def locationItems (d : FeedDocument) : List Item :=
  [.textual "name" d.name, .textual "country" d.country] ++
    optionalItem "timezone" "utcoffsetMinutes" d.offset ++ [.element "location" d.position []]

/-- The credit of a feed, which is left out without an address. -/
def creditItems (d : FeedDocument) : List Item :=
  match d.creditUrl with
  | some url => [.element "credit" [] [.element "link" [("url", url)] []]]
  | none => []

/-- The elements about the updates of a feed. -/
def updateItems (d : FeedDocument) : List Item :=
  [.textual "lastupdate" d.lastUpdate, .textual "nextupdate" d.nextUpdate]

/-- The elements of the root of a feed, given the content of its location, of its updates and of its
table. -/
def rootItems (d : FeedDocument) (location updates times : List Item) : List Item :=
  [.element "location" [] location] ++ d.creditItems ++
    [.element "meta" [] updates, .element "forecast" [] [.element "tabular" [] times]]

/-- A root element says what the parts of a feed say, its elements in any order but those of the
table. -/
inductive SaidBy (d : FeedDocument) : Item → Prop
  | root {location updates times children : List Item} (hlocation : location.Perm d.locationItems)
      (hupdates : updates.Perm d.updateItems)
      (htimes : List.Forall₂ TimeElement.SaidBy d.times times)
      (hchildren : children.Perm (d.rootItems location updates times)) :
      SaidBy d (.element "weatherdata" [] children)

/-- The parts of a feed can be written as a document. -/
def Written (d : FeedDocument) (cs : List Char) : Prop :=
  ∃ root, d.SaidBy root ∧ Markup.Written [root] cs

/-- A text with its line ends unified. -/
def unifiedLines (s : String) : String := String.ofList (lineEnds false s.toList)

/-- The parts of a feed as they are read: the line ends of the four texts are unified. -/
def withUnifiedLines (d : FeedDocument) : FeedDocument :=
  { d with
    name := unifiedLines d.name
    country := unifiedLines d.country
    lastUpdate := unifiedLines d.lastUpdate
    nextUpdate := unifiedLines d.nextUpdate }

/-- No character of a text ends a line but line feeds. -/
def PlainLines (s : String) : Prop :=
  ∀ c ∈ s.toList, c ≠ '\r' ∧ c ≠ nextLine ∧ c ≠ lineSeparator

instance (s : String) : Decidable (PlainLines s) := List.decidableBAll _ s.toList

theorem unifiedLines_eq_self {s : String} (h : PlainLines s) : unifiedLines s = s := by
  have hkept : (s.toList.map fun c => if c = nextLine ∨ c = lineSeparator then '\n' else c) =
      s.toList := by
    conv_rhs => rw [← List.map_id s.toList]
    exact List.map_congr_left fun c hc => by simp [h c hc]
  rw [unifiedLines, lineEnds_eq_map fun hreturn => (h _ hreturn).1 rfl, hkept, String.ofList_toList]

theorem withUnifiedLines_eq_self {d : FeedDocument} (hname : PlainLines d.name)
    (hcountry : PlainLines d.country) (hlast : PlainLines d.lastUpdate)
    (hnext : PlainLines d.nextUpdate) : d.withUnifiedLines = d := by
  rw [withUnifiedLines, unifiedLines_eq_self hname, unifiedLines_eq_self hcountry,
    unifiedLines_eq_self hlast, unifiedLines_eq_self hnext]

end FeedDocument

/-! ## Elements that may be left out -/

theorem fits_optionalItem {outline inside : Outline} {nillable : Bool} {name : String}
    (hpart : outline.part? name.toList = some (nillable, inside)) (key : String)
    (value : Option String) : ∀ item ∈ optionalItem name key value, item.Fits outline := by
  intro item hitem
  cases value with
  | none => cases hitem
  | some value =>
      rw [optionalItem, List.mem_singleton] at hitem
      subst hitem
      exact .element hpart (by simp)

theorem filter_optionalItem (name key : String) (value : Option String) (other : String) :
    (optionalItem name key value).filter (·.name == other) =
      if name == other then optionalItem name key value else [] := by
  cases value with
  | none => simp [optionalItem]
  | some value => simp [optionalItem, List.filter_cons]

/-- In any order there is at most one item of a name, as there is in one order. -/
theorem filter_eq_of_perm {items spec : List Item} {name key : String} {value : Option String}
    (hperm : items.Perm spec)
    (hspec : spec.filter (·.name == name) = optionalItem name key value) :
    items.filter (·.name == name) = optionalItem name key value := by
  have hnamed := hperm.filter (·.name == name)
  rw [hspec] at hnamed
  cases value with
  | none => exact List.perm_nil.mp hnamed
  | some value => exact List.perm_singleton.mp hnamed

theorem filter_eq_singleton {items spec : List Item} {name : String} {item : Item}
    (hperm : items.Perm spec) (hspec : spec.filter (·.name == name) = [item]) :
    items.filter (·.name == name) = [item] := by
  have hnamed := hperm.filter (·.name == name)
  rw [hspec] at hnamed
  exact List.perm_singleton.mp hnamed

theorem childValue?_eq {name : String} {attributes : List (String × String)} {items : List Item}
    {node : Node} {child key : String} {value : Option String}
    (h : (Item.element name attributes items).Becomes node)
    (hitems : items.filter (·.name == child) = optionalItem child key value) :
    TimeElement.childValue? node child key = some value := by
  unfold TimeElement.childValue?
  cases value with
  | none =>
      rw [h.child?_eq_none hitems]
      rfl
  | some value =>
      obtain ⟨element, hchild, helement⟩ := h.child?_eq_some hitems
      obtain ⟨as, has, hvalue⟩ := helement.attributes?_eq
      rw [hchild, Option.bind_eq_bind, Option.bind_some]
      simp [has, hvalue]

namespace TimeElement

theorem part?_timeOutline :
    ∀ name ∈ ["symbol", "precipitation", "windDirection", "windSpeed", "temperature", "pressure"],
      FeedDocument.timeOutline.part? name.toList = some (true, .done) := by
  decide +kernel

theorem fits_measureItems (t : TimeElement) (symbol : Option String) :
    ∀ item ∈ t.measureItems symbol, item.Fits FeedDocument.timeOutline := by
  intro item hitem
  obtain ⟨m, hm, hitem⟩ := List.mem_flatMap.mp hitem
  have hname : m.1 ∈ (t.measures symbol).map Prod.fst := List.mem_map_of_mem hm
  exact fits_optionalItem (part?_timeOutline _ hname) _ _ item hitem

/-- Each measure has its element, and no other element has its name. -/
theorem filter_measureItems {t : TimeElement} {symbol : Option String}
    {m : String × String × Option String} (hm : m ∈ t.measures symbol) :
    (t.measureItems symbol).filter (·.name == m.1) = optionalItem m.1 m.2.1 m.2.2 := by
  simp only [measures, List.mem_cons, List.not_mem_nil, or_false] at hm
  rcases hm with rfl | rfl | rfl | rfl | rfl | rfl <;>
    simp [measureItems, measures, filter_optionalItem]

theorem SaidBy.name_eq {t : TimeElement} {item : Item} (h : t.SaidBy item) :
    item.name = "time" := by
  cases h
  rfl

theorem SaidBy.fits {t : TimeElement} {item : Item} (h : t.SaidBy item) {outline : Outline}
    (hpart : outline.part? "time".toList = some (false, FeedDocument.timeOutline)) :
    item.Fits outline := by
  cases h with
  | time _ hchildren =>
      refine .element hpart fun child hchild => ?_
      exact fits_measureItems t _ child (hchildren.mem_iff.mp hchild)

/-- The parts of a `time` element are read as they were written. -/
theorem SaidBy.ofNode? {t : TimeElement} {item : Item} {node : Node} (h : t.SaidBy item)
    (hnode : item.Becomes node) : TimeElement.ofNode? node = some t := by
  cases h with
  | @time symbol children hsymbol hchildren =>
      obtain ⟨as, has, hvalue⟩ := hnode.attributes?_eq
      have hmeasure : ∀ m ∈ t.measures symbol, childValue? node m.1 m.2.1 = some m.2.2 := by
        intro m hm
        exact childValue?_eq hnode (filter_eq_of_perm hchildren (filter_measureItems hm))
      simp only [measures, List.forall_mem_cons] at hmeasure
      obtain ⟨hsym, hprecipitation, hdirection, hspeed, htemperature, hpressure, -⟩ := hmeasure
      unfold TimeElement.ofNode?
      simp [has, hvalue, Attribute.required?, hsym, hprecipitation, hdirection, hspeed,
        htemperature, hpressure, hsymbol]

/-- The table of a feed is one run of `time` elements, with blank text between them. -/
theorem run?_eq {content : List Node}
    (h : ∀ node ∈ content, node.isSpace = false →
      node.isNamed "time" = true ∧ node.fullName? = some "time".toList) :
    run? content = some (content.filter (!·.isSpace)) := by
  induction content with
  | nil => rfl
  | cons node rest ih =>
      have hrest : ∀ n ∈ rest, n.isSpace = false →
          n.isNamed "time" = true ∧ n.fullName? = some "time".toList :=
        fun n hn => h n (List.mem_cons_of_mem node hn)
      cases hspace : node.isSpace with
      | true =>
          -- A blank text before the first `time` element is passed over.
          have hname : node.isNamed "time" = false := by
            cases hnamed : node.isNamed "time" with
            | false => rfl
            | true =>
                rw [Node.isSpace_of_isNamed hnamed] at hspace
                cases hspace
          have hskip : run? (node :: rest) = run? rest := by
            unfold run?
            rw [List.dropWhile_cons_of_pos (by simp [hname])]
          rw [hskip, ih hrest, List.filter_cons_of_neg (by simp [hspace])]
      | false =>
          obtain ⟨hname, hfull⟩ := h node List.mem_cons_self hspace
          have hrun : ∀ n ∈ rest, (n.isSpace || n.fullName? == node.fullName?) = true := by
            intro n hn
            cases hblank : n.isSpace with
            | true => rfl
            | false => rw [(hrest n hn hblank).2, hfull]; rfl
          unfold run?
          rw [List.dropWhile_cons_of_neg (by simp [hname])]
          dsimp only
          rw [List.dropWhile_eq_nil_iff.mpr hrun, List.takeWhile_eq_self_iff.mpr hrun,
            List.filter_cons_of_pos (by simp [hspace])]
          rfl

/-- The `time` elements of a table are read as they were written. -/
theorem mapM_ofNode? {times : List TimeElement} {items : List Item} {nodes : List Node}
    (hsaid : List.Forall₂ SaidBy times items) (h : List.Forall₂ Item.Becomes items nodes) :
    nodes.mapM TimeElement.ofNode? = some times := by
  induction hsaid generalizing nodes with
  | nil =>
      cases h
      rfl
  | @cons t item times items ht _ ih =>
      cases h with
      | @cons _ node _ nodes hnode hnodes =>
          rw [List.mapM_cons, ht.ofNode? hnode, ih hnodes]
          rfl

end TimeElement

namespace FeedDocument

variable {d : FeedDocument}

/-! ## The outline names what is written -/

theorem part?_outline :
    outline.part? "location".toList = some (false, locationOutline) ∧
      outline.part? "credit".toList = some (true, .part "link" true .done .done) ∧
      outline.part? "meta".toList = some (false,
        .part "lastupdate" false .done <| .part "nextupdate" false .done .done) ∧
      outline.part? "forecast".toList = some (false,
        .part "tabular" false (.part "time" false timeOutline .done) .done) := by
  decide +kernel

theorem part?_locationOutline :
    locationOutline.part? "name".toList = some (false, .done) ∧
      locationOutline.part? "country".toList = some (false, .done) ∧
      locationOutline.part? "timezone".toList = some (true, .done) ∧
      locationOutline.part? "location".toList = some (false, .done) := by
  decide +kernel

theorem fits_locationItems (d : FeedDocument) :
    ∀ item ∈ d.locationItems, item.Fits locationOutline := by
  obtain ⟨hname, hcountry, htimezone, hposition⟩ := part?_locationOutline
  intro item hitem
  simp only [locationItems, List.mem_append, List.mem_cons, List.not_mem_nil, or_false] at hitem
  rcases hitem with ((rfl | rfl) | hitem) | rfl
  · exact .textual hname
  · exact .textual hcountry
  · exact fits_optionalItem htimezone _ _ item hitem
  · exact .element hposition (by simp)

theorem fits_creditItems (d : FeedDocument) : ∀ item ∈ d.creditItems, item.Fits outline := by
  have hlink : (Outline.part "link" true .done .done).part? "link".toList = some (true, .done) := by
    decide +kernel
  intro item hitem
  unfold creditItems at hitem
  split at hitem
  · rw [List.mem_singleton] at hitem
    subst hitem
    refine .element part?_outline.2.1 fun child hchild => ?_
    rw [List.mem_singleton] at hchild
    subst hchild
    exact .element hlink (by simp)
  · cases hitem

theorem fits_updateItems (d : FeedDocument) : ∀ item ∈ d.updateItems, item.Fits
    (.part "lastupdate" false .done <| .part "nextupdate" false .done .done) := by
  have hpart : ∀ name ∈ ["lastupdate", "nextupdate"],
      (Outline.part "lastupdate" false .done <| .part "nextupdate" false .done .done).part?
        name.toList = some (false, .done) := by
    decide +kernel
  intro item hitem
  simp only [updateItems, List.mem_cons, List.not_mem_nil, or_false] at hitem
  rcases hitem with rfl | rfl
  · exact .textual (hpart _ (by simp))
  · exact .textual (hpart _ (by simp))

theorem fits_forecast {times : List Item} (h : List.Forall₂ TimeElement.SaidBy d.times times) :
    Item.Fits outline (.element "forecast" [] [.element "tabular" [] times]) := by
  have htable : (Outline.part "tabular" false (.part "time" false timeOutline .done) .done).part?
      "tabular".toList = some (false, .part "time" false timeOutline .done) := by
    decide +kernel
  have htime : (Outline.part "time" false timeOutline .done).part? "time".toList =
      some (false, timeOutline) := by
    decide +kernel
  refine .element part?_outline.2.2.2 fun table hmem => ?_
  rw [List.mem_singleton] at hmem
  subst hmem
  refine .element htable fun item hitem => ?_
  obtain ⟨t, -, ht⟩ := exists_left_of_mem h hitem
  exact ht.fits htime

/-- The children of a root element that says what the parts of a feed say are in the outline. -/
theorem SaidBy.fits {name : String} {attributes : List (String × String)} {children : List Item}
    (h : d.SaidBy (.element name attributes children)) : ∀ child ∈ children, child.Fits outline := by
  cases h with
  | @root location updates times _ hlocation hupdates htimes hchildren =>
      obtain ⟨hpartLocation, -, hpartMeta, -⟩ := part?_outline
      intro child hchild
      have hmem := hchildren.mem_iff.mp hchild
      simp only [rootItems, List.mem_append, List.mem_cons, List.not_mem_nil, or_false] at hmem
      rcases hmem with (rfl | hcredit) | rfl | rfl
      · exact .element hpartLocation fun item hitem =>
          fits_locationItems d item (hlocation.mem_iff.mp hitem)
      · exact fits_creditItems d child hcredit
      · exact .element hpartMeta fun item hitem =>
          fits_updateItems d item (hupdates.mem_iff.mp hitem)
      · exact fits_forecast htimes

/-! ## The parts are read as they were written -/

/-- The text of a child that is the only one with its name. -/
theorem childText?_eq {name key text : String} {attributes : List (String × String)}
    {items : List Item} {node : Node} (h : (Item.element name attributes items).Becomes node)
    (hitems : items.filter (·.name == key) = [.textual key text]) :
    childText? node key = some (some (unifiedLines text)) := by
  obtain ⟨child, hchild, hitem⟩ := h.child?_eq_some hitems
  unfold childText?
  rw [hchild, Option.bind_eq_bind, Option.bind_some]
  cases hitem with
  | textual hname htag htext =>
      simp only [htext]
      rfl

theorem required?_eq {name key : String} {attributes : List (String × String)} {items : List Item}
    {node : Node} {item : Item} (h : (Item.element name attributes items).Becomes node)
    (hitems : items.filter (·.name == key) = [item]) :
    ∃ child, node.required? key = some child ∧ item.Becomes child := by
  obtain ⟨child, hchild, hitem⟩ := h.child?_eq_some hitems
  refine ⟨child, ?_, hitem⟩
  unfold Node.required?
  rw [hchild]
  rfl

/-- The values of a position are found under their keys. -/
theorem find?_position (d : FeedDocument) :
    (d.position.find? (·.1 == "latitude")).map (·.2.toList) = d.latitude.map String.toList ∧
      (d.position.find? (·.1 == "longitude")).map (·.2.toList) = d.longitude.map String.toList ∧
      (d.position.find? (·.1 == "geobase")).map (·.2.toList) = some d.geobase.toList ∧
      (d.position.find? (·.1 == "geobaseid")).map (·.2.toList) = some d.geobaseId.toList := by
  unfold position
  cases d.latitude <;> cases d.longitude <;> simp [optionalAttribute]

/-- A node has the position of a feed. -/
structure PositionRead (d : FeedDocument) (node : Node) (as : List Attribute) : Prop where
  attributes : node.attributes? = some as
  latitude : Attribute.value? as "latitude" = some (d.latitude.map String.toList)
  longitude : Attribute.value? as "longitude" = some (d.longitude.map String.toList)
  geobase : Attribute.required? as "geobase" = some d.geobase.toList
  geobaseId : Attribute.required? as "geobaseid" = some d.geobaseId.toList

theorem positionRead {node : Node} (h : (Item.element "location" d.position []).Becomes node) :
    ∃ as, d.PositionRead node as := by
  obtain ⟨as, has, hvalue⟩ := h.attributes?_eq
  obtain ⟨hlatitude, hlongitude, hgeobase, hgeobaseId⟩ := find?_position d
  refine ⟨as, has, ?_, ?_, ?_, ?_⟩
  · rw [hvalue, hlatitude]
  · rw [hvalue, hlongitude]
  · rw [Attribute.required?, hvalue, hgeobase]
    rfl
  · rw [Attribute.required?, hvalue, hgeobaseId]
    rfl

/-- A node has the location of a feed. -/
structure LocationRead (d : FeedDocument) (node : Node) : Prop where
  attributes : ∃ as, node.attributes? = some as
  name : childText? node "name" = some (some (unifiedLines d.name))
  country : childText? node "country" = some (some (unifiedLines d.country))
  offset : TimeElement.childValue? node "timezone" "utcoffsetMinutes" = some d.offset
  position : ∃ inner as, node.required? "location" = some inner ∧ d.PositionRead inner as

theorem locationRead {items : List Item} {node : Node}
    (h : (Item.element "location" [] items).Becomes node) (hitems : items.Perm d.locationItems) :
    d.LocationRead node := by
  have hname : d.locationItems.filter (·.name == "name") = [.textual "name" d.name] := by
    simp [locationItems, filter_optionalItem]
  have hcountry : d.locationItems.filter (·.name == "country") =
      [.textual "country" d.country] := by
    simp [locationItems, filter_optionalItem]
  have hoffset : d.locationItems.filter (·.name == "timezone") =
      optionalItem "timezone" "utcoffsetMinutes" d.offset := by
    simp [locationItems, filter_optionalItem]
  have hposition : d.locationItems.filter (·.name == "location") =
      [.element "location" d.position []] := by
    simp [locationItems, filter_optionalItem]
  obtain ⟨as, has, -⟩ := h.attributes?_eq
  obtain ⟨inner, hinner, hbecomes⟩ := required?_eq h (filter_eq_singleton hitems hposition)
  obtain ⟨bs, hread⟩ := positionRead hbecomes
  exact {
    attributes := ⟨as, has⟩
    name := childText?_eq h (filter_eq_singleton hitems hname)
    country := childText?_eq h (filter_eq_singleton hitems hcountry)
    offset := childValue?_eq h (filter_eq_of_perm hitems hoffset)
    position := ⟨inner, bs, hinner, hread⟩ }

/-- A node has what a feed says about its updates. -/
structure UpdatesRead (d : FeedDocument) (node : Node) : Prop where
  attributes : ∃ as, node.attributes? = some as
  last : childText? node "lastupdate" = some (some (unifiedLines d.lastUpdate))
  next : childText? node "nextupdate" = some (some (unifiedLines d.nextUpdate))

theorem updatesRead {items : List Item} {node : Node}
    (h : (Item.element "meta" [] items).Becomes node) (hitems : items.Perm d.updateItems) :
    d.UpdatesRead node := by
  obtain ⟨as, has, -⟩ := h.attributes?_eq
  exact {
    attributes := ⟨as, has⟩
    last := childText?_eq h (filter_eq_singleton hitems rfl)
    next := childText?_eq h (filter_eq_singleton hitems rfl) }

theorem timesOf?_eq {items times : List Item} {root : Node}
    (h : (Item.element "weatherdata" [] items).Becomes root)
    (hforecast : items.filter (·.name == "forecast") =
      [.element "forecast" [] [.element "tabular" [] times]])
    (htimes : List.Forall₂ TimeElement.SaidBy d.times times) :
    timesOf? root = some d.times := by
  obtain ⟨forecast, hrequired, hbecomes⟩ := required?_eq h hforecast
  obtain ⟨as, has, -⟩ := hbecomes.attributes?_eq
  have htable : [Item.element "tabular" [] times].filter (·.name == "tabular") =
      [.element "tabular" [] times] := rfl
  obtain ⟨table, htableRequired, htableBecomes⟩ := required?_eq hbecomes htable
  obtain ⟨bs, hbs, -⟩ := htableBecomes.attributes?_eq
  cases htableBecomes with
  | @element _ _ _ tag nodes _ _ hchildren =>
      have hrun : TimeElement.run? nodes = some (nodes.filter (!·.isSpace)) := by
        refine TimeElement.run?_eq fun node hnode hsolid => ?_
        have hmem : node ∈ nodes.filter (!·.isSpace) :=
          List.mem_filter.mpr ⟨hnode, by simp [hsolid]⟩
        obtain ⟨item, hitem, hnodeBecomes⟩ := exists_left_of_mem hchildren hmem
        obtain ⟨t, -, ht⟩ := exists_left_of_mem htimes hitem
        rw [hnodeBecomes.isNamed, hnodeBecomes.fullName?, ht.name_eq]
        exact ⟨rfl, rfl⟩
      have hmap := TimeElement.mapM_ofNode? htimes hchildren
      simp only [timesOf?, hrequired, has, htableRequired, hbs, Option.bind_eq_bind,
        Option.bind_some, Node.children, hrun, hmap]

theorem creditUrlOf?_eq {items : List Item} {root : Node}
    (h : (Item.element "weatherdata" [] items).Becomes root)
    (hcredit : items.filter (·.name == "credit") = d.creditItems) :
    creditUrlOf? root = some d.creditUrl := by
  unfold creditUrlOf?
  unfold creditItems at hcredit
  cases hurl : d.creditUrl with
  | none =>
      rw [hurl] at hcredit
      rw [h.child?_eq_none hcredit]
      rfl
  | some url =>
      rw [hurl] at hcredit
      obtain ⟨credit, hchild, hbecomes⟩ := h.child?_eq_some hcredit
      obtain ⟨as, has, -⟩ := hbecomes.attributes?_eq
      have hlink : [Item.element "link" [("url", url)] []].filter (·.name == "link") =
          optionalItem "link" "url" (some url) := rfl
      have hvalue := childValue?_eq hbecomes hlink
      simp only [hchild, Option.bind_eq_bind, Option.bind_some, has, hvalue]

theorem filter_creditItems (d : FeedDocument) (name : String) :
    d.creditItems.filter (·.name == name) = if "credit" == name then d.creditItems else [] := by
  unfold creditItems
  cases d.creditUrl with
  | none => simp
  | some url => simp [List.filter_cons]

/-- In any order each element of the root is the only one with its name. -/
theorem filter_root {location updates times children : List Item}
    (h : children.Perm (d.rootItems location updates times)) :
    children.filter (·.name == "location") = [.element "location" [] location] ∧
      children.filter (·.name == "credit") = d.creditItems ∧
      children.filter (·.name == "meta") = [.element "meta" [] updates] ∧
      children.filter (·.name == "forecast") =
        [.element "forecast" [] [.element "tabular" [] times]] := by
  refine ⟨?_, ?_, ?_, ?_⟩
  · exact filter_eq_singleton h (by simp [rootItems, filter_creditItems])
  · have hnamed := h.filter (·.name == "credit")
    have hspec : (d.rootItems location updates times).filter (·.name == "credit") =
        d.creditItems := by
      simp [rootItems, filter_creditItems]
    rw [hspec] at hnamed
    unfold creditItems at hnamed ⊢
    split
    · rename_i url hurl
      rw [hurl] at hnamed
      exact List.perm_singleton.mp hnamed
    · rename_i hurl
      rw [hurl] at hnamed
      exact List.perm_nil.mp hnamed
  · exact filter_eq_singleton h (by simp [rootItems, filter_creditItems])
  · exact filter_eq_singleton h (by simp [rootItems, filter_creditItems])

/-- Whatever the order of its elements, what was written is read as the parts of the feed. -/
theorem SaidBy.ofNode? {item : Item} {root : Node} (h : d.SaidBy item) (hroot : item.Becomes root) :
    FeedDocument.ofNode? root = some d.withUnifiedLines := by
  cases h with
  | @root location updates times children hlocation hupdates htimes hchildren =>
      -- Every lookup by name finds the only item of that name, in whatever order the items stand.
      obtain ⟨hlocationItem, hcreditItem, hmetaItem, hforecastItem⟩ := filter_root hchildren
      obtain ⟨as, has, -⟩ := hroot.attributes?_eq
      obtain ⟨locationNode, hlocationNode, hlocationBecomes⟩ := required?_eq hroot hlocationItem
      obtain ⟨metaNode, hmetaNode, hmetaBecomes⟩ := required?_eq hroot hmetaItem
      have hplace := locationRead hlocationBecomes hlocation
      have htimesRead := updatesRead hmetaBecomes hupdates
      obtain ⟨bs, hbs⟩ := hplace.attributes
      obtain ⟨ms, hms⟩ := htimesRead.attributes
      obtain ⟨inner, ps, hinner, hposition⟩ := hplace.position
      have hcopy : String.ofList ∘ String.toList = id := funext fun _ => String.ofList_toList
      simp only [FeedDocument.ofNode?, has, hlocationNode, hbs, hinner, hposition.attributes,
        hmetaNode, hms, hposition.latitude, hposition.longitude, hposition.geobase,
        hposition.geobaseId, hplace.name, hplace.country, hplace.offset, htimesRead.last,
        htimesRead.next, creditUrlOf?_eq hroot hcreditItem, timesOf?_eq hroot hforecastItem htimes,
        Option.bind_eq_bind, Option.bind_some, Option.map_map, hcopy, Option.map_id,
        String.ofList_toList]
      rfl

/-- A written document is taken apart into what was written. -/
theorem ofText?_written {document : String} (h : d.Written document.toList) :
    ofText? document = some d.withUnifiedLines := by
  obtain ⟨root, hsaid, hwritten⟩ := h
  cases root with
  | textual => cases hsaid
  | element name attributes children =>
      obtain ⟨node, hnode, hbecomes⟩ := ofDocument?_written hwritten hsaid.fits
      unfold ofText?
      rw [hnode]
      exact hsaid.ofNode? hbecomes

end FeedDocument

/-! ## One way to write a feed -/

theorem proper_holder {name : String} {children : List Item} (hname : IsWord name)
    (hchildren : ∀ child ∈ children, child.Proper) : (Item.element name [] children).Proper :=
  .element hname (by simp) List.nodup_nil hchildren

theorem proper_optionalItem {name key : String} (hname : IsWord name) (hkey : IsWord key)
    (value : Option String) : ∀ item ∈ optionalItem name key value, item.Proper := by
  intro item hitem
  cases value with
  | none => cases hitem
  | some value =>
      rw [optionalItem, List.mem_singleton] at hitem
      subst hitem
      exact .element hname (by simpa using hkey) (by simp) (by simp)

namespace TimeElement

/-- A `time` element with the measures that have a value. -/
def item (t : TimeElement) : Item :=
  .element "time" [("from", t.start), ("to", t.finish), ("period", t.period)]
    (t.measureItems (some t.symbol))

theorem saidBy_item (t : TimeElement) : t.SaidBy t.item := .time rfl (.refl _)

theorem isWord_measures :
    ∀ name ∈ ["symbol", "precipitation", "windDirection", "windSpeed", "temperature", "pressure",
      "var", "value", "deg", "mps"], IsWord name := by
  decide +kernel

theorem proper_measureItems (t : TimeElement) (symbol : Option String) :
    ∀ item ∈ t.measureItems symbol, item.Proper := by
  intro item hitem
  obtain ⟨m, hm, hitem⟩ := List.mem_flatMap.mp hitem
  have hwords : IsWord m.1 ∧ IsWord m.2.1 := by
    simp only [measures, List.mem_cons, List.not_mem_nil, or_false] at hm
    rcases hm with rfl | rfl | rfl | rfl | rfl | rfl <;>
      exact ⟨isWord_measures _ (by simp), isWord_measures _ (by simp)⟩
  exact proper_optionalItem hwords.1 hwords.2 _ item hitem

theorem proper_item (t : TimeElement) : t.item.Proper := by
  have hkeys : ∀ key ∈ ["from", "to", "period"], IsWord key := by decide +kernel
  have hdistinct : ["from", "to", "period"].Nodup := by decide
  refine .element (by decide +kernel) (fun a ha => ?_) hdistinct (t.proper_measureItems _)
  exact hkeys a.1 (List.mem_map_of_mem ha)

end TimeElement

namespace FeedDocument

/-- The parts of a feed as a root element. -/
def item (d : FeedDocument) : Item :=
  .element "weatherdata" []
    (d.rootItems d.locationItems d.updateItems (d.times.map TimeElement.item))

/-- The parts of a feed as a document. -/
def write (d : FeedDocument) : String := String.ofList d.item.write

theorem saidBy_item (d : FeedDocument) : d.SaidBy d.item := by
  have htimes : List.Forall₂ TimeElement.SaidBy d.times (d.times.map TimeElement.item) := by
    rw [List.forall₂_map_right_iff]
    exact List.forall₂_same.mpr fun t _ => t.saidBy_item
  exact .root (.refl _) (.refl _) htimes (.refl _)

/-- The names of the elements of a feed, besides those of the table, and their attributes. -/
theorem isWord_names :
    ∀ name ∈ ["weatherdata", "location", "name", "country", "timezone", "utcoffsetMinutes",
      "credit", "link", "url", "meta", "lastupdate", "nextupdate", "forecast", "tabular"],
      IsWord name := by
  decide +kernel

theorem position_keys (d : FeedDocument) :
    (d.position.map Prod.fst).Sublist ["latitude", "longitude", "geobase", "geobaseid"] := by
  unfold position
  cases d.latitude <;> cases d.longitude <;> simp [optionalAttribute]

theorem proper_position (d : FeedDocument) :
    (Item.element "location" d.position []).Proper := by
  have hkeys : ∀ key ∈ ["latitude", "longitude", "geobase", "geobaseid"], IsWord key := by
    decide +kernel
  refine .element (isWord_names _ (by simp)) (fun a ha => ?_) ?_ (by simp)
  · exact hkeys a.1 (d.position_keys.subset (List.mem_map_of_mem ha))
  · exact d.position_keys.nodup (by decide)

theorem proper_locationItems (d : FeedDocument) : ∀ item ∈ d.locationItems, item.Proper := by
  have hword := isWord_names
  intro item hitem
  simp only [locationItems, List.mem_append, List.mem_cons, List.not_mem_nil, or_false] at hitem
  rcases hitem with ((rfl | rfl) | hitem) | rfl
  · exact .textual (hword _ (by simp))
  · exact .textual (hword _ (by simp))
  · exact proper_optionalItem (hword _ (by simp)) (hword _ (by simp)) _ item hitem
  · exact d.proper_position

theorem proper_creditItems (d : FeedDocument) : ∀ item ∈ d.creditItems, item.Proper := by
  have hword := isWord_names
  intro item hitem
  unfold creditItems at hitem
  split at hitem
  · rename_i url _
    rw [List.mem_singleton] at hitem
    subst hitem
    have hlink := proper_optionalItem (hword "link" (by simp)) (hword "url" (by simp)) (some url)
    exact proper_holder (hword _ (by simp)) hlink
  · cases hitem

theorem proper_updateItems (d : FeedDocument) : ∀ item ∈ d.updateItems, item.Proper := by
  have hword := isWord_names
  intro item hitem
  simp only [updateItems, List.mem_cons, List.not_mem_nil, or_false] at hitem
  rcases hitem with rfl | rfl
  · exact .textual (hword _ (by simp))
  · exact .textual (hword _ (by simp))

theorem proper_item (d : FeedDocument) : d.item.Proper := by
  have hword := isWord_names
  have htimes : ∀ item ∈ d.times.map TimeElement.item, item.Proper := by
    intro item hitem
    obtain ⟨t, -, rfl⟩ := List.mem_map.mp hitem
    exact t.proper_item
  have htable : (Item.element "tabular" [] (d.times.map TimeElement.item)).Proper :=
    proper_holder (hword _ (by simp)) htimes
  refine proper_holder (hword _ (by simp)) fun item hitem => ?_
  simp only [rootItems, List.mem_append, List.mem_cons, List.not_mem_nil, or_false] at hitem
  rcases hitem with (rfl | hitem) | rfl | rfl
  · exact proper_holder (hword _ (by simp)) d.proper_locationItems
  · exact d.proper_creditItems item hitem
  · exact proper_holder (hword _ (by simp)) d.proper_updateItems
  · exact proper_holder (hword _ (by simp)) (by simpa using htable)

/-- The parts of every feed can be written. -/
theorem written_write (d : FeedDocument) : d.Written d.write.toList := by
  rw [write, String.toList_ofList]
  exact ⟨d.item, d.saidBy_item, d.proper_item.written⟩

end FeedDocument

end PlaceWeather
