import PlaceWeather.Markup.Reader

/-!
# The parts of a feed document

What a feed says before any number or timestamp in it is read.  Elements and attributes are known by
their local names; others are passed over.  A known element stands at most once, except the
`time` elements of the table, which follow each other without anything but white space between them.
An element that may be absent may also be nil, which means the same.
-/

namespace PlaceWeather

open Markup

/-- One `time` element of the table: a span and what is forecast for it, as written. -/
structure TimeElement where
  start : String
  finish : String
  period : String
  symbol : String
  precipitation : Option String
  windDirection : Option String
  windSpeed : Option String
  temperature : Option String
  pressure : Option String
  deriving DecidableEq, Repr

/-- The parts of a feed document, as written. -/
structure FeedDocument where
  geobase : String
  geobaseId : String
  latitude : Option String
  longitude : Option String
  name : String
  country : String
  offset : Option String
  creditUrl : Option String
  lastUpdate : String
  nextUpdate : String
  times : List TimeElement
  deriving DecidableEq, Repr

namespace TimeElement

/-- An attribute of a child element that may be absent, as may the attribute. -/
def childValue? (node : Node) (child key : String) : Option (Option String) := do
  match ← node.child? child with
  | none => pure none
  | some element =>
    let value ← Attribute.value? (← element.attributes?) key
    pure (value.map String.ofList)

/-- The parts of a `time` element. -/
def ofNode? (node : Node) : Option TimeElement := do
  let attributes ← node.attributes?
  pure {
    start := String.ofList (← Attribute.required? attributes "from")
    finish := String.ofList (← Attribute.required? attributes "to")
    period := String.ofList ((← Attribute.value? attributes "period").getD [])
    symbol := (← childValue? node "symbol" "var").getD ""
    precipitation := ← childValue? node "precipitation" "value"
    windDirection := ← childValue? node "windDirection" "deg"
    windSpeed := ← childValue? node "windSpeed" "mps"
    temperature := ← childValue? node "temperature" "value"
    pressure := ← childValue? node "pressure" "value" }

/-- The `time` elements among the content of the table: one run of elements with the same full name,
and none behind it. -/
def run? (content : List Node) : Option (List Node) :=
  match content.dropWhile (!Node.isNamed "time" ·) with
  | [] => some []
  | first :: rest =>
    let inRun (n : Node) : Bool := n.isSpace || n.fullName? == first.fullName?
    if (rest.dropWhile inRun).any (Node.isNamed "time") then none
    else some (first :: (rest.takeWhile inRun).filter (!·.isSpace))

end TimeElement

namespace FeedDocument

/-- The measures of a `time` element; each may be nil. -/
def timeOutline : Outline :=
  ["symbol", "precipitation", "windDirection", "windSpeed", "temperature", "pressure"].foldr
    (fun name more => .part name true .done more) .done

/-- The elements of a `location`. -/
def locationOutline : Outline :=
  .part "name" false .done <| .part "country" false .done <| .part "timezone" true .done <|
    .part "location" false .done .done

/-- The elements of a feed document that are read. -/
def outline : Outline :=
  .part "location" false locationOutline <|
  .part "credit" true (.part "link" true .done .done) <|
  .part "meta" false (.part "lastupdate" false .done <| .part "nextupdate" false .done .done) <|
  .part "forecast" false (.part "tabular" false (.part "time" false timeOutline .done) .done) .done

/-- The text of a child element that may be absent. -/
def childText? (node : Node) (name : String) : Option (Option String) := do
  match ← node.child? name with
  | none => pure none
  | some element => pure (some (String.ofList (← element.text?)))

/-- The address in the credit, which may be absent in three ways. -/
def creditUrlOf? (root : Node) : Option (Option String) := do
  match ← root.child? "credit" with
  | none => pure none
  | some credit =>
    let _ ← credit.attributes?
    TimeElement.childValue? credit "link" "url"

/-- The `time` elements of the table. -/
def timesOf? (root : Node) : Option (List TimeElement) := do
  let forecast ← root.required? "forecast"
  let _ ← forecast.attributes?
  let table ← forecast.required? "tabular"
  let _ ← table.attributes?
  (← TimeElement.run? table.children).mapM TimeElement.ofNode?

/-- The parts of the document with a root element, whatever its name. -/
def ofNode? (root : Node) : Option FeedDocument := do
  let _ ← root.attributes?
  let location ← root.required? "location"
  let _ ← location.attributes?
  let position ← (← location.required? "location").attributes?
  let updates ← root.required? "meta"
  let _ ← updates.attributes?
  pure {
    geobase := String.ofList (← Attribute.required? position "geobase")
    geobaseId := String.ofList (← Attribute.required? position "geobaseid")
    latitude := (← Attribute.value? position "latitude").map String.ofList
    longitude := (← Attribute.value? position "longitude").map String.ofList
    name := (← childText? location "name").getD ""
    country := (← childText? location "country").getD ""
    offset := ← TimeElement.childValue? location "timezone" "utcoffsetMinutes"
    creditUrl := ← creditUrlOf? root
    lastUpdate := ← (← childText? updates "lastupdate")
    nextUpdate := ← (← childText? updates "nextupdate")
    times := ← timesOf? root }

/-- The parts of a document; none when it is ill formed or a required part is missing. -/
def ofText? (document : String) : Option FeedDocument :=
  (Node.ofDocument? outline document.toList).bind ofNode?

end FeedDocument

end PlaceWeather
