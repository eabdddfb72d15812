import PlaceWeather.Station.Refresh

/-!
# Adding places

A place can be registered as it is.  Or it is added from the address of its page: the feed of the
page is downloaded and stored under the document's own identifier.  A place whose country and link
are already known is refused before the download.  Addresses name countries with underscores, so the
country is also looked for with blanks in their place.
-/

namespace PlaceWeather

namespace Action

/-- Registers a place, unless the store does not take its identifier or its country and link as
keys. -/
def seedPlace (p : Place) : Action Unit := do
  let s ← get
  if s.store.takesKey p.geoid && s.store.takesKey (LinkIndex.keyOf p) then putPlace p
  else fail (.store "a key is empty or too long")

/-- A country as it may be stored, given how it stands in an address. -/
def countrySpellings (country : String) : List String :=
  [country, country.map fun c => if c = '_' then ' ' else c]

/-- Stops when a place with one of some countries and a link is known. -/
def refuseKnown (url link : String) : List String → Action Unit
  | [] => pure ()
  | country :: rest => do
    match ← findByLink country link with
    | some existing =>
      fail (.invalid (Text.trimmed url ++ " already exists as " ++ existing.geoid))
    | none => refuseKnown url link rest

/-- Adds the place of a page. -/
def addPlace (url : String) : Action Place := do
  let feedUrl ← ofExcept (Fault.ofError (Address.feedOfPage url))
  let (country, link) := Address.split feedUrl
  refuseKnown url link (countrySpellings country)
  let feed ← storeFeed feedUrl none
  requirePlace feed.geoid

end Action

end PlaceWeather
