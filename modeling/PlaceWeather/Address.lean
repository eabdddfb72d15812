import PlaceWeather.Error
import PlaceWeather.Text.Percent
import PlaceWeather.Text.Pieces

/-!
# Addresses

The page of a place is `<base>/<country>/<link>/`, its feed `<base>/<country>/<link>/forecast.xml`.
Page addresses name the country with underscores, feed addresses are percent-encoded besides.
Taking an address apart gives country and link back.
-/

namespace PlaceWeather.Address

/-- The base of the addresses of feeds and pages when no other is chosen. -/
def standardBase : String := "https://www.yr.no/place"

/-- How an address given by a user must begin. -/
def pageLead : String := "https://www.yr.no/place/"

/-- The leads that are taken off an address before it is taken apart. -/
def knownLeads : List String := ["http://www.yr.no/place/", "https://www.yr.no/place/"]

/-- The file name of a feed. -/
def feedFile : String := "forecast.xml"

/-- A country as it stands in addresses: blanks become underscores, and so does a full stop at the
end. -/
def normalizeCountry (country : String) : String :=
  let cs := country.toList.map fun c => if c = ' ' then '_' else c
  String.ofList (if cs.getLast? = some '.' then cs.dropLast ++ ['_'] else cs)

/-- A base address without the slashes at its end. -/
def trimBase (base : String) : String :=
  String.ofList (base.toList.reverse.dropWhile (· == '/')).reverse

/-- Country and link as they stand in addresses. -/
def placePath (country link : String) : String := normalizeCountry country ++ "/" ++ link

/-- The address of a place's feed. -/
def feed (base country link : String) : String :=
  trimBase base ++ "/" ++ String.ofList (Percent.encodePath (placePath country link).toList) ++
    "/" ++ feedFile

/-- The address of a place's page. -/
def page (base country link : String) : String :=
  trimBase base ++ "/" ++ placePath country link ++ "/"

/-- An address without its known lead; one without a known lead is kept. -/
def dropLead (url : String) : List Char :=
  (knownLeads.findSome? fun lead => Text.stripStart? lead.toList url.toList).getD url.toList

/-- Country and link of an address: the first piece between slashes is the country, the last one (a
file name, or nothing behind a final slash) is dropped, and the pieces between are the link. -/
def split (url : String) : String × String :=
  match Text.split '/' (dropLead url) with
  | [] => ("", "")
  | country :: pieces =>
    (String.ofList country, String.ofList (Text.join '/' pieces.dropLast))

/-- The address of a page with a slash at its end. -/
def withFinalSlash (url : String) : String :=
  if url.toList.getLast? = some '/' then url else url ++ "/"

/-- The feed of the page that a user named.  The address begins with `pageLead` and names a country
and a link. -/
def feedOfPage (url : String) : Except WeatherError String :=
  let url := Text.trimmed url
  if !Text.startsWith pageLead.toList url.toList then
    .error (.invalid ("place URL must start with " ++ pageLead))
  else
    let page := withFinalSlash url
    let (country, link) := split page
    if country.isEmpty || link.isEmpty then
      .error (.invalid ("'" ++ url ++ "' does not name a place"))
    else .ok (page ++ feedFile)

end PlaceWeather.Address
