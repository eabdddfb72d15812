import PlaceWeather.Error
import PlaceWeather.Table

/-!
# The web

What downloads give, address by address: a list of responses that are given out in order, the last
of them again and again.
-/

namespace PlaceWeather

/-- A document, or why there is none. -/
abbrev Response := Except WeatherError String

/-- The responses still to come at each address. -/
structure Web where
  responses : Table String (List Response)

namespace Web

/-- The web without any address. -/
def empty : Web := ⟨.empty⟩

/-- The response at an address without any. -/
def noRoute : Response := .error (.transport "no route")

/-- The web with other responses at some addresses. -/
def serve (web : Web) (responses : List (String × List Response)) : Web :=
  ⟨responses.foldl (fun t (url, rs) => t.insert url rs) web.responses⟩

/-- The response to a download, and the web after it. -/
def respond (web : Web) (url : String) : Response × Web :=
  match web.responses.get? url with
  | none | some [] => (noRoute, web)
  | some [last] => (last, web)
  | some (r :: later) => (r, ⟨web.responses.insert url later⟩)

end Web

end PlaceWeather
