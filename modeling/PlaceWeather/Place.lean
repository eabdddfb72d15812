import PlaceWeather.Decimal.Notation

/-!
# Places

A place is where forecasts are for: its identity, its coordinates, and the country and link from
which the address of its feed is made.
-/

namespace PlaceWeather

/-- How a place record came to its values. -/
inductive PlaceStatus where
  /-- Registered by hand and never changed by a download. -/
  | original
  /-- A download reported other values than the stored ones. -/
  | modified
  /-- First seen in a download. -/
  | added
  deriving DecidableEq, Repr

/-- The name of a status. -/
def PlaceStatus.name : PlaceStatus → String
  | original => "original"
  | modified => "modified"
  | added => "added"

/-- A place with a forecast feed. -/
structure Place where
  /-- The globally unique identifier, such as `geonames_2911298`. -/
  geoid : String
  /-- Decimal degrees north. -/
  latitude : Float
  /-- Decimal degrees east. -/
  longitude : Float
  country : String
  name : String
  /-- The path of the feed below the country, such as `Hamburg/Hamburg`. -/
  link : String
  status : PlaceStatus
  deriving DecidableEq

/-- One line about a place, its coordinates with five places. -/
def Place.text (p : Place) : String :=
  p.name ++ " (" ++ p.country ++ ", " ++ p.geoid ++ ") [" ++ Decimal.fixed 5 p.latitude ++ ", " ++
    Decimal.fixed 5 p.longitude ++ "] " ++ p.status.name

end PlaceWeather
