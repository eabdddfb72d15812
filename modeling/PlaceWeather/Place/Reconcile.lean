import PlaceWeather.Place

/-!
# Reconciling places

What a downloaded description of a place means for the stored record: it is new, it differs in some
fields, or it says nothing new.  Coordinates are compared as numbers, so the two zeros are equal and
a coordinate that is no number always differs.
-/

namespace PlaceWeather

/-- The fields of a place that a download can change. -/
inductive PlaceField where
  | latitude
  | longitude
  | country
  | name
  | link
  deriving DecidableEq, Repr

namespace PlaceField

/-- The name of a field. -/
def label : PlaceField → String
  | latitude => "latitude"
  | longitude => "longitude"
  | country => "country"
  | name => "name"
  | link => "link"

/-- All fields, in the order in which they are checked and reported. -/
def all : List PlaceField := [latitude, longitude, country, name, link]

/-- Whether two places differ in a field. -/
def differs (a b : Place) : PlaceField → Bool
  | latitude => a.latitude != b.latitude
  | longitude => a.longitude != b.longitude
  | country => a.country != b.country
  | name => a.name != b.name
  | link => a.link != b.link

/-- The place `a` with one field taken from `b`. -/
def copy (a b : Place) : PlaceField → Place
  | latitude => { a with latitude := b.latitude }
  | longitude => { a with longitude := b.longitude }
  | country => { a with country := b.country }
  | name => { a with name := b.name }
  | link => { a with link := b.link }

end PlaceField

/-- What reconciling a downloaded place asks for. -/
inductive Reconciliation where
  /-- The place is new and is stored as `added`. -/
  | insert (place : Place)
  /-- Some fields differ; the merged place is stored as `modified`. -/
  | update (place : Place) (changed : List PlaceField)
  /-- Nothing differs and nothing is stored. -/
  | unchanged
  deriving DecidableEq

namespace Place

/-- The fields in which two places differ, in the order of `PlaceField.all`. -/
def changedFields (existing downloaded : Place) : List PlaceField :=
  PlaceField.all.filter (PlaceField.differs existing downloaded)

/-- What a downloaded place means for the stored one. -/
def reconcile (existing : Option Place) (downloaded : Place) : Reconciliation :=
  match existing with
  | none => .insert { downloaded with status := .added }
  | some existing =>
    let changed := changedFields existing downloaded
    if changed.isEmpty then .unchanged
    else
      let merged := changed.foldl (fun p field => field.copy p downloaded) existing
      .update { merged with status := .modified } changed

end Place

/-- The record to store after reconciling, if any. -/
def Reconciliation.record? : Reconciliation → Option Place
  | insert place | update place _ => some place
  | unchanged => none

end PlaceWeather
