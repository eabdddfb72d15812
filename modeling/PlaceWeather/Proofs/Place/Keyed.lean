import PlaceWeather.Proofs.Station.RefreshPath

/-!
# Places under their own identifiers

A store is keyed when each place stands under its own identifier.  Writes keep it so, and in a keyed
store reconciling a downloaded place changes no record but the one under its identifier.
-/

namespace PlaceWeather

theorem PlaceField.geoid_copy (a b : Place) (field : PlaceField) :
    (field.copy a b).geoid = a.geoid := by
  cases field <;> rfl

namespace Place

theorem geoid_foldl_copy (fields : List PlaceField) (a b : Place) :
    (fields.foldl (fun p field => PlaceField.copy p b field) a).geoid = a.geoid := by
  induction fields generalizing a with
  | nil => rfl
  | cons field rest ih =>
      rw [List.foldl_cons, ih]
      exact PlaceField.geoid_copy a b field

/-- The record that reconciling asks for keeps the identifier of the stored one. -/
theorem geoid_of_reconcile {existing : Option Place} {downloaded place : Place}
    (h : (reconcile existing downloaded).record? = some place) :
    place.geoid = (existing.map Place.geoid).getD downloaded.geoid := by
  cases existing with
  | none =>
      cases h
      rfl
  | some old =>
      unfold reconcile at h
      dsimp only at h
      split at h
      · cases h
      · cases h
        exact geoid_foldl_copy _ old downloaded

end Place

namespace Store

/-- Each place stands under its own identifier. -/
def Keyed (store : Store) : Prop := ∀ geoid place, store.place? geoid = some place → place.geoid = geoid

theorem keyed_of_places_eq {store other : Store} (h : other.places = store.places)
    (hkeyed : store.Keyed) : other.Keyed := by
  intro geoid place hplace
  rw [place?, h] at hplace
  exact hkeyed geoid place hplace

theorem keyed_scanning : scanning.Keyed := by
  intro geoid place hplace
  cases hplace

theorem Keyed.putPlace {store : Store} (hkeyed : store.Keyed) (p : Place) :
    (store.putPlace p).Keyed := by
  intro geoid place hplace
  rw [place?_putPlace] at hplace
  split at hplace
  · cases hplace
    assumption
  · exact hkeyed geoid place hplace

/-- In a keyed store the reconciled record goes to the identifier of the downloaded place. -/
theorem Keyed.reconciled_eq {store : Store} (hkeyed : store.Keyed) (downloaded : Place) :
    store.reconciled downloaded = store ∨
      ∃ place, place.geoid = downloaded.geoid ∧
        store.reconciled downloaded = store.putPlace place := by
  unfold reconciled
  split
  · rename_i place hrecord
    -- The record keeps the identifier of the stored place, which is the downloaded one.
    have hgeoid := Place.geoid_of_reconcile hrecord
    cases hold : store.place? downloaded.geoid with
    | none => exact .inr ⟨place, by rw [hgeoid, hold]; rfl, rfl⟩
    | some old => exact .inr ⟨place, by rw [hgeoid, hold]; exact hkeyed _ old hold, rfl⟩
  · exact .inl rfl

theorem Keyed.place?_reconciled {store : Store} (hkeyed : store.Keyed) {downloaded : Place}
    {geoid : String} (hne : geoid ≠ downloaded.geoid) :
    (store.reconciled downloaded).place? geoid = store.place? geoid := by
  rcases hkeyed.reconciled_eq downloaded with heq | ⟨place, hplace, heq⟩
  · rw [heq]
  · rw [heq, place?_putPlace, hplace, if_neg (Ne.symm hne)]

theorem Keyed.reconciled {store : Store} (hkeyed : store.Keyed) (downloaded : Place) :
    (store.reconciled downloaded).Keyed := by
  rcases hkeyed.reconciled_eq downloaded with heq | ⟨place, -, heq⟩
  · rwa [heq]
  · rw [heq]
    exact hkeyed.putPlace place

theorem Keyed.withFeed {store : Store} (hkeyed : store.Keyed) (feed : Feed) :
    (store.withFeed feed).Keyed :=
  keyed_of_places_eq rfl (hkeyed.reconciled feed.place)

end Store

/-- A path that stays in the calendar keeps each place under its own identifier. -/
theorem RefreshPath.keyed {baseUrl geoid : String} {now : Instant} {s t : Station}
    {outcome : Except Fault Freshness} (h : RefreshPath baseUrl geoid now s outcome t)
    (hcalendar : outcome ≠ .error .offCalendar) (hkeyed : s.store.Keyed) : t.store.Keyed := by
  cases h with
  | fresh | unknown | refused => exact hkeyed
  | putOff => exact Store.keyed_of_places_eq rfl hkeyed
  | current => exact hkeyed.withFeed _
  | stale => exact Store.keyed_of_places_eq rfl (hkeyed.withFeed _)
  | offCalendar => exact absurd rfl hcalendar

end PlaceWeather
