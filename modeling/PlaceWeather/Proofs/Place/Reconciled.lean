import PlaceWeather.Proofs.Place.Keyed

/-!
# The place left by a download

In a keyed store there is a place under the identifier of the downloaded one after reconciling, and
its texts are those of the download, whatever was stored before (`Keyed.reconciled_self`).
-/

namespace PlaceWeather

namespace PlaceField

/-- Two places have the same value of a field. -/
def Same (a b : Place) : PlaceField → Prop
  | latitude => a.latitude = b.latitude
  | longitude => a.longitude = b.longitude
  | country => a.country = b.country
  | name => a.name = b.name
  | link => a.link = b.link

theorem same_copy_self (a b : Place) (field : PlaceField) : Same (field.copy a b) b field := by
  cases field <;> rfl

/-- Taking over another field keeps a field that is the same already. -/
theorem Same.copy {a b : Place} {field : PlaceField} (h : Same a b field) (other : PlaceField) :
    Same (other.copy a b) b field := by
  cases field <;> cases other <;> first | exact h | rfl

theorem same_foldl_copy {a b : Place} {fields : List PlaceField} {field : PlaceField}
    (h : field ∈ fields ∨ Same a b field) :
    Same (fields.foldl (fun p other => other.copy p b) a) b field := by
  induction fields generalizing a with
  | nil =>
      rcases h with h | h
      · cases h
      · exact h
  | cons first rest ih =>
      rw [List.foldl_cons]
      rcases h with h | h
      · rcases List.mem_cons.mp h with rfl | hrest
        · exact ih (.inr (same_copy_self a b field))
        · exact ih (.inl hrest)
      · exact ih (.inr (h.copy first))

end PlaceField

namespace Place

/-- `place` has the identity and the texts of `downloaded`. -/
structure Described (place downloaded : Place) : Prop where
  geoid : place.geoid = downloaded.geoid
  country : place.country = downloaded.country
  name : place.name = downloaded.name
  link : place.link = downloaded.link

theorem mem_changedFields {existing downloaded : Place} {field : PlaceField} :
    field ∈ changedFields existing downloaded ↔ field.differs existing downloaded = true := by
  unfold changedFields
  rw [List.mem_filter, and_iff_right]
  cases field <;> decide

/-- Merging the changed fields gives the texts of the download: a text that is not among them is the
same already. -/
theorem described_merged {existing downloaded : Place} (hgeoid : existing.geoid = downloaded.geoid)
    (status : PlaceStatus) :
    Described { (changedFields existing downloaded).foldl
      (fun p field => PlaceField.copy p downloaded field) existing with status } downloaded := by
  have hsame : ∀ field, (PlaceField.differs existing downloaded field = false →
      PlaceField.Same existing downloaded field) →
      PlaceField.Same ((changedFields existing downloaded).foldl
        (fun p other => other.copy p downloaded) existing) downloaded field := by
    intro field hequal
    apply PlaceField.same_foldl_copy
    cases hdiffers : PlaceField.differs existing downloaded field with
    | true => exact .inl (mem_changedFields.mpr hdiffers)
    | false => exact .inr (hequal hdiffers)
  refine ⟨(geoid_foldl_copy _ existing downloaded).trans hgeoid, ?_, ?_, ?_⟩
  · exact hsame .country fun h => bne_eq_false_iff_eq.mp h
  · exact hsame .name fun h => bne_eq_false_iff_eq.mp h
  · exact hsame .link fun h => bne_eq_false_iff_eq.mp h

/-- Where nothing has changed, the texts are the same. -/
theorem described_of_unchanged {existing downloaded : Place}
    (hgeoid : existing.geoid = downloaded.geoid)
    (hunchanged : changedFields existing downloaded = []) : Described existing downloaded := by
  have hmerged := described_merged hgeoid existing.status
  rw [hunchanged] at hmerged
  exact hmerged

end Place

namespace Store

theorem Keyed.reconciled_self {store : Store} (hkeyed : store.Keyed) (downloaded : Place) :
    ∃ place, (store.reconciled downloaded).place? downloaded.geoid = some place ∧
      place.Described downloaded := by
  unfold Store.reconciled Place.reconcile
  cases hold : store.place? downloaded.geoid with
  | none =>
      refine ⟨{ downloaded with status := .added }, ?_, rfl, rfl, rfl, rfl⟩
      exact (place?_putPlace store _ _).trans (if_pos rfl)
  | some old =>
      have hgeoid : old.geoid = downloaded.geoid := hkeyed _ old hold
      dsimp only
      split
      · rename_i place hrecord
        split at hrecord
        · cases hrecord
        · cases hrecord
          have hdescribed := Place.described_merged hgeoid .modified
          refine ⟨_, ?_, hdescribed⟩
          rw [place?_putPlace, if_pos hdescribed.geoid]
      · rename_i hrecord
        split at hrecord
        · rename_i hunchanged
          exact ⟨old, hold, Place.described_of_unchanged hgeoid (List.isEmpty_iff.mp hunchanged)⟩
        · cases hrecord

/-- After a feed was stored, the place that it describes is known by its texts. -/
theorem Keyed.withFeed_self {store : Store} (hkeyed : store.Keyed) (feed : Feed) :
    ∃ place, (store.withFeed feed).place? feed.place.geoid = some place ∧
      place.Described feed.place := by
  obtain ⟨place, hplace, hdescribed⟩ := hkeyed.reconciled_self feed.place
  exact ⟨place, hplace, hdescribed⟩

end Store

end PlaceWeather
