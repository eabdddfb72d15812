import PlaceWeather.Proofs.Decimal.NotANumber
import PlaceWeather.Proofs.Feed.Reading
import PlaceWeather.Proofs.Place.Agreement

/-!
# Coordinates of a document

What coordinates a document tells is decided by two of its texts.  They equal themselves unless one
of these texts spells no number, whatever else it is: signs, exponents, infinities and values that
overflow when they are rounded all give coordinates that do (`definite_iff_of_readPlace`).

The identifier under which a feed was asked for goes to its entries and nowhere else, so the same
document tells of the same place however it was asked for (`exists_read_other`).
-/

namespace PlaceWeather

namespace Feed

/-! ## Texts of numbers -/

/-- A number of a feed is written as no number. -/
def NoNumber (text : Option String) : Prop :=
  ∃ s, text = some s ∧ Decimal.SpellsNaN (Text.trim s.toList)

theorem noNumber_some (s : String) :
    NoNumber (some s) ↔ Decimal.SpellsNaN (Text.trim s.toList) := by
  constructor
  · rintro ⟨t, ht, hspells⟩
    cases ht
    exact hspells
  · exact fun hspells => ⟨s, rfl, hspells⟩

theorem not_noNumber_none : ¬ NoNumber none := nofun

instance (text : Option String) : Decidable (NoNumber text) :=
  match text with
  | none => isFalse not_noNumber_none
  | some s => decidable_of_iff _ (noNumber_some s).symm

theorem readNumber_eq_nan_iff {field : String} {text : Option String} {x : Float}
    (h : readNumber field text = .ok x) : x = Float.nan ↔ NoNumber text := by
  unfold readNumber at h
  cases text with
  | none =>
      cases h
      exact iff_of_false Decimal.zero_ne_nan not_noNumber_none
  | some s =>
      rw [noNumber_some]
      rw [Option.map_some] at h
      split at h
      · rename_i hnone
        cases hnone
      · -- Blanks alone count as zero, and spell nothing.
        rename_i hblank
        cases h
        rw [Option.some.inj hblank]
        exact iff_of_false Decimal.zero_ne_nan (by decide)
      · rename_i cs _ htext
        rw [Option.some.inj htext]
        split at h
        · rename_i y hread
          cases h
          exact Decimal.read?_eq_nan_iff hread
        · cases h

theorem readCoordinate_eq_nan_iff {field : String} {text : Option String} {x : Float}
    (h : readCoordinate field text = .ok x) : x = Float.nan ↔ NoNumber text := by
  obtain ⟨y, hnumber, rfl⟩ := map_eq_ok h
  rw [← readNumber_eq_nan_iff hnumber]
  exact Decimal.roundTo_eq_nan_iff y

/-- The coordinates of a place equal themselves exactly when neither is written as no number. -/
theorem definite_iff_of_readPlace {d : FeedDocument} {place : Place}
    (h : readPlace d = .ok place) :
    place.Definite ↔ ¬ NoNumber d.latitude ∧ ¬ NoNumber d.longitude := by
  unfold readPlace at h
  obtain ⟨latitude, hlatitude, h⟩ := bind_eq_ok h
  obtain ⟨longitude, hlongitude, h⟩ := bind_eq_ok h
  cases h
  unfold Place.Definite
  rw [Float.beq_self_iff, Float.beq_self_iff, ne_eq, ne_eq, readCoordinate_eq_nan_iff hlatitude,
    readCoordinate_eq_nan_iff hlongitude]

/-! ## Other identifiers -/

variable {d : FeedDocument} {asked : Option String} {feed : Feed}

theorem readEntry_other {geoid : String} {time : TimeElement} {e : ForecastEntry}
    (h : readEntry geoid time = .ok e) (other : String) :
    readEntry other time = .ok { e with geoid := other } := by
  unfold readEntry at h ⊢
  obtain ⟨_, hstart, h⟩ := bind_eq_ok h
  obtain ⟨_, hfinish, h⟩ := bind_eq_ok h
  obtain ⟨_, hprecipitation, h⟩ := bind_eq_ok h
  obtain ⟨_, hdirection, h⟩ := bind_eq_ok h
  obtain ⟨_, hspeed, h⟩ := bind_eq_ok h
  obtain ⟨_, htemperature, h⟩ := bind_eq_ok h
  obtain ⟨_, hpressure, h⟩ := bind_eq_ok h
  cases h
  -- The same seven readings succeed.
  rw [hstart, hfinish, hprecipitation, hdirection, hspeed, htemperature, hpressure]
  rfl

theorem exists_readEntries_other {geoid : String} {times : List TimeElement}
    {entries : List ForecastEntry} (h : times.mapM (readEntry geoid) = .ok entries)
    (other : String) : ∃ others, times.mapM (readEntry other) = .ok others := by
  induction times generalizing entries with
  | nil => exact ⟨[], rfl⟩
  | cons time rest ih =>
      rw [List.mapM_cons] at h ⊢
      obtain ⟨first, hfirst, h⟩ := bind_eq_ok h
      obtain ⟨later, hlater, -⟩ := bind_eq_ok h
      obtain ⟨others, hothers⟩ := ih hlater
      rw [readEntry_other hfirst other, hothers]
      exact ⟨_, rfl⟩

theorem exists_ofDocument_other (h : ofDocument d asked = .ok feed) (again : Option String) :
    ∃ other, ofDocument d again = .ok other ∧ other.place = feed.place ∧
      readPlace d = .ok feed.place := by
  unfold ofDocument at h ⊢
  obtain ⟨place, hplace, h⟩ := bind_eq_ok h
  obtain ⟨schedule, hschedule, h⟩ := bind_eq_ok h
  obtain ⟨entries, hentries, h⟩ := bind_eq_ok h
  cases h
  obtain ⟨others, hothers⟩ :=
    exists_readEntries_other (ofError_eq_ok hentries) (again.getD place.geoid)
  rw [hplace, hschedule]
  refine ⟨⟨again.getD place.geoid, place, schedule, others⟩, ?_, rfl, ofError_eq_ok hplace⟩
  show (Fault.ofError (d.times.mapM (readEntry (again.getD place.geoid))) >>= _) = _
  rw [hothers]
  rfl

/-- A document that tells of a place tells of the same place under every identifier. -/
theorem exists_read_other {document : String} (h : read document asked = .ok feed)
    (again : Option String) :
    ∃ d other, FeedDocument.ofText? document = some d ∧ read document again = .ok other ∧
      other.place = feed.place ∧ readPlace d = .ok feed.place := by
  unfold read at h ⊢
  cases htext : FeedDocument.ofText? document with
  | none =>
      rw [htext] at h
      cases h
  | some d =>
      rw [htext] at h
      obtain ⟨other, hother, hplace, hread⟩ := exists_ofDocument_other h again
      exact ⟨d, other, rfl, hother, hplace, hread⟩

end Feed

end PlaceWeather
