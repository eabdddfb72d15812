import PlaceWeather.Proofs.Feed.Coordinates
import PlaceWeather.Proofs.Feed.Telling
import PlaceWeather.Proofs.Session.PlaceInvariant
import PlaceWeather.Proofs.Station.Convergence
import PlaceWeather.Proofs.Station.Frame

/-!
# The same document again

After a download the record of its place is settled on what the document says: it differs from that
only in values that differ from themselves (`Place.Settled`).  So a second download of the same
document finds the place unchanged exactly when the coordinates equal themselves, that is, when
neither of them is written as no number (`Action.storeFeed_again`).  A coordinate that is no number
differs from the record that has it, each time: the record keeps its values, and becomes `modified`
although nothing was changed.
-/

namespace PlaceWeather

/-! ## Settled records -/

namespace PlaceField

theorem Same.copy_eq {a b : Place} {field : PlaceField} (h : Same a b field) :
    field.copy a b = a := by
  cases field with
  | latitude => exact congrArg (fun x => ({ a with latitude := x } : Place)) h.symm
  | longitude => exact congrArg (fun x => ({ a with longitude := x } : Place)) h.symm
  | country => exact congrArg (fun x => ({ a with country := x } : Place)) h.symm
  | name => exact congrArg (fun x => ({ a with name := x } : Place)) h.symm
  | link => exact congrArg (fun x => ({ a with link := x } : Place)) h.symm

theorem foldl_copy_eq {a b : Place} {fields : List PlaceField}
    (h : ∀ field ∈ fields, Same a b field) :
    fields.foldl (fun p other => other.copy p b) a = a := by
  induction fields with
  | nil => rfl
  | cons first rest ih =>
      rw [List.foldl_cons, (h first List.mem_cons_self).copy_eq]
      exact ih fun field hfield => h field (List.mem_cons_of_mem first hfield)

end PlaceField

namespace Place

variable {record described : Place}

/-- Where the record differs from the description, it has the description's own value. -/
def Settled (record described : Place) : Prop :=
  ∀ field, PlaceField.differs record described field = true →
    PlaceField.Same record described field

theorem Agrees.settled (h : record.Agrees described) : record.Settled described := by
  intro field hdiffers
  rw [h field] at hdiffers
  cases hdiffers

/-- A merge settles the record: a field that still differs did so before, and was taken over. -/
theorem settled_merged (existing described : Place) :
    (existing.merged described).Settled described := by
  intro field hdiffers
  unfold merged at hdiffers ⊢
  by_cases hchanged : field ∈ changedFields existing described
  · exact PlaceField.same_foldl_copy (.inl hchanged)
  · rw [(PlaceField.same_foldl_copy_of_not_mem hchanged _ _).differs_eq] at hdiffers
    exact absurd (mem_changedFields.mpr hdiffers) hchanged

theorem Settled.withStatus (h : record.Settled described) (status : PlaceStatus) :
    ({ record with status := status } : Place).Settled described := by
  intro field hdiffers
  have hsame : PlaceField.Same { record with status := status } record field :=
    (PlaceField.same_withStatus field).mpr (by cases field <;> rfl)
  rw [hsame.differs_eq] at hdiffers
  exact (PlaceField.same_withStatus field).mpr (h field hdiffers)

/-- A settled record agrees with its description when that equals itself, and only then. -/
theorem Settled.agrees_iff (h : record.Settled described) :
    record.Agrees described ↔ described.Definite := by
  constructor
  · intro hagrees
    obtain ⟨hlatitude, hlongitude, -⟩ := Place.agrees_iff.mp hagrees
    unfold Definite
    rw [Float.beq_self_iff, Float.beq_self_iff]
    exact ⟨(Float.beq_iff_ne_nan_and_eq.mp hlatitude).2.1,
      (Float.beq_iff_ne_nan_and_eq.mp hlongitude).2.1⟩
  · intro hdefinite field
    by_contra hdiffers
    rw [Bool.not_eq_false] at hdiffers
    -- The value is the description's own, so it does not differ.
    have hself := hdefinite.agrees_self field
    rw [← (h field hdiffers).differs_eq, hdiffers] at hself
    cases hself

/-- Merging into a settled record keeps it as it is. -/
theorem Settled.merged_eq (h : record.Settled described) : record.merged described = record :=
  PlaceField.foldl_copy_eq fun field hfield => h field (mem_changedFields.mp hfield)

end Place

namespace Store

variable {store : Store} {described : Place}

/-- Whatever was stored before, reconciling leaves a settled record. -/
theorem Keyed.settled_reconciled (hkeyed : store.Keyed) (described : Place) :
    ∃ record, (store.reconciled described).place? described.geoid = some record ∧
      record.Settled described := by
  cases hold : store.place? described.geoid with
  | none =>
      have hself : described.Settled described := fun field _ => by cases field <;> rfl
      exact ⟨_, place?_reconciled_of_none hold, hself.withStatus .added⟩
  | some existing =>
      by_cases hagrees : existing.Agrees described
      · rw [reconciled_of_agrees hold hagrees]
        exact ⟨existing, hold, hagrees.settled⟩
      · exact ⟨_, hkeyed.place?_reconciled_of_not_agrees hold hagrees,
          (Place.settled_merged existing described).withStatus .modified⟩

end Store

/-! ## A feed with some latitude -/

/-- The sample feed with another latitude. -/
def Feed.sampleAt (latitude : String) : FeedDocument :=
  { Feed.sample "Hamburg" with latitude := some latitude }

theorem Feed.ofText?_sampleAt (latitude : String) :
    FeedDocument.ofText? (Feed.sampleAt latitude).write = some (Feed.sampleAt latitude) := by
  have hplain : (Feed.sampleAt latitude).withUnifiedLines = Feed.sampleAt latitude := by
    apply FeedDocument.withUnifiedLines_eq_self
    · exact (by decide : FeedDocument.PlainLines "Hamburg")
    · exact (by decide : FeedDocument.PlainLines "Germany")
    · exact (by decide : FeedDocument.PlainLines "2013-10-07T17:30:00")
    · exact (by decide : FeedDocument.PlainLines "2013-10-08T06:00:00")
  rw [FeedDocument.ofText?_written (Feed.sampleAt latitude).written_write, hplain]

namespace Station

/-- A station that knows no place, and whose web has the sample feed with a latitude. -/
def visiting (latitude : String) : Station :=
  start .scanning (hamburgWeb (Feed.sampleAt latitude).write)

/-- The address of the feed of Hamburg. -/
def hamburgUrl : String := "https://www.yr.no/place/Germany/Hamburg/Hamburg/forecast.xml"

theorem reached_visiting (latitude : String) : (visiting latitude).store.Reached :=
  ⟨Session.early, [], Store.empty_scanning, rfl⟩

theorem respond_hamburgWeb (document : String) :
    (hamburgWeb document).respond hamburgUrl = (.ok document, hamburgWeb document) := by
  unfold Web.respond
  rw [hamburgUrl, responses_hamburgWeb, if_pos rfl]

theorem received_visiting (latitude : String) :
    (visiting latitude).received hamburgUrl none = Feed.ofDocument (Feed.sampleAt latitude) none := by
  have hresponse : ((visiting latitude).web.respond hamburgUrl).1 =
      .ok (Feed.sampleAt latitude).write := by
    rw [visiting, start, respond_hamburgWeb]
  rw [received_of_response hresponse, Feed.read, Feed.ofText?_sampleAt]

end Station

/-! ## Two downloads -/

namespace Action

variable {s t u : Station} {url again document : String} {asked : Option String} {feed : Feed}

/-- A reached store takes the feed of a document, and later, with no place record changed in between,
the same document is downloaded again, at any address and under any identifier.

It tells of the same place.  The second download finds the place unchanged exactly when neither
coordinate is written as no number.  Then all place records stay as they are, also when store calls
fail.  Otherwise the record keeps its values and becomes `modified`. -/
theorem storeFeed_again (hreached : s.store.Reached)
    (hfirst : (s.web.respond url).1 = .ok document)
    (hrun : (storeFeed url asked).runAt s = (.ok feed, t))
    (hplaces : u.store.places = t.store.places)
    (hsecond : (u.web.respond again).1 = .ok document) (other : Option String) :
    ∃ d feed' record, FeedDocument.ofText? document = some d ∧
      u.received again other = .ok feed' ∧ feed'.place = feed.place ∧
      u.store.place? feed'.place.geoid = some record ∧
      (Place.reconcile (some record) feed'.place = .unchanged ↔
        ¬ Feed.NoNumber d.latitude ∧ ¬ Feed.NoNumber d.longitude) ∧
      (¬ Feed.NoNumber d.latitude ∧ ¬ Feed.NoNumber d.longitude →
        ((storeFeed again other).runAt u).2.store.places = u.store.places) ∧
      (Feed.NoNumber d.latitude ∨ Feed.NoNumber d.longitude → u.Reliable →
        ((storeFeed again other).runAt u).2.store.place? feed'.place.geoid =
          some { record with status := .modified }) := by
  obtain ⟨given, n, hresponse, hread, rfl⟩ := runAt_storeFeed_eq_ok hrun
  cases hfirst.symm.trans hresponse
  obtain ⟨d, feed', htext, hread', hplace, hparts⟩ := Feed.exists_read_other hread other
  have hreceived : u.received again other = .ok feed' :=
    (Station.received_of_response hsecond).trans hread'
  have hdefinite := Feed.definite_iff_of_readPlace hparts
  -- The record that the first download left is there for the second one.
  obtain ⟨record, hrecord, hsettled⟩ := hreached.keyed.settled_reconciled feed.place
  have hstored : u.store.place? feed.place.geoid = some record := by
    rw [Store.place?, hplaces]
    exact hrecord
  have hkeyed : u.store.Keyed :=
    Store.keyed_of_places_eq hplaces (hreached.keyed.withFeed feed)
  have hagrees := hsettled.agrees_iff.trans hdefinite
  have hsame := (samePlaces_storeFeed hreceived).places
  dsimp only at hsame
  rw [← hplace] at hstored hagrees
  refine ⟨d, feed', record, htext, hreceived, hplace, hstored, ?_, ?_, ?_⟩
  · exact Place.reconcile_eq_unchanged_iff.trans hagrees
  · intro hnumbers
    rw [hsame, Store.reconciled_of_agrees hstored (hagrees.mpr hnumbers), ite_self]
  · intro hnoNumber works
    have hdiffers : ¬ record.Agrees feed'.place := by
      rw [hagrees]
      exact fun hnumbers => hnoNumber.elim hnumbers.1 hnumbers.2
    have hmodified := hkeyed.place?_reconciled_of_not_agrees hstored hdiffers
    rw [hplace, hsettled.merged_eq, ← hplace] at hmodified
    rw [Store.place?, hsame, works.takesPlace u.calls feed'.place, if_pos rfl]
    exact hmodified

/-- The first download stores the feed, and leaves the web as it is. -/
theorem runAt_storeFeed_visiting {latitude : String} {feed : Feed}
    (hfeed : Feed.ofDocument (Feed.sampleAt latitude) none = .ok feed) :
    ∃ t, (storeFeed Station.hamburgUrl none).runAt (.visiting latitude) = (.ok feed, t) ∧
      t.store = Store.scanning.withFeed feed ∧ t.Reliable ∧
      t.web = Station.hamburgWeb (Feed.sampleAt latitude).write := by
  have works : (Station.visiting latitude).Reliable := Station.reliable_start _ _
  have hreceived := (Station.received_visiting latitude).trans hfeed
  obtain ⟨n, hrun⟩ := ends_storeFeed works hreceived 0
  have hweb := congrArg Prod.snd
    (Station.respond_hamburgWeb (Feed.sampleAt latitude).write)
  exact ⟨_, hrun, rfl, works, hweb⟩

/-- A latitude beyond the range of doubles is infinite, and infinity equals itself: the same document
again changes no place. -/
theorem storeFeed_again_infinite :
    ∃ feed t, (storeFeed Station.hamburgUrl none).runAt (.visiting "-1e400") = (.ok feed, t) ∧
      ((storeFeed Station.hamburgUrl none).runAt t).2.store.places = t.store.places := by
  have hread : (Feed.ofDocument (Feed.sampleAt "-1e400") none).map Feed.geoid =
      .ok "geonames_2911298" := by decide +kernel
  obtain ⟨feed, hfeed, -⟩ := map_eq_ok hread
  obtain ⟨t, hrun, -, -, hweb⟩ := runAt_storeFeed_visiting hfeed
  have hfirst := congrArg Prod.fst
    (Station.respond_hamburgWeb (Feed.sampleAt "-1e400").write)
  have hsecond : (t.web.respond Station.hamburgUrl).1 = .ok (Feed.sampleAt "-1e400").write := by
    rw [hweb]
    exact hfirst
  obtain ⟨d, _, _, htext, -, -, -, -, hkept, -⟩ :=
    storeFeed_again (Station.reached_visiting _) hfirst hrun rfl hsecond none
  cases (Feed.ofText?_sampleAt "-1e400").symm.trans htext
  exact ⟨feed, t, hrun, hkept (by decide)⟩

/-- A latitude that is no number differs from itself: the same document again asks for an update, and
a place that was `added` becomes `modified`. -/
theorem storeFeed_again_notANumber :
    (Station.visiting "nan").store.Reached ∧
    ∃ feed t record u,
      (storeFeed Station.hamburgUrl none).runAt (.visiting "nan") = (.ok feed, t) ∧
      t.store.place? feed.place.geoid = some record ∧ record.status = .added ∧
      Place.reconcile (some record) feed.place ≠ .unchanged ∧
      (storeFeed Station.hamburgUrl none).runAt t = (.ok feed, u) ∧
      u.store.place? feed.place.geoid = some { record with status := .modified } := by
  refine ⟨Station.reached_visiting _, ?_⟩
  let place : Place :=
    ⟨"geonames_2911298", Float.nan, 10.01534, "Germany", "Hamburg", "Hamburg/Hamburg", .added⟩
  have hread : (Feed.ofDocument (Feed.sampleAt "nan") none).map Feed.place = .ok place := by
    decide +kernel
  have hreconcile : Place.reconcile (some place) place =
      .update { place with status := .modified } [.latitude] := by decide +kernel
  obtain ⟨feed, hfeed, hplace⟩ := map_eq_ok hread
  obtain ⟨t, hrun, hstore, works, hweb⟩ := runAt_storeFeed_visiting hfeed
  have hrecord : t.store.place? feed.place.geoid = some place := by
    have hnew : (Store.scanning.reconciled feed.place).place? feed.place.geoid = _ :=
      Store.place?_reconciled_of_none rfl
    rw [hstore]
    refine hnew.trans ?_
    rw [hplace]
  have hreceived : t.received Station.hamburgUrl none = .ok feed := by
    have hresponse : (t.web.respond Station.hamburgUrl).1 = .ok (Feed.sampleAt "nan").write := by
      rw [hweb, Station.respond_hamburgWeb]
    rw [Station.received_of_response hresponse, Feed.read, Feed.ofText?_sampleAt]
    exact hfeed
  obtain ⟨n, hagain⟩ := ends_storeFeed works hreceived t.calls
  refine ⟨feed, t, place, _, hrun, hrecord, rfl, ?_, hagain, ?_⟩
  · rw [hplace, hreconcile]
    intro hunchanged
    cases hunchanged
  · show (t.store.reconciled feed.place).place? feed.place.geoid = _
    unfold Store.reconciled
    rw [hrecord, hplace, hreconcile]
    show (t.store.putPlace { place with status := .modified }).place? place.geoid = _
    rw [Store.place?_putPlace, if_pos rfl]

end Action

end PlaceWeather
