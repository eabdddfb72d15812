import PlaceWeather.Proofs.Address.Accepted
import PlaceWeather.Proofs.Forecast.LastPerStart
import PlaceWeather.Proofs.Place.Reconciled
import PlaceWeather.Proofs.Station.AdditionPath
import PlaceWeather.Proofs.Station.Frame

/-!
# Adding a place is all or nothing

The identifier of an added place is only known once its document has been read, and the answer is
looked up in the store after three writes.  Still an addition either leaves the store as it is, or
leaves all that the document tells, and nothing else is touched (`addPlace_all_or_nothing`).
-/

namespace PlaceWeather

/-- The store tells of the place of a feed what the feed tells, and has a place for it. -/
structure Store.Tells (store : Store) (place : Place) (feed : Feed) : Prop where
  place : store.place? feed.place.geoid = some place
  schedule : store.schedule? feed.place.geoid = some feed.schedule
  attempt : feed.schedule.nextAttempt = feed.schedule.nextUpdate
  forecasts : ∃ set, store.forecasts.get? feed.place.geoid = some set ∧
    LastPerStart feed.entries set.values

/-- In a keyed store the place of a feed is known once the feed is stored. -/
theorem Store.Keyed.tells_withFeed {store : Store} (hkeyed : store.Keyed) {feed : Feed}
    (hread : Feed.WellRead feed none) :
    ∃ place, (store.withFeed feed).knownPlace feed.geoid = .ok place ∧
      (store.withFeed feed).Tells place feed := by
  have hgeoid : feed.geoid = feed.place.geoid := hread.geoid_eq
  obtain ⟨place, hplace, -⟩ := hkeyed.withFeed_self feed
  refine ⟨place, ?_, hplace, ?_, hread.nextAttempt_eq, ?_⟩
  · unfold Store.knownPlace
    rw [hgeoid, hplace]
  · rw [schedule?_withFeed, if_pos hgeoid]
  · refine ⟨ForecastSet.ofEntries feed.entries, ?_, ForecastSet.lastPerStart_ofEntries _⟩
    rw [forecasts_withFeed, Table.get?_insert, if_pos hgeoid]

namespace AdditionPath

variable {url : String} {s t : Station} {outcome : Except Fault Place}

/-- An addition that fails has written nothing.  It has not downloaded anything either when the
address is to blame, and it never misses the place it has added. -/
theorem of_error {e : WeatherError} (h : AdditionPath url s outcome t) (hkeyed : s.store.Keyed)
    (hplain : s.web.Plain) (herror : outcome = .error (.error e)) :
    t.store = s.store ∧ ((∃ detail, e = .invalid detail) → t.downloads = s.downloads) ∧
      ∀ geoid, e ≠ .unknownPlace geoid := by
  cases h with
  | invalid hnowhere =>
      cases herror
      obtain ⟨detail, rfl⟩ := Address.invalid_of_feedOfPage hnowhere
      exact ⟨rfl, fun _ => rfl, by simp⟩
  | known =>
      cases herror
      exact ⟨rfl, fun _ => rfl, by simp⟩
  | failed _ _ hfailed =>
      cases herror
      -- What a download or a document fails with would be tried again by a refresh.
      have hrecoverable := (Station.fails_of_received hplain hfailed).recoverable
      refine ⟨rfl, ?_, ?_⟩
      · rintro ⟨detail, rfl⟩
        cases hrecoverable
      · rintro geoid rfl
        cases hrecoverable
  | added _ _ hreceived =>
      obtain ⟨place, hplace, -⟩ := hkeyed.tells_withFeed (Station.wellRead_of_received hreceived)
      rw [hplace] at herror
      cases herror

/-- An addition that answers has stored all that the document of the page tells. -/
theorem of_ok {place : Place} (h : AdditionPath url s outcome t) (hkeyed : s.store.Keyed)
    (hok : outcome = .ok place) :
    ∃ feedUrl feed, Address.feedOfPage url = .ok feedUrl ∧ s.received feedUrl none = .ok feed ∧
      t.downloads = s.downloads ++ [feedUrl] ∧ t.store.Tells place feed ∧
      Store.DiffersInFeed feed.place.geoid feed.place.geoid s.store t.store := by
  cases h with
  | invalid | known | failed => cases hok
  | @added feedUrl feed hnamed _ hreceived =>
      have hread := Station.wellRead_of_received hreceived
      obtain ⟨place, hplace, htells⟩ := hkeyed.tells_withFeed hread
      have hframe := hkeyed.differsInFeed_withFeed feed
      have hgeoid : feed.geoid = feed.place.geoid := hread.geoid_eq
      rw [hgeoid] at hframe
      rw [hplace] at hok
      cases hok
      exact ⟨feedUrl, feed, hnamed, hreceived, rfl, htells, hframe⟩

end AdditionPath

theorem Station.response_of_received {s : Station} {url : String} {geoid : Option String}
    {feed : Feed} (h : s.received url geoid = .ok feed) :
    ∃ document, (s.web.respond url).1 = .ok document ∧ Feed.read document geoid = .ok feed := by
  unfold received at h
  split at h
  · rename_i document hresponse
    exact ⟨document, hresponse, h⟩
  · cases h

/-- The web of the sample feed has no other failure than a missing address. -/
theorem Station.plain_sampleWeb (credit : String) : (sampleWeb credit).Plain := by
  intro url e hresponse
  unfold Web.respond at hresponse
  have hserved : (sampleWeb credit).responses.get? url =
      if "https://www.yr.no/place/C/L/forecast.xml" = url then some [.ok (sampleFeed credit)]
      else none :=
    Table.get?_insert _ _ _ _
  by_cases hurl : "https://www.yr.no/place/C/L/forecast.xml" = url
  · rw [hserved, if_pos hurl] at hresponse
    cases hresponse
  · rw [hserved, if_neg hurl] at hresponse
    cases hresponse
    exact ⟨_, rfl⟩

namespace Action

variable {s : Station}

/-- What adding the place of a page does, in a keyed store that does not fail and with a web that
fails only in transport, while no date leaves the calendar.

If it fails, the store is as before.  Nothing was downloaded when the address is refused, and the
failure is never that a place is unknown.

If it answers, one document was downloaded, from the feed of the page.  The answer is the place that
is now stored under the document's own identifier; the schedule stored there is the document's, with
its next update as the next attempt, and the forecasts are the document's entries, the last one for
each start.  The records of all other places are as before. -/
theorem addPlace_all_or_nothing (works : s.Reliable) (hkeyed : s.store.Keyed)
    (hplain : s.web.Plain) (url : String) :
    (∀ e t, (addPlace url).runAt s = (.error (.error e), t) →
      t.store = s.store ∧ ((∃ detail, e = .invalid detail) → t.downloads = s.downloads) ∧
        ∀ geoid, e ≠ .unknownPlace geoid) ∧
    ∀ place t, (addPlace url).runAt s = (.ok place, t) →
      ∃ feedUrl document feed, Address.feedOfPage url = .ok feedUrl ∧
        t.downloads = s.downloads ++ [feedUrl] ∧
        (s.web.respond feedUrl).1 = .ok document ∧ Feed.read document none = .ok feed ∧
        t.store.place? feed.place.geoid = some place ∧
        t.store.schedule? feed.place.geoid = some feed.schedule ∧
        feed.schedule.nextAttempt = feed.schedule.nextUpdate ∧
        (∃ set, t.store.forecasts.get? feed.place.geoid = some set ∧
          LastPerStart feed.entries set.values) ∧
        Store.DiffersInFeed feed.place.geoid feed.place.geoid s.store t.store := by
  obtain ⟨outcome, left, hpath, hends⟩ := addPlace_path works url
  obtain ⟨n, hn⟩ := hends.station_eq
  have houtcome := hends.outcome_eq
  refine ⟨?_, ?_⟩
  · intro e t hrun
    rw [hrun] at hn houtcome
    obtain rfl : t = { left with calls := n } := hn
    exact hpath.of_error hkeyed hplain houtcome.symm
  · intro place t hrun
    rw [hrun] at hn houtcome
    obtain rfl : t = { left with calls := n } := hn
    obtain ⟨feedUrl, feed, hnamed, hreceived, hdownloads, htells, hframe⟩ :=
      hpath.of_ok hkeyed houtcome.symm
    obtain ⟨document, hresponse, hread⟩ := Station.response_of_received hreceived
    exact ⟨feedUrl, document, feed, hnamed, hdownloads, hresponse, hread, htells.place,
      htells.schedule, htells.attempt, htells.forecasts, hframe⟩

/-- A place is added to an empty store with one download, from its feed. -/
theorem addPlace_all_or_nothing_sample :
    ∃ place geoid t, (addPlace "https://www.yr.no/place/C/L/").runAt
        (.start .scanning (Station.sampleWeb "")) = (.ok place, t) ∧
      t.store.place? geoid = some place ∧
      t.downloads = ["https://www.yr.no/place/C/L/forecast.xml"] := by
  have hok : ((addPlace "https://www.yr.no/place/C/L/").runAt
      (.start .scanning (Station.sampleWeb ""))).1.isOk = true := by decide +kernel
  have hkeyed : Store.scanning.Keyed := by
    intro geoid place hplace
    cases hplace
  have hplain : (Station.sampleWeb "").Plain := Station.plain_sampleWeb ""
  have hfeedUrl : Address.feedOfPage "https://www.yr.no/place/C/L/" =
      .ok "https://www.yr.no/place/C/L/forecast.xml" := by decide +kernel
  obtain ⟨-, hadded⟩ := addPlace_all_or_nothing
    (s := .start .scanning (Station.sampleWeb "")) (Station.reliable_start _ _) hkeyed hplain
    "https://www.yr.no/place/C/L/"
  cases hrun : (addPlace "https://www.yr.no/place/C/L/").runAt
      (.start .scanning (Station.sampleWeb "")) with
  | mk outcome t =>
      cases outcome with
      | error e =>
          rw [hrun] at hok
          cases hok
      | ok place =>
          obtain ⟨feedUrl, _, feed, hnamed, hdownloads, -, -, hplace, -⟩ := hadded place t hrun
          cases hnamed.symm.trans hfeedUrl
          exact ⟨place, _, t, rfl, hplace, hdownloads⟩

end Action

end PlaceWeather
