import PlaceWeather.Proofs.Feed.OffCalendar
import PlaceWeather.Proofs.Forecast.LastPerStart
import PlaceWeather.Proofs.Place.Reconciled
import PlaceWeather.Proofs.Station.Frame

/-!
# Checks and any document

Whatever a due check of a known place downloads, it stores a feed or puts off the schedule and
warns, unless a date leaves the calendar (`ensureFresh_answers`).  A date leaves it when the document
does, or when the schedule cannot be put off (`ensureFresh_offCalendar_iff`); the latter takes a
clock in the last day of the calendar, or a stored schedule that was due before its next update
(`Station.not_retryLeaves`).  A document with an update at the end of the calendar brings the check
down (`ensureFresh_of_document_lastSecond`).
-/

namespace PlaceWeather

/-- A check has stored a feed: it answers and leaves the schedule of the feed, or that schedule put
off, with the next attempt ahead, and it leaves the entries of the feed. -/
structure Freshness.Stores (fresh : Freshness) (geoid : String) (now : Instant) (feed : Feed)
    (store : Store) : Prop where
  succeeded : fresh.succeeded = true
  attempted : fresh.attempted = true
  warning : fresh.warning = none
  schedule : store.schedule? geoid = some fresh.schedule
  updates : feed.schedule.SameUpdates fresh.schedule
  ahead : now < fresh.schedule.nextAttempt
  forecasts : ∃ set, store.forecasts.get? geoid = some set ∧ LastPerStart feed.entries set.values

namespace Station

/-- How a check at `s` that answers has dealt with a document. -/
inductive Handled (s : Station) (geoid : String) (now : Instant) (document : String)
    (fresh : Freshness) (t : Station) : Prop
  /-- The document is a feed and has been stored, with a place for it. -/
  | stored {feed : Feed} (read : Feed.read document (some geoid) = .ok feed)
      (stores : fresh.Stores geoid now feed t.store)
      (place : s.store.Keyed →
        ∃ place, t.store.place? feed.place.geoid = some place ∧ place.Described feed.place)
  /-- The document is malformed, and all that was done is to put the schedule off. -/
  | putOff {detail : String} {later : Schedule}
      (read : Feed.read document (some geoid) = .error (.error (.malformed detail)))
      (backedOff : ((s.store.schedule? geoid).getD (.unknown now)).backedOff? now = some later)
      (ahead : now < later.nextAttempt)
      (answer : fresh = ⟨later, false, true, some (Action.downloadWarning (.malformed detail))⟩)
      (left : t.store = s.store.putSchedule geoid later)

/-- The schedule that a check puts off after a document: that of a feed whose next update has
passed, or the stored one, or its placeholder, after a document that is no feed. -/
def putsOff? (s : Station) (geoid : String) (now : Instant) (document : String) : Option Schedule :=
  match Feed.read document (some geoid) with
  | .ok feed => if feed.schedule.nextUpdate ≤ now then some feed.schedule else none
  | .error (.error _) => some ((s.store.schedule? geoid).getD (.unknown now))
  | .error .offCalendar => none

/-- The schedule that a check puts off after a document has no next attempt on the calendar. -/
def RetryLeaves (s : Station) (geoid : String) (now : Instant) (document : String) : Prop :=
  ∃ schedule, s.putsOff? geoid now document = some schedule ∧ schedule.backedOff? now = none

end Station

namespace RefreshPath

variable {baseUrl geoid url : String} {now : Instant} {s t : Station} {fresh : Freshness}

/-- A check that answers after it received a feed has stored it. -/
theorem stores {feed : Feed} (h : RefreshPath baseUrl geoid now s (.ok fresh) t)
    (hdue : s.dueUrl? baseUrl geoid now = some url)
    (hreceived : s.received url (some geoid) = .ok feed) :
    fresh.Stores geoid now feed t.store ∧ (s.store.Keyed →
      ∃ place, t.store.place? feed.place.geoid = some place ∧ place.Described feed.place) := by
  have hahead := h.leavesAhead
  obtain ⟨schedule, hanswer, hstore⟩ := h.of_received (by simp) hdue hreceived
  cases hanswer
  have hgeoid : feed.geoid = geoid := (Station.wellRead_of_received hreceived).geoid_eq
  have hforecasts : (s.store.withFeed feed).forecasts.get? geoid =
      some (ForecastSet.ofEntries feed.entries) := by
    rw [Store.forecasts_withFeed, Table.get?_insert, if_pos hgeoid]
  have hentries := ForecastSet.lastPerStart_ofEntries feed.entries
  -- Putting the schedule off touches neither entries nor places.
  rcases hstore with ⟨rfl, hstore⟩ | ⟨hlater, hstore⟩
  · refine ⟨⟨rfl, rfl, rfl, hahead.stored, .refl feed.schedule, hahead.ahead, _, ?_, hentries⟩,
      fun hkeyed => ?_⟩
    · rw [hstore]
      exact hforecasts
    · rw [hstore]
      exact hkeyed.withFeed_self feed
  · have hupdates := Schedule.sameUpdates_of_backedOff? hlater
    refine ⟨⟨rfl, rfl, rfl, hahead.stored, hupdates, hahead.ahead, _, ?_, hentries⟩,
      fun hkeyed => ?_⟩
    · rw [hstore]
      exact hforecasts
    · rw [hstore, Store.place?_putSchedule]
      exact hkeyed.withFeed_self feed

end RefreshPath

/-! ## When the retry leaves the calendar -/

/-- With a day of the calendar left, a check can put off any schedule, as long as the stored one was
not due before its next update. -/
theorem Station.not_retryLeaves {s : Station} {geoid document : String} {now : Instant}
    (hday : (now.addSeconds? 86400).isSome)
    (hordered : ∀ stored, s.store.schedule? geoid = some stored →
      stored.nextUpdate ≤ stored.nextAttempt)
    (hdue : Schedule.isDue now (s.store.schedule? geoid) = true) :
    ¬ s.RetryLeaves geoid now document := by
  rintro ⟨schedule, hputOff, hnone⟩
  obtain ⟨day, hday⟩ := Option.isSome_iff_exists.mp hday
  rw [Schedule.backedOff?, Option.map_eq_none_iff] at hnone
  refine Schedule.nextAttempt?_ne_none ?_ hday hnone
  -- The next update of what is put off has passed.
  unfold putsOff? at hputOff
  split at hputOff
  · split at hputOff
    · cases hputOff
      assumption
    · cases hputOff
  · cases hputOff
    cases hstored : s.store.schedule? geoid with
    | none => exact Int.le_refl _
    | some stored =>
        rw [hstored, Schedule.isDue, decide_eq_true_iff] at hdue
        exact Int.le_trans (hordered stored hstored) hdue
  · cases hputOff

/-! ## A station with one document -/

namespace Station

/-- A station that knows the place of the sample feed and is served some document for it. -/
def serving (document : String) : Station :=
  start (Store.scanning.putPlace
    ⟨"geonames_2911298", 0, 0, "Germany", "Hamburg", "Hamburg/Hamburg", .original⟩)
    (hamburgWeb document)

theorem dueUrl?_serving (document : String) :
    (serving document).dueUrl? Address.standardBase "geonames_2911298" .epoch =
      some "https://www.yr.no/place/Germany/Hamburg/Hamburg/forecast.xml" := by
  have h : (serving "").dueUrl? Address.standardBase "geonames_2911298" .epoch =
      some "https://www.yr.no/place/Germany/Hamburg/Hamburg/forecast.xml" := by decide +kernel
  exact h

end Station

namespace Action

variable {s : Station} {baseUrl geoid url document : String} {now : Instant}

/-! ## Checks that leave the calendar -/

/-- A check leaves the calendar when its document does, and when it cannot put the schedule off. -/
theorem ensureFresh_offCalendar (works : s.Reliable)
    (hdue : s.dueUrl? baseUrl geoid now = some url)
    (hresponse : (s.web.respond url).1 = .ok document)
    (hleaves : Feed.LeavesCalendar document ∨ s.RetryLeaves geoid now document) :
    ((ensureFresh baseUrl geoid now).runAt s).1 = .error .offCalendar := by
  have hreceived : s.received url (some geoid) = Feed.read document (some geoid) :=
    Station.received_of_response hresponse
  have hworks : ∀ store, { s.downloaded url with store }.Reliable := fun _ => works
  suffices hends : ∃ t, Ends (either (storeFeed url (some geoid))
      (absorb geoid ((s.store.schedule? geoid).getD (.unknown now)) now)
      (settle geoid · now)) s (.error .offCalendar) t by
    obtain ⟨t, hends⟩ := hends
    exact (ends_ensureFresh_due works hdue hends).outcome_eq
  rcases hleaves with hleaves | ⟨schedule, hputsOff, hnone⟩
  · rw [Feed.read_offCalendar_iff.mpr hleaves] at hreceived
    exact ⟨_, (ends_storeFeed_error hreceived).either_offCalendar⟩
  · unfold Station.putsOff? at hputsOff
    split at hputsOff
    · rename_i feed hread
      split at hputsOff
      · rename_i hpassed
        cases hputsOff
        have hsettle := ends_settle_offCalendar (hworks (s.store.withFeed feed)) geoid (by simp)
          hpassed hnone
        exact ⟨_, (ends_storeFeed works (hreceived.trans hread)).either hsettle⟩
      · cases hputsOff
    · rename_i e hread
      cases hputsOff
      obtain ⟨detail, rfl⟩ := Feed.onlyMalformed_read document (some geoid) e hread
      have habsorb := ends_absorb_offCalendar (s := s.downloaded url) geoid
        (e := .malformed detail) rfl hnone
      exact ⟨_, (ends_storeFeed_error (hreceived.trans hread)).either_error habsorb⟩
    · cases hputsOff

/-! ## Checks that answer -/

/-- A check that leaves the calendar in neither way has stored the feed of its document, or has put
its schedule off and warns of the document. -/
theorem ensureFresh_answers (works : s.Reliable) (hdue : s.dueUrl? baseUrl geoid now = some url)
    (hresponse : (s.web.respond url).1 = .ok document) (hstays : ¬ Feed.LeavesCalendar document)
    (hretry : ¬ s.RetryLeaves geoid now document) :
    ∃ fresh t, (ensureFresh baseUrl geoid now).runAt s = (.ok fresh, t) ∧
      s.Handled geoid now document fresh t := by
  have hreceived : s.received url (some geoid) = Feed.read document (some geoid) :=
    Station.received_of_response hresponse
  have hrun : ∀ {fresh t}, RefreshPath baseUrl geoid now s (.ok fresh) t →
      ∃ n, (ensureFresh baseUrl geoid now).runAt s = (.ok fresh, { t with calls := n }) := by
    intro fresh t hpath
    have hends := ends_of_path works hpath (by simp)
    obtain ⟨n, hn⟩ := hends.station_eq
    exact ⟨n, Prod.ext hends.outcome_eq hn⟩
  have hlater : ∀ schedule, s.putsOff? geoid now document = some schedule →
      ∃ later, schedule.backedOff? now = some later := by
    intro schedule hputsOff
    refine Option.ne_none_iff_exists'.mp fun hnone => ?_
    exact hretry ⟨schedule, hputsOff, hnone⟩
  rcases Feed.read_of_not_leaves hstays (some geoid) with ⟨feed, hread⟩ | ⟨detail, hread⟩
  · have hfeed := hreceived.trans hread
    obtain ⟨fresh, t, hpath⟩ : ∃ fresh t, RefreshPath baseUrl geoid now s (.ok fresh) t := by
      by_cases hpassed : feed.schedule.nextUpdate ≤ now
      · obtain ⟨later, hlater⟩ := hlater feed.schedule (by
          rw [Station.putsOff?, hread]
          exact if_pos hpassed)
        exact ⟨_, _, .stale hdue hfeed hpassed hlater⟩
      · exact ⟨_, _, .current hdue hfeed (Instant.not_le.mp hpassed)⟩
    obtain ⟨n, hn⟩ := hrun hpath
    obtain ⟨hstores, hplace⟩ := hpath.stores hdue hfeed
    exact ⟨fresh, _, hn, .stored hread hstores hplace⟩
  · obtain ⟨later, hlater⟩ := hlater ((s.store.schedule? geoid).getD (.unknown now)) (by
      rw [Station.putsOff?, hread])
    have hpath := RefreshPath.putOff hdue (hreceived.trans hread) rfl hlater
    obtain ⟨n, hn⟩ := hrun hpath
    exact ⟨_, _, hn, .putOff hread hlater hpath.leavesAhead.ahead rfl rfl⟩

/-- The two ways are the only ones in which a check that receives a document leaves the calendar. -/
theorem ensureFresh_offCalendar_iff (works : s.Reliable)
    (hdue : s.dueUrl? baseUrl geoid now = some url)
    (hresponse : (s.web.respond url).1 = .ok document) :
    ((ensureFresh baseUrl geoid now).runAt s).1 = .error .offCalendar ↔
      Feed.LeavesCalendar document ∨ s.RetryLeaves geoid now document := by
  refine ⟨fun hleft => ?_, ensureFresh_offCalendar works hdue hresponse⟩
  by_contra hneither
  obtain ⟨hstays, hretry⟩ := not_or.mp hneither
  obtain ⟨fresh, t, hrun, -⟩ := ensureFresh_answers works hdue hresponse hstays hretry
  rw [hrun] at hleft
  cases hleft

/-- What any document does when it is read, and when a due check of a known place downloads it.

Reading gives a feed, or the document is malformed, unless it leaves the calendar.  A document whose
updates lie well within the calendar does not leave it.

The check gives no answer exactly when the document leaves the calendar or the schedule cannot be
put off.  Otherwise it answers, and has stored the feed, or has put the schedule off and warns.  With
a day of the calendar left, and a stored schedule that was not due before its next update, the
schedule can be put off. -/
theorem ensureFresh_of_document (document : String) :
    (∀ asked, (Feed.read document asked = .error .offCalendar ↔ Feed.LeavesCalendar document) ∧
      (¬ Feed.LeavesCalendar document → (∃ feed, Feed.read document asked = .ok feed) ∨
        ∃ detail, Feed.read document asked = .error (.error (.malformed detail)))) ∧
    ((∀ d, FeedDocument.ofText? document = some d → d.Inner) →
      ¬ Feed.LeavesCalendar document) ∧
    ∀ (s : Station) (baseUrl geoid url : String) (now : Instant), s.Reliable →
      s.dueUrl? baseUrl geoid now = some url → (s.web.respond url).1 = .ok document →
      (((ensureFresh baseUrl geoid now).runAt s).1 = .error .offCalendar ↔
        Feed.LeavesCalendar document ∨ s.RetryLeaves geoid now document) ∧
      (¬ Feed.LeavesCalendar document → ¬ s.RetryLeaves geoid now document →
        ∃ fresh t, (ensureFresh baseUrl geoid now).runAt s = (.ok fresh, t) ∧
          s.Handled geoid now document fresh t) ∧
      ((now.addSeconds? 86400).isSome → (∀ stored, s.store.schedule? geoid = some stored →
        stored.nextUpdate ≤ stored.nextAttempt) → ¬ s.RetryLeaves geoid now document) := by
  refine ⟨fun asked => ⟨Feed.read_offCalendar_iff, fun h => Feed.read_of_not_leaves h asked⟩,
    Feed.not_leaves_of_inner, ?_⟩
  intro s baseUrl geoid url now works hdue hresponse
  refine ⟨ensureFresh_offCalendar_iff works hdue hresponse,
    ensureFresh_answers works hdue hresponse, fun hday hordered => ?_⟩
  exact Station.not_retryLeaves hday hordered (Station.dueUrl?_eq_some.mp hdue).1

/-- The sample feed is handled by the first check of its place. -/
theorem ensureFresh_of_document_sample :
    ∃ fresh t, (ensureFresh Address.standardBase "geonames_2911298" .epoch).runAt
        (.serving (Feed.sample "Hamburg").write) = (.ok fresh, t) ∧
      (Station.serving (Feed.sample "Hamburg").write).Handled "geonames_2911298" .epoch
        (Feed.sample "Hamburg").write fresh t := by
  obtain ⟨-, -, hchecks⟩ := ensureFresh_of_document (Feed.sample "Hamburg").write
  obtain ⟨-, hanswers, hretry⟩ := hchecks (.serving (Feed.sample "Hamburg").write)
    Address.standardBase "geonames_2911298" _ .epoch (Station.reliable_start _ _)
    (Station.dueUrl?_serving _) (Station.response_hamburgWeb _)
  refine hanswers ?_ (hretry (by decide) fun stored hstored => ?_)
  · rintro ⟨d, hd, hleaves⟩
    rw [Feed.ofText?_sample] at hd
    cases hd
    exact (Feed.onCalendar_sample "Hamburg").not_leaves hleaves
  · cases hstored

/-- A document with an update at the end of the calendar is neither a feed nor malformed, and a
check that downloads it gives no answer. -/
theorem ensureFresh_of_document_lastSecond :
    ∃ url, (Station.serving Feed.lastSecondSample.write).dueUrl? Address.standardBase
        "geonames_2911298" .epoch = some url ∧
      ((Station.serving Feed.lastSecondSample.write).web.respond url).1 =
        .ok Feed.lastSecondSample.write ∧
      ¬ ((∃ feed, Feed.read Feed.lastSecondSample.write none = .ok feed) ∨
        ∃ detail, Feed.read Feed.lastSecondSample.write none =
          .error (.error (.malformed detail))) ∧
      ¬ ∃ fresh t, (ensureFresh Address.standardBase "geonames_2911298" .epoch).runAt
        (.serving Feed.lastSecondSample.write) = (.ok fresh, t) := by
  have hleaves := Feed.leavesCalendar_lastSecondSample
  have hread : Feed.read Feed.lastSecondSample.write none = .error .offCalendar :=
    Feed.read_offCalendar_iff.mpr hleaves
  have hrun := ensureFresh_offCalendar (Station.reliable_start _ _)
    (Station.dueUrl?_serving Feed.lastSecondSample.write) (Station.response_hamburgWeb _)
    (.inl hleaves)
  refine ⟨_, Station.dueUrl?_serving _, Station.response_hamburgWeb _, ?_, ?_⟩
  · rintro (⟨feed, hfeed⟩ | ⟨detail, hmalformed⟩)
    · rw [hread] at hfeed
      cases hfeed
    · rw [hread] at hmalformed
      cases hmalformed
  · rintro ⟨fresh, t, hanswer⟩
    have houtcome := congrArg Prod.fst hanswer
    cases hrun.symm.trans houtcome

end Action

end PlaceWeather
