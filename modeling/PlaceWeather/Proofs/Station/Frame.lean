import PlaceWeather.Proofs.Forecast.Selection
import PlaceWeather.Proofs.Place.Keyed
import PlaceWeather.Proofs.Station.Freshness
import PlaceWeather.Proofs.Station.Showing

/-!
# What a refresh may change

A refresh whose download fails writes one record, the schedule of its place, and there only the next
attempt.  One that finds no place writes nothing.  One that stores a feed writes the schedule and
the forecasts of its place and the record of the place that the document itself names.
-/

namespace PlaceWeather

/-- Downloads fail only with transport errors. -/
def Web.Plain (web : Web) : Prop :=
  ∀ url e, (web.respond url).1 = .error e → ∃ detail, e = .transport detail

/-- A due download fails in transport, or gives a text that is no feed. -/
def Station.Fails (s : Station) (url : String) (geoid : Option String) (e : WeatherError) : Prop :=
  (∃ detail, e = .transport detail ∧ (s.web.respond url).1 = .error e) ∨
    ∃ document, (s.web.respond url).1 = .ok document ∧ Feed.read document geoid = .error (.error e)

namespace Station

variable {s : Station} {baseUrl geoid url : String} {now : Instant} {e : WeatherError}

theorem received_of_response {document : String} {geoid : Option String}
    (h : (s.web.respond url).1 = .ok document) :
    s.received url geoid = Feed.read document geoid := by
  unfold received
  rw [h]

theorem received_of_fails {geoid : Option String} (h : s.Fails url geoid e) :
    s.received url geoid = .error (.error e) := by
  rcases h with ⟨_, -, hresponse⟩ | ⟨document, hresponse, hread⟩
  · unfold received
    rw [hresponse]
  · rw [received_of_response hresponse, hread]

theorem fails_of_received {geoid : Option String} (hplain : s.web.Plain)
    (h : s.received url geoid = .error (.error e)) : s.Fails url geoid e := by
  unfold received at h
  split at h
  · rename_i document hresponse
    exact .inr ⟨document, hresponse, h⟩
  · rename_i failure hresponse
    cases h
    obtain ⟨detail, hdetail⟩ := hplain url _ hresponse
    exact .inl ⟨detail, hdetail, hresponse⟩

/-- Both kinds of failure are tried again later. -/
theorem Fails.recoverable {geoid : Option String} (h : s.Fails url geoid e) :
    e.recoverable = true := by
  rcases h with ⟨detail, rfl, -⟩ | ⟨document, -, hread⟩
  · rfl
  · obtain ⟨detail, rfl⟩ := Feed.onlyMalformed_read document geoid e hread
    rfl

theorem not_early_of_due {schedule : Schedule} (hdue : s.dueUrl? baseUrl geoid now = some url)
    (hstored : s.store.schedule? geoid = some schedule) : ¬ now < schedule.nextAttempt := by
  intro hearly
  obtain ⟨hisDue, -⟩ := dueUrl?_eq_some.mp hdue
  rw [hstored, Schedule.isDue, decide_eq_true_iff] at hisDue
  exact Instant.not_le.mpr hearly hisDue

theorem known_of_due (hdue : s.dueUrl? baseUrl geoid now = some url) :
    s.store.place? geoid ≠ none := by
  obtain ⟨-, place, hplace, -⟩ := dueUrl?_eq_some.mp hdue
  simp [hplace]

end Station

namespace RefreshPath

variable {baseUrl geoid url : String} {now : Instant} {s t : Station}
  {outcome : Except Fault Freshness}

/-- The only path of a due check whose download fails recoverably. -/
theorem of_failed {e : WeatherError} (h : RefreshPath baseUrl geoid now s outcome t)
    (hcalendar : outcome ≠ .error .offCalendar) (hdue : s.dueUrl? baseUrl geoid now = some url)
    (hfailed : s.received url (some geoid) = .error (.error e))
    (hrecoverable : e.recoverable = true) :
    ∃ later, ((s.store.schedule? geoid).getD (.unknown now)).backedOff? now = some later ∧
      outcome = .ok ⟨later, false, true, some (Action.downloadWarning e)⟩ ∧
      t = { s.downloaded url with store := s.store.putSchedule geoid later } := by
  -- A check downloads from one address, so every path speaks of the same download.
  cases h with
  | fresh hstored hearly => exact absurd hearly (Station.not_early_of_due hdue hstored)
  | unknown _ habsent => exact absurd habsent (Station.known_of_due hdue)
  | putOff hdue' hfailed' _ hlater =>
      cases hdue.symm.trans hdue'
      cases hfailed.symm.trans hfailed'
      exact ⟨_, hlater, rfl, rfl⟩
  | refused hdue' hfailed' hfinal =>
      cases hdue.symm.trans hdue'
      cases hfailed.symm.trans hfailed'
      rw [hrecoverable] at hfinal
      cases hfinal
  | current hdue' hreceived | stale hdue' hreceived =>
      cases hdue.symm.trans hdue'
      cases hfailed.symm.trans hreceived
  | offCalendar => exact absurd rfl hcalendar

/-- The two paths of a due check whose download gives a feed. -/
theorem of_received {feed : Feed} (h : RefreshPath baseUrl geoid now s outcome t)
    (hcalendar : outcome ≠ .error .offCalendar) (hdue : s.dueUrl? baseUrl geoid now = some url)
    (hreceived : s.received url (some geoid) = .ok feed) :
    ∃ schedule, outcome = .ok ⟨schedule, true, true, none⟩ ∧
      ((schedule = feed.schedule ∧ t.store = s.store.withFeed feed) ∨
        (feed.schedule.backedOff? now = some schedule ∧
          t.store = (s.store.withFeed feed).putSchedule geoid schedule)) := by
  cases h with
  | fresh hstored hearly => exact absurd hearly (Station.not_early_of_due hdue hstored)
  | unknown _ habsent => exact absurd habsent (Station.known_of_due hdue)
  | putOff hdue' hfailed | refused hdue' hfailed =>
      cases hdue.symm.trans hdue'
      cases hreceived.symm.trans hfailed
  | current hdue' hreceived' =>
      cases hdue.symm.trans hdue'
      cases hreceived.symm.trans hreceived'
      exact ⟨_, rfl, .inl ⟨rfl, rfl⟩⟩
  | stale hdue' hreceived' _ hlater =>
      cases hdue.symm.trans hdue'
      cases hreceived.symm.trans hreceived'
      exact ⟨_, rfl, .inr ⟨hlater, rfl⟩⟩
  | offCalendar => exact absurd rfl hcalendar

/-- Where downloads fail only in transport, a check that finds no place has done nothing. -/
theorem of_unknownPlace {other : String} (h : RefreshPath baseUrl geoid now s outcome t)
    (hplain : s.web.Plain) (hunknown : outcome = .error (.error (.unknownPlace other))) :
    t = s := by
  cases h with
  | unknown => rfl
  | refused _ hfailed hfinal =>
      rw [(Station.fails_of_received hplain hfailed).recoverable] at hfinal
      cases hfinal
  | fresh | putOff | current | stale | offCalendar => cases hunknown

end RefreshPath

/-! ## Frames of stores -/

namespace Store

/-- `t` differs from `s` at most in the schedule of one place. -/
structure DiffersInSchedule (geoid : String) (s t : Store) : Prop where
  places : t.places = s.places
  links : t.links = s.links
  forecasts : t.forecasts = s.forecasts
  schedules : ∀ other, other ≠ geoid → t.schedule? other = s.schedule? other

/-- `t` differs from `s` at most in the schedule and the forecasts of the place `geoid` and in the
record of the place `described`. -/
structure DiffersInFeed (geoid described : String) (s t : Store) : Prop where
  places : ∀ other, other ≠ described → t.place? other = s.place? other
  schedules : ∀ other, other ≠ geoid → t.schedule? other = s.schedule? other
  forecasts : ∀ other, other ≠ geoid → t.forecasts.get? other = s.forecasts.get? other

theorem differsInSchedule_putSchedule (s : Store) (geoid : String) (schedule : Schedule) :
    DiffersInSchedule geoid s (s.putSchedule geoid schedule) where
  places := rfl
  links := rfl
  forecasts := rfl
  schedules other hother := by simp [Ne.symm hother]

theorem Keyed.differsInFeed_withFeed {s : Store} (hkeyed : s.Keyed) (feed : Feed) :
    DiffersInFeed feed.geoid feed.place.geoid s (s.withFeed feed) where
  places other hother := hkeyed.place?_reconciled hother
  schedules other hother := by simp [Ne.symm hother]
  forecasts other hother := by
    rw [forecasts_withFeed, Table.get?_insert, if_neg (Ne.symm hother)]

theorem DiffersInFeed.putSchedule {geoid described : String} {s t : Store}
    (h : DiffersInFeed geoid described s t) (schedule : Schedule) :
    DiffersInFeed geoid described s (t.putSchedule geoid schedule) where
  places := h.places
  schedules other hother := by
    rw [schedule?_putSchedule, if_neg (Ne.symm hother)]
    exact h.schedules other hother
  forecasts := h.forecasts

end Store

/-! ## The three cases -/

namespace Action

variable {baseUrl geoid url : String} {now : Instant} {s : Station}

/-- A refresh whose download fails puts off the schedule of its place. -/
theorem ensureFresh_of_fails {e : WeatherError} (works : s.Reliable)
    (hcalendar : ((ensureFresh baseUrl geoid now).runAt s).1 ≠ .error .offCalendar)
    (hdue : s.dueUrl? baseUrl geoid now = some url) (hfails : s.Fails url (some geoid) e) :
    ∃ later, ((s.store.schedule? geoid).getD (.unknown now)).backedOff? now = some later ∧
      Ends (ensureFresh baseUrl geoid now) s
        (.ok ⟨later, false, true, some (downloadWarning e)⟩)
        { s.downloaded url with store := s.store.putSchedule geoid later } := by
  obtain ⟨outcome, t, hpath, hends⟩ := ensureFresh_path works baseUrl geoid now
  rw [hends.outcome_eq] at hcalendar
  obtain ⟨later, hlater, rfl, rfl⟩ := hpath.of_failed hcalendar hdue
    (Station.received_of_fails hfails) hfails.recoverable
  exact ⟨later, hlater, hends⟩

/-- A refresh that stores a feed stays within the records of the feed. -/
theorem ensureFresh_of_feed {feed : Feed} (works : s.Reliable) (hkeyed : s.store.Keyed)
    (hcalendar : ((ensureFresh baseUrl geoid now).runAt s).1 ≠ .error .offCalendar)
    (hdue : s.dueUrl? baseUrl geoid now = some url)
    (hreceived : s.received url (some geoid) = .ok feed) :
    ∃ schedule t, Ends (ensureFresh baseUrl geoid now) s (.ok ⟨schedule, true, true, none⟩) t ∧
      Store.DiffersInFeed geoid feed.place.geoid s.store t.store := by
  obtain ⟨outcome, t, hpath, hends⟩ := ensureFresh_path works baseUrl geoid now
  rw [hends.outcome_eq] at hcalendar
  obtain ⟨schedule, rfl, hstore⟩ := hpath.of_received hcalendar hdue hreceived
  have hframe := hkeyed.differsInFeed_withFeed feed
  rw [(Station.wellRead_of_received hreceived).geoid_eq, Option.getD_some] at hframe
  refine ⟨schedule, t, hends, ?_⟩
  rcases hstore with ⟨-, hstore⟩ | ⟨-, hstore⟩
  · rw [hstore]
    exact hframe
  · rw [hstore]
    exact hframe.putSchedule schedule

/-- A refresh of a place that the store does not know does nothing. -/
theorem ensureFresh_of_unknownPlace {other : String} (works : s.Reliable) (hplain : s.web.Plain)
    (hunknown : ((ensureFresh baseUrl geoid now).runAt s).1 =
      .error (.error (.unknownPlace other))) :
    ∃ n, ((ensureFresh baseUrl geoid now).runAt s).2 = { s with calls := n } := by
  obtain ⟨t, hpath, n, hn⟩ := ensureFresh_run works baseUrl geoid now
  rw [hpath.of_unknownPlace hplain hunknown] at hn
  exact ⟨n, hn⟩

/-- What a refresh may change, in a keyed store that does not fail and with a web that fails only in
transport, while no date leaves the calendar.

If the due download fails or gives no feed, only the schedule of the place differs, and it, or its
placeholder, only in its next attempt.  The weather asked for in this call, or later before that
attempt, shows the days selected from the entries that were stored before and have not ended.

If the place is unknown, nothing is downloaded and nothing changes.

If a feed is stored, only the schedule and the forecasts of the place and the record of the place
that the document names differ. -/
theorem ensureFresh_frame (works : s.Reliable) (hkeyed : s.store.Keyed) (hplain : s.web.Plain)
    (hcalendar : ((ensureFresh baseUrl geoid now).runAt s).1 ≠ .error .offCalendar) :
    (∀ url e, s.dueUrl? baseUrl geoid now = some url → s.Fails url (some geoid) e →
      ∃ later t, (ensureFresh baseUrl geoid now).runAt s =
          (.ok ⟨later, false, true, some (downloadWarning e)⟩, t) ∧
        Store.DiffersInSchedule geoid s.store t.store ∧
        t.store.schedule? geoid = some later ∧
        later = { (s.store.schedule? geoid).getD (.unknown now) with
          nextAttempt := later.nextAttempt } ∧
        (∀ days detailed, ((weather baseUrl geoid days detailed now).runAt s).1 =
          (s.store.shownDays geoid later.utcOffset days detailed now).map
            (⟨geoid, later.utcOffset, ·, false, some (downloadWarning e)⟩)) ∧
        ∀ soon days detailed, soon < later.nextAttempt →
          ((weather baseUrl geoid days detailed soon).runAt t).1 =
            (s.store.shownDays geoid later.utcOffset days detailed soon).map
              (⟨geoid, later.utcOffset, ·, true, none⟩)) ∧
    (∀ other t, (ensureFresh baseUrl geoid now).runAt s =
        (.error (.error (.unknownPlace other)), t) →
      t.store = s.store ∧ t.downloads = s.downloads ∧ t.web = s.web) ∧
    ∀ url document feed, s.dueUrl? baseUrl geoid now = some url →
      (s.web.respond url).1 = .ok document → Feed.read document (some geoid) = .ok feed →
      ∃ schedule t, (ensureFresh baseUrl geoid now).runAt s =
          (.ok ⟨schedule, true, true, none⟩, t) ∧
        Store.DiffersInFeed geoid feed.place.geoid s.store t.store := by
  refine ⟨?_, ?_, ?_⟩
  · -- A failed download: the weather of this call and of a later one read the same entries.
    intro url e hdue hfails
    obtain ⟨later, hlater, hends⟩ := ensureFresh_of_fails works hcalendar hdue hfails
    obtain ⟨n, hn⟩ := hends.station_eq
    have hstored : (s.store.putSchedule geoid later).schedule? geoid = some later := by simp
    refine ⟨later, _, Prod.ext hends.outcome_eq hn,
      Store.differsInSchedule_putSchedule s.store geoid later, hstored,
      (Schedule.backedOff?_eq_some hlater).2, ?_, ?_⟩
    · intro days detailed
      exact (hends.weather works days detailed).outcome_eq
    · intro soon days detailed hsoon
      have hfresh := ends_ensureFresh_fresh (s := { s.downloaded url with
        store := s.store.putSchedule geoid later, calls := n }) works baseUrl hstored hsoon
      exact (hfresh.weather works days detailed).outcome_eq
  · -- An unknown place: the path is the one that stops before the download.
    intro other t hrun
    have hunknown : ((ensureFresh baseUrl geoid now).runAt s).1 =
        .error (.error (.unknownPlace other)) := by rw [hrun]
    obtain ⟨n, hn⟩ := ensureFresh_of_unknownPlace works hplain hunknown
    rw [hrun] at hn
    obtain rfl : t = { s with calls := n } := hn
    exact ⟨rfl, rfl, rfl⟩
  · -- A stored feed, whose next update may lie ahead or not.
    intro url document feed hdue hresponse hread
    have hreceived : s.received url (some geoid) = .ok feed := by
      rw [Station.received_of_response hresponse, hread]
    obtain ⟨schedule, t, hends, hframe⟩ :=
      ensureFresh_of_feed works hkeyed hcalendar hdue hreceived
    obtain ⟨n, hn⟩ := hends.station_eq
    exact ⟨schedule, _, Prod.ext hends.outcome_eq hn, hframe⟩

end Action

/-! ## A station with a stored forecast -/

namespace Station

/-- The forecast of the first quarter of the first day of 1970. -/
def firstQuarter : ForecastEntry where
  geoid := "g"
  start := .midnight default
  finish := .ofSecond default (6 * 3600) (by decide)
  period := "0"
  symbol := "01n"
  precipitation := 0
  windDirection := 0
  windSpeed := 0
  temperature := 7
  pressure := 1013

/-- The remote station, with the forecast of that quarter stored for its place. -/
def stocked : Station := start (remote.store.putEntries "g" [firstQuarter]) .empty

end Station

namespace Action

/-- A check without a response writes the schedule of its place only, and warns about the missing
address.  The weather asked for then, or in a second call at the same time, shows the quarter that
was stored. -/
theorem ensureFresh_frame_remote :
    ∃ later t, (ensureFresh "b" "g" .epoch).runAt .stocked =
        (.ok ⟨later, false, true, some "Download of forecast failed: Transport error: no route"⟩,
          t) ∧
      Store.DiffersInSchedule "g" Station.stocked.store t.store ∧
      t.store.schedule? "g" = some later ∧
      ∃ shown again, ((weather "b" "g" 1 false .epoch).runAt .stocked).1 = .ok shown ∧
        shown.succeeded = false ∧
        ((weather "b" "g" 1 false .epoch).runAt t).1 = .ok again ∧ again.days = shown.days ∧
        ∃ slot, shown.days.slot? default "00:00-06:00" = some slot ∧
          slot.Shows Station.firstQuarter := by
  have works : Station.stocked.Reliable := Station.reliable_start _ _
  have hkeyed : Station.stocked.store.Keyed := Store.keyed_scanning.putPlace _
  have hplain : Station.stocked.web.Plain := by
    intro url e hresponse
    cases hresponse
    exact ⟨_, rfl⟩
  have hcalendar : ((ensureFresh "b" "g" .epoch).runAt .stocked).1 ≠ .error .offCalendar := by
    decide +kernel
  have hdue : Station.stocked.dueUrl? "b" "g" .epoch = some "b/C/L/forecast.xml" := by
    decide +kernel
  have hframe := (ensureFresh_frame works hkeyed hplain hcalendar).1
  obtain ⟨later, t, hrun, hschedule, hstored, hlater, hnow, hsoon⟩ :=
    hframe _ (.transport "no route") hdue (.inl ⟨_, rfl, rfl⟩)
  -- The placeholder knows no offset, so local time is the time of the clock.
  have hoffset : later.utcOffset = 0 := congrArg Schedule.utcOffset hlater
  have hahead : Instant.epoch < later.nextAttempt := by
    have hrung : ((ensureFresh "b" "g" .epoch).runAt .stocked).1.toOption.all
        (fun fresh => decide (Instant.epoch < fresh.schedule.nextAttempt)) = true := by
      decide +kernel
    rw [hrun] at hrung
    exact of_decide_eq_true hrung
  have hdays : Station.stocked.store.shownDays "g" later.utcOffset 1 false .epoch =
      .ok (DailyForecasts.select [Station.firstQuarter] 1 false) := by
    rw [hoffset]
    rfl
  have hslot : (DailyForecasts.select [Station.firstQuarter] 1 false).slot? default "00:00-06:00" =
      some Station.firstQuarter.slot := by
    decide +kernel
  have hnow := hnow 1 false
  have hsoon := hsoon .epoch 1 false hahead
  rw [hdays] at hnow hsoon
  exact ⟨later, t, hrun, hschedule, hstored, _, _, hnow, rfl, hsoon, rfl, _, hslot,
    Station.firstQuarter.shows_slot⟩

end Action

end PlaceWeather
