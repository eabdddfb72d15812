import PlaceWeather.Proofs.Station.Sweep
import PlaceWeather.Station.Weather

/-!
# Showing the weather

The weather of a place is the answer of its freshness check together with the days selected from
the entries that the store then holds and that have not ended (`Store.shownDays`), and a report is
rendered from it; nothing is written after the check.  So what a call for the weather or a report
does to a station is what its check does (`Refreshes`).
-/

namespace PlaceWeather

namespace Store

/-- The entries that a store holds for a place, in the order of their set; none without a set. -/
def heldEntries (store : Store) (geoid : String) : List ForecastEntry :=
  match store.forecasts.get? geoid with
  | some set => set.entries.map Prod.snd
  | none => []

/-- What is listed from a time on is what is held for the place and has not ended before. -/
theorem entriesFrom_eq_filter (store : Store) (geoid : String) (time : LocalTime) :
    store.entriesFrom geoid time =
      (store.heldEntries geoid).filter fun e => decide (time ≤ e.finish) := by
  rw [entriesFrom, heldEntries]
  cases store.forecasts.get? geoid with
  | none => rfl
  | some set => rfl

/-- The days shown of the entries that a store holds for a place and that have not ended before its
local time. -/
def shownDays (store : Store) (geoid : String) (utcOffset : Int) (days : Nat) (detailed : Bool)
    (now : Instant) : Except Fault DailyForecasts :=
  (Fault.onCalendar (now.toLocal? utcOffset)).map fun time =>
    DailyForecasts.select ((store.heldEntries geoid).filter fun e => decide (time ≤ e.finish))
      days detailed

end Store

/-- The weather that goes with the answer of a freshness check. -/
def Freshness.weather (fresh : Freshness) (geoid : String) (days : DailyForecasts) : Weather where
  geoid := geoid
  utcOffset := fresh.schedule.utcOffset
  days := days
  succeeded := fresh.succeeded
  warning := fresh.warning

namespace Action

variable {s t : Station} {baseUrl geoid : String} {now : Instant}

theorem Ends.weather {fresh : Freshness} (h : Ends (ensureFresh baseUrl geoid now) s (.ok fresh) t)
    (works : t.Reliable) (days : Nat) (detailed : Bool) :
    Ends (Action.weather baseUrl geoid days detailed now) s
      ((t.store.shownDays geoid fresh.schedule.utcOffset days detailed now).map
        (fresh.weather geoid)) t := by
  refine h.bind ?_
  unfold Store.shownDays
  cases hlocal : now.toLocal? fresh.schedule.utcOffset with
  | none =>
      -- Local time has left the calendar, and no entries are asked for.
      exact Ends.bind_error (ends_ofExcept rfl t)
  | some time =>
      have hentries := ends_getEntries works geoid time
      rw [Store.entriesFrom_eq_filter] at hentries
      refine Ends.bind (a := time) (ends_ofExcept rfl t) ?_
      exact hentries.bind (ends_pure _ t)

theorem Ends.weather_error {e : Fault} (h : Ends (ensureFresh baseUrl geoid now) s (.error e) t)
    (days : Nat) (detailed : Bool) :
    Ends (Action.weather baseUrl geoid days detailed now) s (.error e) t :=
  h.bind_error

theorem Ends.report {p : Presenter} {weather : Weather} {days : Nat} {detailed : Bool}
    (h : Ends (Action.weather p.baseUrl geoid days detailed now) s (.ok weather) t)
    (works : t.Reliable) :
    Ends (Action.report p geoid days detailed now) s
      (t.store.knownPlace geoid >>= fun place =>
        p.render place weather.days weather.utcOffset weather.warning) t := by
  have hplace := ends_requirePlace works geoid
  refine h.bind ?_
  cases hknown : t.store.knownPlace geoid with
  | error e =>
      rw [hknown] at hplace
      exact hplace.bind_error
  | ok place =>
      rw [hknown] at hplace
      exact hplace.bind (ends_ofExcept rfl t)

theorem Ends.report_error {p : Presenter} {e : Fault} {days : Nat} {detailed : Bool}
    (h : Ends (Action.weather p.baseUrl geoid days detailed now) s (.error e) t) :
    Ends (Action.report p geoid days detailed now) s (.error e) t :=
  h.bind_error

/-! ## What calls do to a station -/

/-- What the action does to `s` is what one path of a check does that stays in the calendar. -/
def Refreshes {α : Type} (x : Action α) (baseUrl geoid : String) (now : Instant) (s : Station) :
    Prop :=
  ∃ outcome t n, RefreshPath baseUrl geoid now s outcome t ∧ outcome ≠ .error .offCalendar ∧
    (x.runAt s).2 = { t with calls := n }

theorem refreshes_ensureFresh (works : s.Reliable)
    (hcalendar : ((ensureFresh baseUrl geoid now).runAt s).1 ≠ .error .offCalendar) :
    Refreshes (ensureFresh baseUrl geoid now) baseUrl geoid now s := by
  obtain ⟨t, hpath, n, hn⟩ := ensureFresh_run works baseUrl geoid now
  exact ⟨_, t, n, hpath, hcalendar, hn⟩

/-- A call that ends where its check ended, and off the calendar if the check did. -/
theorem refreshes_of_ends {α : Type} {x : Action α} {answer : Except Fault α}
    {outcome : Except Fault Freshness} (hpath : RefreshPath baseUrl geoid now s outcome t)
    (hends : Ends x s answer t)
    (herror : outcome = .error .offCalendar → answer = .error .offCalendar)
    (hcalendar : (x.runAt s).1 ≠ .error .offCalendar) : Refreshes x baseUrl geoid now s := by
  rw [hends.outcome_eq] at hcalendar
  obtain ⟨n, hn⟩ := hends.station_eq
  exact ⟨outcome, t, n, hpath, fun h => hcalendar (herror h), hn⟩

theorem refreshes_weather (works : s.Reliable) (days : Nat) (detailed : Bool)
    (hcalendar : ((weather baseUrl geoid days detailed now).runAt s).1 ≠ .error .offCalendar) :
    Refreshes (weather baseUrl geoid days detailed now) baseUrl geoid now s := by
  obtain ⟨outcome, t, hpath, hends⟩ := ensureFresh_path works baseUrl geoid now
  cases outcome with
  | error e =>
      refine refreshes_of_ends hpath (hends.weather_error days detailed) ?_ hcalendar
      intro h
      cases h
      rfl
  | ok fresh =>
      have hworks := hpath.reliable (by simp) works
      exact refreshes_of_ends hpath (hends.weather hworks days detailed) (by simp) hcalendar

theorem refreshes_report {p : Presenter} (works : s.Reliable) (days : Nat) (detailed : Bool)
    (hcalendar : ((report p geoid days detailed now).runAt s).1 ≠ .error .offCalendar) :
    Refreshes (report p geoid days detailed now) p.baseUrl geoid now s := by
  obtain ⟨outcome, t, hpath, hends⟩ := ensureFresh_path works p.baseUrl geoid now
  cases outcome with
  | error e =>
      have hweather := hends.weather_error days detailed
      refine refreshes_of_ends hpath hweather.report_error ?_ hcalendar
      intro h
      cases h
      rfl
  | ok fresh =>
      have hworks := hpath.reliable (by simp) works
      -- The check has answered; what is shown may fail, but the station stays.
      have hweather := hends.weather hworks days detailed
      generalize (t.store.shownDays geoid fresh.schedule.utcOffset days detailed now).map
        (fresh.weather geoid) = shown at hweather
      cases shown with
      | error e => exact refreshes_of_ends hpath hweather.report_error (by simp) hcalendar
      | ok weather => exact refreshes_of_ends hpath (hweather.report hworks) (by simp) hcalendar

end Action

end PlaceWeather
