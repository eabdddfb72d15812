import PlaceWeather.Proofs.Forecast.LastPerStart
import PlaceWeather.Proofs.Place.Keyed
import PlaceWeather.Proofs.Session.History
import PlaceWeather.Proofs.Station.AdditionPath
import PlaceWeather.Proofs.Station.Showing

/-!
# Records founded on deliveries

`Founded past store geoid` ties the two records of a place to the deliveries that led to them.  After
a feed was stored they are its entries and its schedule, put off or not; before that there is at
most a placeholder schedule from the first failed refresh.  Each path of a check or an addition
keeps this for every place, with the deliveries it adds (`Station.Grounded`).
-/

namespace PlaceWeather

open Delivery Schedule

/-- All entries stored for a place, in the order of their starts. -/
def Store.forecastsOf (store : Store) (geoid : String) : List ForecastEntry :=
  match store.forecasts.get? geoid with
  | some set => set.values
  | none => []

/-- The records of a place after deliveries. -/
inductive Founded (past : List Delivery) (store : Store) (geoid : String) : Prop
  /-- They come from the last feed that was stored; its schedule may have been put off. -/
  | feed {feed : Feed} {schedule : Schedule} (last : lastFeed? past geoid = some feed)
      (own : ∀ e ∈ feed.entries, e.geoid = geoid)
      (entries : LastPerStart feed.entries (store.forecastsOf geoid))
      (stored : store.schedule? geoid = some schedule) (same : SameUpdates feed.schedule schedule)
      (attempt : schedule.nextAttempt = schedule.nextUpdate ∨
        OnLadder schedule.nextUpdate schedule.nextAttempt)
  /-- No feed was stored, and the first failed refresh left a placeholder. -/
  | placeholder {first next : Instant} (unfed : lastFeed? past geoid = none)
      (failed : firstFailure? past geoid = some first)
      (empty : store.forecasts.get? geoid = none)
      (stored : store.schedule? geoid = some ⟨first, first, next, 0⟩) (attempt : OnLadder first next)
  /-- The place was never refreshed. -/
  | untouched (unfed : lastFeed? past geoid = none) (unfailed : firstFailure? past geoid = none)
      (empty : store.forecasts.get? geoid = none) (unscheduled : store.schedule? geoid = none)

/-! ## Writes -/

namespace Founded

variable {past past' : List Delivery} {s t : Store} {geoid : String} {now : Instant}

/-- Deliveries and writes that concern other places change nothing. -/
theorem congr (h : Founded past s geoid) (hlast : lastFeed? past' geoid = lastFeed? past geoid)
    (hfirst : lastFeed? past geoid = none → firstFailure? past' geoid = firstFailure? past geoid)
    (hforecasts : t.forecasts.get? geoid = s.forecasts.get? geoid)
    (hschedule : t.schedule? geoid = s.schedule? geoid) : Founded past' t geoid := by
  have hentries : t.forecastsOf geoid = s.forecastsOf geoid := by
    unfold Store.forecastsOf
    rw [hforecasts]
  cases h with
  | feed last own entries stored same attempt =>
      exact .feed (hlast.trans last) own (hentries.symm ▸ entries) (hschedule.trans stored) same
        attempt
  | placeholder unfed failed empty stored attempt =>
      exact .placeholder (hlast.trans unfed) ((hfirst unfed).trans failed) (hforecasts.trans empty)
        (hschedule.trans stored) attempt
  | untouched unfed unfailed empty unscheduled =>
      exact .untouched (hlast.trans unfed) ((hfirst unfed).trans unfailed) (hforecasts.trans empty)
        (hschedule.trans unscheduled)

/-- A feed that is stored founds the records of its place and leaves the others. -/
theorem withFeed {feed : Feed} {asked : Option String} (hread : Feed.WellRead feed asked)
    (h : ∀ geoid, Founded past s geoid) (geoid : String) :
    Founded (past ++ [.stored feed]) (s.withFeed feed) geoid := by
  -- The place of the feed owes nothing to what was before; the others keep it.
  by_cases hown : feed.geoid = geoid
  · subst hown
    have hlast : lastFeed? (past ++ [.stored feed]) feed.geoid = some feed := by
      rw [lastFeed?_concat]
      simp [feedFor?]
    have hentries : (s.withFeed feed).forecastsOf feed.geoid =
        (ForecastSet.ofEntries feed.entries).values := by
      simp [Store.forecastsOf, Table.get?_insert]
    refine .feed hlast hread.entries_geoid ?_ (by simp) (.refl _) (.inl hread.nextAttempt_eq)
    rw [hentries]
    exact ForecastSet.lastPerStart_ofEntries feed.entries
  · refine (h geoid).congr ?_ ?_ ?_ ?_
    · rw [lastFeed?_concat]
      simp [feedFor?, hown]
    · intro _
      rw [firstFailure?_concat]
      simp [failureOf?]
    · simp [Table.get?_insert, hown]
    · simp [hown]

/-- A stored schedule that is put off is still founded on the same delivery. -/
theorem putOff {schedule later : Schedule} (h : Founded past s geoid)
    (hstored : s.schedule? geoid = some schedule) (hlater : schedule.backedOff? now = some later) :
    Founded past (s.putSchedule geoid later) geoid := by
  obtain ⟨hnext, heq⟩ := backedOff?_eq_some hlater
  have hsame := sameUpdates_of_backedOff? hlater
  have hladder := onLadder_of_nextAttempt? hnext
  cases h with
  | feed last own entries stored same attempt =>
      cases hstored.symm.trans stored
      refine .feed last own entries (by simp) (same.trans hsame) (.inr ?_)
      rw [hsame.2.1]
      exact hladder
  | @placeholder first next unfed failed empty stored attempt =>
      cases hstored.symm.trans stored
      have hlater : (s.putSchedule geoid later).schedule? geoid =
          some ⟨first, first, later.nextAttempt, 0⟩ := by
        rw [Store.schedule?_putSchedule, if_pos rfl]
        exact congrArg some heq
      exact .placeholder unfed failed empty hlater hladder
  | untouched unfed unfailed empty unscheduled => cases hstored.symm.trans unscheduled

/-- A refresh that fails puts off the schedule of its place; the first one makes a placeholder. -/
theorem fail {later : Schedule} (h : ∀ geoid, Founded past s geoid)
    (hlater : ((s.schedule? geoid).getD (.unknown now)).backedOff? now = some later)
    (other : String) :
    Founded (past ++ [.failed geoid now]) (s.putSchedule geoid later) other := by
  have hlast : lastFeed? (past ++ [.failed geoid now]) other = lastFeed? past other := by
    rw [lastFeed?_concat]
    rfl
  by_cases hother : geoid = other
  · subst hother
    have hfirst : firstFailure? (past ++ [.failed geoid now]) geoid =
        (firstFailure? past geoid).or (some now) := by
      rw [firstFailure?_concat]
      simp [failureOf?]
    -- A place with a schedule has failed or was fed before; without one this is its first failure.
    cases hstored : s.schedule? geoid with
    | some schedule =>
        rw [hstored, Option.getD_some] at hlater
        refine ((h geoid).putOff hstored hlater).congr hlast ?_ rfl rfl
        intro hunfed
        rw [hfirst]
        cases h geoid with
        | feed last => cases hunfed.symm.trans last
        | placeholder _ failed =>
            rw [failed]
            rfl
        | untouched _ _ _ unscheduled => cases hstored.symm.trans unscheduled
    | none =>
        rw [hstored, Option.getD_none] at hlater
        obtain ⟨hnext, heq⟩ := backedOff?_eq_some hlater
        cases h geoid with
        | feed _ _ _ stored => cases hstored.symm.trans stored
        | placeholder _ _ _ stored => cases hstored.symm.trans stored
        | untouched unfed unfailed empty _ =>
            rw [unfailed, Option.none_or] at hfirst
            have hlater : (s.putSchedule geoid later).schedule? geoid =
                some ⟨now, now, later.nextAttempt, 0⟩ := by
              rw [Store.schedule?_putSchedule, if_pos rfl]
              exact congrArg some heq
            exact .placeholder (hlast.trans unfed) hfirst empty hlater
              (onLadder_of_nextAttempt? hnext)
  · refine (h other).congr hlast ?_ rfl (by simp [hother])
    intro _
    rw [firstFailure?_concat]
    simp [failureOf?, hother]

end Founded

/-! ## Paths -/

/-- Every place of the station is founded on the deliveries, and stands under its own identifier in a
store that does not fail. -/
structure Station.Grounded (past : List Delivery) (s : Station) : Prop where
  works : s.Reliable
  keyed : s.store.Keyed
  founded : ∀ geoid, Founded past s.store geoid

section Paths

variable {past : List Delivery} {s t : Station} {baseUrl geoid : String} {now : Instant}

theorem Station.Grounded.of_same (h : s.Grounded past) (works : t.Reliable)
    (keyed : t.store.Keyed) (hforecasts : t.store.forecasts = s.store.forecasts)
    (hschedules : t.store.schedules = s.store.schedules) : t.Grounded past where
  works := works
  keyed := keyed
  founded geoid := by
    refine (h.founded geoid).congr rfl (fun _ => rfl) (by rw [hforecasts]) ?_
    unfold Store.schedule?
    rw [hschedules]

theorem RefreshPath.grounded {outcome : Except Fault Freshness}
    (h : RefreshPath baseUrl geoid now s outcome t) (hcalendar : outcome ≠ .error .offCalendar)
    (hs : s.Grounded past) : t.Grounded (past ++ s.refreshed t geoid now) := by
  have hworks := h.reliable hcalendar hs.works
  have hkeyed := h.keyed hcalendar hs.keyed
  unfold Station.refreshed
  cases h with
  | fresh | unknown =>
      rw [Station.told?_of_no_download rfl, List.append_nil]
      exact hs
  | refused due failed final =>
      rw [Station.told?_of_download rfl, failed]
      simp only [final, Bool.false_eq_true, if_false, List.append_nil]
      exact hs.of_same hworks hkeyed rfl rfl
  | putOff due failed recoverable backedOff =>
      rw [Station.told?_of_download rfl, failed]
      simp only [recoverable, if_true]
      exact ⟨hworks, hkeyed, Founded.fail hs.founded backedOff⟩
  | current due received ahead =>
      rw [Station.told?_of_download rfl, received]
      exact ⟨hworks, hkeyed, Founded.withFeed (Station.wellRead_of_received received) hs.founded⟩
  | @stale url feed later due received passed backedOff =>
      rw [Station.told?_of_download rfl, received]
      -- The feed's own schedule is put off, which is no delivery of its own.
      have hread := Station.wellRead_of_received received
      have hown : feed.geoid = geoid := hread.geoid_eq
      have hfounded := Founded.withFeed hread hs.founded
      refine ⟨hworks, hkeyed, fun other => ?_⟩
      by_cases hother : geoid = other
      · subst hother
        exact (hfounded geoid).putOff (by simp [hown]) backedOff
      · exact (hfounded other).congr rfl (fun _ => rfl) rfl (by simp [hother])
  | offCalendar => exact absurd rfl hcalendar

theorem Action.Refreshes.grounded {α : Type} {x : Action α}
    (h : Refreshes x baseUrl geoid now s) (hs : s.Grounded past) :
    (x.runAt s).2.Grounded (past ++ s.refreshed (x.runAt s).2 geoid now) := by
  obtain ⟨outcome, t, n, hpath, hcalendar, hn⟩ := h
  have ht := hpath.grounded hcalendar hs
  rw [hn]
  exact ⟨ht.works, ht.keyed, ht.founded⟩

theorem AdditionPath.grounded {url : String} {outcome : Except Fault Place}
    (h : AdditionPath url s outcome t) (hs : s.Grounded past) :
    t.Grounded (past ++ s.added t) := by
  unfold Station.added
  cases h with
  | invalid | known =>
      rw [Station.told?_of_no_download rfl, List.append_nil]
      exact hs
  | failed named new failed =>
      rw [Station.told?_of_download rfl, failed]
      simp only [List.append_nil]
      exact hs.of_same hs.works hs.keyed rfl rfl
  | added named new received =>
      rw [Station.told?_of_download rfl, received]
      exact ⟨hs.works, hs.keyed.withFeed _,
        Founded.withFeed (Station.wellRead_of_received received) hs.founded⟩

theorem Action.sweep_grounded {geoids : List String} (hs : s.Grounded past)
    (hcalendar : ((sweep baseUrl now geoids).runAt s).1 ≠ .error .offCalendar) :
    ((sweep baseUrl now geoids).runAt s).2.Grounded (past ++ s.swept baseUrl now geoids) := by
  -- The deliveries of the first check are part of the past of the rest.
  induction geoids generalizing s past with
  | nil =>
      rw [Station.swept, List.append_nil]
      exact hs
  | cons geoid rest ih =>
      obtain ⟨hfirst, hrest, hlast⟩ := runAt_sweep_cons hcalendar
      have hnext := (refreshes_ensureFresh hs.works hfirst).grounded hs
      rw [Station.swept, ← List.append_assoc, hlast]
      exact ih hnext hrest

end Paths

end PlaceWeather
