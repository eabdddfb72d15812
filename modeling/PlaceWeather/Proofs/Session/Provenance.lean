import PlaceWeather.Proofs.Session.Founded

/-!
# Where the records of a session come from

A session that starts with an empty store keeps every place founded on the deliveries of its
history: each step does (`step_grounded`), and so does each run (`run_grounded`).  What that
says about the stored records is spelled out in `records_of_last_feed`.
-/

namespace PlaceWeather

open Delivery Schedule

/-- A step that a user of the station can take: store calls are not made to fail, and schedules and
entries come from downloads only. -/
def Step.Offered : Step → Prop
  | .failStore _ | .putSchedule _ _ | .putEntries _ _ => False
  | _ => True

/-- No place, schedule or forecast is stored. -/
structure Store.Empty (store : Store) : Prop where
  places : store.places = .empty
  schedules : store.schedules = .empty
  forecasts : store.forecasts = .empty

theorem Store.empty_scanning : scanning.Empty := ⟨rfl, rfl, rfl⟩

theorem Store.empty_indexed : indexed.Empty := ⟨rfl, rfl, rfl⟩

theorem Store.Empty.keyed {store : Store} (h : store.Empty) : store.Keyed := by
  intro geoid place hplace
  rw [place?, h.places] at hplace
  cases hplace

namespace Action

variable {s : Station} {past : List Delivery}

/-- A call that writes neither schedules nor forecasts founds nothing new. -/
theorem storeCall_grounded {α : Type} {call : StoreCall} {f : Store → α × Store}
    (hs : s.Grounded past) (hkeyed : (f s.store).2.Keyed)
    (hforecasts : (f s.store).2.forecasts = s.store.forecasts)
    (hschedules : (f s.store).2.schedules = s.store.schedules) :
    ((storeCall call f).runAt s).2.Grounded past := by
  rw [runAt_storeCall (hs.works _ _)]
  exact hs.of_same hs.works hkeyed hforecasts hschedules

theorem seedPlace_grounded (hs : s.Grounded past) (place : Place) :
    ((seedPlace place).runAt s).2.Grounded past := by
  unfold seedPlace
  rw [runAt_bind, runAt_get]
  dsimp only
  split
  · exact storeCall_grounded hs (hs.keyed.putPlace place) rfl rfl
  · exact hs

theorem addPlace_grounded (hs : s.Grounded past) (url : String) :
    ((addPlace url).runAt s).2.Grounded (past ++ s.added ((addPlace url).runAt s).2) := by
  obtain ⟨outcome, t, hpath, hends⟩ := addPlace_path hs.works url
  obtain ⟨n, hn⟩ := hends.station_eq
  have ht := hpath.grounded hs
  rw [hn]
  exact ⟨ht.works, ht.keyed, ht.founded⟩

end Action

namespace Session

variable {s : Session} {past : List Delivery}

@[simp] theorem station_perform {α : Type} (s : Session) (answer : α → Answer)
    (action : Action α) : (s.perform answer action).2.station = (action.runAt s.station).2 := rfl

theorem perform_ne_offCalendar {α : Type} {answer : α → Answer} {action : Action α}
    (h : (s.perform answer action).1 ≠ .error .offCalendar) :
    (action.runAt s.station).1 ≠ .error .offCalendar := by
  intro hoff
  refine h ?_
  unfold perform
  dsimp only
  rw [hoff]
  rfl

/-- Each step founds the records of all places on what it delivers. -/
theorem step_grounded {step : Step} (hoffered : step.Offered) (hs : s.station.Grounded past)
    (hcalendar : (s.step step).1 ≠ .error .offCalendar) :
    (s.step step).2.station.Grounded (past ++ s.deliveries step) := by
  cases step with
  | failStore | putSchedule | putEntries => exact hoffered.elim
  -- The clock and the web
  | setClock | reopenStore =>
      simp only [deliveries, List.append_nil]
      exact hs
  | advanceClock seconds =>
      simp only [deliveries, List.append_nil, Session.step]
      cases s.clock.addSeconds? seconds with
      | some now => exact hs
      | none => exact hs
  | serve responses =>
      simp only [deliveries, List.append_nil]
      exact hs.of_same hs.works hs.keyed rfl rfl
  -- Calls that make no download
  | place | findByLink | schedule | entries =>
      simp only [deliveries, List.append_nil, Session.step, station_perform, Action.getPlace,
        Action.findByLink, Action.getSchedule, Action.getEntries]
      exact Action.storeCall_grounded hs hs.keyed rfl rfl
  | seedPlace place =>
      simp only [deliveries, List.append_nil, Session.step, station_perform]
      exact Action.seedPlace_grounded hs place
  -- Calls that may download
  | addPlace url =>
      simp only [deliveries, Session.step, station_perform]
      exact Action.addPlace_grounded hs url
  | ensureFresh geoid =>
      have hcheck := Action.refreshes_ensureFresh hs.works (perform_ne_offCalendar hcalendar)
      simp only [deliveries, Session.step, station_perform]
      exact hcheck.grounded hs
  | weather geoid days detailed =>
      have hcheck := Action.refreshes_weather hs.works days detailed
        (perform_ne_offCalendar hcalendar)
      simp only [deliveries, Session.step, station_perform]
      exact hcheck.grounded hs
  | report geoid days detailed =>
      have hcheck := Action.refreshes_report hs.works days detailed
        (perform_ne_offCalendar hcalendar)
      simp only [deliveries, Session.step, station_perform]
      exact hcheck.grounded hs
  | refresh geoids =>
      simp only [deliveries, Session.step, station_perform]
      exact Action.sweep_grounded hs (perform_ne_offCalendar hcalendar)

theorem run_grounded {steps : List Step} (hoffered : ∀ step ∈ steps, step.Offered)
    (hs : s.station.Grounded past)
    (hcalendar : ∀ answer ∈ (s.run steps).1, answer ≠ .error .offCalendar) :
    (s.run steps).2.station.Grounded (past ++ s.history steps) := by
  -- The history of the rest begins at the session that the first step leaves.
  induction steps generalizing s past with
  | nil =>
      rw [history, List.append_nil]
      exact hs
  | cons first rest ih =>
      have hfirst := step_grounded (hoffered first List.mem_cons_self) hs
        (hcalendar _ List.mem_cons_self)
      rw [history, ← List.append_assoc]
      exact ih (fun step h => hoffered step (List.mem_cons_of_mem first h)) hfirst
        fun answer h => hcalendar answer (List.mem_cons_of_mem _ h)

/-- A session with an empty store is founded on no delivery. -/
theorem grounded_nil (works : s.station.Reliable) (hempty : s.station.store.Empty) :
    s.station.Grounded [] where
  works := works
  keyed := hempty.keyed
  founded geoid := by
    refine .untouched rfl rfl ?_ ?_
    · rw [hempty.forecasts]
      rfl
    · rw [Store.schedule?, hempty.schedules]
      rfl

/-- In a session that starts with an empty store that does not fail, any steps a user can take, in
which no date leaves the calendar, leave of every place what the last feed stored for it said: its
entries, one for each start, and its schedule, the next attempt possibly one rung of the retry
ladder behind the next update.  Of a place without a stored feed there are no entries, and no
schedule but a placeholder for the first failed refresh. -/
theorem records_of_last_feed {steps : List Step} (works : s.station.Reliable)
    (hempty : s.station.store.Empty) (hoffered : ∀ step ∈ steps, step.Offered)
    (hcalendar : ∀ answer ∈ (s.run steps).1, answer ≠ .error .offCalendar) (geoid : String) :
    (∀ feed, lastFeed? (s.history steps) geoid = some feed →
      LastPerStart feed.entries ((s.run steps).2.station.store.forecastsOf geoid) ∧
        (∀ e ∈ (s.run steps).2.station.store.forecastsOf geoid, e.geoid = geoid) ∧
        ∃ schedule, (s.run steps).2.station.store.schedule? geoid = some schedule ∧
          schedule.lastUpdate = feed.schedule.lastUpdate ∧
          schedule.nextUpdate = feed.schedule.nextUpdate ∧
          schedule.utcOffset = feed.schedule.utcOffset ∧
          (schedule.nextAttempt = schedule.nextUpdate ∨
            OnLadder schedule.nextUpdate schedule.nextAttempt)) ∧
    (lastFeed? (s.history steps) geoid = none →
      (s.run steps).2.station.store.forecasts.get? geoid = none ∧
        (firstFailure? (s.history steps) geoid = none ∧
            (s.run steps).2.station.store.schedule? geoid = none ∨
          ∃ first next, firstFailure? (s.history steps) geoid = some first ∧
            (s.run steps).2.station.store.schedule? geoid = some ⟨first, first, next, 0⟩ ∧
            OnLadder first next)) := by
  have hrun := run_grounded hoffered (grounded_nil works hempty) hcalendar
  rw [List.nil_append] at hrun
  -- The two halves of the statement are the first case and the two others.
  cases hrun.founded geoid with
  | feed last own entries stored same attempt =>
      refine ⟨fun feed hfeed => ?_, fun hnone => ?_⟩
      · cases last.symm.trans hfeed
        exact ⟨entries, fun e he => own e (entries.mem_given he), _, stored, same.1, same.2.1,
          same.2.2, attempt⟩
      · cases last.symm.trans hnone
  | placeholder unfed failed empty stored attempt =>
      refine ⟨fun feed hfeed => ?_, fun _ => ?_⟩
      · cases unfed.symm.trans hfeed
      · exact ⟨empty, .inr ⟨_, _, failed, stored, attempt⟩⟩
  | untouched unfed unfailed empty unscheduled =>
      refine ⟨fun feed hfeed => ?_, fun _ => ?_⟩
      · cases unfed.symm.trans hfeed
      · exact ⟨empty, .inl ⟨unfailed, unscheduled⟩⟩

/-- A feed with one entry. -/
def smallFeed : String :=
  "<w><location><location geobase='g' geobaseid='1'/></location><meta>" ++
    "<lastupdate>2013-10-07T17:30:00</lastupdate><nextupdate>2013-10-08T06:00:00</nextupdate>" ++
    "</meta><forecast><tabular>" ++
    "<time from='2013-10-07T18:00:00' to='2013-10-08T00:00:00' period='3'/>" ++
    "</tabular></forecast></w>"

/-- A session in 1970 whose store is empty. -/
def early : Session := ⟨.epoch, .start .scanning .empty, ⟨.standard, "b", fun _ => false⟩⟩

/-- A place is registered, and its feed is served and asked for. -/
def firstRefresh : List Step :=
  [.seedPlace ⟨"g", 0, 0, "C", "P", "L", .original⟩,
    .serve [("b/C/L/forecast.xml", [.ok smallFeed])], .ensureFresh "g"]

/-- After a first refresh the feed's entries and its schedule are stored. -/
theorem records_of_last_feed_first :
    ∃ feed schedule, lastFeed? (early.history firstRefresh) "g" = some feed ∧
      LastPerStart feed.entries ((early.run firstRefresh).2.station.store.forecastsOf "g") ∧
      (early.run firstRefresh).2.station.store.schedule? "g" = some schedule ∧
      schedule.lastUpdate = feed.schedule.lastUpdate ∧
      schedule.utcOffset = feed.schedule.utcOffset := by
  have hoffered : ∀ step ∈ firstRefresh, step.Offered := by simp [firstRefresh, Step.Offered]
  have hrun : (∀ answer ∈ (early.run firstRefresh).1, answer ≠ .error .offCalendar) ∧
      (lastFeed? (early.history firstRefresh) "g").isSome = true := by decide +kernel
  obtain ⟨feed, hfeed⟩ := Option.isSome_iff_exists.mp hrun.2
  have hrecords := (records_of_last_feed (s := early) (Station.reliable_start _ _)
    Store.empty_scanning hoffered hrun.1 "g").1 feed hfeed
  obtain ⟨hentries, -, schedule, hstored, hlast, -, hoffset, -⟩ := hrecords
  exact ⟨feed, schedule, hfeed, hentries, hstored, hlast, hoffset⟩

end Session

end PlaceWeather
