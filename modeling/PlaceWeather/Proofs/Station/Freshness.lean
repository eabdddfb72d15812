import PlaceWeather.Proofs.Station.Sweep

/-!
# A refresh never leaves a place due

Every path of a freshness check that gives an answer ends with the answered schedule in the store
and its next attempt ahead (`RefreshPath.leavesAhead`).  So a place that was checked is not
downloaded again before that attempt, whatever other places are checked in between.
-/

namespace PlaceWeather

/-- What an answered check leaves of its place. -/
structure LeavesAhead (geoid : String) (now : Instant) (fresh : Freshness) (t : Station) :
    Prop where
  stored : t.store.schedule? geoid = some fresh.schedule
  ahead : now < fresh.schedule.nextAttempt

theorem RefreshPath.leavesAhead {baseUrl geoid : String} {now : Instant} {s t : Station}
    {fresh : Freshness} (h : RefreshPath baseUrl geoid now s (.ok fresh) t) :
    LeavesAhead geoid now fresh t := by
  cases h with
  | fresh hstored hearly => exact ⟨hstored, hearly⟩
  | putOff _ _ _ hlater =>
      exact ⟨by simp, Schedule.lt_nextAttempt? (Schedule.backedOff?_eq_some hlater).1⟩
  | current _ hreceived hahead =>
      -- The next attempt of a feed is its next update, which lies ahead.
      have hread := Station.wellRead_of_received hreceived
      refine ⟨by simp [hread.geoid_eq], ?_⟩
      rw [hread.nextAttempt_eq]
      exact hahead
  | stale _ _ _ hlater =>
      exact ⟨by simp, Schedule.lt_nextAttempt? (Schedule.backedOff?_eq_some hlater).1⟩

/-- A check that answers attempts a download exactly when it is due. -/
theorem RefreshPath.attempted_eq {baseUrl geoid : String} {now : Instant} {s t : Station}
    {fresh : Freshness} (h : RefreshPath baseUrl geoid now s (.ok fresh) t) :
    fresh.attempted = Schedule.isDue now (s.store.schedule? geoid) := by
  cases h with
  | fresh hstored hearly =>
      rw [hstored]
      exact (decide_eq_false (Instant.not_le.mpr hearly)).symm
  | putOff hdue | current hdue | stale hdue => exact (Station.dueUrl?_eq_some.mp hdue).1.symm

/-- A check that answers makes one download when it attempts one, and none otherwise. -/
theorem RefreshPath.downloads_eq {baseUrl geoid : String} {now : Instant} {s t : Station}
    {fresh : Freshness} (h : RefreshPath baseUrl geoid now s (.ok fresh) t) :
    if fresh.attempted then ∃ url, t.downloads = s.downloads ++ [url]
    else t.downloads = s.downloads := by
  cases h with
  | fresh => rfl
  | putOff | current | stale => exact ⟨_, rfl⟩

theorem RefreshPath.warning_iff {baseUrl geoid : String} {now : Instant} {s t : Station}
    {fresh : Freshness} (h : RefreshPath baseUrl geoid now s (.ok fresh) t) :
    fresh.succeeded = false ↔ fresh.warning ≠ none := by
  cases h with
  | fresh | putOff | current | stale => simp

namespace Schedule

theorem isDue_iff {now : Instant} {stored : Option Schedule} :
    isDue now stored = true ↔
      stored = none ∨ ∃ schedule, stored = some schedule ∧ schedule.nextAttempt ≤ now := by
  cases stored with
  | none => simp [isDue]
  | some schedule => simp [isDue]

end Schedule

namespace Action

variable {baseUrl geoid : String} {now : Instant} {s t u : Station}

/-- A sweep keeps a schedule whose next attempt lies ahead. -/
theorem sweep_keeps_schedule {geoids : List String} {schedule : Schedule} (works : s.Reliable)
    (hstored : s.store.schedule? geoid = some schedule) (hahead : now < schedule.nextAttempt)
    (hcalendar : ((sweep baseUrl now geoids).runAt s).1 ≠ .error .offCalendar) :
    ((sweep baseUrl now geoids).runAt s).2.Reliable ∧
      ((sweep baseUrl now geoids).runAt s).2.store.schedule? geoid = some schedule := by
  refine sweep_keeps (P := fun s => s.Reliable ∧ s.store.schedule? geoid = some schedule) ?_
    ⟨works, hstored⟩ hcalendar
  rintro other s ⟨works, hstored⟩ hcalendar
  refine ⟨reliable_of_ensureFresh works other hcalendar, ?_⟩
  -- A check of the place itself is early, and one of another place writes another schedule.
  by_cases hother : other = geoid
  · subst hother
    obtain ⟨n, hn⟩ := (ends_ensureFresh_fresh works baseUrl hstored hahead).station_eq
    rw [hn]
    exact hstored
  · obtain ⟨t, hpath, n, ht⟩ := ensureFresh_run works baseUrl other now
    rw [ht]
    exact (hpath.schedule?_eq hcalendar (Ne.symm hother)).trans hstored

/-- A check that answers leaves the answered schedule in the store, with its next attempt ahead.  It
makes one download when it was due and none otherwise, and warns exactly when that failed.  Until
the next attempt, further checks of the place download nothing and change nothing, also after a
sweep over any places, this one included, at any time before that attempt. -/
theorem ensureFresh_leaves_ahead {fresh : Freshness} (works : s.Reliable)
    (h : (ensureFresh baseUrl geoid now).runAt s = (.ok fresh, t)) :
    t.store.schedule? geoid = some fresh.schedule ∧
      now < fresh.schedule.nextAttempt ∧
      (fresh.attempted = true ↔ s.store.schedule? geoid = none ∨
        ∃ stored, s.store.schedule? geoid = some stored ∧ stored.nextAttempt ≤ now) ∧
      (if fresh.attempted then ∃ url, t.downloads = s.downloads ++ [url]
        else t.downloads = s.downloads) ∧
      (fresh.succeeded = false ↔ fresh.warning ≠ none) ∧
      ∀ between geoids outcomes u, between < fresh.schedule.nextAttempt →
        (sweep baseUrl between geoids).runAt t = (.ok outcomes, u) →
        ∀ later, later < fresh.schedule.nextAttempt →
          ∃ v, (ensureFresh baseUrl geoid later).runAt u =
              (.ok ⟨fresh.schedule, true, false, none⟩, v) ∧
            v.store = u.store ∧ v.downloads = u.downloads ∧ v.web = u.web := by
  obtain ⟨left, hpath, n, hleft⟩ := ensureFresh_run works baseUrl geoid now
  rw [h] at hpath hleft
  obtain rfl : t = { left with calls := n } := hleft
  have hahead := hpath.leavesAhead
  have hworks : { left with calls := n }.Reliable := hpath.reliable (by simp) works
  refine ⟨hahead.stored, hahead.ahead, ?_, hpath.downloads_eq, hpath.warning_iff, ?_⟩
  · rw [hpath.attempted_eq]
    exact Schedule.isDue_iff
  · -- After the sweep the schedule is still there, and `later` is before its attempt.
    intro between geoids outcomes u hbetween hsweep later hlater
    have hcalendar : ((sweep baseUrl between geoids).runAt { left with calls := n }).1 ≠
        .error .offCalendar := by
      rw [hsweep]
      simp
    obtain ⟨hworks', hstored⟩ :=
      sweep_keeps_schedule hworks hahead.stored hbetween hcalendar
    rw [hsweep] at hworks' hstored
    have hends := ends_ensureFresh_fresh hworks' baseUrl hstored hlater
    obtain ⟨k, hk⟩ := hends.station_eq
    exact ⟨_, Prod.ext hends.outcome_eq hk, rfl, rfl, rfl⟩

/-- A first check without a response puts the next attempt ahead; a second one at the same time
downloads nothing. -/
theorem ensureFresh_leaves_ahead_remote :
    ∃ fresh t, (ensureFresh "b" "g" .epoch).runAt .remote = (.ok fresh, t) ∧
      t.store.schedule? "g" = some fresh.schedule ∧ Instant.epoch < fresh.schedule.nextAttempt ∧
      fresh.attempted = true ∧
      ∃ u, (ensureFresh "b" "g" .epoch).runAt t = (.ok ⟨fresh.schedule, true, false, none⟩, u) ∧
        u.downloads = t.downloads := by
  have hok : ((ensureFresh "b" "g" .epoch).runAt .remote).1.isOk = true := by decide +kernel
  cases hrun : (ensureFresh "b" "g" .epoch).runAt .remote with
  | mk outcome t =>
      cases outcome with
      | error e =>
          rw [hrun] at hok
          cases hok
      | ok fresh =>
          obtain ⟨hstored, hahead, hattempted, -, -, hagain⟩ :=
            ensureFresh_leaves_ahead (Station.reliable_start _ _) hrun
          obtain ⟨u, hu, -, hdownloads, -⟩ := hagain .epoch [] [] t hahead rfl .epoch hahead
          exact ⟨fresh, t, rfl, hstored, hahead, hattempted.mpr (.inl rfl), u, hu, hdownloads⟩

end Action

end PlaceWeather
