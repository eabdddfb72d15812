import PlaceWeather.Proofs.Station.RefreshPath

/-!
# Sweeps

A sweep runs one freshness check after the other.  What every check keeps, as long as no date leaves
the calendar, a sweep keeps (`sweep_keeps`).
-/

namespace PlaceWeather

/-- A path that stays in the calendar breaks no store. -/
theorem RefreshPath.reliable {baseUrl geoid : String} {now : Instant} {s t : Station}
    {outcome : Except Fault Freshness} (h : RefreshPath baseUrl geoid now s outcome t)
    (hcalendar : outcome ≠ .error .offCalendar) (works : s.Reliable) : t.Reliable := by
  cases h with
  | offCalendar => exact absurd rfl hcalendar
  | fresh | unknown | putOff | refused | current | stale => exact works

/-- A path that stays in the calendar writes the schedule of its own place only. -/
theorem RefreshPath.schedule?_eq {baseUrl geoid other : String} {now : Instant} {s t : Station}
    {outcome : Except Fault Freshness} (h : RefreshPath baseUrl geoid now s outcome t)
    (hcalendar : outcome ≠ .error .offCalendar) (hother : other ≠ geoid) :
    t.store.schedule? other = s.store.schedule? other := by
  have hne := Ne.symm hother
  cases h with
  | offCalendar => exact absurd rfl hcalendar
  | fresh | unknown | refused => rfl
  | putOff => simp [hne]
  | current _ hreceived => simp [(Station.wellRead_of_received hreceived).geoid_eq, hne]
  | stale _ hreceived => simp [(Station.wellRead_of_received hreceived).geoid_eq, hne]

namespace Action

variable {baseUrl : String} {now : Instant}

theorem reliable_of_ensureFresh {s : Station} (works : s.Reliable) (geoid : String)
    (hcalendar : ((ensureFresh baseUrl geoid now).runAt s).1 ≠ .error .offCalendar) :
    ((ensureFresh baseUrl geoid now).runAt s).2.Reliable := by
  obtain ⟨t, hpath, n, ht⟩ := ensureFresh_run works baseUrl geoid now
  rw [ht]
  exact hpath.reliable hcalendar works

/-- A sweep stays in the calendar only if its first check and the sweep of the rest do, and it leaves
the station that the rest leaves. -/
theorem runAt_sweep_cons {geoid : String} {rest : List String} {s : Station}
    (hcalendar : ((sweep baseUrl now (geoid :: rest)).runAt s).1 ≠ .error .offCalendar) :
    ((ensureFresh baseUrl geoid now).runAt s).1 ≠ .error .offCalendar ∧
      ((sweep baseUrl now rest).runAt ((ensureFresh baseUrl geoid now).runAt s).2).1 ≠
        .error .offCalendar ∧
      ((sweep baseUrl now (geoid :: rest)).runAt s).2 =
        ((sweep baseUrl now rest).runAt ((ensureFresh baseUrl geoid now).runAt s).2).2 := by
  have hrest : ∀ outcome t,
      (sweep baseUrl now rest >>= fun later => pure ((geoid, outcome) :: later)).runAt t =
        (((sweep baseUrl now rest).runAt t).1.map ((geoid, outcome) :: ·),
          ((sweep baseUrl now rest).runAt t).2) := by
    intro outcome t
    rw [bind_pure_comp, runAt_map]
  have hmap : ∀ outcome t,
      ((sweep baseUrl now rest).runAt t).1.map ((geoid, outcome) :: ·) ≠ .error .offCalendar →
        ((sweep baseUrl now rest).runAt t).1 ≠ .error .offCalendar := by
    intro outcome t hend h
    exact hend (by rw [h]; rfl)
  -- A failed check is an answer of the sweep; only a fault of the calendar stops it.
  rw [sweep, runAt_bind, runAt_attempt] at hcalendar ⊢
  generalize (ensureFresh baseUrl geoid now).runAt s = first at hcalendar ⊢
  obtain ⟨(e | _) | fresh, t⟩ := first
  · dsimp only at hcalendar ⊢
    rw [hrest] at hcalendar ⊢
    exact ⟨by simp, hmap _ t hcalendar, rfl⟩
  · exact absurd rfl hcalendar
  · dsimp only at hcalendar ⊢
    rw [hrest] at hcalendar ⊢
    exact ⟨by simp, hmap _ t hcalendar, rfl⟩

/-- What each check keeps, a sweep keeps. -/
theorem sweep_keeps {P : Station → Prop} {geoids : List String} {s : Station}
    (hstep : ∀ geoid s, P s → ((ensureFresh baseUrl geoid now).runAt s).1 ≠ .error .offCalendar →
      P ((ensureFresh baseUrl geoid now).runAt s).2)
    (hs : P s) (hcalendar : ((sweep baseUrl now geoids).runAt s).1 ≠ .error .offCalendar) :
    P ((sweep baseUrl now geoids).runAt s).2 := by
  -- The rest of the sweep starts at the station that the first check leaves.
  induction geoids generalizing s with
  | nil => exact hs
  | cons geoid rest ih =>
      obtain ⟨hfirst, hrest, hlast⟩ := runAt_sweep_cons hcalendar
      rw [hlast]
      exact ih (hstep geoid s hs hfirst) hrest

end Action

end PlaceWeather
