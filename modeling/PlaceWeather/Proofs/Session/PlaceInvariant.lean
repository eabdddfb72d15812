import PlaceWeather.Proofs.Session.Status

/-!
# Properties of the places over a session

A property of stores that only looks at the places, and that registering and reconciling a place
keep, is kept by every step of a session (`Session.step_keeps`), so it holds of every store that a
session comes to when it held of the empty one (`Store.Reached.of_invariant`).  Any step may be
taken: store calls may fail, and dates may leave the calendar.  That each place stands under its own
identifier is such a property (`Store.Reached.keyed`).
-/

namespace PlaceWeather

namespace Store

/-- A property of the places that their writes keep. -/
structure PlaceInvariant (P : Store → Prop) : Prop where
  of_places {s t : Store} (hplaces : t.places = s.places) (hs : P s) : P t
  putPlace {s : Store} (hs : P s) (p : Place) : P (s.putPlace p)
  reconciled {s : Store} (hs : P s) (downloaded : Place) : P (s.reconciled downloaded)

theorem placeInvariant_keyed : PlaceInvariant Keyed where
  of_places := keyed_of_places_eq
  putPlace := Keyed.putPlace
  reconciled := Keyed.reconciled

end Store

variable {P : Store → Prop}

/-! ## Calls -/

theorem Station.Hears.keeps {s t : Station} {geoid : Option String} (h : s.Hears geoid t)
    (hP : Store.PlaceInvariant P) (hs : P s.store) : P t.store := by
  cases h with
  | silent same => exact hP.of_places same.places hs
  | unheard asked nothing places => exact hP.of_places places hs
  | heard asked received taken places => exact hP.of_places places (hP.reconciled hs _)

namespace Action

variable {α : Type} {x : Action α} {s : Station}

theorem Quiet.keeps (hx : Quiet x) (hP : Store.PlaceInvariant P) (hs : P s.store) :
    P (x.runAt s).2.store :=
  hP.of_places (hx s).places hs

theorem seedPlace_keeps (hP : Store.PlaceInvariant P) (hs : P s.store) (place : Place) :
    P ((seedPlace place).runAt s).2.store := by
  obtain ⟨t, hrun, hstore⟩ | ⟨e, t, hrun, hstore⟩ := runAt_seedPlace place s
  · rw [hrun]
    show P t.store
    rw [hstore]
    exact hP.putPlace hs place
  · rw [hrun]
    show P t.store
    rw [hstore]
    exact hs

theorem sweep_keeps_places {baseUrl : String} {now : Instant} {geoids : List String}
    (hP : Store.PlaceInvariant P) (hs : P s.store) :
    P ((sweep baseUrl now geoids).runAt s).2.store := by
  induction geoids generalizing s with
  | nil => exact hs
  | cons geoid rest ih =>
      have hfirst := (hearsOnce_ensureFresh baseUrl geoid now s).keeps hP hs
      rw [station_runAt_sweep_cons]
      split
      · exact hfirst
      · exact ih hfirst

end Action

/-! ## Steps and runs -/

namespace Session

variable {s : Session}

/-- Each step keeps the property. -/
theorem step_keeps {step : Step} (hP : Store.PlaceInvariant P) (hs : P s.station.store) :
    P (s.step step).2.station.store := by
  cases step with
  -- The clock, the web and the store's own failures
  | setClock | reopenStore | serve | failStore => exact hs
  | advanceClock seconds =>
      rw [Session.step]
      cases s.clock.addSeconds? seconds with
      | some now => exact hs
      | none => exact hs
  -- Calls that write no place
  | place | findByLink | schedule | entries | putSchedule | putEntries =>
      simp only [Session.step, station_perform]
      exact (Action.quiet_storeCall _ fun _ => rfl).keeps hP hs
  | seedPlace place =>
      simp only [Session.step, station_perform]
      exact Action.seedPlace_keeps hP hs place
  -- Calls that may download
  | ensureFresh geoid =>
      simp only [Session.step, station_perform]
      exact (Action.hearsOnce_ensureFresh _ geoid _ _).keeps hP hs
  | weather geoid days detailed =>
      simp only [Session.step, station_perform]
      exact (Action.hearsOnce_weather _ geoid days detailed _ _).keeps hP hs
  | report geoid days detailed =>
      simp only [Session.step, station_perform]
      exact (Action.hearsOnce_report _ geoid days detailed _ _).keeps hP hs
  | addPlace url =>
      simp only [Session.step, station_perform]
      exact (Action.hearsOnce_addPlace url _).keeps hP hs
  | refresh geoids =>
      simp only [Session.step, station_perform]
      exact Action.sweep_keeps_places hP hs

theorem run_keeps {steps : List Step} (hP : Store.PlaceInvariant P) (hs : P s.station.store) :
    P (s.run steps).2.station.store := by
  induction steps generalizing s with
  | nil => exact hs
  | cons first rest ih => exact ih (step_keeps hP hs)

end Session

/-! ## Stores that are reached -/

namespace Store

variable {store : Store}

/-- A session that began with an empty store has come to the store. -/
def Reached (store : Store) : Prop :=
  ∃ (session : Session) (steps : List Step), session.station.store.Empty ∧
    (session.run steps).2.station.store = store

theorem Reached.of_invariant (h : store.Reached) (hP : PlaceInvariant P)
    (hempty : ∀ s : Store, s.Empty → P s) : P store := by
  obtain ⟨session, steps, hstart, rfl⟩ := h
  exact Session.run_keeps hP (hempty _ hstart)

theorem Reached.keyed (h : store.Reached) : store.Keyed :=
  h.of_invariant placeInvariant_keyed fun _ hempty => hempty.keyed

end Store

end PlaceWeather
