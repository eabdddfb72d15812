import PlaceWeather.Proofs.Session.Mentions
import PlaceWeather.Proofs.Session.Provenance
import PlaceWeather.Proofs.Station.PlaceRecords

/-!
# The status of a place over a session

Each step of a session keeps the place records borne out by the mentions so far (`step_bearsOut`),
and so does each run (`run_bearsOut`).  Any step may be taken: store calls may be made to fail, and
dates may leave the calendar.  What that says about the records is spelled out in
`status_of_mentions`.
-/

namespace PlaceWeather

/-! ## Mentions of calls -/

namespace Station

/-- The mention between two stations, when a feed was asked for under an identifier.  A store that
does not fail takes every place (`Reliable.takesPlace`). -/
def heard (s t : Station) (geoid : Option String) : List Mention :=
  match s.told? t geoid with
  | some (.ok feed) =>
    if s.takesPlace (s.calls + 2) feed.place then
      [.byFeed (s.store.place? feed.place.geoid) feed.place]
    else []
  | some (.error _) | none => []

/-- The mentions of a sweep, check by check, up to one that leaves the calendar. -/
def sweptMentions (baseUrl : String) (now : Instant) : Station → List String → List Mention
  | _, [] => []
  | s, geoid :: rest =>
    let (outcome, t) := (Action.ensureFresh baseUrl geoid now).runAt s
    s.heard t (some geoid) ++
      if outcome = .error .offCalendar then [] else sweptMentions baseUrl now t rest

variable {s t : Station} {geoid : Option String} {past : List Mention}

theorem Hears.bearsOut (h : s.Hears geoid t) (hs : s.store.BearsOut past)
    (hdefinite : ∀ m ∈ s.heard t geoid, m.place.Definite) :
    t.store.BearsOut (past ++ s.heard t geoid) := by
  unfold Station.heard at hdefinite ⊢
  -- In each case the mention is worked out from the download, then from what came of it.
  cases h with
  | silent same =>
      rw [told?_of_no_download same.downloads, List.append_nil]
      exact hs.of_places_eq same.places
  | unheard asked nothing places =>
      rw [told?_of_download asked]
      cases hreceived : s.received _ geoid with
      | error e =>
          rw [List.append_nil]
          exact hs.of_places_eq places
      | ok feed =>
          dsimp only
          rw [nothing feed hreceived, if_neg Bool.false_ne_true, List.append_nil]
          exact hs.of_places_eq places
  | @heard url feed asked received taken places =>
      rw [told?_of_download asked, received] at hdefinite ⊢
      dsimp only at hdefinite ⊢
      rw [if_pos taken] at hdefinite ⊢
      exact (hs.described (hdefinite _ List.mem_cons_self)).of_places_eq places

end Station

namespace Action

variable {baseUrl : String} {now : Instant} {s : Station} {past : List Mention}

/-- A sweep leaves the station of its first check when that leaves the calendar, and otherwise the
one that the sweep of the rest leaves. -/
theorem station_runAt_sweep_cons (baseUrl : String) (now : Instant) (geoid : String)
    (rest : List String) (s : Station) :
    ((sweep baseUrl now (geoid :: rest)).runAt s).2 =
      if ((ensureFresh baseUrl geoid now).runAt s).1 = .error .offCalendar then
        ((ensureFresh baseUrl geoid now).runAt s).2
      else ((sweep baseUrl now rest).runAt ((ensureFresh baseUrl geoid now).runAt s).2).2 := by
  rw [sweep, runAt_bind, runAt_attempt]
  generalize (ensureFresh baseUrl geoid now).runAt s = first
  obtain ⟨(e | _) | fresh, t⟩ := first
  · dsimp only
    rw [if_neg (by simp), bind_pure_comp, runAt_map]
  · rfl
  · dsimp only
    rw [if_neg (by simp), bind_pure_comp, runAt_map]

theorem sweep_bearsOut {geoids : List String} (hs : s.store.BearsOut past)
    (hdefinite : ∀ m ∈ s.sweptMentions baseUrl now geoids, m.place.Definite) :
    ((sweep baseUrl now geoids).runAt s).2.store.BearsOut
      (past ++ s.sweptMentions baseUrl now geoids) := by
  -- The mentions of the first check are part of the past of the rest.
  induction geoids generalizing s past with
  | nil =>
      rw [Station.sweptMentions, List.append_nil]
      exact hs
  | cons geoid rest ih =>
      rw [Station.sweptMentions] at hdefinite ⊢
      dsimp only at hdefinite ⊢
      have hfirst := (hearsOnce_ensureFresh baseUrl geoid now s).bearsOut hs fun m hm =>
        hdefinite m (List.mem_append_left _ hm)
      rw [station_runAt_sweep_cons, ← List.append_assoc]
      split
      · rw [List.append_nil]
        exact hfirst
      · rename_i hcalendar
        rw [if_neg hcalendar] at hdefinite
        exact ih hfirst fun m hm => hdefinite m (List.mem_append_right _ hm)

/-- A registration that is answered has written the place; one that fails has written nothing. -/
theorem runAt_seedPlace (place : Place) (s : Station) :
    (∃ t, (seedPlace place).runAt s = (.ok (), t) ∧ t.store = s.store.putPlace place) ∨
      ∃ e t, (seedPlace place).runAt s = (.error e, t) ∧ t.store = s.store := by
  unfold seedPlace
  rw [runAt_bind, runAt_get]
  dsimp only
  split
  · cases hfails : s.failing s.calls .putPlace with
    | false => exact .inl ⟨_, runAt_storeCall hfails _, rfl⟩
    | true => exact .inr ⟨_, _, runAt_storeCall_of_failing hfails _, rfl⟩
  · exact .inr ⟨_, s, rfl, rfl⟩

end Action

/-! ## Steps and runs -/

namespace Session

/-- The mention of a registration that got an answer. -/
def registered (place : Place) : Except Fault Answer → List Mention
  | .ok _ => [.byHand place]
  | .error _ => []

/-- The mentions of a step. -/
def mentions (s : Session) (step : Step) : List Mention :=
  let (answer, t) := s.step step
  match step with
  | .seedPlace place => registered place answer
  | .ensureFresh geoid | .weather geoid _ _ | .report geoid _ _ =>
    s.station.heard t.station (some geoid)
  | .refresh geoids => s.station.sweptMentions s.presenter.baseUrl s.clock geoids
  | .addPlace _ => s.station.heard t.station none
  | _ => []

/-- The mentions of steps taken one after the other. -/
def mentionsOf (s : Session) : List Step → List Mention
  | [] => []
  | first :: rest => s.mentions first ++ (s.step first).2.mentionsOf rest

variable {s : Session} {past : List Mention}

theorem mentionsOf_append (s : Session) (steps later : List Step) :
    s.mentionsOf (steps ++ later) = s.mentionsOf steps ++ (s.run steps).2.mentionsOf later := by
  induction steps generalizing s with
  | nil => rfl
  | cons first rest ih =>
      rw [List.cons_append, mentionsOf, mentionsOf, ih, List.append_assoc]
      rfl

/-- A step whose places the store keeps, and that mentions none. -/
theorem bearsOut_of_quiet {α : Type} {x : Action α} (hx : Action.Quiet x)
    (hs : s.station.store.BearsOut past) :
    (x.runAt s.station).2.store.BearsOut (past ++ []) := by
  rw [List.append_nil]
  exact hs.of_places_eq (hx s.station).places

theorem step_seedPlace (s : Session) (place : Place) :
    s.step (.seedPlace place) =
      (((Action.seedPlace place).runAt s.station).1.map fun _ => .done,
        { s with station := ((Action.seedPlace place).runAt s.station).2 }) := rfl

/-- Each step keeps the records of all places borne out, with what it mentions. -/
theorem step_bearsOut {step : Step} (hs : s.station.store.BearsOut past)
    (horiginal : ∀ place, step = .seedPlace place → place.status = .original)
    (hdefinite : ∀ m ∈ s.mentions step, m.place.Definite) :
    (s.step step).2.station.store.BearsOut (past ++ s.mentions step) := by
  cases step with
  -- The clock, the web and the store's own failures
  | setClock | reopenStore | serve | failStore =>
      simp only [mentions, List.append_nil]
      exact hs
  | advanceClock seconds =>
      simp only [mentions, List.append_nil, Session.step]
      cases s.clock.addSeconds? seconds with
      | some now => exact hs
      | none => exact hs
  -- Calls that write no place
  | place | findByLink | schedule | entries | putSchedule | putEntries =>
      simp only [mentions, Session.step, station_perform]
      exact bearsOut_of_quiet (Action.quiet_storeCall _ fun _ => rfl) hs
  | seedPlace place =>
      simp only [mentions, step_seedPlace] at hdefinite ⊢
      obtain ⟨t, hrun, hstore⟩ | ⟨e, t, hrun, hstore⟩ := Action.runAt_seedPlace place s.station
      · rw [hrun] at hdefinite ⊢
        have hplace : (Mention.byHand place).place.Definite :=
          hdefinite (.byHand place) List.mem_cons_self
        show t.store.BearsOut (past ++ [.byHand place])
        rw [hstore]
        exact hs.registered hplace (horiginal place rfl)
      · rw [hrun]
        show t.store.BearsOut (past ++ [])
        rw [hstore, List.append_nil]
        exact hs
  -- Calls that may download
  | ensureFresh geoid =>
      simp only [mentions, Session.step, station_perform] at hdefinite ⊢
      exact (Action.hearsOnce_ensureFresh _ geoid _ _).bearsOut hs hdefinite
  | weather geoid days detailed =>
      simp only [mentions, Session.step, station_perform] at hdefinite ⊢
      exact (Action.hearsOnce_weather _ geoid days detailed _ _).bearsOut hs hdefinite
  | report geoid days detailed =>
      simp only [mentions, Session.step, station_perform] at hdefinite ⊢
      exact (Action.hearsOnce_report _ geoid days detailed _ _).bearsOut hs hdefinite
  | addPlace url =>
      simp only [mentions, Session.step, station_perform] at hdefinite ⊢
      exact (Action.hearsOnce_addPlace url _).bearsOut hs hdefinite
  | refresh geoids =>
      simp only [mentions, Session.step, station_perform] at hdefinite ⊢
      exact Action.sweep_bearsOut hs hdefinite

theorem run_bearsOut {steps : List Step} (hs : s.station.store.BearsOut past)
    (horiginal : ∀ place, .seedPlace place ∈ steps → place.status = .original)
    (hdefinite : ∀ m ∈ s.mentionsOf steps, m.place.Definite) :
    (s.run steps).2.station.store.BearsOut (past ++ s.mentionsOf steps) := by
  -- The mentions of the rest begin at the session that the first step leaves.
  induction steps generalizing s past with
  | nil =>
      rw [mentionsOf, List.append_nil]
      exact hs
  | cons first rest ih =>
      rw [mentionsOf] at hdefinite
      have hfirst := step_bearsOut hs
        (fun place h => horiginal place (h ▸ List.mem_cons_self))
        fun m hm => hdefinite m (List.mem_append_left _ hm)
      rw [mentionsOf, ← List.append_assoc]
      exact ih hfirst (fun place h => horiginal place (List.mem_cons_of_mem first h))
        fun m hm => hdefinite m (List.mem_append_right _ hm)


/-- A store without places is borne out without mentions. -/
theorem bearsOut_nil (hempty : s.station.store.Empty) : s.station.store.BearsOut [] where
  keyed := hempty.keyed
  absent _ _ := rfl
  told geoid record hrecord := by
    rw [Store.place?, hempty.places] at hrecord
    cases hrecord

/-- A place is registered by hand that the first refresh of another one describes. -/
def otherName : List Step := .seedPlace ⟨"g_1", 0, 0, "", "Q", "", .original⟩ :: firstRefresh

end Session

end PlaceWeather
