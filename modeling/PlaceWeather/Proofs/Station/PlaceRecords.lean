import PlaceWeather.Proofs.Station.Interruption
import PlaceWeather.Proofs.Station.Showing
import PlaceWeather.Station.Adding

/-!
# What calls do to place records

A check or an addition makes at most one download.  When that gives a feed, and the store takes the
record of the feed's place, exactly this record is reconciled; otherwise no place record changes
(`Station.Hears`).  This holds of every call, wherever it ends: store calls may fail, and dates may
leave the calendar.

Everything before the download and after the reconciliation leaves the places as they are
(`Action.Quiet`).  The rules follow the constructors of actions.
-/

namespace PlaceWeather

namespace Station

/-- The store takes the record of a downloaded place, when its next call has the number `n`: the
record is read, and written if reconciling asks for that. -/
def takesPlace (s : Station) (n : Nat) (downloaded : Place) : Bool :=
  !s.failing n .getPlace &&
    ((Place.reconcile (s.store.place? downloaded.geoid) downloaded).record?.isNone ||
      !s.failing (n + 1) .putPlace)

theorem Reliable.takesPlace {s : Station} (works : s.Reliable) (n : Nat) (downloaded : Place) :
    s.takesPlace n downloaded = true := by
  simp [Station.takesPlace, works n .getPlace, works (n + 1) .putPlace]

/-- Neither the places nor the downloads differ. -/
structure SamePlaces (s t : Station) : Prop where
  places : t.store.places = s.store.places
  downloads : t.downloads = s.downloads

theorem SamePlaces.trans {s t u : Station} (h : s.SamePlaces t) (h' : t.SamePlaces u) :
    s.SamePlaces u where
  places := h'.places.trans h.places
  downloads := h'.downloads.trans h.downloads

/-- What a call does to place records; `geoid` is the identifier under which it asks for a feed.  By
the time a feed is there the call has made two store calls: for the schedule and the place of a
check, or for the two spellings of a country. -/
inductive Hears (geoid : Option String) (s t : Station) : Prop
  /-- Nothing is downloaded. -/
  | silent (same : s.SamePlaces t)
  /-- A download gives no feed, or one whose place the store does not take. -/
  | unheard {url : String} (asked : t.downloads = s.downloads ++ [url])
      (nothing : ∀ feed, s.received url geoid = .ok feed →
        s.takesPlace (s.calls + 2) feed.place = false)
      (places : t.store.places = s.store.places)
  /-- The place of a feed is reconciled. -/
  | heard {url : String} {feed : Feed} (asked : t.downloads = s.downloads ++ [url])
      (received : s.received url geoid = .ok feed)
      (taken : s.takesPlace (s.calls + 2) feed.place = true)
      (places : t.store.places = (s.store.reconciled feed.place).places)

theorem Hears.andThen {geoid : Option String} {s t u : Station} (h : s.Hears geoid t)
    (hsame : t.SamePlaces u) : s.Hears geoid u := by
  cases h with
  | silent same => exact .silent (same.trans hsame)
  | unheard asked nothing places =>
      exact .unheard (hsame.downloads.trans asked) nothing (hsame.places.trans places)
  | heard asked received taken places =>
      exact .heard (hsame.downloads.trans asked) received taken (hsame.places.trans places)

end Station

namespace Action

variable {α β : Type} {s t : Station} {geoid : Option String}

/-! ## Actions that leave the places as they are -/

/-- The action changes no place record and downloads nothing. -/
def Quiet (x : Action α) : Prop := ∀ s : Station, s.SamePlaces (x.runAt s).2

theorem quiet_pure (a : α) : Quiet (pure a : Action α) := fun _ => ⟨rfl, rfl⟩

theorem quiet_fail (e : WeatherError) : Quiet (fail e : Action α) := fun _ => ⟨rfl, rfl⟩

theorem quiet_ofExcept (outcome : Except Fault α) : Quiet (ofExcept outcome) :=
  fun _ => ⟨rfl, rfl⟩

theorem quiet_storeCall (call : StoreCall) {f : Store → α × Store}
    (hplaces : ∀ store, (f store).2.places = store.places) : Quiet (storeCall call f) := by
  intro s
  cases hfails : s.failing s.calls call with
  | false =>
      rw [runAt_storeCall hfails]
      exact ⟨hplaces s.store, rfl⟩
  | true =>
      rw [runAt_storeCall_of_failing hfails]
      exact ⟨rfl, rfl⟩

theorem Quiet.bind {x : Action α} {f : α → Action β} (hx : Quiet x) (hf : ∀ a, Quiet (f a)) :
    Quiet (x >>= f) := by
  intro s
  have hfirst := hx s
  rw [runAt_bind]
  generalize x.runAt s = run at hfirst ⊢
  obtain ⟨e | a, t⟩ := run
  · exact hfirst
  · exact hfirst.trans (hf a t)

theorem quiet_putSchedule (geoid : String) (schedule : Schedule) :
    Quiet (putSchedule geoid schedule) := quiet_storeCall _ fun _ => rfl

theorem quiet_putEntries (geoid : String) (entries : List ForecastEntry) :
    Quiet (putEntries geoid entries) := quiet_storeCall _ fun _ => rfl

theorem quiet_requirePlace (geoid : String) : Quiet (requirePlace geoid) := by
  refine (quiet_storeCall _ fun _ => rfl).bind fun stored => ?_
  cases stored with
  | some place => exact quiet_pure place
  | none => exact quiet_fail _

theorem quiet_backOff (geoid : String) (schedule : Schedule) (now : Instant) :
    Quiet (backOff geoid schedule now) := by
  refine (quiet_ofExcept _).bind fun later => ?_
  exact (quiet_putSchedule geoid later).bind fun _ => quiet_pure later

theorem quiet_settle (geoid : String) (feed : Feed) (now : Instant) :
    Quiet (settle geoid feed now) := by
  refine (quiet_storeCall _ fun _ => rfl).bind fun stored => ?_
  dsimp only
  split
  · exact (quiet_backOff geoid _ now).bind fun _ => quiet_pure _
  · exact (quiet_pure _).bind fun _ => quiet_pure _

theorem quiet_absorb (geoid : String) (schedule : Schedule) (now : Instant) (e : WeatherError) :
    Quiet (absorb geoid schedule now e) := by
  unfold absorb
  split
  · exact (quiet_backOff geoid schedule now).bind fun _ => quiet_pure _
  · exact quiet_fail e

theorem quiet_refuseKnown (url link : String) (countries : List String) :
    Quiet (refuseKnown url link countries) := by
  induction countries with
  | nil => exact quiet_pure ()
  | cons country rest ih =>
      refine (quiet_storeCall _ fun _ => rfl).bind fun found => ?_
      cases found with
      | some existing => exact quiet_fail _
      | none => exact ih

/-- A refusal that does not come has looked for each of the countries. -/
theorem runAt_refuseKnown_eq_ok {url link : String} {countries : List String}
    (h : (refuseKnown url link countries).runAt s = (.ok (), t)) :
    t = { s with calls := s.calls + countries.length } := by
  induction countries generalizing s with
  | nil =>
      rw [refuseKnown, runAt_pure] at h
      cases h
      rfl
  | cons country rest ih =>
      obtain ⟨found, u, hfind, h⟩ := runAt_bind_eq_ok h
      obtain ⟨-, rfl⟩ := runAt_storeCall_eq_ok hfind
      cases found with
      | some existing => cases h
      | none =>
          rw [ih h, List.length_cons, Nat.add_right_comm, Nat.add_assoc]

/-! ## Storing a feed -/

/-- The record of a place is reconciled when the store takes it. -/
theorem runAt_reconcilePlace_of_taken {downloaded : Place}
    (htaken : s.takesPlace s.calls downloaded = true) :
    ∃ n, (reconcilePlace downloaded).runAt s =
      (.ok (), { s with store := s.store.reconciled downloaded, calls := n }) := by
  unfold Station.takesPlace at htaken
  rw [Bool.and_eq_true, Bool.not_eq_true', Bool.or_eq_true, Bool.not_eq_true'] at htaken
  obtain ⟨hreads, hwrites⟩ := htaken
  unfold reconcilePlace Store.reconciled
  rw [runAt_bind, getPlace, runAt_storeCall hreads]
  dsimp only
  cases hrecord : (Place.reconcile (s.store.place? downloaded.geoid) downloaded).record? with
  | none => exact ⟨_, rfl⟩
  | some place =>
      rw [hrecord] at hwrites
      have hwrites : s.failing (s.calls + 1) .putPlace = false := hwrites.resolve_left (by simp)
      exact ⟨_, runAt_storeCall (s := { s with calls := s.calls + 1 }) hwrites _⟩

/-- Otherwise reconciling breaks off, and the store stays as it is. -/
theorem runAt_reconcilePlace_of_not_taken {downloaded : Place}
    (hrefused : s.takesPlace s.calls downloaded = false) :
    ∃ e n, (reconcilePlace downloaded).runAt s = (.error e, { s with calls := n }) := by
  unfold reconcilePlace
  rw [runAt_bind, getPlace]
  cases hreads : s.failing s.calls .getPlace with
  | true =>
      rw [runAt_storeCall_of_failing hreads]
      exact ⟨_, _, rfl⟩
  | false =>
      rw [runAt_storeCall hreads]
      dsimp only
      -- Reading works, so there is something to write and the write fails.
      unfold Station.takesPlace at hrefused
      rw [hreads, Bool.not_false, Bool.true_and, Bool.or_eq_false_iff, Bool.not_eq_false']
        at hrefused
      obtain ⟨hrecord, hwrites⟩ := hrefused
      cases hsome : (Place.reconcile (s.store.place? downloaded.geoid) downloaded).record? with
      | none =>
          rw [hsome] at hrecord
          cases hrecord
      | some place =>
          have hfails := runAt_storeCall_of_failing (s := { s with calls := s.calls + 1 }) hwrites
            fun store => ((), store.putPlace place)
          exact ⟨_, _, hfails⟩

/-- After a feed was received, its place is reconciled and the rest is written. -/
theorem runAt_storeFeed_of_received {url : String} {feed : Feed}
    (h : s.received url geoid = .ok feed) :
    (storeFeed url geoid).runAt s =
      (reconcilePlace feed.place >>= fun _ => putEntries feed.geoid feed.entries >>= fun _ =>
        putSchedule feed.geoid feed.schedule >>= fun _ => pure feed).runAt (s.downloaded url) := by
  unfold Station.received at h
  unfold storeFeed
  rw [runAt_bind, runAt_download]
  split at h
  · rename_i document hresponse
    rw [hresponse]
    show (ofExcept (Feed.read document geoid) >>= _).runAt (s.downloaded url) = _
    rw [runAt_bind, runAt_ofExcept, h]
  · cases h

/-- Up to the schedules and the forecasts, a download that gives a feed reconciles its place or, when
the store does not take that, nothing. -/
theorem samePlaces_storeFeed {url : String} {feed : Feed} (h : s.received url geoid = .ok feed) :
    ({ s.downloaded url with
        store := if s.takesPlace s.calls feed.place then s.store.reconciled feed.place
          else s.store } : Station).SamePlaces ((storeFeed url geoid).runAt s).2 := by
  rw [runAt_storeFeed_of_received h, runAt_bind]
  -- What is written after the place leaves the places as they are.
  have hrest : Quiet (putEntries feed.geoid feed.entries >>= fun _ =>
      putSchedule feed.geoid feed.schedule >>= fun _ => pure feed) :=
    (quiet_putEntries _ _).bind fun _ => (quiet_putSchedule _ _).bind fun _ => quiet_pure feed
  cases htaken : s.takesPlace s.calls feed.place with
  | true =>
      obtain ⟨n, hn⟩ := runAt_reconcilePlace_of_taken (s := s.downloaded url) htaken
      rw [hn]
      exact ⟨(hrest _).places, (hrest _).downloads⟩
  | false =>
      obtain ⟨e, n, hn⟩ := runAt_reconcilePlace_of_not_taken (s := s.downloaded url) htaken
      rw [hn]
      exact ⟨rfl, rfl⟩

/-- Storing a feed, when two store calls were made before. -/
theorem hears_storeFeed (s : Station) (url : String) (geoid : Option String) :
    s.Hears geoid ((storeFeed url geoid).runAt { s with calls := s.calls + 2 }).2 := by
  cases hreceived : s.received url geoid with
  | error e =>
      obtain ⟨n, hn⟩ := ends_storeFeed_error hreceived (s.calls + 2)
      rw [hn]
      exact .unheard rfl (fun feed hfeed => by cases hreceived.symm.trans hfeed) rfl
  | ok feed =>
      have hsame := samePlaces_storeFeed (s := { s with calls := s.calls + 2 }) hreceived
      have htakes : ({ s with calls := s.calls + 2 } : Station).takesPlace (s.calls + 2) feed.place =
          s.takesPlace (s.calls + 2) feed.place := rfl
      dsimp only at hsame
      rw [htakes] at hsame
      cases htaken : s.takesPlace (s.calls + 2) feed.place with
      | true =>
          rw [htaken] at hsame
          exact .heard hsame.downloads hreceived htaken hsame.places
      | false =>
          rw [htaken] at hsame
          refine .unheard hsame.downloads ?_ hsame.places
          intro other hother
          cases hreceived.symm.trans hother
          exact htaken

/-! ## Checks and additions -/

/-- Quiet actions may follow. -/
theorem hears_bind {x : Action α} {f : α → Action β} {u : Station}
    (hx : s.Hears geoid (x.runAt u).2) (hf : ∀ a, Quiet (f a)) :
    s.Hears geoid ((x >>= f).runAt u).2 := by
  rw [runAt_bind]
  generalize x.runAt u = run at hx ⊢
  obtain ⟨e | a, t⟩ := run
  · exact hx
  · exact hx.andThen (hf a t)

/-- However a failure is dealt with, the places stay as the action left them. -/
theorem hears_either {x : Action α} {failed : WeatherError → Action β} {ok : α → Action β}
    {u : Station} (hx : s.Hears geoid (x.runAt u).2) (hfailed : ∀ e, Quiet (failed e))
    (hok : ∀ a, Quiet (ok a)) : s.Hears geoid ((either x failed ok).runAt u).2 := by
  rcases hrun : x.runAt u with ⟨(e | _) | a, t⟩
  all_goals rw [hrun] at hx
  · rw [runAt_either_error hrun]
    exact hx.andThen (hfailed e t)
  · rw [runAt_either_offCalendar hrun]
    exact hx
  · rw [runAt_either_ok hrun]
    exact hx.andThen (hok a t)

/-- Whatever the station, the action hears of at most one place. -/
def HearsOnce (x : Action α) (geoid : Option String) : Prop :=
  ∀ s : Station, s.Hears geoid (x.runAt s).2

theorem hearsOnce_ensureFresh (baseUrl geoid : String) (now : Instant) :
    HearsOnce (ensureFresh baseUrl geoid now) (some geoid) := by
  intro s
  unfold ensureFresh
  rw [runAt_bind]
  -- The schedule is read with the first store call.
  rcases hread : (getSchedule geoid).runAt s with ⟨e | stored, u⟩
  · obtain rfl := runAt_storeCall_eq_error hread
    exact .silent ⟨rfl, rfl⟩
  obtain ⟨rfl, rfl⟩ := runAt_storeCall_eq_ok hread
  dsimp only
  split
  · exact .silent ⟨rfl, rfl⟩
  rw [runAt_bind]
  -- The place is read with the second one.
  have hquiet := quiet_requirePlace geoid { s with calls := s.calls + 1 }
  rcases hplace : (requirePlace geoid).runAt { s with calls := s.calls + 1 } with ⟨e | place, u⟩
  · rw [hplace] at hquiet
    exact .silent ⟨hquiet.places, hquiet.downloads⟩
  obtain ⟨-, rfl⟩ := runAt_requirePlace_eq_ok hplace
  dsimp only
  exact hears_either (hears_storeFeed s _ _) (fun e => quiet_absorb geoid _ now e)
    fun feed => quiet_settle geoid feed now

theorem hearsOnce_weather (baseUrl geoid : String) (days : Nat) (detailed : Bool)
    (now : Instant) : HearsOnce (weather baseUrl geoid days detailed now) (some geoid) := by
  intro s
  refine hears_bind (hearsOnce_ensureFresh baseUrl geoid now s) fun fresh => ?_
  refine (quiet_ofExcept _).bind fun time => ?_
  exact (quiet_storeCall _ fun _ => rfl).bind fun entries => quiet_pure _

theorem hearsOnce_report (p : Presenter) (geoid : String) (days : Nat) (detailed : Bool)
    (now : Instant) : HearsOnce (report p geoid days detailed now) (some geoid) := by
  intro s
  refine hears_bind (hearsOnce_weather p.baseUrl geoid days detailed now s) fun weather => ?_
  exact (quiet_requirePlace geoid).bind fun place => quiet_ofExcept _

theorem hearsOnce_addPlace (url : String) : HearsOnce (addPlace url) none := by
  intro s
  unfold addPlace
  rw [runAt_bind, runAt_ofExcept]
  cases Fault.ofError (Address.feedOfPage url) with
  | error e => exact .silent ⟨rfl, rfl⟩
  | ok feedUrl =>
      dsimp only
      rw [runAt_bind]
      have hquiet := quiet_refuseKnown url (Address.split feedUrl).2
        (countrySpellings (Address.split feedUrl).1) s
      rcases hrefuse : (refuseKnown url (Address.split feedUrl).2
        (countrySpellings (Address.split feedUrl).1)).runAt s with ⟨e | _, u⟩
      · rw [hrefuse] at hquiet
        exact .silent hquiet
      -- Both spellings were looked for.
      obtain rfl := runAt_refuseKnown_eq_ok hrefuse
      exact hears_bind (hears_storeFeed s feedUrl none) fun feed => quiet_requirePlace feed.geoid

end Action

end PlaceWeather
