import PlaceWeather.Proofs.Station.FailingCall

/-!
# Checks that break off

A freshness check writes the forecasts before the schedule, and a schedule that was put off last of
all.  So wherever a due check breaks off, its place is still due, or the feed that was downloaded is
stored as a whole (`due_or_holds_of_error`).  Nothing is asked here of the store: any of its calls
may fail.
-/

namespace PlaceWeather

/-- The store holds a feed for a place: all its entries, and its own schedule. -/
structure Store.Holds (store : Store) (geoid : String) (feed : Feed) : Prop where
  forecasts : store.forecasts.get? geoid = some (ForecastSet.ofEntries feed.entries)
  schedule : store.schedule? geoid = some feed.schedule

theorem Store.holds_withFeed (store : Store) (feed : Feed) :
    (store.withFeed feed).Holds feed.geoid feed where
  forecasts := by
    rw [forecasts_withFeed, Table.get?_insert, if_pos rfl]
  schedule := by
    rw [schedule?_withFeed, if_pos rfl]

namespace Action

variable {α β : Type} {s t : Station} {geoid : String} {now : Instant}

/-! ## Taking runs apart -/

theorem runAt_bind_eq_ok {x : Action α} {f : α → Action β} {b : β}
    (h : (x >>= f).runAt s = (.ok b, t)) :
    ∃ a u, x.runAt s = (.ok a, u) ∧ (f a).runAt u = (.ok b, t) := by
  rw [runAt_bind] at h
  split at h
  · rename_i a u hx
    exact ⟨a, u, hx, h⟩
  · cases h

theorem runAt_bind_eq_error {x : Action α} {f : α → Action β} {e : Fault}
    (h : (x >>= f).runAt s = (.error e, t)) :
    x.runAt s = (.error e, t) ∨ ∃ a u, x.runAt s = (.ok a, u) ∧ (f a).runAt u = (.error e, t) := by
  rw [runAt_bind] at h
  split at h
  · rename_i a u hx
    exact .inr ⟨a, u, hx, h⟩
  · rename_i e' u hx
    cases h
    exact .inl hx

/-- A choice that breaks off does so in the success, in dealing with a failure, or off the
calendar. -/
theorem runAt_either_eq_error {x : Action α} {failed : WeatherError → Action β} {ok : α → Action β}
    {e : Fault} (h : (either x failed ok).runAt s = (.error e, t)) :
    (∃ a u, x.runAt s = (.ok a, u) ∧ (ok a).runAt u = (.error e, t)) ∨
      (∃ e' u, x.runAt s = (.error (.error e'), u) ∧ (failed e').runAt u = (.error e, t)) ∨
      x.runAt s = (.error .offCalendar, t) := by
  rcases hx : x.runAt s with ⟨(e' | _) | a, u⟩
  · rw [runAt_either_error hx] at h
    exact .inr (.inl ⟨e', u, rfl, h⟩)
  · rw [runAt_either_offCalendar hx] at h
    cases h
    exact .inr (.inr rfl)
  · rw [runAt_either_ok hx] at h
    exact .inl ⟨a, u, rfl, h⟩

theorem runAt_storeCall_eq_ok {call : StoreCall} {f : Store → α × Store} {a : α}
    (h : (storeCall call f).runAt s = (.ok a, t)) :
    a = (f s.store).1 ∧ t = { s with store := (f s.store).2, calls := s.calls + 1 } := by
  cases hfails : s.failing s.calls call with
  | false =>
      rw [runAt_storeCall hfails] at h
      cases h
      exact ⟨rfl, rfl⟩
  | true =>
      rw [runAt_storeCall_of_failing hfails] at h
      cases h

/-- A store call that gives no answer writes nothing. -/
theorem runAt_storeCall_eq_error {call : StoreCall} {f : Store → α × Store} {e : Fault}
    (h : (storeCall call f).runAt s = (.error e, t)) : t = { s with calls := s.calls + 1 } := by
  cases hfails : s.failing s.calls call with
  | false =>
      rw [runAt_storeCall hfails] at h
      cases h
  | true =>
      rw [runAt_storeCall_of_failing hfails] at h
      cases h
      rfl

/-! ## The parts of a check -/

theorem runAt_ofExcept_eq {outcome result : Except Fault α}
    (h : (ofExcept outcome).runAt s = (result, t)) : outcome = result ∧ s = t := by
  rw [runAt_ofExcept] at h
  exact Prod.mk.inj h

theorem runAt_requirePlace_eq_ok {place : Place}
    (h : (requirePlace geoid).runAt s = (.ok place, t)) :
    s.store.place? geoid = some place ∧ t = { s with calls := s.calls + 1 } := by
  obtain ⟨stored, _, hread, h⟩ := runAt_bind_eq_ok h
  obtain ⟨hstored, rfl⟩ := runAt_storeCall_eq_ok hread
  cases stored with
  | some found =>
      cases h
      exact ⟨hstored.symm, rfl⟩
  | none => cases h

theorem store_of_requirePlace_error {e : Fault}
    (h : (requirePlace geoid).runAt s = (.error e, t)) : t.store = s.store := by
  rcases runAt_bind_eq_error h with h | ⟨stored, _, hread, h⟩
  · rw [runAt_storeCall_eq_error h]
  obtain ⟨-, rfl⟩ := runAt_storeCall_eq_ok hread
  cases stored with
  | some place => cases h
  | none =>
      cases h
      rfl

theorem runAt_reconcilePlace_eq_ok {downloaded : Place}
    (h : (reconcilePlace downloaded).runAt s = (.ok (), t)) :
    ∃ n, t = { s with store := s.store.reconciled downloaded, calls := n } := by
  obtain ⟨existing, u, hread, h⟩ := runAt_bind_eq_ok h
  obtain ⟨rfl, rfl⟩ := runAt_storeCall_eq_ok hread
  dsimp only at h
  rw [Store.reconciled]
  cases hrecord : (Place.reconcile (s.store.place? downloaded.geoid) downloaded).record? with
  | some place =>
      rw [hrecord] at h
      obtain ⟨-, rfl⟩ := runAt_storeCall_eq_ok h
      exact ⟨_, rfl⟩
  | none =>
      rw [hrecord] at h
      cases h
      exact ⟨_, rfl⟩

theorem store_of_reconcilePlace_error {downloaded : Place} {e : Fault}
    (h : (reconcilePlace downloaded).runAt s = (.error e, t)) : t.store = s.store := by
  rcases runAt_bind_eq_error h with h | ⟨existing, u, hread, h⟩
  · rw [runAt_storeCall_eq_error h]
  · obtain ⟨-, rfl⟩ := runAt_storeCall_eq_ok hread
    dsimp only at h
    split at h
    · rw [runAt_storeCall_eq_error h]
    · cases h

theorem runAt_download_eq_ok {url document : String}
    (h : (download url).runAt s = (.ok document, t)) :
    (s.web.respond url).1 = .ok document ∧ t = s.downloaded url := by
  rw [runAt_download] at h
  obtain ⟨hresponse, rfl⟩ := Prod.mk.inj h
  cases hgiven : (s.web.respond url).1 with
  | error e =>
      rw [hgiven] at hresponse
      cases hresponse
  | ok given =>
      rw [hgiven] at hresponse
      cases hresponse
      exact ⟨rfl, rfl⟩

theorem store_of_download {url : String} {outcome : Except Fault String}
    (h : (download url).runAt s = (outcome, t)) : t.store = s.store := by
  rw [runAt_download] at h
  rw [← (Prod.mk.inj h).2]

/-- A feed is stored only as a whole, and only the document's own. -/
theorem runAt_storeFeed_eq_ok {url : String} {asked : Option String} {feed : Feed}
    (h : (storeFeed url asked).runAt s = (.ok feed, t)) :
    ∃ document n, (s.web.respond url).1 = .ok document ∧ Feed.read document asked = .ok feed ∧
      t = { s.downloaded url with store := s.store.withFeed feed, calls := n } := by
  obtain ⟨document, _, hdownload, h⟩ := runAt_bind_eq_ok h
  obtain ⟨hresponse, rfl⟩ := runAt_download_eq_ok hdownload
  obtain ⟨read, _, hpure, h⟩ := runAt_bind_eq_ok h
  obtain ⟨hread, rfl⟩ := runAt_ofExcept_eq hpure
  -- Three writes follow: the place, the entries, the schedule.
  obtain ⟨_, _, hplace, h⟩ := runAt_bind_eq_ok h
  obtain ⟨_, rfl⟩ := runAt_reconcilePlace_eq_ok hplace
  obtain ⟨_, _, hentries, h⟩ := runAt_bind_eq_ok h
  obtain ⟨-, rfl⟩ := runAt_storeCall_eq_ok hentries
  obtain ⟨_, _, hschedule, h⟩ := runAt_bind_eq_ok h
  obtain ⟨-, rfl⟩ := runAt_storeCall_eq_ok hschedule
  rw [runAt_pure] at h
  cases h
  exact ⟨document, _, hresponse, hread, rfl⟩

/-- Without an answer no schedule was written, since the schedule comes last. -/
theorem schedule?_of_storeFeed_error {url : String} {asked : Option String} {e : Fault}
    (h : (storeFeed url asked).runAt s = (.error e, t)) (geoid : String) :
    t.store.schedule? geoid = s.store.schedule? geoid := by
  rcases runAt_bind_eq_error h with h | ⟨document, _, hdownload, h⟩
  · rw [store_of_download h]
  rw [← store_of_download hdownload]
  rcases runAt_bind_eq_error h with h | ⟨feed, _, hread, h⟩
  · rw [← (runAt_ofExcept_eq h).2]
  obtain ⟨-, rfl⟩ := runAt_ofExcept_eq hread
  rcases runAt_bind_eq_error h with h | ⟨_, _, hplace, h⟩
  · rw [store_of_reconcilePlace_error h]
  obtain ⟨_, rfl⟩ := runAt_reconcilePlace_eq_ok hplace
  rcases runAt_bind_eq_error h with h | ⟨_, _, hentries, h⟩
  · rw [runAt_storeCall_eq_error h]
    exact Store.schedule?_reconciled _ _ _
  obtain ⟨-, rfl⟩ := runAt_storeCall_eq_ok hentries
  rcases runAt_bind_eq_error h with h | ⟨_, _, -, h⟩
  · rw [runAt_storeCall_eq_error h]
    exact Store.schedule?_reconciled _ _ _
  · rw [runAt_pure] at h
    cases h

/-- A schedule that is put off is written last of all. -/
theorem store_of_backOff_error {schedule : Schedule} {e : Fault}
    (h : (backOff geoid schedule now).runAt s = (.error e, t)) : t.store = s.store := by
  rcases runAt_bind_eq_error h with h | ⟨later, _, hsum, h⟩
  · rw [← (runAt_ofExcept_eq h).2]
  obtain ⟨-, rfl⟩ := runAt_ofExcept_eq hsum
  rcases runAt_bind_eq_error h with h | ⟨_, _, -, h⟩
  · rw [runAt_storeCall_eq_error h]
  · rw [runAt_pure] at h
    cases h

theorem store_of_absorb_error {schedule : Schedule} {failure : WeatherError} {e : Fault}
    (h : (absorb geoid schedule now failure).runAt s = (.error e, t)) : t.store = s.store := by
  unfold absorb at h
  split at h
  · rcases runAt_bind_eq_error h with h | ⟨_, _, -, h⟩
    · exact store_of_backOff_error h
    · rw [runAt_pure] at h
      cases h
  · cases h
    rfl

theorem store_of_settle_error {feed : Feed} {e : Fault}
    (h : (settle geoid feed now).runAt s = (.error e, t)) : t.store = s.store := by
  rcases runAt_bind_eq_error h with h | ⟨stored, _, hread, h⟩
  · rw [runAt_storeCall_eq_error h]
  obtain ⟨-, rfl⟩ := runAt_storeCall_eq_ok hread
  dsimp only at h
  split at h
  · rcases runAt_bind_eq_error h with h | ⟨_, _, -, h⟩
    · have hstore := store_of_backOff_error h
      exact hstore
    · rw [runAt_pure] at h
      cases h
  · cases h

/-! ## Whole checks -/

/-- A download that is dealt with but gives no answer leaves the schedules as they are, or stores
the feed it gave. -/
theorem schedule?_or_holds_of_either_error {url : String} {schedule : Schedule} {e : Fault}
    (h : (either (storeFeed url (some geoid)) (absorb geoid schedule now)
      (settle geoid · now)).runAt s = (.error e, t)) :
    t.store.schedule? geoid = s.store.schedule? geoid ∨
      ∃ document feed, (s.web.respond url).1 = .ok document ∧
        Feed.read document (some geoid) = .ok feed ∧ t.store.Holds geoid feed := by
  rcases runAt_either_eq_error h with ⟨feed, _, hfeed, h⟩ | ⟨failure, _, hfeed, h⟩ | hfeed
  · obtain ⟨document, _, hresponse, hread, rfl⟩ := runAt_storeFeed_eq_ok hfeed
    -- The feed was stored before the settling broke off, and that writes nothing then.
    have hgeoid : feed.geoid = geoid := (Feed.wellRead_of_read hread).geoid_eq
    refine .inr ⟨document, feed, hresponse, hread, ?_⟩
    rw [store_of_settle_error h, ← hgeoid]
    exact Store.holds_withFeed _ feed
  · rw [store_of_absorb_error h, schedule?_of_storeFeed_error hfeed]
    exact .inl rfl
  · exact .inl (schedule?_of_storeFeed_error hfeed geoid)

/-- A due check that gives no answer leaves its place due, or stores the feed it downloaded. -/
theorem due_or_holds_of_error {baseUrl : String} {e : Fault}
    (hdue : Schedule.isDue now (s.store.schedule? geoid) = true)
    (h : (ensureFresh baseUrl geoid now).runAt s = (.error e, t)) :
    Schedule.isDue now (t.store.schedule? geoid) = true ∨
      ∃ url document feed, s.dueUrl? baseUrl geoid now = some url ∧
        (s.web.respond url).1 = .ok document ∧ Feed.read document (some geoid) = .ok feed ∧
        t.store.Holds geoid feed := by
  rcases runAt_bind_eq_error h with h | ⟨stored, _, hread, h⟩
  · rw [runAt_storeCall_eq_error h]
    exact .inl hdue
  obtain ⟨rfl, rfl⟩ := runAt_storeCall_eq_ok hread
  dsimp only at h
  rw [if_neg (by simp [hdue])] at h
  rcases runAt_bind_eq_error h with h | ⟨place, _, hplace, h⟩
  · rw [store_of_requirePlace_error h]
    exact .inl hdue
  obtain ⟨hknown, rfl⟩ := runAt_requirePlace_eq_ok hplace
  rcases schedule?_or_holds_of_either_error h with h | ⟨document, feed, hresponse, hread, hholds⟩
  · rw [h]
    exact .inl hdue
  · have hurl : s.dueUrl? baseUrl geoid now =
        some (Address.feed baseUrl place.country place.link) :=
      Station.dueUrl?_eq_some.mpr ⟨hdue, place, hknown, rfl⟩
    exact .inr ⟨_, document, feed, hurl, hresponse, hread, hholds⟩

end Action

end PlaceWeather
