import PlaceWeather.Proofs.Feed.Reading
import PlaceWeather.Proofs.Schedule.Ladder
import PlaceWeather.Proofs.Station.Ending
import PlaceWeather.Station.Refresh

/-!
# The paths of a freshness check

At a station whose store does not fail, a freshness check takes one of the paths of `RefreshPath`:
each constructor says when its path is taken, what the check answers and which records it leaves.
`ensureFresh_path` is the only place where the check is taken apart; later facts about it are
case splits over its paths.
-/

namespace PlaceWeather

namespace Station

/-- What a download at an address would tell; `geoid` is the identifier it is asked for under. -/
def received (s : Station) (url : String) (geoid : Option String) : Except Fault Feed :=
  match (s.web.respond url).1 with
  | .ok document => Feed.read document geoid
  | .error e => .error (.error e)

theorem wellRead_of_received {s : Station} {url : String} {geoid : Option String} {feed : Feed}
    (h : s.received url geoid = .ok feed) : Feed.WellRead feed geoid := by
  unfold received at h
  split at h
  · exact Feed.wellRead_of_read h
  · cases h

/-- The address from which a freshness check downloads, when it does. -/
def dueUrl? (s : Station) (baseUrl geoid : String) (now : Instant) : Option String :=
  if Schedule.isDue now (s.store.schedule? geoid) then
    (s.store.place? geoid).map fun place => Address.feed baseUrl place.country place.link
  else none

theorem dueUrl?_eq_some {s : Station} {baseUrl geoid url : String} {now : Instant} :
    s.dueUrl? baseUrl geoid now = some url ↔
      Schedule.isDue now (s.store.schedule? geoid) = true ∧
        ∃ place, s.store.place? geoid = some place ∧
          url = Address.feed baseUrl place.country place.link := by
  unfold dueUrl?
  split
  · rename_i hdue
    rw [Option.map_eq_some_iff]
    simp [hdue, eq_comm]
  · rename_i hearly
    simp [hearly]

/-- A check is early, or finds no place, or has an address to download from. -/
theorem due_cases (s : Station) (baseUrl geoid : String) (now : Instant) :
    (∃ schedule, s.store.schedule? geoid = some schedule ∧ now < schedule.nextAttempt) ∨
      (Schedule.isDue now (s.store.schedule? geoid) = true ∧ s.store.place? geoid = none) ∨
      ∃ url, s.dueUrl? baseUrl geoid now = some url := by
  cases hdue : Schedule.isDue now (s.store.schedule? geoid) with
  | false =>
      cases hstored : s.store.schedule? geoid with
      | none =>
          rw [hstored] at hdue
          cases hdue
      | some schedule =>
          rw [hstored] at hdue
          exact .inl ⟨schedule, rfl, Instant.not_le.mp (of_decide_eq_false hdue)⟩
  | true =>
      cases hplace : s.store.place? geoid with
      | none => exact .inr (.inl ⟨rfl, rfl⟩)
      | some place => exact .inr (.inr ⟨_, dueUrl?_eq_some.mpr ⟨hdue, place, hplace, rfl⟩⟩)

end Station

/-! ## What a feed leaves in the store -/

namespace Store

/-- The store after a downloaded place was reconciled with the stored one. -/
def reconciled (store : Store) (downloaded : Place) : Store :=
  match (Place.reconcile (store.place? downloaded.geoid) downloaded).record? with
  | some place => store.putPlace place
  | none => store

/-- The store after a feed was stored. -/
def withFeed (store : Store) (feed : Feed) : Store :=
  ((store.reconciled feed.place).putEntries feed.geoid feed.entries).putSchedule feed.geoid
    feed.schedule

/-- The answer about a place that must be known. -/
def knownPlace (store : Store) (geoid : String) : Except Fault Place :=
  match store.place? geoid with
  | some place => .ok place
  | none => .error (.error (.unknownPlace geoid))

@[simp] theorem schedule?_reconciled (store : Store) (p : Place) (geoid : String) :
    (store.reconciled p).schedule? geoid = store.schedule? geoid := by
  unfold reconciled
  split <;> rfl

@[simp] theorem forecasts_reconciled (store : Store) (p : Place) :
    (store.reconciled p).forecasts = store.forecasts := by
  unfold reconciled
  split <;> rfl

@[simp] theorem schedule?_withFeed (store : Store) (feed : Feed) (geoid : String) :
    (store.withFeed feed).schedule? geoid =
      if feed.geoid = geoid then some feed.schedule else store.schedule? geoid := by
  simp [withFeed]

@[simp] theorem forecasts_withFeed (store : Store) (feed : Feed) :
    (store.withFeed feed).forecasts =
      store.forecasts.insert feed.geoid (ForecastSet.ofEntries feed.entries) := by
  simp [withFeed, putSchedule, putEntries]

end Store

namespace Action

variable {s : Station}

theorem ends_reconcilePlace (works : s.Reliable) (downloaded : Place) :
    Ends (reconcilePlace downloaded) s (.ok ())
      { s with store := s.store.reconciled downloaded } := by
  refine Ends.bind (ends_getPlace works downloaded.geoid) ?_
  unfold Store.reconciled
  cases (Place.reconcile (s.store.place? downloaded.geoid) downloaded).record? with
  | some place => exact ends_putPlace works place
  | none => exact ends_pure () _

/-- A feed that was received is stored, the place first and the schedule last. -/
theorem ends_storeFeed (works : s.Reliable) {url : String} {geoid : Option String} {feed : Feed}
    (h : s.received url geoid = .ok feed) :
    Ends (storeFeed url geoid) s (.ok feed)
      { s.downloaded url with store := s.store.withFeed feed } := by
  -- One station for each write: the place, then the entries, then the schedule.
  have hworks : (s.downloaded url).Reliable := works
  have hdownload := ends_download url s
  have hplace := ends_reconcilePlace hworks feed.place
  have hentries := ends_putEntries
    (s := { s.downloaded url with store := s.store.reconciled feed.place }) works feed.geoid
    feed.entries
  have hschedule := ends_putSchedule
    (s := { s.downloaded url with
      store := (s.store.reconciled feed.place).putEntries feed.geoid feed.entries }) works
    feed.geoid feed.schedule
  unfold Station.received at h
  split at h
  · rename_i document hresponse
    rw [hresponse] at hdownload
    refine Ends.bind hdownload ?_
    refine Ends.bind (ends_ofExcept h _) ?_
    refine Ends.bind hplace ?_
    refine Ends.bind hentries ?_
    refine Ends.bind hschedule ?_
    exact ends_pure feed _
  · cases h

/-- Without a feed only the download itself has happened. -/
theorem ends_storeFeed_error {url : String} {geoid : Option String} {e : Fault}
    (h : s.received url geoid = .error e) :
    Ends (storeFeed url geoid) s (.error e) (s.downloaded url) := by
  have hdownload := ends_download url s
  unfold Station.received at h
  split at h
  · rename_i document hresponse
    rw [hresponse] at hdownload
    refine Ends.bind hdownload ?_
    exact Ends.bind_error (ends_ofExcept h _)
  · rename_i failure hresponse
    cases h
    rw [hresponse] at hdownload
    exact Ends.bind_error hdownload

theorem ends_backOff (works : s.Reliable) (geoid : String) {schedule later : Schedule}
    {now : Instant} (h : schedule.backedOff? now = some later) :
    Ends (backOff geoid schedule now) s (.ok later)
      { s with store := s.store.putSchedule geoid later } := by
  have hsum : Fault.onCalendar (schedule.backedOff? now) = .ok later := by rw [h]; rfl
  refine Ends.bind (ends_ofExcept hsum s) ?_
  refine Ends.bind (ends_putSchedule works geoid later) ?_
  exact ends_pure later _

theorem ends_backOff_offCalendar (geoid : String) {schedule : Schedule} {now : Instant}
    (h : schedule.backedOff? now = none) :
    Ends (backOff geoid schedule now) s (.error .offCalendar) s := by
  have hsum : Fault.onCalendar (schedule.backedOff? now) = .error .offCalendar := by rw [h]; rfl
  exact Ends.bind_error (ends_ofExcept hsum s)

theorem ends_requirePlace (works : s.Reliable) (geoid : String) :
    Ends (requirePlace geoid) s (s.store.knownPlace geoid) s := by
  refine Ends.bind (ends_getPlace works geoid) ?_
  unfold Store.knownPlace
  cases s.store.place? geoid with
  | some place => exact ends_pure place s
  | none => exact ends_fail _ s

end Action

/-! ## The paths -/

/-- The paths of a freshness check at `s`: what it answers, and the station it leaves. -/
inductive RefreshPath (baseUrl geoid : String) (now : Instant) (s : Station) :
    Except Fault Freshness → Station → Prop
  /-- The next attempt lies ahead and nothing is done. -/
  | fresh {schedule : Schedule} (stored : s.store.schedule? geoid = some schedule)
      (early : now < schedule.nextAttempt) :
      RefreshPath baseUrl geoid now s (.ok ⟨schedule, true, false, none⟩) s
  /-- A download is due for a place that the store does not know. -/
  | unknown (due : Schedule.isDue now (s.store.schedule? geoid) = true)
      (absent : s.store.place? geoid = none) :
      RefreshPath baseUrl geoid now s (.error (.error (.unknownPlace geoid))) s
  /-- The download fails in a way that is tried again later. -/
  | putOff {url : String} {e : WeatherError} {later : Schedule}
      (due : s.dueUrl? baseUrl geoid now = some url)
      (failed : s.received url (some geoid) = .error (.error e)) (recoverable : e.recoverable = true)
      (backedOff : ((s.store.schedule? geoid).getD (.unknown now)).backedOff? now = some later) :
      RefreshPath baseUrl geoid now s
        (.ok ⟨later, false, true, some (Action.downloadWarning e)⟩)
        { s.downloaded url with store := s.store.putSchedule geoid later }
  /-- The download fails in another way. -/
  | refused {url : String} {e : WeatherError} (due : s.dueUrl? baseUrl geoid now = some url)
      (failed : s.received url (some geoid) = .error (.error e))
      (final : e.recoverable = false) :
      RefreshPath baseUrl geoid now s (.error (.error e)) (s.downloaded url)
  /-- A feed is stored, and its next update lies ahead. -/
  | current {url : String} {feed : Feed} (due : s.dueUrl? baseUrl geoid now = some url)
      (received : s.received url (some geoid) = .ok feed)
      (ahead : now < feed.schedule.nextUpdate) :
      RefreshPath baseUrl geoid now s (.ok ⟨feed.schedule, true, true, none⟩)
        { s.downloaded url with store := s.store.withFeed feed }
  /-- A feed is stored, but its next update has passed. -/
  | stale {url : String} {feed : Feed} {later : Schedule}
      (due : s.dueUrl? baseUrl geoid now = some url)
      (received : s.received url (some geoid) = .ok feed)
      (passed : feed.schedule.nextUpdate ≤ now)
      (backedOff : feed.schedule.backedOff? now = some later) :
      RefreshPath baseUrl geoid now s (.ok ⟨later, true, true, none⟩)
        { s.downloaded url with store := (s.store.withFeed feed).putSchedule geoid later }
  /-- A date has left the calendar. -/
  | offCalendar (t : Station) : RefreshPath baseUrl geoid now s (.error .offCalendar) t

namespace Action

variable {s : Station}

/-- After a feed was stored under the identifier of the check, its own schedule decides. -/
theorem ends_settle (works : s.Reliable) (geoid : String) {feed : Feed} {now : Instant}
    (hstored : s.store.schedule? feed.geoid = some feed.schedule)
    (hahead : now < feed.schedule.nextUpdate) :
    Ends (settle geoid feed now) s (.ok ⟨feed.schedule, true, true, none⟩) s := by
  refine Ends.bind (ends_getSchedule works feed.geoid) ?_
  rw [hstored, Option.getD_some, if_neg (Instant.not_le.mpr hahead)]
  refine Ends.bind (ends_pure feed.schedule _) ?_
  exact ends_pure _ _

theorem ends_settle_stale (works : s.Reliable) (geoid : String) {feed : Feed} {later : Schedule}
    {now : Instant} (hstored : s.store.schedule? feed.geoid = some feed.schedule)
    (hpassed : feed.schedule.nextUpdate ≤ now)
    (hlater : feed.schedule.backedOff? now = some later) :
    Ends (settle geoid feed now) s (.ok ⟨later, true, true, none⟩)
      { s with store := s.store.putSchedule geoid later } := by
  refine Ends.bind (ends_getSchedule works feed.geoid) ?_
  rw [hstored, Option.getD_some, if_pos hpassed]
  refine Ends.bind (ends_backOff works geoid hlater) ?_
  exact ends_pure _ _

theorem ends_settle_offCalendar (works : s.Reliable) (geoid : String) {feed : Feed}
    {now : Instant} (hstored : s.store.schedule? feed.geoid = some feed.schedule)
    (hpassed : feed.schedule.nextUpdate ≤ now) (hnone : feed.schedule.backedOff? now = none) :
    Ends (settle geoid feed now) s (.error .offCalendar) s := by
  refine Ends.bind (ends_getSchedule works feed.geoid) ?_
  rw [hstored, Option.getD_some, if_pos hpassed]
  exact Ends.bind_error (ends_backOff_offCalendar geoid hnone)

theorem ends_absorb (works : s.Reliable) (geoid : String) {schedule later : Schedule}
    {now : Instant} {e : WeatherError} (hrecoverable : e.recoverable = true)
    (hlater : schedule.backedOff? now = some later) :
    Ends (absorb geoid schedule now e) s (.ok ⟨later, false, true, some (downloadWarning e)⟩)
      { s with store := s.store.putSchedule geoid later } := by
  unfold absorb
  rw [if_pos hrecoverable]
  refine Ends.bind (ends_backOff works geoid hlater) ?_
  exact ends_pure _ _

theorem ends_absorb_offCalendar (geoid : String) {schedule : Schedule} {now : Instant}
    {e : WeatherError} (hrecoverable : e.recoverable = true)
    (hnone : schedule.backedOff? now = none) :
    Ends (absorb geoid schedule now e) s (.error .offCalendar) s := by
  unfold absorb
  rw [if_pos hrecoverable]
  exact Ends.bind_error (ends_backOff_offCalendar geoid hnone)

theorem ends_absorb_final (geoid : String) (schedule : Schedule) (now : Instant)
    {e : WeatherError} (hfinal : e.recoverable = false) :
    Ends (absorb geoid schedule now e) s (.error (.error e)) s := by
  unfold absorb
  rw [if_neg (by simp [hfinal])]
  exact ends_fail e s

end Action

/-! ## Every check takes one of them -/

namespace Action

variable {s : Station} {baseUrl geoid url : String} {now : Instant}

/-- The path of a check whose download gives a feed. -/
theorem storeFeed_path (works : s.Reliable) {feed : Feed}
    (hdue : s.dueUrl? baseUrl geoid now = some url)
    (hreceived : s.received url (some geoid) = .ok feed) :
    ∃ outcome t, RefreshPath baseUrl geoid now s outcome t ∧
      Ends (either (storeFeed url (some geoid))
        (absorb geoid ((s.store.schedule? geoid).getD (.unknown now)) now)
        (settle geoid · now)) s outcome t := by
  have hstore := ends_storeFeed works hreceived
  have hworks : { s.downloaded url with store := s.store.withFeed feed }.Reliable := works
  -- The schedule that is settled is the one just stored, so the feed's own update time decides.
  have hstored : (s.store.withFeed feed).schedule? feed.geoid = some feed.schedule := by simp
  by_cases hpassed : feed.schedule.nextUpdate ≤ now
  · cases hlater : feed.schedule.backedOff? now with
    | some later =>
        exact ⟨_, _, .stale hdue hreceived hpassed hlater,
          hstore.either (ends_settle_stale hworks geoid hstored hpassed hlater)⟩
    | none =>
        exact ⟨_, _, .offCalendar _,
          hstore.either (ends_settle_offCalendar hworks geoid hstored hpassed hlater)⟩
  · have hahead := Instant.not_le.mp hpassed
    exact ⟨_, _, .current hdue hreceived hahead,
      hstore.either (ends_settle hworks geoid hstored hahead)⟩

/-- The path of a check whose download gives no feed. -/
theorem storeFeed_error_path (works : s.Reliable) {fault : Fault}
    (hdue : s.dueUrl? baseUrl geoid now = some url)
    (hreceived : s.received url (some geoid) = .error fault) :
    ∃ outcome t, RefreshPath baseUrl geoid now s outcome t ∧
      Ends (either (storeFeed url (some geoid))
        (absorb geoid ((s.store.schedule? geoid).getD (.unknown now)) now)
        (settle geoid · now)) s outcome t := by
  have hstore := ends_storeFeed_error hreceived
  have hworks : (s.downloaded url).Reliable := works
  -- What is put off is the schedule from before the download, or its placeholder.
  cases fault with
  | offCalendar => exact ⟨_, _, .offCalendar _, hstore.either_offCalendar⟩
  | error e =>
      cases hrecoverable : e.recoverable with
      | false =>
          exact ⟨_, _, .refused hdue hreceived hrecoverable,
            hstore.either_error (ends_absorb_final geoid _ now hrecoverable)⟩
      | true =>
          cases hlater : ((s.store.schedule? geoid).getD (.unknown now)).backedOff? now with
          | some later =>
              exact ⟨_, _, .putOff hdue hreceived hrecoverable hlater,
                hstore.either_error (ends_absorb hworks geoid hrecoverable hlater)⟩
          | none =>
              exact ⟨_, _, .offCalendar _,
                hstore.either_error (ends_absorb_offCalendar geoid hrecoverable hlater)⟩

/-- A check before the next attempt reads the schedule and does nothing else. -/
theorem ends_ensureFresh_fresh (works : s.Reliable) (baseUrl : String) {schedule : Schedule}
    (hstored : s.store.schedule? geoid = some schedule) (hearly : now < schedule.nextAttempt) :
    Ends (ensureFresh baseUrl geoid now) s (.ok ⟨schedule, true, false, none⟩) s := by
  have hdue : Schedule.isDue now (some schedule) = false :=
    decide_eq_false (Instant.not_le.mpr hearly)
  refine (ends_getSchedule works geoid).bind ?_
  rw [hstored, if_pos (by rw [hdue]; rfl)]
  exact ends_pure _ s

/-- A due check of a known place downloads, and settles or absorbs what comes of it. -/
theorem ends_ensureFresh_due (works : s.Reliable) {outcome : Except Fault Freshness} {t : Station}
    (hdue : s.dueUrl? baseUrl geoid now = some url)
    (hends : Ends (either (storeFeed url (some geoid))
      (absorb geoid ((s.store.schedule? geoid).getD (.unknown now)) now)
      (settle geoid · now)) s outcome t) :
    Ends (ensureFresh baseUrl geoid now) s outcome t := by
  obtain ⟨hisDue, place, hplace, rfl⟩ := Station.dueUrl?_eq_some.mp hdue
  have hknown := ends_requirePlace works geoid
  rw [Store.knownPlace, hplace] at hknown
  refine (ends_getSchedule works geoid).bind ?_
  rw [if_neg (by simp [hisDue])]
  exact hknown.bind hends

theorem ends_ensureFresh_unknown (works : s.Reliable) (baseUrl : String)
    (hdue : Schedule.isDue now (s.store.schedule? geoid) = true)
    (habsent : s.store.place? geoid = none) :
    Ends (ensureFresh baseUrl geoid now) s (.error (.error (.unknownPlace geoid))) s := by
  have hunknown := ends_requirePlace works geoid
  rw [Store.knownPlace, habsent] at hunknown
  refine (ends_getSchedule works geoid).bind ?_
  rw [if_neg (by simp [hdue])]
  exact hunknown.bind_error

/-- Every freshness check takes one of the paths. -/
theorem ensureFresh_path (works : s.Reliable) (baseUrl geoid : String) (now : Instant) :
    ∃ outcome t, RefreshPath baseUrl geoid now s outcome t ∧
      Ends (ensureFresh baseUrl geoid now) s outcome t := by
  rcases Station.due_cases s baseUrl geoid now with
    ⟨schedule, hstored, hearly⟩ | ⟨hdue, habsent⟩ | ⟨url, hdue⟩
  · exact ⟨_, _, .fresh hstored hearly, ends_ensureFresh_fresh works baseUrl hstored hearly⟩
  · exact ⟨_, _, .unknown hdue habsent, ends_ensureFresh_unknown works baseUrl hdue habsent⟩
  · cases hreceived : s.received url (some geoid) with
    | ok feed =>
        obtain ⟨outcome, t, hpath, hends⟩ := storeFeed_path works hdue hreceived
        exact ⟨outcome, t, hpath, ends_ensureFresh_due works hdue hends⟩
    | error fault =>
        obtain ⟨outcome, t, hpath, hends⟩ := storeFeed_error_path works hdue hreceived
        exact ⟨outcome, t, hpath, ends_ensureFresh_due works hdue hends⟩

/-- A check takes each path whose condition holds, so what a path says of its condition is all that
the check looks at. -/
theorem ends_of_path {outcome : Except Fault Freshness} {t : Station} (works : s.Reliable)
    (h : RefreshPath baseUrl geoid now s outcome t) (hcalendar : outcome ≠ .error .offCalendar) :
    Ends (ensureFresh baseUrl geoid now) s outcome t := by
  have hworks : ∀ url store, { s.downloaded url with store }.Reliable := fun _ _ => works
  cases h with
  | fresh stored early => exact ends_ensureFresh_fresh works baseUrl stored early
  | unknown due absent => exact ends_ensureFresh_unknown works baseUrl due absent
  | putOff due failed recoverable backedOff =>
      refine ends_ensureFresh_due works due ((ends_storeFeed_error failed).either_error ?_)
      exact ends_absorb (hworks _ _) geoid recoverable backedOff
  | refused due failed final =>
      refine ends_ensureFresh_due works due ((ends_storeFeed_error failed).either_error ?_)
      exact ends_absorb_final geoid _ now final
  | current due received ahead =>
      refine ends_ensureFresh_due works due ((ends_storeFeed works received).either ?_)
      exact ends_settle (hworks _ _) geoid (by simp) ahead
  | stale due received passed backedOff =>
      refine ends_ensureFresh_due works due ((ends_storeFeed works received).either ?_)
      exact ends_settle_stale (hworks _ _) geoid (by simp) passed backedOff
  | offCalendar => exact absurd rfl hcalendar

/-- The path of a run, and the station it leaves. -/
theorem ensureFresh_run (works : s.Reliable) (baseUrl geoid : String) (now : Instant) :
    ∃ t, RefreshPath baseUrl geoid now s ((ensureFresh baseUrl geoid now).runAt s).1 t ∧
      ∃ n, ((ensureFresh baseUrl geoid now).runAt s).2 = { t with calls := n } := by
  obtain ⟨outcome, t, hpath, hends⟩ := ensureFresh_path works baseUrl geoid now
  rw [hends.outcome_eq]
  exact ⟨t, hpath, hends.station_eq⟩

end Action

end PlaceWeather
