import PlaceWeather.Feed.Reading

/-!
# What reading a feed gives

A feed that was read is stored under the identifier it was asked for, all its entries carry that
identifier, and its next attempt is its next update.  A document that is no feed is malformed,
whatever part of it is wrong.
-/

namespace PlaceWeather

theorem bind_eq_ok {ε α β : Type} {x : Except ε α} {f : α → Except ε β} {b : β}
    (h : x >>= f = .ok b) : ∃ a, x = .ok a ∧ f a = .ok b := by
  cases x with
  | error e => cases h
  | ok a => exact ⟨a, rfl, h⟩

theorem bind_eq_error {ε α β : Type} {x : Except ε α} {f : α → Except ε β} {e : ε}
    (h : x >>= f = .error e) : x = .error e ∨ ∃ a, x = .ok a ∧ f a = .error e := by
  cases x with
  | error e' => cases h; exact .inl rfl
  | ok a => exact .inr ⟨a, rfl, h⟩

theorem map_eq_ok {ε α β : Type} {x : Except ε α} {f : α → β} {b : β} (h : x.map f = .ok b) :
    ∃ a, x = .ok a ∧ f a = b := by
  cases x with
  | error e => cases h
  | ok a => exact ⟨a, rfl, Except.ok.inj h⟩

theorem ofError_eq_ok {α : Type} {x : Except WeatherError α} {a : α}
    (h : Fault.ofError x = .ok a) : x = .ok a := by
  cases x with
  | error e => cases h
  | ok b => cases h; rfl

theorem ofError_eq_error {α : Type} {x : Except WeatherError α} {e : WeatherError}
    (h : Fault.ofError x = .error (.error e)) : x = .error e := by
  cases x with
  | error e' => cases h; rfl
  | ok b => cases h

namespace Feed

theorem readEntry_eq_ok {geoid : String} {time : TimeElement} {e : ForecastEntry}
    (h : readEntry geoid time = .ok e) : e.geoid = geoid := by
  -- Each of the seven readings has to succeed; the identifier depends on none of them.
  unfold readEntry at h
  obtain ⟨_, -, h⟩ := bind_eq_ok h
  obtain ⟨_, -, h⟩ := bind_eq_ok h
  obtain ⟨_, -, h⟩ := bind_eq_ok h
  obtain ⟨_, -, h⟩ := bind_eq_ok h
  obtain ⟨_, -, h⟩ := bind_eq_ok h
  obtain ⟨_, -, h⟩ := bind_eq_ok h
  obtain ⟨_, -, h⟩ := bind_eq_ok h
  cases h
  rfl

theorem geoid_of_mem_readEntries {geoid : String} {times : List TimeElement}
    {entries : List ForecastEntry} (h : times.mapM (readEntry geoid) = .ok entries) :
    ∀ e ∈ entries, e.geoid = geoid := by
  induction times generalizing entries with
  | nil =>
      cases h
      simp
  | cons time rest ih =>
      rw [List.mapM_cons] at h
      obtain ⟨first, hfirst, h⟩ := bind_eq_ok h
      obtain ⟨later, hlater, h⟩ := bind_eq_ok h
      cases h
      intro e he
      rcases List.mem_cons.mp he with rfl | he
      · exact readEntry_eq_ok hfirst
      · exact ih hlater e he

theorem nextAttempt_of_readSchedule {d : FeedDocument} {s : Schedule}
    (h : readSchedule d = .ok s) : s.nextAttempt = s.nextUpdate := by
  -- The offset, then each of the two times as it is written and as an instant.
  unfold readSchedule at h
  obtain ⟨_, -, h⟩ := bind_eq_ok h
  obtain ⟨_, -, h⟩ := bind_eq_ok h
  obtain ⟨_, -, h⟩ := bind_eq_ok h
  obtain ⟨_, -, h⟩ := bind_eq_ok h
  obtain ⟨_, -, h⟩ := bind_eq_ok h
  cases h
  rfl

/-- What holds of every feed that was read. -/
structure WellRead (feed : Feed) (geoid : Option String) : Prop where
  geoid_eq : feed.geoid = geoid.getD feed.place.geoid
  nextAttempt_eq : feed.schedule.nextAttempt = feed.schedule.nextUpdate
  entries_geoid : ∀ e ∈ feed.entries, e.geoid = feed.geoid

theorem wellRead_of_ofDocument {d : FeedDocument} {geoid : Option String} {feed : Feed}
    (h : ofDocument d geoid = .ok feed) : WellRead feed geoid := by
  unfold ofDocument at h
  obtain ⟨place, -, h⟩ := bind_eq_ok h
  obtain ⟨schedule, hschedule, h⟩ := bind_eq_ok h
  obtain ⟨entries, hentries, h⟩ := bind_eq_ok h
  cases h
  exact ⟨rfl, nextAttempt_of_readSchedule hschedule,
    geoid_of_mem_readEntries (ofError_eq_ok hentries)⟩

theorem wellRead_of_read {document : String} {geoid : Option String} {feed : Feed}
    (h : read document geoid = .ok feed) : WellRead feed geoid := by
  unfold read at h
  split at h
  · exact wellRead_of_ofDocument h
  · cases h

/-! ## Errors -/

/-- An outcome whose only errors are malformed documents. -/
def OnlyMalformed {α : Type} (x : Except Fault α) : Prop :=
  ∀ e, x = .error (.error e) → ∃ detail, e = .malformed detail

theorem OnlyMalformed.bind {α β : Type} {x : Except Fault α} {f : α → Except Fault β}
    (hx : OnlyMalformed x) (hf : ∀ a, OnlyMalformed (f a)) : OnlyMalformed (x >>= f) := by
  intro e h
  rcases bind_eq_error h with h | ⟨a, -, h⟩
  · exact hx e h
  · exact hf a e h

theorem onlyMalformed_ok {α : Type} (a : α) : OnlyMalformed (.ok a) := by
  intro e h
  cases h

theorem onlyMalformed_onCalendar {α : Type} (x : Option α) :
    OnlyMalformed (Fault.onCalendar x) := by
  intro e h
  cases x with
  | none => cases h
  | some a => cases h

theorem onlyMalformed_ofError_map {α β : Type} {x : Except WeatherError α} (f : α → β)
    (hx : OnlyMalformed (Fault.ofError x)) : OnlyMalformed (Fault.ofError (x.map f)) := by
  intro e h
  cases x with
  | error e' => cases h; exact hx _ rfl
  | ok a => cases h

theorem onlyMalformed_ofError_bind {α β : Type} {x : Except WeatherError α}
    {f : α → Except WeatherError β} (hx : OnlyMalformed (Fault.ofError x))
    (hf : ∀ a, OnlyMalformed (Fault.ofError (f a))) : OnlyMalformed (Fault.ofError (x >>= f)) := by
  intro e h
  cases x with
  | error e' => cases h; exact hx _ rfl
  | ok a => exact hf a e h

theorem onlyMalformed_readNumber (field : String) (text : Option String) :
    OnlyMalformed (Fault.ofError (readNumber field text)) := by
  intro e h
  have h := ofError_eq_error h
  unfold readNumber at h
  split at h
  · cases h
  · cases h
  · split at h
    · cases h
    · cases h
      exact ⟨_, rfl⟩

theorem onlyMalformed_readWhole (field : String) (text : Option String) :
    OnlyMalformed (Fault.ofError (readWhole field text)) :=
  onlyMalformed_ofError_map _ (onlyMalformed_readNumber field text)

theorem onlyMalformed_readCoordinate (field : String) (text : Option String) :
    OnlyMalformed (Fault.ofError (readCoordinate field text)) :=
  onlyMalformed_ofError_map _ (onlyMalformed_readNumber field text)

theorem onlyMalformed_readTime (text : String) : OnlyMalformed (Fault.ofError (readTime text)) := by
  intro e h
  have h := ofError_eq_error h
  unfold readTime at h
  split at h
  · cases h
  · cases h
    exact ⟨_, rfl⟩

theorem onlyMalformed_readPlace (d : FeedDocument) :
    OnlyMalformed (Fault.ofError (readPlace d)) := by
  unfold readPlace
  refine onlyMalformed_ofError_bind (onlyMalformed_readCoordinate _ _) fun _ => ?_
  refine onlyMalformed_ofError_bind (onlyMalformed_readCoordinate _ _) fun _ => ?_
  exact onlyMalformed_ok _

theorem onlyMalformed_readSchedule (d : FeedDocument) : OnlyMalformed (readSchedule d) := by
  unfold readSchedule
  refine OnlyMalformed.bind (onlyMalformed_readWhole _ _) fun _ => ?_
  refine OnlyMalformed.bind (onlyMalformed_readTime _) fun _ => ?_
  refine OnlyMalformed.bind (onlyMalformed_onCalendar _) fun _ => ?_
  refine OnlyMalformed.bind (onlyMalformed_readTime _) fun _ => ?_
  refine OnlyMalformed.bind (onlyMalformed_onCalendar _) fun _ => ?_
  exact onlyMalformed_ok _

theorem onlyMalformed_readEntry (geoid : String) (time : TimeElement) :
    OnlyMalformed (Fault.ofError (readEntry geoid time)) := by
  unfold readEntry
  refine onlyMalformed_ofError_bind (onlyMalformed_readTime _) fun _ => ?_
  refine onlyMalformed_ofError_bind (onlyMalformed_readTime _) fun _ => ?_
  refine onlyMalformed_ofError_bind (onlyMalformed_readNumber _ _) fun _ => ?_
  refine onlyMalformed_ofError_bind (onlyMalformed_readWhole _ _) fun _ => ?_
  refine onlyMalformed_ofError_bind (onlyMalformed_readNumber _ _) fun _ => ?_
  refine onlyMalformed_ofError_bind (onlyMalformed_readWhole _ _) fun _ => ?_
  refine onlyMalformed_ofError_bind (onlyMalformed_readWhole _ _) fun _ => ?_
  exact onlyMalformed_ok _

theorem onlyMalformed_readEntries (geoid : String) (times : List TimeElement) :
    OnlyMalformed (Fault.ofError (times.mapM (readEntry geoid))) := by
  induction times with
  | nil => exact onlyMalformed_ok _
  | cons time rest ih =>
      rw [List.mapM_cons]
      refine onlyMalformed_ofError_bind (onlyMalformed_readEntry geoid time) fun _ => ?_
      refine onlyMalformed_ofError_bind ih fun _ => ?_
      exact onlyMalformed_ok _

/-- Whatever is wrong with a document, it is reported as malformed. -/
theorem onlyMalformed_read (document : String) (geoid : Option String) :
    OnlyMalformed (read document geoid) := by
  unfold read
  split
  · refine OnlyMalformed.bind (onlyMalformed_readPlace _) fun _ => ?_
    refine OnlyMalformed.bind (onlyMalformed_readSchedule _) fun _ => ?_
    refine OnlyMalformed.bind (onlyMalformed_readEntries _ _) fun _ => ?_
    exact onlyMalformed_ok _
  · intro e h
    cases h
    exact ⟨_, rfl⟩

end Feed

end PlaceWeather
