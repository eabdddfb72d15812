import PlaceWeather.Proofs.Feed.Reading
import PlaceWeather.Proofs.Feed.Written

/-!
# What a written feed tells

Reading a feed is a row of single readings, and the first one that fails decides the error.  So the
errors of a document can be listed beforehand, in the order in which they are met (`Feed.errors`).
With none of them the feed that is read says what was written, and otherwise the first one is
reported (`Feed.read_of_written`).
-/

namespace PlaceWeather

/-! ## Outcomes of several readings -/

section Outcomes

variable {ε α β : Type}

/-- The error of a reading, if there is one. -/
def errorOf : Except ε α → List ε
  | .ok _ => []
  | .error e => [e]

/-- The outcome of readings with the given errors, in the order in which they are met: without errors
it is a value with the property, and otherwise the first error. -/
def Yields (outcome : Except ε α) (errors : List ε) (P : α → Prop) : Prop :=
  match errors with
  | [] => ∃ a, outcome = .ok a ∧ P a
  | e :: _ => outcome = .error e

theorem yields_reading (x : Except ε α) : Yields x (errorOf x) (x = .ok ·) := by
  cases x with
  | ok a => exact ⟨a, rfl, rfl⟩
  | error e => rfl

theorem yields_ok {a : α} {P : α → Prop} (h : P a) : Yields (.ok a : Except ε α) [] P := ⟨a, rfl, h⟩

theorem Yields.bind {x : Except ε α} {f : α → Except ε β} {es fs : List ε} {P : α → Prop}
    {Q : β → Prop} (hx : Yields x es P) (hf : ∀ a, P a → Yields (f a) fs Q) :
    Yields (x >>= f) (es ++ fs) Q := by
  cases es with
  | nil =>
      obtain ⟨a, rfl, ha⟩ := hx
      exact hf a ha
  | cons e es =>
      have hx : x = .error e := hx
      rw [hx]
      rfl

theorem yields_mapM {f : α → Except ε β} {errors : α → List ε} {R : α → β → Prop}
    (h : ∀ a, Yields (f a) (errors a) (R a)) (as : List α) :
    Yields (as.mapM f) (as.flatMap errors) (List.Forall₂ R as) := by
  induction as with
  | nil => exact yields_ok .nil
  | cons a rest ih =>
      rw [List.mapM_cons, List.flatMap_cons]
      refine (h a).bind fun b hb => ?_
      rw [← List.append_nil (rest.flatMap errors)]
      refine ih.bind fun bs hbs => ?_
      exact yields_ok (.cons hb hbs)

theorem Yields.ofError {x : Except WeatherError α} {es : List WeatherError} {P : α → Prop}
    (h : Yields x es P) : Yields (Fault.ofError x) (es.map Fault.error) P := by
  cases es with
  | nil =>
      obtain ⟨a, rfl, ha⟩ := h
      exact ⟨a, rfl, ha⟩
  | cons e es =>
      have h : x = .error e := h
      rw [h]
      rfl

theorem yields_onCalendar {x : Option α} (h : x.isSome) :
    Yields (Fault.onCalendar x) [] (x = some ·) := by
  obtain ⟨a, rfl⟩ := Option.isSome_iff_exists.mp h
  exact yields_ok rfl

end Outcomes

namespace Feed

/-! ## Entries -/

/-- The errors of a `time` element, in the order in which they are met. -/
def entryErrors (t : TimeElement) : List WeatherError :=
  [errorOf (readTime t.start), errorOf (readTime t.finish),
    errorOf (readNumber "precipitation" t.precipitation),
    errorOf (readWhole "windDirection" t.windDirection), errorOf (readNumber "windSpeed" t.windSpeed),
    errorOf (readWhole "temperature" t.temperature),
    errorOf (readWhole "pressure" t.pressure)].flatten

/-- An entry of a place says what a `time` element says. -/
structure Describes (geoid : String) (t : TimeElement) (e : ForecastEntry) : Prop where
  geoid_eq : e.geoid = geoid
  start : readTime t.start = .ok e.start
  finish : readTime t.finish = .ok e.finish
  period : e.period = t.period
  symbol : e.symbol = plainSymbol t.symbol
  precipitation : readNumber "precipitation" t.precipitation = .ok e.precipitation
  windDirection : readWhole "windDirection" t.windDirection = .ok e.windDirection
  windSpeed : readNumber "windSpeed" t.windSpeed = .ok e.windSpeed
  temperature : readWhole "temperature" t.temperature = .ok e.temperature
  pressure : readWhole "pressure" t.pressure = .ok e.pressure

theorem readEntry_yields (geoid : String) (t : TimeElement) :
    Yields (readEntry geoid t) (entryErrors t) (Describes geoid t) := by
  unfold readEntry entryErrors
  simp only [List.flatten_cons, List.flatten_nil]
  -- The errors are listed in the order of the readings.
  refine (yields_reading _).bind fun start hstart => ?_
  refine (yields_reading _).bind fun finish hfinish => ?_
  refine (yields_reading _).bind fun precipitation hprecipitation => ?_
  refine (yields_reading _).bind fun windDirection hdirection => ?_
  refine (yields_reading _).bind fun windSpeed hspeed => ?_
  refine (yields_reading _).bind fun temperature htemperature => ?_
  refine (yields_reading _).bind fun pressure hpressure => ?_
  exact yields_ok ⟨rfl, hstart, hfinish, rfl, rfl, hprecipitation, hdirection, hspeed, htemperature,
    hpressure⟩

/-! ## Feeds -/

/-- The errors of the place of a document, in the order in which they are met. -/
def placeErrors (d : FeedDocument) : List WeatherError :=
  [errorOf (readCoordinate "latitude" d.latitude),
    errorOf (readCoordinate "longitude" d.longitude)].flatten

/-- The errors of the schedule of a document, in the order in which they are met. -/
def scheduleErrors (d : FeedDocument) : List WeatherError :=
  [errorOf (readWhole "utcoffsetMinutes" d.offset), errorOf (readTime d.nextUpdate),
    errorOf (readTime d.lastUpdate)].flatten

/-- The errors of the parts of a document, in the order in which they are met. -/
def errors (d : FeedDocument) : List WeatherError :=
  placeErrors d ++ (scheduleErrors d ++ d.times.flatMap entryErrors)

/-- Where the offset and the times of the two updates can be read, the updates are on the calendar
without the offset. -/
structure OnCalendar (d : FeedDocument) : Prop where
  next {offset : Int} {t : LocalTime} (hoffset : readWhole "utcoffsetMinutes" d.offset = .ok offset)
    (ht : readTime d.nextUpdate = .ok t) : (Instant.ofLocal? t offset).isSome
  last {offset : Int} {t : LocalTime} (hoffset : readWhole "utcoffsetMinutes" d.offset = .ok offset)
    (ht : readTime d.lastUpdate = .ok t) : (Instant.ofLocal? t offset).isSome

/-- The identifier of a place in its own document. -/
def ownGeoid (d : FeedDocument) : String := d.geobase ++ "_" ++ d.geobaseId

/-- A place is the one that a document describes. -/
structure DescribesPlace (d : FeedDocument) (place : Place) : Prop where
  geoid_eq : place.geoid = ownGeoid d
  status : place.status = .added
  name : place.name = Text.trimmed d.name
  country : place.country = Text.trimmed d.country
  link : place.link = d.creditUrl.elim "" fun url => (Address.split url).2
  latitude : readCoordinate "latitude" d.latitude = .ok place.latitude
  longitude : readCoordinate "longitude" d.longitude = .ok place.longitude

/-- A schedule is the one that a document announces. -/
structure Announces (d : FeedDocument) (schedule : Schedule) : Prop where
  utcOffset : readWhole "utcoffsetMinutes" d.offset = .ok schedule.utcOffset
  nextUpdate : ∃ t, readTime d.nextUpdate = .ok t ∧
    Instant.ofLocal? t schedule.utcOffset = some schedule.nextUpdate
  lastUpdate : ∃ t, readTime d.lastUpdate = .ok t ∧
    Instant.ofLocal? t schedule.utcOffset = some schedule.lastUpdate
  nextAttempt : schedule.nextAttempt = schedule.nextUpdate

/-- A feed that was asked for under an identifier, or under none, says what a document says. -/
structure Tells (d : FeedDocument) (geoid : Option String) (feed : Feed) : Prop where
  geoid_eq : feed.geoid = geoid.getD (ownGeoid d)
  place : DescribesPlace d feed.place
  schedule : Announces d feed.schedule
  entries : List.Forall₂ (Describes feed.geoid) d.times feed.entries

theorem readPlace_yields (d : FeedDocument) :
    Yields (readPlace d) (placeErrors d) (DescribesPlace d) := by
  have hlink : (Address.split (d.creditUrl.getD "")).2 =
      d.creditUrl.elim "" fun url => (Address.split url).2 := by
    cases d.creditUrl with
    | none => decide +kernel
    | some url => rfl
  unfold readPlace placeErrors
  simp only [List.flatten_cons, List.flatten_nil]
  refine (yields_reading _).bind fun latitude hlatitude => ?_
  refine (yields_reading _).bind fun longitude hlongitude => ?_
  exact yields_ok ⟨rfl, rfl, rfl, rfl, hlink, hlatitude, hlongitude⟩

theorem readSchedule_yields {d : FeedDocument} (h : OnCalendar d) :
    Yields (readSchedule d) ((scheduleErrors d).map Fault.error) (Announces d) := by
  unfold readSchedule scheduleErrors
  simp only [List.flatten_cons, List.flatten_nil, List.map_append]
  refine (yields_reading _).ofError.bind fun offset hoffset => ?_
  refine (yields_reading _).ofError.bind fun next hnext => ?_
  -- The calendar adds no error of its own.
  refine (yields_onCalendar (h.next hoffset hnext)).bind fun nextUpdate hnextUpdate => ?_
  refine (yields_reading _).ofError.bind fun last hlast => ?_
  refine (yields_onCalendar (h.last hoffset hlast)).bind fun lastUpdate hlastUpdate => ?_
  exact yields_ok ⟨hoffset, ⟨next, hnext, hnextUpdate⟩, ⟨last, hlast, hlastUpdate⟩, rfl⟩

theorem ofDocument_yields {d : FeedDocument} (h : OnCalendar d) (geoid : Option String) :
    Yields (ofDocument d geoid) ((errors d).map Fault.error) (Tells d geoid) := by
  unfold ofDocument errors
  rw [List.map_append, List.map_append]
  refine (readPlace_yields d).ofError.bind fun place hplace => ?_
  refine (readSchedule_yields h).bind fun schedule hschedule => ?_
  have hentries := (yields_mapM (readEntry_yields (geoid.getD place.geoid)) d.times).ofError
  rw [← List.append_nil (List.map _ (d.times.flatMap _))]
  refine hentries.bind fun entries hentries => ?_
  refine yields_ok ⟨?_, hplace, hschedule, hentries⟩
  -- Without an identifier that was asked for it is the one of the place.
  rw [hplace.geoid_eq]

theorem read_eq_ofDocument {d : FeedDocument} {document : String} (h : d.Written document.toList)
    (geoid : Option String) : read document geoid = ofDocument d.withUnifiedLines geoid := by
  rw [read, FeedDocument.ofText?_written h]

/-- However the parts of a feed are written as a document, the document tells what was written, with
the line ends of its texts unified; when something in it cannot be read, the first error in the order
of `errors` is reported, and the document is called malformed.  The updates have to be on the
calendar. -/
theorem read_of_written {d : FeedDocument} {document : String} (h : d.Written document.toList)
    (hcalendar : OnCalendar d.withUnifiedLines) (geoid : Option String) :
    (errors d.withUnifiedLines = [] →
      ∃ feed, read document geoid = .ok feed ∧ Tells d.withUnifiedLines geoid feed) ∧
    ∀ e rest, errors d.withUnifiedLines = e :: rest →
      read document geoid = .error (.error e) ∧ ∃ detail, e = .malformed detail := by
  have hyields := ofDocument_yields hcalendar geoid
  rw [← read_eq_ofDocument h] at hyields
  constructor
  · intro herrors
    rw [herrors] at hyields
    exact hyields
  · intro e rest herrors
    rw [herrors] at hyields
    have hread : read document geoid = .error (.error e) := hyields
    exact ⟨hread, onlyMalformed_read document geoid e hread⟩

/-! ## A feed with one entry -/

/-- A feed whose place has some name. -/
def sample (name : String) : FeedDocument where
  geobase := "geonames"
  geobaseId := "2911298"
  latitude := some "53.5753200"
  longitude := some "10.0153436"
  name := name
  country := "Germany"
  offset := some "120"
  creditUrl := some "http://www.yr.no/place/Germany/Hamburg/Hamburg/"
  lastUpdate := "2013-10-07T17:30:00"
  nextUpdate := "2013-10-08T06:00:00"
  times := [{
    start := "2013-10-07T18:00:00"
    finish := "2013-10-08T00:00:00"
    period := "3"
    symbol := "mf/03n.11"
    precipitation := some "0"
    windDirection := some "236.4"
    windSpeed := some "3.4"
    temperature := some "12"
    pressure := some "1016.8" }]

theorem errors_sample (name : String) : errors (sample name) = [] := by
  have h : errors (sample "") = [] := by decide +kernel
  exact h

theorem onCalendar_sample (name : String) : OnCalendar (sample name) := by
  have hoffset : readWhole "utcoffsetMinutes" (some "120") = .ok 120 := by decide +kernel
  have hstays : ∀ text ∈ ["2013-10-07T17:30:00", "2013-10-08T06:00:00"],
      ((readTime text).map fun t => (Instant.ofLocal? t 120).isSome) = .ok true := by
    decide +kernel
  have hupdate : ∀ text ∈ ["2013-10-07T17:30:00", "2013-10-08T06:00:00"], ∀ offset t,
      readWhole "utcoffsetMinutes" (some "120") = .ok offset → readTime text = .ok t →
        (Instant.ofLocal? t offset).isSome := by
    intro text htext offset t hread ht
    rw [hoffset] at hread
    cases hread
    have hsome := hstays text htext
    rw [ht] at hsome
    exact Except.ok.inj hsome
  constructor
  · intro offset t
    exact hupdate "2013-10-08T06:00:00" (by simp) offset t
  · intro offset t
    exact hupdate "2013-10-07T17:30:00" (by simp) offset t

/-- The sample document is taken apart into the sample feed. -/
theorem ofText?_sample :
    FeedDocument.ofText? (sample "Hamburg").write = some (sample "Hamburg") := by
  have hplain : (sample "Hamburg").withUnifiedLines = sample "Hamburg" := by
    apply FeedDocument.withUnifiedLines_eq_self <;> decide +kernel
  rw [FeedDocument.ofText?_written (sample "Hamburg").written_write, hplain]

/-- What the sample feed tells, as an instance of the general statement. -/
theorem read_of_written_sample :
    (sample "Hamburg").Written (sample "Hamburg").write.toList ∧
      ∃ feed, read (sample "Hamburg").write none = .ok feed ∧
        Tells (sample "Hamburg") none feed := by
  have hplain : (sample "Hamburg").withUnifiedLines = sample "Hamburg" := by
    apply FeedDocument.withUnifiedLines_eq_self <;> decide +kernel
  have hwritten := (sample "Hamburg").written_write
  have hcalendar : OnCalendar (sample "Hamburg").withUnifiedLines := by
    rw [hplain]
    exact onCalendar_sample _
  have htold := (read_of_written hwritten hcalendar none).1
  rw [hplain] at htold
  exact ⟨hwritten, htold (errors_sample _)⟩

/-- A line separator in the name of a place is not told as it was written. -/
theorem read_of_written_separator :
    (sample "a\u2028b").Written (sample "a\u2028b").write.toList ∧
      OnCalendar (sample "a\u2028b") ∧ errors (sample "a\u2028b") = [] ∧
        ¬ ∃ feed, read (sample "a\u2028b").write none = .ok feed ∧
          Tells (sample "a\u2028b") none feed := by
  have hwritten := (sample "a\u2028b").written_write
  refine ⟨hwritten, onCalendar_sample _, errors_sample _, ?_⟩
  rintro ⟨feed, hread, htells⟩
  have hunified : (sample "a\u2028b").withUnifiedLines = sample "a\nb" := by decide +kernel
  have hyields := ofDocument_yields (onCalendar_sample "a\nb") none
  rw [errors_sample] at hyields
  obtain ⟨told, htold, hname⟩ := hyields
  rw [read_eq_ofDocument hwritten, hunified, htold] at hread
  cases hread
  have hsame : Text.trimmed "a\u2028b" = Text.trimmed "a\nb" :=
    htells.place.name.symm.trans hname.place.name
  have hdiffer : Text.trimmed "a\u2028b" ≠ Text.trimmed "a\nb" := by decide +kernel
  exact hdiffer hsame

end Feed

end PlaceWeather
