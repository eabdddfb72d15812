import PlaceWeather.Proofs.Calendar.Offset
import PlaceWeather.Proofs.Calendar.RoundTrip
import PlaceWeather.Proofs.Decimal.Whole
import PlaceWeather.Proofs.Feed.Telling

/-!
# Updates that are told as they were written

A document gives its two updates as local times and its offset as a number of minutes.  The times are
read as they were written, and so is the offset, whatever blanks stand around them; the schedule that
is read holds the instants that lie the offset before those times, and their local times at the
offset that it holds are the times again (`updates_read_back`).
-/

namespace PlaceWeather

/-- A document gives the local times of its updates, and an offset in minutes. -/
structure FeedDocument.Gives (d : FeedDocument) (last next : LocalTime) (offset : Int) : Prop where
  last : Text.InBlanks last.text.toList d.lastUpdate.toList
  next : Text.InBlanks next.text.toList d.nextUpdate.toList
  offset : Feed.readWhole "utcoffsetMinutes" d.offset = .ok offset

/-- A schedule tells the updates at two local times, as instants, and the offset of those. -/
structure Schedule.TellsUpdates (last next : LocalTime) (offset : Int) (s : Schedule) : Prop where
  utcOffset : s.utcOffset = offset
  lastUpdate : s.lastUpdate.AtOffset last s.utcOffset
  nextUpdate : s.nextUpdate.AtOffset next s.utcOffset
  nextAttempt : s.nextAttempt = s.nextUpdate

namespace Feed

/-! ## Texts in blanks -/

/-- A local time is read as it is written. -/
theorem readTime_of_inBlanks {t : LocalTime} {text : String}
    (h : Text.InBlanks t.text.toList text.toList) : readTime text = .ok t := by
  unfold LocalTime.text at h
  rw [String.toList_ofList] at h
  have htrim : Text.trim text.toList = Stamp.chars t :=
    h.trim_eq fun c hc => Stamp.isBlank_of_mem_chars hc
  unfold readTime
  rw [htrim, Stamp.read_chars]

/-- A whole number of 32 bits is read as it is written. -/
theorem readWhole_of_inBlanks {k : Int} (hlo : Decimal.int32Min ≤ k) (hhi : k ≤ Decimal.int32Max)
    {text : String} (h : Text.InBlanks (Decimal.intText k).toList text.toList) (field : String) :
    readWhole field (some text) = .ok k := by
  unfold Decimal.intText at h
  rw [String.toList_ofList] at h
  have htrim : Text.trim text.toList = Decimal.intDigits k :=
    h.trim_eq fun c hc => Decimal.isBlank_of_mem_intDigits hc
  obtain ⟨x, hx, hvalue⟩ := Option.map_eq_some_iff.mp (Decimal.read?_intDigits hlo hhi)
  have hnumber : readNumber field (some text) = .ok x := by
    unfold readNumber
    rw [Option.map_some, htrim]
    -- The text is there and is not empty, so it does not count as zero.
    split
    · rename_i heq
      cases heq
    · rename_i heq
      exact absurd (Option.some.inj heq) (Decimal.intDigits_ne_nil k)
    · rename_i heq
      cases heq
      rw [hx]
  unfold readWhole
  rw [hnumber, ← hvalue]
  rfl

/-! ## Schedules -/

variable {d : FeedDocument} {last next : LocalTime} {offset : Int}

theorem readSchedule_of_gives (h : d.Gives last next offset) (hlast : last.leap = false)
    (hnext : next.leap = false) (hbefore : Date.HasSecond (last.secondNumber - 60 * offset))
    (hbehind : Date.HasSecond (next.secondNumber - 60 * offset)) :
    ∃ s, readSchedule d = .ok s ∧ s.TellsUpdates last next offset := by
  obtain ⟨lastUpdate, hlastUpdate, hlastAt⟩ := Instant.exists_atOffset hlast hbefore
  obtain ⟨nextUpdate, hnextUpdate, hnextAt⟩ := Instant.exists_atOffset hnext hbehind
  refine ⟨⟨lastUpdate, nextUpdate, nextUpdate, offset⟩, ?_, rfl, hlastAt, hnextAt, rfl⟩
  have hoffset : Fault.ofError (readWhole "utcoffsetMinutes" d.offset) = .ok offset := by
    rw [h.offset]
    rfl
  have hread : ∀ text t, readTime text = .ok t → Fault.ofError (readTime text) = .ok t := by
    intro text t ht
    rw [ht]
    rfl
  -- The readings in their order: the offset, then each update as it is written and as an instant.
  refine (bind_of_eq_ok hoffset).trans ?_
  refine (bind_of_eq_ok (hread _ _ (readTime_of_inBlanks h.next))).trans ?_
  refine (bind_of_eq_ok (congrArg Fault.onCalendar hnextUpdate)).trans ?_
  refine (bind_of_eq_ok (hread _ _ (readTime_of_inBlanks h.last))).trans ?_
  exact bind_of_eq_ok (congrArg Fault.onCalendar hlastUpdate)

theorem read_yields_schedule {document : String} {s : Schedule}
    (hdocument : FeedDocument.ofText? document = some d) (hs : readSchedule d = .ok s)
    (asked : Option String) :
    Yields (read document asked)
      ((placeErrors d ++ d.times.flatMap entryErrors).map Fault.error) (·.schedule = s) := by
  unfold read
  rw [hdocument]
  dsimp only
  unfold ofDocument
  rw [List.map_append]
  -- Between the place and the entries the schedule adds no error.
  refine (readPlace_yields d).ofError.bind fun place _ => ?_
  rw [hs]
  have hentries := (yields_mapM (readEntry_yields (asked.getD place.geoid)) d.times).ofError
  rw [← List.append_nil (List.map _ (d.times.flatMap _))]
  exact hentries.bind fun entries _ => yields_ok rfl

/-! ## Timestamps and offsets -/

/-- Timestamps and offsets are read as they were written.

A local time is read back from its text with any blanks around it, and so is an offset of 32 bits.  A
document that gives two local times, without leap seconds, and an offset that leaves both on the
calendar has a schedule that tells them: each update is the instant so many minutes before its local
time, and the local time at the offset of the schedule again.  Only the place and the entries of the
document can keep it from being read, and a feed that is read from it has that schedule. -/
theorem updates_read_back :
    (∀ (t : LocalTime) (text : String), Text.InBlanks t.text.toList text.toList →
      readTime text = .ok t) ∧
    (∀ (offset : Int) (text : String), Decimal.int32Min ≤ offset → offset ≤ Decimal.int32Max →
      Text.InBlanks (Decimal.intText offset).toList text.toList →
        readWhole "utcoffsetMinutes" (some text) = .ok offset) ∧
    ∀ (document : String) (d : FeedDocument) (last next : LocalTime) (offset : Int),
      FeedDocument.ofText? document = some d → d.Gives last next offset →
      last.leap = false → next.leap = false →
      Date.HasSecond (last.secondNumber - 60 * offset) →
      Date.HasSecond (next.secondNumber - 60 * offset) →
        ∃ s, s.TellsUpdates last next offset ∧ readSchedule d = .ok s ∧
          ∀ asked, Yields (read document asked)
            ((placeErrors d ++ d.times.flatMap entryErrors).map Fault.error) (·.schedule = s) := by
  refine ⟨fun t text h => readTime_of_inBlanks h,
    fun offset text hlo hhi h => readWhole_of_inBlanks hlo hhi h _, ?_⟩
  intro document d last next offset hdocument hgives hlast hnext hbefore hbehind
  obtain ⟨s, hs, htells⟩ := readSchedule_of_gives hgives hlast hnext hbefore hbehind
  exact ⟨s, htells, hs, read_yields_schedule hdocument hs⟩

/-! ## Updates of the year zero -/

/-- A feed whose updates are given on the leap day of the year zero and on the day before that year,
ninety minutes behind UTC. -/
def yearZeroFeed : FeedDocument :=
  { sample "Hamburg" with
    offset := some " -90"
    lastUpdate := "\t0000-02-29T23:30:00\n"
    nextUpdate := "-0001-12-31T23:00:00" }

/-- Half past eleven on the evening of the leap day. -/
def leapDayEvening : LocalTime :=
  .ofSecond ⟨Date.dayNumber 0 2 29, by decide, by decide⟩ 84600 (by decide)

/-- Eleven on the evening before the year zero. -/
def newYearsEve : LocalTime :=
  .ofSecond ⟨Date.dayNumber (-1) 12 31, by decide, by decide⟩ 82800 (by decide)

/-- The updates of that feed are told across the ends of February and of the year. -/
theorem updates_read_back_yearZero :
    readTime "\t0000-02-29T23:30:00\n" = .ok leapDayEvening ∧
    FeedDocument.ofText? yearZeroFeed.write = some yearZeroFeed ∧
    yearZeroFeed.Gives leapDayEvening newYearsEve (-90) ∧
    ∃ feed, read yearZeroFeed.write none = .ok feed ∧
      feed.schedule.TellsUpdates leapDayEvening newYearsEve (-90) ∧
      feed.schedule.lastUpdate.utc.date = ⟨Date.dayNumber 0 3 1, by decide, by decide⟩ ∧
      feed.schedule.nextUpdate.utc.date = ⟨Date.dayNumber 0 1 1, by decide, by decide⟩ := by
  have hplain : yearZeroFeed.withUnifiedLines = yearZeroFeed := by
    apply FeedDocument.withUnifiedLines_eq_self <;> decide +kernel
  have hdocument : FeedDocument.ofText? yearZeroFeed.write = some yearZeroFeed := by
    rw [FeedDocument.ofText?_written yearZeroFeed.written_write, hplain]
  have hlast : Text.InBlanks leapDayEvening.text.toList yearZeroFeed.lastUpdate.toList :=
    ⟨['\t'], ['\n'], List.forall_mem_singleton.mpr rfl, List.forall_mem_singleton.mpr rfl,
      by decide +kernel⟩
  have hnext : Text.InBlanks newYearsEve.text.toList yearZeroFeed.nextUpdate.toList :=
    ⟨[], [], List.forall_mem_nil _, List.forall_mem_nil _, by decide +kernel⟩
  have hoffset : readWhole "utcoffsetMinutes" (some " -90") = .ok (-90) :=
    updates_read_back.2.1 (-90) " -90" (by decide) (by decide)
      ⟨[' '], [], List.forall_mem_singleton.mpr rfl, List.forall_mem_nil _, by decide +kernel⟩
  have hgives : yearZeroFeed.Gives leapDayEvening newYearsEve (-90) := ⟨hlast, hnext, hoffset⟩
  obtain ⟨s, htells, -, hread⟩ := updates_read_back.2.2 yearZeroFeed.write yearZeroFeed leapDayEvening
    newYearsEve (-90) hdocument hgives rfl rfl (by decide) (by decide)
  have hrest : placeErrors yearZeroFeed ++ yearZeroFeed.times.flatMap entryErrors = [] := by
    decide +kernel
  have hyields := hread none
  rw [hrest] at hyields
  obtain ⟨feed, hfeed, rfl⟩ := hyields
  refine ⟨updates_read_back.1 _ _ hlast, hdocument, hgives, feed, hfeed, htells, ?_, ?_⟩
  · apply Instant.date_of_secondNumber
    rw [htells.lastUpdate.secondNumber_eq, htells.utcOffset]
    decide
  · apply Instant.date_of_secondNumber
    rw [htells.nextUpdate.secondNumber_eq, htells.utcOffset]
    decide

end Feed

end PlaceWeather
