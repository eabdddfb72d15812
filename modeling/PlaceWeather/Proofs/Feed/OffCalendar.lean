import PlaceWeather.Proofs.Feed.Telling

/-!
# Documents that leave the calendar

The updates of a document are local times, and reading takes its offset off them.  That may leave
the calendar, and then there is no answer at all: `read_offCalendar_iff` says exactly when, and in
every other case there is a feed or the document is malformed (`read_of_not_leaves`).  Offsets are
held within 32 bits, so only updates within four thousand and some years of an end of the calendar
can leave it (`not_leaves_of_inner`).
-/

namespace PlaceWeather

/-! ## Times that no offset takes out of the calendar -/

namespace Decimal

theorem toWhole_bounds {lo hi : Int} (rounding : Bool → Nat → Nat → Nat) (hlo : lo ≤ 0)
    (hhi : 0 ≤ hi) (x : Float) : lo ≤ toWhole rounding lo hi x ∧ toWhole rounding lo hi x ≤ hi := by
  unfold toWhole
  split
  · exact ⟨hlo, hhi⟩
  · split <;> omega
  · dsimp only
    unfold clamp
    split
    · omega
    · split <;> omega

theorem truncate32_bounds (x : Float) : int32Min ≤ truncate32 x ∧ truncate32 x ≤ int32Max :=
  toWhole_bounds _ (by decide) (by decide) x

end Decimal

/-- The days by which a whole number of 32 bits, in minutes, moves a time at most. -/
def Instant.offsetDays : Int := 1491309

/-- A time that lies so many days within the calendar that no offset takes it out. -/
structure LocalTime.Inner (t : LocalTime) : Prop where
  first_le : Date.firstNumber + Instant.offsetDays ≤ t.date.number
  le_last : t.date.number ≤ Date.lastNumber - Instant.offsetDays

theorem LocalTime.Inner.ofLocal?_ne_none {t : LocalTime} (h : t.Inner) {offset : Int}
    (hlo : Decimal.int32Min ≤ offset) (hhi : offset ≤ Decimal.int32Max) :
    Instant.ofLocal? t offset ≠ none := by
  have hfirst := h.first_le
  have hlast := h.le_last
  have hsecond := t.inDay
  unfold Instant.offsetDays at hfirst hlast
  unfold Decimal.int32Min at hlo
  unfold Decimal.int32Max at hhi
  unfold Instant.ofLocal? LocalTime.addMinutes? LocalTime.addSeconds?
  split
  · simp
  · -- The seconds of the day and the offset come to less than the days that are left.
    dsimp only
    rw [Date.ofNumber?, dif_pos]
    · simp
    · split <;> constructor <;> omega

namespace FeedDocument

/-- Reading the parts of a document leaves the calendar: the coordinates, the offset and the next
update can be read, and without the offset that update is off the calendar, or the last update can
be read, too, and is. -/
structure LeavesCalendar (d : FeedDocument) : Prop where
  coordinates : Feed.placeErrors d = []
  updates : ∃ offset next, Feed.readWhole "utcoffsetMinutes" d.offset = .ok offset ∧
    Feed.readTime d.nextUpdate = .ok next ∧ (Instant.ofLocal? next offset = none ∨
      ∃ last, Feed.readTime d.lastUpdate = .ok last ∧ Instant.ofLocal? last offset = none)

/-- As far as they can be read, the updates of a document lie well within the calendar. -/
structure Inner (d : FeedDocument) : Prop where
  next {t : LocalTime} (ht : Feed.readTime d.nextUpdate = .ok t) : t.Inner
  last {t : LocalTime} (ht : Feed.readTime d.lastUpdate = .ok t) : t.Inner

end FeedDocument

namespace Feed

theorem readWhole_bounds {field : String} {text : Option String} {n : Int}
    (h : readWhole field text = .ok n) : Decimal.int32Min ≤ n ∧ n ≤ Decimal.int32Max := by
  unfold readWhole at h
  cases hnumber : readNumber field text with
  | error e =>
      rw [hnumber] at h
      cases h
  | ok x =>
      rw [hnumber] at h
      cases h
      exact Decimal.truncate32_bounds x

/-- A document whose updates are on the calendar without the offset does not leave it. -/
theorem OnCalendar.not_leaves {d : FeedDocument} (h : OnCalendar d) : ¬ d.LeavesCalendar := by
  rintro ⟨-, offset, next, hoffset, hnext, hleft | ⟨last, hlast, hleft⟩⟩
  · have hstays := h.next hoffset hnext
    rw [hleft] at hstays
    cases hstays
  · have hstays := h.last hoffset hlast
    rw [hleft] at hstays
    cases hstays

theorem onCalendar_of_inner {d : FeedDocument} (h : d.Inner) : OnCalendar d where
  next hoffset ht := by
    obtain ⟨hlo, hhi⟩ := readWhole_bounds hoffset
    exact Option.isSome_iff_ne_none.mpr ((h.next ht).ofLocal?_ne_none hlo hhi)
  last hoffset ht := by
    obtain ⟨hlo, hhi⟩ := readWhole_bounds hoffset
    exact Option.isSome_iff_ne_none.mpr ((h.last ht).ofLocal?_ne_none hlo hhi)

/-! ## Where a row of readings leaves the calendar -/

section Rows

variable {α β : Type}

/-- A reading that can only be reported is not where the calendar is left. -/
theorem ofError_bind_offCalendar_iff {x : Except WeatherError α} {f : α → Except Fault β} :
    (Fault.ofError x >>= f) = .error .offCalendar ↔ ∃ a, x = .ok a ∧ f a = .error .offCalendar := by
  cases x with
  | ok a =>
      constructor
      · exact fun h => ⟨a, rfl, h⟩
      · rintro ⟨b, hb, h⟩
        cases hb
        exact h
  | error e =>
      constructor
      · intro h
        cases h
      · rintro ⟨b, hb, -⟩
        cases hb

theorem onCalendar_bind_offCalendar_iff {x : Option α} {f : α → Except Fault β} :
    (Fault.onCalendar x >>= f) = .error .offCalendar ↔
      x = none ∨ ∃ a, x = some a ∧ f a = .error .offCalendar := by
  cases x with
  | none => exact iff_of_true rfl (.inl rfl)
  | some a =>
      constructor
      · exact fun h => .inr ⟨a, rfl, h⟩
      · rintro (hnone | ⟨b, hb, h⟩)
        · cases hnone
        · cases hb
          exact h

end Rows

/-- The schedule is where the calendar is left, at its next update or at its last one. -/
theorem readSchedule_offCalendar_iff {d : FeedDocument} :
    readSchedule d = .error .offCalendar ↔
      ∃ offset next, readWhole "utcoffsetMinutes" d.offset = .ok offset ∧
        readTime d.nextUpdate = .ok next ∧ (Instant.ofLocal? next offset = none ∨
          ∃ last, readTime d.lastUpdate = .ok last ∧ Instant.ofLocal? last offset = none) := by
  unfold readSchedule
  simp only [ofError_bind_offCalendar_iff, onCalendar_bind_offCalendar_iff]
  constructor
  · rintro ⟨offset, hoffset, next, hnext, hleft | ⟨_, -, last, hlast, hleft | ⟨_, -, hread⟩⟩⟩
    · exact ⟨offset, next, hoffset, hnext, .inl hleft⟩
    · exact ⟨offset, next, hoffset, hnext, .inr ⟨last, hlast, hleft⟩⟩
    · cases hread
  · rintro ⟨offset, next, hoffset, hnext, hleft⟩
    refine ⟨offset, hoffset, next, hnext, ?_⟩
    -- The last update is only read when the next one stays on the calendar.
    cases hupdate : Instant.ofLocal? next offset with
    | none => exact .inl rfl
    | some update =>
        rcases hleft with hleft | ⟨last, hlast, hleft⟩
        · rw [hupdate] at hleft
          cases hleft
        · exact .inr ⟨update, rfl, last, hlast, .inl hleft⟩

theorem exists_place_iff {d : FeedDocument} :
    (∃ place, readPlace d = .ok place) ↔ placeErrors d = [] := by
  have hyields := readPlace_yields d
  cases herrors : placeErrors d with
  | nil =>
      rw [herrors] at hyields
      obtain ⟨place, hplace, -⟩ := hyields
      exact iff_of_true ⟨place, hplace⟩ rfl
  | cons e rest =>
      rw [herrors] at hyields
      have hread : readPlace d = .error e := hyields
      refine iff_of_false ?_ (by simp)
      rintro ⟨place, hplace⟩
      rw [hread] at hplace
      cases hplace

theorem ofDocument_offCalendar_iff {d : FeedDocument} {asked : Option String} :
    ofDocument d asked = .error .offCalendar ↔ d.LeavesCalendar := by
  unfold ofDocument
  rw [ofError_bind_offCalendar_iff]
  constructor
  · rintro ⟨place, hplace, h⟩
    have hcoordinates := exists_place_iff.mp ⟨place, hplace⟩
    rcases bind_eq_error h with hschedule | ⟨schedule, -, h⟩
    · exact ⟨hcoordinates, readSchedule_offCalendar_iff.mp hschedule⟩
    · -- After the schedule there are only readings that can be reported.
      obtain ⟨_, -, h⟩ := ofError_bind_offCalendar_iff.mp h
      cases h
  · rintro ⟨hcoordinates, hupdates⟩
    obtain ⟨place, hplace⟩ := exists_place_iff.mpr hcoordinates
    refine ⟨place, hplace, ?_⟩
    rw [readSchedule_offCalendar_iff.mpr hupdates]
    rfl

/-! ## Documents -/

/-- A document can be taken apart, and reading its parts leaves the calendar. -/
def LeavesCalendar (document : String) : Prop :=
  ∃ d, FeedDocument.ofText? document = some d ∧ d.LeavesCalendar

/-- Reading a document gives no answer exactly when it leaves the calendar, whatever it was asked
for under. -/
theorem read_offCalendar_iff {document : String} {asked : Option String} :
    read document asked = .error .offCalendar ↔ LeavesCalendar document := by
  unfold read LeavesCalendar
  cases FeedDocument.ofText? document with
  | none => simp
  | some d => simp [ofDocument_offCalendar_iff]

/-- Any other document gives a feed or is malformed. -/
theorem read_of_not_leaves {document : String} (h : ¬ LeavesCalendar document)
    (asked : Option String) :
    (∃ feed, read document asked = .ok feed) ∨
      ∃ detail, read document asked = .error (.error (.malformed detail)) := by
  cases hread : read document asked with
  | ok feed => exact .inl ⟨feed, rfl⟩
  | error fault =>
      cases fault with
      | error e =>
          obtain ⟨detail, rfl⟩ := onlyMalformed_read document asked e hread
          exact .inr ⟨detail, rfl⟩
      | offCalendar => exact absurd (read_offCalendar_iff.mp hread) h

/-- A document whose updates lie well within the calendar does not leave it, whatever its offset. -/
theorem not_leaves_of_inner {document : String}
    (h : ∀ d, FeedDocument.ofText? document = some d → d.Inner) : ¬ LeavesCalendar document := by
  rintro ⟨d, hd, hleaves⟩
  exact (onCalendar_of_inner (h d hd)).not_leaves hleaves

/-! ## A document at the end of the calendar -/

/-- A feed whose next update is the last second of the calendar, an hour behind UTC. -/
def lastSecondSample : FeedDocument :=
  { sample "Hamburg" with offset := some "-60", nextUpdate := "+262142-12-31T23:59:59" }

theorem leavesCalendar_lastSecondSample : LeavesCalendar lastSecondSample.write := by
  have hplain : lastSecondSample.withUnifiedLines = lastSecondSample := by
    apply FeedDocument.withUnifiedLines_eq_self <;> decide +kernel
  refine ⟨lastSecondSample, ?_, by decide +kernel, -60, .lastSecond .last, by decide +kernel,
    by decide +kernel, .inl (by decide +kernel)⟩
  rw [FeedDocument.ofText?_written lastSecondSample.written_write, hplain]

end Feed

end PlaceWeather
