import Mathlib.Data.List.Perm.Subperm
import PlaceWeather.Forecast.Days
import PlaceWeather.Proofs.Forecast.LastPerStart

/-!
# The selection of days

What is shown of a list of entries, one per start and none of them starting in a leap second.  The
two ways of selecting are one filter (`selection_eq_filter`): the moment that ends the selection is
a bound on dates, also where it would lie beyond the calendar, and the entries of the first day are
the ones before all others.  A slot is that of the last entry put under its date and label
(`slot?_putAll`), and shows all of its values (`ForecastSlot.Shows`).  `select_exact` puts these
together.
-/

namespace PlaceWeather

namespace Date

theorem lt_irrefl (d : Date) : ¬ d < d := Int.lt_irrefl d.number

theorem lt_trans {d e f : Date} (hde : d < e) (hef : e < f) : d < f := Int.lt_trans hde hef

theorem lt_of_ne_of_not_lt {d e : Date} (hne : ¬ d = e) (hlt : ¬ e < d) : d < e := by
  rw [lt_iff_number] at hlt ⊢
  have hnumber : d.number ≠ e.number := fun h => hne (ext_number h)
  omega

end Date

/-! ## Lists -/

section Prefix

variable {α : Type} {p q : α → Bool}

/-- A property of the first elements, and another one that none of these have: taking the first
elements and then the others filters the list for either. -/
theorem takeWhile_append_filter {l : List α}
    (hmono : l.Pairwise fun x y => p y = true → p x = true)
    (hdisjoint : ∀ x ∈ l, p x = true → q x = false) :
    l.takeWhile p ++ l.filter q = l.filter fun x => p x || q x := by
  induction l with
  | nil => rfl
  | cons x l ih =>
      obtain ⟨hfirst, hrest⟩ := List.pairwise_cons.mp hmono
      have ih := ih hrest fun y hy => hdisjoint y (List.mem_cons_of_mem x hy)
      cases hx : p x with
      | true =>
          have hq := hdisjoint x List.mem_cons_self hx
          rw [List.takeWhile_cons_of_pos hx, List.filter_cons_of_neg (by simp [hq]),
            List.filter_cons_of_pos (by simp [hx]), List.cons_append, ih]
      | false =>
          -- None of the elements has the first property, so it makes no difference.
          have hnone : ∀ y ∈ x :: l, p y = false := by
            intro y hy
            rcases List.mem_cons.mp hy with rfl | hy
            · exact hx
            · refine Bool.eq_false_iff.mpr fun hpy => ?_
              rw [hfirst y hy hpy] at hx
              cases hx
          rw [List.takeWhile_cons_of_neg (by simp [hx]), List.nil_append]
          refine List.filter_congr fun y hy => ?_
          rw [hnone y hy, Bool.false_or]

end Prefix

/-- The last of a list of entries in ascending order is the latest one. -/
theorem getLast?_eq_some_iff_latest {entries : List ForecastEntry}
    (h : entries.Pairwise fun a b => a.start < b.start) (e : ForecastEntry) :
    entries.getLast? = some e ↔ e ∈ entries ∧ ∀ other ∈ entries, other.start ≤ e.start := by
  induction entries using List.reverseRecOn with
  | nil => simp
  | append_singleton entries last _ =>
      rw [List.getLast?_concat]
      have hbefore : ∀ other ∈ entries, other.start < last.start := fun other hother =>
        (List.pairwise_append.mp h).2.2 other hother last List.mem_cons_self
      constructor
      · intro heq
        obtain rfl := Option.some.inj heq
        refine ⟨List.mem_concat_self, fun other hother => ?_⟩
        rcases List.mem_append.mp hother with hother | hother
        · exact Int.le_of_lt (hbefore other hother)
        · rw [List.mem_singleton.mp hother]
          exact Int.le_refl _
      · rintro ⟨hmem, hlatest⟩
        rcases List.mem_append.mp hmem with hmem | hmem
        · have hlt := hbefore e hmem
          have hle := hlatest last List.mem_concat_self
          exact absurd hlt (Int.not_lt.mpr hle)
        · rw [List.mem_singleton.mp hmem]

/-! ## What a slot shows -/

/-- A slot shows the forecast of an entry: all its values, and whether its span ends on another date
than the one it starts on. -/
structure ForecastSlot.Shows (slot : ForecastSlot) (e : ForecastEntry) : Prop where
  period : slot.period = e.period
  symbol : slot.symbol = e.symbol
  precipitation : slot.precipitation = e.precipitation
  windDirection : slot.windDirection = e.windDirection
  windSpeed : slot.windSpeed = e.windSpeed
  temperature : slot.temperature = e.temperature
  pressure : slot.pressure = e.pressure
  endsNextDay : slot.endsNextDay = true ↔ e.finish.date ≠ e.start.date

theorem ForecastEntry.shows_slot (e : ForecastEntry) : e.slot.Shows e where
  period := rfl
  symbol := rfl
  precipitation := rfl
  windDirection := rfl
  windSpeed := rfl
  temperature := rfl
  pressure := rfl
  endsNextDay := by rw [ForecastEntry.slot, decide_eq_true_iff]

/-- A slot that shows an entry is the slot of the entry. -/
theorem ForecastSlot.shows_iff {slot : ForecastSlot} {e : ForecastEntry} :
    slot.Shows e ↔ slot = e.slot := by
  constructor
  · intro h
    have hends : slot.endsNextDay = e.slot.endsNextDay := by
      rw [Bool.eq_iff_iff, h.endsNextDay, e.shows_slot.endsNextDay]
    obtain ⟨period, symbol, precipitation, windDirection, windSpeed, temperature, pressure, ends⟩ :=
      slot
    obtain ⟨rfl, rfl, rfl, rfl, rfl, rfl, rfl, -⟩ := h
    obtain rfl : ends = e.slot.endsNextDay := hends
    rfl
  · rintro rfl
    exact e.shows_slot

namespace DailyForecasts

/-! ## Which entries are selected -/

/-- A date is one of `days` days from `anchor` on, or all days are asked for. -/
def WithinDays (anchor : Date) (days : Nat) (date : Date) : Prop :=
  days = 0 ∨ date.number < anchor.number + days

/-- An entry is selected from the entries whose first one starts on `anchor`. -/
def Selected (anchor : Date) (days : Nat) (detailed : Bool) (e : ForecastEntry) : Prop :=
  if detailed then WithinDays anchor days e.start.date
  else e.start.date = anchor ∨
    (days ≠ 1 ∧ anchor < e.start.date ∧ e.period = "2" ∧ WithinDays anchor days e.start.date)

instance (anchor : Date) (days : Nat) (date : Date) : Decidable (WithinDays anchor days date) :=
  inferInstanceAs (Decidable (days = 0 ∨ _))

instance (anchor : Date) (days : Nat) (detailed : Bool) (e : ForecastEntry) :
    Decidable (Selected anchor days detailed e) :=
  inferInstanceAs (Decidable (if detailed then _ else _))

variable {anchor : Date} {days : Nat} {e : ForecastEntry}

/-- Outside leap seconds the last moment of the selection is a bound on dates. -/
theorem startsWithin_iff (hleap : e.start.leap = false) :
    startsWithin anchor days e = true ↔ WithinDays anchor days e.start.date := by
  unfold startsWithin lastMoment? WithinDays
  rcases Nat.eq_zero_or_pos days with rfl | hpos
  · simp
  · have hsecond := e.start.inDay
    have hlast := e.start.date.le_last
    have hanchor := anchor.first_le
    rw [if_neg (by omega), decide_eq_true_iff, LocalTime.le_iff_rank]
    cases hend : anchor.addDays? (days - 1 : Nat) with
    | some date =>
        have hnumber := Date.number_of_ofNumber? hend
        simp only [LocalTime.rank, LocalTime.lastSecond, LocalTime.ofSecond, Option.getD_some,
          hleap, Bool.false_eq_true, if_false]
        omega
    | none =>
        -- The days go on beyond the calendar, so all its dates are among them.
        have hbeyond : Date.lastNumber < anchor.number + (days - 1 : Nat) := by
          unfold Date.addDays? Date.ofNumber? at hend
          split at hend
          · cases hend
          · omega
        simp only [LocalTime.rank, LocalTime.lastSecond, LocalTime.ofSecond, Option.getD_none,
          Date.last, hleap, Bool.false_eq_true, if_false]
        omega

/-- Outside leap seconds an entry starts after a day when it starts on a later date. -/
theorem startsAfterDay_iff (hleap : e.start.leap = false) :
    startsAfterDay anchor e = true ↔ anchor < e.start.date := by
  have hsecond := e.start.inDay
  have hlast := e.start.date.le_last
  have hanchor := anchor.first_le
  unfold startsAfterDay
  rw [Date.lt_iff_number]
  cases hnext : anchor.next? with
  | some day =>
      have hnumber := Date.number_of_ofNumber? hnext
      simp only [decide_eq_true_iff, LocalTime.le_iff_rank, LocalTime.rank, LocalTime.midnight,
        LocalTime.ofSecond, hleap, Bool.false_eq_true, if_false]
      omega
  | none =>
      -- The day is the last one of the calendar.
      have hend : Date.lastNumber < anchor.number + 1 := by
        unfold Date.next? Date.addDays? Date.ofNumber? at hnext
        split at hnext
        · cases hnext
        · omega
      simp only [decide_eq_true_iff, LocalTime.lt_iff_rank, LocalTime.rank, LocalTime.lastSecond,
        LocalTime.ofSecond, Date.last, hleap, Bool.false_eq_true, if_false]
      omega

theorem Selected.withinDays {detailed : Bool} (h : Selected anchor days detailed e)
    (hdays : 0 < days) : e.start.date.number < anchor.number + days := by
  have hrange : e.start.date = anchor ∨ WithinDays anchor days e.start.date := by
    unfold Selected at h
    split at h
    · exact .inr h
    · exact h.imp id fun hlater => hlater.2.2.2
  rcases hrange with hdate | hall | hlt
  · rw [hdate]
    omega
  · omega
  · exact hlt

theorem date_le_of_start_le {a b : ForecastEntry} (h : a.start ≤ b.start) :
    a.start.date ≤ b.start.date := by
  have ha : a.start.second < 86400 := a.start.inDay
  have hb : b.start.second < 86400 := b.start.inDay
  rw [LocalTime.le_iff_rank, LocalTime.rank, LocalTime.rank] at h
  rw [Date.le_iff_number]
  omega

/-- No entry starts on an earlier date than the first one. -/
theorem first_date_le {first : ForecastEntry} {rest : List ForecastEntry}
    (hascending : (first :: rest).Pairwise fun a b => a.start < b.start)
    (he : e ∈ first :: rest) : first.start.date ≤ e.start.date := by
  rcases List.mem_cons.mp he with rfl | he
  · exact Int.le_refl _
  · exact date_le_of_start_le (Int.le_of_lt ((List.pairwise_cons.mp hascending).1 e he))

/-- Both ways of selecting filter the entries. -/
theorem selection_eq_filter {first : ForecastEntry} {rest : List ForecastEntry}
    (hascending : (first :: rest).Pairwise fun a b => a.start < b.start)
    (hleap : ∀ e ∈ first :: rest, e.start.leap = false) (days : Nat) (detailed : Bool) :
    selection (first :: rest) days detailed =
      (first :: rest).filter fun e => decide (Selected first.start.date days detailed e) := by
  cases detailed with
  | true =>
      refine List.filter_congr fun e he => ?_
      rw [Bool.eq_iff_iff, startsWithin_iff (hleap e he), decide_eq_true_iff]
      rfl
  | false =>
      -- The entries of the first day stand before those of later days.
      have hmono : (first :: rest).Pairwise fun a b =>
          decide (b.start.date = first.start.date) = true →
            decide (a.start.date = first.start.date) = true := by
        refine hascending.imp_of_mem fun {a b} ha _ hlt hb => ?_
        have hle := date_le_of_start_le (Int.le_of_lt hlt)
        rw [of_decide_eq_true hb] at hle
        exact decide_eq_true (Date.ext_number (Int.le_antisymm hle (first_date_le hascending ha)))
      refine (takeWhile_append_filter hmono ?_).trans (List.filter_congr fun e he => ?_)
      · intro e he hdate
        have hnot : ¬ startsAfterDay first.start.date e = true := by
          rw [startsAfterDay_iff (hleap e he), of_decide_eq_true hdate]
          exact Date.lt_irrefl _
        rw [Bool.eq_false_iff.mpr hnot, Bool.and_false, Bool.false_and, Bool.false_and]
      · rw [Bool.eq_iff_iff]
        simp only [Bool.or_eq_true, Bool.and_eq_true, decide_eq_true_iff, bne_iff_ne,
          startsAfterDay_iff (hleap e he), startsWithin_iff (hleap e he), Selected,
          ForecastEntry.isRepresentative, ForecastEntry.representativePeriod, beq_iff_eq,
          Bool.false_eq_true, if_false, and_assoc, ne_eq]

/-! ## Slots -/

/-- The slot under a date and a label. -/
def slot? (daily : DailyForecasts) (date : Date) (label : String) : Option ForecastSlot :=
  (daily.get? date).bind fun day => day.get? label

/-- The forecasts with entries put in one after the other. -/
def putAll (entries : List ForecastEntry) : DailyForecasts := entries.foldl putEntry Table.empty

theorem putAll_concat (entries : List ForecastEntry) (last : ForecastEntry) :
    putAll (entries ++ [last]) = (putAll entries).putEntry last := by
  unfold putAll
  rw [List.foldl_append]
  rfl

theorem select_eq_putAll (entries : List ForecastEntry) (days : Nat) (detailed : Bool) :
    select entries days detailed = putAll (selection entries days detailed) := rfl

theorem slot?_putEntry (daily : DailyForecasts) (e : ForecastEntry) (date : Date)
    (label : String) :
    (daily.putEntry e).slot? date label =
      if e.start.date = date ∧ e.rangeLabel = label then some e.slot
      else daily.slot? date label := by
  rw [putEntry_eq, slot?, slot?, Table.get?_insert]
  by_cases hdate : e.start.date = date
  · rw [if_pos hdate, Option.bind_some, Table.get?_insert]
    by_cases hlabel : e.rangeLabel = label
    · rw [if_pos hlabel, if_pos ⟨hdate, hlabel⟩]
    · rw [if_neg hlabel, if_neg fun h => hlabel h.2, hdate]
      cases daily.get? date with
      | none => rfl
      | some day => rfl
  · rw [if_neg hdate, if_neg fun h => hdate h.1]

/-- A slot is that of the last entry with its date and label. -/
theorem slot?_putAll (entries : List ForecastEntry) (date : Date) (label : String) :
    (putAll entries).slot? date label =
      (entries.filter fun e => e.start.date = date ∧ e.rangeLabel = label).getLast?.map
        ForecastEntry.slot := by
  induction entries using List.reverseRecOn with
  | nil => rfl
  | append_singleton entries last ih =>
      rw [putAll_concat, slot?_putEntry, List.filter_append, List.getLast?_append, ih]
      by_cases hlast : last.start.date = date ∧ last.rangeLabel = label
      · simp [hlast]
      · rw [if_neg hlast, List.filter_cons_of_neg (by simpa using hlast)]
        rfl

/-! ## Days -/

/-- The days stand in the order of their dates, each has a slot, and the slots of a day stand in the
order of their labels. -/
structure Arranged (daily : DailyForecasts) : Prop where
  ascending : daily.Ascending
  labels : ∀ date day, (date, day) ∈ daily.entries → day.Ascending
  nonempty : ∀ date day, (date, day) ∈ daily.entries → day.entries ≠ []

theorem Arranged.putEntry {daily : DailyForecasts} (h : daily.Arranged) (e : ForecastEntry) :
    (daily.putEntry e).Arranged := by
  -- The day that the entry is put into: a new one, or one that is there.
  have hold : ((daily.get? e.start.date).getD Table.empty).Ascending := by
    cases hday : daily.get? e.start.date with
    | none => exact List.Pairwise.nil
    | some day => exact h.labels _ day (Table.mem_of_lookup hday)
  rw [putEntry_eq]
  refine ⟨Table.Ascending.insert Date.lt_trans Date.lt_of_ne_of_not_lt h.ascending _ _, ?_, ?_⟩
  · intro date day hmem
    rcases Table.mem_place hmem with heq | hmem
    · obtain ⟨-, rfl⟩ := Prod.mk.inj heq
      exact Table.Ascending.insert String.lt_trans Text.lt_of_ne_of_not_lt hold _ _
    · exact h.labels date day hmem
  · intro date day hmem
    rcases Table.mem_place hmem with heq | hmem
    · obtain ⟨-, rfl⟩ := Prod.mk.inj heq
      exact Table.place_ne_nil _ _ _
    · exact h.nonempty date day hmem

theorem arranged_putAll (entries : List ForecastEntry) : (putAll entries).Arranged := by
  induction entries using List.reverseRecOn with
  | nil => exact ⟨List.Pairwise.nil, fun _ _ h => (nomatch h), fun _ _ h => (nomatch h)⟩
  | append_singleton entries last ih =>
      rw [putAll_concat]
      exact ih.putEntry last

/-- Every day there is was put there with an entry. -/
theorem exists_entry_of_day {entries : List ForecastEntry} {date : Date} {day : DayForecasts}
    (hmem : (date, day) ∈ (putAll entries).entries) : ∃ e ∈ entries, e.start.date = date := by
  have harranged := arranged_putAll entries
  obtain ⟨⟨label, slot⟩, hslot⟩ := List.exists_mem_of_ne_nil _ (harranged.nonempty date day hmem)
  have hday := harranged.ascending.lookup_of_mem Date.lt_irrefl hmem
  have hlabel := (harranged.labels date day hmem).lookup_of_mem String.lt_irrefl hslot
  have hsome : (putAll entries).slot? date label = some slot := by
    rw [slot?, hday, Option.bind_some, hlabel]
  rw [slot?_putAll, Option.map_eq_some_iff] at hsome
  obtain ⟨e, hlast, -⟩ := hsome
  obtain ⟨he, hkey⟩ := List.mem_filter.mp (List.mem_of_getLast? hlast)
  exact ⟨e, he, (of_decide_eq_true hkey).1⟩

/-- There are no more days than dates from `anchor` on that the entries may have. -/
theorem length_putAll_le {entries : List ForecastEntry} {anchor : Date} {days : Nat}
    (hrange : ∀ e ∈ entries, anchor ≤ e.start.date ∧ e.start.date.number < anchor.number + days) :
    (putAll entries).entries.length ≤ days := by
  let offset (entry : Date × DayForecasts) : Nat := (entry.1.number - anchor.number).toNat
  have hbounds : ∀ entry ∈ (putAll entries).entries,
      anchor.number ≤ entry.1.number ∧ entry.1.number < anchor.number + days := by
    rintro ⟨date, day⟩ hmem
    obtain ⟨e, he, rfl⟩ := exists_entry_of_day hmem
    exact hrange e he
  have hnodup : ((putAll entries).entries.map offset).Nodup := by
    refine List.pairwise_map.mpr ((arranged_putAll entries).ascending.imp_of_mem ?_)
    intro a b ha hb hlt heq
    have hna := (hbounds a ha).1
    have hnb := (hbounds b hb).1
    rw [Date.lt_iff_number] at hlt
    simp only [offset] at heq
    omega
  have hsub : (putAll entries).entries.map offset ⊆ List.range days := by
    intro n hn
    obtain ⟨entry, hentry, rfl⟩ := List.mem_map.mp hn
    have hle := hbounds entry hentry
    rw [List.mem_range]
    simp only [offset]
    omega
  have hlength := (List.subperm_of_subset hnodup hsub).length_le
  rwa [List.length_map, List.length_range] at hlength

/-! ## What is shown -/

/-- A slot is there exactly when an entry with its date and label is selected, and it shows the latest
such entry. -/
theorem slot?_select {first : ForecastEntry} {rest : List ForecastEntry}
    (hascending : (first :: rest).Pairwise fun a b => a.start < b.start)
    (hleap : ∀ e ∈ first :: rest, e.start.leap = false) {days : Nat} {detailed : Bool} {date : Date}
    {label : String} {slot : ForecastSlot} :
    (select (first :: rest) days detailed).slot? date label = some slot ↔
      ∃ e ∈ first :: rest, Selected first.start.date days detailed e ∧
        e.start.date = date ∧ e.rangeLabel = label ∧
        (∀ other ∈ first :: rest, Selected first.start.date days detailed other →
          other.start.date = date → other.rangeLabel = label → other.start ≤ e.start) ∧
        slot.Shows e := by
  rw [select_eq_putAll, selection_eq_filter hascending hleap, slot?_putAll, List.filter_filter,
    Option.map_eq_some_iff]
  refine exists_congr fun e => ?_
  rw [getLast?_eq_some_iff_latest (hascending.filter _), ForecastSlot.shows_iff]
  simp only [List.mem_filter, Bool.and_eq_true, decide_eq_true_iff]
  constructor
  · rintro ⟨⟨⟨hmem, ⟨hdate, hlabel⟩, hselected⟩, hlatest⟩, hslot⟩
    exact ⟨hmem, hselected, hdate, hlabel,
      fun other hother hsel hd hl => hlatest other ⟨hother, ⟨hd, hl⟩, hsel⟩, hslot.symm⟩
  · rintro ⟨hmem, hselected, hdate, hlabel, hlatest, hslot⟩
    exact ⟨⟨⟨hmem, ⟨hdate, hlabel⟩, hselected⟩,
      fun other hother => hlatest other hother.1 hother.2.2 hother.2.1.1 hother.2.1.2⟩, hslot.symm⟩

theorem slot?_select_ne_none {first : ForecastEntry} {rest : List ForecastEntry}
    (hascending : (first :: rest).Pairwise fun a b => a.start < b.start)
    (hleap : ∀ e ∈ first :: rest, e.start.leap = false) {days : Nat} {detailed : Bool} {date : Date}
    {label : String} :
    (select (first :: rest) days detailed).slot? date label ≠ none ↔
      ∃ e ∈ first :: rest, Selected first.start.date days detailed e ∧
        e.start.date = date ∧ e.rangeLabel = label := by
  rw [select_eq_putAll, selection_eq_filter hascending hleap, slot?_putAll, List.filter_filter,
    ne_eq, Option.map_eq_none_iff, List.getLast?_eq_none_iff, List.filter_eq_nil_iff]
  simp only [Bool.and_eq_true, decide_eq_true_iff]
  constructor
  · intro hsome
    by_contra hnone
    exact hsome fun e hmem hkey => hnone ⟨e, hmem, hkey.2, hkey.1.1, hkey.1.2⟩
  · rintro ⟨e, hmem, hselected, hdate, hlabel⟩ hnone
    exact hnone e hmem ⟨⟨hdate, hlabel⟩, hselected⟩

/-- With a number of days given, no more days are shown. -/
theorem length_select_le {first : ForecastEntry} {rest : List ForecastEntry}
    (hascending : (first :: rest).Pairwise fun a b => a.start < b.start)
    (hleap : ∀ e ∈ first :: rest, e.start.leap = false) {days : Nat} (hdays : 0 < days)
    (detailed : Bool) : (select (first :: rest) days detailed).entries.length ≤ days := by
  rw [select_eq_putAll, selection_eq_filter hascending hleap]
  have hrange : ∀ e ∈ (first :: rest).filter fun e =>
      decide (Selected first.start.date days detailed e),
      first.start.date ≤ e.start.date ∧ e.start.date.number < first.start.date.number + days := by
    intro e he
    obtain ⟨hmem, hselected⟩ := List.mem_filter.mp he
    exact ⟨first_date_le hascending hmem, (of_decide_eq_true hselected).withinDays hdays⟩
  exact length_putAll_le hrange

/-- What is shown of entries that start one after the other, none of them in a leap second.

Nothing is shown of no entries.  Otherwise there is a slot under a date and a label exactly when an
entry with that date and label is selected.  The slot shows the values of the latest one, and says
that it ends on the next day exactly when the two dates of that entry differ.  The days ascend, each
has a slot, and with a number of days given there are no more of them, also where the number leads
beyond the calendar.

Starts are whole seconds, as feeds give them; one with a fraction, behind the last second of the
selection, would fall out of it. -/
theorem select_exact (first : ForecastEntry) (rest : List ForecastEntry)
    (hascending : (first :: rest).Pairwise fun a b => a.start < b.start)
    (hleap : ∀ e ∈ first :: rest, e.start.leap = false) (days : Nat) (detailed : Bool) :
    select [] days detailed = Table.empty ∧
    (∀ date label, (select (first :: rest) days detailed).slot? date label ≠ none ↔
      ∃ e ∈ first :: rest, Selected first.start.date days detailed e ∧
        e.start.date = date ∧ e.rangeLabel = label) ∧
    (∀ date label slot, (select (first :: rest) days detailed).slot? date label = some slot ↔
      ∃ e ∈ first :: rest, Selected first.start.date days detailed e ∧
        e.start.date = date ∧ e.rangeLabel = label ∧
        (∀ other ∈ first :: rest, Selected first.start.date days detailed other →
          other.start.date = date → other.rangeLabel = label → other.start ≤ e.start) ∧
        slot.Shows e) ∧
    (select (first :: rest) days detailed).Arranged ∧
    (0 < days → (select (first :: rest) days detailed).entries.length ≤ days) := by
  refine ⟨rfl, ?_, ?_, arranged_putAll _, ?_⟩
  · intro date label
    exact slot?_select_ne_none hascending hleap
  · intro date label slot
    exact slot?_select hascending hleap
  · intro hdays
    exact length_select_le hascending hleap hdays detailed

/-- An entry of the last day of the calendar, from a second of it to six o'clock. -/
def lastDayEntry (second : Nat) (h : second < 86400) (temperature : Int) : ForecastEntry where
  geoid := "1"
  start := .ofSecond Date.last second h
  finish := .ofSecond Date.last 21600 (by decide)
  period := "0"
  symbol := "01n"
  precipitation := 0
  windDirection := 0
  windSpeed := 0
  temperature := temperature
  pressure := 1013

/-- On the last day of the calendar three days are asked for: of two entries with one label the later
one is shown. -/
theorem select_exact_lastDay :
    let early := lastDayEntry 0 (by decide) 10
    let late := lastDayEntry 30 (by decide) 11
    ∃ slot, (select [early, late] 3 false).slot? Date.last "00:00-06:00" = some slot ∧
      slot.period = "0" ∧ slot.symbol = "01n" ∧ slot.temperature = 11 ∧ slot.pressure = 1013 ∧
      slot.endsNextDay = false ∧ (select [early, late] 3 false).entries.length ≤ 3 := by
  intro early late
  obtain ⟨-, hshown, hslot, -, hlength⟩ :=
    select_exact early [late] (by decide) (by decide) 3 false
  have hsome : (select [early, late] 3 false).slot? Date.last "00:00-06:00" ≠ none :=
    (hshown _ _).mpr
      ⟨late, List.mem_cons_of_mem _ List.mem_cons_self, by decide, rfl, by decide +kernel⟩
  obtain ⟨slot, hsome⟩ := Option.ne_none_iff_exists'.mp hsome
  obtain ⟨e, he, -, -, -, hlatest, hshows⟩ := (hslot _ _ _).mp hsome
  -- The early entry is not the latest one with the label.
  obtain rfl : e = late := by
    have hle : late.start ≤ e.start :=
      hlatest late (List.mem_cons_of_mem _ List.mem_cons_self) (by decide) rfl (by decide +kernel)
    rcases List.mem_cons.mp he with rfl | he
    · exact absurd hle (by decide)
    · exact List.mem_singleton.mp he
  refine ⟨slot, hsome, hshows.period, hshows.symbol, hshows.temperature, hshows.pressure, ?_,
    hlength (by decide)⟩
  rw [Bool.eq_false_iff, ne_eq, hshows.endsNextDay]
  decide

end DailyForecasts

end PlaceWeather
