import Mathlib.Data.List.TakeWhile
import PlaceWeather.Proofs.Report.Listing
import PlaceWeather.Proofs.Text.Pieces

/-!
# Today and tomorrow

The first day of a report is labelled as today and the second one as tomorrow, and no other is
(`isToday_iff`, `isTomorrow_iff`).  Which dates these are depends on what was selected: today is the
date on which the first entry starts, and tomorrow the next date on which a selected entry starts.
That is the day after today only where an entry of that day may be shown (`tomorrow_next_iff`); where
there is none, a later day is called tomorrow (`tomorrow_after_gap`).
-/

namespace PlaceWeather

/-! ## Labels of days -/

namespace DayReport

/-- How the label of today begins. -/
def todayLead : String := "Today, "

/-- How the label of tomorrow begins. -/
def tomorrowLead : String := "Tomorrow, "

/-- A day is labelled as today. -/
def IsToday (day : DayReport) : Prop := Text.startsWith todayLead.toList day.label.toList = true

/-- A day is labelled as tomorrow. -/
def IsTomorrow (day : DayReport) : Prop :=
  Text.startsWith tomorrowLead.toList day.label.toList = true

/-- The name of no weekday begins like a relative label. -/
theorem startsWith_longText {lead : String} (hlead : lead ∈ [todayLead, tomorrowLead])
    (date : Date) : Text.startsWith lead.toList date.longText.toList = false := by
  have hname : date.weekdayName ∈
      ["Monday", "Tuesday", "Wednesday", "Thursday", "Friday", "Saturday", "Sunday"] := by
    unfold Date.weekdayName
    split <;> decide
  have hdiffers : ∀ rest : List Char, ∀ name ∈
      ["Monday", "Tuesday", "Wednesday", "Thursday", "Friday", "Saturday", "Sunday"],
      Text.startsWith lead.toList (name.toList ++ rest) = false := by
    intro rest name hmem
    simp only [List.mem_cons, List.not_mem_nil, or_false] at hmem hlead
    rcases hlead with rfl | rfl <;> rcases hmem with rfl | rfl | rfl | rfl | rfl | rfl | rfl <;> rfl
  unfold Date.longText
  rw [String.toList_append, String.toList_append, String.toList_append, String.toList_append,
    List.append_assoc, List.append_assoc, List.append_assoc]
  exact hdiffers _ _ hname

/-- The first label begins like that of today, the second one like that of tomorrow, and no other
label begins like either. -/
theorem startsWith_dayLabel (position : Nat) (date : Date) :
    (Text.startsWith todayLead.toList (dayLabel position date).toList = true ↔ position = 0) ∧
    (Text.startsWith tomorrowLead.toList (dayLabel position date).toList = true ↔
      position = 1) := by
  match position with
  | 0 =>
      rw [dayLabel, String.toList_append]
      exact ⟨iff_of_true (Text.startsWith_append _ _) rfl,
        iff_of_false Bool.false_ne_true (by omega)⟩
  | 1 =>
      rw [dayLabel, String.toList_append]
      exact ⟨iff_of_false Bool.false_ne_true (by omega),
        iff_of_true (Text.startsWith_append _ _) rfl⟩
  | n + 2 =>
      have hplain : dayLabel (n + 2) date = date.longText := rfl
      rw [hplain, startsWith_longText (by simp), startsWith_longText (by simp)]
      exact ⟨iff_of_false Bool.false_ne_true (by omega), iff_of_false Bool.false_ne_true (by omega)⟩

end DayReport

namespace Presenter

variable {p : Presenter} {place : Place} {daily : DailyForecasts} {offset : Int}
  {warning : Option String} {report : WeatherReport} {i : Nat} {day : DayReport}

theorem label_of_render (h : p.render place daily offset warning = .ok report)
    (hday : report.days[i]? = some day) : day.label = DayReport.dayLabel i day.date := by
  obtain ⟨date, slots, -, hshows⟩ := DayReport.shows_of_getElem? (days_of_render h) hday
  rw [hshows.label_eq, hshows.date_eq, Nat.zero_add]

/-- The first day of a report is the one labelled as today. -/
theorem isToday_iff (h : p.render place daily offset warning = .ok report)
    (hday : report.days[i]? = some day) : day.IsToday ↔ i = 0 := by
  unfold DayReport.IsToday
  rw [label_of_render h hday]
  exact (DayReport.startsWith_dayLabel i day.date).1

/-- The second day of a report is the one labelled as tomorrow. -/
theorem isTomorrow_iff (h : p.render place daily offset warning = .ok report)
    (hday : report.days[i]? = some day) : day.IsTomorrow ↔ i = 1 := by
  unfold DayReport.IsTomorrow
  rw [label_of_render h hday]
  exact (DayReport.startsWith_dayLabel i day.date).2

/-- A day labelled as tomorrow follows the day labelled as today, which is the only one. -/
theorem days_of_isTomorrow (h : p.render place daily offset warning = .ok report)
    (hmem : day ∈ report.days) (hday : day.IsTomorrow) :
    ∃ today rest, report.days = today :: day :: rest ∧ today.IsToday ∧
      ∀ other ∈ day :: rest, ¬ other.IsToday := by
  obtain ⟨i, hi⟩ := List.getElem?_of_mem hmem
  obtain rfl : i = 1 := (isTomorrow_iff h hi).mp hday
  cases hdays : report.days with
  | nil =>
      rw [hdays] at hi
      cases hi
  | cons today later =>
      cases later with
      | nil =>
          rw [hdays] at hi
          cases hi
      | cons second rest =>
          rw [hdays] at hi
          cases hi
          have hfirst : report.days[0]? = some today := by rw [hdays]; rfl
          refine ⟨today, rest, rfl, (isToday_iff h hfirst).mpr rfl, ?_⟩
          intro other hother htoday
          obtain ⟨j, hj⟩ := List.getElem?_of_mem hother
          have hplace : report.days[j + 1]? = some other := by rw [hdays]; exact hj
          have hzero : j + 1 = 0 := (isToday_iff h hplace).mp htoday
          omega

end Presenter

/-! ## Days of a selection -/

namespace DailyForecasts

variable {entries : List ForecastEntry} {date : Date}

theorem mem_keys_putAll : date ∈ (putAll entries).keys ↔ ∃ e ∈ entries, e.start.date = date := by
  constructor
  · intro hkey
    obtain ⟨⟨_, day⟩, hday, rfl⟩ := List.mem_map.mp hkey
    exact exists_entry_of_day hday
  · rintro ⟨e, he, rfl⟩
    have hne : (putAll entries).slot? e.start.date e.rangeLabel ≠ none := by
      rw [slot?_putAll, ne_eq, Option.map_eq_none_iff, List.getLast?_eq_none_iff,
        List.filter_eq_nil_iff]
      intro hnone
      exact hnone e he (by simp)
    obtain ⟨slot, hslot⟩ := Option.ne_none_iff_exists'.mp hne
    obtain ⟨day, hday, -⟩ := Option.bind_eq_some_iff.mp hslot
    exact List.mem_map.mpr ⟨(e.start.date, day), Table.mem_of_lookup hday, rfl⟩

theorem startsWithin_of_le {anchor : Date} {days : Nat} {a b : ForecastEntry}
    (h : a.start ≤ b.start) (hb : startsWithin anchor days b = true) :
    startsWithin anchor days a = true := by
  unfold startsWithin at hb ⊢
  cases hend : lastMoment? anchor days with
  | none => rfl
  | some t =>
      rw [hend] at hb
      have hle : b.start ≤ t := of_decide_eq_true hb
      exact decide_eq_true (Int.le_trans h hle)

/-- An entry of the next day starts after the day. -/
theorem startsAfterDay_of_next {anchor : Date} {e : ForecastEntry}
    (hnext : e.start.date.number = anchor.number + 1) : startsAfterDay anchor e = true := by
  have hsome : anchor.next? = some e.start.date := by
    unfold Date.next? Date.addDays?
    rw [← hnext, Date.ofNumber?_number]
  unfold startsAfterDay
  rw [hsome]
  apply decide_eq_true
  rw [LocalTime.le_iff_rank, LocalTime.rank, LocalTime.rank]
  simp only [LocalTime.midnight, LocalTime.ofSecond, Bool.false_eq_true, if_false]
  omega

/-! ## The entries of a selection -/

/-- An entry of a later day than `anchor` may be shown: all are, or it stands for its day, and it
starts within the days asked for. -/
def MayShow (anchor : Date) (days : Nat) (detailed : Bool) (e : ForecastEntry) : Prop :=
  (detailed = true ∨ e.period = "2") ∧ startsWithin anchor days e = true

instance (anchor : Date) (days : Nat) (detailed : Bool) (e : ForecastEntry) :
    Decidable (MayShow anchor days detailed e) :=
  inferInstanceAs (Decidable (_ ∧ _))

variable {first e : ForecastEntry} {rest : List ForecastEntry} {days : Nat} {detailed : Bool}

theorem eq_or_mayShow_of_mem_selection (h : e ∈ selection (first :: rest) days detailed) :
    e ∈ first :: rest ∧ (e.start.date = first.start.date ∨
      (detailed = true ∨ days ≠ 1) ∧ MayShow first.start.date days detailed e) := by
  unfold selection at h
  cases detailed with
  | true =>
      obtain ⟨hmem, hwithin⟩ := List.mem_filter.mp h
      exact ⟨hmem, .inr ⟨.inl rfl, .inl rfl, hwithin⟩⟩
  | false =>
      rcases List.mem_append.mp h with h | h
      · have hdate := List.mem_takeWhile_imp h
        exact ⟨(List.takeWhile_sublist _).subset h, .inl (of_decide_eq_true hdate)⟩
      · obtain ⟨hmem, hshown⟩ := List.mem_filter.mp h
        simp only [Bool.and_eq_true, bne_iff_ne, ForecastEntry.isRepresentative,
          ForecastEntry.representativePeriod, beq_iff_eq] at hshown
        obtain ⟨⟨⟨hdays, -⟩, hperiod⟩, hwithin⟩ := hshown
        exact ⟨hmem, .inr ⟨.inr hdays, .inr hperiod, hwithin⟩⟩

theorem mem_selection_of_next (hmem : e ∈ first :: rest)
    (hnext : e.start.date.number = first.start.date.number + 1) (hdays : detailed = true ∨ days ≠ 1)
    (hshow : MayShow first.start.date days detailed e) :
    e ∈ selection (first :: rest) days detailed := by
  obtain ⟨hkind, hwithin⟩ := hshow
  unfold selection
  cases detailed with
  | true => exact List.mem_filter.mpr ⟨hmem, hwithin⟩
  | false =>
      have hperiod : e.period = "2" := hkind.resolve_left Bool.false_ne_true
      have hmany : days ≠ 1 := hdays.resolve_left Bool.false_ne_true
      apply List.mem_append_right
      apply List.mem_filter.mpr
      refine ⟨hmem, ?_⟩
      simp only [Bool.and_eq_true, bne_iff_ne, ForecastEntry.isRepresentative,
        ForecastEntry.representativePeriod, beq_iff_eq]
      exact ⟨⟨⟨hmany, startsAfterDay_of_next hnext⟩, hperiod⟩, hwithin⟩

theorem first_start_le (hascending : (first :: rest).Pairwise fun a b => a.start ≤ b.start)
    (he : e ∈ first :: rest) : first.start ≤ e.start := by
  rcases List.mem_cons.mp he with rfl | he
  · exact Int.le_refl _
  · exact (List.pairwise_cons.mp hascending).1 e he

/-- When anything is selected, so is the first entry. -/
theorem first_mem_selection (hascending : (first :: rest).Pairwise fun a b => a.start ≤ b.start)
    (he : e ∈ selection (first :: rest) days detailed) :
    first ∈ selection (first :: rest) days detailed := by
  unfold selection at he ⊢
  cases detailed with
  | true =>
      obtain ⟨hmem, hwithin⟩ := List.mem_filter.mp he
      have hle : first.start ≤ e.start := first_start_le hascending hmem
      exact List.mem_filter.mpr ⟨List.mem_cons_self, startsWithin_of_le hle hwithin⟩
  | false =>
      apply List.mem_append_left
      rw [List.takeWhile_cons_of_pos (by simp)]
      exact List.mem_cons_self

/-! ## The dates of a selection -/

theorem pairwise_keys_select (entries : List ForecastEntry) (days : Nat) (detailed : Bool) :
    (select entries days detailed).keys.Pairwise (· < ·) :=
  List.pairwise_map.mpr (arranged_putAll _).ascending

theorem mem_keys_select {entries : List ForecastEntry} :
    date ∈ (select entries days detailed).keys ↔
      ∃ e ∈ selection entries days detailed, e.start.date = date :=
  mem_keys_putAll

/-- The first date of a selection is the one on which the first entry starts. -/
theorem first_key_select (hascending : (first :: rest).Pairwise fun a b => a.start ≤ b.start)
    {later : List Date} (hkeys : (select (first :: rest) days detailed).keys = date :: later) :
    date = first.start.date := by
  have hsorted := pairwise_keys_select (first :: rest) days detailed
  rw [hkeys] at hsorted
  have hdate : date ∈ (select (first :: rest) days detailed).keys := by
    rw [hkeys]
    exact List.mem_cons_self
  obtain ⟨e, he, hshown⟩ := mem_keys_select.mp hdate
  have hle : first.start.date ≤ date := by
    rw [← hshown]
    exact date_le_of_start_le (first_start_le hascending (eq_or_mayShow_of_mem_selection he).1)
  -- The first entry is shown as well, so its date is not before the first one either.
  have hfirst : first.start.date ∈ (select (first :: rest) days detailed).keys :=
    mem_keys_select.mpr ⟨first, first_mem_selection hascending he, rfl⟩
  rw [hkeys] at hfirst
  rcases List.mem_cons.mp hfirst with heq | hlater
  · exact heq.symm
  · have hlt : date < first.start.date := (List.pairwise_cons.mp hsorted).1 _ hlater
    exact absurd hlt (Int.not_lt.mpr hle)

/-- The second date of a selection is the day after the first one exactly when an entry of that day
may be shown. -/
theorem second_key_select_next_iff
    (hascending : (first :: rest).Pairwise fun a b => a.start ≤ b.start) {next : Date}
    {later : List Date}
    (hkeys : (select (first :: rest) days detailed).keys = date :: next :: later) :
    next.number = date.number + 1 ↔
      ∃ e ∈ first :: rest, e.start.date.number = date.number + 1 ∧
        MayShow date days detailed e := by
  obtain rfl : date = first.start.date := first_key_select hascending hkeys
  have hsorted := pairwise_keys_select (first :: rest) days detailed
  rw [hkeys] at hsorted
  obtain ⟨hbehindFirst, hbehind⟩ := List.pairwise_cons.mp hsorted
  have hlt : first.start.date < next := hbehindFirst _ List.mem_cons_self
  have hnextMem : next ∈ (select (first :: rest) days detailed).keys := by
    rw [hkeys]
    exact List.mem_cons_of_mem _ List.mem_cons_self
  obtain ⟨shown, hshown, rfl⟩ := mem_keys_select.mp hnextMem
  -- The second date is not that of the first entry, so its entry is there because it may be shown.
  obtain ⟨hmem, hsame | ⟨hmany, hmay⟩⟩ := eq_or_mayShow_of_mem_selection hshown
  · rw [hsame] at hlt
    exact absurd hlt (Date.lt_irrefl _)
  · constructor
    · intro hnext
      exact ⟨shown, hmem, hnext, hmay⟩
    · rintro ⟨e, he, hnext, hshow⟩
      have hkey : e.start.date ∈ (select (first :: rest) days detailed).keys :=
        mem_keys_select.mpr ⟨e, mem_selection_of_next he hnext hmany hshow, rfl⟩
      rw [hkeys] at hkey
      rw [Date.lt_iff_number] at hlt
      rcases List.mem_cons.mp hkey with heq | hkey
      · rw [heq] at hnext
        omega
      · rcases List.mem_cons.mp hkey with heq | hkey
        · rw [← heq]
          exact hnext
        · have habove : shown.start.date < e.start.date := (List.pairwise_cons.mp hbehind).1 _ hkey
          rw [Date.lt_iff_number] at habove
          omega

/-! ## Relative labels and dates -/

/-- Which day the report about a selection calls tomorrow, for entries that start one after the other
or together.

It is the second day, behind the only one called today; that is the date on which the first entry
starts, and the day called tomorrow is later, and earlier than all that follow it.  It is the day
after today exactly when an entry of that day may be shown. -/
theorem tomorrow_next_iff {p : Presenter} {place : Place} {offset : Int} {warning : Option String}
    {report : WeatherReport} {entries : List ForecastEntry} {days : Nat} {detailed : Bool}
    {tomorrow : DayReport} (hascending : entries.Pairwise fun a b => a.start ≤ b.start)
    (hrender : p.render place (select entries days detailed) offset warning = .ok report)
    (hmem : tomorrow ∈ report.days) (htomorrow : tomorrow.IsTomorrow) :
    ∃ today later, report.days = today :: tomorrow :: later ∧
      today.IsToday ∧ (∀ other ∈ tomorrow :: later, ¬ other.IsToday) ∧
      (∃ first ∈ entries.head?, today.date = first.start.date) ∧
      today.date < tomorrow.date ∧ (∀ other ∈ later, tomorrow.date < other.date) ∧
      (tomorrow.date.number = today.date.number + 1 ↔
        ∃ e ∈ entries, e.start.date.number = today.date.number + 1 ∧
          MayShow today.date days detailed e) := by
  obtain ⟨today, later, hdays, htoday, honly⟩ :=
    Presenter.days_of_isTomorrow hrender hmem htomorrow
  have hkeys : (select entries days detailed).keys =
      today.date :: tomorrow.date :: later.map DayReport.date := by
    rw [← Presenter.dates_of_render hrender, hdays]
    rfl
  have hsorted := pairwise_keys_select entries days detailed
  rw [hkeys] at hsorted
  obtain ⟨hbehindToday, hbehind⟩ := List.pairwise_cons.mp hsorted
  have hlater : ∀ other ∈ later, tomorrow.date < other.date := fun other hother =>
    (List.pairwise_cons.mp hbehind).1 _ (List.mem_map_of_mem hother)
  cases entries with
  | nil => cases hkeys
  | cons first rest =>
      exact ⟨today, later, hdays, htoday, honly, ⟨first, rfl, first_key_select hascending hkeys⟩,
        hbehindToday _ List.mem_cons_self, hlater, second_key_select_next_iff hascending hkeys⟩

/-! ## Two days, next to each other and apart -/

/-- A report about two dates calls the second one tomorrow. -/
theorem exists_tomorrow_of_keys {p : Presenter} {place : Place} {daily : DailyForecasts}
    {offset : Int} {warning : Option String} {report : WeatherReport} {first second : Date}
    (hrender : p.render place daily offset warning = .ok report)
    (hkeys : daily.keys = [first, second]) :
    ∃ today tomorrow, report.days = [today, tomorrow] ∧ today.date = first ∧ today.IsToday ∧
      tomorrow.date = second ∧ tomorrow.IsTomorrow := by
  have hdates := Presenter.dates_of_render hrender
  rw [hkeys] at hdates
  obtain ⟨today, _, hdays, hfirst, hrest⟩ := List.map_eq_cons_iff.mp hdates
  obtain ⟨tomorrow, _, rfl, hsecond, hrest⟩ := List.map_eq_cons_iff.mp hrest
  obtain rfl := List.map_eq_nil_iff.mp hrest
  have htoday : today.IsToday :=
    (Presenter.isToday_iff (i := 0) hrender (by rw [hdays]; rfl)).mpr rfl
  have htomorrow : tomorrow.IsTomorrow :=
    (Presenter.isTomorrow_iff (i := 1) hrender (by rw [hdays]; rfl)).mpr rfl
  exact ⟨today, tomorrow, hdays, hfirst, htoday, hsecond, htomorrow⟩

/-- The evening of the first day, then the afternoon of a later one. -/
def eveningAndAfternoon (later : Fin 10) : List ForecastEntry :=
  [spanEntry (.ofSecond (dayAfterEpoch 0) (18 * 3600) (by decide)) (.midnight (dayAfterEpoch 1)) "3",
    spanEntry (.ofSecond (dayAfterEpoch later) (12 * 3600) (by decide))
      (.ofSecond (dayAfterEpoch later) (18 * 3600) (by decide)) "2"]

/-- With an afternoon on the next day that day is called tomorrow. -/
theorem tomorrow_next_iff_adjacent :
    (eveningAndAfternoon 1).Pairwise (fun a b => a.start ≤ b.start) ∧
    ∃ report today tomorrow,
      plainPresenter.render originPlace (select (eveningAndAfternoon 1) 0 false) 0 none =
        .ok report ∧
      tomorrow ∈ report.days ∧ tomorrow.IsTomorrow ∧ report.days.head? = some today ∧
      tomorrow.date.number = today.date.number + 1 := by
  have hascending : (eveningAndAfternoon 1).Pairwise fun a b => a.start ≤ b.start := by decide
  obtain ⟨report, hreport⟩ := Presenter.exists_render (p := plainPresenter) rfl originPlace
    (select (eveningAndAfternoon 1) 0 false) 0 none
  have hkeys : (select (eveningAndAfternoon 1) 0 false).keys =
      [dayAfterEpoch 0, dayAfterEpoch 1] := by decide +kernel
  obtain ⟨_, tomorrow, hdays, -, -, -, htomorrow⟩ := exists_tomorrow_of_keys hreport hkeys
  have hmem : tomorrow ∈ report.days := by rw [hdays]; simp
  obtain ⟨today, later, hlist, -, -, ⟨first, hfirst, hdate⟩, -, -, hnext⟩ :=
    tomorrow_next_iff hascending hreport hmem htomorrow
  refine ⟨hascending, report, today, tomorrow, hreport, hmem, htomorrow, by rw [hlist]; rfl, ?_⟩
  apply hnext.mpr
  cases hfirst
  rw [hdate]
  exact ⟨_, List.mem_cons_of_mem _ List.mem_cons_self, by decide, by decide +kernel⟩

/-- When the next day has no afternoon, the day after it is called tomorrow. -/
theorem tomorrow_after_gap :
    (eveningAndAfternoon 2).Pairwise (fun a b => a.start ≤ b.start) ∧
    ∃ report today tomorrow,
      plainPresenter.render originPlace (select (eveningAndAfternoon 2) 0 false) 0 none =
        .ok report ∧
      today ∈ report.days ∧ today.IsToday ∧ tomorrow ∈ report.days ∧ tomorrow.IsTomorrow ∧
      tomorrow.date.number = today.date.number + 2 := by
  obtain ⟨report, hreport⟩ := Presenter.exists_render (p := plainPresenter) rfl originPlace
    (select (eveningAndAfternoon 2) 0 false) 0 none
  have hkeys : (select (eveningAndAfternoon 2) 0 false).keys =
      [dayAfterEpoch 0, dayAfterEpoch 2] := by decide +kernel
  obtain ⟨today, tomorrow, hdays, hfirst, htoday, hsecond, htomorrow⟩ :=
    exists_tomorrow_of_keys hreport hkeys
  have hmem : today ∈ report.days ∧ tomorrow ∈ report.days := by
    rw [hdays]
    simp
  refine ⟨by decide, report, today, tomorrow, hreport, hmem.1, htoday, hmem.2, htomorrow, ?_⟩
  rw [hfirst, hsecond]
  rfl

end DailyForecasts

end PlaceWeather
