import Mathlib.Data.List.Sort
import PlaceWeather.Proofs.Calendar.RoundTrip
import PlaceWeather.Proofs.Forecast.Selection

/-!
# Labels in order

The slots of a day stand in the order of their labels, which are texts.  A label begins with the
clock time of the start of its entry, written with the same width for every time, so where entries
start at whole minutes the order of labels is the order of starts (`rangeLabel_lt`).  Then nothing
is lost and nothing is merged when entries are put under their dates and labels: the slots of all
days, one day after the other, are the entries in their order (`listing_putAll`).
-/

namespace PlaceWeather

/-! ## Clock times as texts -/

namespace Stamp

/-- The earlier of two minutes of a day comes first, whatever follows its text. -/
theorem clockChars_append_lt {t u : LocalTime} (h : t.second / 60 < u.second / 60)
    (cs ds : List Char) : clockChars t ++ cs < clockChars u ++ ds := by
  have hhour := u.hour_le
  have hminute := u.minute_le
  have hsplit : t.hour < u.hour ∨ (t.hour = u.hour ∧ t.minute < u.minute) := by
    unfold LocalTime.hour LocalTime.minute
    omega
  unfold clockChars twoChars
  rw [List.append_assoc, List.append_assoc]
  rcases hsplit with hlt | ⟨heq, hlt⟩
  · exact Decimal.zeroPadded_two_append_lt hlt (by omega) _ _
  · -- The hours are the same text, and so is the colon.
    rw [heq]
    apply List.append_left_lt
    apply List.cons_lt_cons_iff.mpr
    exact .inr ⟨rfl, Decimal.zeroPadded_two_append_lt hlt (by omega) _ _⟩

end Stamp

namespace LocalTime

theorem leap_of_secondOfMinute {t : LocalTime} (h : t.secondOfMinute = 0) : t.leap = false := by
  cases hleap : t.leap with
  | false => rfl
  | true =>
      have hend : t.second % 60 = 59 := t.endsMinute hleap
      unfold secondOfMinute at h
      omega

/-- A time before a whole minute of the same date belongs to an earlier minute. -/
theorem minute_lt_of_lt {t u : LocalTime} (hdate : t.date = u.date) (hu : u.secondOfMinute = 0)
    (h : t < u) : t.second / 60 < u.second / 60 := by
  have hwhole : u.second % 60 = 0 := by
    unfold secondOfMinute at hu
    omega
  have hrank : t.rank < u.rank := h
  have ht : 2 * (86400 * u.date.number + t.second) ≤ t.rank := by
    unfold rank
    rw [hdate]
    omega
  have hu : u.rank = 2 * (86400 * u.date.number + u.second) := by
    simp [rank, leap_of_secondOfMinute hu]
  omega

end LocalTime

namespace DailyForecasts

theorem toList_rangeLabel (e : ForecastEntry) :
    e.rangeLabel.toList = Stamp.clockChars e.start ++ ('-' :: Stamp.clockChars e.finish) := by
  unfold ForecastEntry.rangeLabel LocalTime.clockText
  rw [String.toList_append, String.toList_append, String.toList_ofList, String.toList_ofList,
    String.toList_ofList, List.append_assoc]
  rfl

/-- The label of the earlier of two entries of a date comes first. -/
theorem rangeLabel_lt {a b : ForecastEntry} (hdate : a.start.date = b.start.date)
    (hb : b.start.secondOfMinute = 0) (h : a.start < b.start) : a.rangeLabel < b.rangeLabel := by
  have hminute : a.start.second / 60 < b.start.second / 60 :=
    LocalTime.minute_lt_of_lt hdate hb h
  apply String.lt_iff.mpr
  rw [toList_rangeLabel, toList_rangeLabel]
  exact Stamp.clockChars_append_lt hminute _ _

/-! ## The slots of all days -/

/-- The slots of all days with their dates and labels, one day after the other. -/
def listing (daily : DailyForecasts) : List (Date × String × ForecastSlot) :=
  daily.entries.flatMap fun (date, day) =>
    day.entries.map fun (label, slot) => (date, label, slot)

/-- The date is earlier, or it is the same one and the label comes first. -/
def Before (a b : Date × String × ForecastSlot) : Prop :=
  a.1 < b.1 ∨ (a.1 = b.1 ∧ a.2.1 < b.2.1)

theorem Before.irrefl (a : Date × String × ForecastSlot) : ¬ Before a a := by
  rintro (hdate | ⟨-, hlabel⟩)
  · exact Date.lt_irrefl _ hdate
  · exact String.lt_irrefl _ hlabel

theorem Before.asymm {a b : Date × String × ForecastSlot} (hab : Before a b) : ¬ Before b a := by
  rintro (hdate | ⟨hdate, hlabel⟩)
  · rcases hab with hlt | ⟨heq, -⟩
    · exact Date.lt_irrefl _ (Date.lt_trans hlt hdate)
    · exact Date.lt_irrefl _ (heq ▸ hdate)
  · rcases hab with hlt | ⟨-, hlt⟩
    · exact Date.lt_irrefl _ (hdate ▸ hlt)
    · exact String.lt_irrefl _ (String.lt_trans hlt hlabel)

theorem Arranged.pairwise_listing {daily : DailyForecasts} (h : daily.Arranged) :
    daily.listing.Pairwise Before := by
  apply List.pairwise_flatMap.mpr
  constructor
  · rintro ⟨date, day⟩ hday
    refine List.pairwise_map.mpr ((h.labels date day hday).imp ?_)
    exact fun hlabel => .inr ⟨rfl, hlabel⟩
  · refine h.ascending.imp ?_
    rintro ⟨date, day⟩ ⟨later, laterDay⟩ hdate x hx y hy
    obtain ⟨_, -, rfl⟩ := List.mem_map.mp hx
    obtain ⟨_, -, rfl⟩ := List.mem_map.mp hy
    exact .inl hdate

theorem Arranged.mem_listing {daily : DailyForecasts} (h : daily.Arranged) {date : Date}
    {label : String} {slot : ForecastSlot} :
    (date, label, slot) ∈ daily.listing ↔ daily.slot? date label = some slot := by
  constructor
  · intro hmem
    obtain ⟨⟨d, day⟩, hday, hslot⟩ := List.mem_flatMap.mp hmem
    obtain ⟨⟨l, s⟩, hentry, heq⟩ := List.mem_map.mp hslot
    cases heq
    have hget : daily.get? date = some day := h.ascending.lookup_of_mem Date.lt_irrefl hday
    have hlabel : day.get? label = some slot :=
      (h.labels date day hday).lookup_of_mem String.lt_irrefl hentry
    rw [slot?, hget, Option.bind_some, hlabel]
  · intro hsome
    obtain ⟨day, hday, hslot⟩ := Option.bind_eq_some_iff.mp hsome
    apply List.mem_flatMap.mpr
    refine ⟨(date, day), Table.mem_of_lookup hday, ?_⟩
    apply List.mem_map.mpr
    exact ⟨(label, slot), Table.mem_of_lookup hslot, rfl⟩

/-- An entry as it stands among the slots of all days. -/
def listed (e : ForecastEntry) : Date × String × ForecastSlot :=
  (e.start.date, e.rangeLabel, e.slot)

variable {entries : List ForecastEntry}

theorem pairwise_listed (hascending : entries.Pairwise fun a b => a.start < b.start)
    (hminute : ∀ e ∈ entries, e.start.secondOfMinute = 0) :
    (entries.map listed).Pairwise Before := by
  refine List.pairwise_map.mpr (hascending.imp_of_mem ?_)
  intro a b _ hb hlt
  by_cases hdate : a.start.date = b.start.date
  · exact .inr ⟨hdate, rangeLabel_lt hdate (hminute b hb) hlt⟩
  · have hle : a.start.date ≤ b.start.date :=
      date_le_of_start_le (Int.le_of_lt hlt)
    apply Or.inl
    apply Date.lt_of_ne_of_not_lt hdate
    exact Int.not_lt.mpr hle

/-- An entry is the last one with its date and its label, since it is the only one. -/
theorem slot?_putAll_of_mem (hascending : entries.Pairwise fun a b => a.start < b.start)
    (hminute : ∀ e ∈ entries, e.start.secondOfMinute = 0) {e : ForecastEntry} (he : e ∈ entries) :
    (putAll entries).slot? e.start.date e.rangeLabel = some e.slot := by
  have hlast : (entries.filter fun other =>
      other.start.date = e.start.date ∧ other.rangeLabel = e.rangeLabel).getLast? = some e := by
    apply (getLast?_eq_some_iff_latest (hascending.filter _) e).mpr
    refine ⟨List.mem_filter.mpr ⟨he, by simp⟩, ?_⟩
    intro other hother
    obtain ⟨hmem, hkey⟩ := List.mem_filter.mp hother
    obtain ⟨hdate, hlabel⟩ := of_decide_eq_true hkey
    -- A later entry of the date would have another label.
    apply Int.not_lt.mp
    intro hlater
    have hlt : e.rangeLabel < other.rangeLabel :=
      rangeLabel_lt hdate.symm (hminute other hmem) hlater
    rw [hlabel] at hlt
    exact String.lt_irrefl _ hlt
  rw [slot?_putAll, hlast, Option.map_some]

/-- Put under their dates and labels, entries that start at whole minutes are listed in their
order. -/
theorem listing_putAll (hascending : entries.Pairwise fun a b => a.start < b.start)
    (hminute : ∀ e ∈ entries, e.start.secondOfMinute = 0) :
    (putAll entries).listing = entries.map listed := by
  have harranged : (putAll entries).Arranged := arranged_putAll entries
  have hmem : ∀ x, x ∈ (putAll entries).listing ↔ x ∈ entries.map listed := by
    rintro ⟨date, label, slot⟩
    rw [harranged.mem_listing]
    constructor
    · intro hslot
      rw [slot?_putAll, Option.map_eq_some_iff] at hslot
      obtain ⟨e, hlast, rfl⟩ := hslot
      obtain ⟨he, hkey⟩ := List.mem_filter.mp (List.mem_of_getLast? hlast)
      obtain ⟨rfl, rfl⟩ := of_decide_eq_true hkey
      exact List.mem_map_of_mem he
    · intro hlisted
      obtain ⟨e, he, heq⟩ := List.mem_map.mp hlisted
      cases heq
      exact slot?_putAll_of_mem hascending hminute he
  -- Both lists are in one strict order, so having the same members they are equal.
  have : Std.Irrefl Before := ⟨Before.irrefl⟩
  have : Std.Antisymm Before := ⟨fun _ _ hab hba => absurd hba hab.asymm⟩
  exact harranged.pairwise_listing.eq_of_mem_iff (pairwise_listed hascending hminute) hmem

end DailyForecasts

end PlaceWeather
