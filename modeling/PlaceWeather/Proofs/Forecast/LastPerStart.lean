import PlaceWeather.Forecast.Entry
import PlaceWeather.Proofs.Table

/-!
# One entry for each start

A forecast set made of a list of entries holds one of them for each start, the last one, in the
order of the starts (`lastPerStart_ofEntries`).
-/

namespace PlaceWeather

namespace LocalTime

theorem lt_irrefl (t : LocalTime) : ¬ t < t := Int.lt_irrefl t.rank

theorem lt_trans {t u v : LocalTime} (htu : t < u) (huv : u < v) : t < v := Int.lt_trans htu huv

theorem lt_of_ne_of_not_lt {t u : LocalTime} (hne : ¬ t = u) (hlt : ¬ u < t) : t < u := by
  rw [lt_iff_rank] at hlt ⊢
  have hrank : t.rank ≠ u.rank := fun h => hne (eq_of_rank_eq h)
  omega

end LocalTime

/-- `stored` has one of the `given` entries for each start among them, the last one, in the order of
the starts. -/
structure LastPerStart (given stored : List ForecastEntry) : Prop where
  ascending : stored.Pairwise fun a b => a.start < b.start
  mem_iff : ∀ e, e ∈ stored ↔ (given.filter fun other => other.start = e.start).getLast? = some e

theorem LastPerStart.mem_given {given stored : List ForecastEntry} (h : LastPerStart given stored)
    {e : ForecastEntry} (he : e ∈ stored) : e ∈ given :=
  (List.mem_filter.mp (List.mem_of_getLast? ((h.mem_iff e).mp he))).1

namespace ForecastSet

theorem mem_entries_ofEntries {given : List ForecastEntry} {t : LocalTime} {e : ForecastEntry} :
    (t, e) ∈ (ofEntries given).entries ↔
      (given.filter fun other => other.start = t).getLast? = some e := by
  have hmap : (given.map fun other => (other.start, other)).filter (fun entry => entry.1 = t) =
      (given.filter fun other => other.start = t).map fun other => (other.start, other) := by
    rw [List.filter_map]
    rfl
  have hvalue : ∀ last : Option ForecastEntry,
      (last.map fun other => (other.start, other)).map Prod.snd = last := by
    rintro (_ | last) <;> rfl
  unfold ofEntries
  rw [Table.mem_ofList LocalTime.lt_irrefl LocalTime.lt_trans LocalTime.lt_of_ne_of_not_lt, hmap,
    List.getLast?_map, hvalue]

/-- Each entry of a set stands under its own start. -/
theorem start_of_mem_ofEntries {given : List ForecastEntry} {t : LocalTime} {e : ForecastEntry}
    (h : (t, e) ∈ (ofEntries given).entries) : t = e.start := by
  have hmem := List.mem_of_getLast? (mem_entries_ofEntries.mp h)
  exact (of_decide_eq_true (List.mem_filter.mp hmem).2).symm

theorem lastPerStart_ofEntries (given : List ForecastEntry) :
    LastPerStart given (ofEntries given).values where
  ascending := by
    -- The set is ordered by its keys, and each key is the start of its entry.
    have hkeys : (ofEntries given).Ascending :=
      Table.ascending_ofList LocalTime.lt_trans LocalTime.lt_of_ne_of_not_lt _
    refine List.pairwise_map.mpr (hkeys.imp_of_mem ?_)
    intro a b ha hb hlt
    rw [start_of_mem_ofEntries ha, start_of_mem_ofEntries hb] at hlt
    exact hlt
  mem_iff e := by
    rw [← mem_entries_ofEntries]
    constructor
    · intro h
      obtain ⟨⟨t, e'⟩, hmem, rfl⟩ := List.mem_map.mp h
      have hstart := start_of_mem_ofEntries hmem
      rw [hstart] at hmem
      exact hmem
    · exact fun h => List.mem_map_of_mem h

end ForecastSet

end PlaceWeather
