import Mathlib.Algebra.Ring.Int.Defs
import PlaceWeather.Proofs.Calendar.Sum
import PlaceWeather.Schedule.Retry

/-!
# The retry ladder

The rungs of the ladder are 675 seconds doubled up to six times, and all whole days.  The interval
that is tried is the least rung that leads past the present: `leadsPast_retryInterval` says that it
does, `retryInterval_le` that no smaller rung does.  So the next attempt lies behind the present
(`lt_nextAttempt?`) and on the ladder (`onLadder_of_nextAttempt?`).
-/

namespace PlaceWeather.Schedule

/-- A rung of the retry ladder, in seconds. -/
def IsRung (b : Int) : Prop :=
  (∃ k : Nat, k ≤ 6 ∧ b = 675 * 2 ^ k) ∨ ∃ m : Nat, 1 ≤ m ∧ b = 86400 * m

theorem mem_shortIntervals {b : Int} : b ∈ shortIntervals ↔ ∃ k : Nat, k ≤ 6 ∧ b = 675 * 2 ^ k := by
  constructor
  · intro h
    simp only [shortIntervals, List.mem_cons, List.not_mem_nil, or_false] at h
    rcases h with rfl | rfl | rfl | rfl | rfl | rfl | rfl
    · exact ⟨0, by decide, rfl⟩
    · exact ⟨1, by decide, rfl⟩
    · exact ⟨2, by decide, rfl⟩
    · exact ⟨3, by decide, rfl⟩
    · exact ⟨4, by decide, rfl⟩
    · exact ⟨5, by decide, rfl⟩
    · exact ⟨6, by decide, rfl⟩
  · rintro ⟨k, hk, rfl⟩
    have hcases : ∀ k ≤ 6, (675 * 2 ^ k : Int) ∈ shortIntervals := by decide
    exact hcases k hk

theorem pos_of_mem_shortIntervals {b : Int} (h : b ∈ shortIntervals) : 0 < b := by
  have hall : ∀ b ∈ shortIntervals, 0 < b := by decide
  exact hall b h

theorem IsRung.pos {b : Int} (h : IsRung b) : 0 < b := by
  rcases h with hshort | ⟨m, hm, rfl⟩
  · exact pos_of_mem_shortIntervals (mem_shortIntervals.mpr hshort)
  · omega

/-- What leads past the present is decided by ranks alone, also beyond the calendar. -/
theorem leadsPast_iff {reference now : Instant} {b : Int} (hb : 0 < b) :
    leadsPast reference now b = true ↔ now.utc.rank < 2 * (reference.secondNumber + b) := by
  unfold leadsPast
  cases h : reference.addSeconds? b with
  | none =>
      -- Beyond the calendar the sum lies behind every instant there is.
      simpa using Instant.lt_of_addSeconds?_eq_none hb h now
  | some t =>
      rw [decide_eq_true_iff, Instant.lt_iff_rank, Instant.rank_of_addSeconds? hb h]

theorem daysPast_pos (reference now : Instant) : 1 ≤ daysPast reference now := by
  simp only [daysPast]
  omega

/-- A number of whole days leads past the present from `daysPast` on. -/
theorem daysPast_le_iff {reference now : Instant} {m : Int} (hm : 1 ≤ m) :
    daysPast reference now ≤ m ↔ now.utc.rank < 2 * (reference.secondNumber + 86400 * m) := by
  simp only [daysPast, daySeconds, Instant.secondNumber]
  omega

/-! ## The least rung past the present -/

/-- The interval is the first short rung that leads past the present, or else `daysPast` days. -/
theorem retryInterval_cases (reference now : Instant) :
    (∃ before after, shortIntervals = before ++ retryInterval reference now :: after ∧
        leadsPast reference now (retryInterval reference now) = true ∧
        ∀ b ∈ before, leadsPast reference now b = false) ∨
      (retryInterval reference now = 86400 * daysPast reference now ∧
        ∀ b ∈ shortIntervals, leadsPast reference now b = false) := by
  unfold retryInterval
  cases h : shortIntervals.find? (leadsPast reference now) with
  | some b =>
      obtain ⟨hpast, before, after, hsplit, hbefore⟩ := List.find?_eq_some_iff_append.mp h
      exact .inl ⟨before, after, hsplit, hpast, fun c hc => by simpa using hbefore c hc⟩
  | none => exact .inr ⟨rfl, fun b hb => by simpa using List.find?_eq_none.mp h b hb⟩

theorem isRung_retryInterval (reference now : Instant) :
    IsRung (retryInterval reference now) := by
  rcases retryInterval_cases reference now with ⟨before, after, hsplit, -, -⟩ | ⟨hdays, -⟩
  · refine .inl (mem_shortIntervals.mp ?_)
    rw [hsplit]
    exact List.mem_append_right before List.mem_cons_self
  · have hpos := daysPast_pos reference now
    refine .inr ⟨(daysPast reference now).toNat, by omega, ?_⟩
    rw [hdays]
    omega

theorem leadsPast_retryInterval (reference now : Instant) :
    leadsPast reference now (retryInterval reference now) = true := by
  rcases retryInterval_cases reference now with ⟨_, _, -, hpast, -⟩ | ⟨hdays, -⟩
  · exact hpast
  · have hpos := daysPast_pos reference now
    rw [hdays, leadsPast_iff (by omega)]
    exact (daysPast_le_iff hpos).mp (Int.le_refl _)

/-- No rung below the interval leads past the present. -/
theorem retryInterval_le {reference now : Instant} {b : Int} (hb : IsRung b)
    (hpast : leadsPast reference now b = true) : retryInterval reference now ≤ b := by
  have hsorted : shortIntervals.Pairwise (· < ·) := by decide
  have hshort : ∀ c ∈ shortIntervals, c < 86400 := by decide
  rcases retryInterval_cases reference now with ⟨before, after, hsplit, -, hbefore⟩ | ⟨hdays, hnone⟩
  · rcases hb with hk | ⟨m, hm, rfl⟩
    · -- A short rung that leads past the present is not before the first one that does.
      have hmem := mem_shortIntervals.mpr hk
      rw [hsplit, List.mem_append, List.mem_cons] at hmem
      rw [hsplit, List.pairwise_append, List.pairwise_cons] at hsorted
      rcases hmem with hb | rfl | ha
      · exact absurd hpast (by simp [hbefore b hb])
      · exact Int.le_refl _
      · exact Int.le_of_lt (hsorted.2.1.1 b ha)
    · have hlt := hshort (retryInterval reference now)
        (by rw [hsplit]; exact List.mem_append_right before List.mem_cons_self)
      omega
  · rcases hb with hk | ⟨m, hm, rfl⟩
    · exact absurd hpast (by simp [hnone b (mem_shortIntervals.mpr hk)])
    · -- No short rung leads so far; `daysPast` is the least number of days that does.
      rw [leadsPast_iff (by omega)] at hpast
      have hle := (daysPast_le_iff (by omega)).mpr hpast
      omega

/-! ## The next attempt -/

/-- The next attempt lies behind the present, one rung behind the reference. -/
theorem lt_nextAttempt? {reference now t : Instant} (h : nextAttempt? reference now = some t) :
    now < t := by
  have hpos := (isRung_retryInterval reference now).pos
  have hpast := leadsPast_retryInterval reference now
  rw [leadsPast_iff hpos] at hpast
  rw [Instant.lt_iff_rank, Instant.rank_of_addSeconds? hpos h]
  exact hpast

/-- While the calendar goes on for a day, there is a next attempt after a reference that has passed:
the least rung past the present leads at most a day past it. -/
theorem nextAttempt?_ne_none {reference now day : Instant} (hpassed : reference ≤ now)
    (hday : now.addSeconds? 86400 = some day) : nextAttempt? reference now ≠ none := by
  intro hnone
  have hleft := Instant.lt_of_addSeconds?_eq_none (isRung_retryInterval reference now).pos hnone day
  rw [Instant.rank_of_addSeconds? (by decide) hday] at hleft
  have hreference := reference.secondNumber_le_rank
  have hnow := now.rank_le_secondNumber
  rw [Instant.le_iff_rank] at hpassed
  -- So many whole days lead past the present, and not further than a day.
  obtain ⟨m, hm⟩ : ∃ m : Nat, (m : Int) = (now.secondNumber - reference.secondNumber) / 86400 + 1 :=
    ⟨((now.secondNumber - reference.secondNumber) / 86400 + 1).toNat, by omega⟩
  have hpast : leadsPast reference now (86400 * m) = true := by
    rw [leadsPast_iff (by omega)]
    omega
  have hrung := retryInterval_le (.inr ⟨m, by omega, rfl⟩) hpast
  omega

/-- An attempt that lies one rung of the ladder behind a reference. -/
def OnLadder (reference t : Instant) : Prop := ∃ b, IsRung b ∧ reference.addSeconds? b = some t

theorem onLadder_of_nextAttempt? {reference now t : Instant}
    (h : nextAttempt? reference now = some t) : OnLadder reference t :=
  ⟨retryInterval reference now, isRung_retryInterval reference now, h⟩

/-! ## Backed-off schedules -/

/-- Two schedules with the same announced updates and offset; the next attempts may differ. -/
def SameUpdates (s t : Schedule) : Prop :=
  t.lastUpdate = s.lastUpdate ∧ t.nextUpdate = s.nextUpdate ∧ t.utcOffset = s.utcOffset

theorem SameUpdates.refl (s : Schedule) : SameUpdates s s := ⟨rfl, rfl, rfl⟩

theorem SameUpdates.trans {s t u : Schedule} (hst : SameUpdates s t) (htu : SameUpdates t u) :
    SameUpdates s u :=
  ⟨htu.1.trans hst.1, htu.2.1.trans hst.2.1, htu.2.2.trans hst.2.2⟩

/-- All there is to know about a schedule that was put off. -/
theorem backedOff?_eq_some {s t : Schedule} {now : Instant} (h : s.backedOff? now = some t) :
    nextAttempt? s.nextUpdate now = some t.nextAttempt ∧
      t = { s with nextAttempt := t.nextAttempt } := by
  rw [backedOff?, Option.map_eq_some_iff] at h
  obtain ⟨u, hu, rfl⟩ := h
  exact ⟨hu, rfl⟩

theorem sameUpdates_of_backedOff? {s t : Schedule} {now : Instant}
    (h : s.backedOff? now = some t) : SameUpdates s t := by
  rw [(backedOff?_eq_some h).2]
  exact ⟨rfl, rfl, rfl⟩

end PlaceWeather.Schedule
