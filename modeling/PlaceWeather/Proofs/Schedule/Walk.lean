import Mathlib.Data.List.Perm.Subperm
import PlaceWeather.Proofs.Schedule.Ladder

/-!
# The retry budget

A walk through clock readings, in any order, puts a schedule off whenever it is due.  Each step that
does so moves the next attempt behind the reading that made it due, so the attempts ascend; each of
them is a rung behind the announced update, and there are only `m + 7` rungs up to `m` days.
-/

namespace PlaceWeather.Schedule

/-- The next attempts set by the steps that found the schedule due. -/
def attemptsSet (steps : List (Bool × Schedule)) : List Instant :=
  (steps.filter (·.1)).map (·.2.nextAttempt)

theorem attemptsSet_cons_due (t : Schedule) (steps : List (Bool × Schedule)) :
    attemptsSet ((true, t) :: steps) = t.nextAttempt :: attemptsSet steps := rfl

theorem attemptsSet_cons_early (t : Schedule) (steps : List (Bool × Schedule)) :
    attemptsSet ((false, t) :: steps) = attemptsSet steps := rfl

theorem length_attemptsSet (steps : List (Bool × Schedule)) :
    (attemptsSet steps).length = steps.countP (·.1) := by
  rw [attemptsSet, List.length_map, List.countP_eq_length_filter]

/-! ## One step -/

/-- A step finds the schedule not due and keeps it, or finds it due and puts it off. -/
theorem stepBackoff?_eq_some {s : Schedule} {now : Instant} {step : Bool × Schedule}
    (h : s.stepBackoff? now = some step) :
    step = (false, s) ∨
      ∃ t, step = (true, t) ∧ s.nextAttempt ≤ now ∧ s.backedOff? now = some t := by
  unfold stepBackoff? at h
  by_cases hdue : isDue now (some s) = true
  · rw [if_pos hdue, Option.map_eq_some_iff] at h
    obtain ⟨t, ht, rfl⟩ := h
    exact .inr ⟨t, rfl, by simpa [isDue] using hdue, ht⟩
  · rw [if_neg hdue] at h
    exact .inl (Option.some.inj h).symm

/-- A step fails only where the sum leaves the calendar. -/
theorem nextAttempt?_of_stepBackoff?_eq_none {s : Schedule} {now : Instant}
    (h : s.stepBackoff? now = none) : nextAttempt? s.nextUpdate now = none := by
  unfold stepBackoff? at h
  split at h
  · simpa [backedOff?] using h
  · cases h

theorem walkBackoff?_cons_eq_some {s : Schedule} {now : Instant} {later : List Instant}
    {steps : List (Bool × Schedule)} (h : s.walkBackoff? (now :: later) = some steps) :
    ∃ step rest, s.stepBackoff? now = some step ∧ step.2.walkBackoff? later = some rest ∧
      steps = step :: rest := by
  rw [walkBackoff?, Option.bind_eq_some_iff] at h
  obtain ⟨step, hstep, h⟩ := h
  rw [Option.map_eq_some_iff] at h
  obtain ⟨rest, hrest, rfl⟩ := h
  exact ⟨step, rest, hstep, hrest, rfl⟩

theorem sameUpdates_of_stepBackoff? {s : Schedule} {now : Instant} {step : Bool × Schedule}
    (h : s.stepBackoff? now = some step) : SameUpdates s step.2 := by
  rcases stepBackoff?_eq_some h with rfl | ⟨t, rfl, -, ht⟩
  · exact SameUpdates.refl s
  · exact sameUpdates_of_backedOff? ht

/-! ## Whole walks -/

/-- A walk stops only where the sum for one of its readings leaves the calendar. -/
theorem exists_nextAttempt?_of_walkBackoff?_eq_none {s : Schedule} {nows : List Instant}
    (h : s.walkBackoff? nows = none) : ∃ now ∈ nows, nextAttempt? s.nextUpdate now = none := by
  induction nows generalizing s with
  | nil => cases h
  | cons now later ih =>
      cases hstep : s.stepBackoff? now with
      | none => exact ⟨now, List.mem_cons_self, nextAttempt?_of_stepBackoff?_eq_none hstep⟩
      | some step =>
          have hrest : step.2.walkBackoff? later = none := by
            simpa [walkBackoff?, hstep] using h
          -- The walk goes on with the same next update, so the failing sum is one of `s` too.
          obtain ⟨last, hmem, hnone⟩ := ih hrest
          rw [(sameUpdates_of_stepBackoff? hstep).2.1] at hnone
          exact ⟨last, List.mem_cons_of_mem now hmem, hnone⟩

theorem sameUpdates_of_walkBackoff? {s : Schedule} {nows : List Instant}
    {steps : List (Bool × Schedule)} (h : s.walkBackoff? nows = some steps) :
    ∀ step ∈ steps, SameUpdates s step.2 := by
  induction nows generalizing s steps with
  | nil =>
      cases h
      simp
  | cons now later ih =>
      obtain ⟨step, rest, hstep, hrest, rfl⟩ := walkBackoff?_cons_eq_some h
      have hfirst := sameUpdates_of_stepBackoff? hstep
      intro u hu
      rcases List.mem_cons.mp hu with rfl | hu
      · exact hfirst
      · exact hfirst.trans (ih hrest u hu)

/-- Each attempt that a walk sets is the next attempt for one of its readings. -/
theorem exists_reading_of_mem_attemptsSet {s : Schedule} {nows : List Instant}
    {steps : List (Bool × Schedule)} (h : s.walkBackoff? nows = some steps) :
    ∀ t ∈ attemptsSet steps, ∃ now ∈ nows, nextAttempt? s.nextUpdate now = some t := by
  induction nows generalizing s steps with
  | nil =>
      cases h
      simp [attemptsSet]
  | cons now later ih =>
      obtain ⟨step, rest, hstep, hrest, rfl⟩ := walkBackoff?_cons_eq_some h
      have hlater : ∀ t ∈ attemptsSet rest, ∃ r ∈ now :: later,
          nextAttempt? s.nextUpdate r = some t := by
        intro t ht
        obtain ⟨r, hr, hnext⟩ := ih hrest t ht
        rw [(sameUpdates_of_stepBackoff? hstep).2.1] at hnext
        exact ⟨r, List.mem_cons_of_mem now hr, hnext⟩
      rcases stepBackoff?_eq_some hstep with rfl | ⟨u, rfl, -, hu⟩
      · rwa [attemptsSet_cons_early]
      · rw [attemptsSet_cons_due]
        intro t ht
        rcases List.mem_cons.mp ht with rfl | ht
        · exact ⟨now, List.mem_cons_self, (backedOff?_eq_some hu).1⟩
        · exact hlater t ht

/-- The attempts that a walk sets ascend, from the attempt it starts with.  A reading that makes an
attempt due is not before it, and the attempt set then lies behind the reading. -/
theorem attemptsSet_ascending {s : Schedule} {nows : List Instant}
    {steps : List (Bool × Schedule)} (h : s.walkBackoff? nows = some steps) :
    (s.nextAttempt :: attemptsSet steps).Pairwise (· < ·) := by
  induction nows generalizing s steps with
  | nil =>
      cases h
      exact List.pairwise_singleton _ _
  | cons now later ih =>
      obtain ⟨step, rest, hstep, hrest, rfl⟩ := walkBackoff?_cons_eq_some h
      have hasc := ih hrest
      rcases stepBackoff?_eq_some hstep with rfl | ⟨u, rfl, hdue, hu⟩
      · rwa [attemptsSet_cons_early]
      · -- The old attempt is not behind the reading, the new one is.
        have hnext : s.nextAttempt < u.nextAttempt :=
          Instant.lt_of_le_of_lt hdue (lt_nextAttempt? (backedOff?_eq_some hu).1)
        rw [attemptsSet_cons_due]
        refine List.Pairwise.cons ?_ hasc
        intro t ht
        rcases List.mem_cons.mp ht with rfl | ht
        · exact hnext
        · exact Instant.lt_trans hnext (List.rel_of_pairwise_cons hasc ht)

/-! ## Counting rungs -/

/-- The rungs of the ladder up to `m` days. -/
def rungsUpTo (m : Nat) : List Int :=
  shortIntervals ++ (List.range m).map fun j : Nat => (86400 * (j + 1) : Int)

theorem length_rungsUpTo (m : Nat) : (rungsUpTo m).length = m + 7 := by
  simp only [rungsUpTo, List.length_append, List.length_map, List.length_range, shortIntervals,
    List.length_cons, List.length_nil]
  omega

theorem mem_rungsUpTo {b : Int} {m : Nat} (hb : IsRung b) (hle : b ≤ 86400 * m) :
    b ∈ rungsUpTo m := by
  rcases hb with hk | ⟨j, hj, rfl⟩
  · exact List.mem_append_left _ (mem_shortIntervals.mpr hk)
  · refine List.mem_append_right _ (List.mem_map.mpr ⟨j - 1, ?_, by omega⟩)
    rw [List.mem_range]
    omega

/-- Before the end of `m` days the next attempt is at most `m` days behind the reference. -/
theorem retryInterval_le_days {reference now : Instant} {m : Nat} (hm : 1 ≤ m)
    (hbefore : ∀ limit, reference.addSeconds? (86400 * m) = some limit → now < limit) :
    retryInterval reference now ≤ 86400 * m := by
  refine retryInterval_le (.inr ⟨m, hm, rfl⟩) ?_
  unfold leadsPast
  cases h : reference.addSeconds? (86400 * m) with
  | none => rfl
  | some limit => exact decide_eq_true (hbefore limit h)

theorem length_attemptsSet_le {s : Schedule} {nows : List Instant}
    {steps : List (Bool × Schedule)} (h : s.walkBackoff? nows = some steps) {m : Nat}
    (hm : 1 ≤ m)
    (hbefore : ∀ now ∈ nows, ∀ limit,
      s.nextUpdate.addSeconds? (86400 * m) = some limit → now < limit) :
    (attemptsSet steps).length ≤ m + 7 := by
  -- Ascending attempts are different, and each is a sum with one of the `m + 7` rungs.
  have hnodup : (attemptsSet steps).Nodup := by
    refine (List.pairwise_cons.mp (attemptsSet_ascending h)).2.imp ?_
    intro a b hab heq
    exact Instant.lt_irrefl b (heq ▸ hab)
  have hsub : attemptsSet steps ⊆ (rungsUpTo m).filterMap s.nextUpdate.addSeconds? := by
    intro t ht
    obtain ⟨now, hnow, hnext⟩ := exists_reading_of_mem_attemptsSet h t ht
    have hle := retryInterval_le_days hm (hbefore now hnow)
    have hmem := mem_rungsUpTo (isRung_retryInterval s.nextUpdate now) hle
    exact List.mem_filterMap.mpr ⟨_, hmem, hnext⟩
  calc (attemptsSet steps).length
      ≤ ((rungsUpTo m).filterMap s.nextUpdate.addSeconds?).length :=
        (List.subperm_of_subset hnodup hsub).length_le
    _ ≤ (rungsUpTo m).length := List.length_filterMap_le _ _
    _ = m + 7 := length_rungsUpTo m

/-- The retry budget.  A walk through any clock readings keeps what the feed announced, sets
attempts that ascend and lie one rung behind the announced update, and finds the schedule due at
most `m + 7` times while all readings are before the end of `m` days.  It stops only where a sum
leaves the calendar. -/
theorem walkBackoff?_budget (s : Schedule) (nows : List Instant) :
    (s.walkBackoff? nows = none → ∃ now ∈ nows, nextAttempt? s.nextUpdate now = none) ∧
      ∀ steps, s.walkBackoff? nows = some steps →
        (∀ step ∈ steps, step.2.lastUpdate = s.lastUpdate ∧ step.2.nextUpdate = s.nextUpdate ∧
          step.2.utcOffset = s.utcOffset) ∧
        (attemptsSet steps).Pairwise (· < ·) ∧
        (∀ t ∈ attemptsSet steps, ∃ b, s.nextUpdate.addSeconds? b = some t ∧
          ((∃ k : Nat, k ≤ 6 ∧ b = 675 * 2 ^ k) ∨ ∃ m : Nat, 1 ≤ m ∧ b = 86400 * m)) ∧
        ∀ m : Nat, 1 ≤ m →
          (∀ now ∈ nows, ∀ limit,
            s.nextUpdate.addSeconds? (86400 * m) = some limit → now < limit) →
          steps.countP (·.1) ≤ m + 7 := by
  refine ⟨exists_nextAttempt?_of_walkBackoff?_eq_none, fun steps h => ⟨?_, ?_, ?_, ?_⟩⟩
  · exact sameUpdates_of_walkBackoff? h
  · exact (List.pairwise_cons.mp (attemptsSet_ascending h)).2
  · intro t ht
    obtain ⟨now, -, hnext⟩ := exists_reading_of_mem_attemptsSet h t ht
    obtain ⟨b, hb, hsum⟩ := onLadder_of_nextAttempt? hnext
    exact ⟨b, hsum, hb⟩
  · intro m hm hbefore
    rw [← length_attemptsSet]
    exact length_attemptsSet_le h hm hbefore

/-- A walk within the first day, back and forth: two steps are due, where eight could be. -/
theorem walkBackoff?_budget_first_day :
    ∃ steps, (unknown .epoch).walkBackoff? [.epoch, .epoch, .epochNoon, .epoch] = some steps ∧
      steps.map (·.1) = [true, false, true, false] ∧ steps.countP (·.1) ≤ 1 + 7 := by
  have hwalk : ((unknown .epoch).walkBackoff? [.epoch, .epoch, .epochNoon, .epoch]).map
      (·.map (·.1)) = some [true, false, true, false] := by decide +kernel
  have hday : (unknown .epoch).nextUpdate.addSeconds? (86400 * (1 : Nat)) =
      some ⟨.midnight ⟨1, by decide, by decide⟩⟩ := by decide +kernel
  have hbefore : ∀ now ∈ [Instant.epoch, .epoch, .epochNoon, .epoch],
      now < ⟨.midnight ⟨1, by decide, by decide⟩⟩ := by decide +kernel
  obtain ⟨steps, hsteps, hdue⟩ := Option.map_eq_some_iff.mp hwalk
  obtain ⟨-, -, -, hbudget⟩ := (walkBackoff?_budget _ _).2 steps hsteps
  refine ⟨steps, hsteps, hdue, hbudget 1 (by decide) ?_⟩
  intro now hnow limit hlimit
  cases hday.symm.trans hlimit
  exact hbefore now hnow

end PlaceWeather.Schedule
