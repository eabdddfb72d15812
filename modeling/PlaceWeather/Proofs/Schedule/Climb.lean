import PlaceWeather.Proofs.Schedule.Ladder

/-!
# Climbing the retry ladder

The next attempt can be found rung by rung: the interval starts at 675 seconds, is doubled below a
day and grows by a day from then on, until the sum lies behind the present.  `climb?` does that.  It
comes to an end because an interval whose sum has passed is no longer than the distance to the
present, and it finds what `nextAttempt?` finds in one step (`climb?_eq_nextAttempt?`).
`nextAttempt?_least_rung` says what that is: the sum with the least rung past the present, which
does not change while the present moves from one rung to the next.
-/

namespace PlaceWeather

namespace Instant

theorem le_trans {t u v : Instant} (htu : t ≤ u) (huv : u ≤ v) : t ≤ v := Int.le_trans htu huv

theorem not_lt {t u : Instant} : ¬ t < u ↔ u ≤ t := Int.not_lt

/-- Sums with more seconds are not earlier. -/
theorem addSeconds?_le_addSeconds? {reference t u : Instant} {b c : Int} (hb : 0 < b) (hbc : b ≤ c)
    (ht : reference.addSeconds? b = some t) (hu : reference.addSeconds? c = some u) : t ≤ u := by
  rw [le_iff_rank, rank_of_addSeconds? hb ht, rank_of_addSeconds? (by omega) hu]
  omega

/-- What the calendar has with more seconds it has with fewer. -/
theorem exists_addSeconds?_of_le {reference u : Instant} {b c : Int} (hb : 0 < b) (hbc : b ≤ c)
    (hu : reference.addSeconds? c = some u) : ∃ t, reference.addSeconds? b = some t := by
  cases h : reference.addSeconds? b with
  | some t => exact ⟨t, rfl⟩
  | none =>
      have hlate := lt_of_addSeconds?_eq_none hb h u
      rw [rank_of_addSeconds? (by omega) hu] at hlate
      omega

end Instant

namespace Schedule

/-- The interval after one that does not lead past the present: twice as long below a day, and a day
longer from then on. -/
def nextInterval (b : Int) : Int := if b < daySeconds then 2 * b else b + daySeconds

theorem lt_nextInterval {b : Int} (hb : 0 < b) : b < nextInterval b := by
  unfold nextInterval daySeconds
  split <;> omega

/-! ## From rung to rung -/

theorem isRung_first : IsRung 675 := .inl ⟨0, by decide, by decide⟩

/-- The rungs below a day one by one. -/
theorem short_cases {b : Int} (h : ∃ k : Nat, k ≤ 6 ∧ b = 675 * 2 ^ k) :
    b = 675 ∨ b = 1350 ∨ b = 2700 ∨ b = 5400 ∨ b = 10800 ∨ b = 21600 ∨ b = 43200 := by
  have hmem := mem_shortIntervals.mpr h
  simpa only [shortIntervals, List.mem_cons, List.not_mem_nil, or_false] using hmem

theorem IsRung.first_le {b : Int} (hb : IsRung b) : 675 ≤ b := by
  rcases hb with hshort | ⟨m, hm, rfl⟩
  · have hcases := short_cases hshort
    omega
  · omega

/-- The interval after a rung is a rung: half a day is followed by a day. -/
theorem IsRung.nextInterval {b : Int} (hb : IsRung b) : IsRung (nextInterval b) := by
  rcases hb with ⟨k, hk, rfl⟩ | ⟨m, hm, rfl⟩
  · have hshort : (675 * 2 ^ k : Int) < daySeconds := by
      have hcases := short_cases ⟨k, hk, rfl⟩
      unfold daySeconds
      omega
    have hdouble : Schedule.nextInterval (675 * 2 ^ k) = 675 * 2 ^ (k + 1) := by
      rw [Schedule.nextInterval, if_pos hshort, Int.pow_succ]
      omega
    rw [hdouble]
    rcases Nat.lt_or_ge k 6 with hlt | hge
    · exact .inl ⟨k + 1, hlt, rfl⟩
    · obtain rfl : k = 6 := Nat.le_antisymm hk hge
      exact .inr ⟨1, by decide, by decide⟩
  · have hlong : ¬ (86400 * m : Int) < daySeconds := by
      unfold daySeconds
      omega
    refine .inr ⟨m + 1, by omega, ?_⟩
    rw [Schedule.nextInterval, if_neg hlong, daySeconds]
    omega

/-- Between a rung and the next one there is none. -/
theorem IsRung.le_of_lt_nextInterval {b c : Int} (hb : IsRung b) (hc : IsRung c)
    (h : c < Schedule.nextInterval b) : c ≤ b := by
  unfold Schedule.nextInterval daySeconds at h
  rcases hb with hb | ⟨m, hm, rfl⟩
  · have hb := short_cases hb
    rw [if_pos (by omega)] at h
    rcases hc with hc | ⟨n, hn, rfl⟩
    · have hc := short_cases hc
      omega
    · omega
  · rw [if_neg (by omega)] at h
    rcases hc with hc | ⟨n, hn, rfl⟩
    · have hc := short_cases hc
      omega
    · omega

/-- Every rung but the first is the one after a rung. -/
theorem IsRung.exists_previous {b : Int} (hb : IsRung b) (hfirst : b ≠ 675) :
    ∃ c, IsRung c ∧ Schedule.nextInterval c = b := by
  rcases hb with ⟨k, hk, rfl⟩ | ⟨m, hm, rfl⟩
  · obtain ⟨j, rfl⟩ : ∃ j, k = j + 1 := Nat.exists_eq_succ_of_ne_zero fun hzero => by
      subst hzero
      exact hfirst (by decide)
    have hj := short_cases (b := 675 * 2 ^ j) ⟨j, by omega, rfl⟩
    refine ⟨675 * 2 ^ j, .inl ⟨j, by omega, rfl⟩, ?_⟩
    rw [Schedule.nextInterval, if_pos (by unfold daySeconds; omega), Int.pow_succ]
    omega
  · rcases Nat.lt_or_ge 1 m with hlt | hge
    · refine ⟨86400 * (m - 1 : Nat), .inr ⟨m - 1, by omega, rfl⟩, ?_⟩
      rw [Schedule.nextInterval, daySeconds, if_neg (by omega)]
      omega
    · obtain rfl : m = 1 := Nat.le_antisymm hge hm
      exact ⟨43200, .inl ⟨6, by decide, by decide⟩, by decide⟩

/-! ## The climb -/

/-- A sum that has passed lies within the distance to the present. -/
theorem le_distance_of_le {reference now t : Instant} {b : Int} (hb : 0 < b)
    (ht : reference.addSeconds? b = some t) (hle : t ≤ now) :
    b ≤ now.secondNumber - reference.secondNumber := by
  rw [Instant.le_iff_rank, Instant.rank_of_addSeconds? hb ht] at hle
  have hnow := now.rank_le_secondNumber
  omega

/-- Climbs the ladder from an interval on.  An interval that does not lead past the present is
followed by the next one; a sum that the calendar does not have ends the climb without an answer. -/
def climb? (reference now : Instant) (b : Int) (hb : 0 < b) : Option Instant :=
  match _ht : reference.addSeconds? b with
  | none => none
  | some t =>
    if _hle : t ≤ now then
      climb? reference now (nextInterval b) (Int.lt_trans hb (lt_nextInterval hb))
    else some t
termination_by (now.secondNumber - reference.secondNumber + 1 - b).toNat
decreasing_by
  have hnear := le_distance_of_le hb _ht _hle
  have hnext := lt_nextInterval hb
  omega

/-- Exactly the rungs from the interval that is tried on lead past the present. -/
theorem retryInterval_le_iff {reference now : Instant} {b : Int} (hb : IsRung b) :
    retryInterval reference now ≤ b ↔ leadsPast reference now b = true := by
  constructor
  · intro hle
    have hpast := leadsPast_retryInterval reference now
    rw [leadsPast_iff (isRung_retryInterval reference now).pos] at hpast
    rw [leadsPast_iff hb.pos]
    omega
  · exact retryInterval_le hb

/-- A sum has passed exactly when its rung lies below the interval that is tried. -/
theorem le_iff_lt_retryInterval {reference now t : Instant} {b : Int} (hb : IsRung b)
    (ht : reference.addSeconds? b = some t) : t ≤ now ↔ b < retryInterval reference now := by
  have hpast : leadsPast reference now b = decide (now < t) := by
    unfold leadsPast
    rw [ht]
  rw [← Int.not_le, retryInterval_le_iff hb, hpast, decide_eq_true_iff, Instant.not_lt]

/-- From a rung that is not above the interval that is tried, the climb ends at that interval. -/
theorem climb?_eq_of_le (reference now : Instant) {b : Int} (hb : IsRung b)
    (hle : b ≤ retryInterval reference now) :
    climb? reference now b hb.pos = nextAttempt? reference now := by
  -- The induction is on the distance that is left, as the climb goes.
  induction hdistance : (now.secondNumber - reference.secondNumber + 1 - b).toNat using
    Nat.strongRecOn generalizing b with
  | _ distance ih =>
      rw [climb?]
      split
      · rename_i hnone
        -- What the calendar does not have leads past the present.
        have hpast : leadsPast reference now b = true := by
          unfold leadsPast
          rw [hnone]
        have heq := Int.le_antisymm hle (retryInterval_le hb hpast)
        rw [nextAttempt?, ← heq, hnone]
      · rename_i t ht
        have hiff : t ≤ now ↔ b < retryInterval reference now := le_iff_lt_retryInterval hb ht
        split
        · rename_i hpassed
          have hnear := le_distance_of_le hb.pos ht hpassed
          have hnext := lt_nextInterval hb.pos
          -- The interval that is tried is a rung above this one, so not below the next one.
          have hle' : nextInterval b ≤ retryInterval reference now := by
            refine Int.not_lt.mp fun hlt => ?_
            have hback := hb.le_of_lt_nextInterval (isRung_retryInterval reference now) hlt
            have hbelow := hiff.mp hpassed
            omega
          exact ih _ (by omega) hb.nextInterval hle' rfl
        · rename_i hahead
          have heq : b = retryInterval reference now := by
            refine Int.le_antisymm hle (Int.not_lt.mp fun hlt => hahead (hiff.mpr hlt))
          rw [nextAttempt?, ← heq, ht]

theorem climb?_eq_nextAttempt? (reference now : Instant) :
    climb? reference now 675 (by decide) = nextAttempt? reference now :=
  climb?_eq_of_le reference now isRung_first (isRung_retryInterval reference now).first_le

/-! ## The least rung past the present -/

/-- The interval is the only rung that leads past the present when the sums with all lower ones have
passed. -/
theorem retryInterval_eq_of_least {reference now : Instant} {b : Int} (hb : IsRung b)
    (hpast : ∀ t, reference.addSeconds? b = some t → now < t)
    (hpassed : ∀ c, IsRung c → c < b → ∃ t, reference.addSeconds? c = some t ∧ t ≤ now) :
    retryInterval reference now = b := by
  refine Int.le_antisymm (retryInterval_le hb ?_) (Int.not_lt.mp fun hlt => ?_)
  · unfold leadsPast
    split
    · rename_i t ht
      exact decide_eq_true (hpast t ht)
    · rfl
  · -- The sum with a rung below `b` has passed, so that rung does not lead past the present.
    have hrung := isRung_retryInterval reference now
    obtain ⟨t, ht, hle⟩ := hpassed _ hrung hlt
    have hself := (le_iff_lt_retryInterval hrung ht).mp hle
    omega

/-- What lies below the interval that is tried is in the calendar and has passed. -/
theorem exists_passed_of_lt_retryInterval {reference now : Instant} {c : Int} (hc : IsRung c)
    (hlt : c < retryInterval reference now) : ∃ t, reference.addSeconds? c = some t ∧ t ≤ now := by
  cases ht : reference.addSeconds? c with
  | some t => exact ⟨t, rfl, (le_iff_lt_retryInterval hc ht).mpr hlt⟩
  | none =>
      have hpast : leadsPast reference now c = true := by
        unfold leadsPast
        rw [ht]
      have hle := retryInterval_le hc hpast
      omega

/-- For a later present the interval is not smaller. -/
theorem retryInterval_mono {reference now later : Instant} (hle : now ≤ later) :
    retryInterval reference now ≤ retryInterval reference later := by
  have hrung := isRung_retryInterval reference later
  have hpast := leadsPast_retryInterval reference later
  rw [leadsPast_iff hrung.pos] at hpast
  rw [Instant.le_iff_rank] at hle
  rw [retryInterval_le_iff hrung, leadsPast_iff hrung.pos]
  omega

/-- Past the rung before it, and up to the sum itself, every present has the same next attempt. -/
theorem nextAttempt?_eq_of_past_previous {reference now other t : Instant}
    (ht : nextAttempt? reference now = some t) (hother : other < t)
    (hprevious : ∀ c p, IsRung c → c < retryInterval reference now →
      (∀ d, IsRung d → d < retryInterval reference now → d ≤ c) →
      reference.addSeconds? c = some p → p ≤ other) :
    nextAttempt? reference other = some t := by
  have hrung := isRung_retryInterval reference now
  have heq : retryInterval reference other = retryInterval reference now := by
    refine retryInterval_eq_of_least hrung ?_ ?_
    · intro u hu
      rw [nextAttempt?] at ht
      rw [Option.some.inj (hu.symm.trans ht)]
      exact hother
    · intro c hc hlt
      obtain ⟨u, hu, -⟩ := exists_passed_of_lt_retryInterval hc hlt
      -- With a rung below it the interval is not the first one, so there is one right before it.
      have hfirst : retryInterval reference now ≠ 675 := by
        have hle := hc.first_le
        omega
      obtain ⟨previous, hrung', hnext⟩ := hrung.exists_previous hfirst
      have hbelow : previous < retryInterval reference now := by
        have h := lt_nextInterval hrung'.pos
        omega
      have hgreatest : ∀ d, IsRung d → d < retryInterval reference now → d ≤ previous :=
        fun d hd hltd => hrung'.le_of_lt_nextInterval hd (by omega)
      obtain ⟨p, hp, -⟩ := exists_passed_of_lt_retryInterval hrung' hbelow
      have hpast := hprevious previous p hrung' hbelow hgreatest hp
      have hup := Instant.addSeconds?_le_addSeconds? hc.pos (hgreatest c hc hlt) hu hp
      exact ⟨u, hu, Instant.le_trans hup hpast⟩
  rw [nextAttempt?, heq]
  exact ht

/-- For an earlier present there is a next attempt too, and it is not later. -/
theorem nextAttempt?_mono {reference earlier now t : Instant} (hle : earlier ≤ now)
    (ht : nextAttempt? reference now = some t) :
    ∃ u, nextAttempt? reference earlier = some u ∧ u ≤ t := by
  have hpos := (isRung_retryInterval reference earlier).pos
  have hmono : retryInterval reference earlier ≤ retryInterval reference now :=
    retryInterval_mono hle
  obtain ⟨u, hu⟩ := Instant.exists_addSeconds?_of_le hpos hmono ht
  exact ⟨u, hu, Instant.addSeconds?_le_addSeconds? hpos hmono hu ht⟩

/-- The next attempt after a reference: climbing the ladder comes to an end at the least rung that
leads past the present; the sums with all lower ones lie in the calendar and have passed.  There is
no next attempt exactly when the calendar does not have the sum with that rung.

So the next attempt lies behind the present.  For an earlier present there is one that is not later.
And it is the same for every present before it that is not before the sum with the previous rung,
that is the greatest one below, when there is one. -/
theorem nextAttempt?_least_rung (reference now : Instant) :
    climb? reference now 675 (by decide) = nextAttempt? reference now ∧
    ∃ b, IsRung b ∧
      nextAttempt? reference now = reference.addSeconds? b ∧
      (∀ t, reference.addSeconds? b = some t → now < t) ∧
      (∀ c, IsRung c → c < b → ∃ t, reference.addSeconds? c = some t ∧ t ≤ now) ∧
      (∀ earlier t, earlier ≤ now → nextAttempt? reference now = some t →
        ∃ u, nextAttempt? reference earlier = some u ∧ u ≤ t) ∧
      ∀ other t, nextAttempt? reference now = some t → other < t →
        (∀ c p, IsRung c → c < b → (∀ d, IsRung d → d < b → d ≤ c) →
          reference.addSeconds? c = some p → p ≤ other) →
        nextAttempt? reference other = some t := by
  refine ⟨climb?_eq_nextAttempt? reference now, retryInterval reference now,
    isRung_retryInterval reference now, rfl, fun t ht => lt_nextAttempt? ht, ?_, ?_, ?_⟩
  · exact fun c hc hlt => exists_passed_of_lt_retryInterval hc hlt
  · exact fun earlier t hle ht => nextAttempt?_mono hle ht
  · exact fun other t ht hother hprevious =>
      nextAttempt?_eq_of_past_previous ht hother hprevious

end Schedule

end PlaceWeather
