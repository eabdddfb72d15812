import PlaceWeather.Station.Flight

/-!
# Single flight

However freshness checks are interleaved and given up, the checks of one place do their work one
after the other (`single_flight`).  A lock lets one check in at a time (`Exclusive`), so all that is
needed is that the checks of one place share their lock.  The invariant that carries this is
`Tabled`: a check that has not yet seen to the table refers to the very lock that the table has for
its place.  The entry may go only while no other check depends on it, which is what the count of
references makes sure of.

That count takes each lock to belong to one place; `Apart` says that it does.
-/

namespace PlaceWeather.Flight

variable {f g : Flight} {c d : FlightCheck} {before after : List FlightCheck} {geoid : String}
  {phase : FlightPhase}

/-! ## One check among the others -/

/-- The checks in which one has come to another phase. -/
theorem mem_moved (h : d ∈ before ++ { c with phase } :: after) :
    d = { c with phase } ∨ d ∈ before ++ after := by
  rw [List.mem_append, List.mem_cons] at h
  rw [List.mem_append]
  rcases h with hd | hd | hd
  · exact .inr (.inl hd)
  · exact .inl hd
  · exact .inr (.inr hd)

theorem mem_checks_of_mem_others (here : f.checks = before ++ c :: after)
    (h : d ∈ before ++ after) : d ∈ f.checks := by
  rw [here, List.mem_append, List.mem_cons]
  rcases List.mem_append.mp h with hd | hd
  · exact .inl hd
  · exact .inr (.inr hd)

theorem mem_checks_self (here : f.checks = before ++ c :: after) : c ∈ f.checks := by
  rw [here]
  exact List.mem_append_right before List.mem_cons_self

/-- A count of checks is one of the others and one of the check itself. -/
theorem countP_checks (p : FlightCheck → Bool) (before after : List FlightCheck)
    (c : FlightCheck) :
    (before ++ c :: after).countP p = (before ++ after).countP p + if p c then 1 else 0 := by
  rw [List.countP_append, List.countP_append, List.countP_cons]
  omega

/-! ## The table -/

/-- A check that has not yet seen to the table refers to the lock that the table has for its
place. -/
def Tabled (f : Flight) : Prop :=
  ∀ c ∈ f.checks, c.phase ≠ .left → f.locks.get? c.geoid = some c.lock

theorem Tabled.begin (h : f.Tabled) (geoid : String) : (f.begin geoid).Tabled := by
  intro c hc hphase
  show (f.locks.insert geoid (f.lockFor geoid)).get? c.geoid = some c.lock
  rw [Table.get?_insert]
  rcases List.mem_cons.mp hc with rfl | hc
  · rw [if_pos rfl]
  · -- A check of the same place has the entry already, and the new one takes it.
    have hold := h c hc hphase
    split
    · rename_i hgeoid
      subst hgeoid
      unfold lockFor
      rw [hold, Option.getD_some]
    · exact hold

/-- Checks may go on and go away as long as the table stays. -/
theorem Tabled.of_checks (h : f.Tabled) (hlocks : g.locks = f.locks)
    (hchecks : ∀ d ∈ g.checks, d.phase ≠ .left →
      ∃ c ∈ f.checks, c.phase ≠ .left ∧ c.geoid = d.geoid ∧ c.lock = d.lock) : g.Tabled := by
  intro d hd hphase
  obtain ⟨c, hc, hearlier, hgeoid, hlock⟩ := hchecks d hd hphase
  rw [hlocks, ← hgeoid, ← hlock]
  exact h c hc hearlier

theorem Tabled.moved (h : f.Tabled) (here : f.checks = before ++ c :: after)
    (hearlier : c.phase ≠ .left) :
    Tabled { f with checks := before ++ { c with phase } :: after } := by
  refine h.of_checks rfl fun d hd hphase => ?_
  rcases mem_moved hd with rfl | hd
  · exact ⟨c, mem_checks_self here, hearlier, rfl, rfl⟩
  · exact ⟨d, mem_checks_of_mem_others here hd, hphase, rfl, rfl⟩

theorem Tabled.gone (h : f.Tabled) (here : f.checks = before ++ c :: after) :
    Tabled { f with checks := before ++ after } :=
  h.of_checks rfl fun d hd hphase => ⟨d, mem_checks_of_mem_others here hd, hphase, rfl, rfl⟩

/-- An entry that is removed has been seen to by the last check that depended on it. -/
theorem Tabled.tidy (h : f.Tabled) (here : f.checks = before ++ c :: after)
    (leaves : c.phase = .leaving) :
    Tabled { f with
      locks := f.tidy c
      checks := before ++ { c with phase := .left } :: after } := by
  intro d hd hphase
  have hother : d ∈ before ++ after := by
    rcases mem_moved hd with rfl | hother
    · exact absurd rfl hphase
    · exact hother
  have hold : f.locks.get? d.geoid = some d.lock :=
    h d (mem_checks_of_mem_others here hother) hphase
  show (f.tidy c).get? d.geoid = some d.lock
  unfold Flight.tidy
  split
  · rename_i hfew
    rw [Table.get?_erase, if_neg, hold]
    -- Otherwise `d` would be a third reference, besides those of the table and of `c`.
    intro hgeoid
    have hentry : f.locks.get? c.geoid = some c.lock :=
      h c (mem_checks_self here) (by rw [leaves]; decide)
    have hlock : d.lock = c.lock := by
      rw [hgeoid, hold] at hentry
      exact Option.some.inj hentry
    have hpos : 0 < (before ++ after).countP fun e => e.lock == c.lock := by
      rw [List.countP_pos_iff]
      exact ⟨d, hother, beq_iff_eq.mpr hlock⟩
    unfold references at hfew
    rw [if_pos hentry, here, countP_checks, if_pos (beq_self_eq_true c.lock)] at hfew
    omega
  · exact hold

theorem Tabled.step (h : f.Tabled) (taken : Step f g) : g.Tabled := by
  cases taken with
  | begin geoid => exact h.begin geoid
  | acquire before after c here waits free => exact h.moved here (by rw [waits]; decide)
  | release before after c here works => exact h.moved here (by rw [works]; decide)
  | tidy before after c here leaves => exact h.tidy here leaves
  | finish before after c here done => exact h.gone here
  | cancel before after c here early => exact h.gone here

/-! ## The locks -/

/-- Whether a check has a lock. -/
def hasLock (lock : Nat) (c : FlightCheck) : Bool := c.lock = lock ∧ c.phase = .inside

/-- At most one check has each lock. -/
def Exclusive (f : Flight) : Prop := ∀ lock, f.checks.countP (hasLock lock) ≤ 1

/-- A check that does not get a lock, or goes away, leaves each lock with one check at most. -/
theorem Exclusive.moved (h : f.Exclusive) (here : f.checks = before ++ c :: after)
    (hphase : phase ≠ .inside) :
    Exclusive { f with checks := before ++ { c with phase } :: after } := by
  intro lock
  have hcount := h lock
  have hnot : hasLock lock { c with phase } = false := by
    unfold hasLock
    simp [hphase]
  show (before ++ { c with phase } :: after).countP (hasLock lock) ≤ 1
  rw [here, countP_checks] at hcount
  rw [countP_checks, hnot]
  simp only [Bool.false_eq_true, if_false]
  omega

theorem Exclusive.gone (h : f.Exclusive) (here : f.checks = before ++ c :: after) :
    Exclusive { f with checks := before ++ after } := by
  intro lock
  have hcount := h lock
  rw [here, countP_checks] at hcount
  exact Nat.le_trans (Nat.le_add_right _ _) hcount

/-- A check gets a lock that no other check has. -/
theorem Exclusive.acquire (h : f.Exclusive) (here : f.checks = before ++ c :: after)
    (free : ∀ d ∈ f.checks, d.lock = c.lock → d.phase ≠ .inside) :
    Exclusive { f with checks := before ++ { c with phase := .inside } :: after } := by
  intro lock
  show (before ++ { c with phase := .inside } :: after).countP (hasLock lock) ≤ 1
  rw [countP_checks]
  by_cases hlock : c.lock = lock
  · have hnone : (before ++ after).countP (hasLock lock) = 0 := by
      rw [List.countP_eq_zero]
      intro d hd hhas
      obtain ⟨hsame, hinside⟩ := of_decide_eq_true hhas
      exact free d (mem_checks_of_mem_others here hd) (hsame.trans hlock.symm) hinside
    rw [hnone]
    split <;> omega
  · have hcount := h lock
    have hnot : hasLock lock { c with phase := .inside } = false := by
      unfold hasLock
      simp [hlock]
    rw [here, countP_checks] at hcount
    rw [hnot]
    simp only [Bool.false_eq_true, if_false]
    omega

theorem Exclusive.step (h : f.Exclusive) (taken : Step f g) : g.Exclusive := by
  cases taken with
  | begin geoid =>
      intro lock
      have hnot : hasLock lock ⟨geoid, f.lockFor geoid, .waiting⟩ = false := by
        unfold hasLock
        simp
      show List.countP (hasLock lock) (_ :: f.checks) ≤ 1
      rw [List.countP_cons, hnot]
      exact h lock
  | acquire before after c here waits free => exact h.acquire here free
  | release before after c here works => exact h.moved here (by decide)
  | tidy before after c here leaves => exact h.moved here (by decide)
  | finish before after c here done => exact h.gone here
  | cancel before after c here early => exact h.gone here

/-! ## One place for each lock -/

/-- The table or a check refers to a lock on account of a place. -/
def Refers (f : Flight) (geoid : String) (lock : Nat) : Prop :=
  f.locks.get? geoid = some lock ∨ ∃ c ∈ f.checks, c.geoid = geoid ∧ c.lock = lock

/-- Each lock is referred to on account of one place, and none of them is the next new one. -/
structure Apart (f : Flight) : Prop where
  lt_fresh : ∀ {geoid lock}, f.Refers geoid lock → lock < f.fresh
  geoid_eq : ∀ {geoid other lock}, f.Refers geoid lock → f.Refers other lock → geoid = other

theorem Apart.of_refers (h : f.Apart) (hfresh : g.fresh = f.fresh)
    (hrefers : ∀ geoid lock, g.Refers geoid lock → f.Refers geoid lock) : g.Apart where
  lt_fresh hlock := by
    rw [hfresh]
    exact h.lt_fresh (hrefers _ _ hlock)
  geoid_eq hlock hother := h.geoid_eq (hrefers _ _ hlock) (hrefers _ _ hother)

theorem refers_of_moved (here : f.checks = before ++ c :: after) {lock : Nat}
    (h : Refers { f with checks := before ++ { c with phase } :: after } geoid lock) :
    f.Refers geoid lock := by
  rcases h with hentry | ⟨d, hd, hgeoid, hlock⟩
  · exact .inl hentry
  · rcases mem_moved hd with rfl | hd
    · exact .inr ⟨c, mem_checks_self here, hgeoid, hlock⟩
    · exact .inr ⟨d, mem_checks_of_mem_others here hd, hgeoid, hlock⟩

theorem refers_of_gone (here : f.checks = before ++ c :: after) {lock : Nat}
    (h : Refers { f with checks := before ++ after } geoid lock) : f.Refers geoid lock := by
  rcases h with hentry | ⟨d, hd, hgeoid, hlock⟩
  · exact .inl hentry
  · exact .inr ⟨d, mem_checks_of_mem_others here hd, hgeoid, hlock⟩

theorem get?_tidy {lock : Nat} (h : (f.tidy c).get? geoid = some lock) :
    f.locks.get? geoid = some lock := by
  unfold Flight.tidy at h
  split at h
  · rw [Table.get?_erase] at h
    split at h
    · cases h
    · exact h
  · exact h

theorem refers_of_begin {other : String} {lock : Nat} (h : (f.begin geoid).Refers other lock) :
    f.Refers other lock ∨ other = geoid ∧ lock = f.lockFor geoid := by
  rcases h with hentry | ⟨d, hd, rfl, rfl⟩
  · have hinserted : (f.locks.insert geoid (f.lockFor geoid)).get? other = some lock := hentry
    rw [Table.get?_insert] at hinserted
    split at hinserted
    · rename_i hgeoid
      exact .inr ⟨hgeoid.symm, (Option.some.inj hinserted).symm⟩
    · exact .inl (.inl hinserted)
  · rcases List.mem_cons.mp hd with rfl | hd
    · exact .inr ⟨rfl, rfl⟩
    · exact .inl (.inr ⟨d, hd, rfl, rfl⟩)

theorem Apart.begin (h : f.Apart) (geoid : String) : (f.begin geoid).Apart := by
  cases hentry : f.locks.get? geoid with
  | some lock =>
      -- The entry of the table is taken, and nothing is referred to that was not before.
      have hlockFor : f.lockFor geoid = lock := by
        unfold lockFor
        rw [hentry, Option.getD_some]
      have hfresh : (f.begin geoid).fresh = f.fresh := by
        unfold Flight.begin
        rw [hentry]
        rfl
      refine h.of_refers hfresh fun other lock' hlock => ?_
      rcases refers_of_begin hlock with hold | ⟨rfl, rfl⟩
      · exact hold
      · rw [hlockFor]
        exact .inl hentry
  | none =>
      -- The new lock has a number that no other lock has.
      have hlockFor : f.lockFor geoid = f.fresh := by
        unfold lockFor
        rw [hentry, Option.getD_none]
      have hfresh : (f.begin geoid).fresh = f.fresh + 1 := by
        unfold Flight.begin
        rw [hentry]
        rfl
      have hcases : ∀ {other lock}, (f.begin geoid).Refers other lock →
          (f.Refers other lock ∧ lock < f.fresh) ∨ (other = geoid ∧ lock = f.fresh) := by
        intro other lock hlock
        rcases refers_of_begin hlock with hold | ⟨hother, hnew⟩
        · exact .inl ⟨hold, h.lt_fresh hold⟩
        · exact .inr ⟨hother, hnew.trans hlockFor⟩
      refine ⟨?_, ?_⟩
      · intro other lock hlock
        rcases hcases hlock with ⟨-, hlt⟩ | ⟨-, heq⟩
        · omega
        · omega
      · intro first second lock hfirst hsecond
        rcases hcases hfirst with ⟨hfirst, hlt⟩ | ⟨rfl, heq⟩
        · rcases hcases hsecond with ⟨hsecond, -⟩ | ⟨-, heq⟩
          · exact h.geoid_eq hfirst hsecond
          · omega
        · rcases hcases hsecond with ⟨-, hlt⟩ | ⟨rfl, -⟩
          · omega
          · rfl

theorem Apart.step (h : f.Apart) (taken : Step f g) : g.Apart := by
  cases taken with
  | begin geoid => exact h.begin geoid
  | acquire before after c here waits free =>
      exact h.of_refers rfl fun _ _ => refers_of_moved here
  | release before after c here works => exact h.of_refers rfl fun _ _ => refers_of_moved here
  | tidy before after c here leaves =>
      refine h.of_refers rfl fun geoid lock hlock => ?_
      rcases hlock with hentry | hcheck
      · exact .inl (get?_tidy hentry)
      · exact refers_of_moved here (.inr hcheck)
  | finish before after c here done => exact h.of_refers rfl fun _ _ => refers_of_gone here
  | cancel before after c here early => exact h.of_refers rfl fun _ _ => refers_of_gone here

/-! ## Every interleaving -/

/-- What every interleaving keeps. -/
structure Orderly (f : Flight) : Prop where
  tabled : f.Tabled
  exclusive : f.Exclusive
  apart : f.Apart

theorem orderly_empty : empty.Orderly where
  tabled c hc := by cases hc
  exclusive lock := Nat.zero_le 1
  apart := by
    have hnone : ∀ {geoid lock}, ¬ empty.Refers geoid lock := by
      rintro geoid lock (hentry | ⟨c, hc, -⟩)
      · cases hentry
      · cases hc
    exact ⟨fun h => absurd h hnone, fun h => absurd h hnone⟩

theorem Orderly.step (h : f.Orderly) (taken : Step f g) : g.Orderly where
  tabled := h.tabled.step taken
  exclusive := h.exclusive.step taken
  apart := h.apart.step taken

theorem Reachable.orderly (h : Reachable f) : f.Orderly := by
  induction h with
  | empty => exact orderly_empty
  | step reached taken ih => exact ih.step taken

/-- Where checks refer to the locks of the table, and each lock lets one check in, so does each
place. -/
theorem Orderly.countP_inside (h : f.Orderly) (geoid : String) :
    f.checks.countP (fun c => c.geoid = geoid ∧ c.phase = .inside) ≤ 1 := by
  cases hentry : f.locks.get? geoid with
  | none =>
      have hnone : f.checks.countP (fun c => c.geoid = geoid ∧ c.phase = .inside) = 0 := by
        rw [List.countP_eq_zero]
        intro c hc hinside
        obtain ⟨rfl, hphase⟩ := of_decide_eq_true hinside
        have hlock := h.tabled c hc (by rw [hphase]; decide)
        rw [hentry] at hlock
        cases hlock
      omega
  | some lock =>
      -- Whoever is inside for the place has the one lock of the table.
      refine Nat.le_trans (List.countP_mono_left ?_) (h.exclusive lock)
      intro c hc hinside
      obtain ⟨rfl, hphase⟩ := of_decide_eq_true hinside
      have hlock := h.tabled c hc (by rw [hphase]; decide)
      rw [hentry] at hlock
      exact decide_eq_true ⟨(Option.some.inj hlock).symm, hphase⟩

/-- Whatever checks of whatever places are begun, interleaved and given up, at most one check of
each place does its work at a time, so that at most one download of its feed is under way.  For
every check that has not yet seen to the table refers to the very lock that the table has for its
place.  And checks that share a lock are checks of one place, so that none ever waits for a check of
another place. -/
theorem single_flight (h : Reachable f) :
    (∀ geoid, f.checks.countP (fun c => c.geoid = geoid ∧ c.phase = .inside) ≤ 1) ∧
      (∀ c ∈ f.checks, c.phase ≠ .left → f.locks.get? c.geoid = some c.lock) ∧
      ∀ c ∈ f.checks, ∀ d ∈ f.checks, c.lock = d.lock → c.geoid = d.geoid := by
  refine ⟨h.orderly.countP_inside, h.orderly.tabled, ?_⟩
  intro c hc d hd hlock
  exact h.orderly.apart.geoid_eq (.inr ⟨c, hc, rfl, rfl⟩) (.inr ⟨d, hd, rfl, hlock.symm⟩)

/-- A check of a place has left the table as it was, since a second one was waiting.  The second one
is inside now, a third one has been given up while it waited, a fourth one waits, and a check of
another place is inside. -/
def crowded : Flight where
  locks := (Table.empty.insert "g" 0).insert "h" 1
  fresh := 2
  checks := [⟨"g", 0, .waiting⟩, ⟨"h", 1, .inside⟩, ⟨"g", 0, .inside⟩, ⟨"g", 0, .left⟩]

theorem reachable_crowded : Reachable crowded := by
  have first := (Reachable.empty.step (.begin _ "g")).step
    (.acquire _ [] [] ⟨"g", 0, .waiting⟩ rfl rfl (by decide))
  have second := (first.step (.begin _ "g")).step
    (.release _ [⟨"g", 0, .waiting⟩] [] ⟨"g", 0, .inside⟩ rfl rfl)
  have tidied := second.step
    (.tidy _ [⟨"g", 0, .waiting⟩] [] ⟨"g", 0, .leaving⟩ rfl rfl)
  have third := (tidied.step
    (.acquire _ [] [⟨"g", 0, .left⟩] ⟨"g", 0, .waiting⟩ rfl rfl (by decide))).step (.begin _ "g")
  have givenUp := third.step
    (.cancel _ [] [⟨"g", 0, .inside⟩, ⟨"g", 0, .left⟩] ⟨"g", 0, .waiting⟩ rfl (by decide))
  have other := (givenUp.step (.begin _ "h")).step
    (.acquire _ [] [⟨"g", 0, .inside⟩, ⟨"g", 0, .left⟩] ⟨"h", 1, .waiting⟩ rfl rfl (by decide))
  exact other.step (.begin _ "g")

/-- In the crowded flight the check that waits for the place shares the lock of the one inside. -/
theorem single_flight_crowded :
    Reachable crowded ∧
      crowded.checks.countP (fun c => c.geoid = "g" ∧ c.phase = .inside) ≤ 1 ∧
      crowded.locks.get? "g" = some 0 := by
  obtain ⟨hone, htable, -⟩ := single_flight reachable_crowded
  exact ⟨reachable_crowded, hone "g", htable ⟨"g", 0, .waiting⟩ (by decide) (by decide)⟩

end PlaceWeather.Flight
