import PlaceWeather.Proofs.Station.RefreshPath

/-!
# Failing store calls

`Follows x s made outcome t` says what the action `x` does at `s` whichever store calls fail.  The
list `made` has the calls that it makes when none of them fails; then it ends with `outcome` and
leaves `t`.  Otherwise it stops at the first of them that fails and answers with the failure of that
call.

The rules follow the constructors of actions.  A failed download may be dealt with; the failure of a
store call is only passed on, which is what `Heeds.either` asks of the action that deals with
failures.
-/

namespace PlaceWeather

namespace StoreCall

/-- The failure of a call. -/
def failure (call : StoreCall) : WeatherError := .store (call.name ++ " unavailable")

/-- The first of some calls that fails, with its number; the calls are numbered from `n` on. -/
def firstFailing? (failing : Nat → StoreCall → Bool) : (n : Nat) → List StoreCall →
    Option (Nat × StoreCall)
  | _, [] => none
  | n, call :: rest => if failing n call then some (n, call) else firstFailing? failing (n + 1) rest

theorem firstFailing?_append (failing : Nat → StoreCall → Bool) (n : Nat)
    (calls later : List StoreCall) :
    firstFailing? failing n (calls ++ later) =
      (firstFailing? failing n calls).or (firstFailing? failing (n + calls.length) later) := by
  induction calls generalizing n with
  | nil => rfl
  | cons call rest ih =>
      rw [List.cons_append, firstFailing?, firstFailing?, List.length_cons]
      split
      · rfl
      · rw [ih, Nat.add_right_comm, Nat.add_assoc]

theorem firstFailing?_never (n : Nat) (calls : List StoreCall) :
    firstFailing? (fun _ _ => false) n calls = none := by
  induction calls generalizing n with
  | nil => rfl
  | cons call rest ih => exact ih (n + 1)

end StoreCall

/-- The station with a store that does not fail. -/
def Station.mended (s : Station) : Station := { s with failing := fun _ _ => false }

/-- The station with a store of which only the call number `n` fails. -/
def Station.failingAt (s : Station) (n : Nat) : Station := { s with failing := fun m _ => m == n }

namespace Action

open StoreCall

variable {α β : Type} {s t u : Station}

/-- At `s` the action makes some store calls, ends with an outcome and leaves `t`; but it stops at
the first of the calls that fails. -/
structure Follows (x : Action α) (s : Station) (made : List StoreCall) (outcome : Except Fault α)
    (t : Station) : Prop where
  calls_eq : t.calls = s.calls + made.length
  ends : ∀ failing, firstFailing? failing s.calls made = none →
    x.runAt { s with failing } = (outcome, { t with failing })
  stops : ∀ failing n call, firstFailing? failing s.calls made = some (n, call) →
    ∃ v, x.runAt { s with failing } = (.error (.error call.failure), v) ∧ v.calls = n + 1

/-- Wherever the action begins, it stops at the first of its store calls that fails. -/
def Heeds (x : Action α) : Prop := ∀ s, ∃ made outcome t, Follows x s made outcome t

/-! ## Single steps -/

theorem follows_of_run {x : Action α} {outcome : Except Fault α} (hcalls : t.calls = s.calls)
    (h : ∀ failing, x.runAt { s with failing } = (outcome, { t with failing })) :
    Follows x s [] outcome t where
  calls_eq := hcalls
  ends failing _ := h failing
  stops _ _ _ hfirst := by cases hfirst

theorem heeds_pure (a : α) : Heeds (pure a : Action α) :=
  fun s => ⟨_, _, s, follows_of_run rfl fun _ => rfl⟩

theorem heeds_fail (e : WeatherError) : Heeds (fail e : Action α) :=
  fun s => ⟨_, _, s, follows_of_run rfl fun _ => rfl⟩

theorem heeds_ofExcept (outcome : Except Fault α) : Heeds (ofExcept outcome) :=
  fun s => ⟨_, _, s, follows_of_run rfl fun _ => rfl⟩

theorem heeds_download (url : String) : Heeds (download url) := by
  intro s
  refine ⟨_, (s.web.respond url).1.mapError Fault.error, s.downloaded url,
    follows_of_run rfl fun failing => ?_⟩
  exact runAt_download url { s with failing }

theorem heeds_storeCall (call : StoreCall) (f : Store → α × Store) :
    Heeds (storeCall call f) := by
  intro s
  refine ⟨[call], .ok (f s.store).1, { s with store := (f s.store).2, calls := s.calls + 1 },
    rfl, fun failing hnone => ?_, fun failing n other hfirst => ?_⟩
  · cases hfails : failing s.calls call with
    | false => exact runAt_storeCall (s := { s with failing }) hfails f
    | true => simp [firstFailing?, hfails] at hnone
  · cases hfails : failing s.calls call with
    | false => simp [firstFailing?, hfails] at hfirst
    | true =>
        simp only [firstFailing?, hfails, if_true, Option.some.injEq, Prod.mk.injEq] at hfirst
        obtain ⟨rfl, rfl⟩ := hfirst
        exact ⟨_, runAt_storeCall_of_failing (s := { s with failing }) hfails f, rfl⟩

/-! ## Sequences -/

/-- After a beginning that follows its course, the course of the rest decides. -/
theorem Follows.andThen {x : Action α} {y z : Action β} {made later : List StoreCall}
    {first : Except Fault α} {outcome : Except Fault β} (hx : Follows x s made first t)
    (hy : Follows y t later outcome u)
    (hgoes : ∀ failing, x.runAt { s with failing } = (first, { t with failing }) →
      z.runAt { s with failing } = y.runAt { t with failing })
    (hstops : ∀ failing (call : StoreCall) v,
      x.runAt { s with failing } = (.error (.error call.failure), v) →
        z.runAt { s with failing } = (.error (.error call.failure), v)) :
    Follows z s (made ++ later) outcome u where
  calls_eq := by
    rw [hy.calls_eq, hx.calls_eq, List.length_append, Nat.add_assoc]
  ends failing hnone := by
    rw [firstFailing?_append, Option.or_eq_none_iff, ← hx.calls_eq] at hnone
    rw [hgoes failing (hx.ends failing hnone.1)]
    exact hy.ends failing hnone.2
  stops failing n call hfirst := by
    rw [firstFailing?_append, ← hx.calls_eq] at hfirst
    -- The first failing call is one of the beginning, or all of those work.
    cases hbegin : firstFailing? failing s.calls made with
    | some found =>
        rw [hbegin] at hfirst
        cases hfirst
        obtain ⟨v, hrun, hcalls⟩ := hx.stops failing n call hbegin
        exact ⟨v, hstops failing call v hrun, hcalls⟩
    | none =>
        rw [hbegin] at hfirst
        rw [hgoes failing (hx.ends failing hbegin)]
        exact hy.stops failing n call hfirst

theorem follows_throw (e : Fault) (s : Station) :
    Follows (throw e : Action α) s [] (.error e) s := follows_of_run rfl fun _ => rfl

theorem runAt_bind_of_error {x : Action α} {f : α → Action β} {e : Fault}
    (h : x.runAt s = (.error e, t)) : (x >>= f).runAt s = (.error e, t) := by
  rw [runAt_bind, h]

theorem Heeds.bind {x : Action α} {f : α → Action β} (hx : Heeds x) (hf : ∀ a, Heeds (f a)) :
    Heeds (x >>= f) := by
  intro s
  obtain ⟨made, first, t, hfirst⟩ := hx s
  have hstops : ∀ failing (call : StoreCall) v,
      x.runAt { s with failing } = (.error (.error call.failure), v) →
        (x >>= f).runAt { s with failing } = (.error (.error call.failure), v) :=
    fun _ _ _ => runAt_bind_of_error
  cases first with
  | ok a =>
      obtain ⟨later, outcome, u, hrest⟩ := hf a t
      refine ⟨_, outcome, u, hfirst.andThen hrest (fun failing h => ?_) hstops⟩
      rw [runAt_bind, h]
  | error e =>
      exact ⟨_, .error e, t,
        hfirst.andThen (follows_throw e t) (fun _ => runAt_bind_of_error) hstops⟩

section Either

variable {x : Action α} {failed : WeatherError → Action β} {ok : α → Action β}

theorem runAt_either_ok {a : α} (h : x.runAt s = (.ok a, t)) :
    (either x failed ok).runAt s = (ok a).runAt t := by
  unfold either
  rw [runAt_bind, runAt_attempt, h]

theorem runAt_either_error {e : WeatherError} (h : x.runAt s = (.error (.error e), t)) :
    (either x failed ok).runAt s = (failed e).runAt t := by
  unfold either
  rw [runAt_bind, runAt_attempt, h]

theorem runAt_either_offCalendar (h : x.runAt s = (.error .offCalendar, t)) :
    (either x failed ok).runAt s = (.error .offCalendar, t) := by
  unfold either
  rw [runAt_bind, runAt_attempt, h]

theorem Heeds.either (hx : Heeds x) (hfailed : ∀ e, Heeds (failed e)) (hok : ∀ a, Heeds (ok a))
    (hstore : ∀ detail, failed (.store detail) = fail (.store detail)) :
    Heeds (either x failed ok) := by
  intro s
  obtain ⟨made, first, t, hfirst⟩ := hx s
  have hstops : ∀ failing (call : StoreCall) v,
      x.runAt { s with failing } = (.error (.error call.failure), v) →
        (Action.either x failed ok).runAt { s with failing } =
          (.error (.error call.failure), v) := by
    intro failing call v h
    -- Dealing with the failure of a store call means to pass it on.
    rw [runAt_either_error h, StoreCall.failure, hstore]
    rfl
  obtain (e | _) | a := first
  · obtain ⟨later, outcome, u, hrest⟩ := hfailed e t
    exact ⟨_, outcome, u, hfirst.andThen hrest (fun _ => runAt_either_error) hstops⟩
  · exact ⟨_, _, t,
      hfirst.andThen (follows_throw _ t) (fun _ => runAt_either_offCalendar) hstops⟩
  · obtain ⟨later, outcome, u, hrest⟩ := hok a t
    exact ⟨_, outcome, u, hfirst.andThen hrest (fun _ => runAt_either_ok) hstops⟩

end Either

/-! ## Freshness checks -/

theorem heeds_requirePlace (geoid : String) : Heeds (requirePlace geoid) := by
  refine (heeds_storeCall _ _).bind fun stored => ?_
  cases stored with
  | some place => exact heeds_pure place
  | none => exact heeds_fail _

theorem heeds_reconcilePlace (downloaded : Place) : Heeds (reconcilePlace downloaded) := by
  refine (heeds_storeCall _ _).bind fun existing => ?_
  cases (Place.reconcile existing downloaded).record? with
  | some place => exact heeds_storeCall _ _
  | none => exact heeds_pure ()

theorem heeds_storeFeed (url : String) (geoid : Option String) : Heeds (storeFeed url geoid) := by
  refine (heeds_download url).bind fun document => ?_
  refine (heeds_ofExcept _).bind fun feed => ?_
  refine (heeds_reconcilePlace feed.place).bind fun _ => ?_
  refine (heeds_storeCall _ _).bind fun _ => ?_
  exact (heeds_storeCall _ _).bind fun _ => heeds_pure feed

theorem heeds_backOff (geoid : String) (schedule : Schedule) (now : Instant) :
    Heeds (backOff geoid schedule now) := by
  refine (heeds_ofExcept _).bind fun later => ?_
  exact (heeds_storeCall _ _).bind fun _ => heeds_pure later

theorem heeds_settle (geoid : String) (feed : Feed) (now : Instant) :
    Heeds (settle geoid feed now) := by
  refine (heeds_storeCall _ _).bind fun stored => ?_
  dsimp only
  split
  · exact (heeds_backOff geoid _ now).bind fun _ => heeds_pure _
  · exact (heeds_pure _).bind fun _ => heeds_pure _

theorem heeds_absorb (geoid : String) (schedule : Schedule) (now : Instant) (e : WeatherError) :
    Heeds (absorb geoid schedule now e) := by
  unfold absorb
  split
  · exact (heeds_backOff geoid schedule now).bind fun _ => heeds_pure _
  · exact heeds_fail e

theorem heeds_ensureFresh (baseUrl geoid : String) (now : Instant) :
    Heeds (ensureFresh baseUrl geoid now) := by
  refine (heeds_storeCall _ _).bind fun stored => ?_
  split
  · exact heeds_pure _
  · refine (heeds_requirePlace geoid).bind fun place => ?_
    exact (heeds_storeFeed _ _).either (heeds_absorb geoid _ now) (heeds_settle geoid · now)
      fun detail => rfl

end Action

end PlaceWeather
