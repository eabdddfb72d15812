import PlaceWeather.Proofs.Forecast.LastPerStart
import PlaceWeather.Proofs.Session.Provenance

/-!
# What the store lists

After any calls of a store, whichever of the two it is, the entries listed for a place are read off
the last list that was put there (`forecasts_run`): one entry for each start, the last one given,
without those that have ended, in the order of time.  Calls for other places, for place records and
for schedules make no difference to them (`entries_of_last_put`).
-/

namespace PlaceWeather

/-! ## The order of times -/

/-- `t` comes before `u`: on an earlier date, or in an earlier second of the same date, or `u` is
the leap second that follows `t`. -/
def LocalTime.Before (t u : LocalTime) : Prop :=
  t.date < u.date ∨
    t.date = u.date ∧
      (t.second < u.second ∨ t.second = u.second ∧ t.leap = false ∧ u.leap = true)

theorem LocalTime.lt_iff_before {t u : LocalTime} : t < u ↔ t.Before u := by
  -- Two ranks for each second of a day: dates first, then seconds, then the leap second.
  have hday := t.inDay
  have hday' := u.inDay
  have hdate : t.date = u.date ↔ t.date.number = u.date.number :=
    ⟨fun h => congrArg Date.number h, Date.ext_number⟩
  rw [LocalTime.lt_iff_rank, LocalTime.Before, Date.lt_iff_number, hdate]
  unfold LocalTime.rank
  cases t.leap <;> cases u.leap <;> simp <;> omega

/-! ## Calls of the store -/

namespace Step

/-- A step that calls the store and does nothing else. -/
def CallsStore : Step → Prop
  | .seedPlace _ | .place _ | .findByLink _ _ => True
  | .schedule _ | .putSchedule _ _ | .entries _ _ | .putEntries _ _ => True
  | .reopenStore => True
  | _ => False

/-- The entries that a step puts for a place. -/
def entriesFor? (geoid : String) : Step → Option (List ForecastEntry)
  | .putEntries other given => if other = geoid then some given else none
  | _ => none

/-- The entries that were last put for a place. -/
def lastEntries? (steps : List Step) (geoid : String) : Option (List ForecastEntry) :=
  (steps.filterMap (entriesFor? geoid)).getLast?

theorem lastEntries?_cons (first : Step) (rest : List Step) (geoid : String) :
    lastEntries? (first :: rest) geoid =
      (lastEntries? rest geoid).or (first.entriesFor? geoid) := by
  unfold lastEntries?
  rw [List.filterMap_cons]
  cases h : first.entriesFor? geoid with
  | none => simp
  | some given => simp [List.getLast?_cons, Option.or_some]

end Step

namespace Session

open Step

variable {s : Session}

/-- A call of a store that works leaves what it makes of the store. -/
theorem station_perform_storeCall {α : Type} (works : s.station.Reliable) (answer : α → Answer)
    (call : StoreCall) (f : Store → α × Store) :
    (s.perform answer (Action.storeCall call f)).2.station =
      { s.station with store := (f s.station.store).2, calls := s.station.calls + 1 } := by
  rw [station_perform, Action.runAt_storeCall (works s.station.calls call)]

/-- One call replaces the forecasts of the place it puts entries for, and no others. -/
theorem forecasts_step {step : Step} (works : s.station.Reliable) (hcalls : step.CallsStore)
    (geoid : String) :
    (s.step step).2.station.Reliable ∧
      (s.step step).2.station.store.forecasts.get? geoid =
        ((step.entriesFor? geoid).map ForecastSet.ofEntries).or
          (s.station.store.forecasts.get? geoid) := by
  cases step with
  | setClock | advanceClock | serve | failStore | weather | report | addPlace | refresh |
    ensureFresh => exact hcalls.elim
  | reopenStore => exact ⟨works, rfl⟩
  | place | findByLink | schedule | entries | putSchedule =>
      simp only [Session.step, Action.getPlace, Action.findByLink, Action.getSchedule,
        Action.getEntries, Action.putSchedule, station_perform_storeCall works]
      exact ⟨works, rfl⟩
  | seedPlace place =>
      -- A place whose keys the store does not take is refused, and nothing is written.
      simp only [Session.step, station_perform, Action.seedPlace, Action.runAt_bind,
        Action.runAt_get]
      split
      · rw [Action.putPlace, Action.runAt_storeCall (works _ _)]
        exact ⟨works, rfl⟩
      · exact ⟨works, rfl⟩
  | putEntries other given =>
      simp only [Session.step, Action.putEntries, station_perform_storeCall works]
      refine ⟨works, ?_⟩
      show (s.station.store.forecasts.insert other _).get? geoid = _
      rw [Table.get?_insert, entriesFor?]
      by_cases hother : other = geoid
      · rw [if_pos hother, if_pos hother]
        rfl
      · rw [if_neg hother, if_neg hother]
        rfl

/-- After calls of the store the forecasts of a place are those that were last put. -/
theorem forecasts_run {steps : List Step} (works : s.station.Reliable)
    (hcalls : ∀ step ∈ steps, step.CallsStore) (geoid : String) :
    (s.run steps).2.station.Reliable ∧
      (s.run steps).2.station.store.forecasts.get? geoid =
        ((lastEntries? steps geoid).map ForecastSet.ofEntries).or
          (s.station.store.forecasts.get? geoid) := by
  -- What the first call puts is hidden by what a later one puts for the same place.
  induction steps generalizing s with
  | nil => exact ⟨works, rfl⟩
  | cons first rest ih =>
      obtain ⟨hworks, hfirst⟩ := forecasts_step works (hcalls first List.mem_cons_self) geoid
      obtain ⟨hworks', hrest⟩ :=
        ih hworks fun step hstep => hcalls step (List.mem_cons_of_mem first hstep)
      refine ⟨hworks', ?_⟩
      show ((s.step first).2.run rest).2.station.store.forecasts.get? geoid = _
      rw [hrest, hfirst, lastEntries?_cons]
      cases lastEntries? rest geoid <;> simp

/-- The answer of a store that works to a call for the entries of a place. -/
theorem answer_entries (works : s.station.Reliable) (geoid : String) (time : LocalTime) :
    (s.step (.entries geoid time)).1 =
      .ok (.entries (s.station.store.entriesFrom geoid time)) := by
  show ((Action.getEntries geoid time).runAt s.station).1.map Answer.entries = _
  rw [(Action.ends_getEntries works geoid time).outcome_eq]
  rfl

/-- The answer after calls of a store that was empty is decided by what was last put. -/
theorem answer_entries_run {steps : List Step} (works : s.station.Reliable)
    (hempty : s.station.store.Empty) (hcalls : ∀ step ∈ steps, step.CallsStore) (geoid : String)
    (time : LocalTime) :
    ((s.run steps).2.step (.entries geoid time)).1 =
      .ok (.entries (match lastEntries? steps geoid with
        | some given => (ForecastSet.ofEntries given).endingFrom time
        | none => [])) := by
  obtain ⟨hworks, hforecasts⟩ := forecasts_run works hcalls geoid
  rw [answer_entries hworks, Store.entriesFrom, hforecasts, hempty.forecasts, Table.get?_empty,
    Option.or_none]
  cases lastEntries? steps geoid <;> rfl

/-- A store that was empty and does not fail, whether it looks through its places or keeps an index,
answers a call for the entries of a place after any other calls.  If entries were put for the place,
it lists those of the last list that was put: for each start the last entry of the list with this
start, if that has not ended before the given time, in the order of their starts.  Otherwise it
lists nothing.

So calls for other places, for place records and for schedules make no difference, nor does it make
one which of the stores it is: after any calls that agree in what was last put for the place, every
store answers the same. -/
theorem entries_of_last_put {steps : List Step} (works : s.station.Reliable)
    (hempty : s.station.store.Empty) (hcalls : ∀ step ∈ steps, step.CallsStore) (geoid : String)
    (time : LocalTime) :
    ∃ listed, ((s.run steps).2.step (.entries geoid time)).1 = .ok (.entries listed) ∧
      (∀ given, lastEntries? steps geoid = some given →
        listed.Pairwise (fun a b => a.start.Before b.start) ∧
        ∀ e, e ∈ listed ↔
          (given.filter fun other => other.start = e.start).getLast? = some e ∧
            time ≤ e.finish) ∧
      (lastEntries? steps geoid = none → listed = []) ∧
      ∀ (other : Session) (calls : List Step), other.station.Reliable →
        other.station.store.Empty → (∀ step ∈ calls, step.CallsStore) →
        lastEntries? calls geoid = lastEntries? steps geoid →
        ((other.run calls).2.step (.entries geoid time)).1 = .ok (.entries listed) := by
  refine ⟨_, answer_entries_run works hempty hcalls geoid time, ?_, ?_, ?_⟩
  · intro given hgiven
    rw [hgiven]
    have hlast := ForecastSet.lastPerStart_ofEntries given
    refine ⟨?_, ?_⟩
    · -- Leaving out entries that have ended keeps the order.
      have hascending : (ForecastSet.ofEntries given).values.Pairwise
          fun a b => a.start.Before b.start :=
        hlast.ascending.imp fun hlt => LocalTime.lt_iff_before.mp hlt
      exact hascending.filter _
    · intro e
      show e ∈ (ForecastSet.ofEntries given).values.filter _ ↔ _
      rw [List.mem_filter, hlast.mem_iff, decide_eq_true_iff]
  · intro hnone
    rw [hnone]
  · intro other calls works' hempty' hcalls' hsame
    rw [answer_entries_run works' hempty' hcalls' geoid time, hsame]

/-- An entry of a given place for six hours of the first day of 1970, with a temperature. -/
def quarterDay (quarter : Fin 4) (temperature : Int) : ForecastEntry where
  geoid := "g"
  start := .ofSecond default (21600 * quarter) (by omega)
  finish := .ofSecond default (21600 * quarter + 21599) (by omega)
  period := ""
  symbol := ""
  precipitation := 0
  windDirection := 0
  windSpeed := 0
  temperature := temperature
  pressure := 0

/-- Entries are put for a place, out of order and with two for one start, and then for another
one. -/
def mixedCalls : List Step :=
  [.putEntries "g" [quarterDay 0 9], .putEntries "g"
      [quarterDay 3 7, quarterDay 1 5, quarterDay 0 4, quarterDay 1 6],
    .schedule "g", .putEntries "h" []]

/-- From seven in the morning on, the later of the two entries for the second quarter of the day is
listed, and the first quarter is not. -/
theorem entries_of_last_put_mixed :
    ∃ listed, ((Session.run ⟨.epoch, .start .indexed .empty, ⟨.standard, "b", fun _ => false⟩⟩
        mixedCalls).2.step (.entries "g" (.ofSecond default 25200 (by decide)))).1 =
          .ok (.entries listed) ∧
      quarterDay 1 6 ∈ listed ∧ quarterDay 3 7 ∈ listed ∧ quarterDay 0 4 ∉ listed := by
  have hcalls : ∀ step ∈ mixedCalls, step.CallsStore := by simp [mixedCalls, Step.CallsStore]
  obtain ⟨listed, hanswer, hlisted, -, -⟩ := entries_of_last_put
    (s := ⟨.epoch, .start .indexed .empty, ⟨.standard, "b", fun _ => false⟩⟩)
    (Station.reliable_start _ _) Store.empty_indexed hcalls "g"
    (.ofSecond default 25200 (by decide))
  obtain ⟨-, hmem⟩ := hlisted _ rfl
  refine ⟨listed, hanswer, (hmem _).mpr ?_, (hmem _).mpr ?_, fun h => absurd ((hmem _).mp h) ?_⟩
  · decide +kernel
  · decide +kernel
  · decide +kernel

end Session

end PlaceWeather
