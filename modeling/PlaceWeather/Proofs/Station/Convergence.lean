import PlaceWeather.Proofs.Place.Agreement
import PlaceWeather.Proofs.Station.PlaceRecords

/-!
# Reconciling twice

What reconciling asks for is exact: a record is kept when the five fields agree with the
description, and otherwise it is taken over field by field, where the description differs
(`Place.reconcile_eq_update`).  Asking for it and doing it is `Action.applyPlace`, of which
`Action.reconcilePlace` forgets what was asked for.  The second time in a row nothing is asked for,
because the record that the first one left agrees with the description (`applyPlace_converges`).
-/

namespace PlaceWeather

namespace PlaceField

theorem same_withStatus {p q : Place} {status : PlaceStatus} (field : PlaceField) :
    Same { p with status := status } q field ↔ Same p q field := by
  cases field <;> exact Iff.rfl

end PlaceField

/-! ## What is asked for -/

namespace Place

variable {existing downloaded : Place}

theorem bne_eq_false_iff_beq {a b : Float} : (a != b) = false ↔ (a == b) = true := by
  unfold bne
  rw [Bool.not_eq_false']

theorem agrees_iff : existing.Agrees downloaded ↔
    (existing.latitude == downloaded.latitude) = true ∧
      (existing.longitude == downloaded.longitude) = true ∧
      existing.country = downloaded.country ∧ existing.name = downloaded.name ∧
      existing.link = downloaded.link := by
  constructor
  · intro h
    exact ⟨bne_eq_false_iff_beq.mp (h .latitude), bne_eq_false_iff_beq.mp (h .longitude),
      bne_eq_false_iff_eq.mp (h .country), bne_eq_false_iff_eq.mp (h .name),
      bne_eq_false_iff_eq.mp (h .link)⟩
  · rintro ⟨hlatitude, hlongitude, hcountry, hname, hlink⟩ field
    cases field with
    | latitude => exact bne_eq_false_iff_beq.mpr hlatitude
    | longitude => exact bne_eq_false_iff_beq.mpr hlongitude
    | country => exact bne_eq_false_iff_eq.mpr hcountry
    | name => exact bne_eq_false_iff_eq.mpr hname
    | link => exact bne_eq_false_iff_eq.mpr hlink

/-- Nothing is asked for exactly when record and description agree. -/
theorem reconcile_eq_unchanged_iff :
    reconcile (some existing) downloaded = .unchanged ↔ existing.Agrees downloaded := by
  constructor
  · intro h
    by_contra hdiffers
    rw [reconcile_of_not_agrees hdiffers] at h
    cases h
  · exact reconcile_of_agrees

/-- The update of a record that does not agree with a description. -/
theorem reconcile_eq_update (hdiffers : ¬ existing.Agrees downloaded) :
    ∃ place changed, reconcile (some existing) downloaded = .update place changed ∧
      place.geoid = existing.geoid ∧ place.status = .modified ∧
      (∀ field, PlaceField.differs existing downloaded field = true →
        PlaceField.Same place downloaded field) ∧
      (∀ field, PlaceField.differs existing downloaded field = false →
        PlaceField.Same place existing field) ∧
      changed.Sublist PlaceField.all ∧
      ∀ field, field ∈ changed ↔ PlaceField.differs existing downloaded field = true := by
  refine ⟨_, _, reconcile_of_not_agrees hdiffers, geoid_merged existing downloaded, rfl, ?_, ?_,
    List.filter_sublist, fun field => mem_changedFields⟩
  · intro field hdiffers
    have hchanged := mem_changedFields.mpr hdiffers
    exact (PlaceField.same_withStatus field).mpr (PlaceField.same_foldl_copy (.inl hchanged))
  · intro field hequal
    have hchanged : field ∉ changedFields existing downloaded := by
      rw [mem_changedFields, hequal]
      exact Bool.false_ne_true
    exact (PlaceField.same_withStatus field).mpr
      (PlaceField.same_foldl_copy_of_not_mem hchanged existing downloaded)

end Place

namespace Action

variable {s t : Station} {downloaded : Place}

/-- Reconciles a downloaded place with the stored one, writes what that asks for, and says what it
was. -/
def applyPlace (downloaded : Place) : Action Reconciliation := do
  let existing ← getPlace downloaded.geoid
  let asked := Place.reconcile existing downloaded
  match asked.record? with
  | some place => putPlace place
  | none => pure ()
  pure asked

/-! ## One application -/

/-- An application that comes to its end has asked for what the stored record calls for, and has
done it. -/
theorem runAt_applyPlace_eq_ok {asked : Reconciliation}
    (h : (applyPlace downloaded).runAt s = (.ok asked, t)) :
    asked = Place.reconcile (s.store.place? downloaded.geoid) downloaded ∧
      t.store = s.store.reconciled downloaded := by
  obtain ⟨existing, u, hread, h⟩ := runAt_bind_eq_ok h
  obtain ⟨rfl, rfl⟩ := runAt_storeCall_eq_ok hread
  dsimp only at h
  rw [Store.reconciled]
  cases hrecord : (Place.reconcile (s.store.place? downloaded.geoid) downloaded).record? with
  | some place =>
      rw [hrecord] at h
      obtain ⟨_, v, hwrite, h⟩ := runAt_bind_eq_ok h
      obtain ⟨-, rfl⟩ := runAt_storeCall_eq_ok hwrite
      cases h
      exact ⟨rfl, rfl⟩
  | none =>
      rw [hrecord] at h
      cases h
      exact ⟨rfl, rfl⟩

/-- What was asked for is forgotten when a feed is stored. -/
theorem reconcilePlace_eq_applyPlace (downloaded : Place) :
    reconcilePlace downloaded = applyPlace downloaded >>= fun _ => pure () := by
  unfold reconcilePlace applyPlace
  rw [bind_assoc]
  refine congrArg _ (funext fun existing => ?_)
  dsimp only
  cases (Place.reconcile existing downloaded).record? with
  | some place =>
      dsimp only
      rw [bind_assoc]
      simp only [pure_bind, bind_pure_unit]
  | none => rfl

theorem runAt_reconcilePlace_eq_applyPlace (s : Station) (downloaded : Place) :
    (reconcilePlace downloaded).runAt s =
      (((applyPlace downloaded).runAt s).1.map fun _ => (), ((applyPlace downloaded).runAt s).2) := by
  rw [reconcilePlace_eq_applyPlace, runAt_bind]
  rcases (applyPlace downloaded).runAt s with ⟨_ | _, _⟩ <;> rfl

/-- An application reconciles the place or leaves the store as it is. -/
theorem store_of_applyPlace (s : Station) (downloaded : Place) :
    ((applyPlace downloaded).runAt s).2.store = s.store.reconciled downloaded ∨
      ((applyPlace downloaded).runAt s).2.store = s.store := by
  have hrun := congrArg Prod.snd (runAt_reconcilePlace_eq_applyPlace s downloaded)
  dsimp only at hrun
  rw [← hrun]
  cases htaken : s.takesPlace s.calls downloaded with
  | true =>
      obtain ⟨n, hn⟩ := runAt_reconcilePlace_of_taken htaken
      rw [hn]
      exact .inl rfl
  | false =>
      obtain ⟨e, n, hn⟩ := runAt_reconcilePlace_of_not_taken htaken
      rw [hn]
      exact .inr rfl

/-- At a station whose store does not fail an application comes to its end. -/
theorem runAt_applyPlace_of_reliable (works : s.Reliable) (downloaded : Place) :
    ∃ n, (applyPlace downloaded).runAt s =
      (.ok (Place.reconcile (s.store.place? downloaded.geoid) downloaded),
        { s with store := s.store.reconciled downloaded, calls := n }) := by
  have hrun := runAt_reconcilePlace_eq_applyPlace s downloaded
  obtain ⟨n, hn⟩ := runAt_reconcilePlace_of_taken (works.takesPlace s.calls downloaded)
  rw [hn] at hrun
  rcases happly : (applyPlace downloaded).runAt s with ⟨e | asked, t⟩
  · rw [happly] at hrun
    cases hrun
  · rw [happly] at hrun
    have ht : t = { s with store := s.store.reconciled downloaded, calls := n } :=
      (congrArg Prod.snd hrun).symm
    rw [(runAt_applyPlace_eq_ok happly).1, ht]
    exact ⟨n, rfl⟩

/-! ## Two applications -/

/-- Where the record agrees with the description, an application leaves the store as it is, and asks
for nothing if it comes to its end. -/
theorem runAt_applyPlace_of_agrees {record : Place}
    (hrecord : s.store.place? downloaded.geoid = some record) (hagrees : record.Agrees downloaded) :
    ((applyPlace downloaded).runAt s).2.store = s.store ∧
      ∀ asked, ((applyPlace downloaded).runAt s).1 = .ok asked → asked = .unchanged := by
  constructor
  · rcases store_of_applyPlace s downloaded with hstore | hstore
    · rw [hstore, Store.reconciled_of_agrees hrecord hagrees]
    · exact hstore
  · intro asked hasked
    rw [(runAt_applyPlace_eq_ok (Prod.ext hasked rfl)).1, hrecord]
    exact Place.reconcile_of_agrees hagrees

/-- Reconciling a definite description of a place.

What is asked for: a place without a record is inserted as `added`.  A record is left unchanged
exactly when latitude, longitude, country, name and link are equal to those of the description.
Otherwise it is updated: the new record keeps the identifier and is `modified`, a field that differs
is that of the description and another one that of the record, and the changed fields are the
differing ones in the order of `PlaceField.all`.

What is done, in a keyed store: no record of another place changes, whether store calls fail or not.
Once an application has come to its end, as it does unless a store call fails, the next one leaves
the store as it is and finds the place unchanged. -/
theorem applyPlace_converges (downloaded : Place) (hdefinite : downloaded.Definite) :
    Place.reconcile none downloaded = .insert { downloaded with status := .added } ∧
    (∀ existing : Place,
      (Place.reconcile (some existing) downloaded = .unchanged ↔
        (existing.latitude == downloaded.latitude) = true ∧
          (existing.longitude == downloaded.longitude) = true ∧
          existing.country = downloaded.country ∧ existing.name = downloaded.name ∧
          existing.link = downloaded.link) ∧
      (Place.reconcile (some existing) downloaded ≠ .unchanged →
        ∃ place changed, Place.reconcile (some existing) downloaded = .update place changed ∧
          place.geoid = existing.geoid ∧ place.status = .modified ∧
          (∀ field, PlaceField.differs existing downloaded field = true →
            PlaceField.Same place downloaded field) ∧
          (∀ field, PlaceField.differs existing downloaded field = false →
            PlaceField.Same place existing field) ∧
          changed.Sublist PlaceField.all ∧
          ∀ field, field ∈ changed ↔ PlaceField.differs existing downloaded field = true)) ∧
    ∀ s : Station, s.store.Keyed →
      (∀ geoid, geoid ≠ downloaded.geoid →
        ((applyPlace downloaded).runAt s).2.store.place? geoid = s.store.place? geoid) ∧
      (∀ asked t, (applyPlace downloaded).runAt s = (.ok asked, t) →
        asked = Place.reconcile (s.store.place? downloaded.geoid) downloaded ∧
        ((applyPlace downloaded).runAt t).2.store = t.store ∧
        ∀ again, ((applyPlace downloaded).runAt t).1 = .ok again → again = .unchanged) ∧
      (s.Reliable → ∃ t u,
        (applyPlace downloaded).runAt s =
          (.ok (Place.reconcile (s.store.place? downloaded.geoid) downloaded), t) ∧
        (applyPlace downloaded).runAt t = (.ok .unchanged, u) ∧ u.store = t.store) := by
  refine ⟨rfl, fun existing => ⟨?_, fun hchanged => ?_⟩, fun s hkeyed => ⟨?_, ?_, ?_⟩⟩
  · exact Place.reconcile_eq_unchanged_iff.trans Place.agrees_iff
  · exact Place.reconcile_eq_update (mt Place.reconcile_of_agrees hchanged)
  · intro geoid hother
    rcases store_of_applyPlace s downloaded with hstore | hstore
    · rw [hstore]
      exact hkeyed.place?_reconciled hother
    · rw [hstore]
  · intro asked t hrun
    obtain ⟨hasked, hstore⟩ := runAt_applyPlace_eq_ok hrun
    -- The record that is there now agrees with the description.
    obtain ⟨record, hrecord, hagrees⟩ := hkeyed.agrees_reconciled hdefinite
    rw [← hstore] at hrecord
    exact ⟨hasked, runAt_applyPlace_of_agrees hrecord hagrees⟩
  · intro works
    obtain ⟨n, hfirst⟩ := runAt_applyPlace_of_reliable works downloaded
    obtain ⟨m, hsecond⟩ := runAt_applyPlace_of_reliable
      (s := { s with store := s.store.reconciled downloaded, calls := n }) works downloaded
    obtain ⟨record, hrecord, hagrees⟩ := hkeyed.agrees_reconciled hdefinite
    dsimp only at hsecond
    rw [hrecord, Place.reconcile_of_agrees hagrees] at hsecond
    exact ⟨_, _, hfirst, hsecond, Store.reconciled_of_agrees hrecord hagrees⟩

/-- The name of a place has changed, and one of its coordinates is the other zero. -/
theorem applyPlace_converges_remote :
    let downloaded : Place := ⟨"g", -0.0, 0, "C", "Q", "L", .original⟩
    ∃ t u, ∃ place,
      (applyPlace downloaded).runAt .remote = (.ok (.update place [.name]), t) ∧
      (applyPlace downloaded).runAt t = (.ok .unchanged, u) ∧ u.store = t.store := by
  intro downloaded
  obtain ⟨-, -, happly⟩ := applyPlace_converges downloaded (by decide +kernel)
  obtain ⟨-, -, htwice⟩ := happly .remote (Store.keyed_scanning.putPlace _)
  obtain ⟨t, u, hfirst, hsecond, hstore⟩ := htwice (Station.reliable_start _ _)
  refine ⟨t, u, ⟨"g", 0, 0, "C", "Q", "L", .modified⟩, ?_, hsecond, hstore⟩
  rw [hfirst]
  refine congrArg (fun asked => (Except.ok asked, t)) ?_
  decide +kernel

end Action

end PlaceWeather
