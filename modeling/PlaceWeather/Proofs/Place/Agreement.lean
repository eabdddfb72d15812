import PlaceWeather.Proofs.Place.Reconciled

/-!
# Agreement of places

A record agrees with a description when none of the five compared fields differs.  A description
that agrees with the record is not stored at all; one that does not leaves the record `modified`,
and the record agrees with it then (`agrees_merged`).

Agreement is weaker than equality: the two zeros agree.  It is not reflexive either, since a
coordinate that is no number differs from itself; `Definite` excludes those.
-/

namespace PlaceWeather

namespace PlaceField

theorem Same.trans {a b c : Place} {field : PlaceField} (hab : Same a b field)
    (hbc : Same b c field) : Same a c field := by
  cases field <;> exact Eq.trans hab hbc

theorem same_copy_of_ne {field other : PlaceField} (h : field ≠ other) (a b : Place) :
    Same (other.copy a b) a field := by
  cases field <;> cases other <;> first | rfl | exact absurd rfl h

/-- A field that is not taken over keeps its value. -/
theorem same_foldl_copy_of_not_mem {fields : List PlaceField} {field : PlaceField}
    (h : field ∉ fields) (a b : Place) :
    Same (fields.foldl (fun p other => other.copy p b) a) a field := by
  induction fields generalizing a with
  | nil => cases field <;> rfl
  | cons first rest ih =>
      rw [List.mem_cons, not_or] at h
      obtain ⟨hne, hrest⟩ := h
      rw [List.foldl_cons]
      exact (ih hrest (first.copy a b)).trans (same_copy_of_ne hne a b)

/-- Only the value of the field decides whether it differs. -/
theorem Same.differs_eq {a b : Place} {field : PlaceField} (h : Same a b field) (c : Place) :
    field.differs a c = field.differs b c := by
  cases field
  all_goals
    have hvalue := h
    simp only [Same] at hvalue
    simp only [differs, hvalue]

end PlaceField

namespace Place

/-- No field of the record differs from the description. -/
def Agrees (record described : Place) : Prop :=
  ∀ field : PlaceField, field.differs record described = false

/-- Both coordinates equal themselves. -/
def Definite (p : Place) : Prop :=
  (p.latitude == p.latitude) = true ∧ (p.longitude == p.longitude) = true

instance (p : Place) : Decidable p.Definite :=
  inferInstanceAs
    (Decidable ((p.latitude == p.latitude) = true ∧ (p.longitude == p.longitude) = true))

theorem Definite.agrees_self {p : Place} (h : p.Definite) : p.Agrees p := by
  intro field
  cases field with
  | latitude => simp [PlaceField.differs, bne, h.1]
  | longitude => simp [PlaceField.differs, bne, h.2]
  | country | name | link => exact bne_self_eq_false _

variable {existing downloaded : Place}

theorem changedFields_eq_nil_iff : changedFields existing downloaded = [] ↔
    existing.Agrees downloaded := by
  rw [List.eq_nil_iff_forall_not_mem]
  simp only [mem_changedFields, Bool.not_eq_true]
  rfl

/-- A record with the fields taken over in which a description differs from it. -/
def merged (existing downloaded : Place) : Place :=
  (changedFields existing downloaded).foldl (fun p field => field.copy p downloaded) existing

@[simp] theorem geoid_merged (existing downloaded : Place) :
    (merged existing downloaded).geoid = existing.geoid :=
  geoid_foldl_copy _ existing downloaded

/-- After the merge the record agrees with a definite description: a field that was taken over is
the description's own, and another one did not differ before. -/
theorem agrees_merged (existing : Place) (hdefinite : downloaded.Definite) :
    (merged existing downloaded).Agrees downloaded := by
  intro field
  unfold merged
  by_cases hchanged : field ∈ changedFields existing downloaded
  · rw [(PlaceField.same_foldl_copy (.inl hchanged)).differs_eq]
    exact hdefinite.agrees_self field
  · rw [(PlaceField.same_foldl_copy_of_not_mem hchanged _ _).differs_eq]
    rw [mem_changedFields, Bool.not_eq_true] at hchanged
    exact hchanged

theorem reconcile_of_agrees (h : existing.Agrees downloaded) :
    reconcile (some existing) downloaded = .unchanged := by
  unfold reconcile
  dsimp only
  rw [changedFields_eq_nil_iff.mpr h]
  rfl

theorem reconcile_of_not_agrees (h : ¬ existing.Agrees downloaded) :
    reconcile (some existing) downloaded =
      .update { merged existing downloaded with status := .modified }
        (changedFields existing downloaded) := by
  have hchanged : (changedFields existing downloaded).isEmpty = false := by
    rw [List.isEmpty_eq_false_iff, Ne, changedFields_eq_nil_iff]
    exact h
  unfold reconcile
  dsimp only
  rw [if_neg (by rw [hchanged]; exact Bool.false_ne_true)]
  rfl

end Place

/-! ## Records after reconciling -/

namespace Store

variable {store : Store} {existing downloaded : Place}

/-- A description of a place without a record becomes its record. -/
theorem place?_reconciled_of_none (h : store.place? downloaded.geoid = none) :
    (store.reconciled downloaded).place? downloaded.geoid =
      some { downloaded with status := .added } := by
  unfold reconciled
  rw [h]
  show (store.putPlace { downloaded with status := .added }).place? downloaded.geoid = _
  rw [place?_putPlace, if_pos rfl]

/-- A description that agrees with the record changes nothing. -/
theorem reconciled_of_agrees (h : store.place? downloaded.geoid = some existing)
    (hagrees : existing.Agrees downloaded) : store.reconciled downloaded = store := by
  unfold reconciled
  rw [h, Place.reconcile_of_agrees hagrees]
  rfl

/-- A description that does not agree with the record is merged into it. -/
theorem Keyed.place?_reconciled_of_not_agrees (hkeyed : store.Keyed)
    (h : store.place? downloaded.geoid = some existing) (hdiffers : ¬ existing.Agrees downloaded) :
    (store.reconciled downloaded).place? downloaded.geoid =
      some { existing.merged downloaded with status := .modified } := by
  have hgeoid : (existing.merged downloaded).geoid = downloaded.geoid := by
    rw [Place.geoid_merged]
    exact hkeyed _ existing h
  unfold Store.reconciled
  rw [h, Place.reconcile_of_not_agrees hdiffers]
  show (store.putPlace { existing.merged downloaded with status := .modified }).place? _ = _
  rw [place?_putPlace, if_pos hgeoid]

/-- Whatever was stored before, the record left by a definite description agrees with it. -/
theorem Keyed.agrees_reconciled (hkeyed : store.Keyed) (hdefinite : downloaded.Definite) :
    ∃ record, (store.reconciled downloaded).place? downloaded.geoid = some record ∧
      record.Agrees downloaded := by
  cases hold : store.place? downloaded.geoid with
  | none => exact ⟨_, place?_reconciled_of_none hold, hdefinite.agrees_self⟩
  | some existing =>
      by_cases hagrees : existing.Agrees downloaded
      · rw [reconciled_of_agrees hold hagrees]
        exact ⟨existing, hold, hagrees⟩
      · exact ⟨_, hkeyed.place?_reconciled_of_not_agrees hold hagrees,
          Place.agrees_merged existing hdefinite⟩

end Store

end PlaceWeather
