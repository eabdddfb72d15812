import Mathlib.Data.List.Induction
import PlaceWeather.Proofs.Table
import PlaceWeather.Store.Basic

/-!
# The link index

One owner is kept under each text `country/link`, while several places can have the same country and
link.  `owner?_putPlace` says what a write does to the owner of a key, and two facts follow from it
by induction over the writes.  What the index holds is right: an owner is a stored place and its
present key is the one it is found under (`LinksHold`).  But the index does not hold everything: the
owner of a key is the last place that was written under it, and when that place moves away, nobody
owns the key, even if another place still has it (`owner?_putPlaces`).
-/

namespace PlaceWeather

namespace Store

/-- The store after places were written one after the other. -/
def putPlaces (store : Store) (places : List Place) : Store := places.foldl putPlace store

/-- The owner of a key in the index. -/
def owner? (store : Store) (key : String) : Option String :=
  match store.links with
  | .scan => none
  | .keyed owners => owners.get? key

/-- The store keeps an index. -/
def KeepsIndex (store : Store) : Prop := ∃ owners, store.links = .keyed owners

/-- Every owner is a stored place, and its key is the one that it owns. -/
def LinksHold (store : Store) : Prop :=
  ∀ key geoid, store.owner? key = some geoid →
    ∃ p, store.place? geoid = some p ∧ LinkIndex.keyOf p = key

variable {store : Store} {places : List Place}

theorem putPlaces_concat (store : Store) (places : List Place) (last : Place) :
    store.putPlaces (places ++ [last]) = (store.putPlaces places).putPlace last := by
  unfold putPlaces
  rw [List.foldl_append]
  rfl

theorem KeepsIndex.putPlace (h : store.KeepsIndex) (p : Place) : (store.putPlace p).KeepsIndex := by
  obtain ⟨owners, howners⟩ := h
  refine ⟨LinkIndex.moveOwner owners (store.place? p.geoid) p, ?_⟩
  show store.links.move (store.place? p.geoid) p = _
  rw [howners]
  rfl

theorem findByLink?_of_index (h : store.KeepsIndex) (country link : String) :
    store.findByLink? country link =
      (store.owner? (LinkIndex.key country link)).bind store.place? := by
  obtain ⟨owners, howners⟩ := h
  unfold findByLink? owner?
  rw [howners]

/-! ## One write -/

/-- A place that is written owns its key, and gives up its old one if it still owns that. -/
theorem owner?_putPlace (h : store.KeepsIndex) (p : Place) (key : String) :
    (store.putPlace p).owner? key =
      if LinkIndex.keyOf p = key then some p.geoid
      else if (store.place? p.geoid).map LinkIndex.keyOf = some key ∧
          store.owner? key = some p.geoid then none
      else store.owner? key := by
  obtain ⟨owners, howners⟩ := h
  have hold : store.owner? key = owners.get? key := by
    unfold owner?
    rw [howners]
  have hnew : (store.putPlace p).owner? key =
      (LinkIndex.moveOwner owners (store.place? p.geoid) p).get? key := by
    unfold owner? Store.putPlace
    rw [howners]
    rfl
  rw [hnew, hold]
  unfold LinkIndex.moveOwner
  rw [Table.get?_insert]
  by_cases hkey : LinkIndex.keyOf p = key
  · rw [if_pos hkey, if_pos hkey]
  rw [if_neg hkey, if_neg hkey]
  cases hprevious : store.place? p.geoid with
  | none => simp
  | some old =>
      by_cases hown : LinkIndex.keyOf old = key
      · -- The old key is the one that is looked up.
        subst hown
        by_cases hgeoid : owners.get? (LinkIndex.keyOf old) = some p.geoid
        · simp [Table.get?_erase, Ne.symm hkey, hgeoid]
        · simp [hgeoid]
      · -- Another old key may be erased.
        have hnone : ¬ (some (LinkIndex.keyOf old) = some key ∧ owners.get? key = some p.geoid) :=
          fun h => hown (Option.some.inj h.1)
        rw [Option.map_some, if_neg hnone]
        dsimp only
        split
        · rw [Table.get?_erase, if_neg hown]
        · rfl

theorem LinksHold.putPlace (hindex : store.KeepsIndex) (h : store.LinksHold) (p : Place) :
    (store.putPlace p).LinksHold := by
  intro key geoid howner
  rw [owner?_putPlace hindex] at howner
  split at howner
  · rename_i hkey
    cases howner
    exact ⟨p, by rw [place?_putPlace, if_pos rfl], hkey⟩
  split at howner
  · cases howner
  · rename_i hkept
    obtain ⟨q, hq, hqkey⟩ := h key geoid howner
    -- The place that is written owned no key but its old one, and that one has been given up.
    have hother : p.geoid ≠ geoid := by
      rintro rfl
      exact hkept ⟨by rw [hq, Option.map_some, hqkey], howner⟩
    exact ⟨q, by rw [place?_putPlace, if_neg hother, hq], hqkey⟩

/-! ## Runs of writes -/

theorem keepsIndex_putPlaces (places : List Place) : (indexed.putPlaces places).KeepsIndex := by
  induction places using List.reverseRecOn with
  | nil => exact ⟨.empty, rfl⟩
  | append_singleton places last ih =>
      rw [putPlaces_concat]
      exact ih.putPlace last

theorem linksHold_putPlaces (places : List Place) : (indexed.putPlaces places).LinksHold := by
  induction places using List.reverseRecOn with
  | nil =>
      intro key geoid howner
      cases howner
  | append_singleton places last ih =>
      rw [putPlaces_concat]
      exact ih.putPlace (keepsIndex_putPlaces places) last

/-- The last place that was written under a key. -/
def lastUnder? (places : List Place) (key : String) : Option Place :=
  (places.filter fun p => LinkIndex.keyOf p = key).getLast?

theorem lastUnder?_concat (places : List Place) (last : Place) (key : String) :
    lastUnder? (places ++ [last]) key =
      if LinkIndex.keyOf last = key then some last else lastUnder? places key := by
  unfold lastUnder?
  rw [List.filter_append, List.getLast?_append]
  by_cases hkey : LinkIndex.keyOf last = key
  · simp [hkey]
  · simp [hkey]

theorem mem_of_lastUnder? {key : String} {p : Place} (h : lastUnder? places key = some p) :
    p ∈ places ∧ LinkIndex.keyOf p = key := by
  have hmem := List.mem_of_getLast? h
  rw [List.mem_filter, decide_eq_true_iff] at hmem
  exact hmem

/-- The owner of a key is the last place that was written under it, as long as that place has not
been written under another key. -/
theorem owner?_putPlaces {key geoid : String} :
    (indexed.putPlaces places).owner? key = some geoid ↔
      (lastUnder? places key).map Place.geoid = some geoid ∧
        ((indexed.putPlaces places).place? geoid).map LinkIndex.keyOf = some key := by
  induction places using List.reverseRecOn with
  | nil => simp [putPlaces, owner?, indexed, lastUnder?]
  | append_singleton places last ih =>
      rw [putPlaces_concat, owner?_putPlace (keepsIndex_putPlaces places), lastUnder?_concat,
        place?_putPlace]
      by_cases hkey : LinkIndex.keyOf last = key
      · rw [if_pos hkey, if_pos hkey]
        constructor
        · rintro ⟨⟩
          simp [hkey]
        · rintro ⟨hlast, -⟩
          exact hlast
      · rw [if_neg hkey, if_neg hkey]
        by_cases hgeoid : last.geoid = geoid
        · -- The place was written under another key, and owns this one no longer.
          subst hgeoid
          have howner : (indexed.putPlaces places).owner? key = some last.geoid →
              ((indexed.putPlaces places).place? last.geoid).map LinkIndex.keyOf = some key :=
            fun h => (ih.mp h).2
          rw [if_pos rfl, Option.map_some]
          constructor
          · intro h
            split at h
            · cases h
            · rename_i hkept
              exact absurd ⟨howner h, h⟩ hkept
          · rintro ⟨-, h⟩
            exact absurd (Option.some.inj h) hkey
        · -- The owner is another place, which stays where it is.
          rw [if_neg hgeoid, ← ih]
          split
          · rename_i hgiven
            rw [hgiven.2]
            simp [hgeoid]
          · rfl

end Store

end PlaceWeather
