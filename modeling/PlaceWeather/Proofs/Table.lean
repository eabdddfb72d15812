import Mathlib.Data.List.Induction
import PlaceWeather.Table

/-!
# Tables of lists

A table made of a list holds, under each key, the last value the list has for it (`get?_ofList`).
Where keys are ordered strictly the keys of the table ascend, and its entries are exactly what
looking up gives (`mem_ofList`).
-/

namespace PlaceWeather

/-- Texts are ordered totally. -/
theorem Text.lt_of_ne_of_not_lt {a b : String} (hne : ¬ a = b) (hlt : ¬ b < a) : a < b :=
  Decidable.byContradiction fun hnot =>
    hne (String.le_antisymm (String.not_lt.mp hlt) (String.not_lt.mp hnot))

namespace Table

variable {κ α : Type} [DecidableEq κ]

/-- The keys ascend strictly. -/
def Ascending [LT κ] (t : Table κ α) : Prop := t.entries.Pairwise fun a b => a.1 < b.1

theorem mem_of_lookup {k : κ} {v : α} {entries : List (κ × α)} (h : lookup k entries = some v) :
    (k, v) ∈ entries := by
  induction entries with
  | nil => cases h
  | cons entry rest ih =>
      obtain ⟨j, w⟩ := entry
      rw [lookup] at h
      split at h
      · rename_i hjk
        cases h
        rw [hjk]
        exact List.mem_cons_self
      · exact List.mem_cons_of_mem _ (ih h)

variable [LT κ]

theorem Ascending.lookup_of_mem (irrefl : ∀ a : κ, ¬ a < a) {t : Table κ α} (ht : t.Ascending)
    {k : κ} {v : α} (h : (k, v) ∈ t.entries) : t.get? k = some v := by
  obtain ⟨entries⟩ := t
  unfold Ascending at ht
  unfold get?
  induction entries with
  | nil => cases h
  | cons entry rest ih =>
      obtain ⟨j, w⟩ := entry
      obtain ⟨hfirst, hrest⟩ := List.pairwise_cons.mp ht
      rw [lookup]
      rcases List.mem_cons.mp h with heq | hmem
      · cases heq
        exact if_pos rfl
      · -- A later entry has a greater key, so the first one does not hide it.
        have hlt : j < k := hfirst (k, v) hmem
        have hne : j ≠ k := by
          rintro rfl
          exact irrefl j hlt
        rw [if_neg hne]
        exact ih hrest hmem

variable [DecidableLT κ]

theorem place_ne_nil (k : κ) (v : α) (entries : List (κ × α)) : place k v entries ≠ [] := by
  cases entries with
  | nil => exact List.cons_ne_nil _ _
  | cons entry rest =>
      obtain ⟨j, w⟩ := entry
      rw [place]
      split
      · exact List.cons_ne_nil _ _
      · split <;> exact List.cons_ne_nil _ _

theorem Ascending.insert (trans : ∀ {a b c : κ}, a < b → b < c → a < c)
    (total : ∀ {a b : κ}, ¬ a = b → ¬ b < a → a < b) {t : Table κ α} (ht : t.Ascending) (k : κ)
    (v : α) : (t.insert k v).Ascending :=
  sorted_place trans total k v ht

theorem ofList_concat (entries : List (κ × α)) (last : κ × α) :
    ofList (entries ++ [last]) = (ofList entries).insert last.1 last.2 := by
  unfold ofList
  rw [List.foldl_append]
  rfl

/-- A key is looked up to the last value the list has for it. -/
theorem get?_ofList (entries : List (κ × α)) (k : κ) :
    (ofList entries).get? k = (entries.filter fun entry => entry.1 = k).getLast?.map Prod.snd := by
  -- From the end of the list, since the last entry is inserted last.
  induction entries using List.reverseRecOn with
  | nil => rfl
  | append_singleton entries last ih =>
      rw [ofList_concat, get?_insert, List.filter_append, List.getLast?_append, ih]
      by_cases hlast : last.1 = k
      · simp [hlast]
      · simp [hlast]

theorem ascending_ofList (trans : ∀ {a b c : κ}, a < b → b < c → a < c)
    (total : ∀ {a b : κ}, ¬ a = b → ¬ b < a → a < b) (entries : List (κ × α)) :
    (ofList entries).Ascending := by
  induction entries using List.reverseRecOn with
  | nil => exact List.Pairwise.nil
  | append_singleton entries last ih =>
      rw [ofList_concat]
      exact ih.insert trans total last.1 last.2

theorem mem_ofList (irrefl : ∀ a : κ, ¬ a < a) (trans : ∀ {a b c : κ}, a < b → b < c → a < c)
    (total : ∀ {a b : κ}, ¬ a = b → ¬ b < a → a < b) {entries : List (κ × α)} {k : κ} {v : α} :
    (k, v) ∈ (ofList entries).entries ↔
      (entries.filter fun entry => entry.1 = k).getLast?.map Prod.snd = some v := by
  rw [← get?_ofList]
  exact ⟨(ascending_ofList trans total entries).lookup_of_mem irrefl, mem_of_lookup⟩

end Table

end PlaceWeather
