/-!
# Tables

Finite maps kept in the order of their keys.  `get?_insert` says all there is to know about looking
up; `sorted_place` says that the order is kept.
-/

namespace PlaceWeather

/-- A finite map as its entries, in ascending order of their keys. -/
structure Table (κ α : Type) where
  entries : List (κ × α)
  deriving Repr

namespace Table

variable {κ α : Type}

/-- The table without entries. -/
def empty : Table κ α := ⟨[]⟩

/-- The keys in order. -/
def keys (t : Table κ α) : List κ := t.entries.map Prod.fst

/-- The values in the order of their keys. -/
def values (t : Table κ α) : List α := t.entries.map Prod.snd

/-- The value of the first entry with a key. -/
def lookup [DecidableEq κ] (k : κ) : List (κ × α) → Option α
  | [] => none
  | (j, v) :: rest => if j = k then some v else lookup k rest

/-- The value at a key. -/
def get? [DecidableEq κ] (t : Table κ α) (k : κ) : Option α := lookup k t.entries

/-- Puts an entry at its place among entries in order, in the place of one with the same key. -/
def place [DecidableEq κ] [LT κ] [DecidableLT κ] (k : κ) (v : α) : List (κ × α) → List (κ × α)
  | [] => [(k, v)]
  | (j, w) :: rest =>
    if j = k then (k, v) :: rest
    else if k < j then (k, v) :: (j, w) :: rest
    else (j, w) :: place k v rest

/-- The table with a value at a key. -/
def insert [DecidableEq κ] [LT κ] [DecidableLT κ] (t : Table κ α) (k : κ) (v : α) : Table κ α :=
  ⟨place k v t.entries⟩

/-- The table without the entry at a key. -/
def erase [DecidableEq κ] (t : Table κ α) (k : κ) : Table κ α :=
  ⟨t.entries.filter fun entry => !decide (entry.1 = k)⟩

/-- The table of a list of entries; of several with one key the last wins. -/
def ofList [DecidableEq κ] [LT κ] [DecidableLT κ] (entries : List (κ × α)) : Table κ α :=
  entries.foldl (fun t entry => t.insert entry.1 entry.2) empty

/-! ## Looking up -/

@[simp] theorem get?_empty [DecidableEq κ] (k : κ) : (empty : Table κ α).get? k = none := rfl

theorem lookup_place [DecidableEq κ] [LT κ] [DecidableLT κ] (k j : κ) (v : α)
    (entries : List (κ × α)) :
    lookup j (place k v entries) = if k = j then some v else lookup j entries := by
  induction entries with
  | nil => simp [place, lookup]
  | cons entry rest ih =>
    obtain ⟨i, w⟩ := entry
    by_cases hik : i = k
    · subst hik
      by_cases hij : i = j <;> simp [place, lookup, hij]
    · by_cases hlt : k < i
      · simp [place, lookup, hik, hlt]
      · by_cases hij : i = j
        · subst hij
          have hki : ¬ k = i := fun h => hik h.symm
          simp [place, lookup, hik, hlt, hki]
        · simp [place, lookup, hik, hlt, hij, ih]

theorem get?_insert [DecidableEq κ] [LT κ] [DecidableLT κ] (t : Table κ α) (k j : κ) (v : α) :
    (t.insert k v).get? j = if k = j then some v else t.get? j :=
  lookup_place k j v t.entries

theorem get?_erase [DecidableEq κ] (t : Table κ α) (k j : κ) :
    (t.erase k).get? j = if k = j then none else t.get? j := by
  obtain ⟨entries⟩ := t
  simp only [get?, erase]
  induction entries with
  | nil => simp [lookup]
  | cons entry rest ih =>
    obtain ⟨i, w⟩ := entry
    by_cases hik : i = k
    · subst hik
      by_cases hij : i = j
      · simpa [lookup, hij] using ih
      · simpa [lookup, hij] using ih
    · by_cases hij : i = j
      · subst hij
        have hki : ¬ k = i := fun h => hik h.symm
        simp [lookup, hik, hki]
      · simpa [lookup, hik, hij] using ih

/-! ## Order -/

theorem mem_place [DecidableEq κ] [LT κ] [DecidableLT κ] {k : κ} {v : α} {entry : κ × α}
    {entries : List (κ × α)} (h : entry ∈ place k v entries) :
    entry = (k, v) ∨ entry ∈ entries := by
  induction entries with
  | nil => simpa [place] using h
  | cons first rest ih =>
    obtain ⟨i, w⟩ := first
    by_cases hik : i = k
    · simp only [place, hik, if_true, List.mem_cons] at h
      rcases h with h | h
      · exact .inl h
      · exact .inr (List.mem_cons_of_mem _ h)
    · by_cases hlt : k < i
      · simp only [place, hik, hlt, if_true, if_false, List.mem_cons] at h
        rcases h with h | h | h
        · exact .inl h
        · exact .inr (by simp [h])
        · exact .inr (by simp [h])
      · simp only [place, hik, hlt, if_false, List.mem_cons] at h
        rcases h with h | h
        · exact .inr (by simp [h])
        · rcases ih h with h | h
          · exact .inl h
          · exact .inr (List.mem_cons_of_mem _ h)

/-- Putting an entry into a list in strictly ascending order leaves it so. -/
theorem sorted_place [DecidableEq κ] [LT κ] [DecidableLT κ]
    (trans : ∀ {a b c : κ}, a < b → b < c → a < c)
    (total : ∀ {a b : κ}, ¬ a = b → ¬ b < a → a < b)
    (k : κ) (v : α) {entries : List (κ × α)}
    (h : entries.Pairwise fun a b => a.1 < b.1) :
    (place k v entries).Pairwise fun a b => a.1 < b.1 := by
  induction entries with
  | nil => simp [place]
  | cons first rest ih =>
    obtain ⟨i, w⟩ := first
    rw [List.pairwise_cons] at h
    by_cases hik : i = k
    · subst hik
      simpa [place] using h
    · by_cases hlt : k < i
      · simp only [place, hik, hlt, if_true, if_false]
        refine List.pairwise_cons.2 ⟨?_, List.pairwise_cons.2 h⟩
        intro entry he
        rcases List.mem_cons.1 he with rfl | he
        · exact hlt
        · exact trans hlt (h.1 entry he)
      · simp only [place, hik, hlt, if_false]
        refine List.pairwise_cons.2 ⟨?_, ih h.2⟩
        intro entry he
        rcases mem_place he with rfl | he
        · exact total hik hlt
        · exact h.1 entry he

end Table

end PlaceWeather
