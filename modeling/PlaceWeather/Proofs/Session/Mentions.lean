import PlaceWeather.Proofs.Place.Agreement

/-!
# Mentions of places

A place is mentioned when it is registered by hand and when a feed that is stored describes it.  The
mentions of one place, in order, tell how its record came to its values and to its status
(`Mention.Tell`).  Its fields are those of the last mention.  It is `original` while everything
since it was last registered confirmed it, and `added` while it was never registered and everything
since its first description confirmed it.

A registration and a description each keep this for all places (`BearsOut.registered`,
`BearsOut.described`).
-/

namespace PlaceWeather

/-- A mention of a place. -/
inductive Mention where
  /-- The place was registered. -/
  | byHand (place : Place)
  /-- A feed described the place, and met a record of it or none. -/
  | byFeed (met : Option Place) (place : Place)
  deriving DecidableEq

namespace Mention

/-- The place as it was registered or described. -/
def place : Mention → Place
  | byHand place | byFeed _ place => place

/-- A description that agrees with the record it met. -/
def Confirms : Mention → Prop
  | byFeed (some met) place => met.Agrees place
  | byHand _ | byFeed none _ => False

/-- The mentions of one place. -/
def about (mentions : List Mention) (geoid : String) : List Mention :=
  mentions.filter fun m => m.place.geoid = geoid

/-- Everything since the last registration confirmed the record. -/
def HandKept (mentions : List Mention) : Prop :=
  ∃ before seed after, mentions = before ++ byHand seed :: after ∧ ∀ m ∈ after, m.Confirms

/-- There was no registration, and everything since the first description confirmed the record. -/
def FeedKept (mentions : List Mention) : Prop :=
  ∃ met first after, mentions = byFeed met first :: after ∧ ∀ m ∈ after, m.Confirms

/-- What the mentions of a place tell about its record. -/
structure Tell (mentions : List Mention) (record : Place) : Prop where
  agrees : ∃ last, mentions.getLast? = some last ∧ record.Agrees last.place
  original : record.status = .original ↔ HandKept mentions
  added : record.status = .added ↔ FeedKept mentions

variable {mentions later : List Mention} {last : Mention} {geoid : String} {record place : Place}

theorem about_append (mentions later : List Mention) (geoid : String) :
    about (mentions ++ later) geoid = about mentions geoid ++ about later geoid :=
  List.filter_append ..

theorem about_concat (mentions : List Mention) (last : Mention) (geoid : String) :
    about (mentions ++ [last]) geoid =
      if last.place.geoid = geoid then about mentions geoid ++ [last]
      else about mentions geoid := by
  rw [about_append]
  by_cases h : last.place.geoid = geoid <;> simp [about, h]

/-! ## One more mention -/

/-- A record that was kept is kept by a mention that confirms it; a registration begins anew. -/
theorem handKept_concat : HandKept (mentions ++ [last]) ↔
    (∃ seed, last = byHand seed) ∨ (last.Confirms ∧ HandKept mentions) := by
  constructor
  · rintro ⟨before, seed, after, hmentions, hafter⟩
    -- The last mention is the registration itself, or it is the end of what came after.
    rcases List.eq_nil_or_concat after with rfl | ⟨after, final, rfl⟩
    · obtain ⟨-, hlast⟩ := List.append_inj' hmentions rfl
      exact .inl ⟨seed, List.singleton_inj.mp hlast⟩
    · have hsplit : mentions ++ [last] = (before ++ byHand seed :: after) ++ [final] := by
        simpa using hmentions
      obtain ⟨hbefore, hlast⟩ := List.append_inj' hsplit rfl
      obtain rfl := List.singleton_inj.mp hlast
      exact .inr ⟨hafter last (by simp), before, seed, after, hbefore,
        fun m hm => hafter m (by simp [hm])⟩
  · rintro (⟨seed, rfl⟩ | ⟨hlast, before, seed, after, rfl, hafter⟩)
    · exact ⟨mentions, seed, [], rfl, by simp⟩
    · refine ⟨before, seed, after ++ [last], by simp, ?_⟩
      intro m hm
      rcases List.mem_append.mp hm with hm | hm
      · exact hafter m hm
      · rwa [List.mem_singleton.mp hm]

theorem feedKept_singleton (met : Option Place) (place : Place) : FeedKept [byFeed met place] :=
  ⟨met, place, [], rfl, by simp⟩

/-- After a first mention only one that confirms the record keeps it. -/
theorem feedKept_concat (hne : mentions ≠ []) :
    FeedKept (mentions ++ [last]) ↔ last.Confirms ∧ FeedKept mentions := by
  obtain ⟨head, rest, rfl⟩ := List.exists_cons_of_ne_nil hne
  constructor
  · rintro ⟨met, first, after, hmentions, hafter⟩
    obtain ⟨rfl, rfl⟩ := List.cons.inj hmentions
    exact ⟨hafter last (by simp), met, first, rest, rfl, fun m hm => hafter m (by simp [hm])⟩
  · rintro ⟨hlast, met, first, after, hmentions, hafter⟩
    obtain ⟨rfl, rfl⟩ := List.cons.inj hmentions
    refine ⟨met, first, rest ++ [last], rfl, ?_⟩
    intro m hm
    rcases List.mem_append.mp hm with hm | hm
    · exact hafter m hm
    · rwa [List.mem_singleton.mp hm]

/-- A record that was not kept stays so as long as the place is not registered again. -/
theorem not_kept_append (hne : mentions ≠ []) (hhand : ¬ HandKept mentions)
    (hfeed : ¬ FeedKept mentions) (hseed : ∀ seed, byHand seed ∉ later) :
    ¬ HandKept (mentions ++ later) ∧ ¬ FeedKept (mentions ++ later) := by
  induction later generalizing mentions with
  | nil =>
      rw [List.append_nil]
      exact ⟨hhand, hfeed⟩
  | cons next rest ih =>
      have hnext : ∀ seed, next ≠ byHand seed := by
        rintro seed rfl
        exact hseed seed List.mem_cons_self
      rw [List.append_cons]
      refine ih (by simp) ?_ ?_ fun seed h => hseed seed (List.mem_cons_of_mem next h)
      · rw [handKept_concat]
        rintro (⟨seed, hseed⟩ | h)
        · exact hnext seed hseed
        · exact hhand h.2
      · rw [feedKept_concat hne]
        exact fun h => hfeed h.2

namespace Tell

theorem ne_nil (h : Tell mentions record) : mentions ≠ [] := by
  obtain ⟨last, hlast, -⟩ := h.agrees
  rintro rfl
  cases hlast

/-- The third status is the one of all other records. -/
theorem modified (h : Tell mentions record) :
    record.status = .modified ↔ ¬ HandKept mentions ∧ ¬ FeedKept mentions := by
  rw [← h.original, ← h.added]
  cases record.status <;> simp

/-- A place that is registered. -/
theorem registered (mentions : List Mention) (hdefinite : place.Definite)
    (hstatus : place.status = .original) : Tell (mentions ++ [byHand place]) place where
  agrees := ⟨_, List.getLast?_concat, hdefinite.agrees_self⟩
  original := by
    rw [handKept_concat]
    exact iff_of_true hstatus (.inl ⟨place, rfl⟩)
  added := by
    rw [hstatus]
    refine iff_of_false (by simp) ?_
    -- The registration is neither a first description nor one that confirms the record.
    by_cases hfirst : mentions = []
    · subst hfirst
      rintro ⟨met, first, after, hmentions, -⟩
      cases hmentions
    · rw [feedKept_concat hfirst]
      exact fun h => h.1

/-- A place that is described for the first time. -/
theorem described (hdefinite : place.Definite) :
    Tell [byFeed none place] { place with status := .added } where
  agrees := ⟨_, rfl, hdefinite.agrees_self⟩
  original := by
    refine iff_of_false (by simp) ?_
    rw [← List.nil_append [byFeed none place], handKept_concat]
    rintro (⟨seed, hseed⟩ | ⟨hconfirms, -⟩)
    · cases hseed
    · exact hconfirms
  added := iff_of_true rfl (feedKept_singleton none place)

/-- A description that agrees with the record. -/
theorem confirmed (h : Tell mentions record) (hagrees : record.Agrees place) :
    Tell (mentions ++ [byFeed (some record) place]) record where
  agrees := ⟨_, List.getLast?_concat, hagrees⟩
  original := by
    rw [handKept_concat, h.original]
    simp [Confirms, hagrees]
  added := by
    rw [feedKept_concat h.ne_nil, h.added]
    simp [Confirms, hagrees]

/-- A description that does not. -/
theorem contradicted (h : Tell mentions record) (hdiffers : ¬ record.Agrees place)
    (hdefinite : place.Definite) :
    Tell (mentions ++ [byFeed (some record) place])
      { record.merged place with status := .modified } where
  agrees := ⟨_, List.getLast?_concat, Place.agrees_merged record hdefinite⟩
  original := by
    rw [handKept_concat]
    simp [Confirms, hdiffers]
  added := by
    rw [feedKept_concat h.ne_nil]
    simp [Confirms, hdiffers]

end Tell

end Mention

/-! ## Stores -/

/-- The mentions tell the records of all places, and each stands under its own identifier. -/
structure Store.BearsOut (store : Store) (mentions : List Mention) : Prop where
  keyed : store.Keyed
  absent : ∀ geoid, store.place? geoid = none → Mention.about mentions geoid = []
  told : ∀ geoid record, store.place? geoid = some record →
    Mention.Tell (Mention.about mentions geoid) record

namespace Store.BearsOut

variable {store other : Store} {mentions : List Mention} {place : Place}

theorem of_places_eq (h : store.BearsOut mentions) (hplaces : other.places = store.places) :
    other.BearsOut mentions where
  keyed := keyed_of_places_eq hplaces h.keyed
  absent geoid hnone := by
    rw [place?, hplaces] at hnone
    exact h.absent geoid hnone
  told geoid record hrecord := by
    rw [place?, hplaces] at hrecord
    exact h.told geoid record hrecord

theorem exists_record (h : store.BearsOut mentions) {geoid : String}
    (hmentioned : Mention.about mentions geoid ≠ []) :
    ∃ record, store.place? geoid = some record ∧
      Mention.Tell (Mention.about mentions geoid) record := by
  cases hrecord : store.place? geoid with
  | none => exact absurd (h.absent geoid hrecord) hmentioned
  | some record => exact ⟨record, rfl, h.told geoid record hrecord⟩

theorem place?_eq_none (h : store.BearsOut mentions) {geoid : String}
    (hunmentioned : Mention.about mentions geoid = []) : store.place? geoid = none := by
  rw [Option.eq_none_iff_forall_ne_some]
  intro record hrecord
  exact (h.told geoid record hrecord).ne_nil hunmentioned

/-- After more mentions a record is still there, and if it was `modified`, only a registration has
changed that. -/
theorem later_record {later : List Mention} {geoid : String} {before : Place}
    (h : store.BearsOut mentions) (hlater : other.BearsOut (mentions ++ later))
    (hbefore : store.place? geoid = some before) :
    ∃ record, other.place? geoid = some record ∧
      (before.status = .modified → (∀ seed, .byHand seed ∈ later → seed.geoid ≠ geoid) →
        record.status = .modified) := by
  have htold := h.told geoid before hbefore
  have hmentioned : Mention.about (mentions ++ later) geoid ≠ [] := by
    rw [Mention.about_append]
    exact fun hnil => htold.ne_nil (List.append_eq_nil_iff.mp hnil).1
  obtain ⟨record, hrecord, htell⟩ := hlater.exists_record hmentioned
  refine ⟨record, hrecord, ?_⟩
  intro hmodified hseeds
  obtain ⟨hhand, hfeed⟩ := htold.modified.mp hmodified
  rw [htell.modified, Mention.about_append]
  apply Mention.not_kept_append htold.ne_nil hhand hfeed
  intro seed hseed
  obtain ⟨hmem, hgeoid⟩ := List.mem_filter.mp hseed
  exact hseeds seed hmem (of_decide_eq_true hgeoid)

/-- A mention that leaves the other records concerns one place only. -/
theorem mentioned {last : Mention} {record : Place} (h : store.BearsOut mentions)
    (hkeyed : other.Keyed) (hself : other.place? last.place.geoid = some record)
    (hothers : ∀ geoid, last.place.geoid ≠ geoid → other.place? geoid = store.place? geoid)
    (htell : Mention.Tell (Mention.about mentions last.place.geoid ++ [last]) record) :
    other.BearsOut (mentions ++ [last]) where
  keyed := hkeyed
  absent geoid hnone := by
    rw [Mention.about_concat]
    split
    · rename_i hgeoid
      rw [← hgeoid, hself] at hnone
      cases hnone
    · rename_i hgeoid
      rw [hothers geoid hgeoid] at hnone
      exact h.absent geoid hnone
  told geoid found hfound := by
    rw [Mention.about_concat]
    split
    · rename_i hgeoid
      rw [← hgeoid, hself] at hfound
      cases hfound
      rw [← hgeoid]
      exact htell
    · rename_i hgeoid
      rw [hothers geoid hgeoid] at hfound
      exact h.told geoid found hfound

theorem registered (h : store.BearsOut mentions) (hdefinite : place.Definite)
    (hstatus : place.status = .original) :
    (store.putPlace place).BearsOut (mentions ++ [.byHand place]) := by
  have hself : (store.putPlace place).place? place.geoid = some place := by
    rw [place?_putPlace, if_pos rfl]
  have hothers : ∀ geoid, place.geoid ≠ geoid →
      (store.putPlace place).place? geoid = store.place? geoid := by
    intro geoid hne
    rw [place?_putPlace, if_neg hne]
  exact h.mentioned (h.keyed.putPlace place) hself hothers (.registered _ hdefinite hstatus)

theorem described (h : store.BearsOut mentions) (hdefinite : place.Definite) :
    (store.reconciled place).BearsOut
      (mentions ++ [.byFeed (store.place? place.geoid) place]) := by
  have hkeyed := h.keyed.reconciled place
  have hothers : ∀ geoid, place.geoid ≠ geoid →
      (store.reconciled place).place? geoid = store.place? geoid :=
    fun geoid hne => h.keyed.place?_reconciled hne.symm
  -- The three outcomes of reconciling.
  cases hold : store.place? place.geoid with
  | none =>
      refine h.mentioned hkeyed (place?_reconciled_of_none hold) hothers ?_
      show Mention.Tell (Mention.about mentions place.geoid ++ _) _
      rw [h.absent _ hold]
      exact .described hdefinite
  | some record =>
      have htold := h.told _ record hold
      by_cases hagrees : record.Agrees place
      · have hself : (store.reconciled place).place? place.geoid = some record := by
          rw [reconciled_of_agrees hold hagrees]
          exact hold
        exact h.mentioned hkeyed hself hothers (htold.confirmed hagrees)
      · exact h.mentioned hkeyed (h.keyed.place?_reconciled_of_not_agrees hold hagrees) hothers
          (htold.contradicted hagrees hdefinite)

end Store.BearsOut

end PlaceWeather
