import PlaceWeather.Proofs.Place.Keyed
import PlaceWeather.Proofs.Store.LinkIndex
import PlaceWeather.Proofs.Text.Pieces

/-!
# Finding places by country and link

After the same writes a store that looks through its places and one that keeps an index hold the
same places.  What they find by a country and a link is right in both: a stored place with that text
`country/link` (`owner_has_key`).  But only the first finds every place.  In an index the key of
several places is lost when the last of them that was written moves away, while the others stay
(`findByLink?_lost`); as long as none moves away, both stores agree (`findByLink?_of_writes`).
-/

namespace PlaceWeather

/-- Where countries have no slash, the key tells country and link. -/
theorem LinkIndex.key_eq_iff {country link other path : String} (h : '/' ∉ country.toList)
    (h' : '/' ∉ other.toList) :
    key country link = key other path ↔ country = other ∧ link = path := by
  constructor
  · intro hkey
    have hchars := congrArg String.toList hkey
    unfold key at hchars
    simp only [String.toList_append, List.append_assoc] at hchars
    obtain ⟨hcountry, hlink⟩ := Text.eq_of_append_cons_eq h h' hchars
    exact ⟨String.toList_inj.mp hcountry, String.toList_inj.mp hlink⟩
  · rintro ⟨rfl, rfl⟩
    rfl

namespace Store

variable {store : Store} {places : List Place} {country link : String}

/-! ## The places after some writes -/

/-- An index makes no difference to the places. -/
theorem places_putPlaces (places : List Place) :
    (indexed.putPlaces places).places = (scanning.putPlaces places).places := by
  induction places using List.reverseRecOn with
  | nil => rfl
  | append_singleton places last ih =>
      rw [putPlaces_concat, putPlaces_concat]
      show Table.insert _ _ _ = Table.insert _ _ _
      rw [ih]

theorem place?_putPlaces (places : List Place) (geoid : String) :
    (indexed.putPlaces places).place? geoid = (scanning.putPlaces places).place? geoid := by
  rw [place?, place?, places_putPlaces]

theorem links_putPlaces (places : List Place) : (scanning.putPlaces places).links = .scan := by
  induction places using List.reverseRecOn with
  | nil => rfl
  | append_singleton places last ih =>
      rw [putPlaces_concat]
      show LinkIndex.move (scanning.putPlaces places).links _ _ = _
      rw [ih]
      rfl

theorem keyed_putPlaces (places : List Place) : (scanning.putPlaces places).Keyed := by
  induction places using List.reverseRecOn with
  | nil =>
      intro geoid place hplace
      cases hplace
  | append_singleton places last ih =>
      rw [putPlaces_concat]
      exact ih.putPlace last

theorem ascending_putPlaces (places : List Place) :
    (scanning.putPlaces places).places.Ascending := by
  induction places using List.reverseRecOn with
  | nil => exact List.Pairwise.nil
  | append_singleton places last ih =>
      rw [putPlaces_concat]
      exact ih.insert String.lt_trans Text.lt_of_ne_of_not_lt _ _

/-- A place is stored exactly when it is looked up under its identifier. -/
theorem mem_values_putPlaces {p : Place} :
    p ∈ (scanning.putPlaces places).places.values ↔
      (scanning.putPlaces places).place? p.geoid = some p := by
  unfold Table.values
  rw [List.mem_map]
  constructor
  · rintro ⟨⟨geoid, _⟩, hentry, rfl⟩
    have hplace := (ascending_putPlaces places).lookup_of_mem String.lt_irrefl hentry
    have hgeoid := keyed_putPlaces places geoid _ hplace
    rw [← hgeoid] at hplace
    exact hplace
  · intro hplace
    exact ⟨_, Table.mem_of_lookup hplace, rfl⟩

theorem mem_of_place?_putPlaces {geoid : String} {p : Place}
    (h : (scanning.putPlaces places).place? geoid = some p) : p ∈ places := by
  induction places using List.reverseRecOn with
  | nil => cases h
  | append_singleton places last ih =>
      rw [putPlaces_concat, place?_putPlace] at h
      split at h
      · cases h
        exact List.mem_append_right _ List.mem_cons_self
      · exact List.mem_append_left _ (ih h)

/-! ## What is found -/

theorem findByLink?_of_scan (h : store.links = .scan) (country link : String) :
    store.findByLink? country link =
      store.places.values.find? fun p => p.country == country && p.link == link := by
  unfold findByLink?
  rw [h]

theorem mem_of_findByLink? (h : store.links = .scan) {p : Place}
    (hfound : store.findByLink? country link = some p) :
    p ∈ store.places.values ∧ p.country = country ∧ p.link = link := by
  rw [findByLink?_of_scan h] at hfound
  have hmatch := List.find?_some hfound
  rw [Bool.and_eq_true, beq_iff_eq, beq_iff_eq] at hmatch
  exact ⟨List.mem_of_find?_eq_some hfound, hmatch⟩

/-- A place that is looked through is found, or another one with its country and its link. -/
theorem isSome_findByLink?_of_mem (h : store.links = .scan) {p : Place}
    (hmem : p ∈ store.places.values) :
    (store.findByLink? p.country p.link).isSome = true := by
  rw [findByLink?_of_scan h, List.find?_isSome]
  exact ⟨p, hmem, by rw [Bool.and_eq_true, beq_iff_eq, beq_iff_eq]; exact ⟨rfl, rfl⟩⟩

/-- After any writes a store that looks through its places finds exactly the stored ones. -/
theorem isSome_findByLink?_scanning :
    ((scanning.putPlaces places).findByLink? country link).isSome = true ↔
      ∃ geoid p, (scanning.putPlaces places).place? geoid = some p ∧ p.country = country ∧
        p.link = link := by
  constructor
  · intro hsome
    obtain ⟨p, hp⟩ := Option.isSome_iff_exists.mp hsome
    obtain ⟨hmem, hcountry, hlink⟩ := mem_of_findByLink? (links_putPlaces places) hp
    exact ⟨p.geoid, p, mem_values_putPlaces.mp hmem, hcountry, hlink⟩
  · rintro ⟨geoid, p, hplace, rfl, rfl⟩
    have hgeoid := keyed_putPlaces places geoid p hplace
    rw [← hgeoid] at hplace
    exact isSome_findByLink?_of_mem (links_putPlaces places) (mem_values_putPlaces.mpr hplace)

/-- After any writes an index finds the place that owns the key: the last one that was written under
it, if the key is still its own. -/
theorem findByLink?_indexed {p : Place} :
    (indexed.putPlaces places).findByLink? country link = some p ↔
      (lastUnder? places (LinkIndex.key country link)).map Place.geoid = some p.geoid ∧
        (indexed.putPlaces places).place? p.geoid = some p ∧
        LinkIndex.keyOf p = LinkIndex.key country link := by
  rw [findByLink?_of_index (keepsIndex_putPlaces places), Option.bind_eq_some_iff]
  constructor
  · rintro ⟨geoid, howner, hplace⟩
    have hgeoid : p.geoid = geoid :=
      keyed_putPlaces places geoid p ((place?_putPlaces places geoid).symm.trans hplace)
    subst hgeoid
    obtain ⟨hlast, hkey⟩ := owner?_putPlaces.mp howner
    rw [hplace] at hkey
    exact ⟨hlast, hplace, Option.some.inj hkey⟩
  · rintro ⟨hlast, hplace, hkey⟩
    refine ⟨p.geoid, owner?_putPlaces.mpr ⟨hlast, ?_⟩, hplace⟩
    rw [hplace, Option.map_some, hkey]

/-- Where countries have no slash and no place has moved away from a link, an index finds whatever
is stored there. -/
theorem isSome_findByLink?_indexed (hplain : ∀ q ∈ places, '/' ∉ q.country.toList)
    (hcountry : '/' ∉ country.toList)
    (hstay : ∀ q ∈ places, q.country = country → q.link = link →
      ∃ p, (scanning.putPlaces places).place? q.geoid = some p ∧ p.country = country ∧
        p.link = link) :
    ((indexed.putPlaces places).findByLink? country link).isSome = true ↔
      ∃ geoid p, (scanning.putPlaces places).place? geoid = some p ∧ p.country = country ∧
        p.link = link := by
  have hkey : ∀ q ∈ places, LinkIndex.keyOf q = LinkIndex.key country link ↔
      q.country = country ∧ q.link = link :=
    fun q hq => LinkIndex.key_eq_iff (hplain q hq) hcountry
  rw [Option.isSome_iff_exists]
  constructor
  · rintro ⟨p, hp⟩
    obtain ⟨-, hplace, hown⟩ := findByLink?_indexed.mp hp
    rw [place?_putPlaces] at hplace
    exact ⟨p.geoid, p, hplace, (hkey p (mem_of_place?_putPlaces hplace)).mp hown⟩
  · rintro ⟨geoid, p, hplace, hown⟩
    have hmem := mem_of_place?_putPlaces hplace
    -- Some place was written under the key, so there is a last one, and it has not moved away.
    cases hlast : lastUnder? places (LinkIndex.key country link) with
    | none =>
        have hnone := List.getLast?_eq_none_iff.mp hlast
        rw [List.filter_eq_nil_iff] at hnone
        exact absurd (decide_eq_true ((hkey p hmem).mpr hown)) (hnone p hmem)
    | some q =>
        obtain ⟨hq, hqkey⟩ := mem_of_lastUnder? hlast
        obtain ⟨hqcountry, hqlink⟩ := (hkey q hq).mp hqkey
        obtain ⟨left, hleft, hleftOwn⟩ := hstay q hq hqcountry hqlink
        have hgeoid : left.geoid = q.geoid := keyed_putPlaces places _ _ hleft
        refine ⟨left, findByLink?_indexed.mpr ⟨?_, ?_, ?_⟩⟩
        · rw [hlast, Option.map_some, hgeoid]
        · rw [place?_putPlaces, hgeoid]
          exact hleft
        · exact (hkey left (mem_of_place?_putPlaces hleft)).mpr hleftOwn

/-! ## Both stores -/

/-- After any writes to an empty store, each owner in the index is a stored place whose own text
`country/link` is the key that it owns, and it is what is found under that key.  So a place that is
found by a country and a link has just this text.  A write that the store refuses leaves it as it
is, and is none of the writes here. -/
theorem owner_has_key (places : List Place) :
    (∀ key geoid, (indexed.putPlaces places).owner? key = some geoid →
      ∃ p, (indexed.putPlaces places).place? geoid = some p ∧ p.country ++ "/" ++ p.link = key ∧
        ∀ country link, country ++ "/" ++ link = key →
          (indexed.putPlaces places).findByLink? country link = some p) ∧
    ∀ country link p, (indexed.putPlaces places).findByLink? country link = some p →
      p.country ++ "/" ++ p.link = country ++ "/" ++ link := by
  have hindex := keepsIndex_putPlaces places
  refine ⟨?_, ?_⟩
  · intro key geoid howner
    obtain ⟨p, hplace, hkey⟩ := linksHold_putPlaces places key geoid howner
    refine ⟨p, hplace, hkey, ?_⟩
    rintro country link rfl
    have howner : (indexed.putPlaces places).owner? (LinkIndex.key country link) = some geoid :=
      howner
    rw [findByLink?_of_index hindex, howner, Option.bind_some, hplace]
  · intro country link p hfound
    obtain ⟨-, -, hkey⟩ := findByLink?_indexed.mp hfound
    exact hkey

/-- What two empty stores find by a country and a link after the same writes, of which one looks
through its places and the other keeps an index.

They hold the same places.  The first finds something exactly when a place with this country and
this link is stored.  The second finds the last place that was written under the text
`country/link`, provided that this is still its text, and nothing otherwise.  So they agree as long
as no country has a slash and no place has moved away from this country and this link. -/
theorem findByLink?_of_writes (places : List Place) (country link : String) :
    (∀ geoid, (indexed.putPlaces places).place? geoid =
      (scanning.putPlaces places).place? geoid) ∧
    (((scanning.putPlaces places).findByLink? country link).isSome = true ↔
      ∃ geoid p, (scanning.putPlaces places).place? geoid = some p ∧ p.country = country ∧
        p.link = link) ∧
    (∀ p, (indexed.putPlaces places).findByLink? country link = some p ↔
      (lastUnder? places (LinkIndex.key country link)).map Place.geoid = some p.geoid ∧
        (indexed.putPlaces places).place? p.geoid = some p ∧
        LinkIndex.keyOf p = LinkIndex.key country link) ∧
    ((∀ q ∈ places, '/' ∉ q.country.toList) → '/' ∉ country.toList →
      (∀ q ∈ places, q.country = country → q.link = link →
        ∃ p, (scanning.putPlaces places).place? q.geoid = some p ∧ p.country = country ∧
          p.link = link) →
      ((indexed.putPlaces places).findByLink? country link).isSome =
        ((scanning.putPlaces places).findByLink? country link).isSome) := by
  refine ⟨place?_putPlaces places, isSome_findByLink?_scanning, fun p => findByLink?_indexed, ?_⟩
  intro hplain hcountry hstay
  rw [Bool.eq_iff_iff, isSome_findByLink?_indexed hplain hcountry hstay,
    isSome_findByLink?_scanning]

/-- Two places come to one link, and the second moves on. -/
def sharedLink : List Place :=
  [⟨"a", 0, 0, "C", "A", "L", .original⟩, ⟨"b", 0, 0, "C", "B", "L", .original⟩,
    ⟨"b", 0, 0, "C", "B", "M", .original⟩]

/-- The place that stayed is found by looking through the places, and not through an index. -/
theorem findByLink?_lost :
    (indexed.putPlaces sharedLink).place? "a" = some ⟨"a", 0, 0, "C", "A", "L", .original⟩ ∧
      ((scanning.putPlaces sharedLink).findByLink? "C" "L").isSome = true ∧
      (indexed.putPlaces sharedLink).findByLink? "C" "L" = none := by
  decide +kernel

end Store

end PlaceWeather
