import Mathlib.Logic.Basic
import PlaceWeather.Address
import PlaceWeather.Proofs.Text.Pieces
import PlaceWeather.Station.Adding

/-!
# The addresses of pages

An address below a known lead is taken apart into the country and the link it was made of, whatever
last piece follows them, and an address in which a country and a link are found is the page of these
two and of no others (`isPageOf_split`, `IsPageOf.unique`).  The country of a place comes back as it
stands in addresses, with underscores; of the two ways in which it is then looked for, one is the
country itself unless that has a full stop at its end, or blanks as well as underscores
(`mem_countrySpellings_self`).
-/

namespace PlaceWeather.Address

variable {country link : String}

/-! ## Countries in addresses -/

theorem toList_normalizeCountry (country : String) :
    (normalizeCountry country).toList =
      if country.toList.getLast? = some '.' then
        (country.toList.map fun c => if c = ' ' then '_' else c).dropLast ++ ['_']
      else country.toList.map fun c => if c = ' ' then '_' else c := by
  have hstop : ∀ c : Char, (if c = ' ' then '_' else c) = '.' ↔ c = '.' := by
    intro c
    by_cases hc : c = ' '
    · subst hc
      decide
    · rw [if_neg hc]
  have hlast : (country.toList.map fun c => if c = ' ' then '_' else c).getLast? = some '.' ↔
      country.toList.getLast? = some '.' := by
    rw [List.getLast?_map, Option.map_eq_some_iff]
    constructor
    · rintro ⟨c, hc, hdot⟩
      rw [hc, (hstop c).mp hdot]
    · intro hdot
      exact ⟨'.', hdot, rfl⟩
  unfold normalizeCountry
  rw [String.toList_ofList]
  simp only [hlast]

theorem not_mem_normalizeCountry (h : '/' ∉ country.toList) :
    '/' ∉ (normalizeCountry country).toList := by
  have hmap : '/' ∉ country.toList.map fun c => if c = ' ' then '_' else c := by
    rw [List.mem_map]
    rintro ⟨c, hc, heq⟩
    split at heq
    · exact absurd heq (by decide)
    · exact h (heq ▸ hc)
  rw [toList_normalizeCountry]
  split
  · rw [List.mem_append, not_or]
    exact ⟨fun hmem => hmap (List.dropLast_subset _ hmem), by decide⟩
  · exact hmap

theorem normalizeCountry_ne_empty (h : country ≠ "") : normalizeCountry country ≠ "" := by
  intro hempty
  have hchars := toList_normalizeCountry country
  rw [hempty] at hchars
  split at hchars
  · exact List.append_ne_nil_of_right_ne_nil _ (by simp) hchars.symm
  · exact h (String.toList_inj.mp (List.map_eq_nil_iff.mp hchars.symm))

/-! ## Taking addresses apart -/

theorem dropLead_of_mem {lead : String} (h : lead ∈ knownLeads) {url : String} {rest : List Char}
    (hurl : url.toList = lead.toList ++ rest) : dropLead url = rest := by
  unfold dropLead
  rw [hurl]
  rcases List.mem_cons.mp h with rfl | h
  · show (some _ : Option (List Char)).getD _ = rest
    rfl
  · rw [List.mem_singleton.mp h]
    rfl

/-- Country and link are what stands behind the lead, up to the last piece. -/
theorem split_of_mem {lead last : String} (h : lead ∈ knownLeads) (hcountry : '/' ∉ country.toList)
    (hlast : '/' ∉ last.toList) :
    split (lead ++ (country ++ "/" ++ link) ++ "/" ++ last) = (country, link) := by
  have hrest : dropLead (lead ++ (country ++ "/" ++ link) ++ "/" ++ last) =
      country.toList ++ '/' :: (link.toList ++ '/' :: last.toList) := by
    refine dropLead_of_mem h ?_
    simp [String.toList_append]
  have hlink := Text.join_dropLast_split hlast link.toList
  unfold split
  rw [hrest, Text.split_append_cons, Text.split_of_not_mem hcountry]
  show (String.ofList country.toList, String.ofList (Text.join '/'
    (Text.split '/' (link.toList ++ '/' :: last.toList)).dropLast)) = _
  rw [hlink, String.ofList_toList, String.ofList_toList]

/-! ## Pages -/

/-- `page` is the page of a country and a link, neither of them empty.  There is no slash in the
country; there may be any in the link. -/
structure IsPageOf (country link page : String) : Prop where
  country_ne : country ≠ ""
  country_plain : '/' ∉ country.toList
  link_ne : link ≠ ""
  page_eq : page = pageLead ++ (country ++ "/" ++ link) ++ "/"

theorem pageLead_mem : pageLead ∈ knownLeads := by decide

theorem IsPageOf.split_eq {page : String} (h : IsPageOf country link page) :
    split page = (country, link) := by
  rw [h.page_eq, ← String.append_empty (s := _ ++ "/")]
  exact split_of_mem pageLead_mem h.country_plain (by decide)

theorem IsPageOf.split_feedFile {page : String} (h : IsPageOf country link page) :
    split (page ++ feedFile) = (country, link) := by
  rw [h.page_eq]
  exact split_of_mem pageLead_mem h.country_plain (by decide)

/-- A page is the page of one country and one link only. -/
theorem IsPageOf.unique {page country' link' : String} (h : IsPageOf country link page)
    (h' : IsPageOf country' link' page) : country' = country ∧ link' = link := by
  have hparts : (country', link') = (country, link) := h'.split_eq.symm.trans h.split_eq
  exact Prod.mk.inj hparts

/-- An address that begins as pages do and ends in a slash is a page when a country and a link are
found in it. -/
theorem isPageOf_split {page : String} {rest : List Char}
    (hlead : page.toList = pageLead.toList ++ rest) (hslash : page.toList.getLast? = some '/')
    (hcountry : (split page).1 ≠ "") (hlink : (split page).2 ≠ "") :
    IsPageOf (split page).1 (split page).2 page := by
  have hdropped : dropLead page = rest := dropLead_of_mem pageLead_mem hlead
  have hne : rest ≠ [] := by
    rintro rfl
    apply hlink
    rw [split, hdropped]
    rfl
  have hend : rest.getLast? = some '/' := by
    rw [hlead, List.getLast?_append, List.getLast?_eq_some_getLast hne] at hslash
    rw [List.getLast?_eq_some_getLast hne]
    exact hslash
  rcases Text.eq_of_getLast? hend with ⟨first, hfirst, rfl⟩ | ⟨first, middle, hfirst, rfl⟩
  · -- The only slash ends the country, and there is no link.
    refine absurd ?_ hlink
    rw [split, hdropped, Text.split_append_cons, Text.split_of_not_mem hfirst]
    rfl
  · have hpage : page = pageLead ++ (String.ofList first ++ "/" ++ String.ofList middle) ++ "/" := by
      rw [← String.toList_inj, hlead]
      simp [String.toList_append]
    have hplain : '/' ∉ (String.ofList first).toList := by
      rw [String.toList_ofList]
      exact hfirst
    have hsplit : split page = (String.ofList first, String.ofList middle) := by
      rw [hpage, ← String.append_empty (s := _ ++ "/")]
      exact split_of_mem pageLead_mem hplain (by decide)
    rw [hsplit] at hcountry hlink ⊢
    exact ⟨hcountry, hplain, hlink, hpage⟩

/-! ## Pages of places -/

theorem page_standardBase (country link : String) :
    page standardBase country link =
      pageLead ++ (normalizeCountry country ++ "/" ++ link) ++ "/" := by
  have hlead : trimBase standardBase ++ "/" = pageLead := by decide
  unfold page placePath
  rw [hlead]

/-- The page of a place names the country as it stands in addresses, and the link. -/
theorem split_page {base : String} (hbase : trimBase base ++ "/" ∈ knownLeads)
    (hplain : '/' ∉ country.toList) :
    split (page base country link) = (normalizeCountry country, link) := by
  rw [page, placePath, ← String.append_empty (s := _ ++ "/")]
  exact split_of_mem hbase (not_mem_normalizeCountry hplain) (by decide)

/-- The feed of a page names the same country and the same link. -/
theorem split_page_feedFile (hplain : '/' ∉ country.toList) :
    split (page standardBase country link ++ feedFile) = (normalizeCountry country, link) := by
  rw [page_standardBase]
  exact split_of_mem pageLead_mem (not_mem_normalizeCountry hplain) (by decide)

theorem isPageOf_page (hcountry : country ≠ "") (hplain : '/' ∉ country.toList)
    (hlink : link ≠ "") :
    IsPageOf (normalizeCountry country) link (page standardBase country link) where
  country_ne := normalizeCountry_ne_empty hcountry
  country_plain := not_mem_normalizeCountry hplain
  link_ne := hlink
  page_eq := page_standardBase country link

/-! ## Looking for the country -/

/-- The country of a place is among those looked for under its own page, unless it has a full stop
at its end or mixes blanks with underscores. -/
theorem mem_countrySpellings_self (country : String) :
    country ∈ Action.countrySpellings (normalizeCountry country) ↔
      country.toList.getLast? ≠ some '.' ∧ ¬ (' ' ∈ country.toList ∧ '_' ∈ country.toList) := by
  have hmem : country ∈ Action.countrySpellings (normalizeCountry country) ↔
      country.toList = (normalizeCountry country).toList ∨
        country.toList =
          (normalizeCountry country).toList.map fun c => if c = '_' then ' ' else c := by
    unfold Action.countrySpellings
    rw [List.mem_cons, List.mem_singleton, ← String.toList_inj, ← String.toList_inj,
      String.toList_map]
  rw [hmem, toList_normalizeCountry]
  by_cases hdot : country.toList.getLast? = some '.'
  · -- The full stop has become an underscore, and neither that nor a blank is a full stop.
    rw [if_pos hdot]
    constructor
    · rintro (heq | heq)
      · rw [heq, List.getLast?_concat] at hdot
        cases hdot
      · rw [heq, List.map_append, List.map_singleton, List.getLast?_concat] at hdot
        cases hdot
    · rintro ⟨hstop, -⟩
      exact absurd hdot hstop
  · rw [if_neg hdot]
    have hblank : country.toList = (country.toList.map fun c => if c = ' ' then '_' else c) ↔
        ' ' ∉ country.toList := by
      rw [Text.eq_map_iff]
      constructor
      · intro hsame hc
        exact absurd (hsame ' ' hc) (by decide)
      · intro hnone c hc
        rw [if_neg (ne_of_mem_of_not_mem hc hnone)]
    have hunderscore : country.toList =
        ((country.toList.map fun c => if c = ' ' then '_' else c).map
          fun c => if c = '_' then ' ' else c) ↔ '_' ∉ country.toList := by
      rw [List.map_map, Text.eq_map_iff]
      constructor
      · intro hsame hc
        exact absurd (hsame '_' hc) (by decide)
      · intro hnone c hc
        have hc : c ≠ '_' := ne_of_mem_of_not_mem hc hnone
        by_cases hblank : c = ' '
        · rw [hblank]
          rfl
        · rw [Function.comp_apply, if_neg hblank, if_neg hc]
    rw [hblank, hunderscore, not_and_or]
    exact (and_iff_right hdot).symm

end PlaceWeather.Address
