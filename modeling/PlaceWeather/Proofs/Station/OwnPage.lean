import PlaceWeather.Proofs.Address.Accepted
import PlaceWeather.Proofs.Station.AdditionPath
import PlaceWeather.Proofs.Store.FindByLink

/-!
# Adding a place that is known

The page of a stored place names its country as it stands in addresses, and from that two spellings
are made under which a known place is looked for.  In a store that looks through its places the
addition is refused exactly when a place with the link is stored under one of the two.  A country
with a full stop at its end, or with blanks as well as underscores, is neither of its own spellings;
such a place is downloaded again (`addPlace_ownPage_missed`).
-/

namespace PlaceWeather

namespace Store

variable {store : Store} {countries : List String} {link : String}

theorem mem_of_knownAs? (h : store.links = .scan) {existing : Place}
    (hfound : store.knownAs? countries link = some existing) :
    existing ∈ store.places.values ∧ existing.country ∈ countries ∧ existing.link = link := by
  unfold knownAs? at hfound
  obtain ⟨country, hcountry, hfound⟩ := List.exists_of_findSome?_eq_some hfound
  obtain ⟨hmem, rfl, hlink⟩ := mem_of_findByLink? h hfound
  exact ⟨hmem, hcountry, hlink⟩

/-- No place is found when none is stored with the link and one of the countries. -/
theorem knownAs?_eq_none (h : store.links = .scan) :
    store.knownAs? countries link = none ↔
      ∀ q ∈ store.places.values, q.link = link → q.country ∉ countries := by
  constructor
  · intro hnone q hq hlink hcountry
    have hmissed := List.findSome?_eq_none_iff.mp hnone q.country hcountry
    have hfound := isSome_findByLink?_of_mem h hq
    rw [hlink, hmissed] at hfound
    cases hfound
  · intro hnone
    rw [Option.eq_none_iff_forall_ne_some]
    intro existing hfound
    obtain ⟨hmem, hcountry, hlink⟩ := mem_of_knownAs? h hfound
    exact hnone existing hmem hlink hcountry

end Store

/-- Addresses without a slash in the country are looked for as their page names them. -/
theorem Store.knownAt?_page (store : Store) {country : String} (hplain : '/' ∉ country.toList)
    (link : String) :
    store.knownAt? (Address.page Address.standardBase country link ++ Address.feedFile) =
      store.knownAs? (Action.countrySpellings (Address.normalizeCountry country)) link := by
  unfold Store.knownAt?
  rw [Address.split_page_feedFile hplain]

/-- An addition that is not refused downloads the feed of the page. -/
theorem AdditionPath.downloads_eq {url feedUrl : String} {s t : Station}
    {outcome : Except Fault Place} (h : AdditionPath url s outcome t)
    (hnamed : Address.feedOfPage url = .ok feedUrl) (hnew : s.store.knownAt? feedUrl = none) :
    t.downloads = s.downloads ++ [feedUrl] := by
  cases h with
  | invalid hnowhere => cases hnamed.symm.trans hnowhere
  | known hnamed' hfound =>
      cases hnamed.symm.trans hnamed'
      cases hnew.symm.trans hfound
  | failed hnamed' | added hnamed' =>
      cases hnamed.symm.trans hnamed'
      rfl

/-- The addition of a page is refused on account of a stored place with a link.  Nothing is
downloaded and nothing is changed. -/
def Station.Refuses (s : Station) (url link : String) : Prop :=
  ∃ existing ∈ s.store.places.values, existing.link = link ∧
    ∃ n, (Action.addPlace url).runAt s =
      (.error (.error (.invalid (url ++ " already exists as " ++ existing.geoid))),
        { s with calls := n })

/-- A station that knows one place of some country, and whose web has no address. -/
def Station.knowing (country : String) : Station :=
  start (Store.scanning.putPlace ⟨"g", 0, 0, country, "P", "L", .original⟩) .empty

namespace Action

variable {s : Station} {country link : String}

/-- A place that is looked for with success is in the way of adding the page. -/
theorem refuses_of_known (works : s.Reliable) (hscan : s.store.links = .scan)
    (hcountry : country ≠ "") (hplain : '/' ∉ country.toList) (hlink : link ≠ "") {q : Place}
    (hq : q ∈ s.store.places.values) (hqlink : q.link = link)
    (hqcountry : q.country ∈ countrySpellings (Address.normalizeCountry country)) :
    s.Refuses (Address.page Address.standardBase country link) link := by
  have hsought := s.store.knownAt?_page hplain link
  cases hknown : s.store.knownAs? (countrySpellings (Address.normalizeCountry country)) link with
  | none => exact absurd hqcountry ((Store.knownAs?_eq_none hscan).mp hknown q hq hqlink)
  | some existing =>
      rw [hknown] at hsought
      obtain ⟨hexisting, -, hexistingLink⟩ := Store.mem_of_knownAs? hscan hknown
      have hnamed := Address.feedOfPage_page hcountry hplain hlink
      have hends := ends_addPlace_known works hnamed hsought
      rw [Address.trimmed_page] at hends
      obtain ⟨n, hn⟩ := hends.station_eq
      exact ⟨existing, hexisting, hexistingLink, n, Prod.ext hends.outcome_eq hn⟩

/-- With no such place the feed of the page is downloaded. -/
theorem downloads_of_unknown (works : s.Reliable) (hscan : s.store.links = .scan)
    (hcountry : country ≠ "") (hplain : '/' ∉ country.toList) (hlink : link ≠ "")
    (hnone : ∀ q ∈ s.store.places.values, q.link = link →
      q.country ∉ countrySpellings (Address.normalizeCountry country)) :
    ((addPlace (Address.page Address.standardBase country link)).runAt s).2.downloads =
      s.downloads ++ [Address.page Address.standardBase country link ++ Address.feedFile] := by
  have hsought := s.store.knownAt?_page hplain link
  rw [(Store.knownAs?_eq_none hscan).mpr hnone] at hsought
  obtain ⟨outcome, t, hpath, hends⟩ :=
    addPlace_path works (Address.page Address.standardBase country link)
  obtain ⟨n, hn⟩ := hends.station_eq
  rw [hn]
  exact hpath.downloads_eq (Address.feedOfPage_page hcountry hplain hlink) hsought

/-- What adding the page of a stored place does, in a store that looks through its places and does
not fail, when the place names a country without a slash and a link.

Unless its country has a full stop at its end, or blanks as well as underscores, the addition is
refused.  In general it is refused exactly when some place with this link is stored under one of the
two spellings that are made from the country of the page, and otherwise the feed of the page is
downloaded. -/
theorem addPlace_ownPage {p : Place} (works : s.Reliable) (hscan : s.store.links = .scan)
    (hmem : p ∈ s.store.places.values) (hcountry : p.country ≠ "")
    (hplain : '/' ∉ p.country.toList) (hlink : p.link ≠ "") :
    (p.country.toList.getLast? ≠ some '.' →
        ¬ (' ' ∈ p.country.toList ∧ '_' ∈ p.country.toList) →
      s.Refuses (Address.page Address.standardBase p.country p.link) p.link) ∧
    (s.Refuses (Address.page Address.standardBase p.country p.link) p.link ↔
      ∃ q ∈ s.store.places.values, q.link = p.link ∧
        q.country ∈ countrySpellings (Address.normalizeCountry p.country)) ∧
    (¬ s.Refuses (Address.page Address.standardBase p.country p.link) p.link →
      ((addPlace (Address.page Address.standardBase p.country p.link)).runAt s).2.downloads =
        s.downloads ++
          [Address.page Address.standardBase p.country p.link ++ Address.feedFile]) := by
  have hrefuses : ∀ q ∈ s.store.places.values, q.link = p.link →
      q.country ∈ countrySpellings (Address.normalizeCountry p.country) →
        s.Refuses (Address.page Address.standardBase p.country p.link) p.link :=
    fun q hq => refuses_of_known works hscan hcountry hplain hlink hq
  have hdownloads : ¬ s.Refuses (Address.page Address.standardBase p.country p.link) p.link →
      ((addPlace (Address.page Address.standardBase p.country p.link)).runAt s).2.downloads =
        s.downloads ++
          [Address.page Address.standardBase p.country p.link ++ Address.feedFile] :=
    fun hnot => downloads_of_unknown works hscan hcountry hplain hlink
      fun q hq hqlink hqcountry => hnot (hrefuses q hq hqlink hqcountry)
  refine ⟨?_, ⟨?_, ?_⟩, hdownloads⟩
  · intro hstop hmixed
    exact hrefuses p hmem rfl ((Address.mem_countrySpellings_self p.country).mpr ⟨hstop, hmixed⟩)
  · rintro ⟨existing, -, -, n, hrun⟩
    -- A refusal downloads nothing, so the place that was looked for must be there.
    by_contra hnone
    have hdownloaded := downloads_of_unknown works hscan hcountry hplain hlink
      fun q hq hqlink hqcountry => hnone ⟨q, hq, hqlink, hqcountry⟩
    rw [hrun] at hdownloaded
    exact List.cons_ne_nil _ _ (List.self_eq_append_right.mp hdownloaded)
  · rintro ⟨q, hq, hqlink, hqcountry⟩
    exact hrefuses q hq hqlink hqcountry

/-- A place whose country has blanks is not added again. -/
theorem addPlace_ownPage_refused :
    (Station.knowing "United States").Refuses "https://www.yr.no/place/United_States/L/" "L" := by
  have hpage : Address.page Address.standardBase "United States" "L" =
      "https://www.yr.no/place/United_States/L/" := by decide
  have hrefuses := (addPlace_ownPage (s := .knowing "United States")
    (p := ⟨"g", 0, 0, "United States", "P", "L", .original⟩) (Station.reliable_start _ _) rfl
    List.mem_cons_self (by decide) (by decide) (by decide)).1 (by decide) (by decide)
  rw [hpage] at hrefuses
  exact hrefuses

/-- A place whose country has a full stop at its end is downloaded again. -/
theorem addPlace_ownPage_missed :
    ∃ p ∈ (Station.knowing "Bosnia and Herzegovina.").store.places.values,
      p.country ≠ "" ∧ '/' ∉ p.country.toList ∧ p.link ≠ "" ∧
      ¬ (Station.knowing "Bosnia and Herzegovina.").Refuses
        (Address.page Address.standardBase p.country p.link) p.link ∧
      ((addPlace (Address.page Address.standardBase p.country p.link)).runAt
        (.knowing "Bosnia and Herzegovina.")).2.downloads =
          ["https://www.yr.no/place/Bosnia_and_Herzegovina_/L/forecast.xml"] := by
  have hdownloads :
      ((addPlace (Address.page Address.standardBase "Bosnia and Herzegovina." "L")).runAt
        (.knowing "Bosnia and Herzegovina.")).2.downloads =
        ["https://www.yr.no/place/Bosnia_and_Herzegovina_/L/forecast.xml"] := by
    decide +kernel
  refine ⟨⟨"g", 0, 0, "Bosnia and Herzegovina.", "P", "L", .original⟩, List.mem_cons_self,
    by decide, by decide, by decide, ?_, hdownloads⟩
  rintro ⟨existing, -, -, n, hrun⟩
  rw [hrun] at hdownloads
  cases hdownloads

end Action

end PlaceWeather
