import PlaceWeather.Proofs.Address.Page

/-!
# The addresses that are taken for pages

What a user types is taken for a page when it is one once the blanks around it are gone and a slash
stands at its end.  The feed is then the file below the page, and both are taken apart into the
country and the link that make the page (`feedOfPage_accepts_pages`).
-/

namespace PlaceWeather.Address

variable {country link url : String}

/-! ## The slash at the end -/

theorem withFinalSlash_cases (text : String) :
    (text.toList.getLast? = some '/' ∧ withFinalSlash text = text) ∨
    (text.toList.getLast? ≠ some '/' ∧ withFinalSlash text = text ++ "/") := by
  by_cases hslash : text.toList.getLast? = some '/'
  · exact .inl ⟨hslash, if_pos hslash⟩
  · exact .inr ⟨hslash, if_neg hslash⟩

theorem getLast?_withFinalSlash (text : String) :
    (withFinalSlash text).toList.getLast? = some '/' := by
  obtain ⟨hslash, htext⟩ | ⟨-, htext⟩ := withFinalSlash_cases text
  · rw [htext]
    exact hslash
  · rw [htext, String.toList_append]
    exact List.getLast?_concat

/-- The slash at the end comes behind the lead. -/
theorem exists_lead_withFinalSlash {text : String}
    (h : Text.startsWith pageLead.toList text.toList = true) :
    ∃ rest, (withFinalSlash text).toList = pageLead.toList ++ rest := by
  obtain ⟨rest, hrest⟩ := Text.startsWith_iff.mp h
  obtain ⟨-, htext⟩ | ⟨-, htext⟩ := withFinalSlash_cases text
  · exact ⟨rest, by rw [htext, hrest]⟩
  · exact ⟨rest ++ "/".toList, by rw [htext, String.toList_append, hrest, List.append_assoc]⟩

/-- What a user typed begins as pages do when it is a page with a slash at its end: the lead is not
the whole page, so a slash that is added is not one of the lead. -/
theorem startsWith_of_isPageOf {text : String} (h : IsPageOf country link (withFinalSlash text)) :
    Text.startsWith pageLead.toList text.toList = true := by
  have hpage := h.page_eq
  apply Text.startsWith_iff.mpr
  obtain ⟨-, htext⟩ | ⟨-, htext⟩ := withFinalSlash_cases text
  · rw [htext, String.append_assoc] at hpage
    exact ⟨_, by rw [hpage, String.toList_append]⟩
  · rw [htext, String.append_left_inj] at hpage
    exact ⟨_, by rw [hpage, String.toList_append]⟩

/-! ## What a user means -/

/-- `page` is what a user means by `url`: blanks around it do not count, and a slash stands at its
end, whether it was typed or not. -/
inductive Means (url : String) : String → Prop
  | closed {page : String} (htrims : Text.Trims url.toList page.toList)
      (hslash : page.toList.getLast? = some '/') : Means url page
  | unclosed {text : String} (htrims : Text.Trims url.toList text.toList)
      (hslash : text.toList.getLast? ≠ some '/') : Means url (text ++ "/")

/-- The page that is meant is found by trimming. -/
theorem means_iff {page : String} :
    Means url page ↔ page = withFinalSlash (Text.trimmed url) := by
  have htrimmed : ∀ text : String, Text.Trims url.toList text.toList → Text.trimmed url = text := by
    intro text htrims
    rw [Text.trimmed, htrims.trim_eq, String.ofList_toList]
  have htrims : Text.Trims url.toList (Text.trimmed url).toList := by
    rw [Text.trimmed, String.toList_ofList]
    exact Text.trims_trim url.toList
  constructor
  · rintro (⟨htext, hslash⟩ | ⟨htext, hslash⟩)
    · rw [htrimmed _ htext]
      exact (if_pos hslash).symm
    · rw [htrimmed _ htext]
      exact (if_neg hslash).symm
  · rintro rfl
    obtain ⟨hslash, htext⟩ | ⟨hslash, htext⟩ := withFinalSlash_cases (Text.trimmed url)
    · rw [htext]
      exact .closed htrims hslash
    · rw [htext]
      exact .unclosed htrims hslash

/-! ## Acceptance -/

theorem feedOfPage_of_isPageOf (h : IsPageOf country link (withFinalSlash (Text.trimmed url))) :
    feedOfPage url = .ok (withFinalSlash (Text.trimmed url) ++ feedFile) := by
  have hnamed : country.isEmpty = false ∧ link.isEmpty = false := by
    rw [← Bool.not_eq_true, ← Bool.not_eq_true, String.isEmpty_iff, String.isEmpty_iff]
    exact ⟨h.country_ne, h.link_ne⟩
  simp only [feedOfPage, startsWith_of_isPageOf h, h.split_eq, hnamed, Bool.not_true, Bool.or_self,
    Bool.false_eq_true, if_false]

theorem exists_isPageOf_of_feedOfPage {feedUrl : String} (h : feedOfPage url = .ok feedUrl) :
    ∃ country link, IsPageOf country link (withFinalSlash (Text.trimmed url)) := by
  simp only [feedOfPage] at h
  -- Both checks have been passed, since each of them ends in an error.
  split at h
  · cases h
  · next hlead =>
      split at h
      · cases h
      · next hnamed =>
          rw [Bool.or_eq_true, not_or, String.isEmpty_iff, String.isEmpty_iff] at hnamed
          obtain ⟨rest, hrest⟩ := exists_lead_withFinalSlash (by simpa using hlead)
          exact ⟨_, _, isPageOf_split hrest (getLast?_withFinalSlash _) hnamed.1 hnamed.2⟩

theorem invalid_of_feedOfPage {e : WeatherError} (h : feedOfPage url = .error e) :
    ∃ detail, e = .invalid detail := by
  simp only [feedOfPage] at h
  split at h
  · cases h
    exact ⟨_, rfl⟩
  · split at h
    · cases h
      exact ⟨_, rfl⟩
    · cases h

/-! ## Pages of places -/

theorem trimmed_page (country link : String) :
    Text.trimmed (page standardBase country link) = page standardBase country link := by
  obtain ⟨cs, hcs⟩ : ∃ cs, (page standardBase country link).toList = 'h' :: cs ++ ['/'] := by
    rw [page_standardBase]
    refine ⟨"ttps://www.yr.no/place/".toList ++
      (normalizeCountry country ++ "/" ++ link).toList, ?_⟩
    rw [String.toList_append, String.toList_append]
    rfl
  have htrims : Text.Trims (page standardBase country link).toList
      (page standardBase country link).toList := by
    rw [hcs]
    refine ⟨⟨[], [], by simp, by simp, by simp⟩, ?_, ?_⟩
    · intro c hc
      obtain rfl : 'h' = c := Option.some.inj hc
      decide
    · intro c hc
      rw [List.getLast?_concat] at hc
      obtain rfl : '/' = c := Option.some.inj hc
      decide
  rw [Text.trimmed, htrims.trim_eq, String.ofList_toList]

/-- The page of a place that names a country and a link is taken for one, and its feed is the file
below it. -/
theorem feedOfPage_page (hcountry : country ≠ "") (hplain : '/' ∉ country.toList)
    (hlink : link ≠ "") :
    feedOfPage (page standardBase country link) =
      .ok (page standardBase country link ++ feedFile) := by
  have hslash : withFinalSlash (page standardBase country link) =
      page standardBase country link := by
    apply if_pos
    rw [page_standardBase, String.toList_append]
    exact List.getLast?_concat
  have hmeant : withFinalSlash (Text.trimmed (page standardBase country link)) =
      page standardBase country link := by
    rw [trimmed_page, hslash]
  have hpage := isPageOf_page hcountry hplain hlink
  rw [← hmeant] at hpage
  rw [feedOfPage_of_isPageOf hpage, hmeant]

/-! ## The accepted addresses -/

/-- Which addresses are taken for pages.

Every address means one page.  The address is accepted exactly when that page is the page of a
country and a link.  Then these two are determined, the feed is the file below the page, and both
the page and the feed are taken apart into them.  Any other address is invalid. -/
theorem feedOfPage_accepts_pages (url : String) :
    ∃ page, (∀ other, Means url other ↔ other = page) ∧
      ((∃ feedUrl, feedOfPage url = .ok feedUrl) ↔ ∃ country link, IsPageOf country link page) ∧
      (∀ country link, IsPageOf country link page →
        feedOfPage url = .ok (page ++ "forecast.xml") ∧
        split (page ++ "forecast.xml") = (country, link) ∧ split page = (country, link) ∧
        ∀ country' link', IsPageOf country' link' page → country' = country ∧ link' = link) ∧
      ((¬ ∃ country link, IsPageOf country link page) →
        ∃ detail, feedOfPage url = .error (.invalid detail)) := by
  refine ⟨withFinalSlash (Text.trimmed url), fun _ => means_iff, ⟨?_, ?_⟩, ?_, ?_⟩
  · rintro ⟨feedUrl, hfeed⟩
    exact exists_isPageOf_of_feedOfPage hfeed
  · rintro ⟨country, link, hpage⟩
    exact ⟨_, feedOfPage_of_isPageOf hpage⟩
  · intro country link hpage
    exact ⟨feedOfPage_of_isPageOf hpage, hpage.split_feedFile, hpage.split_eq,
      fun _ _ hother => hpage.unique hother⟩
  · intro hnone
    cases hfeed : feedOfPage url with
    | error e =>
        obtain ⟨detail, rfl⟩ := invalid_of_feedOfPage hfeed
        exact ⟨detail, rfl⟩
    | ok feedUrl => exact absurd (exists_isPageOf_of_feedOfPage hfeed) hnone

/-- Blanks around a page do not count, and the slash at its end may be left out. -/
theorem feedOfPage_accepts_pages_typed :
    IsPageOf "Ukraine" "Kiev/Kyiv" "https://www.yr.no/place/Ukraine/Kiev/Kyiv/" ∧
    feedOfPage "\t https://www.yr.no/place/Ukraine/Kiev/Kyiv\n" =
      .ok "https://www.yr.no/place/Ukraine/Kiev/Kyiv/forecast.xml" := by
  have hpage : IsPageOf "Ukraine" "Kiev/Kyiv" "https://www.yr.no/place/Ukraine/Kiev/Kyiv/" :=
    ⟨by decide, by decide, by decide, by decide⟩
  have hmeant : Means "\t https://www.yr.no/place/Ukraine/Kiev/Kyiv\n"
      "https://www.yr.no/place/Ukraine/Kiev/Kyiv/" := means_iff.mpr (by decide)
  obtain ⟨page, hmeans, -, haccepted, -⟩ :=
    feedOfPage_accepts_pages "\t https://www.yr.no/place/Ukraine/Kiev/Kyiv\n"
  obtain rfl := (hmeans _).mp hmeant
  obtain ⟨hfeed, -⟩ := haccepted _ _ hpage
  exact ⟨hpage, hfeed⟩

end PlaceWeather.Address
