import PlaceWeather.Proofs.Address.Accepted
import PlaceWeather.Proofs.Address.Encoded

/-!
# Pages and their feeds

The page of a place below a known base is taken apart into the country and the link from which it was
made.  The feed that is downloaded when a place is added by its page is the text of the page with a
file name behind it, while later downloads encode country and link.  The two are one address exactly
when nothing of the country and the link is escaped (`page_decomposes`).
-/

namespace PlaceWeather.Address

variable {country link : String}

/-- A base below which pages are known, with any number of slashes at its end. -/
def IsKnownBase (base : String) : Prop :=
  ∃ lead ∈ ["http://www.yr.no/place", "https://www.yr.no/place"], ∃ n,
    base = lead ++ String.ofList (List.replicate n '/')

theorem IsKnownBase.lead_mem {base : String} (h : IsKnownBase base) :
    trimBase base ++ "/" ∈ knownLeads := by
  obtain ⟨lead, hlead, n, rfl⟩ := h
  have hleads : ∀ lead ∈ ["http://www.yr.no/place", "https://www.yr.no/place"],
      lead.toList.getLast? ≠ some '/' ∧ lead ++ "/" ∈ knownLeads := by decide
  rw [trimBase_append_slashes (hleads lead hlead).1]
  exact (hleads lead hlead).2

/-- The two addresses of a feed differ only in the encoding of the path. -/
theorem feed_eq_page_append_iff :
    page standardBase country link ++ feedFile = feed standardBase country link ↔
      ∀ c ∈ (placePath country link).toList, Percent.IsKept c := by
  -- The base, the slashes around the path and the file name are the same on both sides.
  rw [feed, page, String.append_left_inj, String.append_left_inj, String.append_right_inj,
    ← Percent.encodePath_eq_self_iff, ← String.toList_inj, String.toList_ofList]
  exact eq_comm

/-- A path needs no escapes when its country and its link need none. -/
theorem isKept_placePath_iff (hplain : '/' ∉ country.toList) :
    (∀ c ∈ (placePath country link).toList, Percent.IsKept c) ↔
      (∀ c ∈ (normalizeCountry country).toList, Percent.isUnreserved c = true) ∧
        ∀ c ∈ link.toList, Percent.isUnreserved c = true ∨ c = '/' := by
  have hpath : (placePath country link).toList =
      (normalizeCountry country).toList ++ '/' :: link.toList := by
    simp [placePath, String.toList_append]
  have hcountry : '/' ∉ (normalizeCountry country).toList := not_mem_normalizeCountry hplain
  rw [hpath]
  constructor
  · intro hkept
    refine ⟨fun c hc => ?_, fun c hc => hkept c (by simp [hc])⟩
    exact (hkept c (by simp [hc])).resolve_right (ne_of_mem_of_not_mem hc hcountry)
  · rintro ⟨hfirst, hlink⟩ c hc
    rcases List.mem_append.mp hc with hc | hc
    · exact .inl (hfirst c hc)
    · rcases List.mem_cons.mp hc with rfl | hc
      · exact .inr rfl
      · exact hlink c hc

/-- What becomes of the page of a place.

Below any known base it is taken apart into the country, as it stands in addresses, and the link.
When there is a country and a link, the address that is downloaded when the page is added is the
address of the place's feed exactly when the country in it consists of ASCII letters, digits and
`-_.~`, and the link of these and slashes. -/
theorem page_decomposes (hplain : '/' ∉ country.toList) (link : String) :
    (∀ base, IsKnownBase base →
      split (page base country link) = (normalizeCountry country, link)) ∧
    (country ≠ "" → link ≠ "" →
      (feedOfPage (page standardBase country link) = .ok (feed standardBase country link) ↔
        (∀ c ∈ (normalizeCountry country).toList, Percent.isUnreserved c = true) ∧
          ∀ c ∈ link.toList, Percent.isUnreserved c = true ∨ c = '/')) := by
  refine ⟨fun base hbase => split_page hbase.lead_mem hplain, fun hcountry hlink => ?_⟩
  rw [feedOfPage_page hcountry hplain hlink, Except.ok.injEq, feed_eq_page_append_iff]
  exact isKept_placePath_iff hplain

/-- A country with blanks and a full stop at its end comes back as it stands in addresses, and its
place has one feed. -/
theorem page_decomposes_mostar :
    '/' ∉ "Bosnia and Herzegovina.".toList ∧
    split (page "http://www.yr.no/place//" "Bosnia and Herzegovina." "Federation/Mostar") =
      ("Bosnia_and_Herzegovina_", "Federation/Mostar") ∧
    feedOfPage (page standardBase "Bosnia and Herzegovina." "Federation/Mostar") =
      .ok (feed standardBase "Bosnia and Herzegovina." "Federation/Mostar") := by
  have hplain : '/' ∉ "Bosnia and Herzegovina.".toList := by decide
  have hbase : IsKnownBase "http://www.yr.no/place//" :=
    ⟨"http://www.yr.no/place", by decide, 2, by decide⟩
  have hcountry : (normalizeCountry "Bosnia and Herzegovina.").toList.all Percent.isUnreserved := by
    decide
  have hlink : "Federation/Mostar".toList.all fun c => Percent.isUnreserved c || c == '/' := by
    decide
  obtain ⟨hparts, hfeed⟩ := page_decomposes hplain "Federation/Mostar"
  refine ⟨hplain, hparts _ hbase, (hfeed (by decide) (by decide)).mpr ⟨?_, ?_⟩⟩
  · exact List.all_eq_true.mp hcountry
  · intro c hc
    simpa using List.all_eq_true.mp hlink c hc

/-- A character outside of ASCII is escaped in the feed of its place, and not in that of the page. -/
example : feedOfPage (page standardBase "Norway" "Oslo/Oslo/Tøyen") =
      .ok "https://www.yr.no/place/Norway/Oslo/Oslo/Tøyen/forecast.xml" ∧
    feed standardBase "Norway" "Oslo/Oslo/Tøyen" =
      "https://www.yr.no/place/Norway/Oslo/Oslo/T%C3%B8yen/forecast.xml" := by decide +kernel

end PlaceWeather.Address
