import PlaceWeather.Proofs.Station.RefreshPath
import PlaceWeather.Station.Adding

/-!
# The paths of adding a place

At a station whose store does not fail, adding the place of a page takes one of the paths of
`AdditionPath`: the address names no place, the place is known already, the download gives no feed,
or a feed is stored under the identifier of its own document.  `addPlace_path` is the only place
where the addition is taken apart.
-/

namespace PlaceWeather

/-- The first place with one of some countries and a link. -/
def Store.knownAs? (store : Store) (countries : List String) (link : String) : Option Place :=
  countries.findSome? (store.findByLink? · link)

/-- The place that keeps the one at the address of a feed from being added. -/
def Store.knownAt? (store : Store) (feedUrl : String) : Option Place :=
  store.knownAs? (Action.countrySpellings (Address.split feedUrl).1) (Address.split feedUrl).2

/-- The paths of adding the place of a page at `s`: the answer, and the station it leaves. -/
inductive AdditionPath (url : String) (s : Station) : Except Fault Place → Station → Prop
  /-- The address names no place. -/
  | invalid {e : WeatherError} (nowhere : Address.feedOfPage url = .error e) :
      AdditionPath url s (.error (.error e)) s
  /-- The place is known already. -/
  | known {feedUrl : String} {existing : Place} (named : Address.feedOfPage url = .ok feedUrl)
      (found : s.store.knownAt? feedUrl = some existing) :
      AdditionPath url s
        (.error (.error (.invalid (Text.trimmed url ++ " already exists as " ++ existing.geoid)))) s
  /-- The download gives no feed. -/
  | failed {feedUrl : String} {fault : Fault} (named : Address.feedOfPage url = .ok feedUrl)
      (new : s.store.knownAt? feedUrl = none) (failed : s.received feedUrl none = .error fault) :
      AdditionPath url s (.error fault) (s.downloaded feedUrl)
  /-- A feed is stored. -/
  | added {feedUrl : String} {feed : Feed} (named : Address.feedOfPage url = .ok feedUrl)
      (new : s.store.knownAt? feedUrl = none) (received : s.received feedUrl none = .ok feed) :
      AdditionPath url s ((s.store.withFeed feed).knownPlace feed.geoid)
        { s.downloaded feedUrl with store := s.store.withFeed feed }

namespace Action

variable {s : Station}

/-- The refusal goes through the countries in order and stops at the first that is known. -/
theorem ends_refuseKnown (works : s.Reliable) (url link : String) (countries : List String) :
    Ends (refuseKnown url link countries) s
      (match s.store.knownAs? countries link with
        | some existing =>
          .error (.error (.invalid (Text.trimmed url ++ " already exists as " ++ existing.geoid)))
        | none => .ok ()) s := by
  -- The refusal and the search stop at the same country.
  induction countries with
  | nil => exact ends_pure () s
  | cons country rest ih =>
      have hfind := ends_findByLink works country link
      unfold Store.knownAs? at ih ⊢
      rw [List.findSome?_cons]
      cases hfirst : s.store.findByLink? country link with
      | some existing =>
          rw [hfirst] at hfind
          exact hfind.bind (ends_fail _ s)
      | none =>
          rw [hfirst] at hfind
          exact hfind.bind ih

/-- A place whose country and link are known is refused before the download. -/
theorem ends_addPlace_known (works : s.Reliable) {url feedUrl : String} {existing : Place}
    (hnamed : Address.feedOfPage url = .ok feedUrl)
    (hfound : s.store.knownAt? feedUrl = some existing) :
    Ends (addPlace url) s
      (.error (.error (.invalid (Text.trimmed url ++ " already exists as " ++ existing.geoid))))
      s := by
  have hurl : Fault.ofError (Address.feedOfPage url) = .ok feedUrl := by rw [hnamed]; rfl
  have hrefuse := ends_refuseKnown works url (Address.split feedUrl).2
    (countrySpellings (Address.split feedUrl).1)
  unfold Store.knownAt? at hfound
  rw [hfound] at hrefuse
  exact (ends_ofExcept hurl s).bind hrefuse.bind_error

/-- A new place is added as its download goes. -/
theorem ends_addPlace_new (works : s.Reliable) {url feedUrl : String}
    (hnamed : Address.feedOfPage url = .ok feedUrl) (hnew : s.store.knownAt? feedUrl = none)
    {outcome : Except Fault Place} {t : Station}
    (hends : Ends (storeFeed feedUrl none >>= fun feed => requirePlace feed.geoid) s outcome t) :
    Ends (addPlace url) s outcome t := by
  have hurl : Fault.ofError (Address.feedOfPage url) = .ok feedUrl := by rw [hnamed]; rfl
  have hrefuse := ends_refuseKnown works url (Address.split feedUrl).2
    (countrySpellings (Address.split feedUrl).1)
  unfold Store.knownAt? at hnew
  rw [hnew] at hrefuse
  exact (ends_ofExcept hurl s).bind (hrefuse.bind hends)

/-- Every addition takes one of the paths. -/
theorem addPlace_path (works : s.Reliable) (url : String) :
    ∃ outcome t, AdditionPath url s outcome t ∧ Ends (addPlace url) s outcome t := by
  cases hnamed : Address.feedOfPage url with
  | error e =>
      have hurl : Fault.ofError (Address.feedOfPage url) = .error (.error e) := by
        rw [hnamed]; rfl
      exact ⟨_, _, .invalid hnamed, (ends_ofExcept hurl s).bind_error⟩
  | ok feedUrl =>
      cases hfound : s.store.knownAt? feedUrl with
      | some existing =>
          exact ⟨_, _, .known hnamed hfound, ends_addPlace_known works hnamed hfound⟩
      | none =>
          cases hreceived : s.received feedUrl none with
          | error fault =>
              exact ⟨_, _, .failed hnamed hfound hreceived,
                ends_addPlace_new works hnamed hfound (ends_storeFeed_error hreceived).bind_error⟩
          | ok feed =>
              have hplace := ends_requirePlace
                (s := { s.downloaded feedUrl with store := s.store.withFeed feed }) works feed.geoid
              exact ⟨_, _, .added hnamed hfound hreceived,
                ends_addPlace_new works hnamed hfound
                  ((ends_storeFeed works hreceived).bind hplace)⟩

end Action

end PlaceWeather
