import PlaceWeather.Proofs.Place.Reconciled
import PlaceWeather.Proofs.Station.Frame

/-!
# Places that stay reachable

The address of a feed is made of the country and the link of its place, and a download takes both
over from the document.  A document may do without a credit, and it may leave the country blank; the
reader takes what is missing for empty, and so does the reconciliation, for which an empty text is a
text like any other.  So a refresh keeps a place reachable exactly when no document that was taken
for the place lacks one of the two (`ensureFresh_reachable_iff`), and one without a credit makes the
place unreachable (`ensureFresh_served_unreachable`).
-/

namespace PlaceWeather

/-- A place names a country and a link, from which the address of its feed is made. -/
structure Place.Reachable (p : Place) : Prop where
  country : p.country ≠ ""
  link : p.link ≠ ""

/-- The parts of a document name a country and, with the credit, a link. -/
structure FeedDocument.NamesFeed (d : FeedDocument) : Prop where
  country : Text.trimmed d.country ≠ ""
  link : (Address.split (d.creditUrl.getD "")).2 ≠ ""

namespace Feed

theorem place_of_readPlace {d : FeedDocument} {place : Place} (h : readPlace d = .ok place) :
    place.country = Text.trimmed d.country ∧
      place.link = (Address.split (d.creditUrl.getD "")).2 := by
  -- The coordinates have to be readable; neither text depends on them.
  unfold readPlace at h
  obtain ⟨_, -, h⟩ := bind_eq_ok h
  obtain ⟨_, -, h⟩ := bind_eq_ok h
  cases h
  exact ⟨rfl, rfl⟩

/-- The place of a feed is reachable exactly when the document names its feed. -/
theorem reachable_iff_of_ofDocument {d : FeedDocument} {geoid : Option String} {feed : Feed}
    (h : ofDocument d geoid = .ok feed) : feed.place.Reachable ↔ d.NamesFeed := by
  unfold ofDocument at h
  obtain ⟨place, hplace, h⟩ := bind_eq_ok h
  obtain ⟨_, -, h⟩ := bind_eq_ok h
  obtain ⟨_, -, h⟩ := bind_eq_ok h
  cases h
  obtain ⟨hcountry, hlink⟩ := place_of_readPlace (ofError_eq_ok hplace)
  constructor
  · rintro ⟨hc, hl⟩
    exact ⟨hcountry ▸ hc, hlink ▸ hl⟩
  · rintro ⟨hc, hl⟩
    exact ⟨hcountry.symm ▸ hc, hlink.symm ▸ hl⟩

end Feed

/-- A feed is received when the response can be taken apart and its parts can be read. -/
theorem Station.received_eq_ok {s : Station} {url : String} {geoid : Option String} {feed : Feed} :
    s.received url geoid = .ok feed ↔ ∃ document d, (s.web.respond url).1 = .ok document ∧
      FeedDocument.ofText? document = some d ∧ Feed.ofDocument d geoid = .ok feed := by
  constructor
  · intro h
    unfold received at h
    split at h
    · rename_i document hresponse
      unfold Feed.read at h
      split at h
      · rename_i d hd
        exact ⟨document, d, hresponse, hd, h⟩
      · cases h
    · cases h
  · rintro ⟨document, d, hresponse, hd, h⟩
    rw [received_of_response hresponse, Feed.read, hd]
    exact h

theorem Place.Described.reachable_iff {place downloaded : Place} (h : place.Described downloaded) :
    place.Reachable ↔ downloaded.Reachable := by
  constructor
  · rintro ⟨hc, hl⟩
    exact ⟨h.country ▸ hc, h.link ▸ hl⟩
  · rintro ⟨hc, hl⟩
    exact ⟨h.country.symm ▸ hc, h.link.symm ▸ hl⟩

namespace RefreshPath

variable {baseUrl geoid url : String} {now : Instant} {s t : Station} {fresh : Freshness}

/-- A check keeps the record of its place, unless the document that it stores is that place's. -/
theorem place?_eq (h : RefreshPath baseUrl geoid now s (.ok fresh) t) (hkeyed : s.store.Keyed)
    (hother : ∀ url feed, s.dueUrl? baseUrl geoid now = some url →
      s.received url (some geoid) = .ok feed → feed.place.geoid ≠ geoid) :
    t.store.place? geoid = s.store.place? geoid := by
  cases h with
  | fresh | putOff => rfl
  | current hdue hreceived | stale hdue hreceived =>
      exact hkeyed.place?_reconciled (Ne.symm (hother _ _ hdue hreceived))

/-- A check that stores its place's own document leaves the place that the document describes. -/
theorem described (h : RefreshPath baseUrl geoid now s (.ok fresh) t) (hkeyed : s.store.Keyed)
    {feed : Feed} (hdue : s.dueUrl? baseUrl geoid now = some url)
    (hreceived : s.received url (some geoid) = .ok feed) (hown : feed.place.geoid = geoid) :
    ∃ place, t.store.place? geoid = some place ∧ place.Described feed.place := by
  obtain ⟨place, hplace, hdescribed⟩ := hkeyed.withFeed_self feed
  obtain ⟨schedule, -, hstore⟩ := h.of_received (by simp) hdue hreceived
  refine ⟨place, ?_, hdescribed⟩
  rw [hown] at hplace
  rcases hstore with ⟨-, hstore⟩ | ⟨-, hstore⟩
  · rw [hstore]
    exact hplace
  · rw [hstore, Store.place?_putSchedule]
    exact hplace

end RefreshPath

namespace Action

variable {baseUrl geoid : String} {now : Instant} {s t : Station}

/-- After a refresh that answers, a reachable place is still stored, and its next download is from
the address that its country and its link make.  The place is still reachable exactly when the
document that was downloaded and accepted, if there is one and it names the place, names a country
and a link. -/
theorem ensureFresh_reachable_iff {place : Place} {fresh : Freshness} (works : s.Reliable)
    (hkeyed : s.store.Keyed) (hplace : s.store.place? geoid = some place)
    (hreachable : place.Reachable)
    (hrun : (ensureFresh baseUrl geoid now).runAt s = (.ok fresh, t)) :
    ∃ left, t.store.place? geoid = some left ∧
      (∀ later url, t.dueUrl? baseUrl geoid later = some url →
        url = Address.feed baseUrl left.country left.link) ∧
      (left.Reachable ↔ ∀ url document d feed, s.dueUrl? baseUrl geoid now = some url →
        (s.web.respond url).1 = .ok document → FeedDocument.ofText? document = some d →
        Feed.ofDocument d (some geoid) = .ok feed → feed.place.geoid = geoid → d.NamesFeed) := by
  obtain ⟨after, hpath, n, hn⟩ := ensureFresh_run works baseUrl geoid now
  rw [hrun] at hpath hn
  obtain rfl : t = { after with calls := n } := hn
  have hnext : ∀ left, after.store.place? geoid = some left → ∀ later url,
      Station.dueUrl? { after with calls := n } baseUrl geoid later = some url →
        url = Address.feed baseUrl left.country left.link := by
    intro left hleft later url hurl
    obtain ⟨-, other, hother, rfl⟩ := Station.dueUrl?_eq_some.mp hurl
    cases hleft.symm.trans hother
    rfl
  -- Either a document of the place was stored, or its record is as before.
  by_cases hown : ∃ url feed, s.dueUrl? baseUrl geoid now = some url ∧
      s.received url (some geoid) = .ok feed ∧ feed.place.geoid = geoid
  · obtain ⟨url, feed, hdue, hreceived, hgeoid⟩ := hown
    obtain ⟨left, hleft, hdescribed⟩ := hpath.described hkeyed hdue hreceived hgeoid
    refine ⟨left, hleft, hnext left hleft, ?_⟩
    rw [hdescribed.reachable_iff]
    constructor
    · intro hfeed url' document d feed' hdue' hresponse hd hread _
      -- There is one address to download from, and one feed in its response.
      cases hdue.symm.trans hdue'
      cases hreceived.symm.trans (Station.received_eq_ok.mpr ⟨document, d, hresponse, hd, hread⟩)
      exact (Feed.reachable_iff_of_ofDocument hread).mp hfeed
    · intro hnames
      obtain ⟨document, d, hresponse, hd, hread⟩ := Station.received_eq_ok.mp hreceived
      exact (Feed.reachable_iff_of_ofDocument hread).mpr
        (hnames url document d feed hdue hresponse hd hread hgeoid)
  · have hsame : after.store.place? geoid = some place := by
      rw [hpath.place?_eq hkeyed, hplace]
      intro url feed hdue hreceived hgeoid
      exact hown ⟨url, feed, hdue, hreceived, hgeoid⟩
    refine ⟨place, hsame, hnext place hsame, iff_of_true hreachable ?_⟩
    intro url document d feed hdue hresponse hd hread hgeoid
    have hreceived := Station.received_eq_ok.mpr ⟨document, d, hresponse, hd, hread⟩
    exact absurd ⟨url, feed, hdue, hreceived, hgeoid⟩ hown

end Action

/-! ## A document without a credit -/

namespace Station

/-- The place that a served station knows. -/
def servedPlace : Place := ⟨"g_1", 0, 0, "C", "P", "L", .original⟩

theorem place?_served (credit : String) :
    (served credit).store.place? "g_1" = some servedPlace :=
  (Store.place?_putPlace _ _ _).trans (if_pos rfl)

theorem reachable_servedPlace : servedPlace.Reachable where
  country := by decide
  link := by decide

theorem keyed_served (credit : String) : (served credit).store.Keyed :=
  Store.keyed_scanning.putPlace _

end Station

namespace Action

/-- A check whose document has no credit succeeds, and leaves the place without a link. -/
theorem runAt_ensureFresh_served :
    ∃ fresh t left, (ensureFresh Address.standardBase "g_1" .epoch).runAt (.served "") =
        (.ok fresh, t) ∧ t.store.place? "g_1" = some left ∧ ¬ left.Reachable := by
  have hrun : ((ensureFresh Address.standardBase "g_1" .epoch).runAt (.served "")).1.isOk = true ∧
      (((ensureFresh Address.standardBase "g_1" .epoch).runAt (.served "")).2.store.place?
        "g_1").map Place.link = some "" := by
    decide +kernel
  rcases hresult : (ensureFresh Address.standardBase "g_1" .epoch).runAt (.served "") with
    ⟨e | fresh, t⟩
  · rw [hresult] at hrun
    cases hrun.1
  · rw [hresult] at hrun
    obtain ⟨left, hleft, hlink⟩ := Option.map_eq_some_iff.mp hrun.2
    exact ⟨fresh, t, left, rfl, hleft, fun h => h.link hlink⟩

/-- The check without a credit is one whose document does not name a feed. -/
theorem ensureFresh_reachable_iff_served :
    ∃ url document d, (Station.served "").dueUrl? Address.standardBase "g_1" .epoch = some url ∧
      ((Station.served "").web.respond url).1 = .ok document ∧
      FeedDocument.ofText? document = some d ∧ ¬ d.NamesFeed := by
  obtain ⟨fresh, t, left, hrun, hleft, hlost⟩ := runAt_ensureFresh_served
  obtain ⟨left', hleft', -, hiff⟩ := ensureFresh_reachable_iff (Station.reliable_start _ _)
    (Station.keyed_served "") (Station.place?_served "") Station.reachable_servedPlace hrun
  cases hleft.symm.trans hleft'
  by_contra hall
  refine hlost (hiff.mpr fun url document d feed hdue hresponse hd _ _ => ?_)
  by_contra hnames
  exact hall ⟨url, document, d, hdue, hresponse, hd, hnames⟩

/-- A refresh can make a reachable place unreachable: its document is accepted and names the place,
but has no credit. -/
theorem ensureFresh_served_unreachable :
    ∃ place url document feed fresh t left,
      (Station.served "").store.place? "g_1" = some place ∧ place.Reachable ∧
      (Station.served "").dueUrl? Address.standardBase "g_1" .epoch = some url ∧
      ((Station.served "").web.respond url).1 = .ok document ∧
      Feed.read document (some "g_1") = .ok feed ∧ feed.place.geoid = "g_1" ∧
      (ensureFresh Address.standardBase "g_1" .epoch).runAt (.served "") = (.ok fresh, t) ∧
      t.store.place? "g_1" = some left ∧ ¬ left.Reachable := by
  obtain ⟨fresh, t, left, hrun, hleft, hlost⟩ := runAt_ensureFresh_served
  have works : (Station.served "").Reliable := Station.reliable_start _ _
  obtain ⟨after, hpath, n, hn⟩ := ensureFresh_run works Address.standardBase "g_1" .epoch
  rw [hrun] at hpath hn
  obtain rfl : t = { after with calls := n } := hn
  have hkeyed := Station.keyed_served ""
  -- Without a document of the place, the place would be as before.
  by_contra hnone
  have hsame : after.store.place? "g_1" = (Station.served "").store.place? "g_1" := by
    refine hpath.place?_eq hkeyed fun url feed hdue hreceived hgeoid => ?_
    obtain ⟨document, d, hresponse, hd, hread⟩ := Station.received_eq_ok.mp hreceived
    have hread : Feed.read document (some "g_1") = .ok feed := by
      rw [Feed.read, hd]
      exact hread
    exact hnone ⟨_, url, document, feed, fresh, _, left, Station.place?_served "",
      Station.reachable_servedPlace, hdue, hresponse, hread, hgeoid, hrun, hleft, hlost⟩
  rw [Station.place?_served] at hsame
  cases hleft.symm.trans hsame
  exact hlost Station.reachable_servedPlace

end Action

end PlaceWeather
