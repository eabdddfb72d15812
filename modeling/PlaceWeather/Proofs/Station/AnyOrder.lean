import Mathlib.Data.List.Nodup
import PlaceWeather.Proofs.Feed.Telling
import PlaceWeather.Proofs.Station.Frame
import PlaceWeather.Proofs.Station.Sweep

/-!
# Sweeps in any order

A freshness check of a place looks at the records of that place and at what the web gives
(`ensureFresh_alike`), and it leaves the records of every other place as they are, as long as
documents name the place they are asked for (`ensureFresh_keeps_others`).  So each check of a sweep
over distinct places answers and leaves what it would have answered and left alone
(`runAt_sweep_alone`), and the order of the sweep does not matter (`sweep_perm`).
-/

namespace PlaceWeather

/-! ## A web that gives the same again -/

namespace Web

/-- The web after some downloads. -/
def after (web : Web) (urls : List String) : Web :=
  urls.foldl (fun web url => (web.respond url).2) web

/-- What a download gives depends on its address, whatever was downloaded before. -/
def Steady (web : Web) : Prop :=
  ∀ urls url, ((web.after urls).respond url).1 = (web.respond url).1

variable {web : Web}

theorem Steady.respond_eq (h : web.Steady) (before url : String) :
    ((web.respond before).2.respond url).1 = (web.respond url).1 :=
  h [before] url

theorem Steady.respond (h : web.Steady) (before : String) : (web.respond before).2.Steady := by
  intro urls url
  rw [h.respond_eq]
  exact h (before :: urls) url

/-- A web with one response at each address stays as it is. -/
theorem steady_of_single (h : ∀ url first later, web.responses.get? url = some (first :: later) →
    later = []) : web.Steady := by
  have hsame : ∀ url, (web.respond url).2 = web := by
    intro url
    unfold Web.respond
    split
    · rfl
    · rfl
    · rfl
    · rename_i first later hmore hresponses
      exact absurd (h url first later hresponses) (fun hnil => hmore (by rw [hnil]))
  intro urls url
  have hafter : web.after urls = web := by
    unfold after
    induction urls with
    | nil => rfl
    | cons first rest ih => rw [List.foldl_cons, hsame, ih]
  rw [hafter]

end Web

/-! ## The records of one place -/

namespace Store

/-- Two stores have the same records of a place. -/
structure SameRecords (geoid : String) (s t : Store) : Prop where
  place : t.place? geoid = s.place? geoid
  schedule : t.schedule? geoid = s.schedule? geoid
  forecasts : t.forecasts.get? geoid = s.forecasts.get? geoid

namespace SameRecords

variable {geoid : String} {s t u : Store}

theorem refl (geoid : String) (s : Store) : SameRecords geoid s s := ⟨rfl, rfl, rfl⟩

theorem symm (h : SameRecords geoid s t) : SameRecords geoid t s :=
  ⟨h.place.symm, h.schedule.symm, h.forecasts.symm⟩

theorem trans (h : SameRecords geoid s t) (h' : SameRecords geoid t u) : SameRecords geoid s u :=
  ⟨h'.place.trans h.place, h'.schedule.trans h.schedule, h'.forecasts.trans h.forecasts⟩

theorem putSchedule (h : SameRecords geoid s t) (schedule : Schedule) :
    SameRecords geoid (s.putSchedule geoid schedule) (t.putSchedule geoid schedule) where
  place := h.place
  schedule := by simp
  forecasts := h.forecasts

theorem reconciled (h : SameRecords geoid s t) {downloaded : Place}
    (hown : downloaded.geoid = geoid) :
    (t.reconciled downloaded).place? geoid = (s.reconciled downloaded).place? geoid := by
  unfold Store.reconciled
  rw [hown, h.place]
  split
  · rw [place?_putPlace, place?_putPlace, h.place]
  · exact h.place

/-- A feed of the place makes the same of the same records. -/
theorem withFeed (h : SameRecords geoid s t) {feed : Feed} (hgeoid : feed.geoid = geoid)
    (hown : feed.place.geoid = geoid) :
    SameRecords geoid (s.withFeed feed) (t.withFeed feed) where
  place := h.reconciled hown
  schedule := by simp [hgeoid]
  forecasts := by simp [hgeoid, Table.get?_insert]

end SameRecords

theorem DiffersInSchedule.sameRecords {geoid other : String} {s t : Store}
    (h : DiffersInSchedule geoid s t) (hother : other ≠ geoid) : SameRecords other s t where
  place := congrArg (Table.get? · other) h.places
  schedule := h.schedules other hother
  forecasts := congrArg (Table.get? · other) h.forecasts

theorem DiffersInFeed.sameRecords {geoid other : String} {s t : Store}
    (h : DiffersInFeed geoid geoid s t) (hother : other ≠ geoid) : SameRecords other s t where
  place := h.places other hother
  schedule := h.schedules other hother
  forecasts := h.forecasts other hother

end Store

/-! ## Stations that are alike for a place -/

namespace Station

/-- Two stations have the same records of a place, and their webs give the same. -/
structure Alike (geoid : String) (s t : Station) : Prop where
  records : Store.SameRecords geoid s.store t.store
  web : ∀ url, (t.web.respond url).1 = (s.web.respond url).1

/-- The document that a check of the place would accept names that place. -/
def NamesOwn (s : Station) (baseUrl geoid : String) (now : Instant) : Prop :=
  ∀ url feed, s.dueUrl? baseUrl geoid now = some url → s.received url (some geoid) = .ok feed →
    feed.place.geoid = geoid

/-- The store does not fail and has each place under its own identifier, and the web gives the same
again. -/
structure Dependable (s : Station) : Prop where
  reliable : s.Reliable
  keyed : s.store.Keyed
  steady : s.web.Steady

variable {baseUrl geoid : String} {now : Instant} {s t : Station}

theorem Alike.symm (h : s.Alike geoid t) : t.Alike geoid s :=
  ⟨h.records.symm, fun url => (h.web url).symm⟩

theorem Alike.dueUrl?_eq (h : s.Alike geoid t) (baseUrl : String) (now : Instant) :
    t.dueUrl? baseUrl geoid now = s.dueUrl? baseUrl geoid now := by
  unfold dueUrl?
  rw [h.records.schedule, h.records.place]

theorem Alike.received_eq (h : s.Alike geoid t) (url : String) (asked : Option String) :
    t.received url asked = s.received url asked := by
  unfold received
  rw [h.web]

theorem Alike.namesOwn (h : s.Alike geoid t) (hown : s.NamesOwn baseUrl geoid now) :
    t.NamesOwn baseUrl geoid now := by
  intro url feed hdue hreceived
  rw [h.dueUrl?_eq] at hdue
  rw [h.received_eq] at hreceived
  exact hown url feed hdue hreceived

end Station

namespace RefreshPath

variable {baseUrl geoid : String} {now : Instant} {s t : Station}
  {outcome : Except Fault Freshness}

/-- A path can also be taken at a station that is alike, and it leaves the same records of the
place. -/
theorem at_alike {s' : Station} (h : RefreshPath baseUrl geoid now s outcome t)
    (hcalendar : outcome ≠ .error .offCalendar) (hown : s.NamesOwn baseUrl geoid now)
    (halike : s.Alike geoid s') :
    ∃ t', RefreshPath baseUrl geoid now s' outcome t' ∧
      Store.SameRecords geoid t.store t'.store := by
  have hrecords := halike.records
  have hdueUrl := halike.dueUrl?_eq baseUrl now
  have hgiven := fun url => halike.received_eq url (some geoid)
  cases h with
  | fresh stored early => exact ⟨s', .fresh (hrecords.schedule.trans stored) early, hrecords⟩
  | unknown due absent =>
      refine ⟨s', .unknown ?_ (hrecords.place.trans absent), hrecords⟩
      rw [hrecords.schedule]
      exact due
  | putOff due failed recoverable backedOff =>
      refine ⟨_, .putOff (hdueUrl.trans due) ((hgiven _).trans failed) recoverable ?_,
        hrecords.putSchedule _⟩
      rw [hrecords.schedule]
      exact backedOff
  | refused due failed final =>
      exact ⟨_, .refused (hdueUrl.trans due) ((hgiven _).trans failed) final, hrecords⟩
  | current due received ahead =>
      have hfeed := hrecords.withFeed (Station.wellRead_of_received received).geoid_eq
        (hown _ _ due received)
      exact ⟨_, .current (hdueUrl.trans due) ((hgiven _).trans received) ahead, hfeed⟩
  | stale due received passed backedOff =>
      have hfeed := hrecords.withFeed (Station.wellRead_of_received received).geoid_eq
        (hown _ _ due received)
      exact ⟨_, .stale (hdueUrl.trans due) ((hgiven _).trans received) passed backedOff,
        hfeed.putSchedule _⟩
  | offCalendar => exact absurd rfl hcalendar

/-- A path leaves the records of other places as they are. -/
theorem sameRecords_of_ne {other : String} (h : RefreshPath baseUrl geoid now s outcome t)
    (hcalendar : outcome ≠ .error .offCalendar) (hkeyed : s.store.Keyed)
    (hown : s.NamesOwn baseUrl geoid now) (hother : other ≠ geoid) :
    Store.SameRecords other s.store t.store := by
  have hfeed : ∀ {url feed}, s.dueUrl? baseUrl geoid now = some url →
      s.received url (some geoid) = .ok feed →
      Store.DiffersInFeed geoid geoid s.store (s.store.withFeed feed) := by
    intro url feed due received
    have hframe := hkeyed.differsInFeed_withFeed feed
    rw [hown url feed due received, (Station.wellRead_of_received received).geoid_eq] at hframe
    exact hframe
  cases h with
  | fresh | unknown | refused => exact .refl other s.store
  | putOff => exact (Store.differsInSchedule_putSchedule s.store geoid _).sameRecords hother
  | current due received => exact (hfeed due received).sameRecords hother
  | stale due received => exact ((hfeed due received).putSchedule _).sameRecords hother
  | offCalendar => exact absurd rfl hcalendar

/-- A path changes the web by at most one download. -/
theorem web_eq (h : RefreshPath baseUrl geoid now s outcome t)
    (hcalendar : outcome ≠ .error .offCalendar) :
    t.web = s.web ∨ ∃ url, t.web = (s.web.respond url).2 := by
  cases h with
  | fresh | unknown => exact .inl rfl
  | putOff | refused | current | stale => exact .inr ⟨_, rfl⟩
  | offCalendar => exact absurd rfl hcalendar

end RefreshPath

namespace Action

variable {baseUrl geoid : String} {now : Instant} {geoids : List String} {s t : Station}

/-! ## One check -/

/-- A check answers the same at stations that are alike for its place, and leaves the same records
of the place. -/
theorem ensureFresh_alike (hs : s.Reliable) (ht : t.Reliable)
    (hown : s.NamesOwn baseUrl geoid now) (halike : s.Alike geoid t)
    (hcalendar : ((ensureFresh baseUrl geoid now).runAt s).1 ≠ .error .offCalendar) :
    ((ensureFresh baseUrl geoid now).runAt t).1 = ((ensureFresh baseUrl geoid now).runAt s).1 ∧
      Store.SameRecords geoid ((ensureFresh baseUrl geoid now).runAt s).2.store
        ((ensureFresh baseUrl geoid now).runAt t).2.store := by
  obtain ⟨left, hpath, n, hleft⟩ := ensureFresh_run hs baseUrl geoid now
  obtain ⟨left', hpath', hrecords⟩ := hpath.at_alike hcalendar hown halike
  have hends := ends_of_path ht hpath' hcalendar
  obtain ⟨m, hleft'⟩ := hends.station_eq
  refine ⟨hends.outcome_eq, ?_⟩
  rw [hleft, hleft']
  exact hrecords

/-- A check leaves a dependable station, which is alike for every other place. -/
theorem ensureFresh_keeps_others (hs : s.Dependable) (hown : s.NamesOwn baseUrl geoid now)
    (hcalendar : ((ensureFresh baseUrl geoid now).runAt s).1 ≠ .error .offCalendar) :
    ((ensureFresh baseUrl geoid now).runAt s).2.Dependable ∧
      ∀ other, other ≠ geoid → s.Alike other ((ensureFresh baseUrl geoid now).runAt s).2 := by
  obtain ⟨left, hpath, n, hleft⟩ := ensureFresh_run hs.reliable baseUrl geoid now
  rw [hleft]
  have hweb : left.web.Steady ∧ ∀ url, (left.web.respond url).1 = (s.web.respond url).1 := by
    rcases hpath.web_eq hcalendar with hsame | ⟨before, hafter⟩
    · rw [hsame]
      exact ⟨hs.steady, fun _ => rfl⟩
    · rw [hafter]
      exact ⟨hs.steady.respond before, hs.steady.respond_eq before⟩
  constructor
  · exact ⟨hpath.reliable hcalendar hs.reliable, hpath.keyed hcalendar hs.keyed, hweb.1⟩
  · intro other hother
    exact ⟨hpath.sameRecords_of_ne hcalendar hs.keyed hown hother, hweb.2⟩

/-- What a check of the first of some distinct places leaves for the checks of the others. -/
theorem ensureFresh_leaves_rest {rest : List String} (hs : s.Dependable) (hnew : geoid ∉ rest)
    (hown : ∀ other ∈ geoid :: rest, s.NamesOwn baseUrl other now)
    (hcalendar : ((ensureFresh baseUrl geoid now).runAt s).1 ≠ .error .offCalendar) :
    ((ensureFresh baseUrl geoid now).runAt s).2.Dependable ∧
      ∀ other ∈ rest, s.Alike other ((ensureFresh baseUrl geoid now).runAt s).2 ∧
        ((ensureFresh baseUrl geoid now).runAt s).2.NamesOwn baseUrl other now := by
  obtain ⟨ht, hothers⟩ := ensureFresh_keeps_others hs (hown geoid List.mem_cons_self) hcalendar
  refine ⟨ht, fun other hother => ?_⟩
  have halike := hothers other (fun heq => hnew (heq ▸ hother))
  exact ⟨halike, halike.namesOwn (hown other (List.mem_cons_of_mem geoid hother))⟩

/-! ## A sweep -/

/-- An outcome that does not leave the calendar is an answer or a failure. -/
theorem exists_answer {α : Type} {outcome : Except Fault α}
    (hcalendar : outcome ≠ .error .offCalendar) : ∃ answer, outcome = Fault.ofError answer := by
  cases outcome with
  | ok a => exact ⟨.ok a, rfl⟩
  | error fault =>
      cases fault with
      | error e => exact ⟨.error e, rfl⟩
      | offCalendar => exact absurd rfl hcalendar

theorem runAt_sweep_cons_ok {u : Station} {rest : List String}
    {answer : Except WeatherError Freshness}
    {outcomes : List (String × Except WeatherError Freshness)}
    (hcheck : (ensureFresh baseUrl geoid now).runAt s = (Fault.ofError answer, t))
    (hrest : (sweep baseUrl now rest).runAt t = (.ok outcomes, u)) :
    (sweep baseUrl now (geoid :: rest)).runAt s = (.ok ((geoid, answer) :: outcomes), u) := by
  rw [sweep, runAt_bind, runAt_attempt, hcheck]
  cases answer with
  | ok fresh => simp [Fault.ofError, Except.mapError, runAt_map, hrest, Except.map]
  | error e => simp [Fault.ofError, Except.mapError, runAt_map, hrest, Except.map]

/-- What a sweep answered and left, told by what the check of each of its places answers and leaves
when it is made at `s` alone. -/
structure SweptAlone (baseUrl : String) (now : Instant) (s : Station)
    (outcomes : List (String × Except WeatherError Freshness)) (t : Station) : Prop where
  answers : ∀ geoid answer, (geoid, answer) ∈ outcomes →
    ((ensureFresh baseUrl geoid now).runAt s).1 = Fault.ofError answer
  checked : ∀ geoid, geoid ∈ outcomes.map Prod.fst →
    Store.SameRecords geoid ((ensureFresh baseUrl geoid now).runAt s).2.store t.store
  others : ∀ geoid, geoid ∉ outcomes.map Prod.fst → Store.SameRecords geoid s.store t.store

/-- A check in front of a sweep over other places. -/
theorem SweptAlone.cons {u : Station} {answer : Except WeatherError Freshness}
    {outcomes : List (String × Except WeatherError Freshness)} (hs : s.Dependable)
    (hown : ∀ other ∈ geoid :: outcomes.map Prod.fst, s.NamesOwn baseUrl other now)
    (hcalendar : ∀ other ∈ geoid :: outcomes.map Prod.fst,
      ((ensureFresh baseUrl other now).runAt s).1 ≠ .error .offCalendar)
    (hnew : geoid ∉ outcomes.map Prod.fst)
    (hcheck : (ensureFresh baseUrl geoid now).runAt s = (Fault.ofError answer, t))
    (hrest : SweptAlone baseUrl now t outcomes u) :
    SweptAlone baseUrl now s ((geoid, answer) :: outcomes) u := by
  have hfirst := ensureFresh_keeps_others hs (hown geoid List.mem_cons_self)
    (hcalendar geoid List.mem_cons_self)
  rw [hcheck] at hfirst
  obtain ⟨ht, hothers⟩ := hfirst
  -- The later checks answer and leave at `t` what they do at `s`.
  have hlater : ∀ other ∈ outcomes.map Prod.fst,
      ((ensureFresh baseUrl other now).runAt t).1 = ((ensureFresh baseUrl other now).runAt s).1 ∧
        Store.SameRecords other ((ensureFresh baseUrl other now).runAt s).2.store
          ((ensureFresh baseUrl other now).runAt t).2.store := by
    intro other hother
    have hne : other ≠ geoid := fun heq => hnew (heq ▸ hother)
    have hmem := List.mem_cons_of_mem geoid hother
    exact ensureFresh_alike hs.reliable ht.reliable (hown other hmem) (hothers other hne)
      (hcalendar other hmem)
  refine ⟨?_, ?_, ?_⟩
  · intro other answer' hmem
    rcases List.mem_cons.mp hmem with heq | hmem
    · cases heq
      rw [hcheck]
    · rw [← (hlater other (List.mem_map_of_mem hmem)).1]
      exact hrest.answers other answer' hmem
  · intro other hmem
    rcases List.mem_cons.mp hmem with rfl | hmem
    · rw [hcheck]
      exact hrest.others other hnew
    · exact (hlater other hmem).2.trans (hrest.checked other hmem)
  · intro other hnot
    obtain ⟨hne, hnot⟩ := not_or.mp (mt List.mem_cons.mpr hnot)
    exact (hothers other hne).records.trans (hrest.others other hnot)

/-- A sweep over distinct places whose checks stay in the calendar ends, and each of its checks
answers and leaves what it would alone. -/
theorem runAt_sweep_alone (hs : s.Dependable) (hnodup : geoids.Nodup)
    (hown : ∀ geoid ∈ geoids, s.NamesOwn baseUrl geoid now)
    (hcalendar : ∀ geoid ∈ geoids,
      ((ensureFresh baseUrl geoid now).runAt s).1 ≠ .error .offCalendar) :
    ∃ outcomes t, (sweep baseUrl now geoids).runAt s = (.ok outcomes, t) ∧
      outcomes.map Prod.fst = geoids ∧ SweptAlone baseUrl now s outcomes t := by
  -- The rest is swept at the station that the first check leaves.
  induction geoids generalizing s with
  | nil =>
      refine ⟨[], s, rfl, rfl, ⟨?_, ?_, ?_⟩⟩
      · intro geoid answer hmem
        cases hmem
      · intro geoid hmem
        cases hmem
      · intro geoid _
        exact .refl geoid s.store
  | cons geoid rest ih =>
      obtain ⟨hnew, hrest⟩ := List.nodup_cons.mp hnodup
      obtain ⟨answer, hanswer⟩ := exists_answer (hcalendar geoid List.mem_cons_self)
      obtain ⟨ht, hlater⟩ := ensureFresh_leaves_rest hs hnew hown
        (hcalendar geoid List.mem_cons_self)
      have hcalendar' : ∀ other ∈ rest, ((ensureFresh baseUrl other now).runAt
          ((ensureFresh baseUrl geoid now).runAt s).2).1 ≠ .error .offCalendar := by
        intro other hother
        have hmem := List.mem_cons_of_mem geoid hother
        rw [(ensureFresh_alike hs.reliable ht.reliable (hown other hmem) (hlater other hother).1
          (hcalendar other hmem)).1]
        exact hcalendar other hmem
      obtain ⟨outcomes, u, hrun, hgeoids, hswept⟩ := ih ht hrest
        (fun other hother => (hlater other hother).2) hcalendar'
      subst hgeoids
      have hcheck : (ensureFresh baseUrl geoid now).runAt s =
          (Fault.ofError answer, ((ensureFresh baseUrl geoid now).runAt s).2) :=
        Prod.ext hanswer rfl
      exact ⟨_, u, runAt_sweep_cons_ok hcheck hrun, rfl,
        hswept.cons hs hown hcalendar hnew hcheck⟩

/-- When a sweep over distinct places stays in the calendar, each of its checks does so alone. -/
theorem calendar_of_sweep (hs : s.Dependable) (hnodup : geoids.Nodup)
    (hown : ∀ geoid ∈ geoids, s.NamesOwn baseUrl geoid now)
    (hcalendar : ((sweep baseUrl now geoids).runAt s).1 ≠ .error .offCalendar) :
    ∀ geoid ∈ geoids, ((ensureFresh baseUrl geoid now).runAt s).1 ≠ .error .offCalendar := by
  induction geoids generalizing s with
  | nil =>
      intro geoid hmem
      cases hmem
  | cons geoid rest ih =>
      obtain ⟨hnew, hrest⟩ := List.nodup_cons.mp hnodup
      obtain ⟨hfirst, hsecond, -⟩ := runAt_sweep_cons hcalendar
      obtain ⟨ht, hlater⟩ := ensureFresh_leaves_rest hs hnew hown hfirst
      intro other hother
      rcases List.mem_cons.mp hother with rfl | hother
      · exact hfirst
      · -- What the check answers after the first one, it answers at `s`.
        obtain ⟨halike, hown'⟩ := hlater other hother
        have hafter := ih ht hrest (fun other hother => (hlater other hother).2) hsecond
          other hother
        rw [(ensureFresh_alike ht.reliable hs.reliable hown' halike.symm hafter).1]
        exact hafter

/-! ## Two sweeps -/

theorem SweptAlone.mem_of_mem {other : List (String × Except WeatherError Freshness)}
    {outcomes : List (String × Except WeatherError Freshness)} {u : Station}
    (h : SweptAlone baseUrl now s outcomes t) (h' : SweptAlone baseUrl now s other u)
    (hgeoids : ∀ geoid, geoid ∈ outcomes.map Prod.fst → geoid ∈ other.map Prod.fst) :
    ∀ p ∈ outcomes, p ∈ other := by
  rintro ⟨geoid, answer⟩ hmem
  obtain ⟨⟨geoid', answer'⟩, hmem', rfl⟩ :=
    List.mem_map.mp (hgeoids geoid (List.mem_map_of_mem hmem))
  -- Both answers are the one that the check gives alone.
  have hsame := (h.answers _ answer hmem).symm.trans (h'.answers _ answer' hmem')
  obtain rfl : answer = answer' := by
    cases answer <;> cases answer' <;> cases hsame <;> rfl
  exact hmem'

/-- A sweep over distinct places, at a station whose store does not fail and has each place under
its own identifier, gives each place the same answer in any order, and leaves the same records of
every place, if what a download gives depends on its address only and documents name the place they
are asked for.  It is enough that the sweep stays in the calendar in one order. -/
theorem sweep_perm {other : List String} (works : s.Reliable) (hkeyed : s.store.Keyed)
    (hsteady : s.web.Steady) (hown : ∀ geoid ∈ geoids, s.NamesOwn baseUrl geoid now)
    (hnodup : geoids.Nodup) (hperm : geoids.Perm other)
    (hcalendar : ((sweep baseUrl now geoids).runAt s).1 ≠ .error .offCalendar) :
    ∃ outcomes outcomes' t t', (sweep baseUrl now geoids).runAt s = (.ok outcomes, t) ∧
      (sweep baseUrl now other).runAt s = (.ok outcomes', t') ∧
      outcomes.map Prod.fst = geoids ∧ outcomes'.map Prod.fst = other ∧
      outcomes.Perm outcomes' ∧ ∀ geoid, Store.SameRecords geoid t.store t'.store := by
  have hs : s.Dependable := ⟨works, hkeyed, hsteady⟩
  have hmem : ∀ geoid, geoid ∈ geoids ↔ geoid ∈ other := fun _ => hperm.mem_iff
  have hchecks := calendar_of_sweep hs hnodup hown hcalendar
  obtain ⟨outcomes, t, hrun, rfl, hswept⟩ := runAt_sweep_alone hs hnodup hown hchecks
  obtain ⟨outcomes', t', hrun', rfl, hswept'⟩ := runAt_sweep_alone hs
    (hperm.nodup_iff.mp hnodup) (fun geoid h => hown geoid ((hmem geoid).mpr h))
    (fun geoid h => hchecks geoid ((hmem geoid).mpr h))
  refine ⟨outcomes, outcomes', t, t', hrun, hrun', rfl, rfl, ?_, ?_⟩
  · have hdistinct := List.Nodup.of_map Prod.fst hnodup
    have hdistinct' := List.Nodup.of_map Prod.fst (hperm.nodup_iff.mp hnodup)
    rw [List.perm_ext_iff_of_nodup hdistinct hdistinct']
    exact fun p => ⟨hswept.mem_of_mem hswept' (fun geoid => (hmem geoid).mp) p,
      hswept'.mem_of_mem hswept (fun geoid => (hmem geoid).mpr) p⟩
  · intro geoid
    by_cases hgeoid : geoid ∈ outcomes.map Prod.fst
    · exact (hswept.checked geoid hgeoid).symm.trans
        (hswept'.checked geoid ((hmem geoid).mp hgeoid))
    · exact (hswept.others geoid hgeoid).symm.trans
        (hswept'.others geoid (fun h => hgeoid ((hmem geoid).mpr h)))

end Action

/-! ## Two places and one feed -/

namespace Station

/-- A station that knows two places, and whose web has the feed of one of them. -/
def twoPlaces : Station :=
  start ((Store.scanning.putPlace
      ⟨"geonames_2911298", 0, 0, "Germany", "Hamburg", "Hamburg/Hamburg", .original⟩).putPlace
    ⟨"g", 0, 0, "C", "P", "L", .original⟩) (hamburgWeb (Feed.sample "Hamburg").write)

theorem steady_hamburgWeb (document : String) : (hamburgWeb document).Steady := by
  refine Web.steady_of_single fun url first later hresponses => ?_
  rw [responses_hamburgWeb] at hresponses
  split at hresponses
  · cases hresponses
    rfl
  · cases hresponses

theorem dueUrl?_twoPlaces :
    twoPlaces.dueUrl? Address.standardBase "geonames_2911298" .epoch =
      some "https://www.yr.no/place/Germany/Hamburg/Hamburg/forecast.xml" ∧
    twoPlaces.dueUrl? Address.standardBase "g" .epoch =
      some "https://www.yr.no/place/C/L/forecast.xml" := by
  decide +kernel

theorem received_twoPlaces :
    ∃ feed, twoPlaces.received "https://www.yr.no/place/Germany/Hamburg/Hamburg/forecast.xml"
        (some "geonames_2911298") = .ok feed ∧
      feed.place.geoid = "geonames_2911298" ∧ Instant.epoch < feed.schedule.nextUpdate := by
  have hread : (Feed.ofDocument (Feed.sample "Hamburg")
      (some "geonames_2911298")).toOption.any (fun feed => decide
        (feed.place.geoid = "geonames_2911298" ∧ Instant.epoch < feed.schedule.nextUpdate)) =
      true := by
    decide +kernel
  have hreceived : twoPlaces.received
      "https://www.yr.no/place/Germany/Hamburg/Hamburg/forecast.xml" (some "geonames_2911298") =
        Feed.ofDocument (Feed.sample "Hamburg") (some "geonames_2911298") := by
    rw [received_of_response (response_hamburgWeb _), Feed.read, Feed.ofText?_sample]
  cases hfeed : Feed.ofDocument (Feed.sample "Hamburg") (some "geonames_2911298") with
  | error fault =>
      rw [hfeed] at hread
      cases hread
  | ok feed =>
      rw [hfeed] at hread
      exact ⟨feed, hreceived.trans hfeed, of_decide_eq_true hread⟩

theorem namesOwn_twoPlaces :
    ∀ geoid ∈ ["geonames_2911298", "g"],
      twoPlaces.NamesOwn Address.standardBase geoid .epoch := by
  intro geoid hmem url feed hdue hreceived
  rcases List.mem_pair.mp hmem with rfl | rfl
  · cases dueUrl?_twoPlaces.1.symm.trans hdue
    obtain ⟨served, hserved, hown, -⟩ := received_twoPlaces
    cases hserved.symm.trans hreceived
    exact hown
  · -- The second place has no response.
    cases dueUrl?_twoPlaces.2.symm.trans hdue
    cases hreceived

end Station

namespace Action

/-- Two places, of which one has a feed and the other has none, are swept in either order. -/
theorem sweep_perm_twoPlaces :
    ∃ outcomes outcomes' t t',
      (sweep Address.standardBase .epoch ["geonames_2911298", "g"]).runAt .twoPlaces =
        (.ok outcomes, t) ∧
      (sweep Address.standardBase .epoch ["g", "geonames_2911298"]).runAt .twoPlaces =
        (.ok outcomes', t') ∧
      outcomes.Perm outcomes' ∧ ∀ geoid, Store.SameRecords geoid t.store t'.store := by
  have works : Station.twoPlaces.Reliable := Station.reliable_start _ _
  have hkeyed : Station.twoPlaces.store.Keyed := (Store.keyed_scanning.putPlace _).putPlace _
  have hsteady : Station.twoPlaces.web.Steady := Station.steady_hamburgWeb _
  have hchecks : ∀ geoid ∈ ["geonames_2911298", "g"],
      ((ensureFresh Address.standardBase geoid .epoch).runAt .twoPlaces).1 ≠
        .error .offCalendar := by
    intro geoid hmem
    rcases List.mem_pair.mp hmem with rfl | rfl
    · obtain ⟨feed, hreceived, -, hahead⟩ := Station.received_twoPlaces
      have hends := ends_of_path works
        (.current Station.dueUrl?_twoPlaces.1 hreceived hahead) (by simp)
      rw [hends.outcome_eq]
      simp
    · decide +kernel
  have hcalendar :
      ((sweep Address.standardBase .epoch ["geonames_2911298", "g"]).runAt .twoPlaces).1 ≠
        .error .offCalendar := by
    obtain ⟨outcomes, t, hrun, -⟩ := runAt_sweep_alone ⟨works, hkeyed, hsteady⟩ (by decide)
      Station.namesOwn_twoPlaces hchecks
    rw [hrun]
    simp
  obtain ⟨outcomes, outcomes', t, t', hrun, hrun', -, -, hperm, hrecords⟩ :=
    sweep_perm works hkeyed hsteady Station.namesOwn_twoPlaces (by decide)
      (List.Perm.swap "g" "geonames_2911298" []) hcalendar
  exact ⟨outcomes, outcomes', t, t', hrun, hrun', hperm, hrecords⟩

end Action

end PlaceWeather
