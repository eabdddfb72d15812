import PlaceWeather.Station.Basic

/-!
# How actions end

`Ends x s outcome t` says that the action `x` at the station `s` ends with `outcome` and leaves the
station `t`, however many store calls were made before; nothing but a failing store looks at that
number.  The rules follow the constructors of actions: a sequence ends as its parts do.  At a
station whose store does not fail each store call ends well, which the last section says call by
call.
-/

namespace PlaceWeather

instance {α : Type} (outcome : Except Fault α) : Decidable (outcome = .error .offCalendar) :=
  match outcome with
  | .error .offCalendar => isTrue rfl
  | .error (.error _) => isFalse (by simp)
  | .ok _ => isFalse (by simp)

namespace Station

/-- No store call fails. -/
def Reliable (s : Station) : Prop := ∀ n call, s.failing n call = false

theorem reliable_start (store : Store) (web : Web) : (start store web).Reliable := fun _ _ => rfl

/-- A station that knows one place, and whose web has no address. -/
def remote : Station :=
  start (Store.scanning.putPlace ⟨"g", 0, 0, "C", "P", "L", .original⟩) .empty

/-- A feed document of the place `g_1`, with some text where its credit may stand. -/
def sampleFeed (credit : String) : String :=
  "<w><location><name>P</name><country>C</country><location geobase='g' geobaseid='1'/>" ++
    "</location>" ++ credit ++ "<meta><lastupdate>2013-10-07T17:30:00</lastupdate>" ++
    "<nextupdate>2013-10-08T06:00:00</nextupdate></meta><forecast><tabular>" ++
    "<time from='2013-10-07T18:00:00' to='2013-10-08T00:00:00' period='3'/>" ++
    "</tabular></forecast></w>"

/-- A web whose only address is the one of the sample feed. -/
def sampleWeb (credit : String) : Web :=
  Web.empty.serve [("https://www.yr.no/place/C/L/forecast.xml", [.ok (sampleFeed credit)])]

/-- A station that knows the place of the sample feed, and whose web has that feed. -/
def served (credit : String) : Station :=
  start (Store.scanning.putPlace ⟨"g_1", 0, 0, "C", "P", "L", .original⟩) (sampleWeb credit)

/-- A web whose only address is the one of the feed of Hamburg, where it has some document. -/
def hamburgWeb (document : String) : Web :=
  Web.empty.serve
    [("https://www.yr.no/place/Germany/Hamburg/Hamburg/forecast.xml", [.ok document])]

theorem responses_hamburgWeb (document url : String) :
    (hamburgWeb document).responses.get? url =
      if "https://www.yr.no/place/Germany/Hamburg/Hamburg/forecast.xml" = url then
        some [.ok document]
      else none :=
  Table.get?_insert _ _ _ _

theorem response_hamburgWeb (document : String) :
    ((hamburgWeb document).respond
      "https://www.yr.no/place/Germany/Hamburg/Hamburg/forecast.xml").1 = .ok document := by
  unfold Web.respond
  rw [responses_hamburgWeb, if_pos rfl]

/-- The station after a download. -/
def downloaded (s : Station) (url : String) : Station :=
  { s with web := (s.web.respond url).2, downloads := s.downloads ++ [url] }

end Station

namespace Action

variable {α β : Type} {s t u : Station}

/-- At `s` the action ends with an outcome and leaves `t`; the number of store calls is left open,
before the action and after it. -/
def Ends (x : Action α) (s : Station) (outcome : Except Fault α) (t : Station) : Prop :=
  ∀ k, ∃ n, x.runAt { s with calls := k } = (outcome, { t with calls := n })

theorem Ends.outcome_eq {x : Action α} {outcome : Except Fault α} (h : Ends x s outcome t) :
    (x.runAt s).1 = outcome := by
  obtain ⟨n, hn⟩ := h s.calls
  exact congrArg Prod.fst hn

theorem Ends.station_eq {x : Action α} {outcome : Except Fault α} (h : Ends x s outcome t) :
    ∃ n, (x.runAt s).2 = { t with calls := n } := by
  obtain ⟨n, hn⟩ := h s.calls
  exact ⟨n, congrArg Prod.snd hn⟩

/-! ## Sequences -/

theorem ends_pure (a : α) (s : Station) : Ends (pure a) s (.ok a) s := fun k => ⟨k, rfl⟩

theorem ends_fail (e : WeatherError) (s : Station) :
    Ends (fail e : Action α) s (.error (.error e)) s := fun k => ⟨k, rfl⟩

theorem ends_ofExcept {given outcome : Except Fault α} (h : given = outcome) (s : Station) :
    Ends (ofExcept given) s outcome s := fun k => ⟨k, by rw [h]; rfl⟩

theorem Ends.bind {x : Action α} {f : α → Action β} {a : α} {outcome : Except Fault β}
    (hx : Ends x s (.ok a) t) (hf : Ends (f a) t outcome u) : Ends (x >>= f) s outcome u := by
  intro k
  -- `f a` begins with the number of calls that `x` has come to.
  obtain ⟨n, hx⟩ := hx k
  obtain ⟨m, hf⟩ := hf n
  refine ⟨m, ?_⟩
  rw [runAt_bind, hx]
  exact hf

theorem Ends.bind_error {x : Action α} {f : α → Action β} {e : Fault}
    (hx : Ends x s (.error e) t) : Ends (x >>= f) s (.error e) t := by
  intro k
  obtain ⟨n, hx⟩ := hx k
  exact ⟨n, by rw [runAt_bind, hx]⟩

theorem Ends.attempt {x : Action α} {a : α} (hx : Ends x s (.ok a) t) :
    Ends (Action.attempt x) s (.ok (.ok a)) t := by
  intro k
  obtain ⟨n, hx⟩ := hx k
  exact ⟨n, by rw [runAt_attempt, hx]⟩

theorem Ends.attempt_error {x : Action α} {e : WeatherError} (hx : Ends x s (.error (.error e)) t) :
    Ends (Action.attempt x) s (.ok (.error e)) t := by
  intro k
  obtain ⟨n, hx⟩ := hx k
  exact ⟨n, by rw [runAt_attempt, hx]⟩

theorem Ends.attempt_offCalendar {x : Action α} (hx : Ends x s (.error .offCalendar) t) :
    Ends (Action.attempt x) s (.error .offCalendar) t := by
  intro k
  obtain ⟨n, hx⟩ := hx k
  exact ⟨n, by rw [runAt_attempt, hx]⟩

theorem Ends.either {x : Action α} {failed : WeatherError → Action β} {ok : α → Action β} {a : α}
    {outcome : Except Fault β} (hx : Ends x s (.ok a) t) (hok : Ends (ok a) t outcome u) :
    Ends (Action.either x failed ok) s outcome u :=
  hx.attempt.bind hok

theorem Ends.either_error {x : Action α} {failed : WeatherError → Action β} {ok : α → Action β}
    {e : WeatherError} {outcome : Except Fault β} (hx : Ends x s (.error (.error e)) t)
    (hfailed : Ends (failed e) t outcome u) : Ends (Action.either x failed ok) s outcome u :=
  hx.attempt_error.bind hfailed

theorem Ends.either_offCalendar {x : Action α} {failed : WeatherError → Action β}
    {ok : α → Action β} (hx : Ends x s (.error .offCalendar) t) :
    Ends (Action.either x failed ok) s (.error .offCalendar) t :=
  hx.attempt_offCalendar.bind_error

/-! ## Store calls and downloads -/

theorem ends_storeCall (works : s.Reliable) (call : StoreCall) (f : Store → α × Store) :
    Ends (storeCall call f) s (.ok (f s.store).1) { s with store := (f s.store).2 } :=
  fun k => ⟨k + 1, runAt_storeCall (s := { s with calls := k }) (works k call) f⟩

theorem ends_getPlace (works : s.Reliable) (geoid : String) :
    Ends (getPlace geoid) s (.ok (s.store.place? geoid)) s := ends_storeCall works _ _

theorem ends_getSchedule (works : s.Reliable) (geoid : String) :
    Ends (getSchedule geoid) s (.ok (s.store.schedule? geoid)) s := ends_storeCall works _ _

theorem ends_getEntries (works : s.Reliable) (geoid : String) (time : LocalTime) :
    Ends (getEntries geoid time) s (.ok (s.store.entriesFrom geoid time)) s :=
  ends_storeCall works _ _

theorem ends_findByLink (works : s.Reliable) (country link : String) :
    Ends (findByLink country link) s (.ok (s.store.findByLink? country link)) s :=
  ends_storeCall works _ _

theorem ends_putPlace (works : s.Reliable) (p : Place) :
    Ends (putPlace p) s (.ok ()) { s with store := s.store.putPlace p } := ends_storeCall works _ _

theorem ends_putSchedule (works : s.Reliable) (geoid : String) (schedule : Schedule) :
    Ends (putSchedule geoid schedule) s (.ok ())
      { s with store := s.store.putSchedule geoid schedule } := ends_storeCall works _ _

theorem ends_putEntries (works : s.Reliable) (geoid : String) (entries : List ForecastEntry) :
    Ends (putEntries geoid entries) s (.ok ())
      { s with store := s.store.putEntries geoid entries } := ends_storeCall works _ _

theorem ends_download (url : String) (s : Station) :
    Ends (download url) s ((s.web.respond url).1.mapError Fault.error) (s.downloaded url) :=
  fun k => ⟨k, runAt_download url { s with calls := k }⟩

end Action

end PlaceWeather
