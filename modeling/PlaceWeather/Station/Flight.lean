import PlaceWeather.Table

/-!
# Checks in flight

Several freshness checks may run at once.  A table has a lock for each place that is being checked,
so that checks of one place come one after the other and no feed is downloaded twice.  A check takes
the lock's entry or makes one, waits for the lock, does its work, gives the lock up, and removes the
entry when nobody else refers to the lock.
-/

namespace PlaceWeather

/-- How far a check has come. -/
inductive FlightPhase where
  /-- It refers to the lock and waits for it. -/
  | waiting
  /-- It has the lock and does its work. -/
  | inside
  /-- It has given the lock up and still refers to it. -/
  | leaving
  /-- It has seen to the table and still refers to the lock. -/
  | left
  deriving DecidableEq, Repr

/-- A check that refers to a lock. -/
structure FlightCheck where
  geoid : String
  lock : Nat
  phase : FlightPhase
  deriving DecidableEq, Repr

/-- The checks in flight and the table of locks. -/
structure Flight where
  locks : Table String Nat
  /-- The number of the next new lock. -/
  fresh : Nat
  checks : List FlightCheck

namespace Flight

/-- No check in flight. -/
def empty : Flight := ⟨.empty, 0, []⟩

/-- The number of references to the lock that the table has for a place and a check refers to. -/
def references (f : Flight) (c : FlightCheck) : Nat :=
  f.checks.countP (fun d => d.lock == c.lock) +
    (if f.locks.get? c.geoid = some c.lock then 1 else 0)

/-- The lock that a new check of a place refers to. -/
def lockFor (f : Flight) (geoid : String) : Nat := (f.locks.get? geoid).getD f.fresh

/-- A check of a place begins: it takes the entry of the table or makes one. -/
def begin (f : Flight) (geoid : String) : Flight where
  locks := f.locks.insert geoid (f.lockFor geoid)
  fresh := if (f.locks.get? geoid).isSome then f.fresh else f.fresh + 1
  checks := ⟨geoid, f.lockFor geoid, .waiting⟩ :: f.checks

/-- The table after a check has left: the entry goes when only the table and the check itself refer
to the lock. -/
def tidy (f : Flight) (c : FlightCheck) : Table String Nat :=
  if f.references c ≤ 2 then f.locks.erase c.geoid else f.locks

/-- One step of one check. -/
inductive Step : Flight → Flight → Prop where
  | begin (f : Flight) (geoid : String) : Step f (f.begin geoid)
  /-- A check gets its lock when no other has it. -/
  | acquire (f : Flight) (before after : List FlightCheck) (c : FlightCheck)
      (here : f.checks = before ++ c :: after) (waits : c.phase = .waiting)
      (free : ∀ d ∈ f.checks, d.lock = c.lock → d.phase ≠ .inside) :
      Step f { f with checks := before ++ { c with phase := .inside } :: after }
  | release (f : Flight) (before after : List FlightCheck) (c : FlightCheck)
      (here : f.checks = before ++ c :: after) (works : c.phase = .inside) :
      Step f { f with checks := before ++ { c with phase := .leaving } :: after }
  | tidy (f : Flight) (before after : List FlightCheck) (c : FlightCheck)
      (here : f.checks = before ++ c :: after) (leaves : c.phase = .leaving) :
      Step f { f with
        locks := f.tidy c
        checks := before ++ { c with phase := .left } :: after }
  | finish (f : Flight) (before after : List FlightCheck) (c : FlightCheck)
      (here : f.checks = before ++ c :: after) (done : c.phase = .left) :
      Step f { f with checks := before ++ after }
  /-- A check is given up before it has seen to the table, and what it holds goes with it. -/
  | cancel (f : Flight) (before after : List FlightCheck) (c : FlightCheck)
      (here : f.checks = before ++ c :: after) (early : c.phase ≠ .left) :
      Step f { f with checks := before ++ after }

/-- What can be reached by any interleaving of any checks. -/
inductive Reachable : Flight → Prop where
  | empty : Reachable empty
  | step {f g : Flight} (reached : Reachable f) (taken : Step f g) : Reachable g

end Flight

end PlaceWeather
