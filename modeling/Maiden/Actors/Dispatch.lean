import Maiden.Actors.Task
import Maiden.Base.Run

/-!
# The dispatcher and its clients (`actors/Dispatch.scala`)

The whole system around the Trips table. The dispatch actor handles one
`CheckRideState` message at a time (a *tick*, `Dispatch.scala:39–54`): it reads the
pending trips and handles them in parallel, one worker each; when all have
returned it reads the overdue trips and handles those in parallel. Meanwhile any
number of client requests run against the same table.

- When a worker throws, elements of the parallel loop that have not been started
  may be dropped (`skip`), the rest of the tick is not run, and the actor is
  restarted (`rest`).
- `isProcessing`, which `getPending` tests, is never set by the tick, so it keeps
  no trip to itself.

`Sys.Steps` lists the transitions once (`step_steps`), and `Wf` is the invariant that
all results about runs share: what the workers of each phase are doing
(`Matching`, `Sweeping`), and that all copies of rows agree with the table on the
columns fixed by the booking.
-/

namespace Maiden

/-- The requests that touch the Trips table. -/
inductive Request where
  | bookTrip (b : Booking)
  | updateTripState (caller tripId state : Int)
  | updateTrip (caller tripId state : Int)

/-- The number is an id of `RideStateType`. -/
def validState (state : Int) : Bool := (RideStateType.values.map RideStateType.id).contains state

theorem validState_iff {state : Int} :
    validState state = true ↔ ∃ st : RideStateType, st.id = state := by
  rw [validState, List.contains_iff_mem, List.mem_map]
  exact exists_congr fun st => and_iff_right (RideStateType.mem_values st)

/-- Where the thread of a request starts. UpdateTrip validates the state first;
UpdateTripState does not validate it at all. -/
def Request.start : Request → Task
  | .bookTrip b => .book b
  | .updateTripState caller tripId state => .authorise caller tripId state
  | .updateTrip caller tripId state =>
    if validState state then .update tripId state (.authorise caller)
    else .failed .invalidRideState

/-- An element of one of the tick's parallel loops, with the row the tick read. -/
structure Worker where
  trip : Trip
  task : Task

/-- The body of the first loop. -/
def Worker.findVehicle (trip : Trip) : Worker :=
  ⟨trip, .update trip.id RideStateType.findingVehicle.id (.assign trip)⟩

/-- The body of the second loop. -/
def Worker.noShow (trip : Trip) : Worker :=
  ⟨trip, .update trip.id RideStateType.driverNoShow.id .done⟩

/-- What the dispatch actor is doing. -/
inductive Phase where
  | idle
  /-- In the loop over the pending trips. -/
  | matching
  /-- In the loop over the overdue trips. -/
  | sweeping
deriving DecidableEq

/-- The worker's body has not been entered. -/
def Worker.unstarted (phase : Phase) (wk : Worker) : Bool :=
  match phase, wk.task with
  | .matching, .update _ _ (.assign _) => true
  | .sweeping, .update _ _ _ => true
  | _, _ => false

/-- A body that has not begun is about to mark its trip, and has read nothing but the fetched
row. -/
theorem Worker.unstarted_matching {wk : Worker} (h : wk.unstarted .matching = true) :
    ∃ tripId state trip, wk.task = .update tripId state (.assign trip) := by
  obtain ⟨t, k⟩ := wk
  cases k with
  | update tripId state after =>
    cases after with
    | assign trip => exact ⟨tripId, state, trip, rfl⟩
    | _ => cases h
  | _ => cases h

theorem Worker.unstarted_sweeping {wk : Worker} (h : wk.unstarted .sweeping = true) :
    ∃ tripId state after, wk.task = .update tripId state after := by
  obtain ⟨t, k⟩ := wk
  cases k with
  | update tripId state after => exact ⟨tripId, state, after, rfl⟩
  | _ => cases h

structure Sys where
  trips : Table Trip
  phase : Phase := .idle
  workers : List Worker := []
  clients : List Task := []

/-- The system before anything was booked. -/
def Sys.init : Sys := { trips := Table.empty }

/-- What can happen next. -/
inductive Label where
  /-- A request arrives. -/
  | request (r : Request)
  /-- The `i`-th request runs on. -/
  | client (i : Nat) (env : Env)
  | tick
  /-- The `i`-th worker of the tick runs on. -/
  | worker (i : Nat) (env : Env)
  /-- The `i`-th worker is dropped because another one threw. -/
  | skip (i : Nat)
  /-- The first loop has returned; the overdue trips are read. -/
  | sweep (now : Int)
  /-- The tick is over. -/
  | rest

/-- All workers have returned or thrown. -/
def Sys.allEnded (s : Sys) : Bool := s.workers.all fun wk => wk.task.ended

/-- Some worker has thrown. -/
def Sys.someThrew (s : Sys) : Bool := s.workers.any fun wk => wk.task.threw

/-- One transition of the system. -/
def Sys.step (w : World) (s : Sys) : Label → Option Sys
  | .request r => some { s with clients := s.clients ++ [r.start] }
  | .client i env =>
    match s.clients[i]? with
    | none => none
    | some k =>
      match Task.step w env s.trips k with
      | none => none
      | some (db, k') => some { s with trips := db, clients := s.clients.set i k' }
  | .tick =>
    -- an actor handles one message at a time
    if s.phase = .idle then
      some { s with
        phase := .matching
        workers := (Trip.getPending s.trips).map Worker.findVehicle }
    else none
  | .worker i env =>
    match s.workers[i]? with
    | none => none
    | some wk =>
      match Task.step w env s.trips wk.task with
      | none => none
      | some (db, k') => some { s with trips := db, workers := s.workers.set i ⟨wk.trip, k'⟩ }
  | .skip i =>
    match s.workers[i]? with
    | none => none
    | some wk =>
      -- `par.foreach` hands out no further elements once one has thrown
      if wk.unstarted s.phase && s.someThrew then
        some { s with workers := s.workers.set i ⟨wk.trip, .failed .aborted⟩ }
      else none
  | .sweep now =>
    -- the clock is read here, after the first loop
    if s.phase = .matching ∧ s.allEnded ∧ ¬ s.someThrew then
      some { s with
        phase := .sweeping
        workers := (Trip.getVehicleOverdue s.trips now).map Worker.noShow }
    else none
  | .rest =>
    -- the tick has returned, or an exception has restarted the actor
    if s.phase ≠ .idle ∧ s.allEnded ∧ (s.phase = .sweeping ∨ s.someThrew) then
      some { s with phase := .idle, workers := [] }
    else none

/-- The thread that a label runs, where it is, and what it sees of the outside. -/
def Sys.running (s : Sys) : Label → Option (Env × Task)
  | .client i env => s.clients[i]?.map fun k => (env, k)
  | .worker i env => s.workers[i]?.map fun wk => (env, wk.task)
  | _ => none

theorem Sys.running_client {s : Sys} {i : Nat} {k : Task} (env : Env)
    (hk : s.clients[i]? = some k) : s.running (.client i env) = some (env, k) := by
  rw [Sys.running, hk]
  rfl

theorem Sys.running_worker {s : Sys} {i : Nat} {wk : Worker} (env : Env)
    (hw : s.workers[i]? = some wk) : s.running (.worker i env) = some (env, wk.task) := by
  rw [Sys.running, hw]
  rfl

/-- A worker of the first loop is still busy with the trip. -/
def Sys.handling (s : Sys) (tripId : Int) : Bool :=
  s.phase == .matching && s.workers.any fun wk => wk.trip.id == tripId && !wk.task.ended

/-- A trip is in hand while a worker of the first loop has not ended with it. -/
theorem Sys.handling_iff {s : Sys} {tripId : Int} :
    s.handling tripId = true ↔
      s.phase = .matching ∧ ∃ wk ∈ s.workers, wk.trip.id = tripId ∧ wk.task.ended = false := by
  simp [Sys.handling]

theorem Sys.handling_of_phase {s : Sys} (h : s.phase ≠ .matching) (tripId : Int) :
    s.handling tripId = false := by
  rw [Bool.eq_false_iff]
  exact fun hhand => h (Sys.handling_iff.mp hhand).1

/-- Nothing is in hand once the loop has returned. -/
theorem Sys.handling_of_allEnded {s : Sys} (h : s.allEnded = true) (tripId : Int) :
    s.handling tripId = false := by
  rw [Bool.eq_false_iff]
  intro hhand
  obtain ⟨-, wk, hwk, -, hbusy⟩ := Sys.handling_iff.mp hhand
  rw [List.all_eq_true.mp h wk hwk] at hbusy
  cases hbusy

/-! ## What one transition can do -/

/-- The transitions of the system, as a relation. -/
inductive Sys.Steps (w : World) (s : Sys) : Label → Sys → Prop
  | request {r : Request} : Steps w s (.request r) { s with clients := s.clients ++ [r.start] }
  | client {i : Nat} {env : Env} {k k' : Task} {db : Table Trip} (hk : s.clients[i]? = some k)
      (hm : Task.Moves w env s.trips k db k') :
      Steps w s (.client i env) { s with trips := db, clients := s.clients.set i k' }
  | tick (h : s.phase = .idle) :
      Steps w s .tick { s with
        phase := .matching
        workers := (Trip.getPending s.trips).map Worker.findVehicle }
  | worker {i : Nat} {env : Env} {wk : Worker} {k' : Task} {db : Table Trip}
      (hw : s.workers[i]? = some wk) (hm : Task.Moves w env s.trips wk.task db k') :
      Steps w s (.worker i env)
        { s with trips := db, workers := s.workers.set i ⟨wk.trip, k'⟩ }
  | skip {i : Nat} {wk : Worker} (hw : s.workers[i]? = some wk)
      (hun : wk.unstarted s.phase = true) (hthrew : s.someThrew = true) :
      Steps w s (.skip i)
        { s with workers := s.workers.set i ⟨wk.trip, .failed .aborted⟩ }
  | sweep {now : Int} (h : s.phase = .matching) (hended : s.allEnded = true)
      (hthrew : s.someThrew = false) :
      Steps w s (.sweep now) { s with
        phase := .sweeping
        workers := (Trip.getVehicleOverdue s.trips now).map Worker.noShow }
  | rest (h : s.phase ≠ .idle) (hended : s.allEnded = true)
      (hover : s.phase = .sweeping ∨ s.someThrew = true) :
      Steps w s .rest { s with phase := .idle, workers := [] }

/-- **Inversion of a transition.** What `Sys.step` does under its guards is one of the transitions
of `Sys.Steps`, so that later proofs split into those and never unfold the step function. -/
theorem Sys.step_steps {w : World} {s s' : Sys} {l : Label} (h : s.step w l = some s') :
    s.Steps w l s' := by
  cases l with
  | request r =>
    cases h
    exact .request
  -- a thread that is there and has not ended; `Task.step_moves` says what it did
  | client i env =>
    cases hk : s.clients[i]? with
    | none => simp [Sys.step, hk] at h
    | some k =>
      cases hstep : Task.step w env s.trips k with
      | none => simp [Sys.step, hk, hstep] at h
      | some res =>
        simp only [Sys.step, hk, hstep] at h
        cases h
        exact .client hk (Task.step_moves hstep)
  | tick =>
    by_cases hidle : s.phase = .idle
    · simp only [Sys.step, if_pos hidle] at h
      cases h
      exact .tick hidle
    · simp [Sys.step, hidle] at h
  | worker i env =>
    cases hw : s.workers[i]? with
    | none => simp [Sys.step, hw] at h
    | some wk =>
      cases hstep : Task.step w env s.trips wk.task with
      | none => simp [Sys.step, hw, hstep] at h
      | some res =>
        simp only [Sys.step, hw, hstep] at h
        cases h
        exact .worker hw (Task.step_moves hstep)
  -- only an element that was not entered can be dropped, and only if another one threw
  | skip i =>
    cases hw : s.workers[i]? with
    | none => simp [Sys.step, hw] at h
    | some wk =>
      by_cases hc : (wk.unstarted s.phase && s.someThrew) = true
      · simp only [Sys.step, hw, if_pos hc] at h
        cases h
        rw [Bool.and_eq_true] at hc
        exact .skip hw hc.1 hc.2
      · simp only [Sys.step, hw, if_neg hc] at h
        cases h
  | sweep now =>
    by_cases hc : s.phase = .matching ∧ s.allEnded ∧ ¬ s.someThrew
    · simp only [Sys.step, if_pos hc] at h
      cases h
      exact .sweep hc.1 hc.2.1 (Bool.eq_false_iff.mpr hc.2.2)
    · simp only [Sys.step, if_neg hc] at h
      cases h
  | rest =>
    by_cases hc : s.phase ≠ .idle ∧ s.allEnded ∧ (s.phase = .sweeping ∨ s.someThrew)
    · simp only [Sys.step, if_pos hc] at h
      cases h
      exact .rest hc.1 hc.2.1 hc.2.2
    · simp only [Sys.step, if_neg hc] at h
      cases h

/-! ## What a run leaves behind -/

/-- The reads and writes of trips that a run is judged by. -/
inductive Event where
  /-- The tick read these trips (`getPending`, `getVehicleOverdue`). -/
  | tickRead (tripIds : List Int)
  /-- A client's update was committed. -/
  | client (tripId state : Int)
  /-- An update by the tick was committed. -/
  | mark (row : Trip)
  /-- A match was saved. -/
  | save (row : Trip)
deriving DecidableEq

/-- The row the tick wrote, if the event is such a write. -/
def Event.written : Event → Option Trip
  | .mark row => some row
  | .save row => some row
  | _ => none

/-- The trip a client updated, if the event is such an update. -/
def Event.updated : Event → Option Int
  | .client tripId _ => some tripId
  | _ => none

/-- The event of a client's next step. -/
def Task.clientEvent (env : Env) : Task → Option Event
  | .write row _ => if env.publishes row then some (.client row.id row.rideState) else none
  | _ => none

/-- The event of a worker's next step. -/
def Task.workerEvent (env : Env) : Task → Option Event
  | .write row _ => if env.publishes row then some (.mark row) else none
  | .save trip _ => some (.save (stamped trip.unprocessed env.now))
  | _ => none

/-- The event of a transition. -/
def Sys.event (s : Sys) : Label → Option Event
  | .tick => some (.tickRead ((Trip.getPending s.trips).map Trip.id))
  | .sweep now => some (.tickRead ((Trip.getVehicleOverdue s.trips now).map Trip.id))
  | .client i env => s.clients[i]?.bind (Task.clientEvent env)
  | .worker i env => s.workers[i]?.bind fun wk => wk.task.workerEvent env
  | _ => none

theorem Sys.event_client {s : Sys} {i : Nat} {k : Task} (env : Env)
    (hk : s.clients[i]? = some k) : s.event (.client i env) = k.clientEvent env := by
  rw [Sys.event, hk]
  rfl

theorem Sys.event_worker {s : Sys} {i : Nat} {wk : Worker} (env : Env)
    (hw : s.workers[i]? = some wk) : s.event (.worker i env) = wk.task.workerEvent env := by
  rw [Sys.event, hw]
  rfl

/-- A client's step has an event when it commits an update. -/
theorem Task.clientEvent_eq_some {env : Env} {k : Task} {e : Event}
    (h : k.clientEvent env = some e) :
    ∃ row after, k = .write row after ∧ env.publishes row = true ∧
      e = .client row.id row.rideState := by
  cases k with
  | write row after =>
    unfold Task.clientEvent at h
    by_cases hp : env.publishes row = true
    · simp only [hp, if_true] at h
      cases h
      exact ⟨row, after, rfl, hp, rfl⟩
    · simp only [hp] at h
      cases h
  | _ => cases h

/-- A worker's step has an event when it commits an update or saves a match. -/
theorem Task.workerEvent_eq_some {env : Env} {k : Task} {e : Event}
    (h : k.workerEvent env = some e) :
    (∃ row after, k = .write row after ∧ env.publishes row = true ∧ e = .mark row) ∨
    ∃ trip readings, k = .save trip readings ∧
      e = .save (stamped trip.unprocessed env.now) := by
  cases k with
  | write row after =>
    unfold Task.workerEvent at h
    by_cases hp : env.publishes row = true
    · simp only [hp, if_true] at h
      cases h
      exact Or.inl ⟨row, after, rfl, hp, rfl⟩
    · simp only [hp] at h
      cases h
  | save trip readings =>
    cases h
    exact Or.inr ⟨trip, readings, rfl, rfl⟩
  -- no other step of a worker is an event
  | _ => cases h

/-! ## Rides in a small town -/

namespace Town

/-- A ride from the first stop to the second. -/
def ride (userId seats : Int) : Booking where
  userId := userId
  routeId := 1
  reservationType := ReservationType.onDemand.id
  pickupStop := 1
  dropoffStop := 2
  seats := seats
  scheduleId := 0

/-- The table with these trips, numbered from one. -/
def trips (rows : List Trip) : Table Trip := rows.foldl Table.insert Table.empty

/-- The request `r`, as the `i`-th of the run, followed for `n` steps. -/
def served (i n : Nat) (r : Request) : List Label :=
  .request r :: List.replicate n (.client i (env 0))

/-- `n` steps of the `i`-th worker. -/
def worked (i n : Nat) : List Label := List.replicate n (.worker i (env 0))

end Town

end Maiden
