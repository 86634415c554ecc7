import Maiden.Models.Eta

/-!
# Threads that touch the Trips table

The code that reads and writes trips, cut at its transactions. Every query runs in
a transaction of its own (`Schema.scala:225–237`), so between any two of them
another thread may commit; a `Task` is the place a thread has reached, with the
objects it holds in memory there, and `Task.step` runs it up to its next
transaction.

- A *dispatch worker* handles one pending trip (`Dispatch.scala:43–46`):
  `update`/`write` (the FindingVehicle update), `assign` (`new TripMeta`), `survey`
  (the live trips of one vehicle after the other), `route` (`getBestVehicle` and
  `getInitialTripEtaAndRoute`) and `save`; or one overdue trip: `update`/`write`.
- A *client request* is BookTrip (`book`, `insert`), UpdateTripState (`authorise`,
  then `update`/`write`) or UpdateTrip (`update`/`write`, authorised afterwards).

`Moves` lists what one step can do, once; everything that is proved about threads
goes through `step_moves`.
-/

namespace Maiden

/-- The parameters of BookTrip (`api/action/Trip.scala:82–111`), with the caller. -/
structure Booking where
  userId : Int
  routeId : Int
  reservationType : Int
  pickupStop : Int
  dropoffStop : Int
  seats : Int
  scheduleId : Int
deriving DecidableEq

/-- The trip that `Trip.create` makes of a booking. -/
def Booking.trip (b : Booking) (now : Int) : Trip :=
  Trip.booked b.userId b.routeId b.reservationType b.pickupStop b.dropoffStop b.seats
    b.scheduleId now

/-- What a thread does with the trip that `updateState` returns. -/
inductive After where
  /-- The worker goes on with the object the tick read (`Trip.assignVehicle(trip)`). -/
  | assign (trip : Trip)
  | done
  /-- UpdateTrip checks the caller only now. -/
  | authorise (caller : Int)
  /-- UpdateTripState answers with `miniUpdateMap`. -/
  | reply
deriving DecidableEq

/-- Where a thread is, and what it holds. -/
inductive Task where
  /-- Before `updateState` reads the row. -/
  | update (tripId state : Int) (after : After)
  /-- Before `updateState` writes the row it read back, with the new state. -/
  | write (row : Trip) (after : After)
  | assign (trip : Trip)
  /-- Between the queries of the availability table: what was read, who is left. -/
  | survey (trip : Trip) (tm : TripMeta) (readings : List Reading) (left : List Vehicle)
  | route (trip : Trip) (tm : TripMeta) (readings : List Reading) (available : List Vehicle)
  /-- Before `saveTrip`. The readings are what the match was decided on; the code has
  dropped them by now. -/
  | save (trip : Trip) (readings : List Reading)
  | book (b : Booking)
  /-- Before the insert of the trip made at `created`. -/
  | insert (b : Booking) (created : Int)
  | authorise (caller tripId state : Int)
  | finished
  | failed (why : Failure)

/-- The thread has returned or thrown. -/
def Task.ended : Task → Bool
  | .finished => true
  | .failed _ => true
  | _ => false

/-- The thread has thrown. -/
def Task.threw : Task → Bool
  | .failed _ => true
  | _ => false

/-- Only the trip's passenger and its driver may change it. -/
def Trip.mayUpdate (t : Trip) (caller : Int) : Bool :=
  caller == t.userId || caller == t.driverId

/-- Where the thread goes when `updateState` has returned `row`. -/
def After.next (w : World) (env : Env) (row : Trip) : After → Task
  | .assign trip => .assign trip
  | .done => .finished
  | .authorise caller => if row.mayUpdate caller then .finished else .failed .unauthorized
  | .reply =>
    match getDriverEta w env row with
    | .error e => .failed e
    | .ok _ => .finished

/-- `getBestVehicle` followed by `getInitialTripEtaAndRoute` on the same object. -/
def matchTrip (w : World) (env : Env) (tm : TripMeta) (available : List Vehicle) (trip : Trip) :
    Except Failure (Option Trip) := do
  let matched ← getBestVehicle env tm.pickup available trip
  getInitialTripEtaAndRoute w env tm matched

/-- The object `saveTrip` writes (`Trip.scala:534–541`). -/
def Trip.unprocessed (t : Trip) : Trip := { t with isProcessing := false }

/-- One step of a thread, up to its next transaction: the table after it and where
the thread is then. A thread that has ended has no step. -/
def Task.step (w : World) (env : Env) (db : Table Trip) : Task → Option (Table Trip × Task)
  | .update tripId state after =>
    -- the read is a transaction of its own, so the row may change before it is written back
    match db.get tripId with
    | none => some (db, .failed .noTrip)
    | some t => some (db, .write (t.withState state) after)
  | .write row after =>
    -- the write and the publishing share one, so a failure to publish undoes the write
    if env.publishes row then some (db.update row, after.next w env row)
    else some (db, .failed .publish)
  | .assign trip =>
    match TripMeta.of w trip with
    | .error e => some (db, .failed e)
    | .ok tm => some (db, .survey trip tm [] tm.vehicles)
  | .survey trip tm readings (v :: left) =>
    some (db, .survey trip tm (readings ++ [(v, Trip.getOccupiedTripsByVehicle db v.id)]) left)
  | .survey trip tm readings [] =>
    match getAvailableVehicles w tm trip.seats readings with
    | .error e => some (db, .failed e)
    -- `getAvailableVehicles` marks the trip itself, by another `updateState`
    | .ok [] => some (db, .update trip.id RideStateType.noAvailableVehicles.id .done)
    | .ok (v :: vs) => some (db, .route trip tm readings (v :: vs))
  | .route trip tm readings available =>
    match matchTrip w env tm available trip with
    | .error e => some (db, .failed e)
    -- the `for` of `assignVehicle` ends in `None`, without a word
    | .ok none => some (db, .finished)
    | .ok (some trip') => some (db, .save trip' readings)
  | .save trip _ =>
    -- the upsert is committed on its own, whatever the publishing does after it
    some ((upsert db trip.unprocessed env.now).1,
      if env.publishes trip then .finished else .failed .publish)
  | .book b =>
    match Trip.getExisting db b.userId with
    | some _ => some (db, .failed .alreadyHaveTrip)
    | none => some (db, .insert b env.now)
  | .insert b created =>
    -- the trip is booked, whatever becomes of the map for the reply
    some ((upsert db (b.trip created) env.now).1,
      if env.publishes (upsert db (b.trip created) env.now).2 then .finished
      else .failed .publish)
  | .authorise caller tripId state =>
    match db.get tripId with
    | none => some (db, .failed .noTrip)
    | some t =>
      -- only the caller was checked; `updateState` looks the trip up again
      if t.mayUpdate caller then some (db, .update t.id state .reply)
      else some (db, .failed .unauthorized)
  | .finished => none
  | .failed _ => none

/-- The step that comes next commits a write. -/
def Task.commits (env : Env) : Task → Bool
  | .write row _ => env.publishes row
  | .save _ _ => true
  | .insert _ _ => true
  | _ => false

/-- The row that the next step of a thread writes over a stored one. -/
def Task.replaces (env : Env) : Task → Option Trip
  | .write row _ => if env.publishes row then some row else none
  | .save trip _ => some (stamped trip.unprocessed env.now)
  | _ => none

/-! ## What one step can do -/

/-- `Moves w env db k db' k'`: a step takes the thread from `k` to `k'` and the table
from `db` to `db'`. -/
inductive Task.Moves (w : World) (env : Env) (db : Table Trip) : Task → Table Trip → Task → Prop
  | missing {tripId state : Int} {after : After} (h : db.get tripId = none) :
      Moves w env db (.update tripId state after) db (.failed .noTrip)
  | read {tripId state : Int} {after : After} {t : Trip} (h : db.get tripId = some t) :
      Moves w env db (.update tripId state after) db (.write (t.withState state) after)
  | rollback {row : Trip} {after : After} (h : env.publishes row = false) :
      Moves w env db (.write row after) db (.failed .publish)
  | commit {row : Trip} {after : After} (h : env.publishes row = true) :
      Moves w env db (.write row after) (db.update row) (after.next w env row)
  | noStops {trip : Trip} {e : Failure} (h : TripMeta.of w trip = .error e) :
      Moves w env db (.assign trip) db (.failed e)
  | begin {trip : Trip} {tm : TripMeta} (h : TripMeta.of w trip = .ok tm) :
      Moves w env db (.assign trip) db (.survey trip tm [] tm.vehicles)
  | look {trip : Trip} {tm : TripMeta} {readings : List Reading} {v : Vehicle}
      {left : List Vehicle} :
      Moves w env db (.survey trip tm readings (v :: left)) db
        (.survey trip tm (readings ++ [(v, Trip.getOccupiedTripsByVehicle db v.id)]) left)
  | unreadable {trip : Trip} {tm : TripMeta} {readings : List Reading} {e : Failure}
      (h : getAvailableVehicles w tm trip.seats readings = .error e) :
      Moves w env db (.survey trip tm readings []) db (.failed e)
  | noVehicle {trip : Trip} {tm : TripMeta} {readings : List Reading}
      (h : getAvailableVehicles w tm trip.seats readings = .ok []) :
      Moves w env db (.survey trip tm readings []) db
        (.update trip.id RideStateType.noAvailableVehicles.id .done)
  | choose {trip : Trip} {tm : TripMeta} {readings : List Reading} {available : List Vehicle}
      (h : getAvailableVehicles w tm trip.seats readings = .ok available)
      (hne : available ≠ []) :
      Moves w env db (.survey trip tm readings []) db (.route trip tm readings available)
  | unroutable {trip : Trip} {tm : TripMeta} {readings : List Reading}
      {available : List Vehicle} {e : Failure}
      (h : matchTrip w env tm available trip = .error e) :
      Moves w env db (.route trip tm readings available) db (.failed e)
  | unmatched {trip : Trip} {tm : TripMeta} {readings : List Reading}
      {available : List Vehicle} (h : matchTrip w env tm available trip = .ok none) :
      Moves w env db (.route trip tm readings available) db .finished
  | matched {trip trip' : Trip} {tm : TripMeta} {readings : List Reading}
      {available : List Vehicle} (h : matchTrip w env tm available trip = .ok (some trip')) :
      Moves w env db (.route trip tm readings available) db (.save trip' readings)
  | saved {trip : Trip} {readings : List Reading} :
      Moves w env db (.save trip readings) (upsert db trip.unprocessed env.now).1
        (if env.publishes trip then .finished else .failed .publish)
  | taken {b : Booking} {t : Trip} (h : Trip.getExisting db b.userId = some t) :
      Moves w env db (.book b) db (.failed .alreadyHaveTrip)
  | free {b : Booking} (h : Trip.getExisting db b.userId = none) :
      Moves w env db (.book b) db (.insert b env.now)
  | inserted {b : Booking} {created : Int} :
      Moves w env db (.insert b created) (upsert db (b.trip created) env.now).1
        (if env.publishes (upsert db (b.trip created) env.now).2 then .finished
        else .failed .publish)
  | unknown {caller tripId state : Int} (h : db.get tripId = none) :
      Moves w env db (.authorise caller tripId state) db (.failed .noTrip)
  | refused {caller tripId state : Int} {t : Trip} (h : db.get tripId = some t)
      (hno : t.mayUpdate caller = false) :
      Moves w env db (.authorise caller tripId state) db (.failed .unauthorized)
  | allowed {caller tripId state : Int} {t : Trip} (h : db.get tripId = some t)
      (hyes : t.mayUpdate caller = true) :
      Moves w env db (.authorise caller tripId state) db (.update t.id state .reply)

/-- Everything the relation allows is a step. -/
theorem Task.Moves.step_eq {w : World} {env : Env} {db db' : Table Trip} {k k' : Task}
    (h : Task.Moves w env db k db' k') : Task.step w env db k = some (db', k') := by
  cases h with
  | @choose trip tm readings available havail hne =>
    cases available with
    | nil => exact absurd rfl hne
    | cons v vs => simp [Task.step, havail]
  | look => rfl
  | saved => rfl
  | inserted => rfl
  | refused hget hno => simp [Task.step, hget, hno]
  | allowed hget hyes => simp [Task.step, hget, hyes]
  | missing h => simp [Task.step, h]
  | read h => simp [Task.step, h]
  | rollback h => simp [Task.step, h]
  | commit h => simp [Task.step, h]
  | noStops h => simp [Task.step, h]
  | begin h => simp [Task.step, h]
  | unreadable h => simp [Task.step, h]
  | noVehicle h => simp [Task.step, h]
  | unroutable h => simp [Task.step, h]
  | unmatched h => simp [Task.step, h]
  | matched h => simp [Task.step, h]
  | taken h => simp [Task.step, h]
  | free h => simp [Task.step, h]
  | unknown h => simp [Task.step, h]

/-- A thread that has not ended can move, in every environment: no step waits for another thread,
and every lookup and every call of a service has a step for each of its outcomes. -/
theorem Task.exists_moves (w : World) (env : Env) (db : Table Trip) {k : Task}
    (h : k.ended = false) : ∃ db' k', Task.Moves w env db k db' k' := by
  cases k with
  | update tripId state after =>
    cases hget : db.get tripId with
    | none => exact ⟨_, _, .missing hget⟩
    | some t => exact ⟨_, _, .read hget⟩
  | write row after =>
    cases hp : env.publishes row with
    | false => exact ⟨_, _, .rollback hp⟩
    | true => exact ⟨_, _, .commit hp⟩
  | assign trip =>
    cases hof : TripMeta.of w trip with
    | error e => exact ⟨_, _, .noStops hof⟩
    | ok tm => exact ⟨_, _, .begin hof⟩
  | survey trip tm readings left =>
    cases left with
    | cons v left => exact ⟨_, _, .look⟩
    | nil =>
      -- the survey is complete, and what it has read decides
      cases havail : getAvailableVehicles w tm trip.seats readings with
      | error e => exact ⟨_, _, .unreadable havail⟩
      | ok available =>
        cases available with
        | nil => exact ⟨_, _, .noVehicle havail⟩
        | cons v vs => exact ⟨_, _, .choose havail (List.cons_ne_nil v vs)⟩
  | route trip tm readings available =>
    cases hmatch : matchTrip w env tm available trip with
    | error e => exact ⟨_, _, .unroutable hmatch⟩
    | ok res =>
      cases res with
      | none => exact ⟨_, _, .unmatched hmatch⟩
      | some trip' => exact ⟨_, _, .matched hmatch⟩
  | save trip readings => exact ⟨_, _, .saved⟩
  | book b =>
    cases hex : Trip.getExisting db b.userId with
    | none => exact ⟨_, _, .free hex⟩
    | some t => exact ⟨_, _, .taken hex⟩
  | insert b created => exact ⟨_, _, .inserted⟩
  | authorise caller tripId state =>
    cases hget : db.get tripId with
    | none => exact ⟨_, _, .unknown hget⟩
    | some t =>
      cases hmay : t.mayUpdate caller with
      | true => exact ⟨_, _, .allowed hget hmay⟩
      | false => exact ⟨_, _, .refused hget hmay⟩
  | finished => cases h
  | failed why => cases h

/-- **Inversion of a step.** A step has one result, so the move that there is leads to it. -/
theorem Task.step_moves {w : World} {env : Env} {db db' : Table Trip} {k k' : Task}
    (h : Task.step w env db k = some (db', k')) : Task.Moves w env db k db' k' := by
  have hbusy : k.ended = false := by
    cases k with
    | finished => cases h
    | failed why => cases h
    | _ => rfl
  obtain ⟨db₁, k₁, hm⟩ := Task.exists_moves w env db hbusy
  obtain ⟨rfl, rfl⟩ := Prod.mk.inj (Option.some.inj (hm.step_eq.symm.trans h))
  exact hm

/-! ## What a match decides -/

/-- The trip that leaves a successful match. -/
def Trip.assigned (t : Trip) (v : Vehicle) (eta : Int) (geom : JString) : Trip :=
  { t with
    driverId := v.driverId
    vehicleId := v.id
    rideState := RideStateType.vehicleAccepted.id
    eta := some eta
    geom := some geom }

/-- A trip is matched only when exactly one vehicle is available, and then to it. -/
theorem matchTrip_some {w : World} {env : Env} {tm : TripMeta} {available : List Vehicle}
    {trip trip' : Trip} (hstate : trip.rideState ≠ RideStateType.vehicleAccepted.id)
    (h : matchTrip w env tm available trip = .ok (some trip')) :
    ∃ v eta geom, available = [v] ∧ trip' = trip.assigned v eta geom := by
  obtain ⟨matched, hbest, hroute⟩ := bind_eq_ok.mp h
  obtain ⟨haccepted, eta, geom, -, rfl⟩ := getInitialTripEtaAndRoute_some hroute
  -- the object must be accepted to go on, which only the choice of one vehicle makes it
  match available with
  | [] =>
    cases hbest
    have hne : RideStateType.noAvailableVehicles.id ≠ RideStateType.vehicleAccepted.id := by
      decide
    exact absurd haccepted hne
  | [v] =>
    cases hbest
    exact ⟨v, eta, geom, rfl, rfl⟩
  | v :: v' :: vs =>
    obtain ⟨p, -, hsame⟩ := bind_eq_ok.mp hbest
    cases hsame
    exact absurd haccepted hstate

/-- With exactly one vehicle available a match does not stop silently. -/
theorem matchTrip_none {w : World} {env : Env} {tm : TripMeta} {available : List Vehicle}
    {trip : Trip} (h : matchTrip w env tm available trip = .ok none) :
    available.length ≠ 1 := by
  obtain ⟨matched, hbest, hroute⟩ := bind_eq_ok.mp h
  have hstate := getInitialTripEtaAndRoute_none hroute
  intro hlen
  obtain ⟨v, rfl⟩ := List.length_eq_one_iff.mp hlen
  cases hbest
  exact hstate rfl

/-! ## The columns a booking fixes

No step changes who booked a trip, for which ride and how many seats: every row a
thread writes back is one it read, with other columns changed. -/

/-- The columns set by the booking. -/
def Trip.booking (t : Trip) : Booking where
  userId := t.userId
  routeId := t.routeId
  reservationType := t.reservationType
  pickupStop := t.pickupStop
  dropoffStop := t.dropoffStop
  seats := t.seats
  scheduleId := t.scheduleId

/-- The object a thread goes on with after an update. -/
def After.held : After → List Trip
  | .assign trip => [trip]
  | _ => []

/-- The stored trips a thread holds a copy of. -/
def Task.held : Task → List Trip
  | .update _ _ after => after.held
  | .write row after => row :: after.held
  | .assign trip => [trip]
  | .survey trip _ _ _ => [trip]
  | .route trip _ _ _ => [trip]
  | .save trip _ => [trip]
  | _ => []

/-- `db` has a row for each of the copies, with the same booking. -/
def Agrees (db : Table Trip) (copies : List Trip) : Prop :=
  ∀ r ∈ copies, ∃ t, db.get r.id = some t ∧ t.booking = r.booking

/-- Every row of `db` is still there in `db'`, with the same booking. -/
def BookingsKept (db db' : Table Trip) : Prop :=
  ∀ k t, db.get k = some t → ∃ t', db'.get k = some t' ∧ t'.booking = t.booking

theorem Agrees.kept {db db' : Table Trip} {copies : List Trip} (h : Agrees db copies)
    (hkept : BookingsKept db db') : Agrees db' copies := by
  intro r hr
  obtain ⟨t, hget, hbook⟩ := h r hr
  obtain ⟨t', hget', hbook'⟩ := hkept r.id t hget
  exact ⟨t', hget', hbook'.trans hbook⟩

theorem Agrees.head {db : Table Trip} {r : Trip} {copies : List Trip}
    (h : Agrees db (r :: copies)) : Agrees db [r] :=
  fun r' hr' => h r' (List.mem_cons.mpr (Or.inl (List.mem_singleton.mp hr')))

theorem Agrees.tail {db : Table Trip} {r : Trip} {copies : List Trip}
    (h : Agrees db (r :: copies)) : Agrees db copies :=
  fun r' hr' => h r' (List.mem_cons_of_mem r hr')

/-- What a match and its save change of a copy, the booking does not see. -/
theorem Agrees.congr {db : Table Trip} {r r' : Trip} (h : Agrees db [r]) (hid : r'.id = r.id)
    (hbook : r'.booking = r.booking) : Agrees db [r'] := by
  intro x hx
  obtain ⟨t, hget, hsame⟩ := h r List.mem_cons_self
  rw [List.mem_singleton.mp hx, hid, hbook]
  exact ⟨t, hget, hsame⟩

theorem bookingsKept_update {db : Table Trip} {row : Trip} (h : Agrees db [row]) :
    BookingsKept db (db.update row) := by
  intro k t hget
  by_cases hk : k = row.id
  · subst hk
    obtain ⟨t₀, hget₀, hbook⟩ := h row List.mem_cons_self
    rw [hget] at hget₀
    cases hget₀
    exact ⟨row, Table.get_update_self hget, hbook.symm⟩
  · exact ⟨t, (Table.get_update_ne hk).trans hget, rfl⟩

theorem bookingsKept_insert (db : Table Trip) (a : Trip) : BookingsKept db (db.insert a) :=
  fun _ t hget => ⟨t, Table.get_insert_of_get hget, rfl⟩

/-- A copy of a stored row has an id. -/
theorem Agrees.id_ne_zero {db : Table Trip} {copies : List Trip} (h : Agrees db copies)
    {r : Trip} (hr : r ∈ copies) : r.id ≠ 0 := by
  obtain ⟨t, hget, -⟩ := h r hr
  obtain ⟨hmem, hid⟩ := Table.get_eq_some_iff.mp hget
  rw [← hid]
  exact Table.key_ne_zero_of_mem hmem

namespace Task.Moves

variable {w : World} {env : Env} {db db' : Table Trip} {k k' : Task}

/-- **The three writes.** A step leaves the table alone, writes back a row it holds,
saves a match, or inserts a booking. -/
theorem table (h : Moves w env db k db' k') (hag : Agrees db k.held) :
    (db' = db ∧ k.commits env = false) ∨
    (∃ row after, k = .write row after ∧ env.publishes row = true ∧ db' = db.update row) ∨
    (∃ trip readings, k = .save trip readings ∧
      db' = db.update (stamped trip.unprocessed env.now)) ∨
    ∃ b created, k = .insert b created ∧ db' = db.insert (stamped (b.trip created) env.now) := by
  cases h with
  | @commit row after hp => exact Or.inr (Or.inl ⟨row, after, rfl, hp, rfl⟩)
  | @saved trip readings =>
    -- a copy of a stored row has its id, so the upsert is a replacement
    have hid : trip.id ≠ 0 := hag.id_ne_zero (r := trip) List.mem_cons_self
    exact Or.inr (Or.inr (Or.inl ⟨trip, readings, rfl,
      congrArg Prod.fst (upsert_old (a := trip.unprocessed) db env.now hid)⟩))
  | @inserted b created =>
    exact Or.inr (Or.inr (Or.inr ⟨b, created, rfl, congrArg Prod.fst (upsert_new db env.now rfl)⟩))
  | rollback hp => exact Or.inl ⟨rfl, hp⟩
  | _ => exact Or.inl ⟨rfl, rfl⟩

/-- A thread that moves has not ended. -/
theorem busy (h : Moves w env db k db' k') : k.ended = false := by
  cases h <;> rfl

theorem bookingsKept (h : Moves w env db k db' k') (hag : Agrees db k.held) :
    BookingsKept db db' := by
  rcases h.table hag with ⟨rfl, -⟩ | ⟨row, after, rfl, -, rfl⟩ | ⟨trip, readings, rfl, rfl⟩ |
    ⟨b, created, rfl, rfl⟩
  · exact fun _ t hget => ⟨t, hget, rfl⟩
  · exact bookingsKept_update hag.head
  · exact bookingsKept_update (hag.head.congr rfl rfl)
  · exact bookingsKept_insert db _

end Task.Moves

theorem Task.held_of_ended {k : Task} (h : k.ended = true) : k.held = [] := by
  cases k with
  | finished => rfl
  | failed why => rfl
  | _ => cases h

/-- After an update a worker goes on to the match; every other thread ends. -/
theorem After.ended_next (w : World) (env : Env) (row : Trip) {after : After}
    (h : ∀ trip, after ≠ .assign trip) : (after.next w env row).ended = true := by
  cases after with
  | assign trip => exact absurd rfl (h trip)
  | done => rfl
  | authorise caller =>
    show (if row.mayUpdate caller then Task.finished else Task.failed .unauthorized).ended = true
    split <;> rfl
  | reply =>
    show (match getDriverEta w env row with
      | .error e => Task.failed e
      | .ok _ => Task.finished).ended = true
    split <;> rfl

/-- What a thread goes on with is what it held. -/
theorem After.held_next (w : World) (env : Env) (row : Trip) (after : After) :
    (after.next w env row).held ⊆ after.held := by
  by_cases h : ∃ trip, after = .assign trip
  · obtain ⟨trip, rfl⟩ := h
    exact List.Subset.refl _
  · rw [Task.held_of_ended (After.ended_next w env row fun trip heq => h ⟨trip, heq⟩)]
    exact List.nil_subset _

/-- The match fills in vehicle, driver, state, eta and geometry, and nothing that the passenger has
booked. -/
theorem matchTrip_booking {w : World} {env : Env} {tm : TripMeta} {available : List Vehicle}
    {trip trip' : Trip} (h : matchTrip w env tm available trip = .ok (some trip')) :
    trip'.id = trip.id ∧ trip'.booking = trip.booking := by
  obtain ⟨matched, hbest, hroute⟩ := bind_eq_ok.mp h
  obtain ⟨-, eta, geom, -, rfl⟩ := getInitialTripEtaAndRoute_some hroute
  match available with
  | [] =>
    cases hbest
    exact ⟨rfl, rfl⟩
  | [v] =>
    cases hbest
    exact ⟨rfl, rfl⟩
  -- with several vehicles the trip comes back as it was
  | v :: v' :: vs =>
    obtain ⟨p, -, hsame⟩ := bind_eq_ok.mp hbest
    cases hsame
    exact ⟨rfl, rfl⟩

/-- The copies a thread holds stay copies, through its own steps … Only `read` takes a new one; the
match writes columns that are not of the booking. -/
theorem Task.Moves.agrees {w : World} {env : Env} {db db' : Table Trip} {k k' : Task}
    (h : Moves w env db k db' k') (hag : Agrees db k.held) : Agrees db' k'.held := by
  have hkept := h.bookingsKept hag
  have hsame : ∀ {copies}, copies ⊆ k.held → Agrees db' copies := fun hsub =>
    Agrees.kept (fun r hr => hag r (hsub hr)) hkept
  cases h with
  | @read tripId state after t hget =>
    intro r hr
    rcases List.mem_cons.mp hr with rfl | hr
    · exact ⟨t, Table.get_of_mem (Table.mem_of_get hget), rfl⟩
    · exact hag r hr
  | @commit row after hp =>
    exact hsame fun r hr => List.mem_cons_of_mem row (After.held_next w env row after hr)
  | @matched trip trip' tm readings available hm =>
    obtain ⟨hid, hbook⟩ := matchTrip_booking hm
    exact hag.head.congr hid hbook
  | begin => exact hsame (List.Subset.refl _)
  | look => exact hsame (List.Subset.refl _)
  | choose => exact hsame (List.Subset.refl _)
  | saved =>
    refine hsame fun r hr => ?_
    split at hr <;> exact nomatch hr
  | inserted =>
    refine hsame fun r hr => ?_
    split at hr <;> exact nomatch hr
  | _ => exact hsame (List.nil_subset _)

end Maiden
