import Maiden.Actors.Dispatch

/-!
# The trip actions (`api/action/Trip.scala`)

BookTrip, UpdateTripState and UpdateTrip as functions of the table, each run without
interruption: the table afterwards, and the reply or the exception. The two update
actions are served under the same URL and order their work differently:

| | UpdateTripState | UpdateTrip |
|---|---|---|
| state validated | never | first |
| caller checked | before the write | after the write |
| reply | `miniUpdateMap`, which computes an eta and may throw | the trip |

`updateLaw_iff` says exactly for which requests the two agree and fail without a
trace. `Request.alone_start` connects the functions to the threads of
`Actors/Task.lean`, which cut the same code at its transactions.
-/

namespace Maiden

/-- `Trip.getHash`. -/
def Trip.getHash (t : Trip) : JString :=
  js ['t', 'r', 'i', 'p', '-'] ++ JString.ofInt t.id

/-- The reply of UpdateTripState (`Trip.scala:80–97`). -/
structure MiniUpdateMap where
  id : Int
  rideState : Int
  paymentState : Int
  isTransfer : Bool
  pickupStop : Int
  dropoffStop : Int
  vehicle : Option Vehicle
  eta : Int
  hash : JString
  schedule : Option Schedule

/-- `Trip.miniUpdateMap`. The vehicle's map was built for the publishing just before. -/
def Trip.miniUpdateMap (w : World) (env : Env) (t : Trip) : Except Failure MiniUpdateMap := do
  let eta ← getDriverEta w env t
  .ok { id := t.id
        rideState := t.rideState
        paymentState := t.paymentState
        isTransfer := t.isTransfer
        pickupStop := t.pickupStop
        dropoffStop := t.dropoffStop
        vehicle := w.vehicles.get t.vehicleId
        eta
        hash := t.getHash
        schedule := w.schedules.get t.scheduleId }

/-- What a request leaves: the table, and its reply or exception. -/
structure Response (α : Type) where
  trips : Table Trip
  result : Except Failure α

/-- The request was answered. -/
def Response.accepted {α : Type} (r : Response α) : Bool :=
  match r.result with
  | .ok _ => true
  | .error _ => false

@[simp] theorem Response.accepted_ok {α : Type} (db : Table Trip) (a : α) :
    (Response.mk db (.ok a)).accepted = true := rfl

@[simp] theorem Response.accepted_error {α : Type} (db : Table Trip) (e : Failure) :
    (Response.mk db (.error e : Except Failure α)).accepted = false := rfl

/-- `BookTrip.execute` (`api/action/Trip.scala:92–111`). -/
def BookTrip.execute (env : Env) (db : Table Trip) (b : Booking) : Response Trip :=
  match Trip.create db b.userId b.routeId b.reservationType b.pickupStop b.dropoffStop b.seats
      b.scheduleId env.now with
  | .error e => ⟨db, .error e⟩
  -- the trip is booked, whatever becomes of the map for the reply
  | .ok (db', trip) => ⟨db', if env.publishes trip then .ok trip else .error .publish⟩

/-- `UpdateTripState.execute` (`api/action/Trip.scala:122–141`). -/
def UpdateTripState.execute (w : World) (env : Env) (db : Table Trip)
    (caller tripId state : Int) : Response MiniUpdateMap :=
  match db.get tripId with
  | none => ⟨db, .error .noTrip⟩
  | some trip =>
    if trip.mayUpdate caller then
      match Trip.updateState env.publishes db trip.id state with
      | .error e => ⟨db, .error e⟩
      | .ok (db', t) => ⟨db', t.miniUpdateMap w env⟩
    else ⟨db, .error .unauthorized⟩

/-- `UpdateTrip.execute` (`api/action/Trip.scala:177–201`). -/
def UpdateTrip.execute (env : Env) (db : Table Trip) (caller tripId state : Int) :
    Response Trip :=
  if validState state then
    match Trip.updateState env.publishes db tripId state with
    | .error e => ⟨db, .error e⟩
    | .ok (db', t) =>
      -- the write is committed by now
      if t.mayUpdate caller then ⟨db', .ok t⟩ else ⟨db', .error .unauthorized⟩
  else ⟨db, .error .invalidRideState⟩

/-! ## The actions are the threads, run alone -/

/-- Where the thread of an answered request ends. -/
def Response.task {α : Type} (r : Response α) : Task :=
  match r.result with
  | .ok _ => .finished
  | .error e => .failed e

/-- What a request does when nothing interrupts it. -/
def Request.execute (w : World) (env : Env) (db : Table Trip) : Request → Table Trip × Task
  | .bookTrip b =>
    let r := BookTrip.execute env db b
    (r.trips, r.task)
  | .updateTripState caller tripId state =>
    let r := UpdateTripState.execute w env db caller tripId state
    (r.trips, r.task)
  | .updateTrip caller tripId state =>
    let r := UpdateTrip.execute env db caller tripId state
    (r.trips, r.task)

/-- Up to `n` steps of one thread, with no other thread in between. -/
def Task.alone (w : World) (env : Env) : Nat → Table Trip × Task → Table Trip × Task
  | 0, p => p
  | n + 1, (db, k) =>
    match k.step w env db with
    | none => (db, k)
    | some p => Task.alone w env n p

/-- Building the reply ends the thread as `After.next` says. -/
theorem Response.task_miniUpdateMap (w : World) (env : Env) (t : Trip) (db : Table Trip) :
    (Response.mk db (t.miniUpdateMap w env)).task = After.reply.next w env t := by
  unfold Response.task After.next Trip.miniUpdateMap
  cases getDriverEta w env t <;> rfl

/-- **The cuts change nothing**: the thread of a request, run alone, does what the
action's `execute` does. -/
theorem Request.alone_start (w : World) (env : Env) (db : Table Trip) (r : Request) :
    Task.alone w env 3 (db, r.start) = r.execute w env db := by
  -- no request has more than three transactions
  cases r with
  | bookTrip b =>
    simp only [Request.start, Request.execute, BookTrip.execute, Trip.create]
    cases hex : Trip.getExisting db b.userId with
    | some t => simp [Task.alone, Task.step, hex, Response.task]
    | none =>
      cases hp : env.publishes (upsert db (b.trip env.now) env.now).2 <;>
        rw [Booking.trip] at hp <;>
        simp [Task.alone, Task.step, hex, hp, Response.task, Booking.trip]
  | updateTripState caller tripId state =>
    simp only [Request.start, Request.execute, UpdateTripState.execute]
    cases hget : db.get tripId with
    | none => simp [Task.alone, Task.step, hget, Response.task]
    | some t =>
      have hid : db.get t.id = some t := Table.get_of_mem (Table.mem_of_get hget)
      cases hmay : t.mayUpdate caller with
      | false => simp [Task.alone, Task.step, hget, hmay, Response.task]
      | true =>
        cases hp : env.publishes (t.withState state) with
        | false =>
          simp [Task.alone, Task.step, hget, hmay, hid, hp, Trip.updateState, Response.task]
        | true =>
          have hreply := Response.task_miniUpdateMap w env (t.withState state)
            (db.update (t.withState state))
          simp [Task.alone, Task.step, hget, hmay, hid, hp, Trip.updateState, hreply]
  | updateTrip caller tripId state =>
    simp only [Request.start, Request.execute, UpdateTrip.execute]
    cases hvalid : validState state with
    | false => simp [Task.alone, Task.step, Response.task]
    | true =>
      cases hget : db.get tripId with
      | none => simp [Task.alone, Task.step, hget, Trip.updateState, Response.task]
      | some t =>
        cases hp : env.publishes (t.withState state) with
        | false => simp [Task.alone, Task.step, hget, hp, Trip.updateState, Response.task]
        | true =>
          cases hmay : (t.withState state).mayUpdate caller <;>
            simp [Task.alone, Task.step, hget, hp, hmay, After.next, Trip.updateState,
              Response.task]

/-! ## The two update actions compared -/

/-- The trip exists, is the caller's, and the state is one of `RideStateType`. -/
def Legitimate (db : Table Trip) (caller tripId state : Int) : Prop :=
  ∃ t, db.get tripId = some t ∧ t.mayUpdate caller = true ∧ validState state = true

/-- The law for one action: it accepts the legitimate requests, an accepted request
changes the ride state of its trip and nothing else, a rejected one changes nothing. -/
def LawfulUpdate (db : Table Trip) (caller tripId state : Int) {α : Type} (r : Response α) :
    Prop :=
  (r.accepted = true ↔ Legitimate db caller tripId state) ∧
  (r.accepted = true → ∃ t, db.get tripId = some t ∧ r.trips = db.update (t.withState state)) ∧
  (r.accepted = false → r.trips = db)

/-- Both actions obey the law, hence accept the same requests. -/
def UpdateLaw (w : World) (env : Env) (db : Table Trip) (caller tripId state : Int) : Prop :=
  LawfulUpdate db caller tripId state (UpdateTrip.execute env db caller tripId state) ∧
  LawfulUpdate db caller tripId state (UpdateTripState.execute w env db caller tripId state)

/-- The eta of the reply can be computed. -/
def replies (w : World) (env : Env) (t : Trip) : Bool :=
  match getDriverEta w env t with
  | .ok _ => true
  | .error _ => false

/-- When the law holds of a stored trip: the owner's valid request is published and
answered; the owner's invalid one is not published, or fails in the reply without
having changed the state; a stranger's valid one is not published or changes nothing. -/
def UpdateCondition (w : World) (env : Env) (t : Trip) (caller state : Int) : Prop :=
  if t.mayUpdate caller then
    if validState state then
      env.publishes (t.withState state) = true ∧ replies w env (t.withState state) = true
    else
      env.publishes (t.withState state) = false ∨
        (replies w env (t.withState state) = false ∧ t.rideState = state)
  else
    validState state = true → env.publishes (t.withState state) = true → t.rideState = state

/-- Writing a state leaves the table alone exactly when it was the trip's state. -/
theorem update_withState_eq_iff {db : Table Trip} {t : Trip} {tripId : Int}
    (h : db.get tripId = some t) (state : Int) :
    db.update (t.withState state) = db ↔ t.rideState = state := by
  constructor
  · intro heq
    have hold : db.get t.id = some t := Table.get_of_mem (Table.mem_of_get h)
    have hself : (db.update (t.withState state)).get t.id = some (t.withState state) :=
      Table.get_update_self (a := t.withState state) hold
    rw [heq, hold] at hself
    exact congrArg Trip.rideState (Option.some.inj hself)
  · rintro rfl
    exact Table.update_of_mem (a := t.withState t.rideState) (Table.mem_of_get h)

section

variable {db : Table Trip} {caller tripId state : Int} {t : Trip}

/-- What UpdateTrip does with a stored trip. -/
theorem UpdateTrip.execute_stored (env : Env) (caller state : Int) (hget : db.get tripId = some t) :
    (UpdateTrip.execute env db caller tripId state).accepted =
      (validState state && env.publishes (t.withState state) && t.mayUpdate caller) ∧
    (UpdateTrip.execute env db caller tripId state).trips =
      if validState state && env.publishes (t.withState state) then db.update (t.withState state)
      else db := by
  have hmay : (t.withState state).mayUpdate caller = t.mayUpdate caller := rfl
  unfold UpdateTrip.execute Trip.updateState
  cases validState state with
  | false => exact ⟨rfl, rfl⟩
  | true =>
    rw [hget]
    cases hp : env.publishes (t.withState state) with
    | false => simp [hp]
    | true => cases ha : t.mayUpdate caller <;> simp [hp, hmay, ha]

/-- The reply of UpdateTripState is built when its eta is. -/
theorem accepted_miniUpdateMap (w : World) (env : Env) (t : Trip) (db' : Table Trip) :
    (Response.mk db' (t.miniUpdateMap w env)).accepted = replies w env t := by
  unfold Response.accepted replies Trip.miniUpdateMap
  cases getDriverEta w env t <;> rfl

/-- What UpdateTripState does with a stored trip. -/
theorem UpdateTripState.execute_stored (w : World) (env : Env) (caller state : Int)
    (hget : db.get tripId = some t) :
    (UpdateTripState.execute w env db caller tripId state).accepted =
      (t.mayUpdate caller && env.publishes (t.withState state) &&
        replies w env (t.withState state)) ∧
    (UpdateTripState.execute w env db caller tripId state).trips =
      if t.mayUpdate caller && env.publishes (t.withState state) then
        db.update (t.withState state)
      else db := by
  have hid : db.get t.id = some t := Table.get_of_mem (Table.mem_of_get hget)
  unfold UpdateTripState.execute Trip.updateState
  rw [hget]
  cases ha : t.mayUpdate caller with
  | false => simp [ha]
  | true =>
    cases hp : env.publishes (t.withState state) with
    | false => simp [ha, hid, hp]
    | true => simp [ha, hid, hp, accepted_miniUpdateMap]

/-- The law for a response that is known by whether it was accepted and whether it was
written. -/
theorem lawfulUpdate_iff {α : Type} {r : Response α} {accepted written : Bool}
    (hget : db.get tripId = some t) (hacc : r.accepted = accepted)
    (htrips : r.trips = if written then db.update (t.withState state) else db)
    (hwritten : accepted = true → written = true) :
    LawfulUpdate db caller tripId state r ↔
      accepted = (t.mayUpdate caller && validState state) ∧
        (accepted = false → written = true → t.rideState = state) := by
  -- the trip is known, so being legitimate is a question of the caller and the state
  have hlegit : Legitimate db caller tripId state ↔
      (t.mayUpdate caller && validState state) = true := by
    unfold Legitimate
    rw [hget, Bool.and_eq_true]
    constructor
    · rintro ⟨t', ht', h⟩
      cases ht'
      exact h
    · exact fun h => ⟨t, rfl, h⟩
  have hchange : accepted = true →
      ∃ t, db.get tripId = some t ∧ r.trips = db.update (t.withState state) := by
    intro hyes
    rw [hwritten hyes, if_pos rfl] at htrips
    exact ⟨t, hget, htrips⟩
  unfold LawfulUpdate
  rw [hacc, hlegit, ← Bool.eq_iff_iff, and_iff_right hchange]
  refine and_congr_right fun _ => forall_congr' fun _ => ?_
  cases written with
  | false => exact iff_of_true (htrips.trans (if_neg Bool.false_ne_true)) fun h => nomatch h
  | true =>
    -- a write behind a refusal does no harm only if it writes the state that was there
    rw [htrips, if_pos rfl, update_withState_eq_iff hget]
    exact ⟨fun h _ => h, fun h => h rfl⟩

end

/-- **When the update actions agree and fail atomically**: always for a missing trip, and
for a stored one exactly under `UpdateCondition`. -/
theorem updateLaw_iff (w : World) (env : Env) (db : Table Trip) (caller tripId state : Int) :
    UpdateLaw w env db caller tripId state ↔
      ∀ t, db.get tripId = some t → UpdateCondition w env t caller state := by
  cases hget : db.get tripId with
  | none =>
    have hnot : ¬ Legitimate db caller tripId state := by
      rintro ⟨t, ht, -⟩
      rw [hget] at ht
      cases ht
    have hlaw : ∀ {α : Type} {r : Response α}, r.accepted = false → r.trips = db →
        LawfulUpdate db caller tripId state r := by
      intro α r hno htrips
      refine ⟨iff_of_false ?_ hnot, fun hyes => ?_, fun _ => htrips⟩
      · rw [hno]
        exact Bool.false_ne_true
      · rw [hno] at hyes
        cases hyes
    refine iff_of_true ⟨?_, ?_⟩ fun t ht => nomatch ht
    · cases hv : validState state <;>
        exact hlaw (by simp [UpdateTrip.execute, Trip.updateState, hget, hv])
          (by simp [UpdateTrip.execute, Trip.updateState, hget, hv])
    · exact hlaw (by simp [UpdateTripState.execute, hget]) (by simp [UpdateTripState.execute, hget])
  | some t =>
    obtain ⟨hacc, htrips⟩ := UpdateTrip.execute_stored env caller state hget
    obtain ⟨hacc', htrips'⟩ := UpdateTripState.execute_stored w env caller state hget
    unfold UpdateLaw
    rw [lawfulUpdate_iff hget hacc htrips (by simp; tauto),
      lawfulUpdate_iff hget hacc' htrips' (by simp; tauto)]
    simp only [Option.some.injEq, forall_eq']
    unfold UpdateCondition
    -- four yes-no questions about the request remain
    cases t.mayUpdate caller <;> cases validState state <;>
      cases env.publishes (t.withState state) <;> cases replies w env (t.withState state) <;> simp

/-- A booked trip of passenger 5. -/
def bookedTrips : Table Trip := Town.trips [(Town.ride 5 1).trip 0]

/-- Passenger 8 cancels the trip of passenger 5: UpdateTrip answers with
UnauthorizedException and the trip is cancelled. -/
theorem stranger_cancels_trip :
    ∃ (w : World) (env : Env) (db : Table Trip) (caller tripId state : Int),
      (UpdateTrip.execute env db caller tripId state).task = .failed .unauthorized ∧
      (UpdateTrip.execute env db caller tripId state).trips ≠ db ∧
      ¬ UpdateLaw w env db caller tripId state := by
  have htask : (UpdateTrip.execute (Town.env 0) bookedTrips 8 1
      RideStateType.passengerCancelled.id).task = .failed .unauthorized := rfl
  have hrejected : (UpdateTrip.execute (Town.env 0) bookedTrips 8 1
      RideStateType.passengerCancelled.id).accepted = false := rfl
  have hstates : (UpdateTrip.execute (Town.env 0) bookedTrips 8 1
      RideStateType.passengerCancelled.id).trips.rows.map Trip.rideState ≠
        bookedTrips.rows.map Trip.rideState := by decide
  have hchanged : (UpdateTrip.execute (Town.env 0) bookedTrips 8 1
      RideStateType.passengerCancelled.id).trips ≠ bookedTrips := fun h => hstates (by rw [h])
  exact ⟨Town.world [], Town.env 0, bookedTrips, 8, 1, RideStateType.passengerCancelled.id,
    htask, hchanged, fun hlaw => hchanged (hlaw.1.2.2 hrejected)⟩

end Maiden
