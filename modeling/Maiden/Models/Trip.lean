import Maiden.Common.Enums
import Maiden.Common.Exceptions
import Maiden.Models.Route
import Maiden.Models.Schema

/-!
# Trips (`data/models/Trip.scala`)

The Trips table: its rows, the queries dispatch and the API run on it, and the
two writes every caller shares. `Trip.updateState` (`Trip.scala:211–224`) is a
*read* of the row in a transaction of its own followed by a *write* of the whole
row, and it validates nothing ("need to validate the transition and do other
stuff here"); `Trip.create` (`Trip.scala:184–209`) is a read of the caller's live
trips followed by an insert. Both are given here as the code runs them when
nothing comes in between; `Actors/Task.lean` runs the same halves as separate steps.
-/

namespace Maiden

/-- A row of the Trips table (`Trip.scala:19–43`). A nullable column is an `Option`;
times are in milliseconds. -/
structure Trip where
  id : Int := 0
  userId : Int := 0
  driverId : Int := 0
  vehicleId : Int := 0
  routeId : Int := 0
  fareId : Int := 0
  reservationType : Int := ReservationType.onDemand.id
  rideState : Int := RideStateType.initial.id
  paymentState : Int := paymentPending
  discountType : Int := noDiscount
  isTransfer : Bool := false
  pickupStop : Int := 0
  dropoffStop : Int := 0
  reservationTime : Int
  eta : Option Int := none
  pickupTime : Option Int := none
  dropoffTime : Option Int := none
  cancellationTime : Option Int := none
  isProcessing : Bool := false
  geom : Option JString := none
  seats : Int := 1
  scheduleId : Int := 0
  createdAt : Option Int
  updatedAt : Option Int
deriving DecidableEq

instance : Stamped Trip where
  key t := t.id
  withKey t k := { t with id := k }
  key_withKey _ _ := rfl
  createdAt t := t.createdAt
  stamp t c m := { t with createdAt := some c, updatedAt := some m }
  key_stamp _ _ _ := rfl

namespace Trip

/-- The states of a trip that occupies its vehicle (`Trip.scala:142–146`). -/
def haveRideStates : List Int :=
  [RideStateType.vehicleAccepted.id, RideStateType.vehicleOnWay.id,
   RideStateType.rideUnderway.id]

/-- The trip is in one of `haveRideStates`. -/
def isLive (t : Trip) : Bool := haveRideStates.contains t.rideState

theorem isLive_iff {t : Trip} : t.isLive = true ↔ t.rideState ∈ haveRideStates :=
  List.contains_iff_mem

/-- The row `updateState` writes back. -/
def withState (t : Trip) (state : Int) : Trip := { t with rideState := state }

/-! ## Queries -/

/-- A live trip of the user, if there is one (`Trip.scala:175–182`). -/
def getExisting (db : Table Trip) (userId : Int) : Option Trip :=
  db.fetchOne fun t => t.userId == userId && t.isLive

/-- `getByCriteria`'s optional conditions: an absent one is left out of the query. -/
structure Criteria where
  userId : Option Int := none
  driverId : Option Int := none
  vehicleId : Option Int := none
  pickupStop : Option Int := none
  dropoffStop : Option Int := none
  rideState : Option Int := none
  paymentState : Option Int := none
  isProcessing : Option Bool := none
  reservationTime : Option Int := none

/-- One condition `column === value.?`. -/
def optEq {α : Type} [DecidableEq α] (column : α) : Option α → Bool
  | none => true
  | some value => column == value

/-- `Trip.scala:276–301`. -/
def getByCriteria (db : Table Trip) (c : Criteria) : List Trip :=
  db.fetch fun t =>
    optEq t.userId c.userId && optEq t.driverId c.driverId && optEq t.vehicleId c.vehicleId &&
    optEq t.pickupStop c.pickupStop && optEq t.dropoffStop c.dropoffStop &&
    optEq t.rideState c.rideState && optEq t.paymentState c.paymentState &&
    optEq t.isProcessing c.isProcessing && optEq t.reservationTime c.reservationTime

/-- The trips a tick picks up (`Trip.scala:303–306`). -/
def getPending (db : Table Trip) : List Trip :=
  getByCriteria db { rideState := some RideStateType.initial.id, isProcessing := some false }

/-- The trip is one that `getPending` selects. -/
def isPending (t : Trip) : Bool :=
  t.rideState == RideStateType.initial.id && t.isProcessing == false

theorem isPending_iff {t : Trip} :
    t.isPending = true ↔ t.rideState = RideStateType.initial.id ∧ t.isProcessing = false := by
  simp [isPending]

theorem getPending_eq (db : Table Trip) : getPending db = db.fetch isPending := by
  unfold getPending getByCriteria Table.fetch
  refine List.filter_congr fun t _ => ?_
  simp [optEq, isPending]

theorem mem_getPending {db : Table Trip} {t : Trip} :
    t ∈ getPending db ↔ t ∈ db.rows ∧ t.isPending = true := by
  rw [getPending_eq, Table.mem_fetch]

/-- Ten minutes, in milliseconds. -/
def tenMinutes : Int := 600000

/-- The trip is accepted and its eta lies more than ten minutes before `now`; a row
without eta is not selected (the comparison with `null` is not true). -/
def isOverdue (now : Int) (t : Trip) : Bool :=
  t.rideState == RideStateType.vehicleAccepted.id &&
    match t.eta with
    | none => false
    | some eta => eta < now - tenMinutes

/-- The accepted trips whose vehicle is overdue (`Trip.scala:308–319`). -/
def getVehicleOverdue (db : Table Trip) (now : Int) : List Trip :=
  db.fetch (isOverdue now)

/-- The live trips of a vehicle (`Trip.scala:327–339`). -/
def getOccupiedTripsByVehicle (db : Table Trip) (vehicleId : Int) : List Trip :=
  db.fetch fun t => t.vehicleId == vehicleId && t.isLive

/-! ## Writes -/

/-- The row `Trip.create` inserts (`Trip.scala:192–201`). -/
def booked (userId routeId reservationType pickupStop dropoffStop seats scheduleId now : Int) :
    Trip where
  userId := userId
  routeId := routeId
  reservationType := reservationType
  pickupStop := pickupStop
  dropoffStop := dropoffStop
  rideState := RideStateType.initial.id
  seats := seats
  scheduleId := scheduleId
  reservationTime := now
  createdAt := some now
  updatedAt := some now

/-- `Trip.create`, run without interruption (`Trip.scala:184–209`). -/
def create (db : Table Trip)
    (userId routeId reservationType pickupStop dropoffStop seats scheduleId now : Int) :
    Except Failure (Table Trip × Trip) :=
  match getExisting db userId with
  | some _ => .error .alreadyHaveTrip
  | none =>
    .ok (upsert db
      (booked userId routeId reservationType pickupStop dropoffStop seats scheduleId now) now)

/-- `Trip.updateState`, run without interruption (`Trip.scala:211–224`). `publishes`
says whether the map sent to the trip's channel can be built: if not, the
exception rolls the update back. -/
def updateState (publishes : Trip → Bool) (db : Table Trip) (tripId state : Int) :
    Except Failure (Table Trip × Trip) :=
  match db.get tripId with
  | none => .error .noTrip
  | some t =>
    -- no transition is refused, and the caller is not known here
    let t' := t.withState state
    if publishes t' then .ok (db.update t', t') else .error .publish

end Trip

end Maiden
