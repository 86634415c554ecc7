import Maiden.Base.Decimal
import Maiden.Base.Loop
import Maiden.Models.Eta

/-!
# Position reports (`data/models/Location.scala`)

A driver's app reports its position again and again. `GpsLocation.create`
(`Location.scala:48–107`) stores the report and, for each trip that the driver is on the way
to, asks the routing service for the time to the pickup and publishes it on the trip's
channel. The stored rows are read back through `getCurrentForUser`, which is what an `Env`
answers; the report itself, which goes to the channels of the vehicle and the route, is left
out.

The columns of the coordinates have five decimals. The object in memory has as many as the app
has sent, and it is this object that the notices are computed from.

What goes to the routing service is kept in an `EtaRequest`, here and for
`Trip.getDriverEta`, whose request is the one of `onDemandEta_eq`. Nothing reads the stops
in it but the theorems.
-/

namespace Maiden

open Loop

/-- A question to `Osrm.getRouteAndEta`, with the stops that the points belong to. -/
structure EtaRequest where
  start : Position
  stops : List Stop
  points : List Position
deriving DecidableEq

/-- The question that `getDriverEta` asks for an on-demand trip (`Trip.scala:103–113`). -/
def Trip.etaRequest (w : World) (env : Env) (t : Trip) : Except Failure EtaRequest := do
  let routeStops := Route.getStops w.stops t.routeId
  let vLoc ← getOr (env.getCurrentForUser t.driverId) .gps
  let closest ← getOr (env.getClosestStop vLoc) .stop
  let c ← getOr (w.stops.get closest) .stop
  let pickup ← getOr (w.stops.get t.pickupStop) .stop
  let betweenLocs ← stopLocs env (getInBetweenStops routeStops c pickup)
  .ok ⟨vLoc, getInBetweenStops routeStops c pickup, betweenLocs⟩

/-- `getDriverEta` asks this question and adds the answer to the clock. -/
theorem onDemandEta_eq (w : World) (env : Env) (t : Trip) :
    onDemandEta w env t = (Trip.etaRequest w env t >>= fun r =>
      getOr (env.getRouteAndEta r.start r.points) .osrm >>= fun o =>
        .ok (DateTime.plusSeconds env.now o.1)) := by
  unfold onDemandEta Trip.etaRequest
  simp only [bind_assoc]
  rfl

/-- The trips that a driver is on the way to (`Trip.scala:158–172`). -/
def Trip.getPendingForDriver (trips : Table Trip) (driverId : Int) : List Trip :=
  trips.fetch fun t => t.driverId == driverId &&
    [RideStateType.vehicleAccepted.id, RideStateType.vehicleOnWay.id].contains t.rideState

/-- `Vehicle.scala:99–103`. -/
def Vehicle.getForUser (vehicles : Table Vehicle) (userId : Int) : Option Vehicle :=
  vehicles.fetchOne fun v => v.driverId == userId

/-- A row of the GpsLocations table. -/
structure GpsLocation where
  userId : Int
  routeId : Int
  position : Position

/-- What the columns keep of a point (`20151219104117_CreateLocation.scala`). A `Float` goes to the
database as the decimal number that `Float.toString` prints. -/
def Position.kept (p : Position) : Position :=
  ⟨Decimal.round 5 p.latitude, Decimal.round 5 p.longitude⟩

/-- The coordinates have no more decimals than their columns. -/
def Position.FiveDecimals (p : Position) : Prop := ∃ m n : ℤ, p = ⟨m / 10 ^ 5, n / 10 ^ 5⟩

theorem Position.kept_of_fiveDecimals {p : Position} (h : p.FiveDecimals) : p.kept = p := by
  obtain ⟨m, n, rfl⟩ := h
  rw [Position.kept, Decimal.round_of_decimals, Decimal.round_of_decimals]

/-- What is published on the channel of a trip. -/
structure EtaNotice where
  tripId : Int
  vehicleId : Int
  eta : Int
  coords : GpsLocation

namespace GpsLocation

/-- The database takes the coordinates. -/
def fits (gps : GpsLocation) : Bool :=
  Decimal.fits 9 5 gps.position.latitude && Decimal.fits 9 5 gps.position.longitude

-- the columns that the query behind `getClosestStop` computes from the geometry
variable (latLng : Stop → Position)

/-- The question for a pending trip, with the seconds that are added to the answer for the
stops on the way (`Location.scala:66–99`). -/
def etaRequest (w : World) (env : Env) (gps : GpsLocation) (t : Trip) :
    Except Failure (EtaRequest × Int) := do
  let routeStops := Route.getStops w.stops t.routeId
  let closest ← getOr (env.getClosestStop gps.position) .stop
  let pickup ← getOr (w.stops.get t.pickupStop) .stop
  if closest = pickup.id then
    .ok (⟨gps.position, [pickup], [latLng pickup]⟩, 0)
  else
    let c ← getOr (w.stops.get closest) .stop
    let betweenLocs ← stopLocs env (getInBetweenStops routeStops c pickup)
    .ok (⟨gps.position, getInBetweenStops routeStops c pickup, betweenLocs⟩,
      int32 (betweenLocs.length * 120))

/-- The body of the loop over the pending trips. -/
def notify (w : World) (env : Env) (gps : GpsLocation) (t : Trip) : Except Failure EtaNotice := do
  let (r, allowance) ← etaRequest latLng w env gps t
  let o ← getOr (env.getRouteAndEta r.start r.points) .osrm
  .ok { tripId := t.id, vehicleId := t.vehicleId, eta := int32 (o.1 + allowance), coords := gps }

/-- The trips that are told: those that the driver of a vehicle is on the way to
(`Location.scala:59–64`). -/
def concerns (w : World) (trips : Table Trip) (gps : GpsLocation) : List Trip :=
  match Vehicle.getForUser w.vehicles gps.userId with
  | some _ => Trip.getPendingForDriver trips gps.userId
  | none => []

/-- `Location.scala:48–107`: the notices that were sent, and how the call ended. Those before
an exception have been sent; a report that the database refuses is not told to anybody. -/
def create (w : World) (trips : Table Trip) (env : Env) (gps : GpsLocation) :
    List EtaNotice × Ending Failure :=
  if gps.fits then
    forEach (fun sent t =>
      match notify latLng w env gps t with
      | .ok notice => (sent ++ [notice], .returned)
      | .error e => (sent, .threw e)) [] (concerns w trips gps)
  else ([], .threw .rejected)

end GpsLocation

/-! ## The stored reports -/

/-- A row of the GpsLocations table (`Location.scala:16–23`). -/
structure GpsRow where
  id : Int := 0
  location : GpsLocation
  createdAt : Int
  updatedAt : Int

instance : Stamped GpsRow where
  key r := r.id
  withKey r k := { r with id := k }
  key_withKey _ _ := rfl
  createdAt r := some r.createdAt
  stamp r c m := { r with createdAt := c, updatedAt := m }
  key_stamp _ _ _ := rfl

/-- What `orderBy(createdAt.desc)` does to a list. Between rows of one time the database
decides. -/
structure NewestFirst where
  sort : List GpsRow → List GpsRow
  perm : ∀ rows, (sort rows).Perm rows
  sorted : ∀ rows, (sort rows).Pairwise fun r r' => r'.createdAt ≤ r.createdAt

namespace GpsLocation

/-- `Location.scala:35–42`. -/
def getForUser (o : NewestFirst) (db : Table GpsRow) (userId : Int) (limit : Nat) : List GpsRow :=
  (o.sort (db.fetch fun r => r.location.userId == userId)).take limit

/-- `Location.scala:44–47`. -/
def getCurrentForUser (o : NewestFirst) (db : Table GpsRow) (userId : Int) : Option GpsRow :=
  match getForUser o db userId 1 with
  | row :: _ => some row
  | [] => none

/-- The object that `create` makes, at the time `made`, and its upsert (`Location.scala:49–56`),
for a report that the database takes. -/
def store (db : Table GpsRow) (gps : GpsLocation) (made now : Int) : Table GpsRow :=
  (upsert db
    { location := { gps with position := gps.position.kept }, createdAt := made,
      updatedAt := made } now).1

end GpsLocation

end Maiden
