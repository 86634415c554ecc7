import Maiden.Common.Calendar
import Maiden.Models.Availability

/-!
# Booking a vehicle (`Trip.scala:99–135`, `469–527`)

The last part of a match: `getBestVehicle` writes the chosen vehicle into the trip
object in memory, and `getInitialTripEtaAndRoute` adds the driver's eta and the
geometry of the ride. Both act on the object that the tick read at its start, not
on the stored row.

What they ask of the outside is collected in an `Env`: the clock, the drivers'
last positions, the answers of the routing service and the geometry codec. Each
answer may be missing (`none`), and then the code throws. Positions are carried
as the decimal numbers that the code's floats print; nothing here computes with them.
-/

namespace Maiden

/-- What one step of a thread sees outside the tables. -/
structure Env where
  /-- The clock, in milliseconds. -/
  now : Int
  /-- `GpsLocation.getCurrentForUser`. -/
  getCurrentForUser : Int → Option Position
  /-- The id of the stop that `Stop.getClosestStop` returns. -/
  getClosestStop : Position → Option Int
  /-- `Geo.latLngFromWKB`. -/
  latLngFromWKB : JString → Option Position
  /-- `Osrm.getRouteAndEta`: the eta in seconds and the geometry. -/
  getRouteAndEta : Position → List Position → Option (Int × List Position)
  /-- `Geo.latLngListToWKB`. -/
  latLngListToWKB : List Position → Option JString
  /-- Whether the map of a trip can be built, to be published or for the reply to a booking
  (and, when a match is saved, the notification after it sent). -/
  publishes : Trip → Bool

/-- The positions of a list of stops. -/
def stopLocs (env : Env) (stops : List Stop) : Except Failure (List Position) :=
  mapE (fun s => getOr (env.latLngFromWKB s.geom) .geometry) stops

/-- `stopTime.split(':')` with both parts read as numbers. Java's `split` drops
trailing empty parts, which could not be read anyway. -/
def hourAndMinute (U : Unicode) (stopTime : JString) : Option (Int × Int) :=
  match stopTime.splitOn (jc ':') with
  | h :: m :: _ =>
    match JString.toInt U h, JString.toInt U m with
    | some hour, some minute => some (hour, minute)
    | _, _ => none
  | _ => none

/-- `getDriverEta` of a scheduled trip (`Trip.scala:117–133`). -/
def scheduledEta (w : World) (now scheduleId : Int) : Except Failure Int := do
  let schedule ← getOr (w.schedules.get scheduleId) .schedule
  let (hour, minute) ← getOr (hourAndMinute w.unicode schedule.stopTime) .schedule
  -- any other day of the week counts as tomorrow
  let day := if DateTime.getDayOfWeek now = schedule.dayOfWeek then now
    else DateTime.plusDays now 1
  let t ← getOr (DateTime.withHourOfDay day hour) .schedule
  getOr (DateTime.withMinuteOfHour t minute) .schedule

/-- `getDriverEta` of an on-demand trip (`Trip.scala:101–115`). -/
def onDemandEta (w : World) (env : Env) (t : Trip) : Except Failure Int := do
  let routeStops := Route.getStops w.stops t.routeId
  let vLoc ← getOr (env.getCurrentForUser t.driverId) .gps
  let closest ← getOr (env.getClosestStop vLoc) .stop
  let c ← getOr (w.stops.get closest) .stop
  let pickup ← getOr (w.stops.get t.pickupStop) .stop
  let betweenLocs ← stopLocs env (getInBetweenStops routeStops c pickup)
  let o ← getOr (env.getRouteAndEta vLoc betweenLocs) .osrm
  .ok (DateTime.plusSeconds env.now o.1)

/-- `Trip.getDriverEta` (`Trip.scala:99–135`), as an instant. -/
def getDriverEta (w : World) (env : Env) (t : Trip) : Except Failure Int :=
  if t.scheduleId = 0 then onDemandEta w env t else scheduledEta w env.now t.scheduleId

/-- `TripMeta.getBestVehicle` (`Trip.scala:469–497`). With several vehicles left it
looks up positions and decides nothing ("THIS IS INCOMPLETE!"). -/
def getBestVehicle (env : Env) (pickup : Stop) (available : List Vehicle) (trip : Trip) :
    Except Failure Trip :=
  match available with
  | [] => .ok (trip.withState RideStateType.noAvailableVehicles.id)
  | [v] =>
    .ok { trip with
      driverId := v.driverId
      vehicleId := v.id
      rideState := RideStateType.vehicleAccepted.id }
  | _ => do
    -- a vehicle without position counts as being at the origin, so only the stop can throw
    let _ ← getOr (env.latLngFromWKB pickup.geom) .geometry
    .ok trip

/-- `TripMeta.getInitialTripEtaAndRoute` (`Trip.scala:499–527`). -/
def getInitialTripEtaAndRoute (w : World) (env : Env) (tm : TripMeta) (trip : Trip) :
    Except Failure (Option Trip) :=
  if trip.rideState = RideStateType.vehicleAccepted.id then do
    let vLoc ← getOr (env.getCurrentForUser trip.driverId) .gps
    let closest ← getOr (env.getClosestStop vLoc) .stop
    let c ← getOr (w.stops.get closest) .stop
    -- these positions are computed and not used
    let _ ← stopLocs env ([c] ++ getInBetweenStops tm.routeStops c tm.pickup ++ [tm.pickup])
    let eta ← getDriverEta w env trip
    let tripBetweenLocs ←
      stopLocs env (getInBetweenStops tm.routeStops tm.pickup tm.dropoff ++ [tm.dropoff])
    let pickupLoc ← getOr (env.latLngFromWKB tm.pickup.geom) .geometry
    let o2 ← getOr (env.getRouteAndEta pickupLoc tripBetweenLocs) .osrm
    let geom ← getOr (env.latLngListToWKB o2.2) .geometry
    .ok (some { trip with eta := some eta, geom := some geom })
  else .ok none

/-- What `getInitialTripEtaAndRoute` has computed for an accepted trip when it returns: an
eta and a geometry. -/
theorem getInitialTripEtaAndRoute_accepted {w : World} {env : Env} {tm : TripMeta} {trip : Trip}
    {result : Option Trip} (hstate : trip.rideState = RideStateType.vehicleAccepted.id)
    (h : getInitialTripEtaAndRoute w env tm trip = .ok result) :
    ∃ eta geom, getDriverEta w env trip = .ok eta ∧
      result = some { trip with eta := some eta, geom := some geom } := by
  rw [getInitialTripEtaAndRoute, if_pos hstate] at h
  -- each of these may throw, and none may be missing
  obtain ⟨vLoc, -, h⟩ := bind_eq_ok.mp h
  obtain ⟨closest, -, h⟩ := bind_eq_ok.mp h
  obtain ⟨c, -, h⟩ := bind_eq_ok.mp h
  obtain ⟨locs, -, h⟩ := bind_eq_ok.mp h
  obtain ⟨eta, heta, h⟩ := bind_eq_ok.mp h
  obtain ⟨tripLocs, -, h⟩ := bind_eq_ok.mp h
  obtain ⟨pickupLoc, -, h⟩ := bind_eq_ok.mp h
  obtain ⟨o2, -, h⟩ := bind_eq_ok.mp h
  obtain ⟨geom, -, h⟩ := bind_eq_ok.mp h
  exact ⟨eta, geom, heta, (Except.ok.inj h).symm⟩

/-- A trip that leaves `getInitialTripEtaAndRoute` is the accepted trip it was given,
with an eta and a geometry. -/
theorem getInitialTripEtaAndRoute_some {w : World} {env : Env} {tm : TripMeta}
    {trip trip' : Trip} (h : getInitialTripEtaAndRoute w env tm trip = .ok (some trip')) :
    trip.rideState = RideStateType.vehicleAccepted.id ∧
      ∃ eta geom, getDriverEta w env trip = .ok eta ∧
        trip' = { trip with eta := some eta, geom := some geom } := by
  by_cases hstate : trip.rideState = RideStateType.vehicleAccepted.id
  · obtain ⟨eta, geom, heta, heq⟩ := getInitialTripEtaAndRoute_accepted hstate h
    exact ⟨hstate, eta, geom, heta, Option.some.inj heq⟩
  · rw [getInitialTripEtaAndRoute, if_neg hstate] at h
    cases h

theorem getInitialTripEtaAndRoute_none {w : World} {env : Env} {tm : TripMeta} {trip : Trip}
    (h : getInitialTripEtaAndRoute w env tm trip = .ok none) :
    trip.rideState ≠ RideStateType.vehicleAccepted.id := by
  intro hstate
  obtain ⟨eta, geom, -, heq⟩ := getInitialTripEtaAndRoute_accepted hstate h
  cases heq

/-! ## What the lookups can throw -/

/-- The failures of the GPS, stop, routing and geometry lookups. -/
def lookupFailures : List Failure := [.gps, .stop, .osrm, .geometry]

/-- The schedule exists and its time is an hour and a minute of a day. -/
def scheduleReadable (w : World) (scheduleId : Int) : Bool :=
  match w.schedules.get scheduleId with
  | none => false
  | some schedule =>
    match hourAndMinute w.unicode schedule.stopTime with
    | none => false
    | some (hour, minute) => 0 ≤ hour && hour ≤ 23 && 0 ≤ minute && minute ≤ 59

/-- The eta on a row that can be read: its time today or tomorrow. -/
theorem scheduledEta_eq {w : World} {scheduleId hour minute : Int} {s : Schedule}
    (hs : w.schedules.get scheduleId = some s)
    (hread : hourAndMinute w.unicode s.stopTime = some (hour, minute))
    (hhour : 0 ≤ hour ∧ hour ≤ 23) (hminute : 0 ≤ minute ∧ minute ≤ 59) (now : Int) :
    scheduledEta w now scheduleId = .ok (DateTime.atTime
      (if DateTime.getDayOfWeek now = s.dayOfWeek then now else DateTime.plusDays now 1)
      hour minute) := by
  obtain ⟨t, hday, htime⟩ := DateTime.withTime hhour hminute
    (if DateTime.getDayOfWeek now = s.dayOfWeek then now else DateTime.plusDays now 1)
  unfold scheduledEta
  simp only [hs, hread, getOr, bind, Except.bind, hday, htime]

/-- A scheduled trip has an eta exactly when its schedule is readable. -/
theorem scheduledEta_ok_iff (w : World) (now scheduleId : Int) :
    (∃ eta, scheduledEta w now scheduleId = .ok eta) ↔ scheduleReadable w scheduleId = true := by
  unfold scheduleReadable
  cases hs : w.schedules.get scheduleId with
  | none => simp [scheduledEta, hs, getOr, bind, Except.bind]
  | some schedule =>
    cases hh : hourAndMinute w.unicode schedule.stopTime with
    | none => simp [scheduledEta, hs, getOr, bind, Except.bind, hh]
    | some hm =>
      obtain ⟨hour, minute⟩ := hm
      by_cases h1 : 0 ≤ hour ∧ hour ≤ 23
      · by_cases h2 : 0 ≤ minute ∧ minute ≤ 59
        · exact iff_of_true ⟨_, scheduledEta_eq hs hh h1 h2 now⟩ (by simp [hh, h1, h2])
        · simp [scheduledEta, hs, getOr, bind, Except.bind, hh, DateTime.withHourOfDay,
            DateTime.withMinuteOfHour, h1, h2]
      · simp [scheduledEta, hs, getOr, bind, Except.bind, hh, DateTime.withHourOfDay, h1]

theorem throws_stopLocs (env : Env) (stops : List Stop) :
    Throws lookupFailures (stopLocs env stops) :=
  throws_mapE fun _ _ => throws_getOr _ (by decide)

theorem throws_getDriverEta {w : World} (env : Env) {t : Trip}
    (h : t.scheduleId = 0 ∨ scheduleReadable w t.scheduleId = true) :
    Throws lookupFailures (getDriverEta w env t) := by
  unfold getDriverEta
  by_cases hid : t.scheduleId = 0
  · rw [if_pos hid]
    exact (throws_getOr _ (by decide)).bind fun _ _ => (throws_getOr _ (by decide)).bind fun _ _ =>
      (throws_getOr _ (by decide)).bind fun _ _ => (throws_getOr _ (by decide)).bind fun _ _ =>
      (throws_stopLocs env _).bind fun _ _ => (throws_getOr _ (by decide)).bind fun _ _ =>
      throws_ok _ _
  · rw [if_neg hid]
    obtain ⟨eta, heta⟩ := (scheduledEta_ok_iff w env.now t.scheduleId).mpr (h.resolve_left hid)
    rw [heta]
    exact throws_ok _ _

/-- With a readable schedule the eta and the route fail only on a lookup. -/
theorem throws_getInitialTripEtaAndRoute {w : World} (env : Env) (tm : TripMeta) {t : Trip}
    (h : t.scheduleId = 0 ∨ scheduleReadable w t.scheduleId = true) :
    Throws lookupFailures (getInitialTripEtaAndRoute w env tm t) := by
  unfold getInitialTripEtaAndRoute
  split
  · exact (throws_getOr _ (by decide)).bind fun _ _ => (throws_getOr _ (by decide)).bind fun _ _ =>
      (throws_getOr _ (by decide)).bind fun _ _ => (throws_stopLocs env _).bind fun _ _ =>
      (throws_getDriverEta env h).bind fun _ _ => (throws_stopLocs env _).bind fun _ _ =>
      (throws_getOr _ (by decide)).bind fun _ _ => (throws_getOr _ (by decide)).bind fun _ _ =>
      (throws_getOr _ (by decide)).bind fun _ _ => throws_ok _ _
  · exact throws_ok _ _

/-- An eta was found only if the schedule, if any, was readable. -/
theorem scheduleReadable_of_some {w : World} {env : Env} {tm : TripMeta} {t t' : Trip}
    (h : getInitialTripEtaAndRoute w env tm t = .ok (some t')) :
    t.scheduleId = 0 ∨ scheduleReadable w t.scheduleId = true := by
  obtain ⟨-, eta, geom, heta, -⟩ := getInitialTripEtaAndRoute_some h
  by_cases hid : t.scheduleId = 0
  · exact Or.inl hid
  · rw [getDriverEta, if_neg hid] at heta
    exact Or.inr ((scheduledEta_ok_iff w env.now t.scheduleId).mp ⟨eta, heta⟩)

/-! ## A small town

One route with three stops and a fleet of one's choice, in which every lookup answers:
the setting of the runs exhibited in the other modules. -/

namespace Town

/-- A point of the equator as well-known binary, by the first digits of its longitude. -/
def wkb (longitude : List Char) : JString :=
  js (List.replicate 9 '0' ++ ['1'] ++ longitude ++ List.replicate (32 - longitude.length) '0')

/-- One, two and three degrees east. -/
def points : List (JString × Position) :=
  [(wkb ['3', 'F', 'F'], ⟨0, 1⟩), (wkb ['4'], ⟨0, 2⟩), (wkb ['4', '0', '0', '8'], ⟨0, 3⟩)]

def stop (routeId stopOrder : Int) (longitude : List Char) : Stop :=
  { routeId, stopOrder, geom := wkb longitude }

/-- Three stops on a line. -/
def stops : Table Stop :=
  ((Table.empty.insert (stop 1 1 ['3', 'F', 'F'])).insert (stop 1 2 ['4'])).insert
    (stop 1 3 ['4', '0', '0', '8'])

/-- An active vehicle of the route. -/
def van (driverId maximumOccupancy : Int) : Vehicle :=
  { driverId, routeId := 1, maximumOccupancy, active := true }

def world (fleet : List Vehicle) : World where
  unicode := Unicode.ascii
  stops := stops
  vehicles := fleet.foldl Table.insert Table.empty
  schedules := Table.empty

/-- Every driver is a little behind the second stop, so that the third lies on the way back to
the first. The routing service refuses an empty list of destinations. -/
def env (now : Int) : Env where
  now := now
  getCurrentForUser := fun _ => some ⟨0, 21 / 10⟩
  getClosestStop := fun _ => some 2
  latLngFromWKB := fun geom => points.lookup geom
  getRouteAndEta := fun start destinations =>
    if destinations.isEmpty then none else some (60, start :: destinations)
  latLngListToWKB := fun _ => some []
  publishes := fun _ => true

end Town

end Maiden
