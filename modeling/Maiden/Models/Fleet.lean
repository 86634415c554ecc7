import Maiden.Models.Route

/-!
# The fleet (`data/models/Vehicle.scala`, `Schedule.scala`)

The tables that dispatch reads and never writes: stops, vehicles and schedules,
collected in a `World` together with the Unicode tables of the platform.
-/

namespace Maiden

/-- A row of the Vehicles table: the columns that dispatch reads. -/
structure Vehicle where
  id : Int := 0
  driverId : Int := 0
  routeId : Int := 0
  maximumOccupancy : Int := 0
  active : Bool := false
deriving DecidableEq

instance : Keyed Vehicle where
  key v := v.id
  withKey v k := { v with id := k }
  key_withKey _ _ := rfl

/-- A row of the Schedules table (`Schedule.scala:11–18`): `stopTime` is a text such as
`7:05`, and Sunday is day 0. -/
structure Schedule where
  id : Int := 0
  routeId : Int := 0
  stopId : Int := 0
  dayOfWeek : Int := 0
  stopTime : JString := []
  masterScheduleId : JString := []
  createdAt : Option Int := none
  updatedAt : Option Int := none
deriving DecidableEq

instance : Stamped Schedule where
  key s := s.id
  withKey s k := { s with id := k }
  key_withKey _ _ := rfl
  createdAt s := s.createdAt
  stamp s c m := { s with createdAt := some c, updatedAt := some m }
  key_stamp _ _ _ := rfl

/-- Everything dispatch reads besides the trips. -/
structure World where
  unicode : Unicode
  stops : Table Stop
  vehicles : Table Vehicle
  schedules : Table Schedule

namespace Vehicle

/-- The active vehicles of a route (`Vehicle.scala:105–109`). -/
def getForRouteRaw (vehicles : Table Vehicle) (routeId : Int) : List Vehicle :=
  vehicles.fetch fun v => v.routeId == routeId && v.active == true

theorem mem_getForRouteRaw {vehicles : Table Vehicle} {routeId : Int} {v : Vehicle} :
    v ∈ getForRouteRaw vehicles routeId ↔
      v ∈ vehicles.rows ∧ v.routeId = routeId ∧ v.active = true := by
  rw [getForRouteRaw, Table.mem_fetch, Bool.and_eq_true, beq_iff_eq, beq_iff_eq]

/-- A route has each vehicle once. -/
theorem nodup_getForRouteRaw (vehicles : Table Vehicle) (routeId : Int) :
    (getForRouteRaw vehicles routeId).Nodup :=
  vehicles.nodup_fetch _

end Vehicle

end Maiden
