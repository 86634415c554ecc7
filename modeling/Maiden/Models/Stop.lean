import Maiden.Base.Decimal
import Maiden.Base.FirstMin
import Maiden.Base.Varchar
import Maiden.Common.Exceptions
import Maiden.Models.Route

/-!
# Stops (`data/models/Stop.scala`)

`Stop.create` (`Stop.scala:73–118`) puts a new stop on a route. Without a requested
order the stop is numbered by the *count* of the stops; with one, all stops from that
order on are pushed up by one and the requested order is taken as it is, whatever the
others are. Then the bearings of the whole route are computed again, which writes every
stop once more.

Each write is a transaction of its own. The query behind `rawGetStops` is run each time
its result is used; nothing is written in between, so that it is read once here. The database
may refuse the row of the new stop (`StopArgs.fits`); the others have been pushed by then. It
cannot refuse any other write: those change an order, or a bearing, which is below 360 and has a
short name (`fits_bearing`).

What the code takes from the geometry library is a parameter, `Geo`. Decoding may throw,
and then the bearings before it have been written. `rows_generateBearings` says what
becomes of each row, however the loop ends: it is the same stop, with another bearing or
not (`reborn_eq`). A bearing is computed as a `Double`, made a `Float` and kept with five
decimals (`Geo.column`).
-/

namespace Maiden

/-- The result of `Geo.bearing` (`Geometry.scala:12–28`): degrees and the name of a direction. -/
structure Bearing where
  degrees : ℚ
  name : JString
  degrees_range : 0 ≤ degrees ∧ degrees < 360 := by decide
  name_fits : Varchar.fits 5 name = true := by decide

/-- What `Stop.create` takes from `common/Geometry.scala`, and `Double.toFloat`. A `Float` is the
decimal number that `Float.toString` prints, which is how it goes to the database. -/
structure Geo where
  latLngToWKB : List ℚ → JString
  latLngFromWKB : JString → Option Position
  bearing : Position → Position → Bearing
  toFloat : ℚ → ℚ
  toFloat_range : ∀ x, 0 ≤ x → x < 360 → 0 ≤ toFloat x ∧ toFloat x ≤ 360

/-- Degrees that a `Float` holds as they are. -/
theorem degrees_le (x : ℚ) (hlo : 0 ≤ x) (hhi : x < 360) : 0 ≤ x ∧ x ≤ 360 := ⟨hlo, hhi.le⟩

/-- What the column `bearing`, a `decimal(9, 5)`, keeps of a bearing (`Stop.scala:158`). -/
def Geo.column (geo : Geo) (b : Bearing) : ℚ := Decimal.round 5 (geo.toFloat b.degrees)

/-- The two columns take every bearing. -/
theorem fits_bearing (geo : Geo) (b : Bearing) :
    Decimal.fits 9 5 (geo.toFloat b.degrees) = true ∧ Varchar.fits 5 b.name = true := by
  obtain ⟨hlo, hhi⟩ := geo.toFloat_range b.degrees b.degrees_range.1 b.degrees_range.2
  exact ⟨Decimal.fits_of_le (n := 360) hlo (by exact_mod_cast hhi) (by decide), b.name_fits⟩

/-- The arguments of `Stop.create`, with the time of the call. The order is a Scala
`Int`. -/
structure StopArgs where
  routeId : Int
  stopOrder : Int := 0
  name : JString := []
  address : JString := []
  details : JString := []
  description : JString := []
  thumbnail : JString := []
  geom : List ℚ := []
  active : Bool := true
  bearing : ℚ := 0
  markerType : JString := js ['g', 'l', 'a', 's', 's']
  showMarker : Bool := true
  closeBy : JString := []
  now : Int := 0
  stopOrder_range : -2 ^ 31 ≤ stopOrder ∧ stopOrder < 2 ^ 31 := by decide

/-- The columns take the row of the new stop (`CreateStop`, `AddExtraToStop`, `AddBearingToStop`,
`AddCloseByToStop`). -/
def StopArgs.fits (a : StopArgs) : Bool :=
  Varchar.accepts 100 a.name && Varchar.accepts 255 a.address &&
    Varchar.accepts 1024 a.description && Varchar.accepts 1024 a.details &&
    Varchar.accepts 1024 a.thumbnail && Varchar.acceptsAny a.markerType &&
    Varchar.accepts 1024 a.closeBy && Decimal.fits 9 5 a.bearing

namespace Stop

/-- The stop with its place in the order moved up by one. -/
def pushedUp (s : Stop) : Stop := { s with stopOrder := int32 (s.stopOrder + 1) }

/-- The stop with its bearing towards the next one, as it is stored. -/
def withBearing (geo : Geo) (s : Stop) (b : Bearing) : Stop :=
  { s with bearing := geo.column b, bearingName := b.name }

/-- The loop of `generateBearings`, over each stop and the one after it. -/
def writeBearings (geo : Geo) (now : Int) :
    Table Stop → List (Stop × Stop) → Table Stop × Except Failure Unit
  | stops, [] => (stops, .ok ())
  | stops, (s, after) :: rest =>
    match geo.latLngFromWKB s.geom, geo.latLngFromWKB after.geom with
    | some p, some q =>
      writeBearings geo now (upsert stops (withBearing geo s (geo.bearing p q)) now).1 rest
    | _, _ => (stops, .error .geometry)

/-- `Stop.scala:139–165`. The first stop comes again after the last one. -/
def generateBearings (geo : Geo) (stops : Table Stop) (routeId now : Int) :
    Table Stop × Except Failure Unit :=
  let routeStops := Route.getStops stops routeId
  writeBearings geo now stops (routeStops.zip (routeStops.tail ++ routeStops.take 1))

/-- The order the new stop gets: the requested one, or the number of stops plus one. -/
def realStopOrder (stops : Table Stop) (a : StopArgs) : Int :=
  if a.stopOrder = 0 then int32 ((Route.getStops stops a.routeId).length + 1) else a.stopOrder

/-- The row of the new stop. -/
def new (geo : Geo) (stops : Table Stop) (a : StopArgs) : Stop where
  routeId := a.routeId
  stopOrder := realStopOrder stops a
  name := a.name
  address := a.address
  details := a.details
  description := a.description
  thumbnail := a.thumbnail
  geom := geo.latLngToWKB a.geom
  active := a.active
  bearing := a.bearing
  markerType := a.markerType
  showMarker := a.showMarker
  closeBy := a.closeBy
  createdAt := some a.now
  updatedAt := some a.now

/-- What the columns keep of the row. -/
def kept (s : Stop) : Stop :=
  { s with
    name := Varchar.kept 100 s.name
    address := Varchar.kept 255 s.address
    description := Varchar.kept 1024 s.description
    details := Varchar.kept 1024 s.details
    thumbnail := Varchar.kept 1024 s.thumbnail
    markerType := Varchar.sent s.markerType
    closeBy := Varchar.kept 1024 s.closeBy
    bearing := Decimal.round 5 s.bearing }

/-- The table once room is made for the new stop. -/
def makeRoom (stops : Table Stop) (a : StopArgs) : Table Stop :=
  if a.stopOrder = 0 then stops
  else
    let later :=
      (Route.getStops stops a.routeId).filter fun s => realStopOrder stops a ≤ s.stopOrder
    upsertAll stops (later.map pushedUp) a.now

/-- The table once the new stop is stored. -/
def inserted (geo : Geo) (stops : Table Stop) (a : StopArgs) : Table Stop :=
  (upsert (makeRoom stops a) (Stop.new geo stops a).kept a.now).1

/-- `Stop.scala:73–118`. The stop that is returned is the object, not the row. -/
def create (geo : Geo) (stops : Table Stop) (a : StopArgs) : Table Stop × Except Failure Stop :=
  if a.fits then
    match generateBearings geo (inserted geo stops a) a.routeId a.now with
    | (stops', .ok ()) => (stops', .ok (upsert (makeRoom stops a) (Stop.new geo stops a) a.now).2)
    | (stops', .error e) => (stops', .error e)
  else
    -- each push was a transaction of its own, so they stay when the insert is refused
    (makeRoom stops a, .error .rejected)

/-- The stop with the stops where a ride from it can end (`Stop.scala:219–232`). -/
def getStop (stops : Table Stop) (routeId stopId : Int) : Except Failure (Stop × List Stop) :=
  match stops.fetch fun s => s.routeId == routeId && s.id == stopId with
  | [s] => .ok (s, Route.stopsBetween stops s s)
  | _ => .error .stop

/-- All stops, of whatever route, by their order (`Stop.scala:167–217`, `236`). -/
def getAll (stops : Table Stop) : List Stop :=
  stops.rows.insertionSort fun s s' => s.stopOrder ≤ s'.stopOrder

/-- `Stop.scala:238–247`, given the first row of the distance table, which begins with the
position itself; `none` when it throws. -/
def getClosestStop (stops : Table Stop) (row : List Nat) : Option Stop :=
  match firstMin (row.filter fun x => x != 0) with
  | none => none
  | some (_, index) => (getAll stops)[index]?

/-! ## What the loop writes -/

/-- The row that the loop writes for a stop and the one after it. -/
def turned (geo : Geo) (x : Stop × Stop) : Option Stop :=
  match geo.latLngFromWKB x.1.geom, geo.latLngFromWKB x.2.geom with
  | some p, some q => some (withBearing geo x.1 (geo.bearing p q))
  | _, _ => none

/-- The rows that the loop writes: it ends at the first position that cannot be decoded. -/
def turnedAll (geo : Geo) : List (Stop × Stop) → List Stop
  | [] => []
  | x :: rest =>
    match turned geo x with
    | some s => s :: turnedAll geo rest
    | none => []

section

variable {geo : Geo}

theorem turned_eq_some {x : Stop × Stop} {s : Stop} (h : turned geo x = some s) :
    ∃ p q, geo.latLngFromWKB x.1.geom = some p ∧ geo.latLngFromWKB x.2.geom = some q ∧
      s = withBearing geo x.1 (geo.bearing p q) := by
  unfold turned at h
  split at h
  · next p q hp hq => exact ⟨p, q, hp, hq, (Option.some.inj h).symm⟩
  · cases h

/-- The loop is a sequence of upserts. -/
theorem writeBearings_eq (geo : Geo) (now : Int) {pairs : List (Stop × Stop)} :
    ∀ {stops : Table Stop}, (writeBearings geo now stops pairs).1 =
      upsertAll stops (turnedAll geo pairs) now := by
  induction pairs with
  | nil => exact rfl
  | cons x pairs ih =>
    intro stops
    rw [writeBearings, turnedAll, turned]
    cases geo.latLngFromWKB x.1.geom with
    | none => rfl
    | some p =>
      cases geo.latLngFromWKB x.2.geom with
      | none => rfl
      | some q => exact ih

/-- It returns if all positions can be decoded, and then every stop is written. -/
theorem writeBearings_ok {now : Int} {pairs : List (Stop × Stop)} :
    ∀ {stops : Table Stop}, (writeBearings geo now stops pairs).2 = .ok () ↔
      (turnedAll geo pairs).map some = pairs.map (turned geo) := by
  induction pairs with
  | nil => exact iff_of_true rfl rfl
  | cons x pairs ih =>
    intro stops
    rw [writeBearings, turnedAll, List.map_cons, turned]
    cases geo.latLngFromWKB x.1.geom with
    | none => exact iff_of_false (by simp) (by simp)
    | some p =>
      cases geo.latLngFromWKB x.2.geom with
      | none => exact iff_of_false (by simp) (by simp)
      | some q =>
        rw [List.map_cons, List.cons_inj_right]
        exact ih

/-- Each stop is written at most once, and in the order of the loop. -/
theorem map_id_turnedAll (geo : Geo) (pairs : List (Stop × Stop)) :
    (turnedAll geo pairs).map Stop.id <+: pairs.map fun x => x.1.id := by
  induction pairs with
  | nil => exact List.prefix_rfl
  | cons x pairs ih =>
    rw [turnedAll]
    cases hx : turned geo x with
    | none => exact List.nil_prefix
    | some s =>
      obtain ⟨p, q, -, -, rfl⟩ := turned_eq_some hx
      exact List.prefix_cons_inj _ |>.mpr ih

theorem mem_turnedAll {pairs : List (Stop × Stop)} {s : Stop} (h : s ∈ turnedAll geo pairs) :
    ∃ x ∈ pairs, turned geo x = some s := by
  induction pairs with
  | nil => cases h
  | cons x pairs ih =>
    rw [turnedAll] at h
    cases hx : turned geo x with
    | none =>
      rw [hx] at h
      cases h
    | some s' =>
      rw [hx] at h
      rcases List.mem_cons.mp h with rfl | h
      · exact ⟨x, List.mem_cons_self, hx⟩
      · obtain ⟨y, hy, hs⟩ := ih h
        exact ⟨y, List.mem_cons_of_mem x hy, hs⟩

end

section

variable (geo : Geo) (stops : Table Stop) (routeId now : Int)

/-- The rows that `generateBearings` writes. -/
def written : List Stop :=
  let routeStops := Route.getStops stops routeId
  turnedAll geo (routeStops.zip (routeStops.tail ++ routeStops.take 1))

/-- What becomes of a row in `generateBearings`. -/
def reborn (r : Stop) : Stop :=
  (((written geo stops routeId).find? fun s => Keyed.key s == Keyed.key r).map
    (stamped · now)).getD r

/-- The stops of the route are each paired with the next on the circuit. -/
theorem written_eq : written geo stops routeId =
    turnedAll geo ((Route.getStops stops routeId).map fun s =>
      (s, Cycle.next (Route.getStops stops routeId) s)) := by
  rw [← Cycle.zip_next (Route.nodup_getStops stops routeId)]
  rfl

variable {geo stops routeId}

theorem mem_written {s : Stop} (h : s ∈ written geo stops routeId) :
    ∃ r ∈ Route.getStops stops routeId, ∃ p q, geo.latLngFromWKB r.geom = some p ∧
      geo.latLngFromWKB (Cycle.next (Route.getStops stops routeId) r).geom = some q ∧
      s = withBearing geo r (geo.bearing p q) := by
  rw [written_eq] at h
  obtain ⟨x, hx, hs⟩ := mem_turnedAll h
  obtain ⟨r, hr, rfl⟩ := List.mem_map.mp hx
  exact ⟨r, hr, turned_eq_some hs⟩

theorem rows_generateBearings (geo : Geo) (stops : Table Stop) (routeId now : Int) :
    (generateBearings geo stops routeId now).1.rows =
      stops.rows.map (reborn geo stops routeId now) := by
  have hids : (written geo stops routeId).map Stop.id <+:
      (Route.getStops stops routeId).map Stop.id := by
    have h := map_id_turnedAll geo ((Route.getStops stops routeId).map fun s =>
      (s, Cycle.next (Route.getStops stops routeId) s))
    rwa [← written_eq, List.map_map] at h
  rw [generateBearings, writeBearings_eq]
  refine rows_upsertAll ((Route.nodup_ids stops routeId).sublist hids.sublist) (fun s hs => ?_) now
    stops
  obtain ⟨r, hr, p, q, -, -, rfl⟩ := mem_written hs
  show r.id ≠ 0
  exact Table.key_ne_zero_of_mem (Route.mem_getStops.mp hr).1

/-- A row that is written under the id of a stored one is that one with another bearing. -/
theorem withBearing_of_id {r s : Stop} (hr : r ∈ stops.rows)
    (hs : s ∈ written geo stops routeId) (hid : s.id = r.id) :
    r.routeId = routeId ∧ ∃ p q, geo.latLngFromWKB r.geom = some p ∧
      geo.latLngFromWKB (Cycle.next (Route.getStops stops routeId) r).geom = some q ∧
      s = withBearing geo r (geo.bearing p q) := by
  obtain ⟨r₀, hr₀, p, q, hp, hq, rfl⟩ := mem_written hs
  obtain ⟨hrow, hroute⟩ := Route.mem_getStops.mp hr₀
  obtain rfl : r₀ = r := Table.eq_of_key_eq hrow hr hid
  exact ⟨hroute, p, q, hp, hq, rfl⟩

variable (geo routeId) in
/-- **A row is kept, or written with another bearing**; the latter only on the route. No other
column of a stop is written by the loop, but for the time. -/
theorem reborn_eq {r : Stop} (hr : r ∈ stops.rows) :
    reborn geo stops routeId now r = r ∨
      (r.routeId = routeId ∧
        ∃ b, reborn geo stops routeId now r = stamped (withBearing geo r b) now) := by
  unfold reborn
  cases hf : (written geo stops routeId).find? fun s => Keyed.key s == Keyed.key r with
  | none => exact Or.inl rfl
  | some s =>
    have hid := List.find?_some hf
    obtain ⟨hroute, p, q, -, -, rfl⟩ :=
      withBearing_of_id hr (List.mem_of_find?_eq_some hf) (beq_iff_eq.mp hid)
    exact Or.inr ⟨hroute, _, rfl⟩

variable {now} in
/-- When the loop returns, every stop of the route has its bearing towards the next. -/
theorem reborn_of_ok (hok : (generateBearings geo stops routeId now).2 = .ok ()) {r : Stop}
    (hr : r ∈ Route.getStops stops routeId) :
    ∃ p q, geo.latLngFromWKB r.geom = some p ∧
      geo.latLngFromWKB (Cycle.next (Route.getStops stops routeId) r).geom = some q ∧
      reborn geo stops routeId now r = stamped (withBearing geo r (geo.bearing p q)) now := by
  have hrow := (Route.mem_getStops.mp hr).1
  -- the stop is among those that were written
  have hmem : ∃ s ∈ written geo stops routeId, s.id = r.id := by
    have hall := writeBearings_ok.mp hok
    rw [Cycle.zip_next (Route.nodup_getStops stops routeId), ← written_eq] at hall
    have hturned : turned geo (r, Cycle.next (Route.getStops stops routeId) r) ∈
        (written geo stops routeId).map some := by
      rw [hall, List.map_map]
      exact List.mem_map_of_mem hr
    obtain ⟨s, hs, hsome⟩ := List.mem_map.mp hturned
    obtain ⟨p, q, -, -, rfl⟩ := turned_eq_some hsome.symm
    exact ⟨_, hs, rfl⟩
  unfold reborn
  cases hf : (written geo stops routeId).find? fun s => Keyed.key s == Keyed.key r with
  | none =>
    obtain ⟨s, hs, hid⟩ := hmem
    exact absurd (beq_iff_eq.mpr hid) (List.find?_eq_none.mp hf s hs)
  | some s =>
    have hid := List.find?_some hf
    obtain ⟨-, p, q, hp, hq, rfl⟩ :=
      withBearing_of_id hrow (List.mem_of_find?_eq_some hf) (beq_iff_eq.mp hid)
    exact ⟨p, q, hp, hq, rfl⟩

end

end Stop

end Maiden
