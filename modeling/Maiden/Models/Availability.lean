import Maiden.Models.Fleet
import Maiden.Models.Trip
import Mathlib.Algebra.BigOperators.Group.List.Basic
import Mathlib.Algebra.Order.BigOperators.Group.List
import Mathlib.Data.List.AList

/-!
# Seat availability (`Trip.scala:341–412`)

How dispatch decides which vehicles can take a trip. For each active vehicle of the
route it reads the vehicle's live trips and builds an occupancy table
(`buildOccupancyTable`): every stop of the route starts at the vehicle's maximum
occupancy, and each live trip takes `t.seats + seats` off every stop strictly
*between* its pickup and its dropoff, in 32-bit arithmetic. The tables are
collected in a map keyed by driver, and a vehicle is available when the table
under its driver is positive at every stop of the requested ride.

The two results other modules use:

- `buildOccupancyTable_lookup`: the table's entry at a stop is the fold
  `remaining` over the live trips, and `remaining_eq`: without overflow, that is
  the occupancy less the sum over the trips that ride *through* the stop;
- `available_singleton`: when exactly one vehicle comes out, the table that let it
  through is its own (a driver with two vehicles brings both out).
-/

namespace Maiden

/-- `MMap[Long, Int]`: seats left, by stop id. -/
abbrev OccupancyTable := AList fun _ : Int => Int

/-- `stops.filter(_.id == stopId).head`. -/
def stopById (stops : List Stop) (stopId : Int) : Except Failure Stop :=
  getOr (stops.find? fun s => s.id == stopId) .stop

theorem stopById_eq_ok {stops : List Stop} {stopId : Int} {s : Stop}
    (h : stopById stops stopId = .ok s) : s ∈ stops ∧ s.id = stopId := by
  have hfind := getOr_eq_ok.mp h
  exact ⟨List.mem_of_find?_eq_some hfind, by simpa using List.find?_some hfind⟩

/-- `table(s.id) = table(s.id) - taken`. -/
def takeSeats (taken : Int) (table : OccupancyTable) (s : Stop) :
    Except Failure OccupancyTable := do
  let n ← getOr (table.lookup s.id) .stop
  .ok (table.insert s.id (int32 (n - taken)))

/-- The seats one live trip takes off the table. -/
def occupyRide (stops : List Stop) (seats : Int) (table : OccupancyTable) (t : Trip) :
    Except Failure OccupancyTable := do
  let pickup ← stopById stops t.pickupStop
  let dropoff ← stopById stops t.dropoffStop
  (getInBetweenStops stops pickup dropoff).foldlM (takeSeats (int32 (t.seats + seats))) table

/-- `Trip.scala:341–352`. -/
def buildOccupancyTable (stops : List Stop) (trips : List Trip) (occupancy seats : Int) :
    Except Failure OccupancyTable :=
  trips.foldlM (occupyRide stops seats) (stops.foldl (fun tb s => tb.insert s.id occupancy) ∅)

/-! ## What the table holds -/

/-- The ride of `t` passes strictly through stop `s`. -/
def ridesThrough (stops : List Stop) (t : Trip) (s : Stop) : Bool :=
  match stopById stops t.pickupStop, stopById stops t.dropoffStop with
  | .ok pickup, .ok dropoff => (getInBetweenStops stops pickup dropoff).contains s
  | _, _ => false

/-- The seats left at `s` after the live trips, out of `n`. -/
def remaining (stops : List Stop) (seats : Int) (s : Stop) (n : Int) (trips : List Trip) : Int :=
  trips.foldl
    (fun n t => if ridesThrough stops t s then int32 (n - int32 (t.seats + seats)) else n) n

/-- The exact number of seats the live trips take off at `s`. -/
def takenAt (stops : List Stop) (seats : Int) (s : Stop) (trips : List Trip) : Int :=
  ((trips.filter fun t => ridesThrough stops t s).map fun t => t.seats + seats).sum

/-- Seats are taken at one stop, and a stop that is not in the table stays out of it. -/
theorem takeSeats_lookup {taken : Int} {table table' : OccupancyTable} {s : Stop}
    (h : takeSeats taken table s = .ok table') (k : Int) :
    table'.lookup k =
      if k = s.id then (table.lookup k).map fun n => int32 (n - taken) else table.lookup k := by
  obtain ⟨n, hn, hres⟩ := bind_eq_ok.mp h
  have hlook := getOr_eq_ok.mp hn
  cases hres
  by_cases hk : k = s.id
  · subst hk
    rw [if_pos rfl, AList.lookup_insert, hlook]
    rfl
  · rw [if_neg hk, AList.lookup_insert_ne hk]

/-- Taking seats off a list of different stops changes exactly those stops. -/
theorem foldlM_takeSeats_lookup {taken : Int} {bs : List Stop} {table table' : OccupancyTable}
    (hnodup : (bs.map Stop.id).Nodup) (h : bs.foldlM (takeSeats taken) table = .ok table')
    (k : Int) :
    table'.lookup k =
      if k ∈ bs.map Stop.id then (table.lookup k).map fun n => int32 (n - taken)
      else table.lookup k := by
  induction bs generalizing table with
  | nil =>
    cases h
    rw [if_neg (by simp)]
  | cons b bs ih =>
    rw [List.foldlM_cons] at h
    obtain ⟨mid, hmid, hrest⟩ := bind_eq_ok.mp h
    rw [List.map_cons, List.nodup_cons] at hnodup
    rw [ih hnodup.2 hrest, takeSeats_lookup hmid k, List.map_cons]
    by_cases hk : k = b.id
    · -- `b` is charged now, and not again among the others
      subst hk
      rw [if_neg hnodup.1, if_pos rfl, if_pos List.mem_cons_self]
    · rw [if_neg hk]
      by_cases hmem : k ∈ bs.map Stop.id
      · rw [if_pos hmem, if_pos (List.mem_cons_of_mem _ hmem)]
      · rw [if_neg hmem, if_neg (by simp [hk, hmem])]

/-- Every stop of the route starts at the vehicle's maximum occupancy. -/
theorem initial_lookup {stops : List Stop} {occupancy : Int} {s : Stop} (hs : s ∈ stops) :
    (stops.foldl (fun tb s => tb.insert s.id occupancy) (∅ : OccupancyTable)).lookup s.id
      = some occupancy := by
  -- generalised over the table so far: the stop is still to come or already there
  have key : ∀ (xs : List Stop) (tb : OccupancyTable),
      s ∈ xs ∨ tb.lookup s.id = some occupancy →
      (xs.foldl (fun tb s => tb.insert s.id occupancy) tb).lookup s.id = some occupancy := by
    intro xs
    induction xs with
    | nil =>
      rintro tb (hmem | hlook)
      · exact nomatch hmem
      · exact hlook
    | cons x xs ih =>
      intro tb hor
      refine ih _ ?_
      by_cases hx : s.id = x.id
      · right
        rw [hx, AList.lookup_insert]
      · rcases hor with hmem | hlook
        · rcases List.mem_cons.mp hmem with rfl | hmem
          · exact absurd rfl hx
          · exact Or.inl hmem
        · right
          rw [AList.lookup_insert_ne hx, hlook]
  exact key stops ∅ (Or.inl hs)

section Circuit

variable {stops : List Stop} (hids : (stops.map Stop.id).Nodup)

include hids

/-- A ride passes no stop twice. -/
theorem nodup_getInBetweenStops (pickup dropoff : Stop) :
    ((getInBetweenStops stops pickup dropoff).map Stop.id).Nodup := by
  have hkeep : ∀ p : Stop → Bool, ((stops.filter p).map Stop.id).Nodup := fun p =>
    hids.sublist (List.filter_sublist.map Stop.id)
  have hsort : ∀ p : Stop → Bool,
      (((stops.filter p).insertionSort fun s s' => s.stopOrder ≤ s'.stopOrder).map
        Stop.id).Nodup := fun p =>
    ((List.perm_insertionSort _ _).map Stop.id).nodup_iff.mpr (hkeep p)
  unfold getInBetweenStops
  split
  · exact List.nodup_nil
  · split
    · exact hkeep _
    · -- over the end of the route: no stop is both after the pickup and before the dropoff
      rename_i hne hnlt
      rw [List.map_append]
      refine List.nodup_append.mpr ⟨hsort _, hsort _, ?_⟩
      intro k hk k' hk' heq
      obtain ⟨s, hs, rfl⟩ := List.mem_map.mp hk
      obtain ⟨s', hs', rfl⟩ := List.mem_map.mp hk'
      rw [List.mem_insertionSort, List.mem_filter, decide_eq_true_iff] at hs hs'
      have hss : s = s' := List.inj_on_of_nodup_map hids hs.1 hs'.1 heq
      subst hss
      omega

/-- A ride takes its own seats and those asked for at every stop it goes through. -/
theorem occupyRide_lookup {seats : Int} {table table' : OccupancyTable} {t : Trip}
    (h : occupyRide stops seats table t = .ok table') {s : Stop} (hs : s ∈ stops) :
    table'.lookup s.id = (table.lookup s.id).map fun n =>
      if ridesThrough stops t s then int32 (n - int32 (t.seats + seats)) else n := by
  obtain ⟨pickup, hp, h⟩ := bind_eq_ok.mp h
  obtain ⟨dropoff, hd, h⟩ := bind_eq_ok.mp h
  have hmem : s.id ∈ (getInBetweenStops stops pickup dropoff).map Stop.id ↔
      ridesThrough stops t s = true := by
    unfold ridesThrough
    rw [hp, hd]
    show _ ↔ (getInBetweenStops stops pickup dropoff).contains s = true
    rw [List.contains_iff_mem, List.mem_map]
    constructor
    · rintro ⟨s', hs', heq⟩
      have hstops := (mem_getInBetweenStops_iff.mp hs').1
      rwa [← List.inj_on_of_nodup_map hids hstops hs heq]
    · exact fun hin => ⟨s, hin, rfl⟩
  rw [foldlM_takeSeats_lookup (nodup_getInBetweenStops hids pickup dropoff) h s.id]
  by_cases hr : ridesThrough stops t s = true
  · simp only [if_pos (hmem.mpr hr), if_pos hr]
  · simp only [if_neg (fun hin => hr (hmem.mp hin)), if_neg hr]
    exact Option.map_id'.symm ▸ rfl

/-- All rides of a vehicle, each at the stops it goes through. -/
theorem foldlM_occupyRide_lookup {seats : Int} {s : Stop} (hs : s ∈ stops) {trips : List Trip}
    {table table' : OccupancyTable}
    (h : trips.foldlM (occupyRide stops seats) table = .ok table') :
    table'.lookup s.id = (table.lookup s.id).map fun n => remaining stops seats s n trips := by
  induction trips generalizing table with
  | nil =>
    cases h
    exact Option.map_id'.symm ▸ rfl
  | cons t trips ih =>
    rw [List.foldlM_cons] at h
    obtain ⟨mid, hmid, hrest⟩ := bind_eq_ok.mp h
    rw [ih hrest, occupyRide_lookup hids hmid hs, Option.map_map]
    rfl

/-- **The occupancy table, stop by stop**: what is left of the occupancy after all rides that go
through the stop, in the order of the trips and in 32 bits. -/
theorem buildOccupancyTable_lookup {trips : List Trip} {occupancy seats : Int}
    {table : OccupancyTable} (h : buildOccupancyTable stops trips occupancy seats = .ok table)
    {s : Stop} (hs : s ∈ stops) :
    table.lookup s.id = some (remaining stops seats s occupancy trips) := by
  rw [foldlM_occupyRide_lookup hids hs h, initial_lookup hs]
  rfl

end Circuit

theorem remaining_cons (stops : List Stop) (seats : Int) (s : Stop) (n : Int) (t : Trip)
    (trips : List Trip) :
    remaining stops seats s n (t :: trips) = remaining stops seats s
      (if ridesThrough stops t s then int32 (n - int32 (t.seats + seats)) else n) trips := rfl

/-- The exact sum, one ride at a time; `remaining` is the same with 32-bit arithmetic. -/
theorem takenAt_cons (stops : List Stop) (seats : Int) (s : Stop) (t : Trip)
    (trips : List Trip) :
    takenAt stops seats s (t :: trips) =
      (if ridesThrough stops t s then t.seats + seats else 0) + takenAt stops seats s trips := by
  unfold takenAt
  by_cases h : ridesThrough stops t s = true
  · rw [List.filter_cons, if_pos h, List.map_cons, List.sum_cons, if_pos h]
  · rw [List.filter_cons, if_neg h, if_neg h, zero_add]

/-- The requested seats are counted once for each trip that rides through. -/
theorem takenAt_eq (stops : List Stop) (seats : Int) (s : Stop) (trips : List Trip) :
    takenAt stops seats s trips =
      ((trips.filter fun t => ridesThrough stops t s).map Trip.seats).sum +
        (trips.filter fun t => ridesThrough stops t s).length * seats := by
  unfold takenAt
  rw [List.sum_map_add, List.map_const', List.sum_replicate, nsmul_eq_mul]

theorem takenAt_nonneg (stops : List Stop) (s : Stop) {seats : Int} {trips : List Trip}
    (h : ∀ t ∈ trips, 0 ≤ t.seats + seats) : 0 ≤ takenAt stops seats s trips := by
  refine List.sum_nonneg fun x hx => ?_
  obtain ⟨t, ht, rfl⟩ := List.mem_map.mp hx
  exact h t (List.mem_filter.mp ht).1

/-- Without overflow, the seats left are the occupancy less what the trips riding
through the stop take. -/
theorem remaining_eq {stops : List Stop} {seats : Int} {s : Stop} {trips : List Trip} {n : Int}
    (hpos : ∀ t ∈ trips, 0 ≤ t.seats + seats) (hlt : takenAt stops seats s trips < 2 ^ 31)
    (hn : n < 2 ^ 31) (hlow : -2 ^ 31 ≤ n - takenAt stops seats s trips) :
    remaining stops seats s n trips = n - takenAt stops seats s trips := by
  induction trips generalizing n with
  | nil =>
    show n = n - (List.sum [])
    rw [List.sum_nil, sub_zero]
  | cons t trips ih =>
    have hhead := hpos t List.mem_cons_self
    have htail : ∀ t ∈ trips, 0 ≤ t.seats + seats := fun t' ht' =>
      hpos t' (List.mem_cons_of_mem t ht')
    -- nothing is negative, so every partial sum lies between `n` and the last one
    have hnonneg := takenAt_nonneg stops s htail
    rw [takenAt_cons] at hlt hlow
    rw [remaining_cons, takenAt_cons]
    by_cases hr : ridesThrough stops t s = true
    · rw [if_pos hr] at hlt hlow
      rw [if_pos hr, if_pos hr, int32_of_range (x := t.seats + seats) (by omega) (by omega),
        int32_of_range (by omega) (by omega)]
      rw [ih htail (by omega) (by omega) (by omega)]
      omega
    · rw [if_neg hr] at hlt hlow
      rw [if_neg hr, if_neg hr]
      rw [ih htail (by omega) hn (by omega)]
      omega

/-! ## Which vehicles are available -/

/-- What dispatch looks up once for a trip (`Trip.scala:455–466`). -/
structure TripMeta where
  routeStops : List Stop
  vehicles : List Vehicle
  pickup : Stop
  dropoff : Stop
  tripStopIds : List Int

/-- `new TripMeta(trip)`: it throws when one of the two stops does not exist. -/
def TripMeta.of (w : World) (trip : Trip) : Except Failure TripMeta := do
  let routeStops := Route.getStops w.stops trip.routeId
  let vehicles := Vehicle.getForRouteRaw w.vehicles trip.routeId
  let pickup ← getOr (w.stops.get trip.pickupStop) .stop
  let dropoff ← getOr (w.stops.get trip.dropoffStop) .stop
  .ok { routeStops, vehicles, pickup, dropoff
        tripStopIds := [pickup.id] ++ (getInBetweenStops routeStops pickup dropoff).map Stop.id
          ++ [dropoff.id] }

/-- What a trip needs to be matched: both stops, the stops of its route and the vehicles on it. -/
theorem TripMeta.of_eq_ok {w : World} {trip : Trip} {tm : TripMeta}
    (h : TripMeta.of w trip = .ok tm) :
    w.stops.get trip.pickupStop = some tm.pickup ∧
    w.stops.get trip.dropoffStop = some tm.dropoff ∧
    tm.routeStops = Route.getStops w.stops trip.routeId ∧
    tm.vehicles = Vehicle.getForRouteRaw w.vehicles trip.routeId ∧
    tm.tripStopIds = [tm.pickup.id] ++
      (getInBetweenStops tm.routeStops tm.pickup tm.dropoff).map Stop.id ++ [tm.dropoff.id] := by
  obtain ⟨pickup, hp, h⟩ := bind_eq_ok.mp h
  obtain ⟨dropoff, hd, h⟩ := bind_eq_ok.mp h
  cases h
  exact ⟨getOr_eq_ok.mp hp, getOr_eq_ok.mp hd, rfl, rfl, rfl⟩

/-- One vehicle's occupancy table, from the live trips read for it
(`Trip.scala:372–389`). -/
def getVehicleAvailability (w : World) (vehicleId : Int) (pickup : Stop) (trips : List Trip)
    (seats : Int) : Except Failure OccupancyTable := do
  let routeStops := Route.getStops w.stops pickup.routeId
  let vehicle ← getOr (w.vehicles.get vehicleId) .vehicle
  buildOccupancyTable routeStops trips vehicle.maximumOccupancy seats

/-- A vehicle and the live trips that were read for it. -/
abbrev Reading := Vehicle × List Trip

/-- `tm.vehicles.map(v => v.driverId -> getVehicleAvailability(v.id, …))`, before the
pairs become a map. -/
def availabilityTables (w : World) (pickup : Stop) (seats : Int) (readings : List Reading) :
    Except Failure (List (Int × OccupancyTable)) :=
  mapE (fun r => (getVehicleAvailability w r.1.id pickup r.2 seats).map fun table =>
    (r.1.driverId, table)) readings

/-- `toMap`: of several pairs with one key, the last wins. -/
def toMap (pairs : List (Int × OccupancyTable)) : AList fun _ : Int => OccupancyTable :=
  pairs.foldl (fun m p => m.insert p.1 p.2) ∅

/-- The test of `getAvailableVehicles`: a non-empty table that is positive at every
stop of the trip. -/
def tablePasses (tm : TripMeta) (table : OccupancyTable) : Except Failure Bool :=
  if 0 < table.entries.length then
    -- a stop that is not in the table throws, it does not fail the test
    (mapE (fun ts => getOr (table.lookup ts) .stop) tm.tripStopIds).map fun ns =>
      (ns.filter fun n => 0 < n).length == tm.tripStopIds.length
  else .ok false

/-- The drivers whose table passes. -/
def passingDrivers (tm : TripMeta) :
    List (Sigma fun _ : Int => OccupancyTable) → Except Failure (List Int)
  | [] => .ok []
  | ⟨driverId, table⟩ :: rest => do
    let passes ← tablePasses tm table
    let drivers ← passingDrivers tm rest
    .ok (if passes then driverId :: drivers else drivers)

/-- The vehicles `getAvailableVehicles` returns (`Trip.scala:392–405`); what it does
when there are none is dispatch's business. -/
def getAvailableVehicles (w : World) (tm : TripMeta) (seats : Int) (readings : List Reading) :
    Except Failure (List Vehicle) := do
  let tables ← availabilityTables w tm.pickup seats readings
  let drivers ← passingDrivers tm (toMap tables).entries
  .ok (drivers.flatMap fun driverId => tm.vehicles.filter fun v => v.driverId == driverId)

/-- An entry of the map is one of the pairs it was made from. -/
theorem mem_of_mem_toMap {pairs : List (Int × OccupancyTable)} {d : Int}
    {table : OccupancyTable} (h : (⟨d, table⟩ : Sigma _) ∈ (toMap pairs).entries) :
    (d, table) ∈ pairs := by
  have key : ∀ (ps : List (Int × OccupancyTable)) (m : AList fun _ : Int => OccupancyTable),
      (⟨d, table⟩ : Sigma _) ∈ (ps.foldl (fun m p => m.insert p.1 p.2) m).entries →
      (⟨d, table⟩ : Sigma _) ∈ m.entries ∨ (d, table) ∈ ps := by
    intro ps
    induction ps with
    | nil => exact fun m hm => Or.inl hm
    | cons p ps ih =>
      intro m hm
      rcases ih _ hm with hin | hin
      · rw [AList.entries_insert, List.mem_cons] at hin
        rcases hin with heq | hin
        · cases heq
          exact Or.inr List.mem_cons_self
        · exact Or.inl ((List.kerase_sublist _ _).subset hin)
      · exact Or.inr (List.mem_cons_of_mem p hin)
  rcases key pairs ∅ h with hempty | hmem
  · exact nomatch hempty
  · exact hmem

/-- A driver passes through a table of its own. The test runs over the entries of the map, of which
there is one for each driver. -/
theorem mem_passingDrivers {tm : TripMeta} {entries : List (Sigma fun _ : Int => OccupancyTable)}
    {drivers : List Int} (h : passingDrivers tm entries = .ok drivers) {d : Int}
    (hd : d ∈ drivers) :
    ∃ table, (⟨d, table⟩ : Sigma _) ∈ entries ∧ tablePasses tm table = .ok true := by
  induction entries generalizing drivers with
  | nil =>
    cases h
    exact nomatch hd
  | cons entry rest ih =>
    obtain ⟨d', table'⟩ := entry
    obtain ⟨passes, hpasses, h⟩ := bind_eq_ok.mp h
    obtain ⟨drivers', hrest, h⟩ := bind_eq_ok.mp h
    cases h
    have hcases : (passes = true ∧ d = d') ∨ d ∈ drivers' := by
      cases passes with
      | false => exact Or.inr hd
      | true => exact (List.mem_cons.mp hd).imp (fun heq => ⟨rfl, heq⟩) id
    rcases hcases with ⟨rfl, rfl⟩ | hd'
    · exact ⟨table', List.mem_cons_self, hpasses⟩
    · obtain ⟨table, hmem, hp⟩ := ih hrest hd'
      exact ⟨table, List.mem_cons_of_mem _ hmem, hp⟩

/-- A passing table is positive at every stop of the trip. -/
theorem pos_of_tablePasses {tm : TripMeta} {table : OccupancyTable}
    (h : tablePasses tm table = .ok true) {ts : Int} (hts : ts ∈ tm.tripStopIds) :
    ∃ n, table.lookup ts = some n ∧ 0 < n := by
  rw [tablePasses] at h
  split at h
  swap
  · cases h
  obtain ⟨ns, hns, hcount⟩ := map_eq_ok.mp h
  rw [beq_iff_eq, (mapE_eq_ok.mp hns).length_eq] at hcount
  have hpos := List.length_filter_eq_length_iff.mp hcount
  obtain ⟨n, hn, hlook⟩ := exists_output hns hts
  exact ⟨n, getOr_eq_ok.mp hlook, of_decide_eq_true (hpos n hn)⟩

/-- A table in the map is that of some vehicle of its driver. -/
theorem reading_of_entry {w : World} {pickup : Stop} {seats : Int} {readings : List Reading}
    {tables : List (Int × OccupancyTable)} {d : Int} {table : OccupancyTable}
    (htables : availabilityTables w pickup seats readings = .ok tables)
    (hentry : (⟨d, table⟩ : Sigma _) ∈ (toMap tables).entries) :
    ∃ r ∈ readings, r.1.driverId = d ∧
      getVehicleAvailability w r.1.id pickup r.2 seats = .ok table := by
  obtain ⟨r, hr, hbuilt⟩ := exists_input htables (mem_of_mem_toMap hentry)
  obtain ⟨table', ha, heq⟩ := map_eq_ok.mp hbuilt
  cases heq
  exact ⟨r, hr, rfl, ha⟩

/-- **One available vehicle was judged by its own table.** The map is keyed by
driver, so a table may stand for another vehicle of the same driver; but then both
vehicles come out. -/
theorem available_singleton {w : World} {tm : TripMeta} {seats : Int}
    {readings : List Reading} {v : Vehicle} (hread : readings.map Prod.fst = tm.vehicles)
    (h : getAvailableVehicles w tm seats readings = .ok [v]) :
    v ∈ tm.vehicles ∧ ∃ trips table, (v, trips) ∈ readings ∧
      getVehicleAvailability w v.id tm.pickup trips seats = .ok table ∧
      tablePasses tm table = .ok true := by
  obtain ⟨tables, htables, h⟩ := bind_eq_ok.mp h
  obtain ⟨drivers, hdrivers, h⟩ := bind_eq_ok.mp h
  have hlist : (drivers.flatMap fun d => tm.vehicles.filter fun v => v.driverId == d) = [v] := by
    simpa using h
  have hv : v ∈ drivers.flatMap fun d => tm.vehicles.filter fun v => v.driverId == d := by
    rw [hlist]
    exact List.mem_cons_self
  obtain ⟨d, hd, hvd⟩ := List.mem_flatMap.mp hv
  obtain ⟨hvmem, hdriver⟩ := List.mem_filter.mp hvd
  refine ⟨hvmem, ?_⟩
  obtain ⟨table, hentry, hpasses⟩ := mem_passingDrivers hdrivers hd
  -- the table under `d` was built from some reading, of a vehicle of driver `d`
  obtain ⟨r, hr, rfl, ha⟩ := reading_of_entry htables hentry
  -- that vehicle comes out too, so it is the only one
  have hrv : r.1 ∈ drivers.flatMap fun d => tm.vehicles.filter fun v => v.driverId == d := by
    refine List.mem_flatMap.mpr ⟨r.1.driverId, hd, List.mem_filter.mpr ⟨?_, by simp⟩⟩
    rw [← hread]
    exact List.mem_map_of_mem hr
  rw [hlist, List.mem_singleton] at hrv
  subst hrv
  exact ⟨r.2, table, hr, ha, hpasses⟩

/-- A vehicle that comes out alone is an active one of the trip's route. -/
theorem available_onRoute {w : World} {trip : Trip} {tm : TripMeta} {seats : Int}
    {readings : List Reading} {v : Vehicle} (hof : TripMeta.of w trip = .ok tm)
    (hread : readings.map Prod.fst = tm.vehicles)
    (h : getAvailableVehicles w tm seats readings = .ok [v]) :
    v ∈ Vehicle.getForRouteRaw w.vehicles trip.routeId := by
  obtain ⟨-, -, -, hvehicles, -⟩ := TripMeta.of_eq_ok hof
  rw [← hvehicles]
  exact (available_singleton hread h).1

/-! ## What the lookups can throw -/

theorem TripMeta.throws_of (w : World) (trip : Trip) : Throws [.stop] (TripMeta.of w trip) :=
  (throws_getOr _ List.mem_cons_self).bind fun _ _ =>
    (throws_getOr _ List.mem_cons_self).bind fun _ _ => throws_ok _ _

theorem throws_buildOccupancyTable (stops : List Stop) (trips : List Trip)
    (occupancy seats : Int) : Throws [.stop] (buildOccupancyTable stops trips occupancy seats) := by
  refine throws_foldlM (fun t _ table => ?_) _
  refine (throws_getOr _ List.mem_cons_self).bind fun pickup _ =>
    (throws_getOr _ List.mem_cons_self).bind fun dropoff _ => throws_foldlM (fun s _ table => ?_) _
  exact (throws_getOr _ List.mem_cons_self).bind fun n _ => throws_ok _ _

theorem throws_passingDrivers (tm : TripMeta)
    (entries : List (Sigma fun _ : Int => OccupancyTable)) :
    Throws [.stop] (passingDrivers tm entries) := by
  induction entries with
  | nil => exact throws_ok _ _
  | cons entry rest ih =>
    refine Throws.bind ?_ fun passes _ => ih.bind fun _ _ => throws_ok _ _
    unfold tablePasses
    split
    · exact (throws_mapE fun ts _ => throws_getOr _ List.mem_cons_self).map _
    · exact throws_ok _ _

/-- The availability test only fails for want of a stop: the vehicles it was given are
in the table. -/
theorem throws_getAvailableVehicles {w : World} {tm : TripMeta} (seats : Int)
    {readings : List Reading} (h : ∀ r ∈ readings, r.1 ∈ w.vehicles.rows) :
    Throws [.stop] (getAvailableVehicles w tm seats readings) := by
  refine Throws.bind ?_ fun tables _ => (throws_passingDrivers tm _).bind fun _ _ => throws_ok _ _
  refine throws_mapE fun r hr => Throws.map ?_ _
  unfold getVehicleAvailability
  rw [show w.vehicles.get r.1.id = some r.1 from Table.get_of_mem (h r hr)]
  exact throws_buildOccupancyTable _ _ _ _

end Maiden
