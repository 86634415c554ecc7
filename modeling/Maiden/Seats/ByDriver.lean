import Maiden.Seats.Monotone

/-!
# Vehicles are judged by their driver's table

`assignVehicle` makes a table for each active vehicle of the route and collects the tables
in a map whose keys are the *drivers*. `getAvailableVehicles` keeps the drivers whose table
passes and turns them back into vehicles, all those that the driver has. With one vehicle for
each driver this is the same as testing each vehicle. When a driver has several, the table of
the last one that was read decides for all of them (`full_van_offered`).

`mem_available_iff` says which vehicles come out, `judged_iff` when that is right.
-/

namespace Maiden

/-- The table is positive at every stop of the trip. -/
def Positive (tm : TripMeta) (table : OccupancyTable) : Prop :=
  ∀ ts ∈ tm.tripStopIds, ∃ n, table.lookup ts = some n ∧ 0 < n

/-- The vehicle's own table, made from the trips that were read for it, is positive at every
stop of the trip. -/
def OwnPositive (w : World) (tm : TripMeta) (seats : Int) (r : Reading) : Prop :=
  ∃ table, getVehicleAvailability w r.1.id tm.pickup r.2 seats = .ok table ∧ Positive tm table

/-- The test of a table for a trip, which has a stop. -/
theorem tablePasses_iff {tm : TripMeta} {table : OccupancyTable} (hne : tm.tripStopIds ≠ []) :
    tablePasses tm table = .ok true ↔ Positive tm table := by
  constructor
  · exact fun h ts hts => pos_of_tablePasses h hts
  · intro h
    have hleft : ∀ ts ∈ tm.tripStopIds,
        table.lookup (id ts) = some ((table.lookup ts).getD 0) ∧ 0 < (table.lookup ts).getD 0 := by
      intro ts hts
      obtain ⟨n, hn, hpos⟩ := h ts hts
      rw [id, hn]
      exact ⟨rfl, hpos⟩
    rw [tablePasses_eq (List.map_id _).symm hne fun ts hts => (hleft ts hts).1, Except.ok.injEq,
      List.all_eq_true]
    exact fun ts hts => decide_eq_true (hleft ts hts).2

/-! ## The map and the drivers -/

/-- Every key that was put in is in the map. -/
theorem exists_entry_toMap {pairs : List (Int × OccupancyTable)} {d : Int} {table : OccupancyTable}
    (h : (d, table) ∈ pairs) : ∃ table', (⟨d, table'⟩ : Sigma _) ∈ (toMap pairs).entries := by
  -- generalised over the map so far: the key is still to come or already there
  have key : ∀ (ps : List (Int × OccupancyTable)) (m : AList fun _ : Int => OccupancyTable),
      d ∈ ps.map Prod.fst ∨ d ∈ m → d ∈ ps.foldl (fun m p => m.insert p.1 p.2) m := by
    intro ps
    induction ps with
    | nil =>
      rintro m (hd | hd)
      · cases hd
      · exact hd
    | cons p ps ih =>
      intro m hd
      refine ih _ ?_
      rw [AList.mem_insert]
      rcases hd with hd | hd
      · rcases List.mem_cons.mp hd with heq | hd
        · exact Or.inr (Or.inl heq)
        · exact Or.inl hd
      · exact Or.inr (Or.inr hd)
  have hmem := key pairs ∅ (Or.inl (List.mem_map_of_mem h))
  exact List.mem_keys.mp hmem

/-- The drivers that are kept are those with a passing table. -/
theorem mem_passingDrivers_iff {tm : TripMeta}
    {entries : List (Sigma fun _ : Int => OccupancyTable)} {drivers : List Int}
    (h : passingDrivers tm entries = .ok drivers) {d : Int} :
    d ∈ drivers ↔ ∃ table, (⟨d, table⟩ : Sigma _) ∈ entries ∧ tablePasses tm table = .ok true := by
  refine ⟨mem_passingDrivers h, ?_⟩
  induction entries generalizing drivers with
  | nil => exact fun ⟨_, hmem, _⟩ => nomatch hmem
  | cons entry rest ih =>
    rintro ⟨table, hmem, hpasses⟩
    obtain ⟨passes, hfirst, h⟩ := bind_eq_ok.mp h
    obtain ⟨drivers', hrest, h⟩ := bind_eq_ok.mp h
    cases h
    rcases List.mem_cons.mp hmem with rfl | hmem
    · cases hpasses.symm.trans hfirst
      exact List.mem_cons_self
    · have hd := ih hrest ⟨table, hmem, hpasses⟩
      split
      · exact List.mem_cons_of_mem _ hd
      · exact hd

/-- Each driver is kept at most once. -/
theorem sublist_passingDrivers {tm : TripMeta}
    {entries : List (Sigma fun _ : Int => OccupancyTable)} {drivers : List Int}
    (h : passingDrivers tm entries = .ok drivers) : drivers.Sublist (entries.map Sigma.fst) := by
  induction entries generalizing drivers with
  | nil =>
    cases h
    exact List.Sublist.slnil
  | cons entry rest ih =>
    obtain ⟨passes, -, h⟩ := bind_eq_ok.mp h
    obtain ⟨drivers', hrest, h⟩ := bind_eq_ok.mp h
    cases h
    split
    · exact (ih hrest).cons_cons _
    · exact (ih hrest).cons _

/-! ## Which vehicles come out -/

section

variable {w : World} {tm : TripMeta} {seats : Int} {readings : List Reading}
  {available : List Vehicle}

/-- **The vehicles that come out**: those of a driver whose table in the map is positive. The map
has one table for each driver, so a driver with two vehicles is judged by one of them for both. -/
theorem mem_available_iff (hne : tm.tripStopIds ≠ [])
    (h : getAvailableVehicles w tm seats readings = .ok available) {v : Vehicle} :
    v ∈ available ↔ v ∈ tm.vehicles ∧ ∃ tables table,
      availabilityTables w tm.pickup seats readings = .ok tables ∧
      (⟨v.driverId, table⟩ : Sigma _) ∈ (toMap tables).entries ∧ Positive tm table := by
  obtain ⟨tables, htables, h⟩ := bind_eq_ok.mp h
  obtain ⟨drivers, hdrivers, h⟩ := bind_eq_ok.mp h
  cases h
  rw [List.mem_flatMap]
  constructor
  · rintro ⟨d, hd, hfilter⟩
    obtain ⟨hv, hdriver⟩ := List.mem_filter.mp hfilter
    obtain rfl := beq_iff_eq.mp hdriver
    obtain ⟨table, hentry, hpasses⟩ := mem_passingDrivers hdrivers hd
    exact ⟨hv, tables, table, htables, hentry, (tablePasses_iff hne).mp hpasses⟩
  · rintro ⟨hv, tables', table, htables', hentry, hpositive⟩
    cases htables.symm.trans htables'
    have hdriver : v.driverId ∈ drivers :=
      (mem_passingDrivers_iff hdrivers).mpr ⟨table, hentry, (tablePasses_iff hne).mpr hpositive⟩
    exact ⟨v.driverId, hdriver, List.mem_filter.mpr ⟨hv, beq_self_eq_true _⟩⟩

/-- No vehicle comes out twice. -/
theorem nodup_available (h : getAvailableVehicles w tm seats readings = .ok available)
    (hvehicles : tm.vehicles.Nodup) : available.Nodup := by
  obtain ⟨tables, -, h⟩ := bind_eq_ok.mp h
  obtain ⟨drivers, hdrivers, h⟩ := bind_eq_ok.mp h
  cases h
  have hkeys : ((toMap tables).entries.map Sigma.fst).Nodup := (toMap tables).nodupKeys
  have hnodup : drivers.Nodup := hkeys.sublist (sublist_passingDrivers hdrivers)
  refine List.nodup_flatMap.mpr ⟨fun d _ => hvehicles.filter _, hnodup.imp fun hne => ?_⟩
  -- a vehicle has one driver
  intro v hv hv'
  have hd := beq_iff_eq.mp (List.mem_filter.mp hv).2
  have hd' := beq_iff_eq.mp (List.mem_filter.mp hv').2
  exact hne (hd.symm.trans hd')

/-- The driver of every vehicle that was read has an entry. -/
theorem exists_entry_of_reading {tables : List (Int × OccupancyTable)}
    (htables : availabilityTables w tm.pickup seats readings = .ok tables) {r : Reading}
    (hr : r ∈ readings) : ∃ table, (⟨r.1.driverId, table⟩ : Sigma _) ∈ (toMap tables).entries := by
  obtain ⟨pair, hpair, hbuilt⟩ := exists_output htables hr
  obtain ⟨table, -, rfl⟩ := map_eq_ok.mp hbuilt
  exact exists_entry_toMap hpair

end

/-! ## Each vehicle by its own load -/

/-- Each vehicle is judged by its own load: it comes out exactly if its own table passes,
and once; and the trip is marked exactly if no vehicle comes out. -/
structure JudgedByLoad (w : World) (env : Env) (db : Table Trip) (trip : Trip) (tm : TripMeta)
    (readings : List Reading) (available : List Vehicle) : Prop where
  own : ∀ v, v ∈ available ↔ ∃ trips, (v, trips) ∈ readings ∧
    OwnPositive w tm trip.seats (v, trips)
  once : available.Nodup
  marked : Task.step w env db (.survey trip tm readings []) =
      some (db, .update trip.id RideStateType.noAvailableVehicles.id .done) ↔ available = []

/-- The vehicles of a driver all pass by their own tables, or none of them does. -/
def DriversAgree (w : World) (tm : TripMeta) (seats : Int) (readings : List Reading) : Prop :=
  ∀ r ∈ readings, ∀ r' ∈ readings, r.1.driverId = r'.1.driverId → OwnPositive w tm seats r →
    OwnPositive w tm seats r'

section

variable {w : World} {trip : Trip} {tm : TripMeta} {seats : Int} {readings : List Reading}
  {available : List Vehicle}

/-- A trip has stops. -/
theorem TripMeta.tripStopIds_ne_nil (h : TripMeta.of w trip = .ok tm) : tm.tripStopIds ≠ [] := by
  rw [(TripMeta.of_eq_ok h).2.2.2.2]
  simp

/-- If the vehicles of a driver agree, the table that stands for them decides as their own. -/
theorem DriversAgree.mem_available_iff (hagree : DriversAgree w tm seats readings)
    (hne : tm.tripStopIds ≠ []) (hread : readings.map Prod.fst = tm.vehicles)
    (h : getAvailableVehicles w tm seats readings = .ok available) {v : Vehicle} :
    v ∈ available ↔ ∃ trips, (v, trips) ∈ readings ∧ OwnPositive w tm seats (v, trips) := by
  rw [Maiden.mem_available_iff hne h]
  constructor
  · rintro ⟨hv, tables, table, htables, hentry, htable⟩
    obtain ⟨r', hr', hdriver, ha⟩ := reading_of_entry htables hentry
    obtain ⟨r, hr, rfl⟩ := List.mem_map.mp (hread ▸ hv)
    exact ⟨r.2, hr, hagree r' hr' r hr hdriver ⟨table, ha, htable⟩⟩
  · rintro ⟨trips, htrips, hown⟩
    obtain ⟨tables, htables, -⟩ := bind_eq_ok.mp h
    -- the driver has an entry, which is the table of one of its vehicles
    obtain ⟨table, hentry⟩ := exists_entry_of_reading htables htrips
    obtain ⟨r', hr', hdriver, ha⟩ := reading_of_entry htables hentry
    obtain ⟨table', ha', htable⟩ := hagree _ htrips r' hr' hdriver.symm hown
    cases ha.symm.trans ha'
    exact ⟨hread ▸ List.mem_map_of_mem htrips, tables, table, htables, hentry, htable⟩

/-- The vehicles of a driver come out together. -/
theorem available_of_driver (hne : tm.tripStopIds ≠ [])
    (h : getAvailableVehicles w tm seats readings = .ok available) {v v' : Vehicle}
    (hdriver : v.driverId = v'.driverId) (hv : v ∈ available) (hv' : v' ∈ tm.vehicles) :
    v' ∈ available := by
  obtain ⟨-, tables, table, htables, hentry, htable⟩ := (mem_available_iff hne h).mp hv
  exact (mem_available_iff hne h).mpr ⟨hv', tables, table, htables, hdriver ▸ hentry, htable⟩

end

/-- **Each vehicle is judged by its own load** if and only if the vehicles of each driver agree,
for all vehicles of the route, all trips read for them and every request for which nothing
throws. -/
theorem judged_iff {w : World} (env : Env) (db : Table Trip) {trip : Trip} {tm : TripMeta}
    (hof : TripMeta.of w trip = .ok tm) {readings : List Reading}
    (hread : readings.map Prod.fst = tm.vehicles) {available : List Vehicle}
    (h : getAvailableVehicles w tm trip.seats readings = .ok available) :
    JudgedByLoad w env db trip tm readings available ↔
      DriversAgree w tm trip.seats readings := by
  have hvehicles : tm.vehicles.Nodup :=
    (TripMeta.of_eq_ok hof).2.2.2.1 ▸ Vehicle.nodup_getForRouteRaw w.vehicles trip.routeId
  have hne := TripMeta.tripStopIds_ne_nil hof
  constructor
  · intro hj r hr r' hr' hdriver hpositive
    have hout := available_of_driver hne h hdriver ((hj.own r.1).mpr ⟨r.2, hr, hpositive⟩)
      (hread ▸ List.mem_map_of_mem hr')
    obtain ⟨trips, htrips, hown⟩ := (hj.own r'.1).mp hout
    -- a vehicle was read once
    rwa [List.inj_on_of_nodup_map (hread ▸ hvehicles) hr' htrips rfl]
  · intro hagree
    refine ⟨fun v => hagree.mem_available_iff hne hread h, nodup_available h hvehicles, ?_⟩
    cases available with
    | nil => simp [Task.step, h]
    | cons v vs => simp [Task.step, h]

/-! ## Two vans on a line -/

namespace TwoVans

-- the first van belongs to driver 7, the second to `driver`
variable (driver : Int)

def full : Vehicle := { Town.van 7 4 with id := 1 }

def idle : Vehicle := { Town.van driver 4 with id := 2 }

def world : World :=
  { Line.world with vehicles := (Table.empty.insert (Town.van 7 4)).insert (Town.van driver 4) }

/-- What is looked up for a ride along the line. -/
def tripMeta : TripMeta where
  routeStops := Route.getStops Line.world.stops 1
  vehicles := [full, idle driver]
  pickup := Line.first
  dropoff := Line.last
  tripStopIds := [1, 2, 3]

/-- Four are riding in the first van, none in the second. -/
def readings : List Reading := [(full, [Line.ride 4]), (idle driver, [])]

theorem full_not_positive :
    ¬ OwnPositive (world driver) (tripMeta driver) 1 (full, [Line.ride 4]) := by
  rintro ⟨table, htable, hpositive⟩
  obtain ⟨n, hn, hpos⟩ := hpositive 2 (by simp [tripMeta])
  -- five of the four seats are charged at the second stop
  have hlook : (getVehicleAvailability (world driver) full.id Line.first [Line.ride 4] 1).map
      (fun table => table.lookup 2) = .ok (some (-1)) := rfl
  rw [show getVehicleAvailability (world driver) full.id Line.first [Line.ride 4] 1 = .ok table
    from htable] at hlook
  cases hn.symm.trans (Except.ok.inj hlook)
  exact absurd hpos (by decide)

end TwoVans

/-- With a driver for each van, only the empty one comes out. -/
theorem judged_twoDrivers :
    getAvailableVehicles (TwoVans.world 8) (TwoVans.tripMeta 8) 1 (TwoVans.readings 8) =
        .ok [TwoVans.idle 8] ∧
      JudgedByLoad (TwoVans.world 8) (Town.env 0) Table.empty (Line.ride 1) (TwoVans.tripMeta 8)
        (TwoVans.readings 8) [TwoVans.idle 8] := by
  refine ⟨rfl, (judged_iff (Town.env 0) Table.empty rfl rfl rfl).mpr ?_⟩
  intro r hr r' hr' hdriver hpositive
  simp only [TwoVans.readings, List.mem_cons, List.not_mem_nil, or_false] at hr hr'
  rcases hr with rfl | rfl <;> rcases hr' with rfl | rfl
  · exact hpositive
  · exact absurd hdriver (by decide)
  · exact absurd hdriver (by decide)
  · exact hpositive

/-- Both vans belong to driver 7. The table of the empty one, which was read last, stands for
both, so that the full one comes out too. -/
theorem full_van_offered :
    TripMeta.of (TwoVans.world 7) (Line.ride 1) = .ok (TwoVans.tripMeta 7) ∧
      getAvailableVehicles (TwoVans.world 7) (TwoVans.tripMeta 7) 1 (TwoVans.readings 7) =
        .ok [TwoVans.full, TwoVans.idle 7] ∧
      ¬ OwnPositive (TwoVans.world 7) (TwoVans.tripMeta 7) 1 (TwoVans.full, [Line.ride 4]) :=
  ⟨rfl, rfl, TwoVans.full_not_positive 7⟩

end Maiden
