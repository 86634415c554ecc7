import Maiden.Safety.Overbooking

/-!
# What the availability test computes

The occupancy table is built by a fold in 32-bit arithmetic. Wrapping at every step comes to
the same as wrapping once (`remaining_wraps`), so that each entry has a closed form, the
vehicle's occupancy less what the live trips riding through the stop take (`takenAt`), as an
`Int`. On a circuit, with live trips between its stops, nothing throws
(`buildOccupancyTable_ok`), and the test of `getAvailableVehicles` compares the entries of the
ride's stops with zero (`vehiclePasses_eq`).
-/

namespace Maiden

/-- The stops of the ride: the pickup, the stops in between and the dropoff. -/
def rideStops (stops : List Stop) (p d : Stop) : List Stop :=
  [p] ++ getInBetweenStops stops p d ++ [d]

/-- The test that `assignVehicle` makes for one vehicle: the table of
`getVehicleAvailability`, tested as in `getAvailableVehicles`. -/
def vehiclePasses (w : World) (v : Vehicle) (trips : List Trip) (trip : Trip) :
    Except Failure Bool := do
  let tm ← TripMeta.of w trip
  let table ← getVehicleAvailability w v.id tm.pickup trips trip.seats
  tablePasses tm table

/-- The trip is a ride between two stops of its route. -/
structure RideOf (w : World) (trip : Trip) (p d : Stop) : Prop where
  pickup_mem : p ∈ Route.getStops w.stops trip.routeId
  dropoff_mem : d ∈ Route.getStops w.stops trip.routeId
  pickup_id : p.id = trip.pickupStop
  dropoff_id : d.id = trip.dropoffStop

/-- The live trip is a ride between two of the stops. -/
def OnStops (stops : List Stop) (t : Trip) : Prop :=
  (∃ p ∈ stops, p.id = t.pickupStop) ∧ ∃ d ∈ stops, d.id = t.dropoffStop

instance (stops : List Stop) : DecidablePred (OnStops stops) := fun t =>
  inferInstanceAs
    (Decidable ((∃ p ∈ stops, p.id = t.pickupStop) ∧ ∃ d ∈ stops, d.id = t.dropoffStop))

/-! ## The entries -/

/-- **Wrapping at every step is wrapping once.** This takes the 32-bit arithmetic out of the loop:
the seats taken can be summed up exactly, and the sum be wrapped at the end. -/
theorem remaining_wraps (stops : List Stop) (seats : Int) (s : Stop) (trips : List Trip) :
    ∀ {n : Int}, -2 ^ 31 ≤ n → n < 2 ^ 31 →
      remaining stops seats s n trips = int32 (n - takenAt stops seats s trips) := by
  induction trips with
  | nil =>
    intro n hlo hhi
    show n = int32 (n - 0)
    rw [sub_zero, int32_of_range hlo hhi]
  | cons t trips ih =>
    intro n hlo hhi
    rw [remaining_cons, takenAt_cons]
    by_cases hr : ridesThrough stops t s = true
    · obtain ⟨hlo', hhi'⟩ := int32_range (n - int32 (t.seats + seats))
      have hstep : int32 (n - int32 (t.seats + seats)) = int32 (n - (t.seats + seats)) := by
        rw [← int32_sub_int32 n (t.seats + seats), int32_of_range hlo hhi]
      rw [if_pos hr, if_pos hr, ih hlo' hhi', hstep, int32_int32_sub, sub_sub]
    · rw [if_neg hr, if_neg hr, ih hlo hhi, zero_add]

/-! ## Nothing throws -/

section

variable {stops : List Stop}

theorem stopById_ok {stopId : Int} (h : ∃ s ∈ stops, s.id = stopId) :
    ∃ s ∈ stops, stopById stops stopId = .ok s := by
  obtain ⟨s, hs, hid⟩ := h
  cases hf : stops.find? fun s => s.id == stopId with
  | none => exact absurd (beq_iff_eq.mpr hid) (List.find?_eq_none.mp hf s hs)
  | some s' => exact ⟨s', List.mem_of_find?_eq_some hf, getOr_eq_ok.mpr hf⟩

/-- The table knows the stops. -/
def Knows (stops : List Stop) (table : OccupancyTable) : Prop :=
  ∀ s ∈ stops, ∃ n, table.lookup s.id = some n

theorem knows_initial (stops : List Stop) (occupancy : Int) :
    Knows stops (stops.foldl (fun tb s => tb.insert s.id occupancy) ∅) :=
  fun _ hs => ⟨occupancy, initial_lookup hs⟩

/-- Taking seats off stops that the table knows does not throw, and it still knows them. The table
starts with all stops of the route. -/
theorem Knows.takeSeats (taken : Int) (bs : List Stop) (hbs : ∀ b ∈ bs, b ∈ stops) :
    ∀ {table : OccupancyTable}, Knows stops table →
      ∃ table', bs.foldlM (takeSeats taken) table = .ok table' ∧ Knows stops table' := by
  induction bs with
  | nil => exact fun h => ⟨_, rfl, h⟩
  | cons b bs ih =>
    intro table h
    obtain ⟨n, hn⟩ := h b (hbs b List.mem_cons_self)
    have hstep : Maiden.takeSeats taken table b = .ok (table.insert b.id (int32 (n - taken))) :=
      bind_eq_ok.mpr ⟨n, getOr_eq_ok.mpr hn, rfl⟩
    have hknows : Knows stops (table.insert b.id (int32 (n - taken))) := by
      intro s hs
      obtain ⟨m, hm⟩ := h s hs
      rw [takeSeats_lookup hstep, hm]
      split
      · exact ⟨_, rfl⟩
      · exact ⟨_, rfl⟩
    obtain ⟨table', hrest, hknows'⟩ := ih (fun c hc => hbs c (List.mem_cons_of_mem b hc)) hknows
    exact ⟨table', by rw [List.foldlM_cons]; exact bind_eq_ok.mpr ⟨_, hstep, hrest⟩, hknows'⟩

theorem Knows.occupyRide (seats : Int) {t : Trip} (ht : OnStops stops t) {table : OccupancyTable}
    (h : Knows stops table) :
    ∃ table', Maiden.occupyRide stops seats table t = .ok table' ∧ Knows stops table' := by
  obtain ⟨p, -, hp⟩ := stopById_ok ht.1
  obtain ⟨d, -, hd⟩ := stopById_ok ht.2
  obtain ⟨table', hfold, hknows⟩ := h.takeSeats (int32 (t.seats + seats))
    (getInBetweenStops stops p d) fun b hb => (mem_getInBetweenStops_iff.mp hb).1
  exact ⟨table', bind_eq_ok.mpr ⟨p, hp, bind_eq_ok.mpr ⟨d, hd, hfold⟩⟩, hknows⟩

/-- **The table can be built** when all live trips are between stops of the route. A trip with
another stop makes the whole test throw. -/
theorem buildOccupancyTable_ok (stops : List Stop) (occupancy seats : Int) {trips : List Trip}
    (htrips : ∀ t ∈ trips, OnStops stops t) :
    ∃ table, buildOccupancyTable stops trips occupancy seats = .ok table := by
  have key : ∀ (trips : List Trip), (∀ t ∈ trips, OnStops stops t) → ∀ table, Knows stops table →
      ∃ table', trips.foldlM (Maiden.occupyRide stops seats) table = .ok table' := by
    intro trips
    induction trips with
    | nil => exact fun _ table _ => ⟨table, rfl⟩
    | cons t trips ih =>
      intro ht table h
      obtain ⟨mid, hmid, hknows⟩ := h.occupyRide seats (ht t List.mem_cons_self)
      obtain ⟨table', hrest⟩ := ih (fun t' ht' => ht t' (List.mem_cons_of_mem t ht')) mid hknows
      exact ⟨table', by rw [List.foldlM_cons]; exact bind_eq_ok.mpr ⟨mid, hmid, hrest⟩⟩
  exact key trips htrips _ (knows_initial stops occupancy)

end

/-! ## The test -/

/-- On a table that knows the stops of the ride, the test compares their entries with zero. -/
theorem tablePasses_eq {β : Type} {tm : TripMeta} {table : OccupancyTable} {ride : List β}
    {id : β → Int} {left : β → Int} (hids : tm.tripStopIds = ride.map id) (hne : ride ≠ [])
    (hleft : ∀ s ∈ ride, table.lookup (id s) = some (left s)) :
    tablePasses tm table = .ok (ride.all fun s => 0 < left s) := by
  -- the code asks for a table that is not empty before it looks at the entries
  have hsize : 0 < table.entries.length := by
    obtain ⟨s, hs⟩ := List.exists_mem_of_ne_nil ride hne
    have hmem := AList.mem_lookup_iff.mp (hleft s hs)
    exact List.length_pos_of_mem hmem
  have hmap : mapE (fun ts => getOr (table.lookup ts) Failure.stop) tm.tripStopIds =
      .ok (ride.map left) := by
    rw [hids, mapE_eq_ok, List.forall₂_map_left_iff, List.forall₂_map_right_iff,
      List.forall₂_same]
    exact fun s hs => getOr_eq_ok.mpr (hleft s hs)
  rw [tablePasses, if_pos hsize, hmap, hids]
  refine congrArg Except.ok ?_
  dsimp only
  rw [List.length_map, List.filter_map, List.length_map, Bool.eq_iff_iff, beq_iff_eq,
    List.length_filter_eq_length_iff, List.all_eq_true]
  rfl

section

variable {w : World} {trip : Trip} {p d : Stop}

/-- What dispatch looks up for a ride between two stops of its route. -/
theorem RideOf.tripMeta (h : RideOf w trip p d) : ∃ tm, TripMeta.of w trip = .ok tm ∧
    tm.pickup = p ∧ tm.tripStopIds =
      (rideStops (Route.getStops w.stops trip.routeId) p d).map Stop.id := by
  have hp : w.stops.get trip.pickupStop = some p :=
    Table.get_eq_some_iff.mpr ⟨(Route.mem_getStops.mp h.pickup_mem).1, h.pickup_id⟩
  have hd : w.stops.get trip.dropoffStop = some d :=
    Table.get_eq_some_iff.mpr ⟨(Route.mem_getStops.mp h.dropoff_mem).1, h.dropoff_id⟩
  refine ⟨_, bind_eq_ok.mpr ⟨p, getOr_eq_ok.mpr hp, bind_eq_ok.mpr ⟨d, getOr_eq_ok.mpr hd, rfl⟩⟩,
    rfl, ?_⟩
  rw [rideStops, List.map_append, List.map_append]
  rfl

theorem RideOf.rideStops_mem (h : RideOf w trip p d) {s : Stop}
    (hs : s ∈ rideStops (Route.getStops w.stops trip.routeId) p d) :
    s ∈ Route.getStops w.stops trip.routeId := by
  rw [rideStops, List.mem_append, List.mem_append, List.mem_singleton, List.mem_singleton] at hs
  rcases hs with (rfl | hs) | rfl
  · exact h.pickup_mem
  · exact (mem_getInBetweenStops_iff.mp hs).1
  · exact h.dropoff_mem

/-- **The test in closed form.** For a ride between stops of its route, a stored vehicle and
live trips between stops of the route, the test does not throw; it says whether the seats
left are positive at every stop of the ride, as an `Int`. -/
theorem vehiclePasses_eq (h : RideOf w trip p d) {v : Vehicle} (hv : v ∈ w.vehicles.rows)
    (hocc : -2 ^ 31 ≤ v.maximumOccupancy ∧ v.maximumOccupancy < 2 ^ 31) {trips : List Trip}
    (htrips : ∀ t ∈ trips, OnStops (Route.getStops w.stops trip.routeId) t) :
    vehiclePasses w v trips trip =
      .ok ((rideStops (Route.getStops w.stops trip.routeId) p d).all fun s =>
        0 < int32 (v.maximumOccupancy -
          takenAt (Route.getStops w.stops trip.routeId) trip.seats s trips)) := by
  obtain ⟨tm, htm, hpickup, hids⟩ := h.tripMeta
  obtain ⟨table, htable⟩ := buildOccupancyTable_ok (Route.getStops w.stops trip.routeId)
    v.maximumOccupancy trip.seats htrips
  -- the table is built for the route of the pickup, which is that of the trip
  have hroute : tm.pickup.routeId = trip.routeId :=
    hpickup ▸ (Route.mem_getStops.mp h.pickup_mem).2
  have havail : getVehicleAvailability w v.id tm.pickup trips trip.seats = .ok table := by
    refine bind_eq_ok.mpr ⟨v, getOr_eq_ok.mpr (Table.get_of_mem hv), ?_⟩
    rw [hroute]
    exact htable
  have hne : rideStops (Route.getStops w.stops trip.routeId) p d ≠ [] := by simp [rideStops]
  refine bind_eq_ok.mpr ⟨tm, htm, bind_eq_ok.mpr ⟨table, havail,
    tablePasses_eq hids hne fun s hs => ?_⟩⟩
  rw [buildOccupancyTable_lookup (Route.nodup_ids w.stops trip.routeId) htable (h.rideStops_mem hs),
    remaining_wraps _ _ _ _ hocc.1 hocc.2]

end

end Maiden
