import Maiden.Base.Run
import Maiden.Safety.Live

/-!
# When seats are overbooked

A vehicle carries, on each leg of its circuit, the seats of its live trips that ride
over that leg; `NoOverbooking` says that they never exceed the vehicle's maximum
occupancy. The availability test of `Models/Availability.lean` does not ensure it:

- a leg that starts where a live trip *boards* is not charged for that trip, since
  only stops strictly between pickup and dropoff are;
- the requested seats are charged once for every live trip riding through, so not at
  all where none does;
- the live trips were read before the match, not at the save: several trips of one
  tick, or of a tick and a slow earlier save, are tested against the same readings;
- seat counts are not checked at booking, and the arithmetic is in 32 bits.

`Watched` collects the cases where the test does its work (`fits_of_watched`). A leg that
nobody rides needs no test, only a vehicle with the booked seats. `noOverbooking_of_meets`
says that these two kinds of legs are enough: a run whose matches are saved on no other leg
is free of overbooking, as long as nobody books a negative number of seats.
-/

namespace Maiden

/-- The ride of `t` travels the leg that starts at `a`. -/
def coversLeg (stops : List Stop) (t : Trip) (a : Stop) : Bool :=
  match stopById stops t.pickupStop, stopById stops t.dropoffStop with
  | .ok pickup, .ok dropoff => decide (Cycle.Covers stops pickup dropoff a)
  | _, _ => false

/-- The seats taken in `v` on the leg that starts at `a`. -/
def legLoad (w : World) (db : Table Trip) (v : Vehicle) (a : Stop) : Int :=
  (((Trip.getOccupiedTripsByVehicle db v.id).filter fun t =>
    coversLeg (Route.getStops w.stops v.routeId) t a).map Trip.seats).sum

/-- No leg of any vehicle's route carries more seats than the vehicle has. -/
def NoOverbooking (w : World) (db : Table Trip) : Prop :=
  ∀ v ∈ w.vehicles.rows, ∀ a ∈ Route.getStops w.stops v.routeId,
    legLoad w db v a ≤ v.maximumOccupancy

/-- A booking for two different stops of its route. -/
def RideOn (w : World) (b : Booking) : Prop :=
  ∃ p ∈ Route.getStops w.stops b.routeId, ∃ d ∈ Route.getStops w.stops b.routeId,
    p.id = b.pickupStop ∧ d.id = b.dropoffStop ∧ p ≠ d

/-- Such a booking, for a number of seats that is not negative. Nothing in `Trip.create` asks
for that, and a trip with fewer seats than none frees seats while it lasts. -/
def SeatedRide (w : World) (b : Booking) : Prop := RideOn w b ∧ 0 ≤ b.seats

instance (w : World) (db : Table Trip) : Decidable (NoOverbooking w db) :=
  inferInstanceAs (Decidable (∀ v ∈ w.vehicles.rows, ∀ a ∈ Route.getStops w.stops v.routeId, _))

instance (w : World) : DecidablePred (RideOn w) := fun b =>
  inferInstanceAs (Decidable (∃ p ∈ Route.getStops w.stops b.routeId,
    ∃ d ∈ Route.getStops w.stops b.routeId, _))

instance (w : World) : DecidablePred (SeatedRide w) := fun _ => inferInstanceAs (Decidable (_ ∧ _))

/-- The availability test watches the leg that starts at `a`: the stops of the route have
distinct orders, the vehicle's live trips are still those that were read, none of them
boards at `a`, some ride through it, and the sums stay in range. -/
@[mk_iff]
structure Watched (w : World) (db : Table Trip) (v : Vehicle) (readings : List Reading)
    (seats : Int) (a : Stop) : Prop where
  ordered : (Route.getStops w.stops v.routeId).Pairwise fun s s' => s.stopOrder < s'.stopOrder
  current : (v, Trip.getOccupiedTripsByVehicle db v.id) ∈ readings
  no_boarding : ∀ t ∈ Trip.getOccupiedTripsByVehicle db v.id, t.pickupStop ≠ a.id
  some_through : ∃ t ∈ Trip.getOccupiedTripsByVehicle db v.id,
    ridesThrough (Route.getStops w.stops v.routeId) t a = true
  in_range : takenAt (Route.getStops w.stops v.routeId) seats a
    (Trip.getOccupiedTripsByVehicle db v.id) < 2 ^ 31 ∧
    0 ≤ v.maximumOccupancy ∧ v.maximumOccupancy < 2 ^ 31

instance (w : World) (db : Table Trip) (v : Vehicle) (readings : List Reading) (seats : Int)
    (a : Stop) : Decidable (Watched w db v readings seats a) :=
  decidable_of_iff' _ (watched_iff ..)

/-- Nobody rides with `v` on the leg that starts at `a`. -/
def LegFree (w : World) (db : Table Trip) (v : Vehicle) (a : Stop) : Prop :=
  ∀ t ∈ Trip.getOccupiedTripsByVehicle db v.id,
    coversLeg (Route.getStops w.stops v.routeId) t a = false

instance (w : World) (db : Table Trip) (v : Vehicle) (a : Stop) : Decidable (LegFree w db v a) :=
  inferInstanceAs (Decidable (∀ t ∈ Trip.getOccupiedTripsByVehicle db v.id, _))

/-! ## What the test sees of a leg -/

section Leg

variable {w : World} {routeId : Int}

theorem stopById_of_mem {p : Stop} {stopId : Int} (hp : p ∈ Route.getStops w.stops routeId)
    (hid : p.id = stopId) : stopById (Route.getStops w.stops routeId) stopId = .ok p := by
  refine getOr_eq_ok.mpr ?_
  cases hf : (Route.getStops w.stops routeId).find? fun s => s.id == stopId with
  | none =>
    have := List.find?_eq_none.mp hf p hp
    simp [hid] at this
  | some q =>
    have hq : q.id = stopId := by simpa using List.find?_some hf
    rw [Route.eq_of_id_eq (List.mem_of_find?_eq_some hf) hp (hq.trans hid.symm)]

variable
  (hord : (Route.getStops w.stops routeId).Pairwise fun s s' => s.stopOrder < s'.stopOrder)

include hord

/-- A ride travels the legs from its pickup and from each stop it rides through. So the table of
the availability test misses exactly one leg of a ride, the first. -/
theorem ridesThrough_iff {t : Trip} {a : Stop} :
    ridesThrough (Route.getStops w.stops routeId) t a = true ↔
      coversLeg (Route.getStops w.stops routeId) t a = true ∧ t.pickupStop ≠ a.id := by
  cases hp : stopById (Route.getStops w.stops routeId) t.pickupStop with
  | error e => simp [ridesThrough, coversLeg, hp]
  | ok p =>
    cases hd : stopById (Route.getStops w.stops routeId) t.dropoffStop with
    | error e => simp [ridesThrough, coversLeg, hp, hd]
    | ok d =>
      obtain ⟨hpmem, hpid⟩ := stopById_eq_ok hp
      obtain ⟨hdmem, -⟩ := stopById_eq_ok hd
      have hthrough : ridesThrough (Route.getStops w.stops routeId) t a = true ↔
          a ∈ getInBetweenStops (Route.getStops w.stops routeId) p d := by
        rw [ridesThrough, hp, hd]
        exact List.contains_iff_mem
      have hcovers : coversLeg (Route.getStops w.stops routeId) t a = true ↔
          Cycle.Covers (Route.getStops w.stops routeId) p d a := by
        rw [coversLeg, hp, hd]
        exact decide_eq_true_iff
      rw [hthrough, hcovers, mem_getInBetweenStops hord hpmem hdmem, ← hpid]
      -- the walk starts at the pickup, so leaving the pickup out leaves out one leg
      refine and_congr_right fun hcov => not_congr ⟨fun h => h ▸ rfl, fun h => ?_⟩
      exact (Route.eq_of_id_eq hpmem hcov.1 h).symm

/-- Where nobody boards and somebody rides through, what the test takes off covers
the load and the requested seats. -/
theorem load_add_le_takenAt {trips : List Trip} {seats : Int} {a : Stop} (hseats : 0 ≤ seats)
    (hboard : ∀ t ∈ trips, t.pickupStop ≠ a.id)
    (hsome : ∃ t ∈ trips, ridesThrough (Route.getStops w.stops routeId) t a = true) :
    ((trips.filter fun t => coversLeg (Route.getStops w.stops routeId) t a).map Trip.seats).sum
      + seats ≤ takenAt (Route.getStops w.stops routeId) seats a trips := by
  have hsame : (trips.filter fun t => coversLeg (Route.getStops w.stops routeId) t a) =
      trips.filter fun t => ridesThrough (Route.getStops w.stops routeId) t a := by
    refine List.filter_congr fun t ht => Bool.eq_iff_iff.mpr ?_
    rw [ridesThrough_iff hord, and_iff_left (hboard t ht)]
  rw [hsame, takenAt_eq]
  obtain ⟨t, ht, hr⟩ := hsome
  have hmem : t ∈ trips.filter fun t => ridesThrough (Route.getStops w.stops routeId) t a :=
    List.mem_filter.mpr ⟨ht, hr⟩
  generalize (trips.filter fun t => ridesThrough (Route.getStops w.stops routeId) t a) = riders
    at hmem
  -- one charge of the requested seats per rider, and there is a rider
  have hlen : (1 : Int) ≤ riders.length := by
    have := List.length_pos_of_mem hmem
    omega
  nlinarith

end Leg

/-! ## What a save finds -/

/-- A route has each vehicle once, so each vehicle was read once. -/
theorem reading_unique {w : World} {routeId : Int} {readings : List Reading}
    (hread : readings.map Prod.fst = Vehicle.getForRouteRaw w.vehicles routeId) {v : Vehicle}
    {trips trips' : List Trip} (h : (v, trips) ∈ readings) (h' : (v, trips') ∈ readings) :
    trips = trips' := by
  have hnodup : (readings.map Prod.fst).Nodup := by
    rw [hread]
    exact Vehicle.nodup_getForRouteRaw _ _
  have heq := List.inj_on_of_nodup_map hnodup h h' rfl
  exact congrArg Prod.snd heq

/-- The stops of a covered leg are among the stops the test asks for: those of the new ride include
its pickup, unlike those of the rides that are charged. -/
theorem mem_tripStopIds {w : World} {trip : Trip} {tm : TripMeta}
    (hord : (Route.getStops w.stops trip.routeId).Pairwise fun s s' => s.stopOrder < s'.stopOrder)
    (hof : TripMeta.of w trip = .ok tm)
    (hp : tm.pickup ∈ Route.getStops w.stops trip.routeId)
    (hd : tm.dropoff ∈ Route.getStops w.stops trip.routeId) {a : Stop}
    (ha : coversLeg (Route.getStops w.stops trip.routeId) trip a = true) :
    a.id ∈ tm.tripStopIds := by
  obtain ⟨hgetp, hgetd, hroute, -, hids⟩ := TripMeta.of_eq_ok hof
  have hpid : tm.pickup.id = trip.pickupStop := Table.key_of_get hgetp
  have hdid : tm.dropoff.id = trip.dropoffStop := Table.key_of_get hgetd
  rw [hids, hroute]
  by_cases hboard : trip.pickupStop = a.id
  · rw [hpid, hboard]
    exact List.mem_append_left _ (List.mem_append_left _ List.mem_cons_self)
  · have hthrough := (ridesThrough_iff hord).mpr ⟨ha, hboard⟩
    unfold ridesThrough at hthrough
    rw [stopById_of_mem hp hpid, stopById_of_mem hd hdid] at hthrough
    have hin := List.contains_iff_mem.mp hthrough
    exact List.mem_append_left _ (List.mem_append_right _ (List.mem_map_of_mem hin))

/-- The table that let a vehicle through is the one built from its capacity. -/
theorem table_of_available {w : World} {v : Vehicle} {pickup : Stop} {trips : List Trip}
    {seats : Int} {table : OccupancyTable} (hv : v ∈ w.vehicles.rows)
    (hroute : pickup.routeId = v.routeId)
    (h : getVehicleAvailability w v.id pickup trips seats = .ok table) :
    buildOccupancyTable (Route.getStops w.stops v.routeId) trips v.maximumOccupancy seats =
      .ok table := by
  obtain ⟨v', hget, hbuild⟩ := bind_eq_ok.mp h
  have hvv : v = v' := Table.eq_of_get (getOr_eq_ok.mp hget) hv rfl
  subst hvv
  rw [← hroute]
  exact hbuild

/-- **The test does its work on a watched leg**: the vehicle it let through has room
there for the requested seats. -/
theorem fits_of_watched {w : World} {db : Table Trip} {trip : Trip} {tm : TripMeta}
    {readings : List Reading} {v : Vehicle} {a : Stop}
    (hride : RideOn w trip.booking) (hof : TripMeta.of w trip = .ok tm)
    (hread : readings.map Prod.fst = tm.vehicles)
    (havail : getAvailableVehicles w tm trip.seats readings = .ok [v])
    (ha : coversLeg (Route.getStops w.stops v.routeId) trip a = true)
    (hmem : a ∈ Route.getStops w.stops v.routeId) (hseats : 0 ≤ trip.seats)
    (hlive : ∀ t ∈ Trip.getOccupiedTripsByVehicle db v.id, 0 ≤ t.seats)
    (hwatch : Watched w db v readings trip.seats a) :
    legLoad w db v a + trip.seats ≤ v.maximumOccupancy := by
  obtain ⟨hgetp, hgetd, -, hvehicles, -⟩ := TripMeta.of_eq_ok hof
  obtain ⟨p, hp, d, hd, hpid, hdid, -⟩ := hride
  -- the stops that were looked up are the ones of the booking
  have hpickup : p = tm.pickup := Table.eq_of_get hgetp (Route.mem_getStops.mp hp).1 hpid
  have hdropoff : d = tm.dropoff := Table.eq_of_get hgetd (Route.mem_getStops.mp hd).1 hdid
  subst hpickup hdropoff
  obtain ⟨hvrow, hvroute, -⟩ :=
    Vehicle.mem_getForRouteRaw.mp (available_onRoute hof hread havail)
  -- the live trips the test was made on are those that are there now
  obtain ⟨-, trips, table, hreading, hbuild, hpasses⟩ := available_singleton hread havail
  have htrips := reading_unique (hread.trans hvehicles) hreading hwatch.current
  subst htrips
  have hroute : tm.pickup.routeId = v.routeId := by
    rw [hvroute]
    exact (Route.mem_getStops.mp hp).2
  have hlook := buildOccupancyTable_lookup (Route.nodup_ids w.stops v.routeId)
    (table_of_available hvrow hroute hbuild) hmem
  -- so the seats left at `a` are positive, and they are what the capacity exceeds the charge by
  have hask : a.id ∈ tm.tripStopIds := by
    have hord := hwatch.ordered
    rw [hvroute] at hord ha
    exact mem_tripStopIds hord hof hp hd ha
  obtain ⟨n, hn, hpos⟩ := pos_of_tablePasses hpasses hask
  cases hlook.symm.trans hn
  have hcharge := load_add_le_takenAt hwatch.ordered hseats hwatch.no_boarding
    hwatch.some_through
  have hnonneg : ∀ t ∈ Trip.getOccupiedTripsByVehicle db v.id, 0 ≤ t.seats + trip.seats :=
    fun t ht => Int.add_nonneg (hlive t ht) hseats
  have htaken := takenAt_nonneg (Route.getStops w.stops v.routeId) a hnonneg
  obtain ⟨htop, hlow, hmax⟩ := hwatch.in_range
  rw [remaining_eq hnonneg htop hmax (by omega)] at hpos
  unfold legLoad
  omega

theorem LegFree.legLoad_eq_zero {w : World} {db : Table Trip} {v : Vehicle} {a : Stop}
    (h : LegFree w db v a) : legLoad w db v a = 0 := by
  have hnone : ((Trip.getOccupiedTripsByVehicle db v.id).filter fun t =>
      coversLeg (Route.getStops w.stops v.routeId) t a) = [] :=
    List.filter_eq_nil_iff.mpr fun t ht => by simp [h t ht]
  unfold legLoad
  rw [hnone]
  rfl

/-! ## The load as a sum over the table -/

/-- What one row adds to the load of a leg. -/
def legShare (w : World) (v : Vehicle) (a : Stop) (t : Trip) : Int :=
  if t.vehicleId = v.id ∧ t.isLive = true ∧
      coversLeg (Route.getStops w.stops v.routeId) t a = true then t.seats else 0

theorem legShare_of_not_live {w : World} {v : Vehicle} {a : Stop} {t : Trip}
    (h : t.isLive = false) : legShare w v a t = 0 := by
  unfold legShare
  rw [if_neg]
  rintro ⟨-, hlive, -⟩
  rw [h] at hlive
  cases hlive

theorem legShare_nonneg {w : World} {v : Vehicle} {a : Stop} {t : Trip} (h : 0 ≤ t.seats) :
    0 ≤ legShare w v a t := by
  unfold legShare
  split
  · exact h
  · exact le_rfl

theorem sum_map_filter {α : Type} (xs : List α) (p : α → Bool) (f : α → Int) :
    ((xs.filter p).map f).sum = (xs.map fun x => if p x then f x else 0).sum := by
  induction xs with
  | nil => rfl
  | cons x xs ih =>
    rw [List.filter_cons, List.map_cons, List.sum_cons]
    by_cases h : p x = true
    · rw [if_pos h, if_pos h, List.map_cons, List.sum_cons, ih]
    · rw [if_neg h, if_neg h, ih, zero_add]

theorem legLoad_eq_sum (w : World) (db : Table Trip) (v : Vehicle) (a : Stop) :
    legLoad w db v a = (db.rows.map (legShare w v a)).sum := by
  unfold legLoad Trip.getOccupiedTripsByVehicle Table.fetch
  rw [List.filter_filter, sum_map_filter]
  refine congrArg List.sum (List.map_congr_left fun t _ => ?_)
  unfold legShare
  by_cases h : t.vehicleId = v.id ∧ t.isLive = true ∧
      coversLeg (Route.getStops w.stops v.routeId) t a = true
  · rw [if_pos h, if_pos (by simp [h])]
  · rw [if_neg h, if_neg]
    intro hc
    rw [Bool.and_eq_true, Bool.and_eq_true, beq_iff_eq] at hc
    exact h ⟨hc.2.1, hc.2.2, hc.1⟩

theorem legLoad_update (w : World) {db : Table Trip} (row : Trip) {t : Trip}
    (h : db.get row.id = some t) (v : Vehicle) (a : Stop) :
    legLoad w (db.update row) v a = legLoad w db v a - legShare w v a t + legShare w v a row := by
  rw [legLoad_eq_sum, legLoad_eq_sum]
  exact Table.sum_update h _

theorem legLoad_insert (w : World) (db : Table Trip) (row : Trip) (hdead : row.isLive = false)
    (v : Vehicle) (a : Stop) : legLoad w (db.insert row) v a = legLoad w db v a := by
  have hshare : legShare w v a (Keyed.withKey row db.nextKey) = 0 := legShare_of_not_live hdead
  rw [legLoad_eq_sum, legLoad_eq_sum, Table.sum_insert, hshare, add_zero]

/-! ## Which steps keep the seats -/

/-- The match that the next step of a thread saves, with what was read to find it. -/
def Task.saves : Task → Option (Trip × List Reading)
  | .save trip readings => some (trip, readings)
  | _ => none

/-- A match is saved only where the seats fit: on each leg of its ride the test watches, or
nobody rides and the vehicle has the booked seats. -/
def SeatsFit (w : World) (s : Sys) (l : Label) : Prop :=
  ∀ thread ∈ s.running l, ∀ found ∈ thread.2.saves,
    ∀ v ∈ w.vehicles.rows, v.id = found.1.vehicleId →
      ∀ a ∈ Route.getStops w.stops v.routeId,
        coversLeg (Route.getStops w.stops v.routeId) found.1 a = true →
        Watched w s.trips v found.2 found.1.seats a ∨
          (LegFree w s.trips v a ∧ found.1.seats ≤ v.maximumOccupancy)

instance (w : World) (s : Sys) (l : Label) : Decidable (SeatsFit w s l) :=
  inferInstanceAs (Decidable (∀ thread ∈ s.running l, ∀ found ∈ thread.2.saves, _))

/-- Ending a trip takes its seats off, and they are not negative. -/
theorem noOverbooking_close {w : World} {db : Table Trip} {row : Trip}
    (hdead : row.isLive = false) (hag : Agrees db [row])
    (hnonneg : ∀ t ∈ db.rows, 0 ≤ t.seats) (hok : NoOverbooking w db) :
    NoOverbooking w (db.update row) := by
  obtain ⟨t, hget, -⟩ := hag row List.mem_cons_self
  intro v hv a ha
  have hle := hok v hv a ha
  have hshare : 0 ≤ legShare w v a t := legShare_nonneg (hnonneg t (Table.mem_of_get hget))
  rw [legLoad_update w row hget, legShare_of_not_live hdead]
  omega

/-- Saving a match adds its seats, on the legs of its ride and nowhere else. The row that it
replaces was not live, so nothing is taken off. -/
theorem noOverbooking_save {w : World} {db : Table Trip} (trip : Trip) {t : Trip} {now : Int}
    (hget : db.get trip.id = some t) (hdead : t.isLive = false)
    (hfit : ∀ v ∈ w.vehicles.rows, v.id = trip.vehicleId →
      ∀ a ∈ Route.getStops w.stops v.routeId,
        coversLeg (Route.getStops w.stops v.routeId) trip a = true →
        legLoad w db v a + trip.seats ≤ v.maximumOccupancy)
    (hok : NoOverbooking w db) : NoOverbooking w (db.update (stamped trip.unprocessed now)) := by
  intro v hv a ha
  have hload : legLoad w (db.update (stamped trip.unprocessed now)) v a =
      legLoad w db v a + legShare w v a trip := by
    rw [legLoad_update w (stamped trip.unprocessed now) hget, legShare_of_not_live hdead, sub_zero]
    rfl
  rw [hload]
  by_cases hc : trip.vehicleId = v.id ∧ trip.isLive = true ∧
      coversLeg (Route.getStops w.stops v.routeId) trip a = true
  · rw [legShare, if_pos hc]
    exact hfit v hv hc.1.symm a ha hc.2.2
  · rw [legShare, if_neg hc, add_zero]
    exact hok v hv a ha

/-- **A transition keeps the seats** if its saves are on watched and free legs. A save is the only
write that can put more seats on a leg, and the worker that saves has read the vehicle's trips
before. -/
theorem NoOverbooking.step {w : World} {s s' : Sys} {l : Label} (hok : NoOverbooking w s.trips)
    (h : Wf w (SeatedRide w) Ending s) (hq : Quiet s) (hs : s.Steps w l s')
    (hfit : SeatsFit w s l) : NoOverbooking w s'.trips := by
  have hnonneg : ∀ t ∈ s.trips.rows, 0 ≤ t.seats := fun t ht => (h.rows_booked t ht).2
  -- nothing is written, a trip ends, a booking is inserted, or a match is saved
  rcases live_writes h hs with htrips | ⟨row, hdead, hag, htrips⟩ |
    ⟨env, b, created, -, htrips⟩ | ⟨i, env, wk, trip, readings, rfl, hw, hk, -, htrips⟩
  · rw [htrips]
    exact hok
  · rw [htrips]
    exact noOverbooking_close hdead.1 hag hnonneg hok
  · rw [htrips]
    intro v hv a ha
    rw [legLoad_insert w s.trips _ rfl]
    exact hok v hv a ha
  · have hmem : wk ∈ s.workers := List.mem_of_getElem? hw
    have hrun : s.running (.worker i env) = some (env, .save trip readings) :=
      hk ▸ Sys.running_worker env hw
    obtain ⟨hphase, tm, v, eta, geom, rfl, hof, hread, havail⟩ := (h.workers_at wk hmem).save hk
    obtain ⟨t, hget, hbook⟩ := h.workers_agree wk hmem wk.trip List.mem_cons_self
    -- a trip that is being matched is not live, so the save adds its seats
    have hdead : t.isLive = false := by
      refine hq t (Table.mem_of_get hget) (Sys.handling_iff.mpr ⟨hphase, wk, hmem, ?_, ?_⟩)
      · exact (Table.key_of_get hget).symm
      · rw [hk]
        rfl
    have hride : SeatedRide w wk.trip.booking := hbook ▸ h.rows_booked t (Table.mem_of_get hget)
    rw [htrips]
    refine noOverbooking_save (wk.trip.assigned v eta geom) hget hdead ?_ hok
    intro v' hv' hid a ha hcov
    rcases hfit _ hrun _ rfl v' hv' hid a ha hcov with hwatch | ⟨hfree, hle⟩
    · have hv := (Vehicle.mem_getForRouteRaw.mp (available_onRoute hof hread havail)).1
      have hvv : v' = v := Table.eq_of_key_eq hv' hv hid
      subst hvv
      refine fits_of_watched hride.1 hof hread havail hcov ha hride.2 (fun t ht => ?_) hwatch
      exact hnonneg t (List.mem_of_mem_filter ht)
    · rw [hfree.legLoad_eq_zero, zero_add]
      exact hle

/-! ## Whole runs -/

/-- Vehicles that drive a route with stops have no negative capacity. -/
def SeatsNonneg (w : World) : Prop :=
  ∀ v ∈ w.vehicles.rows, Route.getStops w.stops v.routeId ≠ [] → 0 ≤ v.maximumOccupancy

instance (w : World) : Decidable (SeatsNonneg w) :=
  inferInstanceAs (Decidable (∀ v ∈ w.vehicles.rows, _))

/-- Without trips, every leg is empty. -/
theorem noOverbooking_init {w : World} (h : SeatsNonneg w) : NoOverbooking w Sys.init.trips :=
  fun v hv _ ha => h v hv (List.ne_nil_of_mem ha)

/-- **When seats are not overbooked.** In a run of bookings, ticks and updates that end trips, no
vehicle is ever overbooked if no vehicle has a negative capacity, no booking is for a negative
number of seats, and every match is saved on legs that the availability test watches or that
nobody rides and the booked seats fit. -/
theorem noOverbooking_of_meets {w : World} {run : List Label} (hfleet : SeatsNonneg w)
    (hdom : ∀ l ∈ run, l.Within (SeatedRide w) Ending)
    (hfit : Run.Meets (Sys.step w) (SeatsFit w) Sys.init run) :
    Run.Throughout (Sys.step w) (fun s => NoOverbooking w s.trips) Sys.init run := by
  have hwithin : Run.Meets (Sys.step w) (fun _ l => l.Within (SeatedRide w) Ending) Sys.init run :=
    Run.meets_of_forall (fun l hl _ => hdom l hl) Sys.init
  refine Run.throughout_of_meets
    (I := fun s => Wf w (SeatedRide w) Ending s ∧ Quiet s ∧ NoOverbooking w s.trips) ?_ ?_
    ⟨wf_init, quiet_init, noOverbooking_init hfleet⟩ (hwithin.and hfit)
  · rintro s l s' hs ⟨hl, hfit⟩ ⟨hwf, hq, hok⟩
    have hsteps := Sys.step_steps hs
    exact ⟨hwf.step hsteps hl, hq.step hwf hsteps, hok.step hwf hq hsteps hfit⟩
  · exact fun s hs => hs.2.2

/-- A booking for `seats` seats and the tick that matches it. -/
def matchedRide (seats : Int) : List Label :=
  Town.served 0 2 (.bookTrip (Town.ride 5 seats)) ++ [.tick] ++ Town.worked 0 7

/-- One passenger rides from the third stop over the first to the second, and another from the
first to the second, with the driver where each of them can be matched. -/
def sharedLeg : List Label :=
  let env : Env := { Town.env 0 with
    getCurrentForUser := fun _ => some ⟨0, 11 / 10⟩, getClosestStop := fun _ => some 1 }
  Town.served 0 2 (.bookTrip { Town.ride 5 1 with pickupStop := 3 }) ++ [.tick] ++
    List.replicate 7 (.worker 0 env) ++ [.sweep 0, .rest] ++
    Town.served 1 2 (.bookTrip (Town.ride 6 1)) ++ [.tick] ++ Town.worked 0 7

/-- Both are matched, and the leg they share is never overbooked. -/
theorem noOverbooking_sharedLeg :
    (Run.exec (Sys.step (Town.world [Town.van 9 3])) Sys.init sharedLeg).any
        (fun s => s.trips.rows.length = 2 && s.trips.rows.all Trip.isLive) = true ∧
      Run.Throughout (Sys.step (Town.world [Town.van 9 3]))
        (fun s => NoOverbooking (Town.world [Town.van 9 3]) s.trips) Sys.init sharedLeg :=
  ⟨by decide, noOverbooking_of_meets (by decide) (by decide) (by decide)⟩

/-- Five seats booked on a vehicle with one: the empty vehicle's table is one
everywhere, which is positive. -/
theorem overbooked_by_one_booking :
    ∃ (w : World) (run : List Label) (s : Sys), SeatsNonneg w ∧
      (∀ l ∈ run, l.Within (RideOn w) Ending) ∧
      Run.exec (Sys.step w) Sys.init run = some s ∧ ¬ NoOverbooking w s.trips := by
  have hrun : (Run.exec (Sys.step (Town.world [Town.van 9 1])) Sys.init (matchedRide 5)).any
      (fun s => !decide (NoOverbooking (Town.world [Town.van 9 1]) s.trips)) = true := by decide
  obtain ⟨s, hs, hover⟩ := (Option.any_eq_true _ _).mp hrun
  exact ⟨Town.world [Town.van 9 1], matchedRide 5, s, by decide, by decide, hs,
    by simpa using hover⟩

end Maiden
