import Maiden.Seats.Exact

/-!
# Is availability monotone?

A vehicle that passes the test for a request should pass it for less: fewer seats, a ride
within the ride, some of its live trips gone. At each stop less is charged then
(`takenAt_mono`), and the stops of the smaller ride are among those of the larger one
(`rideStops_subset`), so that in exact arithmetic the test is monotone.

The code counts in `Int`s. Charges that add up to more than an `Int` holds may wrap around to
a positive number of seats, and then the vehicle passes although it is full: without some of
the trips, or for fewer seats, it does not (`exists_full`). `monotone_iff` says that this is the
only way in which the test fails to be monotone.
-/

namespace Maiden

/-- The ride from `p'` to `d'` lies within the one from `p` to `d`: it travels none but legs
of it. -/
def Within (stops : List Stop) (p d p' d' : Stop) : Prop :=
  ∀ a, Cycle.Covers stops p' d' a → Cycle.Covers stops p d a

/-! ## Less is charged for less -/

section

variable {stops : List Stop} {s : Stop} {seats seats' : Int}

theorem takenAt_mono (stops : List Stop) (s : Stop) {trips trips' : List Trip}
    (hle : seats' ≤ seats) (hseats : 0 ≤ seats)
    (hsub : trips'.Sublist trips) (hpos : ∀ t ∈ trips, 0 ≤ t.seats) :
    takenAt stops seats' s trips' ≤ takenAt stops seats s trips := by
  induction hsub with
  | slnil => exact le_refl _
  | @cons trips' trips t _ ih =>
    have hrest := ih fun t' ht' => hpos t' (List.mem_cons_of_mem t ht')
    have ht := hpos t List.mem_cons_self
    rw [takenAt_cons]
    split <;> omega
  | @cons_cons trips' trips t _ ih =>
    have hrest := ih fun t' ht' => hpos t' (List.mem_cons_of_mem t ht')
    rw [takenAt_cons, takenAt_cons]
    split <;> omega

/-- What one trip that rides through takes is part of the charge. -/
theorem seats_le_takenAt {trips : List Trip} {seats : Int}
    (hpos : ∀ t ∈ trips, 0 ≤ t.seats + seats) {t : Trip}
    (ht : t ∈ trips) (hr : ridesThrough stops t s = true) :
    t.seats + seats ≤ takenAt stops seats s trips := by
  induction trips with
  | nil => cases ht
  | cons t' trips ih =>
    have htail : ∀ t ∈ trips, 0 ≤ t.seats + seats := fun x hx => hpos x (List.mem_cons_of_mem t' hx)
    rw [takenAt_cons]
    rcases List.mem_cons.mp ht with rfl | ht
    · have hrest := takenAt_nonneg stops s htail
      rw [if_pos hr]
      omega
    · have hrest := ih htail ht
      have hhead := hpos t' List.mem_cons_self
      split <;> omega

/-! ## Where the charge reaches the occupancy -/

/-- Some first trips take the seats, and not many more than that: each trip takes less than
`bound`, so the sum cannot jump over the occupancy by more. -/
theorem exists_prefix {bound : Int} {trips : List Trip} (hbound : 0 < bound)
    (hlt : ∀ t ∈ trips, ridesThrough stops t s = true → t.seats + seats < bound) :
    ∀ {occupancy : Int}, 0 < occupancy → occupancy ≤ takenAt stops seats s trips →
      ∃ k, occupancy ≤ takenAt stops seats s (trips.take k) ∧
        takenAt stops seats s (trips.take k) < occupancy + bound := by
  induction trips with
  | nil =>
    intro occupancy hpos hle
    have hzero : takenAt stops seats s [] = 0 := rfl
    omega
  | cons t trips ih =>
    intro occupancy hpos hle
    have hhead : (if ridesThrough stops t s then t.seats + seats else 0) < bound := by
      split
      · next hr => exact hlt t List.mem_cons_self hr
      · exact hbound
    rw [takenAt_cons] at hle
    by_cases hfirst : occupancy ≤ if ridesThrough stops t s then t.seats + seats else 0
    · -- the first trip alone is enough
      have hone : takenAt stops seats s [t] =
          if ridesThrough stops t s then t.seats + seats else 0 := by
        rw [takenAt_cons]
        exact add_zero _
      refine ⟨1, ?_⟩
      rw [List.take_one, List.head?_cons, Option.toList_some, hone]
      omega
    · -- it is not, and the others have to take what is left
      have hrest : 0 < occupancy - if ridesThrough stops t s then t.seats + seats else 0 := by omega
      obtain ⟨k, hlo, hhi⟩ := ih (fun x hx => hlt x (List.mem_cons_of_mem t hx)) hrest (by omega)
      refine ⟨k + 1, ?_⟩
      rw [List.take_succ_cons, takenAt_cons]
      omega

/-- **A full stop shows for less.** If the trips take all the seats at a stop, there is a
number of seats and there are some first trips for which the `Int` shows it. -/
theorem exists_full {trips : List Trip} {occupancy : Int} (hseats : 0 ≤ seats)
    (hpos : ∀ t ∈ trips, 0 ≤ t.seats ∧ t.seats < 2 ^ 31)
    (hocc : -2 ^ 31 ≤ occupancy ∧ occupancy < 2 ^ 31)
    (hfull : occupancy ≤ takenAt stops seats s trips) :
    ∃ seats' k, 0 ≤ seats' ∧ seats' ≤ seats ∧
      int32 (occupancy - takenAt stops seats' s (trips.take k)) ≤ 0 := by
  by_cases hzero : occupancy ≤ 0
  · refine ⟨0, 0, le_refl 0, hseats, ?_⟩
    have hnone : takenAt stops 0 s (trips.take 0) = 0 := rfl
    rw [hnone, sub_zero, int32_of_range hocc.1 hocc.2]
    exact hzero
  -- the least number of seats for which the trips take everything
  have hex : ∃ m : Nat, occupancy ≤ takenAt stops m s trips :=
    ⟨seats.toNat, by rwa [Int.toNat_of_nonneg hseats]⟩
  classical
  let m := Nat.find hex
  have hm : occupancy ≤ takenAt stops m s trips := Nat.find_spec hex
  have hmle : (m : Int) ≤ seats := by
    have := Nat.find_min' hex (m := seats.toNat) (by rwa [Int.toNat_of_nonneg hseats])
    omega
  -- so no trip takes more than an `Int`
  have hlt : ∀ t ∈ trips, ridesThrough stops t s = true → t.seats + m < 2 ^ 31 := by
    intro t ht hr
    have hrange := hpos t ht
    by_cases hm0 : m = 0
    · rw [hm0]
      omega
    · have hless : takenAt stops ((m - 1 : Nat) : Int) s trips < occupancy :=
        not_le.mp (Nat.find_min hex (m := m - 1) (by omega))
      have hnonneg : ∀ t ∈ trips, 0 ≤ t.seats + ((m - 1 : Nat) : Int) := fun t ht =>
        add_nonneg (hpos t ht).1 (Int.natCast_nonneg _)
      have hpart := seats_le_takenAt hnonneg ht hr
      omega
  obtain ⟨k, hlo, hhi⟩ := exists_prefix (by decide) hlt (by omega) hm
  refine ⟨m, k, Int.natCast_nonneg m, hmle, ?_⟩
  rw [int32_of_range (by omega) (by omega)]
  omega

end

/-! ## The stops of a smaller ride -/

section

variable {w : World} {routeId : Int} {p d p' d' : Stop}
  (hord : (Route.getStops w.stops routeId).Pairwise fun s s' => s.stopOrder < s'.stopOrder)
  (hp : p ∈ Route.getStops w.stops routeId) (hd : d ∈ Route.getStops w.stops routeId)

include hord hp hd

theorem mem_rideStops (hne : p ≠ d) {s : Stop} :
    s ∈ rideStops (Route.getStops w.stops routeId) p d ↔
      Cycle.Covers (Route.getStops w.stops routeId) p d s ∨ s = d := by
  rw [covers_iff_mem hord hp hd hne, rideStops, List.mem_append, List.mem_singleton]
  rfl

theorem rideStops_subset (hne : p ≠ d) (hp' : p' ∈ Route.getStops w.stops routeId)
    (hd' : d' ∈ Route.getStops w.stops routeId) (hne' : p' ≠ d')
    (hwithin : Within (Route.getStops w.stops routeId) p d p' d') {s : Stop}
    (hs : s ∈ rideStops (Route.getStops w.stops routeId) p' d') :
    s ∈ rideStops (Route.getStops w.stops routeId) p d := by
  rw [mem_rideStops hord hp hd hne]
  rcases (mem_rideStops hord hp' hd' hne').mp hs with hcov | rfl
  · exact Or.inl (hwithin s hcov)
  · exact (Cycle.end_of_covers (Cycle.nodup_of_ranked hord) hp hd hp' hd' hne' hwithin).symm

end

/-! ## The test -/

/-- A vehicle that passes for the request passes for every smaller one: at most as many
seats, a ride within its ride, some of the live trips. -/
def MonotoneAt (w : World) (v : Vehicle) (trips : List Trip) (trip : Trip) (p d : Stop) : Prop :=
  vehiclePasses w v trips trip = .ok true →
    ∀ (trips' : List Trip) (trip' : Trip) (p' d' : Stop), trips'.Sublist trips →
      trip'.routeId = trip.routeId → RideOf w trip' p' d' → p' ≠ d' →
      Within (Route.getStops w.stops trip.routeId) p d p' d' →
      0 ≤ trip'.seats → trip'.seats ≤ trip.seats → vehiclePasses w v trips' trip' = .ok true

/-- If the seats left are positive as `Int`s at all stops of the ride, they are so in exact
arithmetic. -/
def ExactlyPositive (stops : List Stop) (trips : List Trip) (occupancy seats : Int) (p d : Stop) :
    Prop :=
  (∀ s ∈ rideStops stops p d, 0 < int32 (occupancy - takenAt stops seats s trips)) →
    ∀ s ∈ rideStops stops p d, takenAt stops seats s trips < occupancy

instance (stops : List Stop) (trips : List Trip) (occupancy seats : Int) (p d : Stop) :
    Decidable (ExactlyPositive stops trips occupancy seats p d) :=
  inferInstanceAs (Decidable ((∀ s ∈ rideStops stops p d, _) → ∀ s ∈ rideStops stops p d, _))

/-- **Availability is monotone.** For every route with distinct orders, every stored vehicle,
all live trips between stops of the route and every request between two different stops of
it, with non-negative seat counts: the test is monotone there if and only if no sum wraps
around to a positive number of seats. -/
theorem monotone_iff {w : World} {trip : Trip} {p d : Stop}
    (h : DistinctOrders trip.routeId w.stops) (hride : RideOf w trip p d) (hne : p ≠ d)
    {v : Vehicle} (hv : v ∈ w.vehicles.rows)
    (hocc : -2 ^ 31 ≤ v.maximumOccupancy ∧ v.maximumOccupancy < 2 ^ 31) {trips : List Trip}
    (htrips : ∀ t ∈ trips, OnStops (Route.getStops w.stops trip.routeId) t)
    (hlive : ∀ t ∈ trips, 0 ≤ t.seats ∧ t.seats < 2 ^ 31) (hseats : 0 ≤ trip.seats) :
    MonotoneAt w v trips trip p d ↔
      ExactlyPositive (Route.getStops w.stops trip.routeId) trips v.maximumOccupancy trip.seats
        p d := by
  have hord := pairwise_getStops h
  -- the test, for any smaller request on the route
  have hpasses : ∀ {trips' : List Trip} {trip' : Trip} {p' d' : Stop}, RideOf w trip' p' d' →
      trip'.routeId = trip.routeId → trips'.Sublist trips →
      (vehiclePasses w v trips' trip' = .ok true ↔
        ∀ s ∈ rideStops (Route.getStops w.stops trip.routeId) p' d',
          0 < int32 (v.maximumOccupancy -
            takenAt (Route.getStops w.stops trip.routeId) trip'.seats s trips')) := by
    intro trips' trip' p' d' hride' hroute hsub
    rw [vehiclePasses_eq hride' hv hocc fun t ht => hroute ▸ htrips t (hsub.subset ht), hroute,
      Except.ok.injEq, List.all_eq_true]
    simp only [decide_eq_true_eq]
  constructor
  · intro hmono hpos s hs
    by_contra hfull
    obtain ⟨seats', k, hlo, hhi, hshown⟩ := exists_full hseats hlive hocc (not_lt.mp hfull)
    have hride' : RideOf w { trip with seats := seats' } p d :=
      ⟨hride.pickup_mem, hride.dropoff_mem, hride.pickup_id, hride.dropoff_id⟩
    have hless := hmono ((hpasses hride rfl (List.Sublist.refl _)).mpr hpos) (trips.take k)
      { trip with seats := seats' } p d (List.take_sublist k trips) rfl hride' hne
      (fun _ hcov => hcov) hlo hhi
    have hstop := (hpasses hride' rfl (List.take_sublist k trips)).mp hless s hs
    exact absurd hstop (not_lt.mpr hshown)
  · intro hexact hpass trips' trip' p' d' hsub hroute hride' hne' hwithin hlo hhi
    refine (hpasses hride' hroute hsub).mpr fun s hs => ?_
    have hs' := rideStops_subset hord hride.pickup_mem hride.dropoff_mem hne
      (hroute ▸ hride'.pickup_mem) (hroute ▸ hride'.dropoff_mem) hne' hwithin hs
    have hroom := hexact ((hpasses hride rfl (List.Sublist.refl _)).mp hpass) s hs'
    have hmono := takenAt_mono (Route.getStops w.stops trip.routeId) s hhi hseats hsub
      fun t ht => (hlive t ht).1
    have hnonneg := takenAt_nonneg (Route.getStops w.stops trip.routeId) s
      fun t ht => add_nonneg (hlive t (hsub.subset ht)).1 hlo
    rw [int32_of_range (by omega) (by omega)]
    omega

/-! ## A crowded line -/

namespace Line

/-- Three stops, and a vehicle of four. -/
def world : World := Town.world [Town.van 7 4]

/-- A ride along the whole line. -/
def ride (seats : Int) : Trip :=
  { routeId := 1, pickupStop := 1, dropoffStop := 3, seats, reservationTime := 0,
    createdAt := none, updatedAt := none }

def first : Stop := { Town.stop 1 1 ['3', 'F', 'F'] with id := 1 }

def last : Stop := { Town.stop 1 3 ['4', '0', '0', '8'] with id := 3 }

theorem rideOf_ride (seats : Int) : RideOf world (ride seats) first last := by
  constructor
  · show first ∈ Route.getStops world.stops 1
    decide
  · show last ∈ Route.getStops world.stops 1
    decide
  · rfl
  · rfl

end Line

/-- With two seats taken, asking for one is monotone. -/
theorem monotone_line : vehiclePasses Line.world { Town.van 7 4 with id := 1 } [Line.ride 2]
      (Line.ride 1) = .ok true ∧
    MonotoneAt Line.world { Town.van 7 4 with id := 1 } [Line.ride 2] (Line.ride 1) Line.first
      Line.last :=
  ⟨by decide, (monotone_iff (v := { Town.van 7 4 with id := 1 }) (by decide) (Line.rideOf_ride 1)
    (by decide) (by decide) (by decide) (by decide) (by decide) (by decide)).mpr (by decide)⟩

/-- Two trips of 2147483647 seats each, and one seat requested: 2 * 2147483648 is taken off the
four seats, which leaves four. When one of the trips ends, the vehicle is full. -/
theorem full_when_trip_ends :
    vehiclePasses Line.world { Town.van 7 4 with id := 1 }
        [Line.ride 2147483647, Line.ride 2147483647] (Line.ride 1) = .ok true ∧
      vehiclePasses Line.world { Town.van 7 4 with id := 1 } [Line.ride 2147483647] (Line.ride 1) =
        .ok false := by
  decide

end Maiden
