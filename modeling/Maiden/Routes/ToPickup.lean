import Maiden.Models.Location
import Maiden.Routes.CyclicWalk

/-!
# Where is the driver's eta computed to?

The time until a driver arrives is asked of the routing service for a list of stops. It should
be the way of the trip's own route from the stop that is closest to the driver up to the
pickup (`GoesToPickup`). Both places that ask take the stops *between* a closest stop, found
among the stops of all routes, and the pickup, and `getInBetweenStops` leaves out both its
ends: the eta is that of the stop before the pickup, and from the neighbouring stop it is asked
for no destination at all.

A position report makes one exception, for a pickup that is itself the closest stop.
`destinations_iff` says that this is the only case in which its list can be right, and that
the list of `getDriverEta` never is.
-/

namespace Maiden

/-- The stop of the route that is closest, or one of them. -/
def IsNearest (routeStops : List Stop) (distance : Stop → Nat) (c : Stop) : Prop :=
  c ∈ routeStops ∧ ∀ s ∈ routeStops, distance c ≤ distance s

/-- The stops on the way from `c` to the pickup, with the pickup and without `c`; only the
pickup if the way starts there. -/
def LeadsTo (routeStops : List Stop) (c pickup : Stop) (stops : List Stop) : Prop :=
  (c = pickup ∧ stops = [pickup]) ∨
    (c ≠ pickup ∧ ∃ between, Cycle.Walk routeStops pickup c between ∧ stops = between ++ [pickup])

/-- The destinations as they should be, for given distances from the driver. -/
def GoesToPickup (routeStops : List Stop) (distance : Stop → Nat) (pickup : Stop)
    (stops : List Stop) : Prop :=
  ∃ c, IsNearest routeStops distance c ∧ LeadsTo routeStops c pickup stops

section

variable {routeStops stops : List Stop} {c pickup : Stop} {distance : Stop → Nat}

theorem LeadsTo.mem (h : LeadsTo routeStops c pickup stops) : pickup ∈ stops := by
  rcases h with ⟨-, rfl⟩ | ⟨-, between, -, rfl⟩
  · exact List.mem_singleton_self _
  · exact List.mem_append_right _ (List.mem_singleton_self _)

theorem GoesToPickup.mem (h : GoesToPickup routeStops distance pickup stops) : pickup ∈ stops := by
  obtain ⟨c, -, hleads⟩ := h
  exact hleads.mem

/-- The end of a ride is not between its ends. -/
theorem not_mem_getInBetweenStops (routeStops : List Stop) (c pickup : Stop) :
    pickup ∉ getInBetweenStops routeStops c pickup := by
  intro h
  obtain ⟨-, hafter | hwrap⟩ := mem_getInBetweenStops_iff.mp h <;> omega

/-- The pickup alone leads there from itself and from the stop before it. -/
theorem leadsTo_singleton_iff :
    LeadsTo routeStops c pickup [pickup] ↔ c = pickup ∨ Cycle.next routeStops c = pickup := by
  constructor
  · rintro (⟨rfl, -⟩ | ⟨-, between, hwalk, hstops⟩)
    · exact Or.inl rfl
    · obtain rfl : between = [] := List.append_left_eq_self.mp hstops.symm
      cases hwalk with
      | arrive hnext => exact Or.inr hnext
  · intro h
    by_cases hc : c = pickup
    · exact Or.inl ⟨hc, rfl⟩
    · exact Or.inr ⟨hc, [], .arrive (h.resolve_left hc), rfl⟩

/-- What is missing is the pickup: behind it the list would lead there, from every stop of
the route. -/
theorem leadsTo_append {table : Table Stop} {routeId : Int}
    (hdistinct : DistinctOrders routeId table) (hc : c ∈ Route.getStops table routeId)
    (hp : pickup ∈ Route.getStops table routeId) :
    LeadsTo (Route.getStops table routeId) c pickup
      (getInBetweenStops (Route.getStops table routeId) c pickup ++ [pickup]) := by
  by_cases hne : c = pickup
  · subst hne
    refine Or.inl ⟨rfl, ?_⟩
    rw [getInBetweenStops, if_pos rfl, List.nil_append]
  · exact Or.inr ⟨hne, _, walk_inBetween (pairwise_getStops hdistinct) hc hp hne, rfl⟩

end

section

variable {w : World} {env : Env} {latLng : Stop → Position} {gps : GpsLocation} {t : Trip}
  {pickup : Stop} {r : EtaRequest} {allowance : Int}

/-- The stops that `getDriverEta` asks for. -/
theorem Trip.etaRequest_stops (hpickup : w.stops.get t.pickupStop = some pickup)
    (h : t.etaRequest w env = .ok r) :
    ∃ c, r.stops = getInBetweenStops (Route.getStops w.stops t.routeId) c pickup := by
  obtain ⟨vLoc, -, h⟩ := bind_eq_ok.mp h
  obtain ⟨closest, -, h⟩ := bind_eq_ok.mp h
  obtain ⟨c, -, h⟩ := bind_eq_ok.mp h
  obtain ⟨pickup', hpickup', h⟩ := bind_eq_ok.mp h
  obtain ⟨locs, -, h⟩ := bind_eq_ok.mp h
  obtain rfl : pickup' = pickup := Option.some.inj ((getOr_eq_ok.mp hpickup').symm.trans hpickup)
  exact ⟨c, by rw [← Except.ok.inj h]⟩

/-- The stops that a position report asks for. -/
theorem GpsLocation.etaRequest_stops (hpickup : w.stops.get t.pickupStop = some pickup)
    (h : etaRequest latLng w env gps t = .ok (r, allowance)) :
    (env.getClosestStop gps.position = some pickup.id ∧ r.stops = [pickup]) ∨
      (env.getClosestStop gps.position ≠ some pickup.id ∧
        ∃ c, r.stops = getInBetweenStops (Route.getStops w.stops t.routeId) c pickup) := by
  obtain ⟨closest, hclosest, h⟩ := bind_eq_ok.mp h
  obtain ⟨pickup', hpickup', h⟩ := bind_eq_ok.mp h
  obtain rfl : pickup' = pickup := Option.some.inj ((getOr_eq_ok.mp hpickup').symm.trans hpickup)
  rw [getOr_eq_ok.mp hclosest]
  by_cases hid : closest = pickup'.id
  · rw [if_pos hid] at h
    refine Or.inl ⟨by rw [hid], ?_⟩
    rw [← (Prod.mk.inj (Except.ok.inj h)).1]
  · rw [if_neg hid] at h
    obtain ⟨c, -, h⟩ := bind_eq_ok.mp h
    obtain ⟨locs, -, h⟩ := bind_eq_ok.mp h
    refine Or.inr ⟨fun heq => hid (Option.some.inj heq), c, ?_⟩
    rw [← (Prod.mk.inj (Except.ok.inj h)).1]

variable (env latLng gps) in
/-- **The destinations of the eta.** For every set of stops, every trip, every position and all
distances from it: the stops that `getDriverEta` asks for are never the way to the pickup; those
that a position report asks for are if and only if the pickup is what `getClosestStop` returns
and the nearest stop of the route is the pickup or the stop before it. -/
theorem destinations_iff (distance : Stop → Nat)
    (hpickup : w.stops.get t.pickupStop = some pickup) :
    (∀ r, t.etaRequest w env = .ok r →
      ¬ GoesToPickup (Route.getStops w.stops t.routeId) distance pickup r.stops) ∧
    ∀ r allowance, GpsLocation.etaRequest latLng w env gps t = .ok (r, allowance) →
      (GoesToPickup (Route.getStops w.stops t.routeId) distance pickup r.stops ↔
        env.getClosestStop gps.position = some pickup.id ∧
          ∃ c, IsNearest (Route.getStops w.stops t.routeId) distance c ∧
            (c = pickup ∨ Cycle.next (Route.getStops w.stops t.routeId) c = pickup)) := by
  -- the stops in between never include the stop that they lead to
  have hwrong : ∀ c, ¬ GoesToPickup (Route.getStops w.stops t.routeId) distance pickup
      (getInBetweenStops (Route.getStops w.stops t.routeId) c pickup) := fun c hgoes =>
    not_mem_getInBetweenStops _ c pickup hgoes.mem
  constructor
  · intro r h
    obtain ⟨c, hstops⟩ := Trip.etaRequest_stops hpickup h
    rw [hstops]
    exact hwrong c
  · intro r allowance h
    rcases GpsLocation.etaRequest_stops hpickup h with ⟨hclosest, hstops⟩ | ⟨hother, c, hstops⟩
    · rw [hstops, and_iff_right hclosest]
      exact exists_congr fun c => and_congr_right fun _ => leadsTo_singleton_iff
    · rw [hstops]
      exact iff_of_false (hwrong c) fun ⟨hclosest, _⟩ => hother hclosest

end

/-- A point of the town a little behind the given stop. -/
def behind (stop : Int) : Position := ⟨0, stop + 1 / 10⟩

/-- The distances of the stops from that point, in tenths of a degree. -/
def distanceFrom (stop : Int) (s : Stop) : Nat := (10 * (s.id - stop) - 1).natAbs

/-- The drivers are at that point, and the stop is the closest. -/
def driverAt (stop : Int) : Env :=
  { Town.env 0 with
    getCurrentForUser := fun _ => some (behind stop)
    getClosestStop := fun _ => some stop }

/-- The second stop of the town. -/
def secondStop : Stop := { Town.stop 1 2 ['4'] with id := 2 }

/-- A trip that starts there. -/
def secondStopTrip : Trip :=
  { id := 1, driverId := 9, routeId := 1, pickupStop := 2, reservationTime := 0,
    createdAt := none, updatedAt := none }

/-- A driver close to the pickup: the report asks for the pickup, `getDriverEta` for nothing. -/
theorem destinations_at_pickup :
    (∃ r, secondStopTrip.etaRequest (Town.world []) (driverAt 2) = .ok r ∧
      ¬ GoesToPickup (Route.getStops Town.stops 1) (distanceFrom 2) secondStop r.stops) ∧
    ∃ r, GpsLocation.etaRequest (fun _ => ⟨0, 2⟩) (Town.world []) (driverAt 2) ⟨9, 1, behind 2⟩
        secondStopTrip = .ok (r, 0) ∧
      GoesToPickup (Route.getStops Town.stops 1) (distanceFrom 2) secondStop r.stops := by
  have hpickup : (Town.world []).stops.get secondStopTrip.pickupStop = some secondStop := by decide
  have hall := destinations_iff (driverAt 2) (fun _ => ⟨0, 2⟩) ⟨9, 1, behind 2⟩ (distanceFrom 2)
    hpickup
  refine ⟨⟨⟨behind 2, [], []⟩, rfl, hall.1 _ rfl⟩, ⟨behind 2, _, _⟩, rfl, (hall.2 _ _ rfl).mpr ?_⟩
  exact ⟨rfl, secondStop, ⟨by decide, by decide⟩, Or.inl rfl⟩

/-- For a driver close to the first stop both ask for no destination at all, instead of the
second. -/
theorem no_destination :
    secondStopTrip.etaRequest (Town.world []) (driverAt 1) = .ok ⟨behind 1, [], []⟩ ∧
      GpsLocation.etaRequest (fun _ => ⟨0, 2⟩) (Town.world []) (driverAt 1) ⟨9, 1, behind 1⟩
        secondStopTrip = .ok (⟨behind 1, [], []⟩, 0) ∧
      ¬ GoesToPickup (Route.getStops Town.stops 1) (distanceFrom 1) secondStop [] := by
  refine ⟨rfl, rfl, ?_⟩
  rintro ⟨c, -, ⟨-, hstops⟩ | ⟨-, between, -, hstops⟩⟩
  · cases hstops
  · exact absurd hstops.symm (List.append_ne_nil_of_right_ne_nil _ (List.cons_ne_nil _ _))

end Maiden
