import Maiden.Base.Cycle
import Maiden.Base.Java
import Maiden.Common.Calendar
import Maiden.Models.Schema
import Mathlib.Data.List.Sort
import Mathlib.Data.Rat.Defs

/-!
# Stops and routes (`data/models/Stop.scala`, `Route.scala`)

A route is the closed circuit of its stops in the order of their `stopOrder`
column: the last stop is followed by the first. `Route.getStops` reads the
circuit from the Stops table. The stops that a ride passes strictly between its two
ends are computed twice: by `Trip.getInBetweenStops` (`Trip.scala:354–369`), which
filters the circuit, and by `Route.stopsBetween` (`Route.scala:59–96`), which queries
ranges of orders. `Route.getCurrentlyActive` (`Route.scala:122–148`) asks for the routes
that are operating now.

`mem_getInBetweenStops` connects the two with the abstract walk of
`Base/Cycle.lean`: on a route with pairwise distinct orders the in-between stops
are those whose leg the walk covers, less the pickup itself.
-/

namespace Maiden

/-- A point, as the geometry codec and the routing service exchange it. -/
structure Position where
  latitude : ℚ
  longitude : ℚ
deriving DecidableEq

/-- A row of the Stops table (`Stop.scala:18–35`). -/
structure Stop where
  id : Int := 0
  routeId : Int := 0
  stopOrder : Int := 0
  name : JString := []
  address : JString := []
  description : JString := []
  details : JString := []
  thumbnail : JString := []
  /-- The stop's position, as well-known binary. -/
  geom : JString := []
  bearing : ℚ := 0
  bearingName : JString := []
  active : Bool := true
  markerType : JString := js ['g', 'l', 'a', 's', 's']
  markerColor : JString := js ['r', 'e', 'd']
  showMarker : Bool := true
  closeBy : JString := []
  createdAt : Option Int := none
  updatedAt : Option Int := none
deriving DecidableEq

instance : Stamped Stop where
  key s := s.id
  withKey s k := { s with id := k }
  key_withKey _ _ := rfl
  createdAt s := s.createdAt
  stamp s c m := { s with createdAt := some c, updatedAt := some m }
  key_stamp _ _ _ := rfl

/-- A row of the Routes table (`Route.scala:16–27`). Days are numbered from Sunday, 0; the
hours are texts. -/
structure Route where
  id : Int := 0
  name : JString := []
  description : JString := []
  detail : JString := []
  hourStart : JString := js ['0', '0', ':', '0', '0']
  hourEnd : JString := js ['0', '0', ':', '0', '0']
  dayStart : Int := 0
  dayEnd : Int := 0
  active : Bool := true
  thumbnail : JString := []
  createdAt : Option Int := none
  updatedAt : Option Int := none
deriving DecidableEq

instance : Stamped Route where
  key r := r.id
  withKey r k := { r with id := k }
  key_withKey _ _ := rfl
  createdAt r := r.createdAt
  stamp r c m := { r with createdAt := some c, updatedAt := some m }
  key_stamp _ _ _ := rfl

namespace Route

/-- The stops of a route in stop order (`Route.scala:43–48`). -/
def getStops (stops : Table Stop) (routeId : Int) : List Stop :=
  (stops.fetch fun s => s.routeId == routeId).insertionSort fun s s' => s.stopOrder ≤ s'.stopOrder

/-- `Route.scala:50–56`. -/
def getStopCount (stops : Table Stop) (routeId : Int) : Int :=
  (stops.fetch fun s => s.routeId == routeId).length

/-- The stops from one stop to another (`Route.scala:59–96`). -/
def stopsBetween (stops : Table Stop) (pickup dropoff : Stop) : List Stop :=
  let stopCount := getStopCount stops pickup.routeId
  let orderBy := List.insertionSort fun s s' : Stop => s.stopOrder ≤ s'.stopOrder
  if pickup.stopOrder < dropoff.stopOrder then
    orderBy (stops.fetch fun s => pickup.stopOrder < s.stopOrder &&
      s.stopOrder < dropoff.stopOrder && s.routeId == pickup.routeId)
  else
    -- the first query takes the number of stops for the last order
    orderBy (stops.fetch fun s => pickup.stopOrder < s.stopOrder &&
      s.stopOrder ≤ stopCount && s.routeId == pickup.routeId) ++
    orderBy (stops.fetch fun s => s.stopOrder < dropoff.stopOrder && s.routeId == pickup.routeId)

/-- A number with a zero in front of it if its text is shorter than two units. -/
def padded (n : Int) : JString :=
  if (JString.ofInt n).length < 2 then jc '0' :: JString.ofInt n else JString.ofInt n

section

-- the order of the two text columns in the database, which depends on its collation
variable (le : JString → JString → Prop) [DecidableRel le]

/-- `Route.scala:122–148`. The day is Joda's, which counts Sunday as 7. -/
def getCurrentlyActive (routes : Table Route) (now : Int) : List Route :=
  let nowDay := DateTime.getDayOfWeek now
  let nowTime := padded (DateTime.getHourOfDay now) ++
    jc ':' :: padded (DateTime.getMinuteOfHour now)
  routes.fetch fun r =>
    (r.dayStart ≤ nowDay && nowDay ≤ r.dayEnd) &&
      (le r.hourStart nowTime && le nowTime r.hourEnd) && r.active

end

theorem mem_getStops {stops : Table Stop} {routeId : Int} {s : Stop} :
    s ∈ getStops stops routeId ↔ s ∈ stops.rows ∧ s.routeId = routeId := by
  rw [getStops, List.mem_insertionSort, Table.mem_fetch, beq_iff_eq]

/-- Stops of a route are told apart by their ids. -/
theorem eq_of_id_eq {stops : Table Stop} {routeId : Int} {s s' : Stop}
    (hs : s ∈ getStops stops routeId) (hs' : s' ∈ getStops stops routeId)
    (h : s.id = s'.id) : s = s' :=
  Table.eq_of_key_eq (mem_getStops.mp hs).1 (mem_getStops.mp hs').1 h

/-- A route has no stop twice. -/
theorem nodup_ids (stops : Table Stop) (routeId : Int) :
    ((getStops stops routeId).map Stop.id).Nodup := by
  have hperm := (List.perm_insertionSort (fun s s' : Stop => s.stopOrder ≤ s'.stopOrder)
    (stops.fetch fun s => s.routeId == routeId)).map Stop.id
  exact hperm.nodup_iff.mpr (stops.keys_nodup.sublist (List.filter_sublist.map _))

theorem nodup_getStops (stops : Table Stop) (routeId : Int) : (getStops stops routeId).Nodup :=
  List.Nodup.of_map _ (nodup_ids stops routeId)

end Route

/-- The stops strictly between two stops of a route (`Trip.scala:354–369`). -/
def getInBetweenStops (routeStops : List Stop) (pickup dropoff : Stop) : List Stop :=
  if pickup.stopOrder = dropoff.stopOrder then
    []
  else if pickup.stopOrder < dropoff.stopOrder then
    routeStops.filter fun f => pickup.stopOrder < f.stopOrder && f.stopOrder < dropoff.stopOrder
  else
    -- the ride wraps around: the stops to the end of the list, then those from its start
    let after := (routeStops.filter fun f => pickup.stopOrder < f.stopOrder).insertionSort
      fun s s' => s.stopOrder ≤ s'.stopOrder
    let before := (routeStops.filter fun f => f.stopOrder < dropoff.stopOrder).insertionSort
      fun s s' => s.stopOrder ≤ s'.stopOrder
    after ++ before

/-- A ride that does not wrap takes one filter. -/
theorem getInBetweenStops_of_lt {routeStops : List Stop} {pickup dropoff : Stop}
    (hlt : pickup.stopOrder < dropoff.stopOrder) :
    getInBetweenStops routeStops pickup dropoff = routeStops.filter fun f =>
      pickup.stopOrder < f.stopOrder && f.stopOrder < dropoff.stopOrder := by
  rw [getInBetweenStops, if_neg (ne_of_lt hlt), if_pos hlt]

/-- A ride that wraps takes two, which are in stop order already on a circuit. -/
theorem getInBetweenStops_of_gt {routeStops : List Stop}
    (h : routeStops.Pairwise fun s s' => s.stopOrder < s'.stopOrder) {pickup dropoff : Stop}
    (hgt : dropoff.stopOrder < pickup.stopOrder) :
    getInBetweenStops routeStops pickup dropoff =
      (routeStops.filter fun f => pickup.stopOrder < f.stopOrder) ++
        routeStops.filter fun f => f.stopOrder < dropoff.stopOrder := by
  have hkept : ∀ q : Stop → Bool, (routeStops.filter q).insertionSort
      (fun s s' => s.stopOrder ≤ s'.stopOrder) = routeStops.filter q :=
    fun q => ((h.filter q).imp fun hlt => le_of_lt hlt).insertionSort_eq
  rw [getInBetweenStops, if_neg (ne_of_gt hgt), if_neg (not_lt.mpr (le_of_lt hgt))]
  dsimp only
  rw [hkept, hkept]

/-- **The in-between stops are what the walk meets**, on every circuit, whether it passes the end
of the list or not. -/
theorem walk_inBetween {routeStops : List Stop}
    (h : routeStops.Pairwise fun s s' => s.stopOrder < s'.stopOrder) {pickup dropoff : Stop}
    (hp : pickup ∈ routeStops) (hd : dropoff ∈ routeStops) (hne : pickup ≠ dropoff) :
    Cycle.Walk routeStops dropoff pickup (getInBetweenStops routeStops pickup dropoff) := by
  rcases lt_trichotomy pickup.stopOrder dropoff.stopOrder with hlt | heq | hgt
  · rw [getInBetweenStops_of_lt hlt]
    exact Cycle.walk_of_lt h hp hd hlt
  · exact absurd (Cycle.eq_of_rank_eq h hp hd heq) hne
  · rw [getInBetweenStops_of_gt h hgt]
    exact Cycle.walk_of_ge h hp hd (le_of_lt hgt)

/-- What the two order comparisons of `getInBetweenStops` select: the stops between, or for a ride
over the end of the route those after the pickup and those before the dropoff. -/
theorem mem_getInBetweenStops_iff {routeStops : List Stop} {pickup dropoff s : Stop} :
    s ∈ getInBetweenStops routeStops pickup dropoff ↔ s ∈ routeStops ∧
      ((pickup.stopOrder < dropoff.stopOrder ∧
          pickup.stopOrder < s.stopOrder ∧ s.stopOrder < dropoff.stopOrder) ∨
        (dropoff.stopOrder < pickup.stopOrder ∧
          (pickup.stopOrder < s.stopOrder ∨ s.stopOrder < dropoff.stopOrder))) := by
  unfold getInBetweenStops
  rcases lt_trichotomy pickup.stopOrder dropoff.stopOrder with hlt | heq | hgt
  · rw [if_neg (ne_of_lt hlt), if_pos hlt, List.mem_filter, Bool.and_eq_true,
      decide_eq_true_iff, decide_eq_true_iff]
    constructor
    · exact fun ⟨hs, h⟩ => ⟨hs, Or.inl ⟨hlt, h⟩⟩
    · rintro ⟨hs, ⟨-, h⟩ | ⟨hgt, -⟩⟩
      · exact ⟨hs, h⟩
      · omega
  · -- pickup and dropoff at one stop: nothing is in between
    rw [if_pos heq]
    constructor
    · exact fun h => nomatch h
    · rintro ⟨-, ⟨hlt, -⟩ | ⟨hgt, -⟩⟩ <;> omega
  · rw [if_neg (ne_of_gt hgt), if_neg (by omega), List.mem_append, List.mem_insertionSort,
      List.mem_insertionSort, List.mem_filter, List.mem_filter, decide_eq_true_iff,
      decide_eq_true_iff]
    constructor
    · rintro (⟨hs, h⟩ | ⟨hs, h⟩)
      · exact ⟨hs, Or.inr ⟨hgt, Or.inl h⟩⟩
      · exact ⟨hs, Or.inr ⟨hgt, Or.inr h⟩⟩
    · rintro ⟨hs, ⟨hlt, -⟩ | ⟨-, h | h⟩⟩
      · omega
      · exact Or.inl ⟨hs, h⟩
      · exact Or.inr ⟨hs, h⟩

/-- On a circuit, the in-between stops of a ride are the ones its walk covers,
less the pickup. -/
theorem mem_getInBetweenStops {routeStops : List Stop}
    (h : routeStops.Pairwise fun s s' => s.stopOrder < s'.stopOrder) {pickup dropoff s : Stop}
    (hp : pickup ∈ routeStops) (hd : dropoff ∈ routeStops) :
    s ∈ getInBetweenStops routeStops pickup dropoff ↔
      Cycle.Covers routeStops pickup dropoff s ∧ s ≠ pickup := by
  rw [mem_getInBetweenStops_iff]
  by_cases hs : s ∈ routeStops
  swap
  · exact ⟨fun hmem => absurd hmem.1 hs, fun hcov => absurd hcov.1.1 hs⟩
  -- ranks separate stops, so `s ≠ pickup` is a comparison of orders
  have hne : s ≠ pickup ↔ s.stopOrder ≠ pickup.stopOrder := by
    refine ⟨fun hne heq => hne ?_, fun hne heq => hne (congrArg Stop.stopOrder heq)⟩
    exact Cycle.eq_of_rank_eq h hs hp heq
  rw [hne]
  rcases lt_trichotomy pickup.stopOrder dropoff.stopOrder with hlt | heq | hgt
  · rw [Cycle.covers_iff_of_lt h hp hd hs hlt]
    constructor
    · rintro ⟨-, ⟨-, h1, h2⟩ | ⟨h1, -⟩⟩ <;> omega
    · exact fun ⟨⟨h1, h2⟩, h3⟩ => ⟨hs, Or.inl ⟨hlt, by omega, h2⟩⟩
  · have hpd : pickup = dropoff := Cycle.eq_of_rank_eq h hp hd heq
    constructor
    · rintro ⟨-, ⟨h1, -⟩ | ⟨h1, -⟩⟩ <;> omega
    · rintro ⟨hcov, -⟩
      rw [hpd] at hcov
      exact absurd hcov (Cycle.not_covers_self hd)
  · rw [Cycle.covers_iff_of_gt h hp hd hs hgt]
    constructor
    · rintro ⟨-, ⟨h1, -⟩ | ⟨-, h1⟩⟩ <;> omega
    · exact fun ⟨h1, h2⟩ => ⟨hs, Or.inr ⟨hgt, by omega⟩⟩

end Maiden
