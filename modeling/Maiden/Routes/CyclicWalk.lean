import Maiden.Routes.StopOrders

/-!
# The walk from one stop to another, computed twice

On a route with distinct orders, the stops between two stops are the ones met when
travelling the circuit of `Route.getStops` from the first to the second. That is what
`getInBetweenStops` computes (`walk_getInBetweenStops`), and what `Route.stopsBetween`
computes as well, except that in the wrapping case its first query stops at the *number*
of stops, as if the orders were 1 to n. `Stop.create` produces other orders, and then
the stops above the count are missing (`cyclicWalk_iff`): a route with the orders 2 and
5 offers no drop-off at all from its first stop (`no_dropOff_behind_gap`).
-/

namespace Maiden

/-! ## Queries in stop order -/

section

variable {stops : Table Stop} {routeId : Int}

theorem map_stopOrder_getStops (stops : Table Stop) (routeId : Int) :
    ((Route.getStops stops routeId).map Stop.stopOrder).Perm (ordersOf stops routeId) :=
  (List.perm_insertionSort _ _).map _

/-- With distinct orders the stops of a route come in strictly increasing order. -/
theorem pairwise_getStops (h : DistinctOrders routeId stops) :
    (Route.getStops stops routeId).Pairwise fun s s' => s.stopOrder < s'.stopOrder := by
  have hsorted : (Route.getStops stops routeId).Pairwise fun s s' => s.stopOrder ≤ s'.stopOrder :=
    List.pairwise_insertionSort _ _
  have hnodup : ((Route.getStops stops routeId).map Stop.stopOrder).Nodup :=
    (map_stopOrder_getStops stops routeId).nodup_iff.mpr h
  have hne : (Route.getStops stops routeId).Pairwise fun s s' => s.stopOrder ≠ s'.stopOrder :=
    List.pairwise_map.mp hnodup
  exact (hsorted.and hne).imp fun ⟨hle, hne⟩ => lt_of_le_of_ne hle hne

/-- A query with a further condition, put in stop order, is the filtered circuit: a list
in strictly increasing order is determined by its elements. -/
theorem orderBy_fetch (h : DistinctOrders routeId stops) (p : Stop → Bool) :
    (stops.fetch fun s => p s && s.routeId == routeId).insertionSort
        (fun s s' => s.stopOrder ≤ s'.stopOrder) =
      (Route.getStops stops routeId).filter p := by
  have hperm : ((stops.fetch fun s => p s && s.routeId == routeId).insertionSort
      fun s s' => s.stopOrder ≤ s'.stopOrder).Perm ((Route.getStops stops routeId).filter p) := by
    refine (List.perm_insertionSort _ _).trans ?_
    refine List.Perm.trans ?_ ((List.perm_insertionSort _ _).filter p).symm
    unfold Table.fetch
    rw [List.filter_filter]
  have hfiltered : ((Route.getStops stops routeId).filter p).Pairwise
      fun s s' => s.stopOrder ≤ s'.stopOrder :=
    ((pairwise_getStops h).imp fun hlt => le_of_lt hlt).filter p
  -- two sorted lists of the same stops, in which no two have the same order
  refine hperm.eq_of_pairwise ?_ (List.pairwise_insertionSort _ _) hfiltered
  intro s s' hs hs' hle hle'
  have hs := (List.mem_filter.mp (hperm.subset hs)).1
  have hs' := (List.mem_filter.mp hs').1
  exact Cycle.eq_of_rank_eq (pairwise_getStops h) hs hs' (le_antisymm hle hle')

end

/-! ## The two computations -/

section

variable {stops : Table Stop} {p d : Stop}

/-- The list filters take the walk. -/
theorem walk_getInBetweenStops (h : DistinctOrders p.routeId stops)
    (hp : p ∈ Route.getStops stops p.routeId) (hd : d ∈ Route.getStops stops p.routeId)
    (hne : p ≠ d) :
    Cycle.Walk (Route.getStops stops p.routeId) d p
      (getInBetweenStops (Route.getStops stops p.routeId) p d) :=
  walk_inBetween (pairwise_getStops h) hp hd hne

/-- The two queries, as filters of the circuit. -/
theorem stopsBetween_eq (h : DistinctOrders p.routeId stops) :
    Route.stopsBetween stops p d =
      if p.stopOrder < d.stopOrder then
        (Route.getStops stops p.routeId).filter fun s =>
          p.stopOrder < s.stopOrder && s.stopOrder < d.stopOrder
      else
        ((Route.getStops stops p.routeId).filter fun s => p.stopOrder < s.stopOrder &&
            s.stopOrder ≤ Route.getStopCount stops p.routeId) ++
          (Route.getStops stops p.routeId).filter fun s => s.stopOrder < d.stopOrder := by
  unfold Route.stopsBetween
  dsimp only
  rw [orderBy_fetch h, orderBy_fetch h, orderBy_fetch h]

/-- No stop that a wrapping walk from `p` has to meet lies above the number of stops. -/
def CountCovers (stops : Table Stop) (p d : Stop) : Prop :=
  p.stopOrder < d.stopOrder ∨
    ∀ s ∈ stops.rows, s.routeId = p.routeId → p.stopOrder < s.stopOrder →
      s.stopOrder ≤ Route.getStopCount stops p.routeId

instance (stops : Table Stop) (p d : Stop) : Decidable (CountCovers stops p d) :=
  inferInstanceAs (Decidable (_ ∨ ∀ s ∈ stops.rows, _ → _ → _))

/-- An upper bound loses nothing exactly when no stop lies above it. -/
theorem filter_bounded_iff {l : List Stop} {a c : Int} :
    (l.filter fun s => a < s.stopOrder && s.stopOrder ≤ c) = (l.filter fun s => a < s.stopOrder) ↔
      ∀ s ∈ l, a < s.stopOrder → s.stopOrder ≤ c := by
  have htwice : (l.filter fun s => a < s.stopOrder && s.stopOrder ≤ c) =
      (l.filter fun s => a < s.stopOrder).filter fun s => s.stopOrder ≤ c := by
    rw [List.filter_filter]
    exact List.filter_congr fun s _ => Bool.and_comm _ _
  rw [htwice, List.filter_eq_self]
  simp only [List.mem_filter, decide_eq_true_iff, and_imp]

/-- **The queries take the walk** exactly when the count covers it. Over the end of the route, the
first query is bounded by the number of stops, which is not the last order if orders have gaps. -/
theorem walk_stopsBetween_iff (h : DistinctOrders p.routeId stops)
    (hp : p ∈ Route.getStops stops p.routeId) (hd : d ∈ Route.getStops stops p.routeId) :
    Cycle.Walk (Route.getStops stops p.routeId) d p (Route.stopsBetween stops p d) ↔
      CountCovers stops p d := by
  have hsorted := pairwise_getStops h
  rw [stopsBetween_eq h]
  rcases lt_or_ge p.stopOrder d.stopOrder with hlt | hge
  · rw [if_pos hlt]
    exact iff_of_true (Cycle.walk_of_lt hsorted hp hd hlt) (Or.inl hlt)
  · rw [if_neg (not_lt.mpr hge)]
    have hwalk := Cycle.walk_of_ge hsorted hp hd hge
    -- there is one walk, so that the first query must find all stops after `p`
    have hunique : ∀ ys, Cycle.Walk (Route.getStops stops p.routeId) d p ys ↔
        ys = (Route.getStops stops p.routeId).filter (fun s => p.stopOrder < s.stopOrder) ++
          (Route.getStops stops p.routeId).filter fun s => s.stopOrder < d.stopOrder := by
      intro ys
      constructor
      · exact fun hys => hys.unique hwalk
      · rintro rfl
        exact hwalk
    rw [hunique, List.append_left_inj, filter_bounded_iff, CountCovers,
      or_iff_right (not_lt.mpr hge)]
    simp only [Route.mem_getStops, and_imp]

end

/-! ## Drop-offs -/

/-- `Stop.getStop` finds every stop of the route. -/
theorem getStop_of_mem {stops : Table Stop} {p : Stop} (hp : p ∈ stops.rows) :
    Stop.getStop stops p.routeId p.id = .ok (p, Route.stopsBetween stops p p) := by
  have hfetch : (stops.fetch fun s => s.routeId == p.routeId && s.id == p.id) = [p] := by
    have hone : stops.rows.filter (fun s => s.id == p.id) = [p] := Table.fetch_key hp
    unfold Table.fetch
    rw [← List.filter_filter, hone]
    simp
  unfold Stop.getStop
  rw [hfetch]

/-- The walk once around meets all the other stops. -/
theorem perm_erase_of_walk {stops : Table Stop} {p : Stop} (h : DistinctOrders p.routeId stops)
    (hp : p ∈ Route.getStops stops p.routeId) {ys : List Stop}
    (hwalk : Cycle.Walk (Route.getStops stops p.routeId) p p ys) :
    ys.Perm ((Route.getStops stops p.routeId).erase p) := by
  have hsorted := pairwise_getStops h
  rw [hwalk.unique (Cycle.walk_of_ge hsorted hp hp (le_refl _))]
  have hsplit := Cycle.eq_below_append_above hsorted hp
  have herase : ((Route.getStops stops p.routeId).erase p).Perm
      ((Route.getStops stops p.routeId).filter (fun s => s.stopOrder < p.stopOrder) ++
        (Route.getStops stops p.routeId).filter fun s => p.stopOrder < s.stopOrder) := by
    refine List.Perm.cons_inv (a := p) ?_
    refine (List.perm_cons_erase hp).symm.trans ?_
    refine List.Perm.trans ?_ List.perm_middle
    rw [← hsplit]
  exact (List.perm_append_comm).trans herase.symm

/-- The stops between two stops as they should be: the ones met on the way, the same as the
list filters give, and for a stop and itself all others, which are its drop-offs. -/
structure CyclicWalk (stops : Table Stop) (p d : Stop) : Prop where
  walk : Cycle.Walk (Route.getStops stops p.routeId) d p (Route.stopsBetween stops p d)
  inBetween : p ≠ d →
    Route.stopsBetween stops p d = getInBetweenStops (Route.getStops stops p.routeId) p d
  dropOffs : p = d → ∃ dropOffs, Stop.getStop stops p.routeId p.id = .ok (p, dropOffs) ∧
    dropOffs.Perm ((Route.getStops stops p.routeId).erase p)

/-- **The cyclic walk.** For every table in which the route has pairwise distinct orders,
whatever calls produced it, and every two stops of the route: `stopsBetween` is the walk
if and only if it does not wrap, or no stop after `p` has an order above the number of
stops. -/
theorem cyclicWalk_iff {stops : Table Stop} {routeId : Int} (h : DistinctOrders routeId stops)
    {p d : Stop} (hp : p ∈ Route.getStops stops routeId) (hd : d ∈ Route.getStops stops routeId) :
    CyclicWalk stops p d ↔ CountCovers stops p d := by
  obtain ⟨hrow, rfl⟩ := Route.mem_getStops.mp hp
  constructor
  · exact fun hw => (walk_stopsBetween_iff h hp hd).mp hw.walk
  · intro hcovers
    have hwalk := (walk_stopsBetween_iff h hp hd).mpr hcovers
    refine ⟨hwalk, fun hne => ?_, fun heq => ?_⟩
    · exact hwalk.unique (walk_getInBetweenStops h hp hd hne)
    · subst heq
      exact ⟨_, getStop_of_mem hrow, perm_erase_of_walk h hp hwalk⟩

/-- A route of three stops that were appended. -/
def appendedStops : Table Stop :=
  (([{ routeId := 1 }, { routeId := 1 }, { routeId := 1 }] : List StopArgs).foldl
    (fun stops a => (Stop.create flatGeo stops a).1) Table.empty)

theorem cyclicWalk_appendedStops :
    (Route.getStops appendedStops 1).length = 3 ∧
      ∀ p ∈ Route.getStops appendedStops 1, ∀ d ∈ Route.getStops appendedStops 1,
        CyclicWalk appendedStops p d := by
  have hall : ∀ p ∈ Route.getStops appendedStops 1, ∀ d ∈ Route.getStops appendedStops 1,
      CountCovers appendedStops p d := by decide
  exact ⟨by decide, fun p hp d hd => (cyclicWalk_iff (by decide) hp hd).mpr (hall p hp d hd)⟩

/-- A stop inserted at 5 on the empty route, then one appended, which gets the order 2. -/
def gapStops : Table Stop :=
  (([{ routeId := 1, stopOrder := 5 }, { routeId := 1 }] : List StopArgs).foldl
    (fun stops a => (Stop.create flatGeo stops a).1) Table.empty)

theorem no_dropOff_behind_gap :
    DistinctOrders 1 gapStops ∧ ∃ p ∈ Route.getStops gapStops 1, ¬ CyclicWalk gapStops p p := by
  refine ⟨by decide, ((Route.getStops gapStops 1).head (by decide)), List.head_mem _, ?_⟩
  intro h
  obtain ⟨dropOffs, hget, hperm⟩ := h.dropOffs rfl
  -- the first stop is asked for the orders in (2, 2], below which nothing lies either
  obtain rfl : [] = dropOffs := (Prod.ext_iff.mp (Except.ok.inj hget)).2
  exact absurd hperm.length_eq (by decide +kernel)

end Maiden
