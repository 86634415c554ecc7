import Maiden.Models.Route

/-!
# In-between stops form a rotation of the route

The stops of the ride from `p` to `d`, then those of the ride back, are the whole circuit,
cut open behind `p`: `walk_inBetween` says that each ride takes the walk, and
`Cycle.there_and_back` puts the two walks together. Nothing is assumed of the orders but
that they increase; there may be gaps.
-/

namespace Maiden

section

variable {routeStops : List Stop} {p d : Stop}

/-- The rides from `p` to `d` and back make up the circuit. -/
structure RotatesTo (routeStops : List Stop) (p d : Stop) : Prop where
  rotation : getInBetweenStops routeStops p d ++ [d] ++ getInBetweenStops routeStops d p ++ [p] =
    routeStops.rotate (routeStops.idxOf p + 1)
  /-- From each stop of the ride the next one is the next of the circuit. -/
  consecutive : List.IsChain (fun s s' => Cycle.next routeStops s = s')
    ([p] ++ getInBetweenStops routeStops p d ++ [d])
  nodup : ([p] ++ getInBetweenStops routeStops p d ++ [d]).Nodup
  disjoint : (getInBetweenStops routeStops p d).Disjoint (getInBetweenStops routeStops d p)

/-- **In-between stops form a rotation of the route**, for every list of stops in strictly
increasing order and every two different stops of it. The rotated route ends at `p`. -/
theorem inBetween_rotation (h : routeStops.Pairwise fun s s' => s.stopOrder < s'.stopOrder)
    (hp : p ∈ routeStops) (hd : d ∈ routeStops) (hne : p ≠ d) : RotatesTo routeStops p d := by
  have hthere := walk_inBetween h hp hd hne
  have hback := walk_inBetween h hd hp hne.symm
  have horder : p.stopOrder ≠ d.stopOrder := fun heq => hne (Cycle.eq_of_rank_eq h hp hd heq)
  have hrotation := Cycle.there_and_back h hp hd horder hthere hback
  -- a rotation repeats nothing, so neither do the parts of it
  have hnodup : (getInBetweenStops routeStops p d ++
      d :: (getInBetweenStops routeStops d p ++ [p])).Nodup := by
    rw [hrotation]
    exact List.nodup_rotate.mpr (Cycle.nodup_of_ranked h)
  obtain ⟨hleft, hright, hdisjoint⟩ := List.nodup_append'.mp hnodup
  have hpout : p ∉ getInBetweenStops routeStops p d := fun hmem => hdisjoint hmem (by simp)
  have hdout : d ∉ getInBetweenStops routeStops p d := fun hmem => hdisjoint hmem (by simp)
  refine ⟨by simpa using hrotation, hthere.isChain, ?_,
    fun s hs hs' => hdisjoint hs (by simp [hs'])⟩
  show (p :: (getInBetweenStops routeStops p d ++ [d])).Nodup
  refine List.nodup_cons.mpr ⟨by simp [hpout, hne], ?_⟩
  exact List.nodup_append'.mpr ⟨hleft, List.nodup_singleton d, by simpa using hdout⟩

end

/-- A route of four stops with gaps in its orders. -/
def gapRoute : List Stop :=
  [{ id := 4, stopOrder := -3 }, { id := 2, stopOrder := 1 }, { id := 7, stopOrder := 5 },
   { id := 1, stopOrder := 6 }]

/-- The ride from the third stop to the second wraps around. -/
theorem inBetween_rotation_gapRoute :
    (gapRoute.rotate 3).map Stop.id = [1, 4, 2, 7] ∧
      RotatesTo gapRoute { id := 7, stopOrder := 5 } { id := 2, stopOrder := 1 } :=
  ⟨by decide, inBetween_rotation (by decide) (by decide) (by decide) (by decide)⟩

end Maiden
