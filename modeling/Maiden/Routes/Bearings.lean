import Maiden.Routes.StopOrders

/-!
# Bearings stay current

Each stop of a route carries the bearing from its own position to that of the next stop of
the circuit, as its column keeps it: with five decimals (`bearing_rounded`). A new stop changes
the successor of another stop, and `Stop.create` computes all bearings of the route anew, unless
the database refuses the stop; then no bearing changes (`bearings_refused`).

`generateBearings` pairs the circuit with itself, moved on by one, so that each stop is
written once and with the right neighbour (`Stop.reborn_of_ok`), and it moves no stop
(`getStops_generateBearings`), so that the neighbours are still the same afterwards
(`current_generateBearings`). Other routes are not touched (`fetch_create_of_ne`).
-/

namespace Maiden

/-- Every stop of the route has the bearing towards the next one. -/
def CurrentBearings (geo : Geo) (routeId : Int) (stops : Table Stop) : Prop :=
  ∀ s ∈ Route.getStops stops routeId, ∃ p q, geo.latLngFromWKB s.geom = some p ∧
    geo.latLngFromWKB (Cycle.next (Route.getStops stops routeId) s).geom = some q ∧
    s.bearing = geo.column (geo.bearing p q) ∧ s.bearingName = (geo.bearing p q).name

/-! ## Tables whose rows are changed one by one -/

section

variable {stops stops' : Table Stop} {f : Stop → Stop}

theorem fetch_of_map (hrows : stops'.rows = stops.rows.map f)
    (hroute : ∀ r ∈ stops.rows, (f r).routeId = r.routeId) (routeId : Int) :
    (stops'.fetch fun s => s.routeId == routeId) =
      (stops.fetch fun s => s.routeId == routeId).map f := by
  rw [Table.fetch, Table.fetch, hrows, List.filter_map]
  congr 1
  refine List.filter_congr fun r hr => ?_
  rw [Function.comp_apply, hroute r hr]

/-- A change that keeps the stops of a route in order changes its circuit stop by stop. -/
theorem getStops_of_map (hrows : stops'.rows = stops.rows.map f)
    (hroute : ∀ r ∈ stops.rows, (f r).routeId = r.routeId) (routeId : Int)
    (horder : ∀ r ∈ stops.rows, ∀ r' ∈ stops.rows, r.routeId = routeId → r'.routeId = routeId →
      (r.stopOrder ≤ r'.stopOrder ↔ (f r).stopOrder ≤ (f r').stopOrder)) :
    Route.getStops stops' routeId = (Route.getStops stops routeId).map f := by
  rw [Route.getStops, Route.getStops, fetch_of_map hrows hroute]
  refine (List.map_insertionSort _ _ f _ fun r hr r' hr' => ?_).symm
  rw [Table.mem_fetch, beq_iff_eq] at hr hr'
  exact horder r hr.1 r' hr'.1 hr.2 hr'.2

end

/-! ## Computing the bearings -/

section

variable {geo : Geo} {stops : Table Stop} {routeId now : Int}

theorem place_reborn {r : Stop} (hr : r ∈ stops.rows) :
    (Stop.reborn geo stops routeId now r).routeId = r.routeId ∧
      (Stop.reborn geo stops routeId now r).stopOrder = r.stopOrder ∧
      (Stop.reborn geo stops routeId now r).geom = r.geom := by
  rcases Stop.reborn_eq geo routeId now hr with h | ⟨-, b, h⟩
  · rw [h]
    exact ⟨rfl, rfl, rfl⟩
  · rw [h]
    exact ⟨rfl, rfl, rfl⟩

/-- The circuit is the same, up to the bearings. -/
theorem getStops_generateBearings (geo : Geo) (stops : Table Stop) (routeId now : Int) :
    Route.getStops (Stop.generateBearings geo stops routeId now).1 routeId =
      (Route.getStops stops routeId).map (Stop.reborn geo stops routeId now) := by
  refine getStops_of_map (Stop.rows_generateBearings geo stops routeId now)
    (fun r hr => (place_reborn hr).1) routeId fun r hr r' hr' _ _ => ?_
  rw [(place_reborn hr).2.1, (place_reborn hr').2.1]

/-- **The loop leaves current bearings behind** when it returns. It goes over the stops as they
were read; as it writes bearings only, the next stop of each is still the next one afterwards. -/
theorem current_generateBearings
    (hok : (Stop.generateBearings geo stops routeId now).2 = .ok ()) :
    CurrentBearings geo routeId (Stop.generateBearings geo stops routeId now).1 := by
  have hnodup : ((Route.getStops stops routeId).map
      (Stop.reborn geo stops routeId now)).Nodup := by
    rw [← getStops_generateBearings]
    exact Route.nodup_getStops _ routeId
  intro s hs
  rw [getStops_generateBearings] at hs ⊢
  obtain ⟨r, hr, rfl⟩ := List.mem_map.mp hs
  obtain ⟨p, q, hp, hq, hreborn⟩ := Stop.reborn_of_ok hok hr
  have hnext : Cycle.next (Route.getStops stops routeId) r ∈ Route.getStops stops routeId :=
    Cycle.next_mem (Route.nodup_getStops stops routeId) hr
  refine ⟨p, q, ?_, ?_, ?_⟩
  · rw [(place_reborn (Route.mem_getStops.mp hr).1).2.2]
    exact hp
  · rw [Cycle.next_map hnodup hr, (place_reborn (Route.mem_getStops.mp hnext).1).2.2]
    exact hq
  · rw [hreborn]
    exact ⟨rfl, rfl⟩

/-- The rows of other routes are not written. -/
theorem fetch_generateBearings_of_ne {other : Int} (h : other ≠ routeId) :
    ((Stop.generateBearings geo stops routeId now).1.fetch fun s => s.routeId == other) =
      stops.fetch fun s => s.routeId == other := by
  rw [fetch_of_map (Stop.rows_generateBearings geo stops routeId now)
    fun r hr => (place_reborn hr).1]
  refine (List.map_congr_left fun r hr => ?_).trans (List.map_id _)
  rw [Table.mem_fetch, beq_iff_eq] at hr
  rcases Stop.reborn_eq geo routeId now hr.1 with hsame | ⟨hroute, -⟩
  · exact hsame
  · exact absurd (hr.2.symm.trans hroute) h

end

/-! ## One call -/

section

variable {geo : Geo} {stops : Table Stop} {a : StopArgs}

theorem fetch_makeRoom_of_ne {other : Int} (h : other ≠ a.routeId) :
    ((Stop.makeRoom stops a).fetch fun s => s.routeId == other) =
      stops.fetch fun s => s.routeId == other := by
  by_cases hzero : a.stopOrder = 0
  · rw [Stop.makeRoom, if_pos hzero]
  · rw [fetch_of_map (rows_makeRoom hzero) fun r _ => by split <;> rfl]
    refine (List.map_congr_left fun r hr => ?_).trans (List.map_id _)
    rw [Table.mem_fetch, beq_iff_eq] at hr
    have hr' : r.routeId ≠ a.routeId := hr.2 ▸ h
    rw [if_neg (by simp [hr'])]
    rfl

theorem fetch_inserted_of_ne {other : Int} (h : other ≠ a.routeId) :
    ((Stop.inserted geo stops a).fetch fun s => s.routeId == other) =
      stops.fetch fun s => s.routeId == other := by
  rw [Stop.inserted, upsert_new _ a.now (a := (Stop.new geo stops a).kept) rfl]
  refine Eq.trans ?_ (fetch_makeRoom_of_ne h)
  show ((_ ++ [_]).filter _) = _
  have hnew : (Keyed.withKey (stamped (Stop.new geo stops a).kept a.now)
      (Stop.makeRoom stops a).nextKey).routeId = a.routeId := rfl
  rw [List.filter_append, List.filter_cons_of_neg (by simp [hnew, Ne.symm h]), List.filter_nil,
    List.append_nil]
  rfl

/-- **A call touches no stop of another route.** -/
theorem fetch_create_of_ne {other : Int} (h : other ≠ a.routeId) :
    ((Stop.create geo stops a).1.fetch fun s => s.routeId == other) =
      stops.fetch fun s => s.routeId == other := by
  rw [create_fst]
  split
  · rw [fetch_generateBearings_of_ne h, fetch_inserted_of_ne h]
  · exact fetch_makeRoom_of_ne h

theorem getStops_create_of_ne {other : Int} (h : other ≠ a.routeId) :
    Route.getStops (Stop.create geo stops a).1 other = Route.getStops stops other := by
  rw [Route.getStops, fetch_create_of_ne h]
  rfl

/-- A call whose stop is stored returns when its loop does. -/
theorem create_returns_iff (hfits : a.fits = true) : (∃ s, (Stop.create geo stops a).2 = .ok s) ↔
    (Stop.generateBearings geo (Stop.inserted geo stops a) a.routeId a.now).2 = .ok () := by
  unfold Stop.create
  rw [if_pos hfits]
  split
  · next hb => exact iff_of_true ⟨_, rfl⟩ (congrArg Prod.snd hb)
  · next e hb =>
    rw [hb]
    exact iff_of_false (by simp) (by simp)

/-- **A call that returns leaves current bearings behind.** All stops of the route are gone
through, not only the new one and its neighbours. -/
theorem current_create (hfits : a.fits = true) (hok : ∃ s, (Stop.create geo stops a).2 = .ok s) :
    CurrentBearings geo a.routeId (Stop.create geo stops a).1 := by
  rw [create_fst, if_pos hfits]
  exact current_generateBearings ((create_returns_iff hfits).mp hok)

/-- The push of a stop moves no other column. -/
theorem map_bearing_makeRoom :
    (Stop.makeRoom stops a).rows.map (fun s => (s.id, s.bearing, s.bearingName)) =
      stops.rows.map fun s => (s.id, s.bearing, s.bearingName) := by
  by_cases hzero : a.stopOrder = 0
  · rw [Stop.makeRoom, if_pos hzero]
  · rw [rows_makeRoom hzero, List.map_map]
    refine List.map_congr_left fun r _ => ?_
    rw [Function.comp_apply]
    split <;> rfl

/-- **A refused call** throws and changes no bearing. It may have changed orders, as room is made
before the stop is inserted. -/
theorem bearings_refused (hfits : a.fits = false) :
    (Stop.create geo stops a).2 = .error .rejected ∧
      (Stop.create geo stops a).1.rows.map (fun s => (s.id, s.bearing, s.bearingName)) =
        stops.rows.map fun s => (s.id, s.bearing, s.bearingName) := by
  have hno : ¬ a.fits = true := by rw [hfits]; exact Bool.false_ne_true
  refine ⟨?_, ?_⟩
  · rw [Stop.create, if_neg hno]
  · rw [create_fst, if_neg hno]
    exact map_bearing_makeRoom

/-- With a codec that decodes everything, the loop returns. -/
theorem writeBearings_total (hcodec : ∀ g, (geo.latLngFromWKB g).isSome) (now : Int)
    {pairs : List (Stop × Stop)} :
    ∀ {stops : Table Stop}, (Stop.writeBearings geo now stops pairs).2 = .ok () := by
  induction pairs with
  | nil => exact rfl
  | cons x pairs ih =>
    intro stops
    obtain ⟨p, hp⟩ := Option.isSome_iff_exists.mp (hcodec x.1.geom)
    obtain ⟨q, hq⟩ := Option.isSome_iff_exists.mp (hcodec x.2.geom)
    rw [Stop.writeBearings, hp, hq]
    exact ih

end

/-! ## Runs -/

section

variable {geo : Geo} (hcodec : ∀ g, (geo.latLngFromWKB g).isSome)

include hcodec

theorem create_returns (stops : Table Stop) {a : StopArgs} (hfits : a.fits = true) :
    ∃ s, (Stop.create geo stops a).2 = .ok s :=
  (create_returns_iff hfits).mpr (writeBearings_total hcodec a.now)

/-- One call whose stop is stored keeps the bearings of all routes current. -/
theorem current_step {stops : Table Stop} {a : StopArgs} (hfits : a.fits = true)
    (h : ∀ routeId, CurrentBearings geo routeId stops) (routeId : Int) :
    CurrentBearings geo routeId (Stop.create geo stops a).1 := by
  by_cases hr : routeId = a.routeId
  · rw [hr]
    exact current_create hfits (create_returns hcodec stops hfits)
  · intro s hs
    rw [getStops_create_of_ne hr] at hs ⊢
    exact h routeId s hs

end

/-- **Bearings stay current.** With a codec that decodes every geometry: in every run of
`Stop.create` calls from the empty table, on whatever routes and with arguments that the columns
take, all bearings of a route are current in every state in which its orders are pairwise
distinct. And whatever the table, a call with such arguments returns and leaves the touched route
with current bearings; one with other arguments throws and changes no bearing; and every call
keeps the rows of all other routes as they are. -/
theorem bearings_current {geo : Geo} (hcodec : ∀ g, (geo.latLngFromWKB g).isSome)
    {calls : List StopArgs} (hcalls : ∀ a ∈ calls, a.fits = true) :
    Run.Throughout (createStep geo)
      (fun stops => ∀ routeId, DistinctOrders routeId stops → CurrentBearings geo routeId stops)
      Table.empty calls ∧
    ∀ (stops : Table Stop) (a : StopArgs),
      (a.fits = true → (∃ s, (Stop.create geo stops a).2 = .ok s) ∧
        (DistinctOrders a.routeId (Stop.create geo stops a).1 →
          CurrentBearings geo a.routeId (Stop.create geo stops a).1)) ∧
      (a.fits = false → (Stop.create geo stops a).2 = .error .rejected ∧
        (Stop.create geo stops a).1.rows.map (fun s => (s.id, s.bearing, s.bearingName)) =
          stops.rows.map fun s => (s.id, s.bearing, s.bearingName)) ∧
      ∀ other, other ≠ a.routeId →
        ((Stop.create geo stops a).1.fetch fun s => s.routeId == other) =
          stops.fetch fun s => s.routeId == other := by
  refine ⟨?_, fun stops a => ⟨fun hfits => ⟨create_returns hcodec stops hfits, fun _ => ?_⟩,
    bearings_refused, fun other h => fetch_create_of_ne h⟩⟩
  · -- the invariant is stronger: bearings are current even where two stops share an order
    refine Run.throughout_of_meets (C := fun _ a => a.fits = true)
      (I := fun stops => ∀ routeId, CurrentBearings geo routeId stops) ?_ (fun _ h r _ => h r) ?_
      (Run.meets_of_forall (fun a ha _ => hcalls a ha) _)
    · rintro stops a _ ⟨⟩ hfits h
      exact current_step hcodec hfits h
    · exact fun _ _ hs => nomatch hs
  · exact current_create hfits (create_returns hcodec stops hfits)

/-- A codec for stops on the equator, and bearings east or west. -/
def equator : Geo where
  latLngToWKB coords := coords.map fun x => x.num.toNat
  latLngFromWKB g := some ⟨0, g.headD 0⟩
  bearing p q :=
    if p.longitude < q.longitude then { degrees := 90, name := js ['E'] }
    else { degrees := 270, name := js ['W'] }
  toFloat x := x
  toFloat_range := degrees_le

/-- A stop is put between two others: the first now points to it, the last to the first. -/
theorem bearings_current_equator :
    let calls : List StopArgs :=
      [{ routeId := 1, geom := [1] }, { routeId := 1, geom := [5] },
       { routeId := 1, geom := [9], stopOrder := 2 }]
    Run.Throughout (createStep equator)
        (fun stops => ∀ routeId, DistinctOrders routeId stops →
          CurrentBearings equator routeId stops)
        Table.empty calls ∧
      (Run.exec (createStep equator) Table.empty calls).map
          (fun stops => (Route.getStops stops 1).map fun s => (s.id, s.bearing)) =
        some [(1, 90), (3, 270), (2, 270)] :=
  ⟨(bearings_current (fun _ => rfl) (by decide +kernel)).1, by decide +kernel⟩

/-- The bearing from (0, 0) to (1, 1), and a `Float` that is printed with six decimals. -/
def diagonal : Geo where
  latLngToWKB coords := coords.map fun x => x.num.toNat
  latLngFromWKB
    | [lat, lng] => some ⟨lat, lng⟩
    | _ => some ⟨0, 0⟩
  bearing _ _ :=
    { degrees := 4499563645534488 / 10 ^ 14, name := js ['N', 'E'], degrees_range := by norm_num }
  toFloat x := if x = 4499563645534488 / 10 ^ 14 then 44995636 / 10 ^ 6 else x
  toFloat_range x hlo hhi := by
    split
    · norm_num
    · exact degrees_le x hlo hhi

/-- The first stop has the bearing 44.99564, which is not the value of `Geo.bearing`. -/
theorem bearing_rounded :
    ∃ stops s, Run.exec (createStep diagonal) Table.empty
        [{ routeId := 1, geom := [0, 0] }, { routeId := 1, geom := [1, 1] }] = some stops ∧
      DistinctOrders 1 stops ∧ s ∈ Route.getStops stops 1 ∧
      s.bearing = 4499564 / 10 ^ 5 ∧
      s.bearing ≠ (diagonal.bearing ⟨0, 0⟩ ⟨1, 1⟩).degrees := by
  have hrun : (Run.exec (createStep diagonal) Table.empty
      [{ routeId := 1, geom := [0, 0] }, { routeId := 1, geom := [1, 1] }]).any (fun stops =>
        decide (DistinctOrders 1 stops) && (Route.getStops stops 1).any fun s =>
          decide (s.bearing = 4499564 / 10 ^ 5)) = true := by decide +kernel
  obtain ⟨stops, hstops, hall⟩ := (Option.any_eq_true _ _).mp hrun
  simp only [Bool.and_eq_true, List.any_eq_true, decide_eq_true_eq] at hall
  obtain ⟨hdistinct, s, hs, hbearing⟩ := hall
  refine ⟨stops, s, hstops, hdistinct, hs, hbearing, ?_⟩
  rw [hbearing]
  decide +kernel

end Maiden
