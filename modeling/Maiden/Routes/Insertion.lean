import Maiden.Routes.Bearings
import Maiden.Routes.CyclicWalk

/-!
# Inserting a stop at a place

`Stop.create` with an order `k` other than 0 pushes the stops from `k` on up by one, stores
the new stop at `k` and writes all stops of the route once more. On a route with distinct
orders, with gaps or without, that puts the new stop right before those that were at `k` or
later (`Inserted`).

The rows after a call are the old ones, each pushed and turned, and, unless the database refuses
it, the new one (`map_place_create`). The only stop that is not pushed where it belongs is one of
order 2147483647, whose order wraps around (`insertion_iff`).
-/

namespace Maiden

/-- What an insert at `a.stopOrder` is for: the new stop is there, the stops from that order
on are one further, nothing else has moved, and the stops of other routes are the same. -/
structure Inserted (stops stops' : Table Stop) (a : StopArgs) : Prop where
  distinct : DistinctOrders a.routeId stops'
  moved : ∀ s ∈ stops.rows, s.routeId = a.routeId → ∃ s' ∈ stops'.rows, s'.id = s.id ∧
    s'.routeId = a.routeId ∧
    s'.stopOrder = if a.stopOrder ≤ s.stopOrder then s.stopOrder + 1 else s.stopOrder
  /-- The new stop has a new id and stands before the stops that were at its order or later. -/
  placed : ∃ s ∈ stops'.rows, (∀ r ∈ stops.rows, r.id ≠ s.id) ∧ s.routeId = a.routeId ∧
    s.stopOrder = a.stopOrder ∧
    (Route.getStops stops' a.routeId).map Stop.id =
      ((Route.getStops stops a.routeId).filter fun r => r.stopOrder < a.stopOrder).map Stop.id ++
      [s.id] ++
      ((Route.getStops stops a.routeId).filter fun r => a.stopOrder ≤ r.stopOrder).map Stop.id
  others : ∀ other, other ≠ a.routeId →
    (stops'.fetch fun s => s.routeId == other) = stops.fetch fun s => s.routeId == other

/-- Where a stop of the route goes. -/
def Stop.placeAfter (a : StopArgs) (r : Stop) : Int × Int × Int :=
  (r.id, r.routeId, if r.routeId = a.routeId then pushFrom a.stopOrder r.stopOrder else r.stopOrder)

section

variable (geo : Geo) (stops : Table Stop) {a : StopArgs}

/-- **The places after an insert**: the old ones, pushed, and the new one if it is stored. -/
theorem map_place_create (h : a.stopOrder ≠ 0) : ∃ newId, (∀ r ∈ stops.rows, r.id ≠ newId) ∧
    (Stop.create geo stops a).1.rows.map Stop.place =
      stops.rows.map (Stop.placeAfter a) ++
        if a.fits then [(newId, a.routeId, a.stopOrder)] else [] := by
  have hreal : Stop.realStopOrder stops a = a.stopOrder := if_neg h
  have hroom : (Stop.makeRoom stops a).rows.map Stop.place =
      stops.rows.map (Stop.placeAfter a) := by
    rw [rows_makeRoom h, List.map_map]
    refine List.map_congr_left fun r _ => ?_
    rw [Function.comp_apply]
    unfold Stop.placeAfter pushFrom
    by_cases hr : r.routeId = a.routeId
    · by_cases hle : a.stopOrder ≤ r.stopOrder
      · rw [if_pos (by simp [hr, hle]), if_pos hr, if_pos hle]
        rfl
      · rw [if_neg (by simp [hle]), if_pos hr, if_neg hle]
        rfl
    · rw [if_neg (by simp [hr]), if_neg hr]
      rfl
  refine ⟨(Stop.makeRoom stops a).nextKey, fun r hr => ?_, ?_⟩
  · -- the rows have kept their ids, and the next key is above all of them
    have hmem : r.placeAfter a ∈ (Stop.makeRoom stops a).rows.map Stop.place :=
      hroom ▸ List.mem_map_of_mem hr
    obtain ⟨r', hr', hplace⟩ := List.mem_map.mp hmem
    have hid : r'.id = r.id := congrArg Prod.fst hplace
    exact hid ▸ ne_of_lt (Table.key_lt_nextKey hr')
  · -- a stop that does not fit is refused after room was made for it
    rw [create_fst]
    by_cases hfits : a.fits = true
    · rw [if_pos hfits, if_pos hfits, map_place_generateBearings, Stop.inserted,
        upsert_new _ a.now (a := (Stop.new geo stops a).kept) rfl, ← hroom, ← hreal]
      exact List.map_append
    · rw [if_neg hfits, if_neg hfits, hroom, List.append_nil]

/-- A stop of the route is where it was pushed. -/
theorem exists_pushed (h : a.stopOrder ≠ 0) {s : Stop} (hs : s ∈ stops.rows)
    (hroute : s.routeId = a.routeId) : ∃ s' ∈ (Stop.create geo stops a).1.rows, s'.id = s.id ∧
      s'.routeId = a.routeId ∧ s'.stopOrder = pushFrom a.stopOrder s.stopOrder := by
  obtain ⟨newId, -, hplaces⟩ := map_place_create geo stops h
  have hmem : s.placeAfter a ∈ (Stop.create geo stops a).1.rows.map Stop.place := by
    rw [hplaces]
    exact List.mem_append_left _ (List.mem_map_of_mem hs)
  obtain ⟨s', hs', hplace⟩ := List.mem_map.mp hmem
  rw [Stop.placeAfter, if_pos hroute, hroute] at hplace
  simp only [Stop.place, Prod.mk.injEq] at hplace
  exact ⟨s', hs', hplace⟩

end

section

variable {geo : Geo} {stops : Table Stop} {a : StopArgs}

/-- Below the largest `Int` an order is pushed by one. -/
theorem pushFrom_of_ne_max {k o : Int} (ho : -2 ^ 31 ≤ o ∧ o < 2 ^ 31) (hmax : o ≠ 2 ^ 31 - 1) :
    pushFrom k o = if k ≤ o then o + 1 else o := by
  rcases pushFrom_cases ho k with ⟨hlt, h⟩ | ⟨hle, -, h⟩ | ⟨heq, -⟩
  · rw [h, if_neg (not_le.mpr hlt)]
  · rw [h, if_pos hle]
  · exact absurd heq hmax

variable (hrange : OrdersInRange a.routeId stops)
  (hmax : 2 ^ 31 - 1 ∉ ordersOf stops a.routeId)

include hrange hmax in
theorem pushFrom_of_mem {s : Stop} (hs : s ∈ Route.getStops stops a.routeId) (k : Int) :
    pushFrom k s.stopOrder = if k ≤ s.stopOrder then s.stopOrder + 1 else s.stopOrder := by
  obtain ⟨hrow, hroute⟩ := Route.mem_getStops.mp hs
  have ho : s.stopOrder ∈ ordersOf stops a.routeId :=
    List.mem_map_of_mem (Table.mem_fetch.mpr ⟨hrow, beq_iff_eq.mpr hroute⟩)
  exact pushFrom_of_ne_max (hrange _ ho) fun heq => hmax (heq ▸ ho)

/-- The places of the route's stops: those before the new one, the new one, those behind it. -/
def placesAfter (stops : Table Stop) (a : StopArgs) (newId : Int) : List (Int × Int × Int) :=
  ((Route.getStops stops a.routeId).filter fun r => r.stopOrder < a.stopOrder).map
      (Stop.placeAfter a) ++
    (newId, a.routeId, a.stopOrder) ::
      ((Route.getStops stops a.routeId).filter fun r => a.stopOrder ≤ r.stopOrder).map
        (Stop.placeAfter a)

theorem mem_placesAfter {newId : Int} {p : Int × Int × Int} :
    p ∈ placesAfter stops a newId ↔
      p = (newId, a.routeId, a.stopOrder) ∨
        ∃ r ∈ Route.getStops stops a.routeId, r.placeAfter a = p := by
  unfold placesAfter
  simp only [List.mem_append, List.mem_cons, List.mem_map, List.mem_filter, decide_eq_true_eq]
  constructor
  · rintro (⟨r, ⟨hr, -⟩, heq⟩ | heq | ⟨r, ⟨hr, -⟩, heq⟩)
    · exact Or.inr ⟨r, hr, heq⟩
    · exact Or.inl heq
    · exact Or.inr ⟨r, hr, heq⟩
  · rintro (heq | ⟨r, hr, heq⟩)
    · exact Or.inr (Or.inl heq)
    · rcases lt_or_ge r.stopOrder a.stopOrder with hlt | hge
      · exact Or.inl ⟨r, ⟨hr, hlt⟩, heq⟩
      · exact Or.inr (Or.inr ⟨r, ⟨hr, hge⟩, heq⟩)

include hrange hmax in
/-- The places are in stop order. -/
theorem pairwise_placesAfter (h : DistinctOrders a.routeId stops) (newId : Int) :
    (placesAfter stops a newId).Pairwise fun p q => p.2.2 < q.2.2 := by
  have horder : ∀ r ∈ Route.getStops stops a.routeId, (r.placeAfter a).2.2 =
      if a.stopOrder ≤ r.stopOrder then r.stopOrder + 1 else r.stopOrder := by
    intro r hr
    rw [← pushFrom_of_mem hrange hmax hr, Stop.placeAfter, if_pos (Route.mem_getStops.mp hr).2]
  -- each part is in order, as pushing keeps the order
  have hpart : ∀ q : Stop → Bool, (((Route.getStops stops a.routeId).filter q).map
      (Stop.placeAfter a)).Pairwise fun p q => p.2.2 < q.2.2 := by
    intro q
    refine List.pairwise_map.mpr (((pairwise_getStops h).filter q).imp_of_mem ?_)
    intro r r' hr hr' hlt
    rw [horder r (List.mem_filter.mp hr).1, horder r' (List.mem_filter.mp hr').1]
    split <;> split <;> omega
  have hlow : ∀ p ∈ ((Route.getStops stops a.routeId).filter fun r =>
      r.stopOrder < a.stopOrder).map (Stop.placeAfter a), p.2.2 < a.stopOrder := by
    intro p hp
    obtain ⟨r, hr, rfl⟩ := List.mem_map.mp hp
    obtain ⟨hr, hlt⟩ := List.mem_filter.mp hr
    rw [decide_eq_true_eq] at hlt
    rw [horder r hr, if_neg (by omega)]
    exact hlt
  have hhigh : ∀ p ∈ ((Route.getStops stops a.routeId).filter fun r =>
      a.stopOrder ≤ r.stopOrder).map (Stop.placeAfter a), a.stopOrder < p.2.2 := by
    intro p hp
    obtain ⟨r, hr, rfl⟩ := List.mem_map.mp hp
    obtain ⟨hr, hle⟩ := List.mem_filter.mp hr
    rw [decide_eq_true_eq] at hle
    rw [horder r hr, if_pos hle]
    omega
  refine List.pairwise_append.mpr ⟨hpart _, List.pairwise_cons.mpr ⟨hhigh, hpart _⟩, ?_⟩
  intro p hp q hq
  rcases List.mem_cons.mp hq with rfl | hq
  · exact hlow p hp
  · exact (hlow p hp).trans (hhigh q hq)

include hrange hmax in
/-- **The circuit after an insert**: lists in strictly increasing order are determined by
their members. -/
theorem map_place_getStops (h : DistinctOrders a.routeId stops) {stops' : Table Stop}
    (h' : DistinctOrders a.routeId stops') {newId : Int}
    (hplaces : stops'.rows.map Stop.place =
      stops.rows.map (Stop.placeAfter a) ++ [(newId, a.routeId, a.stopOrder)]) :
    (Route.getStops stops' a.routeId).map Stop.place = placesAfter stops a newId := by
  have hirrefl : Std.Irrefl fun p q : Int × Int × Int => p.2.2 < q.2.2 := ⟨fun _ => lt_irrefl _⟩
  have hantisymm : Std.Antisymm fun p q : Int × Int × Int => p.2.2 < q.2.2 :=
    ⟨fun _ _ hlt hgt => absurd hgt (lt_asymm hlt)⟩
  have hsorted : ((Route.getStops stops' a.routeId).map Stop.place).Pairwise
      fun p q => p.2.2 < q.2.2 := List.pairwise_map.mpr (pairwise_getStops h')
  refine hsorted.eq_of_mem_iff (pairwise_placesAfter hrange hmax h newId) fun p => ?_
  -- the stops of the route are the rows with its id
  have hmem : p ∈ (Route.getStops stops' a.routeId).map Stop.place ↔
      p ∈ stops'.rows.map Stop.place ∧ p.2.1 = a.routeId := by
    simp only [List.mem_map, Route.mem_getStops]
    constructor
    · rintro ⟨s, ⟨hs, hroute⟩, rfl⟩
      exact ⟨⟨s, hs, rfl⟩, hroute⟩
    · rintro ⟨⟨s, hs, rfl⟩, hroute⟩
      exact ⟨s, ⟨hs, hroute⟩, rfl⟩
  rw [hmem, hplaces, mem_placesAfter, List.mem_append, List.mem_singleton, List.mem_map]
  constructor
  · rintro ⟨⟨r, hr, rfl⟩ | rfl, hroute⟩
    · exact Or.inr ⟨r, Route.mem_getStops.mpr ⟨hr, hroute⟩, rfl⟩
    · exact Or.inl rfl
  · rintro (rfl | ⟨r, hr, rfl⟩)
    · exact ⟨Or.inr rfl, rfl⟩
    · obtain ⟨hrow, hroute⟩ := Route.mem_getStops.mp hr
      exact ⟨Or.inl ⟨r, hrow, rfl⟩, hroute⟩

end

/-- A refused stop is not inserted: there is no new id. -/
theorem not_inserted_of_refused (geo : Geo) {stops : Table Stop} {a : StopArgs}
    (hk : a.stopOrder ≠ 0) (hfits : ¬ a.fits = true) :
    ¬ Inserted stops (Stop.create geo stops a).1 a := by
  intro hins
  obtain ⟨s, hs, hnew, -⟩ := hins.placed
  obtain ⟨newId, -, hplaces⟩ := map_place_create geo stops hk
  rw [if_neg hfits, List.append_nil] at hplaces
  have hmem : s.place ∈ stops.rows.map (Stop.placeAfter a) := hplaces ▸ List.mem_map_of_mem hs
  obtain ⟨r, hr, hplace⟩ := List.mem_map.mp hmem
  exact hnew r hr (congrArg Prod.fst hplace)

/-- **Inserting a stop.** For every table in which the route's orders are pairwise distinct
`Int`s and every order other than 0: the call inserts the stop at its place, if and only if the
columns take its row and no stop of the route has the order 2147483647. Whether the bearings can
be computed does not matter. -/
theorem insertion_iff (geo : Geo) {stops : Table Stop} {a : StopArgs} (hk : a.stopOrder ≠ 0)
    (hrange : OrdersInRange a.routeId stops) (h : DistinctOrders a.routeId stops) :
    Inserted stops (Stop.create geo stops a).1 a ↔
      a.fits = true ∧ 2 ^ 31 - 1 ∉ ordersOf stops a.routeId := by
  constructor
  · intro hins
    refine ⟨?_, fun hmax => ?_⟩
    · by_contra hfits
      exact not_inserted_of_refused geo hk hfits hins
    obtain ⟨s, hs, horder⟩ := List.mem_map.mp hmax
    rw [Table.mem_fetch, beq_iff_eq] at hs
    -- the stop of the largest order has been pushed to the smallest
    obtain ⟨s₁, hs₁, hid₁, -, horder₁⟩ := hins.moved s hs.1 hs.2
    obtain ⟨s₂, hs₂, hid₂, -, horder₂⟩ := exists_pushed geo stops hk hs.1 hs.2
    obtain rfl : s₁ = s₂ := Table.eq_of_key_eq hs₁ hs₂ (hid₁.trans hid₂.symm)
    have hrange' := a.stopOrder_range
    rw [horder₁, if_pos (by omega), horder, pushFrom, if_pos (by omega)] at horder₂
    exact absurd horder₂ (by decide)
  · rintro ⟨hfits, hmax⟩
    have hfree : OrderFree a.routeId stops a := fun _ =>
      ⟨fun hzero => absurd hzero hk, fun _ hin => absurd hin hmax⟩
    have h' := (distinctOrders_create_iff geo hrange h).mpr hfree
    obtain ⟨newId, hnew, hplaces⟩ := map_place_create geo stops hk
    rw [if_pos hfits] at hplaces
    refine ⟨h', fun s hs hroute => ?_, ?_, fun other hne => fetch_create_of_ne hne⟩
    · obtain ⟨s', hs', hid, hroute', horder⟩ := exists_pushed geo stops hk hs hroute
      refine ⟨s', hs', hid, hroute', ?_⟩
      rw [horder, pushFrom_of_mem hrange hmax (Route.mem_getStops.mpr ⟨hs, hroute⟩)]
    · have hmem : (newId, a.routeId, a.stopOrder) ∈
          (Stop.create geo stops a).1.rows.map Stop.place := by
        rw [hplaces]
        exact List.mem_append_right _ List.mem_cons_self
      obtain ⟨s, hs, hplace⟩ := List.mem_map.mp hmem
      simp only [Stop.place, Prod.mk.injEq] at hplace
      obtain ⟨rfl, hroute, horder⟩ := hplace
      refine ⟨s, hs, hnew, hroute, horder, ?_⟩
      have hids := congrArg (List.map Prod.fst) (map_place_getStops hrange hmax h h' hplaces)
      rw [placesAfter, List.map_append, List.map_cons, List.map_map, List.map_map, List.map_map]
        at hids
      rw [List.append_assoc]
      exact hids

/-- A stop is put at 3 on a route with the orders 2 and 5. -/
theorem insertion_between :
    DistinctOrders 1 gapStops ∧
      Inserted gapStops (Stop.create flatGeo gapStops { routeId := 1, stopOrder := 3 }).1
        { routeId := 1, stopOrder := 3 } := by
  have hrange : OrdersInRange 1 gapStops := by
    unfold OrdersInRange
    decide
  exact ⟨by decide,
    (insertion_iff flatGeo (by decide) hrange (by decide)).mpr (by decide)⟩

/-- A route with one stop, of the largest order there is. -/
def lastOrder : Table Stop :=
  (Stop.create flatGeo Table.empty { routeId := 1, stopOrder := 2147483647 }).1

/-- A stop that is inserted before it pushes it to the smallest order: now it comes first. -/
theorem last_stop_wraps_to_first :
    DistinctOrders 1 lastOrder ∧
      (Route.getStops (Stop.create flatGeo lastOrder { routeId := 1, stopOrder := 1 }).1 1).map
        (fun s => (s.id, s.stopOrder)) = [(1, -2147483648), (2, 1)] := by
  decide

end Maiden
