import Maiden.Base.Run
import Maiden.Models.Stop

/-!
# Do stop orders stay distinct?

`getInBetweenStops` and `stopsBetween` rely on the stops of a route having pairwise
distinct orders. `Stop.create` is the only way to add a stop, and on the orders alone it
is a small function (`ordersOf_create`): an append adds the number of stops plus one, an
insert pushes the orders from the requested one on up by one and adds the requested one. If the
database refuses the new stop, the pushes are all that is left of the call.

The two do not fit together. An insert beyond the end leaves a gap, and a later append
numbers its stop by the count and may meet an order that is in use: inserting at 2 on an
empty route and then appending gives two stops of order 2 (`two_stops_of_order_two`). An
insert alone is safe but for one case, the wrap of the largest `Int` to the smallest.
`distinctOrders_iff` says that nothing else goes wrong.
-/

namespace Maiden

/-- The orders of a route's stops. -/
def ordersOf (stops : Table Stop) (routeId : Int) : List Int :=
  (stops.fetch fun s => s.routeId == routeId).map Stop.stopOrder

/-- The route's stops have pairwise distinct orders. -/
def DistinctOrders (routeId : Int) (stops : Table Stop) : Prop := (ordersOf stops routeId).Nodup

instance (routeId : Int) (stops : Table Stop) : Decidable (DistinctOrders routeId stops) :=
  inferInstanceAs (Decidable (ordersOf stops routeId).Nodup)

/-! ## What a call does to the orders -/

/-- Where a stop is: its id, route and order. -/
def Stop.place (s : Stop) : Int × Int × Int := (s.id, s.routeId, s.stopOrder)

/-- The orders are read off the places. -/
theorem ordersOf_eq (stops : Table Stop) (routeId : Int) :
    ordersOf stops routeId =
      ((stops.rows.map Stop.place).filter fun p => p.2.1 == routeId).map fun p => p.2.2 := by
  rw [List.filter_map, List.map_map]
  rfl

/-- Writing the bearings moves no stop. -/
theorem map_place_generateBearings (geo : Geo) (stops : Table Stop) (routeId now : Int) :
    (Stop.generateBearings geo stops routeId now).1.rows.map Stop.place =
      stops.rows.map Stop.place := by
  rw [Stop.rows_generateBearings, List.map_map]
  refine List.map_congr_left fun r hr => ?_
  rw [Function.comp_apply]
  rcases Stop.reborn_eq geo routeId now hr with h | ⟨-, b, h⟩
  · rw [h]
  · rw [h]
    rfl

/-- Where an order goes when the orders from `k` on are pushed up. -/
def pushFrom (k o : Int) : Int := if k ≤ o then int32 (o + 1) else o

/-- Making room pushes the later stops of the route and touches no other. -/
theorem rows_makeRoom {stops : Table Stop} {a : StopArgs} (h : a.stopOrder ≠ 0) :
    (Stop.makeRoom stops a).rows = stops.rows.map fun s =>
      if s.routeId == a.routeId && a.stopOrder ≤ s.stopOrder then stamped s.pushedUp a.now
      else s := by
  have hreal : Stop.realStopOrder stops a = a.stopOrder := if_neg h
  unfold Stop.makeRoom
  rw [if_neg h, hreal]
  refine rows_upsertAll_map (g := Stop.pushedUp) (fun s => ?_) ?_ (fun _ => rfl) a.now
  · rw [List.mem_filter, Route.mem_getStops, Bool.and_eq_true, beq_iff_eq, and_assoc]
  · exact (Route.nodup_ids stops a.routeId).sublist (List.filter_sublist.map _)

/-- The orders once room is made. -/
theorem ordersOf_makeRoom (stops : Table Stop) (a : StopArgs) (routeId : Int) :
    ordersOf (Stop.makeRoom stops a) routeId =
      if a.routeId = routeId ∧ a.stopOrder ≠ 0 then
        (ordersOf stops routeId).map (pushFrom a.stopOrder)
      else ordersOf stops routeId := by
  by_cases hzero : a.stopOrder = 0
  · rw [if_neg fun h => h.2 hzero, Stop.makeRoom, if_pos hzero]
  · unfold ordersOf Table.fetch
    rw [rows_makeRoom hzero, List.filter_map, List.map_map]
    -- pushing a stop leaves it on its route
    have hroute : ∀ s : Stop, ((fun s : Stop => s.routeId == routeId) ∘ fun s =>
        if s.routeId == a.routeId && a.stopOrder ≤ s.stopOrder then stamped s.pushedUp a.now
        else s) s = (s.routeId == routeId) := by
      intro s
      rw [Function.comp_apply]
      split <;> rfl
    rw [List.filter_congr fun s _ => hroute s]
    by_cases hr : a.routeId = routeId
    · rw [if_pos ⟨hr, hzero⟩, List.map_map]
      refine List.map_congr_left fun s hs => ?_
      have hs' : s.routeId = a.routeId := by
        rw [hr]
        simpa using (List.mem_filter.mp hs).2
      rw [Function.comp_apply, Function.comp_apply, hs', pushFrom]
      by_cases hle : a.stopOrder ≤ s.stopOrder
      · simp [hle, stamped, Stamped.stamp, Stop.pushedUp]
      · simp [hle]
    · rw [if_neg fun h => hr h.1]
      refine List.map_congr_left fun s hs => ?_
      have hs' : s.routeId ≠ a.routeId := by
        have : s.routeId = routeId := by simpa using (List.mem_filter.mp hs).2
        exact fun heq => hr (heq.symm.trans this)
      rw [Function.comp_apply, if_neg (by simp [hs'])]

/-- The table that a call leaves: the pushes alone if the row of the stop is refused, and
otherwise, whether the bearings can be computed or not, the table of their loop. -/
theorem create_fst (geo : Geo) (stops : Table Stop) (a : StopArgs) :
    (Stop.create geo stops a).1 =
      if a.fits then (Stop.generateBearings geo (Stop.inserted geo stops a) a.routeId a.now).1
      else Stop.makeRoom stops a := by
  unfold Stop.create
  split
  · split <;> next hb => rw [hb]
  · rfl

/-- A stored stop adds its order to those of its route. -/
theorem ordersOf_insert (stops : Table Stop) (s : Stop) (routeId : Int) :
    ordersOf (stops.insert s) routeId =
      ordersOf stops routeId ++ if s.routeId = routeId then [s.stopOrder] else [] := by
  unfold ordersOf Table.fetch
  show ((_ ++ [_]).filter _).map _ = _
  rw [List.filter_append, List.map_append]
  congr 1
  have hsaved : ∀ k, (Keyed.withKey s k).routeId = s.routeId := fun _ => rfl
  by_cases hr : s.routeId = routeId
  · rw [if_pos hr, List.filter_cons_of_pos (by simp [hsaved, hr])]
    rfl
  · rw [if_neg hr, List.filter_cons_of_neg (by simp [hsaved, hr])]
    rfl

/-- **What `Stop.create` does to the orders**, on whatever route: with an order given, all from
there on are pushed up by one, also if the stop itself is then refused. -/
theorem ordersOf_create (geo : Geo) (stops : Table Stop) (a : StopArgs) (routeId : Int) :
    ordersOf (Stop.create geo stops a).1 routeId =
      if a.routeId = routeId then
        (if a.stopOrder = 0 then ordersOf stops routeId
          else (ordersOf stops routeId).map (pushFrom a.stopOrder)) ++
        if a.fits then [Stop.realStopOrder stops a] else []
      else ordersOf stops routeId := by
  have hroute : (stamped (Stop.new geo stops a).kept a.now).routeId = a.routeId := rfl
  have horder : (stamped (Stop.new geo stops a).kept a.now).stopOrder =
      Stop.realStopOrder stops a := rfl
  have hcreate : ordersOf (Stop.create geo stops a).1 routeId =
      ordersOf (Stop.makeRoom stops a) routeId ++
        if a.fits = true ∧ a.routeId = routeId then [Stop.realStopOrder stops a] else [] := by
    rw [create_fst]
    by_cases hfits : a.fits = true
    · rw [if_pos hfits, ordersOf_eq, map_place_generateBearings, ← ordersOf_eq, Stop.inserted,
        upsert_new _ a.now (a := (Stop.new geo stops a).kept) rfl, ordersOf_insert, hroute, horder]
      simp [hfits]
    · simp [hfits]
  rw [hcreate, ordersOf_makeRoom]
  by_cases hr : a.routeId = routeId
  · by_cases hzero : a.stopOrder = 0
    · simp [hr, hzero]
    · simp [hr, hzero]
  · simp [hr]

/-! ## Distinct orders, one call -/

/-- The orders are Scala `Int`s. -/
def OrdersInRange (routeId : Int) (stops : Table Stop) : Prop :=
  ∀ o ∈ ordersOf stops routeId, -2 ^ 31 ≤ o ∧ o < 2 ^ 31

/-- The call meets no order that is in use. An append whose stop is stored finds no stop whose
order is the number of stops plus one. An insert that wraps the largest `Int` to the smallest does
not ask for the smallest, if its stop is stored, and finds it in use only if it is pushed as
well. -/
def OrderFree (routeId : Int) (stops : Table Stop) (a : StopArgs) : Prop :=
  a.routeId = routeId →
    (a.stopOrder = 0 → a.fits = true →
      int32 ((ordersOf stops routeId).length + 1) ∉ ordersOf stops routeId) ∧
    (a.stopOrder ≠ 0 → 2 ^ 31 - 1 ∈ ordersOf stops routeId →
      (a.fits = true → a.stopOrder ≠ -2 ^ 31) ∧
      (-2 ^ 31 ∈ ordersOf stops routeId → a.stopOrder = -2 ^ 31))

instance (routeId : Int) (stops : Table Stop) (a : StopArgs) :
    Decidable (OrderFree routeId stops a) :=
  inferInstanceAs (Decidable (_ → (_ → _ → _) ∧ (_ → _ → (_ → _) ∧ (_ → _))))

theorem length_getStops (stops : Table Stop) (routeId : Int) :
    (Route.getStops stops routeId).length = (ordersOf stops routeId).length := by
  unfold Route.getStops ordersOf
  rw [List.length_insertionSort, List.length_map]

/-- Pushing an order up, without the wrap and with it. -/
theorem pushFrom_cases {o : Int} (ho : -2 ^ 31 ≤ o ∧ o < 2 ^ 31) (k : Int) :
    (o < k ∧ pushFrom k o = o) ∨ (k ≤ o ∧ o < 2 ^ 31 - 1 ∧ pushFrom k o = o + 1) ∨
      (o = 2 ^ 31 - 1 ∧ pushFrom k o = -2 ^ 31) := by
  unfold pushFrom
  rcases lt_or_ge o k with hlt | hle
  · exact Or.inl ⟨hlt, if_neg (by omega)⟩
  · rw [if_pos hle]
    rcases lt_or_eq_of_le (by omega : o ≤ 2 ^ 31 - 1) with hlt | rfl
    · exact Or.inr (Or.inl ⟨hle, hlt, int32_of_range (by omega) (by omega)⟩)
    · exact Or.inr (Or.inr ⟨rfl, by decide⟩)

/-- Only the two ends of the range can be pushed to one order. -/
theorem pushFrom_inj {k o o' : Int} (ho : -2 ^ 31 ≤ o ∧ o < 2 ^ 31)
    (ho' : -2 ^ 31 ≤ o' ∧ o' < 2 ^ 31)
    (heq : pushFrom k o = pushFrom k o') :
    o = o' ∨ (o = 2 ^ 31 - 1 ∧ o' = -2 ^ 31) ∨ (o = -2 ^ 31 ∧ o' = 2 ^ 31 - 1) := by
  rcases pushFrom_cases ho k with ⟨h, hpush⟩ | ⟨h, hmax, hpush⟩ | ⟨h, hpush⟩ <;>
    rcases pushFrom_cases ho' k with ⟨h', hpush'⟩ | ⟨h', hmax', hpush'⟩ | ⟨h', hpush'⟩ <;> omega

section

variable {os : List Int} {k : Int}

theorem pushFrom_max (hk : -2 ^ 31 ≤ k ∧ k < 2 ^ 31) : pushFrom k (2 ^ 31 - 1) = -2 ^ 31 := by
  rw [pushFrom, if_pos (by omega)]
  decide

/-- An order is pushed to the requested one only by the wrap. -/
theorem mem_push_iff (hrange : ∀ o ∈ os, -2 ^ 31 ≤ o ∧ o < 2 ^ 31)
    (hk : -2 ^ 31 ≤ k ∧ k < 2 ^ 31) :
    k ∈ os.map (pushFrom k) ↔ 2 ^ 31 - 1 ∈ os ∧ k = -2 ^ 31 := by
  constructor
  · intro hmem
    obtain ⟨o, ho, hok⟩ := List.mem_map.mp hmem
    rcases pushFrom_cases (hrange o ho) k with ⟨hlt, hpush⟩ | ⟨hle, -, hpush⟩ | ⟨rfl, hpush⟩
    · omega
    · omega
    · exact ⟨ho, hok.symm.trans hpush⟩
  · rintro ⟨hmax, rfl⟩
    exact List.mem_map.mpr ⟨2 ^ 31 - 1, hmax, pushFrom_max hk⟩

/-- Pushing keeps orders apart unless the largest `Int` wraps onto a smallest one that stays. -/
theorem nodup_map_push_iff (hos : os.Nodup) (hrange : ∀ o ∈ os, -2 ^ 31 ≤ o ∧ o < 2 ^ 31)
    (hk : -2 ^ 31 ≤ k ∧ k < 2 ^ 31) :
    (os.map (pushFrom k)).Nodup ↔ (2 ^ 31 - 1 ∈ os → -2 ^ 31 ∈ os → k = -2 ^ 31) := by
  constructor
  · intro hnodup hmax hmin
    by_contra hne
    have hstays : pushFrom k (-2 ^ 31) = -2 ^ 31 := if_neg (by omega)
    have hwrap := (pushFrom_max hk).trans hstays.symm
    exact absurd (List.inj_on_of_nodup_map hnodup hmax hmin hwrap) (by decide)
  · intro hfree
    -- where the smallest one is pushed as well, it makes room for the wrapped one
    have hboth : ∀ {o o'}, 2 ^ 31 - 1 ∈ os → -2 ^ 31 ∈ os → o = 2 ^ 31 - 1 → o' = -2 ^ 31 →
        pushFrom k o ≠ pushFrom k o' := by
      rintro _ _ hmax hmin rfl rfl
      rw [hfree hmax hmin]
      decide
    refine hos.map_on fun o ho o' ho' heq => ?_
    rcases pushFrom_inj (hrange o ho) (hrange o' ho') heq with h | ⟨h, h'⟩ | ⟨h, h'⟩
    · exact h
    · exact absurd heq (hboth (h ▸ ho) (h' ▸ ho') h h')
    · exact absurd heq.symm (hboth (h' ▸ ho') (h ▸ ho) h' h)

/-- An insert keeps the orders distinct unless the largest `Int` wraps onto one. -/
theorem nodup_push_iff (hos : os.Nodup) (hrange : ∀ o ∈ os, -2 ^ 31 ≤ o ∧ o < 2 ^ 31)
    (hk : -2 ^ 31 ≤ k ∧ k < 2 ^ 31) :
    (os.map (pushFrom k) ++ [k]).Nodup ↔
      (2 ^ 31 - 1 ∈ os → k ≠ -2 ^ 31 ∧ (-2 ^ 31 ∈ os → k = -2 ^ 31)) := by
  rw [List.nodup_append_comm, List.singleton_append, List.nodup_cons, mem_push_iff hrange hk,
    nodup_map_push_iff hos hrange hk]
  constructor
  · exact fun h hmax => ⟨fun hmin => h.1 ⟨hmax, hmin⟩, h.2 hmax⟩
  · exact fun h => ⟨fun h' => (h h'.1).1 h'.2, fun hmax => (h hmax).2⟩

end

section

variable (geo : Geo) {stops : Table Stop} {a : StopArgs} {routeId : Int}

/-- **One call** keeps the orders of a route distinct exactly when it meets none that is in use. An
append takes the number of stops plus one, which some stop may have been given already; an insert
pushes the others out of its way, and can only clash where a push wraps around. -/
theorem distinctOrders_create_iff (hrange : OrdersInRange routeId stops)
    (h : DistinctOrders routeId stops) :
    DistinctOrders routeId (Stop.create geo stops a).1 ↔ OrderFree routeId stops a := by
  unfold DistinctOrders OrderFree
  rw [ordersOf_create]
  by_cases hr : a.routeId = routeId
  · subst hr
    rw [if_pos rfl, forall_prop_of_true rfl]
    by_cases hzero : a.stopOrder = 0
    · -- an append takes the number of stops, plus one
      have hreal : Stop.realStopOrder stops a = int32 ((ordersOf stops a.routeId).length + 1) := by
        rw [Stop.realStopOrder, if_pos hzero, length_getStops]
      rw [if_pos hzero, hreal]
      by_cases hfits : a.fits = true
      · rw [if_pos hfits, List.nodup_append_comm, List.singleton_append, List.nodup_cons]
        exact ⟨fun hn => ⟨fun _ _ => hn.1, fun hne => absurd hzero hne⟩,
          fun hfree => ⟨hfree.1 hzero hfits, h⟩⟩
      · -- a refused append leaves the table as it was
        rw [if_neg hfits, List.append_nil]
        exact iff_of_true h ⟨fun _ hyes => absurd hyes hfits, fun hne => absurd hzero hne⟩
    · have hreal : Stop.realStopOrder stops a = a.stopOrder := if_neg hzero
      rw [if_neg hzero, hreal]
      by_cases hfits : a.fits = true
      · rw [if_pos hfits, nodup_push_iff h hrange a.stopOrder_range]
        exact ⟨fun hn => ⟨fun h0 => absurd h0 hzero, fun _ hmax => (hn hmax).imp_left fun h _ => h⟩,
          fun hfree hmax => (hfree.2 hzero hmax).imp_left fun h => h hfits⟩
      · -- room was made for a stop that is then refused: the push alone can wrap around
        rw [if_neg hfits, List.append_nil, nodup_map_push_iff h hrange a.stopOrder_range]
        exact ⟨fun hn => ⟨fun h0 => absurd h0 hzero,
            fun _ hmax => ⟨fun hyes => absurd hyes hfits, hn hmax⟩⟩,
          fun hfree hmax => (hfree.2 hzero hmax).2⟩
  · rw [if_neg hr]
    exact ⟨fun _ h' => absurd h' hr, fun _ => h⟩

/-- The orders stay in the range of an `Int`, since each is a result of 32-bit arithmetic or
given. -/
theorem OrdersInRange.create (hrange : OrdersInRange routeId stops) :
    OrdersInRange routeId (Stop.create geo stops a).1 := by
  intro o ho
  rw [ordersOf_create] at ho
  by_cases hr : a.routeId = routeId
  · rw [if_pos hr] at ho
    rcases List.mem_append.mp ho with ho | ho
    · by_cases hzero : a.stopOrder = 0
      · rw [if_pos hzero] at ho
        exact hrange o ho
      · rw [if_neg hzero] at ho
        obtain ⟨o', ho', rfl⟩ := List.mem_map.mp ho
        unfold pushFrom
        split
        · exact int32_range _
        · exact hrange o' ho'
    · split at ho
      · rw [List.mem_singleton.mp ho]
        unfold Stop.realStopOrder
        split
        · exact int32_range _
        · exact a.stopOrder_range
      · cases ho
  · rw [if_neg hr] at ho
    exact hrange o ho

end

/-! ## Runs -/

/-- One call of `Stop.create`, as a step of the Stops table. -/
def createStep (geo : Geo) (stops : Table Stop) (a : StopArgs) : Option (Table Stop) :=
  some (Stop.create geo stops a).1

/-- **Stop orders.** In every run of `Stop.create` calls, on whatever routes, from a table
that has no stop of the route: the route's orders are pairwise distinct after every
call if and only if no call for the route meets an order that is in use. -/
theorem distinctOrders_iff (geo : Geo) {stops : Table Stop} {routeId : Int}
    (hempty : ∀ s ∈ stops.rows, s.routeId ≠ routeId) (calls : List StopArgs) :
    Run.Throughout (createStep geo) (DistinctOrders routeId) stops calls ↔
      Run.Meets (createStep geo) (OrderFree routeId) stops calls := by
  -- an empty route has distinct orders in range, and from there each call is looked at by itself
  have hnone : ordersOf stops routeId = [] := by
    unfold ordersOf
    rw [List.map_eq_nil_iff]
    exact List.filter_eq_nil_iff.mpr fun s hs => by simpa using hempty s hs
  have hdistinct : DistinctOrders routeId stops := by
    unfold DistinctOrders
    rw [hnone]
    exact List.nodup_nil
  have hrange : OrdersInRange routeId stops := by
    intro o ho
    rw [hnone] at ho
    cases ho
  refine Run.throughout_iff_meets (D := fun _ _ => True) (I := OrdersInRange routeId) ?_ ?_ hrange
    hdistinct (Run.meets_of_forall (fun _ _ _ => trivial) stops)
  · rintro s a s' hstep - hs
    cases hstep
    exact hs.create geo
  · rintro s a s' hstep - hs hp
    cases hstep
    exact distinctOrders_create_iff geo hs hp

/-- A geometry library in which every stop is at the origin. -/
def flatGeo : Geo where
  latLngToWKB _ := []
  latLngFromWKB _ := some ⟨0, 0⟩
  bearing _ _ := { degrees := 0, name := js ['N'] }
  toFloat x := x
  toFloat_range := degrees_le

/-- Two appends and an insert in front of them. -/
theorem distinctOrders_insertFirst :
    Run.Throughout (createStep flatGeo) (DistinctOrders 1) Table.empty
      [{ routeId := 1 }, { routeId := 1 }, { routeId := 1, stopOrder := 1 }] :=
  (distinctOrders_iff flatGeo (by simp) _).mpr (by decide)

/-- An insert at 2 on the empty route, then an append. -/
theorem two_stops_of_order_two :
    ¬ Run.Throughout (createStep flatGeo) (DistinctOrders 1) Table.empty
      [{ routeId := 1, stopOrder := 2 }, { routeId := 1 }] := by
  intro h
  have hlast := ((h.2 _ rfl).2 _ rfl).head
  exact absurd hlast (by decide)

end Maiden
