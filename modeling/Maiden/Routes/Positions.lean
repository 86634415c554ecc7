import Maiden.Base.Run
import Maiden.Base.StableSort
import Maiden.Models.Location

/-!
# Where a driver is

Every report of a position is a row of its own, and the position of a driver is the newest of
the driver's rows, by the time at which the row was made. `position_is_last_iff` says when that
is the last report: each report must be made later, by a millisecond at least, than all earlier
ones of the same driver.

Under that condition what a report pushes to the channels of the driver's trips can be compared
with what the app is told when it asks (`push_and_poll`). The push goes from the position that was
reported and the poll from the position that was stored. Those are the same if the report has no
more than five decimals, and then both ask the routing service the same question; the push adds
two minutes for each stop on the way and the poll does not. The exception is a pickup that is the
closest stop: the push asks for the way to it, the poll for a way to nowhere.
-/

namespace Maiden

open GpsLocation Loop StableSort

/-! ## The newest row -/

/-- The row of a report. -/
def reported (db : Table GpsRow) (gps : GpsLocation) (made now : Int) : GpsRow where
  id := db.nextKey
  location := { gps with position := gps.position.kept }
  createdAt := made
  updatedAt := now

theorem fetch_store (db : Table GpsRow) (gps : GpsLocation) (made now userId : Int) :
    ((store db gps made now).fetch fun r => r.location.userId == userId) =
      (db.fetch fun r => r.location.userId == userId) ++
        if gps.userId = userId then [reported db gps made now] else [] := by
  show List.filter _ (db.rows ++ [reported db gps made now]) = _
  rw [List.filter_append, List.filter_singleton]
  by_cases h : gps.userId = userId
  · simp [Table.fetch, reported, h]
  · have hne : (gps.userId == userId) = false := beq_false_of_ne h
    simp [Table.fetch, reported, h, hne]

theorem getCurrentForUser_eq (o : NewestFirst) (db : Table GpsRow) (userId : Int) :
    getCurrentForUser o db userId =
      (o.sort (db.fetch fun r => r.location.userId == userId)).head? := by
  unfold getCurrentForUser getForUser
  cases o.sort (db.fetch fun r => r.location.userId == userId) <;> rfl

/-- A row that is newer than all others comes first, however ties are broken. -/
theorem NewestFirst.head?_append (o : NewestFirst) {rows : List GpsRow} {new : GpsRow}
    (hnewer : ∀ r ∈ rows, r.createdAt < new.createdAt) :
    (o.sort (rows ++ [new])).head? = some new := by
  have hperm := o.perm (rows ++ [new])
  have hsorted := o.sorted (rows ++ [new])
  cases hsort : o.sort (rows ++ [new]) with
  | nil =>
    rw [hsort] at hperm
    exact absurd hperm.nil_eq (by simp)
  | cons first rest =>
    rw [hsort] at hperm hsorted
    have hnew : new ∈ first :: rest := hperm.mem_iff.mpr (by simp)
    rcases List.mem_cons.mp hnew with rfl | hrest
    · rfl
    · -- an older row in front of the new one would be out of order
      have hle := (List.pairwise_cons.mp hsorted).1 new hrest
      rcases List.mem_append.mp (hperm.mem_iff.mp List.mem_cons_self) with hold | hlast
      · exact absurd (hnewer first hold) (not_lt_of_ge hle)
      · rw [List.mem_singleton.mp hlast]
        rfl

/-- Rows of one time in the order in which they were stored. -/
def NewestFirst.stable : NewestFirst where
  sort rows := rows.insertionSort fun r r' => -r.createdAt ≤ -r'.createdAt
  perm rows := List.perm_insertionSort _ rows
  sorted rows := by
    have hany : rows.Pairwise fun _ _ => True := List.pairwise_of_forall fun _ _ => trivial
    have hsort : (rows.insertionSort fun r r' => -r.createdAt ≤ -r'.createdAt).Pairwise
        (ByKey (fun r => -r.createdAt) fun _ _ => True) := pairwise_insertionSort hany
    exact hsort.imp fun h => neg_le_neg_iff.mp h.key_le

/-- In this order a row that is not newer than all others does not come first. -/
theorem NewestFirst.newer_of_stable {rows : List GpsRow} {new : GpsRow}
    (hid : ∀ r ∈ rows, r.id ≠ new.id)
    (hfirst : ((NewestFirst.stable.sort (rows ++ [new])).head?).map GpsRow.id = some new.id) :
    ∀ r ∈ rows, r.createdAt < new.createdAt := by
  -- of two rows of one time, the first is not the new one
  have horder : (rows ++ [new]).Pairwise fun r _ => r.id ≠ new.id := by
    refine List.pairwise_append.mpr ⟨?_, List.pairwise_singleton _ _, fun r hr _ _ => hid r hr⟩
    exact List.Pairwise.imp_of_mem (fun hr _ _ => hid _ hr)
      (List.pairwise_of_forall (R := fun _ _ => True) fun _ _ => trivial)
  have hsort : (NewestFirst.stable.sort (rows ++ [new])).Pairwise
      (ByKey (fun r => -r.createdAt) fun r _ => r.id ≠ new.id) := pairwise_insertionSort horder
  have hperm := NewestFirst.stable.perm (rows ++ [new])
  intro r hr
  cases hrows : NewestFirst.stable.sort (rows ++ [new]) with
  | nil =>
    rw [hrows] at hfirst
    cases hfirst
  | cons first rest =>
    rw [hrows] at hfirst hsort hperm
    have hfirst : first.id = new.id := Option.some.inj hfirst
    -- so the new row is the first one, and the others are in the rest
    have hnew : first = new := by
      rcases List.mem_append.mp (hperm.mem_iff.mp List.mem_cons_self) with hold | hlast
      · exact absurd hfirst (hid first hold)
      · exact List.mem_singleton.mp hlast
    have hrest : r ∈ rest := by
      have hmem : r ∈ first :: rest := hperm.mem_iff.mpr (List.mem_append_left _ hr)
      refine (List.mem_cons.mp hmem).resolve_left ?_
      rintro rfl
      exact hid r hr hfirst
    rcases (List.pairwise_cons.mp hsort).1 r hrest with hlt | htie
    · rw [hnew] at hlt
      exact neg_lt_neg_iff.mp hlt
    · exact absurd hfirst htie.2

/-! ## Reports and the last one -/

/-- A report as it reaches the table: what it says, when its row was made, and when it was
stored. One with coordinates that the columns cannot hold does not get there. -/
structure Report where
  gps : GpsLocation
  made : Int
  now : Int
  fits : gps.fits = true

/-- The stored reports, and for each driver the id of the row that was stored last. -/
structure Tracking where
  db : Table GpsRow
  last : Int → Option Int

def Tracking.step (s : Tracking) (r : Report) : Option Tracking :=
  some
    { db := store s.db r.gps r.made r.now
      last := Function.update s.last r.gps.userId (some s.db.nextKey) }

/-- Whatever order the database gives to rows of one time, the position of every driver is that
of the last report. -/
def Tracking.Current (s : Tracking) : Prop :=
  ∀ (o : NewestFirst) (userId : Int),
    (getCurrentForUser o s.db userId).map GpsRow.id = s.last userId

/-- The report was made after all stored ones of its driver. -/
def Later (s : Tracking) (r : Report) : Prop :=
  ∀ row ∈ s.db.rows, row.location.userId = r.gps.userId → row.createdAt < r.made

/-- After such a report its row is the current one. -/
theorem getCurrentForUser_store {s : Tracking} {r : Report} (hlater : Later s r)
    (o : NewestFirst) :
    getCurrentForUser o (store s.db r.gps r.made r.now) r.gps.userId =
      some (reported s.db r.gps r.made r.now) := by
  rw [getCurrentForUser_eq, fetch_store, if_pos rfl]
  refine o.head?_append fun row hrow => ?_
  obtain ⟨hmem, huser⟩ := List.mem_filter.mp hrow
  exact hlater row hmem (eq_of_beq huser)

/-- The positions of the other drivers are what they were. -/
theorem getCurrentForUser_store_ne {r : Report} {userId : Int} (db : Table GpsRow)
    (o : NewestFirst) (hne : r.gps.userId ≠ userId) :
    getCurrentForUser o (store db r.gps r.made r.now) userId = getCurrentForUser o db userId := by
  rw [getCurrentForUser_eq, fetch_store, if_neg hne, List.append_nil, ← getCurrentForUser_eq]

/-- **One report** keeps every position current exactly when it was made later than the stored ones
of its driver: otherwise one of those may be shown instead of it. -/
theorem Tracking.step_iff {s s' : Tracking} {r : Report} (hs : s.step r = some s')
    (hcur : s.Current) : s'.Current ↔ Later s r := by
  cases hs
  constructor
  · intro hcur' row hrow huser
    have hfirst := hcur' .stable r.gps.userId
    dsimp only at hfirst
    rw [getCurrentForUser_eq, fetch_store, if_pos rfl, Function.update_self] at hfirst
    -- with equal times the stable order shows the older row
    refine NewestFirst.newer_of_stable (fun old hold => ?_) hfirst row ?_
    · exact ne_of_lt (Table.key_lt_nextKey (List.mem_filter.mp hold).1)
    · exact List.mem_filter.mpr ⟨hrow, beq_iff_eq.mpr huser⟩
  · intro hlater o userId
    dsimp only
    by_cases hu : r.gps.userId = userId
    · subst hu
      rw [getCurrentForUser_store hlater, Function.update_self]
      rfl
    · rw [getCurrentForUser_store_ne s.db o hu, Function.update_of_ne (Ne.symm hu)]
      exact hcur o userId

/-- **The position that is read for a driver is the last report** at all times of a run,
whatever the database does with rows of one time, exactly if each report was made later than
all reports of its driver that were stored before it. -/
theorem position_is_last_iff {start : Tracking} (hstart : start.Current) (run : List Report) :
    Run.Throughout Tracking.step Tracking.Current start run ↔
      Run.Meets Tracking.step Later start run := by
  have hall : Run.Meets Tracking.step (fun _ _ => True) start run :=
    Run.meets_of_forall (fun _ _ _ => trivial) start
  exact Run.throughout_iff_meets (I := fun _ => True) (fun _ _ _ _ _ _ => trivial)
    (fun _ _ _ hs _ _ hcur => Tracking.step_iff hs hcur) trivial hstart hall

/-- Nothing has been reported. -/
def Tracking.none : Tracking where
  db := Table.empty
  last _ := Option.none

/-- Two reports of the driver 1, of which the second was made first and stored last. -/
def overtaken : List Report :=
  [⟨⟨1, 1, ⟨0, 0⟩⟩, 20, 21, by decide +kernel⟩, ⟨⟨1, 1, ⟨0, 1⟩⟩, 10, 22, by decide +kernel⟩]

/-- A report that is overtaken on its way to the table is not seen as the last one. -/
theorem position_is_last_iff_overtaken :
    Tracking.none.Current ∧
      ¬ Run.Throughout Tracking.step Tracking.Current Tracking.none overtaken := by
  have hstart : Tracking.none.Current := by
    intro o userId
    rw [getCurrentForUser_eq]
    have hperm : (o.sort []).Perm [] := o.perm []
    show ((o.sort []).head?).map _ = _
    rw [hperm.eq_nil]
    rfl
  refine ⟨hstart, fun h => ?_⟩
  have hmeets := (position_is_last_iff hstart overtaken).mp h
  have hlate : (20 : Int) < 10 := ((hmeets _ rfl).2 _ rfl).1
    (reported Table.empty ⟨1, 1, ⟨0, 0⟩⟩ 20 21) (List.mem_singleton.mpr rfl) rfl
  omega

/-! ## What a report pushes and what the app is told -/

section

variable {w : World} {env : Env} {latLng : Stop → Position} {gps : GpsLocation} {t : Trip}
  {notice : EtaNotice}

/-- What was pushed for a trip, next to what `getDriverEta` says when it is asked: the same
seconds of the routing service, to which the push has added two minutes for each stop, or, if
the pickup is the closest stop, an answer to a question without destination. -/
inductive Comparable (w : World) (env : Env) (gps : GpsLocation) (t : Trip)
    (notice : EtaNotice) : Prop
  | onTheWay (q : EtaRequest) (seconds : Int) (geometry : List Position)
    (hother : env.getClosestStop gps.position ≠ some t.pickupStop)
    (hasked : t.etaRequest w env = .ok q)
    (hanswer : env.getRouteAndEta q.start q.points = some (seconds, geometry))
    (hpoll : getDriverEta w env t = .ok (DateTime.plusSeconds env.now seconds))
    (hpush : notice.eta = int32 (seconds + int32 (q.points.length * 120)))
  | atPickup (hclosest : env.getClosestStop gps.position = some t.pickupStop)
    (hasked : t.etaRequest w env = .ok ⟨gps.position, [], []⟩)

/-- The question of `getDriverEta`, from what it looks up. -/
theorem Trip.etaRequest_eq {closest : Int} {c pickup : Stop} {locs : List Position}
    (hcurrent : env.getCurrentForUser t.driverId = some gps.position)
    (hclosest : env.getClosestStop gps.position = some closest)
    (hc : w.stops.get closest = some c) (hpickup : w.stops.get t.pickupStop = some pickup)
    (hlocs : stopLocs env (getInBetweenStops (Route.getStops w.stops t.routeId) c pickup) =
      .ok locs) :
    t.etaRequest w env =
      .ok ⟨gps.position, getInBetweenStops (Route.getStops w.stops t.routeId) c pickup, locs⟩ := by
  refine bind_eq_ok.mpr ⟨gps.position, getOr_eq_ok.mpr hcurrent, ?_⟩
  refine bind_eq_ok.mpr ⟨closest, getOr_eq_ok.mpr hclosest, ?_⟩
  refine bind_eq_ok.mpr ⟨c, getOr_eq_ok.mpr hc, ?_⟩
  refine bind_eq_ok.mpr ⟨pickup, getOr_eq_ok.mpr hpickup, ?_⟩
  exact bind_eq_ok.mpr ⟨locs, hlocs, rfl⟩

/-- What a notice tells of a report that is the driver's current position. -/
theorem comparable_of_notify (hdemand : t.scheduleId = 0)
    (hcurrent : env.getCurrentForUser t.driverId = some gps.position)
    (h : notify latLng w env gps t = .ok notice) : Comparable w env gps t notice := by
  obtain ⟨⟨q, allowance⟩, hq, hask⟩ := bind_eq_ok.mp h
  obtain ⟨⟨seconds, geometry⟩, hanswer, hnotice⟩ := bind_eq_ok.mp hask
  obtain ⟨closest, hclosest, hq⟩ := bind_eq_ok.mp hq
  obtain ⟨pickup, hpickup, hq⟩ := bind_eq_ok.mp hq
  rw [getOr_eq_ok] at hclosest hpickup
  have hid : pickup.id = t.pickupStop := Table.key_of_get hpickup
  by_cases hnear : closest = pickup.id
  · rw [hnear, hid] at hclosest
    refine .atPickup hclosest ?_
    -- there is nothing between a stop and itself
    have hnone : getInBetweenStops (Route.getStops w.stops t.routeId) pickup pickup = [] :=
      if_pos rfl
    rw [Trip.etaRequest_eq hcurrent hclosest hpickup hpickup (by rw [hnone]; rfl), hnone]
  · rw [if_neg hnear] at hq
    obtain ⟨c, hc, hq⟩ := bind_eq_ok.mp hq
    obtain ⟨locs, hlocs, hq⟩ := bind_eq_ok.mp hq
    cases hq
    rw [getOr_eq_ok] at hc hanswer
    have hasked := Trip.etaRequest_eq hcurrent hclosest hc hpickup hlocs
    refine .onTheWay _ seconds geometry ?_ hasked hanswer ?_ ?_
    · rw [hclosest, ← hid]
      exact fun heq => hnear (Option.some.inj heq)
    · rw [getDriverEta, if_pos hdemand, onDemandEta_eq, hasked]
      refine bind_eq_ok.mpr ⟨_, rfl, ?_⟩
      exact bind_eq_ok.mpr ⟨(seconds, geometry), getOr_eq_ok.mpr hanswer, rfl⟩
    · rw [← Except.ok.inj hnotice]

theorem tripId_of_notify (h : notify latLng w env gps t = .ok notice) : notice.tripId = t.id := by
  obtain ⟨_, -, h⟩ := bind_eq_ok.mp h
  obtain ⟨_, -, h⟩ := bind_eq_ok.mp h
  rw [← Except.ok.inj h]

variable (w env latLng gps) in
/-- The trips that are told are the first of the pending ones, and all of them if the loop
returns. -/
theorem create_collects (trips : Table Trip) :
    ∃ told rest, Trip.getPendingForDriver trips gps.userId = told ++ rest ∧
      List.Forall₂ (fun t notice => notify latLng w env gps t = .ok notice) told
        (create latLng w trips env gps).1 ∧
      ((Vehicle.getForUser w.vehicles gps.userId).isSome = true →
        (create latLng w trips env gps).2 = .returned → rest = []) := by
  unfold create
  split
  swap
  · -- a report that does not fit is refused, and nobody is told
    exact ⟨[], _, rfl, .nil, fun _ hreturned => nomatch hreturned⟩
  unfold concerns
  cases Vehicle.getForUser w.vehicles gps.userId with
  | none => exact ⟨[], _, rfl, .nil, fun hsome => nomatch hsome⟩
  | some v =>
    generalize hloop : forEach _ _ _ = r
    obtain ⟨told, rest, collected, hsplit, htold, hout, hend⟩ :=
      forEach_collect (notify latLng w env gps) hloop (fun out t notice h => by rw [h])
        (fun out t e h => by rw [h])
    rw [List.nil_append] at hout
    rw [hout]
    exact ⟨told, rest, hsplit, htold, fun _ => hend⟩

/-- The environment with the positions that are in the table. -/
def Env.reading (env : Env) (o : NewestFirst) (db : Table GpsRow) : Env :=
  { env with
    getCurrentForUser := fun userId =>
      (GpsLocation.getCurrentForUser o db userId).map fun row => row.location.position }

variable (w env latLng) in
/-- **What is pushed and what is polled.** Take a report that was made later than the stored ones
of its driver, with no more decimals than the columns have, and an environment that reads positions
from the table with the report in it. One notice each goes to the first pending trips of the
driver, to all of them if nothing throws; and for a trip without schedule the notice compares with
what `getDriverEta` says: it is the same answer of the routing service and two minutes for each
stop on the way, unless the pickup is the closest stop, and then `getDriverEta` asks for a route
without destination. -/
theorem push_and_poll {s : Tracking} {r : Report} (hlater : Later s r)
    (hdecimals : r.gps.position.FiveDecimals) (o : NewestFirst) (trips : Table Trip) :
    let env' := env.reading o (store s.db r.gps r.made r.now)
    ∃ told rest, Trip.getPendingForDriver trips r.gps.userId = told ++ rest ∧
      ((Vehicle.getForUser w.vehicles r.gps.userId).isSome = true →
        (create latLng w trips env' r.gps).2 = .returned → rest = []) ∧
      List.Forall₂ (fun t notice => notice.tripId = t.id ∧
          (t.scheduleId = 0 → Comparable w env' r.gps t notice)) told
        (create latLng w trips env' r.gps).1 := by
  intro env'
  obtain ⟨told, rest, hsplit, htold, hend⟩ := create_collects w env' latLng r.gps trips
  refine ⟨told, rest, hsplit, hend, ?_⟩
  -- the report is the newest of its driver, and the columns have kept all of its decimals
  have hcurrent : env'.getCurrentForUser r.gps.userId = some r.gps.position := by
    show (GpsLocation.getCurrentForUser o _ _).map _ = _
    rw [getCurrentForUser_store hlater]
    exact congrArg some (Position.kept_of_fiveDecimals hdecimals)
  -- the trips that are told are the driver's own, so both sides look up the same position
  have hdriver : ∀ t ∈ told, t.driverId = r.gps.userId := by
    intro t ht
    have hpending : t ∈ Trip.getPendingForDriver trips r.gps.userId :=
      hsplit ▸ List.mem_append_left rest ht
    have hwhere := (Table.mem_fetch.mp hpending).2
    exact eq_of_beq (Bool.and_eq_true_iff.mp hwhere).1
  refine ((List.forall₂_and_left _ _).mpr ⟨hdriver, htold⟩).imp ?_
  rintro t notice ⟨htrip, hnotify⟩
  rw [← htrip] at hcurrent
  exact ⟨tripId_of_notify hnotify, fun hdemand => comparable_of_notify hdemand hcurrent hnotify⟩

end

/-- A trip from the first stop, to which the driver 9 is on the way. -/
def fromFirstStop : Trip :=
  { id := 1, driverId := 9, vehicleId := 1, routeId := 1, pickupStop := 1,
    rideState := RideStateType.vehicleOnWay.id, reservationTime := 0,
    createdAt := none, updatedAt := none }

/-- The driver reports a point a little behind the second stop. -/
def behindSecondStop : Report := ⟨⟨9, 1, ⟨0, 21 / 10⟩⟩, 10, 11, by decide +kernel⟩

/-- What the code finds after the report. -/
def afterReport : Env :=
  (Town.env 0).reading .stable (store Tracking.none.db behindSecondStop.gps 10 11)

/-- A passenger at the first stop is told three minutes by the report, and one when the app
asks. -/
theorem push_and_poll_fromFirstStop :
    ∃ notice, (create (fun _ => ⟨0, 1⟩) (Town.world [Town.van 9 4])
        (Table.empty.insert fromFirstStop) afterReport behindSecondStop.gps).1 = [notice] ∧
      notice.eta = 180 ∧
      Comparable (Town.world [Town.van 9 4]) afterReport behindSecondStop.gps fromFirstStop
        notice := by
  have hlater : Later Tracking.none behindSecondStop := fun _ hrow => nomatch hrow
  have hdecimals : behindSecondStop.gps.position.FiveDecimals :=
    ⟨0, 210000, by norm_num [behindSecondStop]⟩
  obtain ⟨told, rest, hsplit, -, htold⟩ := push_and_poll (Town.world [Town.van 9 4]) (Town.env 0)
    (fun _ => ⟨0, 1⟩) hlater hdecimals .stable (Table.empty.insert fromFirstStop)
  have hsent : (create (fun _ => ⟨0, 1⟩) (Town.world [Town.van 9 4])
      (Table.empty.insert fromFirstStop) afterReport behindSecondStop.gps).1 =
      [⟨1, 1, 180, behindSecondStop.gps⟩] := by
    rw [create, if_pos behindSecondStop.fits]
    rfl
  refine ⟨_, hsent, rfl, ?_⟩
  change List.Forall₂ _ told (create _ _ _ afterReport behindSecondStop.gps).1 at htold
  rw [hsent] at htold
  obtain ⟨t, _, ⟨-, hcompare⟩, -, rfl⟩ := List.forall₂_cons_right_iff.mp htold
  have hpending : Trip.getPendingForDriver (Table.empty.insert fromFirstStop) 9 =
      [fromFirstStop] := rfl
  obtain rfl : fromFirstStop = t := (List.cons.inj (hpending.symm.trans hsplit)).1
  exact hcompare rfl

/-- A sixth decimal is pushed and not polled. -/
example : (Position.kept ⟨0, 2100001 / 1000000⟩) = ⟨0, 21 / 10⟩ := by decide +kernel

end Maiden
