import Maiden.Base.Interleave
import Maiden.Safety.Journeys

/-!
# Routes are dispatched independently

The first loop of a tick is a `par.foreach`: its workers run side by side, and what one of them
decides depends on the live trips that it reads while the others write. A worker looks at the
vehicles of its trip's route only, and a vehicle belongs to one route; so workers of trips on
different routes do not notice each other. If no two of the pending trips are on one route, the
order in which the workers take their steps makes no difference (`routes_independent`): the loop
might as well be a plain `foreach`, in any order.

For two trips on one route it does make a difference (`same_route_differs`).
-/

namespace Maiden

/-- The worker that a label runs. -/
def Label.workerIndex : Label → Option Nat
  | .worker i _ => some i
  | _ => none

/-- The table after a write, if there is one. -/
def rewritten (db : Table Trip) : Option Trip → Table Trip
  | none => db
  | some row => db.update row

/-! ## What a worker reads and writes -/

section

variable {w : World} {env : Env} {trip t row : Trip} {db db' : Table Trip} {k : Task}

/-- On a table that shows the worker the same, its step is the same. What a worker reads is the row
of its own trip and the trips of the vehicles of its route, one vehicle at a time. -/
theorem Matching.step_frame (hat : Matching w trip k) (hget : db.get trip.id = some t)
    (hsame : db'.get trip.id = db.get trip.id)
    (hocc : ∀ v ∈ Vehicle.getForRouteRaw w.vehicles trip.routeId,
      Trip.getOccupiedTripsByVehicle db' v.id = Trip.getOccupiedTripsByVehicle db v.id) :
    Task.step w env db' k =
      (Task.step w env db k).map fun p => (rewritten db' (k.replaces env), p.2) := by
  have hget' : db'.get trip.id = some t := hsame.trans hget
  cases hat with
  | start => simp [Task.step, hget, hget', Task.replaces, rewritten]
  | @mark row hid hstate =>
    cases hp : env.publishes row <;> simp [Task.step, hp, Task.replaces, rewritten]
  | assign => cases hof : TripMeta.of w trip <;> simp [Task.step, hof, Task.replaces, rewritten]
  -- the only step that reads rows of other trips
  | @survey tm readings left hof hread =>
    cases left with
    | cons v left =>
      have hv : v ∈ Vehicle.getForRouteRaw w.vehicles trip.routeId := by
        obtain ⟨-, -, -, hvehicles, -⟩ := TripMeta.of_eq_ok hof
        rw [← hvehicles, ← hread]
        exact List.mem_append_right _ List.mem_cons_self
      simp [Task.step, hocc v hv, Task.replaces, rewritten]
    | nil =>
      cases havail : getAvailableVehicles w tm trip.seats readings with
      | error e => simp [Task.step, havail, Task.replaces, rewritten]
      | ok available =>
        cases available <;> simp [Task.step, havail, Task.replaces, rewritten]
  | @route tm readings available hof hread havail hne =>
    cases hmatch : matchTrip w env tm available trip with
    | error e => simp [Task.step, hmatch, Task.replaces, rewritten]
    | ok res => cases res <;> simp [Task.step, hmatch, Task.replaces, rewritten]
  | @save tm readings v eta geom hof hread havail =>
    -- the trip was stored, so that the save is an update and not an insert
    have hid : Keyed.key (trip.assigned v eta geom).unprocessed ≠ 0 := by
      show trip.id ≠ 0
      exact Table.key_of_get hget ▸ Table.key_ne_zero_of_mem (Table.mem_of_get hget)
    simp [Task.step, Task.replaces, rewritten, upsert_old db' env.now hid]
  | giveUp => simp [Task.step, hget, hget', Task.replaces, rewritten]
  | @refuse row hid hstate =>
    cases hp : env.publishes row <;> simp [Task.step, hp, Task.replaces, rewritten]
  | finished => rfl
  | failed => rfl

/-- A worker replaces the row of its own trip while that is not live, by one that is not live
either or has a vehicle of its route. -/
theorem Matching.replaces_spec (hat : Matching w trip k) (h : k.replaces env = some row) :
    row.id = trip.id ∧
      (∃ state, k.expects .matching = some state ∧ state ∉ Trip.haveRideStates) ∧
      (row.rideState ∉ Trip.haveRideStates ∨
        ∃ v ∈ Vehicle.getForRouteRaw w.vehicles trip.routeId, row.vehicleId = v.id) := by
  -- what a write replaces the row by is the copy in its hand, if it gets through
  have hwrite : ∀ {r : Trip} {after : After},
      (Task.write r after).replaces env = some row → r = row := by
    intro r after hr
    rw [Task.replaces] at hr
    split at hr
    · exact Option.some.inj hr
    · cases hr
  cases hat with
  | mark hid hstate =>
    cases hwrite h
    exact ⟨hid, ⟨_, rfl, by decide⟩, Or.inl (hstate ▸ by decide)⟩
  | @save tm readings v eta geom hof hread havail =>
    cases h
    exact ⟨rfl, ⟨_, rfl, by decide⟩, Or.inr ⟨v, available_onRoute hof hread havail, rfl⟩⟩
  | refuse hid hstate =>
    cases hwrite h
    exact ⟨hid, ⟨_, rfl, by decide⟩, Or.inl (hstate ▸ by decide)⟩
  | _ => cases h

end

/-! ## Workers of different routes -/

/-- The first loop, with trips of pairwise different routes. -/
structure Parted (w : World) (s : Sys) : Prop where
  wf : Wf w (fun _ => True) (fun _ => True) s
  expected : ∀ tripId, AsExpected tripId s
  matching : s.phase = .matching
  routes : ∀ {i j : Nat} {wk wk' : Worker}, s.workers[i]? = some wk → s.workers[j]? = some wk' →
    i ≠ j → wk.trip.routeId ≠ wk'.trip.routeId

section

variable {w : World} {s s' : Sys} {i j : Nat} {wk wk' : Worker}

theorem Parted.matching_at (h : Parted w s) (hi : s.workers[i]? = some wk) :
    Matching w wk.trip wk.task := by
  have hat := h.wf.workers_at wk (List.mem_of_getElem? hi)
  rw [h.matching] at hat
  exact hat.2

theorem Parted.stored (h : Parted w s) (hi : s.workers[i]? = some wk) :
    ∃ t, s.trips.get wk.trip.id = some t := by
  obtain ⟨t, hget, -⟩ := h.wf.workers_agree wk (List.mem_of_getElem? hi) _ List.mem_cons_self
  exact ⟨t, hget⟩

/-- What a worker reads is not touched by the write of another one. -/
theorem Parted.reads_kept (h : Parted w s) (hi : s.workers[i]? = some wk)
    (hj : s.workers[j]? = some wk') (hij : i ≠ j) (env : Env) :
    (rewritten s.trips (wk'.task.replaces env)).get wk.trip.id = s.trips.get wk.trip.id ∧
      ∀ v ∈ Vehicle.getForRouteRaw w.vehicles wk.trip.routeId,
        Trip.getOccupiedTripsByVehicle (rewritten s.trips (wk'.task.replaces env)) v.id =
          Trip.getOccupiedTripsByVehicle s.trips v.id := by
  cases hrow : wk'.task.replaces env with
  | none => exact ⟨rfl, fun _ _ => rfl⟩
  | some row =>
    obtain ⟨hid, ⟨state, hexpects, hstate⟩, hnew⟩ := (h.matching_at hj).replaces_spec hrow
    refine ⟨Table.get_update_ne fun heq => ?_, fun v hv => Table.fetch_update ?_ ?_⟩
    · exact h.wf.id_ne hj hi hij (heq.trans hid)
    · -- the new row is not live, or in a vehicle of the other route
      rw [Bool.and_eq_false_iff]
      rcases hnew with hdead | ⟨v', hv', hvehicle⟩
      · exact Or.inr (Bool.eq_false_iff.mpr fun hlive => hdead (Trip.isLive_iff.mp hlive))
      · refine Or.inl (beq_eq_false_iff_ne.mpr fun heq => h.routes hi hj hij ?_)
        obtain ⟨hmem, hroute, -⟩ := Vehicle.mem_getForRouteRaw.mp hv
        obtain ⟨hmem', hroute', -⟩ := Vehicle.mem_getForRouteRaw.mp hv'
        rw [← hroute, ← hroute', Table.eq_of_key_eq hmem hmem' (heq.symm.trans hvehicle)]
    · intro r hr hkey
      -- the old row is in the state the worker expects
      have hexpected := h.expected wk'.trip.id wk' (List.mem_of_getElem? hj) rfl state
        (h.matching ▸ hexpects)
      have hget : s.trips.get wk'.trip.id = some r := by
        rw [← hid, ← show r.id = row.id from hkey]
        exact Table.get_of_mem hr
      rw [Sys.rideState, hget] at hexpected
      rw [Bool.and_eq_false_iff]
      refine Or.inr (Bool.eq_false_iff.mpr fun hlive => hstate ?_)
      rw [← Option.some.inj hexpected]
      exact Trip.isLive_iff.mp hlive

theorem Sys.step_worker (hi : s.workers[i]? = some wk) (env : Env) :
    s.step w (.worker i env) = (Task.step w env s.trips wk.task).map fun p =>
      { s with trips := p.1, workers := s.workers.set i ⟨wk.trip, p.2⟩ } := by
  rw [Sys.step, hi]
  dsimp only
  cases Task.step w env s.trips wk.task <;> rfl

/-- Two workers, one after the other: the second steps as it would have stepped first, since the
first has written nothing that it reads. -/
theorem Parted.both (h : Parted w s) (hi : s.workers[i]? = some wk)
    (hj : s.workers[j]? = some wk') (hij : i ≠ j) (env env' : Env) :
    (s.step w (.worker j env')).bind (·.step w (.worker i env)) =
      (Task.step w env' s.trips wk'.task).bind fun q =>
        (Task.step w env s.trips wk.task).map fun p =>
          { s with
            trips := rewritten (rewritten s.trips (wk'.task.replaces env')) (wk.task.replaces env)
            workers := (s.workers.set j ⟨wk'.trip, q.2⟩).set i ⟨wk.trip, p.2⟩ } := by
  obtain ⟨t, hget⟩ := h.stored hi
  obtain ⟨t', hget'⟩ := h.stored hj
  obtain ⟨hown, hocc⟩ := h.reads_kept hi hj hij env'
  have hsecond : Task.step w env (rewritten s.trips (wk'.task.replaces env')) wk.task = _ :=
    (h.matching_at hi).step_frame hget hown hocc
  rw [Sys.step_worker hj, (h.matching_at hj).step_frame hget' rfl fun _ _ => rfl]
  cases Task.step w env' s.trips wk'.task with
  | none => rfl
  | some q =>
    -- the first step has left the second worker where it was
    have hi' : (s.workers.set j ⟨wk'.trip, q.2⟩)[i]? = some wk :=
      (List.getElem?_set_ne (Ne.symm hij)).trans hi
    show Sys.step w { s with
      trips := rewritten s.trips (wk'.task.replaces env')
      workers := s.workers.set j ⟨wk'.trip, q.2⟩ } (.worker i env) = _
    rw [Sys.step_worker hi']
    dsimp only
    rw [hsecond]
    show _ = (Task.step w env s.trips wk.task).map _
    cases Task.step w env s.trips wk.task <;> rfl

/-- The rows of two workers are different ones, so it does not matter which is written first. -/
theorem Parted.rewritten_comm (h : Parted w s) (hi : s.workers[i]? = some wk)
    (hj : s.workers[j]? = some wk') (hij : i ≠ j) (env env' : Env) :
    rewritten (rewritten s.trips (wk'.task.replaces env')) (wk.task.replaces env) =
      rewritten (rewritten s.trips (wk.task.replaces env)) (wk'.task.replaces env') := by
  cases hrow : wk.task.replaces env with
  | none => rfl
  | some row =>
    cases hrow' : wk'.task.replaces env' with
    | none => rfl
    | some row' =>
      obtain ⟨hid, -⟩ := (h.matching_at hi).replaces_spec hrow
      obtain ⟨hid', -⟩ := (h.matching_at hj).replaces_spec hrow'
      have hne : row'.id ≠ row.id := by
        rw [hid, hid']
        exact h.wf.id_ne hi hj (Ne.symm hij)
      exact Table.update_comm s.trips hne

/-- A worker that is not there has no step, also after the step of another one. -/
theorem Sys.step_worker_none (hi : s.workers[i]? = none) (env : Env) :
    s.step w (.worker i env) = none := by
  rw [Sys.step, hi]

theorem Sys.bind_worker_none (hi : s.workers[i]? = none) (env env' : Env) :
    (s.step w (.worker j env')).bind (·.step w (.worker i env)) = none := by
  rw [Option.bind_eq_none_iff]
  intro m hm
  refine Sys.step_worker_none (List.getElem?_eq_none_iff.mpr ?_) env
  have hlength := List.getElem?_eq_none_iff.mp hi
  cases Sys.step_steps hm with
  | worker => simpa using hlength

/-- **The steps of two workers may be exchanged.** Their rows have different ids, so the two
updates commute, and neither step sees what the other writes. -/
theorem Parted.commutes (w : World) :
    Run.Commutes (Sys.step w) Label.workerIndex (fun l => l.workerIndex.isSome = true)
      (Parted w) := by
  intro s a b h ha hb hab
  cases a with
  | worker i env =>
    cases b with
    | worker j env' =>
      have hij : i ≠ j := fun heq => hab (congrArg some heq)
      cases hi : s.workers[i]? with
      | none =>
        -- there is no such worker, before the other's step or after it
        rw [Sys.bind_worker_none hi, Sys.step_worker_none hi]
        rfl
      | some wk =>
        cases hj : s.workers[j]? with
        | none =>
          rw [Sys.bind_worker_none hj, Sys.step_worker_none hj]
          rfl
        | some wk' =>
          rw [h.both hj hi (Ne.symm hij), h.both hi hj hij, h.rewritten_comm hi hj hij]
          cases Task.step w env s.trips wk.task with
          | none => cases Task.step w env' s.trips wk'.task <;> rfl
          | some p =>
            cases Task.step w env' s.trips wk'.task with
            | none => rfl
            | some q =>
              dsimp only [Option.bind_some, Option.map_some]
              rw [List.set_comm _ _ hij]
    | _ => cases hb
  | _ => cases ha

/-- A worker's step keeps the routes apart. -/
theorem Parted.step {l : Label} (h : Parted w s) (hl : l.workerIndex.isSome = true)
    (hstep : s.step w l = some s') : Parted w s' := by
  cases l with
  | worker i env =>
    have hs := Sys.step_steps hstep
    have hwf := h.wf.step hs (Label.within_true _)
    have hexpected : ∀ tripId, AsExpected tripId s' := fun tripId =>
      ((h.expected tripId).step h.wf hs (untouched_worker tripId s i env)).2
    cases hs with
    | @worker _ _ wk k' db hw hm =>
      refine ⟨hwf, hexpected, h.matching, ?_⟩
      -- a worker keeps its trip
      have htrip : ∀ {n : Nat} {x : Worker}, (s.workers.set i ⟨wk.trip, k'⟩)[n]? = some x →
          ∃ y, s.workers[n]? = some y ∧ y.trip = x.trip := by
        intro n x hx
        by_cases hn : i = n
        · subst hn
          obtain ⟨hlt, -⟩ := List.getElem?_eq_some_iff.mp hw
          rw [List.getElem?_set_self hlt] at hx
          cases hx
          exact ⟨wk, hw, rfl⟩
        · exact ⟨x, (List.getElem?_set_ne hn).symm.trans hx, rfl⟩
      intro n m x y hx hy hnm
      obtain ⟨x', hx', hxt⟩ := htrip hx
      obtain ⟨y', hy', hyt⟩ := htrip hy
      rw [← hxt, ← hyt]
      exact h.routes hx' hy' hnm
  | _ => cases hl

/-- A tick starts with the routes apart when its trips are. -/
theorem Parted.of_tick (hwf : Wf w (fun _ => True) (fun _ => True) s)
    (hroutes : ((Trip.getPending s.trips).map Trip.routeId).Nodup)
    (hstep : s.step w .tick = some s') : Parted w s' := by
  have hs := Sys.step_steps hstep
  have hwf' := hwf.step hs (Label.within_true _)
  cases hs with
  | tick hidle =>
    have hexpected : ∀ tripId, AsExpected tripId { s with
        phase := .matching
        workers := (Trip.getPending s.trips).map Worker.findVehicle } := fun tripId => by
      rw [Trip.getPending_eq]
      exact AsExpected.spawn (fun _ => rfl) (fun _ => rfl) fun t ht => (Trip.isPending_iff.mp ht).1
    refine ⟨hwf', hexpected, rfl, ?_⟩
    intro i j wk wk' hi hj hij
    rw [List.getElem?_map] at hi hj
    obtain ⟨t, ht, rfl⟩ := Option.map_eq_some_iff.mp hi
    obtain ⟨t', ht', rfl⟩ := Option.map_eq_some_iff.mp hj
    intro heq
    obtain ⟨hlt, -⟩ := List.getElem?_eq_some_iff.mp ht
    -- two workers of one route would be two places of one route in a list without repetition
    have hpos : ((Trip.getPending s.trips).map Trip.routeId)[i]? =
        ((Trip.getPending s.trips).map Trip.routeId)[j]? := by
      simp only [List.getElem?_map, ht, ht']
      exact congrArg some heq
    exact hij ((List.getElem?_inj (by simpa using hlt) hroutes).mp hpos)

end

/-- **Routes are dispatched independently.** A tick starts, at any point of any run, on pending
trips of pairwise different routes. Any two interleavings in which each worker takes the same
steps, with the same answers from the outside, then end in the same state. -/
theorem routes_independent (w : World) (db : Table Trip) {before run run' : List Label}
    {s start : Sys} (hbefore : Run.exec (Sys.step w) { trips := db } before = some s)
    (hroutes : ((Trip.getPending s.trips).map Trip.routeId).Nodup)
    (htick : s.step w .tick = some start) (hworkers : ∀ l ∈ run, l.workerIndex.isSome = true)
    (hsame : Run.SameSteps Label.workerIndex run run') :
    Run.exec (Sys.step w) start run = Run.exec (Sys.step w) start run' :=
  Run.exec_eq_of_sameSteps (Parted.commutes w)
    (fun _ _ _ hstep hl hs => Parted.step hs hl hstep) hworkers hsame
    (Parted.of_tick (wf_of_exec hbefore) hroutes htick)

/-- Two routes with three stops and a van each. -/
def twoRoutes : World where
  unicode := Unicode.ascii
  stops := ((Town.stops.insert (Town.stop 2 1 ['3', 'F', 'F'])).insert
    (Town.stop 2 2 ['4'])).insert (Town.stop 2 3 ['4', '0', '0', '8'])
  vehicles := (Table.empty.insert (Town.van 9 4)).insert { Town.van 8 4 with routeId := 2 }
  schedules := Table.empty

/-- One trip on each of the two routes. -/
def tripOnEach : List Label :=
  Town.served 0 2 (.bookTrip (Town.ride 5 1)) ++
    Town.served 1 2 (.bookTrip
      { Town.ride 6 1 with routeId := 2, pickupStop := 4, dropoffStop := 5 })

/-- Two workers in turn, for `n` steps each. -/
def inTurns : Nat → List Label
  | 0 => []
  | n + 1 => .worker 0 (Town.env 0) :: .worker 1 (Town.env 0) :: inTurns n

theorem sameSteps_inTurns :
    Run.SameSteps Label.workerIndex (inTurns 7) (Town.worked 0 7 ++ Town.worked 1 7) := by
  intro t
  match t with
  | none => rfl
  | some 0 => rfl
  | some 1 => rfl
  | some (n + 2) => rfl

theorem routes_independent_tripOnEach :
    ∃ s start last, Run.exec (Sys.step twoRoutes) { trips := Table.empty } tripOnEach = some s ∧
      s.step twoRoutes .tick = some start ∧
      Run.exec (Sys.step twoRoutes) start (inTurns 7) = some last ∧
      Run.exec (Sys.step twoRoutes) start (Town.worked 0 7 ++ Town.worked 1 7) = some last ∧
      last.rideState 1 = some RideStateType.vehicleAccepted.id ∧
      last.rideState 2 = some RideStateType.vehicleAccepted.id := by
  have hrun : (Run.exec (Sys.step twoRoutes) { trips := Table.empty } tripOnEach).any (fun s =>
      decide ((Trip.getPending s.trips).map Trip.routeId).Nodup &&
      (s.step twoRoutes .tick).any fun start =>
        (Run.exec (Sys.step twoRoutes) start (inTurns 7)).any fun last =>
          last.rideState 1 == some RideStateType.vehicleAccepted.id &&
          last.rideState 2 == some RideStateType.vehicleAccepted.id) = true := by decide
  obtain ⟨s, hs, hall⟩ := (Option.any_eq_true _ _).mp hrun
  simp only [Bool.and_eq_true, decide_eq_true_eq, Option.any_eq_true, beq_iff_eq] at hall
  obtain ⟨hroutes, start, hstart, last, hlast, h1, h2⟩ := hall
  refine ⟨s, start, last, hs, hstart, hlast, ?_, h1, h2⟩
  rw [← routes_independent _ _ hs hroutes hstart (by decide) sameSteps_inTurns]
  exact hlast

/-- A van with one seat. -/
def oneSeat : World := Town.world [Town.van 9 1]

/-- Two passengers want the seat from the first stop to the third. -/
def twoForOneSeat : List Label :=
  Town.served 0 2 (.bookTrip { Town.ride 5 1 with dropoffStop := 3 }) ++
    Town.served 1 2 (.bookTrip { Town.ride 6 1 with dropoffStop := 3 }) ++ [.tick]

/-- On one route the order matters: one after the other, the second passenger is refused; side
by side, both are accepted. -/
theorem same_route_differs :
    ((Run.exec (Sys.step oneSeat) { trips := Table.empty }
        (twoForOneSeat ++ (Town.worked 0 7 ++ Town.worked 1 7))).bind fun s => s.rideState 2) =
      some RideStateType.noAvailableVehicles.id ∧
    ((Run.exec (Sys.step oneSeat) { trips := Table.empty }
        (twoForOneSeat ++ inTurns 7)).bind fun s => s.rideState 2) =
      some RideStateType.vehicleAccepted.id := by
  decide

end Maiden
