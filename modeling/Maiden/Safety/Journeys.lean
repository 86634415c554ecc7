import Maiden.Actors.Invariant

/-!
# The journey of a trip

`Trip.updateState` refuses no transition ("need to validate the transition and do other stuff
here"), and the dispatcher writes states into rows it has read some time ago. This module is
about a trip that no request updates while other trips may well be updated: the dispatcher
takes it along the edges of a small graph (`RideEdge`) and no others,

    Initial → FindingVehicle → VehicleAccepted → DriverNoShow
                             → NoAvailableVehicles

however its workers are interleaved and wherever they throw (`journey`). The reason is that
every worker knows the state of its trip from where it is (`Task.expects`): it read the trip
in one, and nobody else writes that row.

A trip that the dispatcher has let go of in any state but Initial and VehicleAccepted is never
touched again (`left_alone`); in FindingVehicle, where a worker leaves it that throws or finds
several vehicles, that means it waits for ever.
-/

namespace Maiden

/-- The ride state of a trip, if the trip is there. -/
def Sys.rideState (s : Sys) (tripId : Int) : Option Int := (s.trips.get tripId).map Trip.rideState

/-- What one transition may do to the ride state of a trip that no request updates. -/
inductive RideEdge : Option Int → Option Int → Prop
  | same (state : Option Int) : RideEdge state state
  | booked : RideEdge none (some RideStateType.initial.id)
  | finding : RideEdge (some RideStateType.initial.id) (some RideStateType.findingVehicle.id)
  | accepted :
      RideEdge (some RideStateType.findingVehicle.id) (some RideStateType.vehicleAccepted.id)
  | refused :
      RideEdge (some RideStateType.findingVehicle.id) (some RideStateType.noAvailableVehicles.id)
  | noShow : RideEdge (some RideStateType.vehicleAccepted.id) (some RideStateType.driverNoShow.id)

/-- No request commits an update of the trip. -/
def Untouched (tripId : Int) (s : Sys) (l : Label) : Prop :=
  (s.event l).bind Event.updated ≠ some tripId

instance (tripId : Int) (s : Sys) (l : Label) : Decidable (Untouched tripId s l) :=
  inferInstanceAs (Decidable (_ ≠ _))

/-- Workers are not requests. -/
theorem untouched_worker (tripId : Int) (s : Sys) (i : Nat) (env : Env) :
    Untouched tripId s (.worker i env) := by
  intro h
  obtain ⟨e, he, hupdated⟩ := Option.bind_eq_some_iff.mp h
  obtain ⟨wk, -, hevent⟩ := Option.bind_eq_some_iff.mp he
  rcases Task.workerEvent_eq_some hevent with ⟨row, after, -, -, rfl⟩ | ⟨trip, readings, -, rfl⟩
  · cases hupdated
  · cases hupdated

/-! ## Rows that are written -/

section

variable {db : Table Trip} {tripId : Int}

theorem rideState_update {row t : Trip} (hid : row.id = tripId) (hget : db.get tripId = some t) :
    ((db.update row).get tripId).map Trip.rideState = some row.rideState := by
  subst hid
  rw [show (db.update row).get row.id = some row from Table.get_update_self hget]
  rfl

/-- A booking shows up as a trip in the first state. -/
theorem edge_insert (db : Table Trip) (b : Booking) (created now tripId : Int) :
    RideEdge ((db.get tripId).map Trip.rideState)
      (((db.insert (stamped (b.trip created) now)).get tripId).map Trip.rideState) := by
  cases hget : db.get tripId with
  | some t =>
    rw [Table.get_insert_of_get hget]
    exact .same _
  | none =>
    cases hnew : (db.insert (stamped (b.trip created) now)).get tripId with
    | none => exact .same _
    | some t =>
      obtain ⟨hmem, hid⟩ := Table.get_eq_some_iff.mp hnew
      rcases Table.mem_insert.mp hmem with hold | rfl
      · exact absurd hid (Table.get_eq_none_iff.mp hget t hold)
      · exact .booked

end

section

variable {w : World} {okB : Booking → Prop} {okS : Int → Prop} {s s' : Sys} {l : Label}
  {tripId : Int}

/-- A request that does not update the trip leaves its row alone or books it. -/
theorem Wf.client_edge (h : Wf w okB okS s) {i : Nat} {env : Env} {k k' : Task} {db : Table Trip}
    (hk : s.clients[i]? = some k) (hm : Task.Moves w env s.trips k db k')
    (huntouched : Untouched tripId s (.client i env)) :
    RideEdge (s.rideState tripId) ((db.get tripId).map Trip.rideState) ∧
      ∀ t, s.trips.get tripId = some t → db.get tripId = some t := by
  rcases h.client_table hk hm with ⟨rfl, -⟩ | ⟨row, after, rfl, -, -, hp, rfl⟩ |
    ⟨b, created, rfl, -, rfl⟩
  · exact ⟨.same _, fun t ht => ht⟩
  · -- a write to the trip would have been an event that touches it
    have hne : tripId ≠ row.id := by
      rintro rfl
      refine huntouched ?_
      rw [Sys.event_client env hk, Task.clientEvent, if_pos hp]
      rfl
    rw [Table.get_update_ne hne]
    exact ⟨.same _, fun t ht => ht⟩
  · exact ⟨edge_insert .., fun t ht => Table.get_insert_of_get ht⟩

/-! ## What a worker knows -/

/-- The state that its trip is in while a worker is here. -/
def Task.expects : Phase → Task → Option Int
  | .matching, .update _ _ (.assign _) => some RideStateType.initial.id
  | .matching, .write _ (.assign _) => some RideStateType.initial.id
  | .matching, k => if k.ended then none else some RideStateType.findingVehicle.id
  | .sweeping, k => if k.ended then none else some RideStateType.vehicleAccepted.id
  | .idle, _ => none

theorem Task.expects_of_ended {k : Task} (h : k.ended = true) (phase : Phase) :
    k.expects phase = none := by
  cases phase <;> cases k <;> first | rfl | cases h

/-- The workers of the trip find it in the state they expect. -/
def AsExpected (tripId : Int) (s : Sys) : Prop :=
  ∀ wk ∈ s.workers, wk.trip.id = tripId →
    ∀ state ∈ wk.task.expects s.phase, s.rideState tripId = some state

/-- What a step of its own worker does to the state of a trip. -/
structure Task.Leads (phase : Phase) (state state' : Option Int) (k' : Task) : Prop where
  edge : RideEdge state state'
  expected : ∀ st ∈ k'.expects phase, state' = some st

theorem Task.Leads.stay {phase : Phase} {state state' : Option Int} {k k' : Task}
    (hsame : state' = state) (h : ∀ st ∈ k.expects phase, state = some st)
    (hexpects : k'.expects phase = k.expects phase ∨ k'.ended = true) :
    Task.Leads phase state state' k' := by
  subst hsame
  refine ⟨.same state', ?_⟩
  rcases hexpects with heq | hended
  · rw [heq]
    exact h
  · rw [Task.expects_of_ended hended]
    exact fun _ hst => nomatch hst

/-- A worker of the first loop. -/
theorem Matching.leads {env : Env} {trip t : Trip} {db db' : Table Trip} {k k' : Task}
    (hat : Matching w trip k)
    (hm : Task.Moves w env db k db' k') (hget : db.get trip.id = some t)
    (h : ∀ st ∈ k.expects .matching, some t.rideState = some st) :
    Task.Leads .matching (some t.rideState) ((db'.get trip.id).map Trip.rideState) k' := by
  have hsame : (db.get trip.id).map Trip.rideState = some t.rideState := by
    rw [hget]
    rfl
  cases hat with
  | start =>
    cases hm with
    | missing hnone => cases hget.symm.trans hnone
    | read => exact Task.Leads.stay hsame h (Or.inl rfl)
  | mark hid hstate =>
    cases hm with
    | rollback => exact Task.Leads.stay hsame h (Or.inr rfl)
    | commit =>
      rw [rideState_update hid hget, hstate, h _ rfl]
      exact ⟨.finding, fun st hst => hst⟩
  | assign =>
    cases hm with
    | noStops => exact Task.Leads.stay hsame h (Or.inr rfl)
    | begin => exact Task.Leads.stay hsame h (Or.inl rfl)
  | survey hof hread =>
    cases hm with
    | look => exact Task.Leads.stay hsame h (Or.inl rfl)
    | unreadable => exact Task.Leads.stay hsame h (Or.inr rfl)
    | noVehicle => exact Task.Leads.stay hsame h (Or.inl rfl)
    | choose => exact Task.Leads.stay hsame h (Or.inl rfl)
  | route =>
    cases hm with
    | unroutable => exact Task.Leads.stay hsame h (Or.inr rfl)
    | unmatched => exact Task.Leads.stay hsame h (Or.inr rfl)
    | matched => exact Task.Leads.stay hsame h (Or.inl rfl)
  | @save tm readings v eta geom =>
    cases hm with
    | saved =>
      -- the trip has the id of a stored row, so the upsert replaces that row
      have hid : (trip.assigned v eta geom).unprocessed.id ≠ 0 :=
        Table.key_of_get hget ▸ Table.key_ne_zero_of_mem (Table.mem_of_get hget)
      have hstate : ((db.update (stamped (trip.assigned v eta geom).unprocessed env.now)).get
          trip.id).map Trip.rideState = some RideStateType.vehicleAccepted.id :=
        rideState_update rfl hget
      rw [upsert_old db env.now hid, hstate, h _ rfl]
      refine ⟨.accepted, ?_⟩
      rw [Task.expects_of_ended (by split <;> rfl)]
      exact fun _ hst => nomatch hst
  | giveUp =>
    cases hm with
    | missing hnone => cases hget.symm.trans hnone
    | read => exact Task.Leads.stay hsame h (Or.inl rfl)
  | refuse hid hstate =>
    cases hm with
    | rollback => exact Task.Leads.stay hsame h (Or.inr rfl)
    | commit =>
      rw [rideState_update hid hget, hstate, h _ rfl]
      exact ⟨.refused, fun st hst => nomatch hst⟩
  | finished => cases hm
  | failed => cases hm

/-- A worker of the second loop. -/
theorem Sweeping.leads {env : Env} {trip t : Trip} {db db' : Table Trip} {k k' : Task}
    (hat : Sweeping trip k) (hm : Task.Moves w env db k db' k') (hget : db.get trip.id = some t)
    (h : ∀ st ∈ k.expects .sweeping, some t.rideState = some st) :
    Task.Leads .sweeping (some t.rideState) ((db'.get trip.id).map Trip.rideState) k' := by
  have hsame : (db.get trip.id).map Trip.rideState = some t.rideState := by
    rw [hget]
    rfl
  cases hat with
  | start =>
    cases hm with
    | missing hnone => cases hget.symm.trans hnone
    | read => exact Task.Leads.stay hsame h (Or.inl rfl)
  | mark hid hstate =>
    cases hm with
    | rollback => exact Task.Leads.stay hsame h (Or.inr rfl)
    | commit =>
      rw [rideState_update hid hget, hstate, h _ rfl]
      -- the ride was accepted when it was fetched, and nobody has changed its state since
      exact ⟨.noShow, fun st hst => nomatch hst⟩
  | finished => cases hm
  | failed => cases hm

theorem Worker.At.leads {env : Env} {phase : Phase} {wk : Worker} {t : Trip}
    {db db' : Table Trip} {k' : Task} (hat : wk.At w phase)
    (hm : Task.Moves w env db wk.task db' k') (hget : db.get wk.trip.id = some t)
    (h : ∀ st ∈ wk.task.expects phase, some t.rideState = some st) :
    Task.Leads phase (some t.rideState) ((db'.get wk.trip.id).map Trip.rideState) k' := by
  cases phase with
  | idle => exact hat.elim
  | matching => exact hat.2.leads hm hget h
  | sweeping => exact Sweeping.leads hat hm hget h

/-! ## One transition -/

/-- The workers that a loop starts with expect what the query has read. -/
theorem AsExpected.spawn {phase : Phase} {p : Trip → Bool} {body : Trip → Worker} {state : Int}
    (htrip : ∀ t, (body t).trip = t) (hexpects : ∀ t, (body t).task.expects phase = some state)
    (hp : ∀ t, p t = true → t.rideState = state) :
    AsExpected tripId { s with phase := phase, workers := (s.trips.fetch p).map body } := by
  intro wk hwk hid st hst
  obtain ⟨t, ht, rfl⟩ := List.mem_map.mp hwk
  obtain ⟨hmem, hpt⟩ := Table.mem_fetch.mp ht
  rw [htrip] at hid
  subst hid
  rw [hexpects, Option.mem_some_iff] at hst
  show (s.trips.get t.id).map Trip.rideState = some st
  rw [show s.trips.get t.id = some t from Table.get_of_mem hmem, ← hst, ← hp t hpt]
  rfl

/-- **One transition** moves the trip along an edge, and the workers keep expecting the right
state. -/
theorem AsExpected.step (h : AsExpected tripId s) (hwf : Wf w okB okS s) (hs : s.Steps w l s')
    (huntouched : Untouched tripId s l) :
    RideEdge (s.rideState tripId) (s'.rideState tripId) ∧ AsExpected tripId s' := by
  cases hs with
  | request => exact ⟨.same _, h⟩
  | @client i env k k' db hk hm =>
    obtain ⟨hedge, hkept⟩ := hwf.client_edge hk hm huntouched
    refine ⟨hedge, fun wk hwk hid st hst => ?_⟩
    -- the trip of a worker is in the table, so its row is as it was
    obtain ⟨t, hget, -⟩ := hwf.workers_agree wk hwk wk.trip List.mem_cons_self
    rw [hid] at hget
    have hstate := h wk hwk hid st hst
    rw [Sys.rideState, hget] at hstate
    rw [Sys.rideState, hkept t hget]
    exact hstate
  | tick =>
    refine ⟨.same _, ?_⟩
    rw [Trip.getPending_eq]
    exact AsExpected.spawn (fun _ => rfl) (fun _ => rfl) fun t ht => (Trip.isPending_iff.mp ht).1
  | @worker i env wk k' db hw hm =>
    have hmem := List.mem_of_getElem? hw
    by_cases hid : wk.trip.id = tripId
    · subst hid
      obtain ⟨t, hget, -⟩ := hwf.workers_agree wk hmem wk.trip List.mem_cons_self
      have hstate : s.rideState wk.trip.id = some t.rideState := by
        rw [Sys.rideState, hget]
        rfl
      have hexpected := h wk hmem rfl
      rw [hstate] at hexpected
      have hleads := (hwf.workers_at wk hmem).leads hm hget hexpected
      refine ⟨hstate ▸ hleads.edge, fun x hx hxid st hst => ?_⟩
      rcases mem_set_cases hx with rfl | ⟨j, hij, hj⟩
      · exact hleads.expected st hst
      · exact absurd hxid (hwf.id_ne hw hj hij)
    · -- another trip's worker
      have hframe := (hwf.worker_frame hw hm).2 tripId (Ne.symm hid)
      have hsame : (db.get tripId).map Trip.rideState = s.rideState tripId := by
        rw [hframe]
        rfl
      refine ⟨hsame.symm ▸ .same _, fun x hx hxid st hst => ?_⟩
      rcases List.mem_or_eq_of_mem_set hx with hold | rfl
      · exact hsame.trans (h x hold hxid st hst)
      · exact absurd hxid hid
  | @skip i wk hw hun hthrew =>
    refine ⟨.same _, fun x hx hxid st hst => ?_⟩
    rcases List.mem_or_eq_of_mem_set hx with hold | rfl
    · exact h x hold hxid st hst
    · rw [Task.expects_of_ended rfl] at hst
      cases hst
  | sweep =>
    refine ⟨.same _, ?_⟩
    refine AsExpected.spawn (fun _ => rfl) (fun _ => rfl) fun t ht => ?_
    rw [Trip.isOverdue, Bool.and_eq_true, beq_iff_eq] at ht
    exact ht.1
  | rest => exact ⟨.same _, fun wk hwk => nomatch hwk⟩

/-- Nobody holds the trip, which is in a state that no query of a tick selects. -/
structure LetGo (t : Trip) (s : Sys) : Prop where
  stored : s.trips.get t.id = some t
  free : ∀ wk ∈ s.workers, wk.trip.id = t.id → wk.task.ended = true

/-- A loop that does not select the trip does not hold it. -/
theorem LetGo.spawn {t : Trip} (h : LetGo t s) {phase : Phase} {p : Trip → Bool}
    {body : Trip → Worker} (htrip : ∀ t, (body t).trip = t) (hp : p t = false) :
    LetGo t { s with phase := phase, workers := (s.trips.fetch p).map body } := by
  refine ⟨h.stored, fun wk hwk hid => ?_⟩
  obtain ⟨r, hr, rfl⟩ := List.mem_map.mp hwk
  obtain ⟨hmem, hpr⟩ := Table.mem_fetch.mp hr
  rw [htrip] at hid
  rw [Table.eq_of_get h.stored hmem hid, hp] at hpr
  cases hpr

/-- **One transition** leaves the trip alone. No worker has it in hand and no new one takes it up,
as both loops fetch by state; a request would have to name it. -/
theorem LetGo.step {t : Trip} (h : LetGo t s) (hwf : Wf w okB okS s) (hs : s.Steps w l s')
    (hinitial : t.rideState ≠ RideStateType.initial.id)
    (haccepted : t.rideState ≠ RideStateType.vehicleAccepted.id)
    (huntouched : Untouched t.id s l) : LetGo t s' := by
  cases hs with
  | request => exact ⟨h.stored, h.free⟩
  | @client i env k k' db hk hm =>
    exact ⟨(hwf.client_edge hk hm huntouched).2 t h.stored, h.free⟩
  | tick =>
    rw [Trip.getPending_eq]
    refine h.spawn (fun _ => rfl) ?_
    simp [Trip.isPending, hinitial]
  | @worker i env wk k' db hw hm =>
    have hmem := List.mem_of_getElem? hw
    -- a worker that takes a step has not ended, so it is not one of this trip
    have hother : t.id ≠ wk.trip.id := by
      intro heq
      have hended := h.free wk hmem heq.symm
      rw [hm.busy] at hended
      cases hended
    refine ⟨((hwf.worker_frame hw hm).2 t.id hother).trans h.stored, fun x hx hid => ?_⟩
    rcases List.mem_or_eq_of_mem_set hx with hold | rfl
    · exact h.free x hold hid
    · exact absurd hid.symm hother
  | @skip i wk hw hun hthrew =>
    refine ⟨h.stored, fun x hx hid => ?_⟩
    rcases List.mem_or_eq_of_mem_set hx with hold | rfl
    · exact h.free x hold hid
    · rfl
  | sweep =>
    refine h.spawn (fun _ => rfl) ?_
    simp [Trip.isOverdue, haccepted]
  | rest => exact ⟨h.stored, fun wk hwk => absurd hwk List.not_mem_nil⟩

end

/-! ## Whole runs -/

/-- **The journey of a trip.** From any table, in every interleaving of ticks and requests none
of which updates the trip, every transition leaves its ride state or takes it along an edge. -/
theorem journey (w : World) (db : Table Trip) (tripId : Int) {run : List Label}
    (huntouched : Run.Meets (Sys.step w) (Untouched tripId) { trips := db } run) :
    Run.Meets (Sys.step w)
      (fun s l => ∀ s', s.step w l = some s' → RideEdge (s.rideState tripId) (s'.rideState tripId))
      { trips := db } run := by
  refine huntouched.of_invariant
    (I := fun s => Wf w (fun _ => True) (fun _ => True) s ∧ AsExpected tripId s)
    (fun s l s' hstep hl hs => ?_) (fun s l s' hstep hl hs s'' hstep' => ?_)
    ⟨wf_start w db, fun _ hwk => nomatch hwk⟩
  · exact ⟨hs.1.step (Sys.step_steps hstep) l.within_true,
      (hs.2.step hs.1 (Sys.step_steps hstep) hl).2⟩
  · exact (hs.2.step hs.1 (Sys.step_steps hstep') hl).1

/-- Two trips; the passenger of the second gives up while the dispatcher handles both. -/
def secondGivesUp : List Label :=
  Town.served 0 2 (.bookTrip (Town.ride 5 1)) ++ Town.served 1 2 (.bookTrip (Town.ride 6 1)) ++
    [.tick] ++ Town.worked 0 4 ++
    Town.served 2 3 (.updateTripState 6 2 RideStateType.passengerCancelled.id) ++
    Town.worked 1 4 ++ Town.worked 0 3

theorem journey_secondGivesUp :
    ((Run.exec (Sys.step (Town.world [Town.van 9 4])) { trips := Table.empty } secondGivesUp).bind
        fun s => s.rideState 1) = some RideStateType.vehicleAccepted.id ∧
      Run.Meets (Sys.step (Town.world [Town.van 9 4]))
        (fun s l => ∀ s', s.step (Town.world [Town.van 9 4]) l = some s' →
          RideEdge (s.rideState 1) (s'.rideState 1)) { trips := Table.empty } secondGivesUp :=
  ⟨by decide, journey _ _ 1 (by decide)⟩

/-- **Trips that are let go of.** At any point of any run, a trip that no worker is busy with
and that is in a state other than Initial and VehicleAccepted keeps its whole row for the rest
of the run, as long as no request updates it. -/
theorem left_alone (w : World) (db : Table Trip) {before after : List Label} {s s' : Sys} {t : Trip}
    (hbefore : Run.exec (Sys.step w) { trips := db } before = some s)
    (hafter : Run.exec (Sys.step w) s after = some s') (hget : s.trips.get t.id = some t)
    (hfree : ∀ wk ∈ s.workers, wk.trip.id = t.id → wk.task.ended = true)
    (hinitial : t.rideState ≠ RideStateType.initial.id)
    (haccepted : t.rideState ≠ RideStateType.vehicleAccepted.id)
    (huntouched : Run.Meets (Sys.step w) (Untouched t.id) s after) :
    s'.trips.get t.id = some t := by
  have hwf := wf_of_exec hbefore
  have hend := Run.invariant_of_meets
    (I := fun m => Wf w (fun _ => True) (fun _ => True) m ∧ LetGo t m)
    (fun m l m' hstep hl hm => ⟨hm.1.step (Sys.step_steps hstep) l.within_true,
      hm.2.step hm.1 (Sys.step_steps hstep) hinitial haccepted hl⟩)
    ⟨hwf, hget, hfree⟩ huntouched hafter
  exact hend.2.stored

/-- Two vans have room, so the worker is done without having chosen one. -/
def twoVans : List Label :=
  Town.served 0 2 (.bookTrip (Town.ride 5 1)) ++ [.tick] ++ Town.worked 0 7

/-- Another trip is booked; then the tick ends and the next one handles that trip. -/
def nextTick : List Label :=
  Town.served 1 2 (.bookTrip (Town.ride 6 1)) ++ [.sweep 0, .rest, .tick] ++ Town.worked 0 7

theorem left_alone_twoVans :
    ∃ s t s', Run.exec (Sys.step (Town.world [Town.van 9 4, Town.van 8 4]))
        { trips := Table.empty } twoVans = some s ∧
      s.trips.get 1 = some t ∧ t.rideState = RideStateType.findingVehicle.id ∧
      Run.exec (Sys.step (Town.world [Town.van 9 4, Town.van 8 4])) s nextTick = some s' ∧
      s'.trips.get 1 = some t := by
  have hrun : (Run.exec (Sys.step (Town.world [Town.van 9 4, Town.van 8 4]))
      { trips := Table.empty } twoVans).any (fun s =>
        s.workers.all (fun wk => wk.task.ended) &&
        (s.trips.get 1).any (fun t => t.rideState == RideStateType.findingVehicle.id) &&
        (Run.exec (Sys.step (Town.world [Town.van 9 4, Town.van 8 4])) s nextTick).isSome &&
        decide (Run.Meets (Sys.step (Town.world [Town.van 9 4, Town.van 8 4])) (Untouched 1) s
          nextTick)) = true := by decide
  obtain ⟨s, hs, hall⟩ := (Option.any_eq_true _ _).mp hrun
  simp only [Bool.and_eq_true, decide_eq_true_eq, List.all_eq_true] at hall
  obtain ⟨⟨⟨hfree, hstored⟩, hnext⟩, huntouched⟩ := hall
  obtain ⟨t, hget, hstate⟩ := (Option.any_eq_true _ _).mp hstored
  obtain ⟨s', hs'⟩ := Option.isSome_iff_exists.mp hnext
  rw [beq_iff_eq] at hstate
  have hid : t.id = 1 := Table.key_of_get hget
  refine ⟨s, t, s', hs, hget, hstate, hs', ?_⟩
  rw [← hid]
  exact left_alone _ _ hs hs' (hid ▸ hget) (fun wk hwk _ => hfree wk hwk)
    (by rw [hstate]; decide) (by rw [hstate]; decide) (hid ▸ huntouched)

end Maiden
