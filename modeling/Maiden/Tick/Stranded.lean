import Maiden.Tick.Solo

/-!
# Trips that a tick leaves stranded

A tick marks each pending trip FindingVehicle before it looks for a vehicle, and no
later tick picks such a trip up. A trip is therefore stranded when its worker ends
without settling it, which happens although every lookup succeeds:

- when two or more vehicles are available, `getBestVehicle` chooses none;
- when the trip is scheduled and its schedule is missing or unreadable, the eta
  throws;
- when the map published with an update cannot be built, the update is rolled back;
- when another worker threw and this one had not been started, it is dropped.

`tick_settles_iff` says that there is no other way.
-/

namespace Maiden

/-- The state in which a tick should leave a trip that was pending. -/
def Trip.isSettled (t : Trip) : Bool :=
  [RideStateType.vehicleAccepted.id, RideStateType.driverNoShow.id,
   RideStateType.noAvailableVehicles.id].contains t.rideState

theorem Trip.not_settled_of_isPending {t : Trip} (h : t.isPending = true) :
    t.isSettled = false := by
  rw [Trip.isSettled, (Trip.isPending_iff.mp h).1]
  decide

/-- The next step throws for want of a GPS position, a stop, a route or a geometry. -/
def Task.lookupFails (w : World) (env : Env) (db : Table Trip) (k : Task) : Bool :=
  match Task.step w env db k with
  | some (_, .failed why) => lookupFailures.contains why
  | _ => false

/-- The lookups of the transition succeed. -/
def LookupsSucceed (w : World) (s : Sys) (l : Label) : Prop :=
  ∀ p ∈ s.running l, p.2.lookupFails w p.1 s.trips = false

instance (w : World) (s : Sys) (l : Label) : Decidable (LookupsSucceed w s l) :=
  inferInstanceAs (Decidable (∀ p ∈ s.running l, _))

/-- The next step of a worker in the first loop leaves its trip open or settled. -/
def Task.settles (w : World) (env : Env) : Task → Bool
  | .write row _ => env.publishes row
  | .route trip _ _ available =>
    available.length ≤ 1 && (trip.scheduleId == 0 || scheduleReadable w trip.scheduleId)
  | _ => true

/-- In the first loop, the worker that runs does not strand its trip, and none is
dropped. -/
def TickSettles (w : World) (s : Sys) : Label → Prop
  | .worker i env => s.phase = .matching → ∀ wk ∈ s.workers[i]?, wk.task.settles w env = true
  | .skip _ => s.phase ≠ .matching
  | _ => True

instance (w : World) (s : Sys) : ∀ l, Decidable (TickSettles w s l)
  | .worker _ _ => inferInstanceAs (Decidable (_ → ∀ wk ∈ s.workers[_]?, _ = true))
  | .skip _ => inferInstanceAs (Decidable (s.phase ≠ .matching))
  | .request _ => .isTrue trivial
  | .client _ _ => .isTrue trivial
  | .tick => .isTrue trivial
  | .sweep _ => .isTrue trivial
  | .rest => .isTrue trivial

/-- Every trip that was pending in `db₀` is settled, or its worker is still busy. -/
def NoneStranded (db₀ : Table Trip) (s : Sys) : Prop :=
  ∀ t₀ ∈ Trip.getPending db₀, s.handling t₀.id = false →
    ∃ t, s.trips.get t₀.id = some t ∧ t.isSettled = true

theorem matchTrip_singleton_throws {w : World} (env : Env) (tm : TripMeta) (v : Vehicle)
    {trip : Trip} (h : trip.scheduleId = 0 ∨ scheduleReadable w trip.scheduleId = true) :
    Throws lookupFailures (matchTrip w env tm [v] trip) :=
  (throws_ok _ _).bind fun matched hbest => by
    cases hbest
    exact throws_getInitialTripEtaAndRoute env tm h

theorem matchTrip_readable {w : World} {env : Env} {tm : TripMeta} {v : Vehicle}
    {trip trip' : Trip} (h : matchTrip w env tm [v] trip = .ok (some trip')) :
    trip.scheduleId = 0 ∨ scheduleReadable w trip.scheduleId = true := by
  obtain ⟨matched, hbest, hroute⟩ := bind_eq_ok.mp h
  cases hbest
  have hread := scheduleReadable_of_some hroute
  exact hread

section

variable {w : World} {env : Env} {db db' : Table Trip} {trip t t' : Trip} {k k' : Task}

/-- The choice needs one vehicle and a readable schedule. -/
theorem settles_route_iff {tm : TripMeta} {readings : List Reading} {available : List Vehicle}
    (hne : available ≠ []) :
    (Task.route trip tm readings available).settles w env = true ↔
      (∃ v, available = [v]) ∧
        (trip.scheduleId = 0 ∨ scheduleReadable w trip.scheduleId = true) := by
  have hpos := List.length_pos_of_ne_nil hne
  have hone : available.length ≤ 1 ↔ ∃ v, available = [v] := by
    rw [← List.length_eq_one_iff]
    omega
  rw [← hone]
  simp only [Task.settles, Bool.and_eq_true, decide_eq_true_iff, Bool.or_eq_true, beq_iff_eq]

/-- The step that chooses: with one vehicle and a readable schedule it goes on to the
save, and otherwise it ends with the trip still in FindingVehicle. -/
theorem settles_route {tm : TripMeta} {readings : List Reading} {available : List Vehicle}
    (hp : trip.isPending = true) (hne : available ≠ []) (hfinding : t.isSettled = false)
    (hget : db.get trip.id = some t)
    (hm : Task.Moves w env db (.route trip tm readings available) db' k')
    (hget' : db'.get trip.id = some t')
    (hlook : ∀ why, k' = .failed why → why ∉ lookupFailures) :
    (!k'.ended || t'.isSettled) = (Task.route trip tm readings available).settles w env := by
  have hiff : (Task.route trip tm readings available).settles w env = true ↔ _ :=
    settles_route_iff hne
  cases hm with
  -- one vehicle and a readable schedule leave only lookups that may throw, and those succeed
  | unroutable herr =>
    obtain rfl := Option.some.inj (hget.symm.trans hget')
    refine hfinding.trans (Bool.eq_false_iff.mpr fun hsettles => ?_).symm
    obtain ⟨⟨v, rfl⟩, hread⟩ := hiff.mp hsettles
    exact hlook _ rfl (matchTrip_singleton_throws env tm v hread _ herr)
  -- the match stops silently only if there is more than one vehicle
  | unmatched hnone =>
    obtain rfl := Option.some.inj (hget.symm.trans hget')
    refine hfinding.trans (Bool.eq_false_iff.mpr fun hsettles => ?_).symm
    obtain ⟨⟨v, rfl⟩, -⟩ := hiff.mp hsettles
    exact matchTrip_none hnone rfl
  | matched hsome =>
    obtain ⟨v, eta, geom, rfl, -⟩ := matchTrip_some (Trip.ne_accepted_of_isPending hp) hsome
    exact (hiff.mpr ⟨⟨v, rfl⟩, matchTrip_readable hsome⟩).symm

/-- **One step of a worker**: it ends with its trip unsettled exactly when the step is
one that strands it. -/
theorem settles_eq (hk : Matching w trip k) (hp : trip.isPending = true)
    (hst : StoredAt w trip t k) (hget : db.get trip.id = some t)
    (hm : Task.Moves w env db k db' k') (hget' : db'.get trip.id = some t')
    (hlook : ∀ why, k' = .failed why → why ∉ lookupFailures) :
    (!k'.ended || t'.isSettled) = k.settles w env := by
  have hlost : ∀ {why : Failure} {E : List Failure}, k' = .failed why → E ⊆ lookupFailures →
      why ∉ E := fun hk' hsub hin => hlook _ hk' (hsub hin)
  cases hk with
  | start =>
    obtain ⟨-, rfl⟩ := hm.of_update hget
    rfl
  | mark =>
    obtain ⟨rfl, rfl⟩ := hst
    cases hm with
    | rollback hno =>
      -- the trip is still Initial
      rw [hget] at hget'
      cases hget'
      exact (Trip.not_settled_of_isPending hp).trans hno.symm
    | commit hyes => exact hyes.symm
  | assign =>
    cases hm with
    | noStops herr =>
      exact absurd (TripMeta.throws_of w trip _ herr) (hlost rfl (by decide))
    | begin => rfl
  | survey hof hread =>
    cases hm with
    | look => rfl
    | unreadable herr =>
      obtain ⟨-, -, -, hvehicles, -⟩ := TripMeta.of_eq_ok hof
      rw [List.append_nil, hvehicles] at hread
      refine absurd (throws_getAvailableVehicles _ (fun r hr => ?_) _ herr)
        (hlost rfl (by decide))
      have hr1 := List.mem_map_of_mem (f := Prod.fst) hr
      rw [hread] at hr1
      exact (Vehicle.mem_getForRouteRaw.mp hr1).1
    | noVehicle => rfl
    | choose => rfl
  | route hof hread havail hne =>
    have hfinding : t.isSettled = false := by
      rw [show t = trip.withState _ from hst]
      rfl
    exact settles_route hp hne hfinding hget hm hget' hlook
  | @save tm readings v eta geom hof hread havail =>
    cases hm with
    | saved =>
      cases (get_saved hget v eta geom env.now).symm.trans hget'
      exact Bool.or_true _
  | giveUp =>
    obtain ⟨-, rfl⟩ := hm.of_update hget
    rfl
  | refuse =>
    obtain ⟨rfl, rfl⟩ := hst
    cases hm with
    | rollback hno =>
      rw [hget] at hget'
      cases hget'
      exact hno.symm
    | commit hyes =>
      have hrow : (db.update (trip.withState RideStateType.noAvailableVehicles.id)).get trip.id =
          some (trip.withState RideStateType.noAvailableVehicles.id) :=
        Table.get_update_self (a := trip.withState _) hget
      cases hrow.symm.trans hget'
      exact hyes.symm
  | finished => cases hm
  | failed => cases hm

/-- A trip being swept is accepted or a no-show. -/
theorem SweptAt.isSettled (h : SweptAt trip t k) {now : Int} (hover : trip.isOverdue now = true) :
    t.isSettled = true := by
  have hacc : trip.isSettled = true := by
    unfold Trip.isOverdue at hover
    rw [Bool.and_eq_true, beq_iff_eq] at hover
    unfold Trip.isSettled
    rw [hover.1]
    decide
  cases k with
  | write row after => exact h.1 ▸ hacc
  | finished => exact (show t = trip.withState _ from h) ▸ rfl
  | _ => exact (show t = trip from h) ▸ hacc

end

/-! ## The tick as a whole -/

section

variable {w : World} {nows : Int → Prop} {db₀ : Table Trip} {s s' : Sys} {l : Label}

/-- A worker whose lookups succeed does not fail for want of one. -/
theorem LookupsSucceed.not_mem {i : Nat} {env : Env} {wk : Worker} {k' : Task} {db : Table Trip}
    (h : LookupsSucceed w s (.worker i env)) (hw : s.workers[i]? = some wk)
    (hm : Task.Moves w env s.trips wk.task db k') :
    ∀ why, k' = .failed why → why ∉ lookupFailures := by
  rintro why rfl hin
  have hno := h _ (Sys.running_worker env hw)
  simp only [Task.lookupFails, hm.step_eq] at hno
  rw [List.contains_iff_mem.mpr hin] at hno
  cases hno

/-- Where no worker of the first loop is busy, only the rows matter. -/
theorem noneStranded_congr (h : ∀ tripId, s.handling tripId = false)
    (h' : ∀ tripId, s'.handling tripId = false)
    (hrows : ∀ t₀ ∈ Trip.getPending db₀, (∃ t, s'.trips.get t₀.id = some t ∧ t.isSettled = true) ↔
      ∃ t, s.trips.get t₀.id = some t ∧ t.isSettled = true) :
    NoneStranded db₀ s' ↔ NoneStranded db₀ s := by
  refine forall₂_congr fun t₀ ht₀ => ?_
  rw [h, h']
  exact forall_congr' fun _ => hrows t₀ ht₀

/-- A step of a worker in the first loop. -/
theorem noneStranded_worker (h : Solo w nows db₀ s) (hphase : s.phase = .matching) {i : Nat}
    {env : Env} {wk : Worker} {k' : Task} {db : Table Trip} (hw : s.workers[i]? = some wk)
    (hm : Task.Moves w env s.trips wk.task db k')
    (hlook : ∀ why, k' = .failed why → why ∉ lookupFailures) :
    NoneStranded db₀ { s with trips := db, workers := s.workers.set i ⟨wk.trip, k'⟩ } ↔
      NoneStranded db₀ s ∧ wk.task.settles w env = true := by
  have hmem : wk ∈ s.workers := List.mem_of_getElem? hw
  have hat := h.wf.workers_at wk hmem
  rw [hphase] at hat
  obtain ⟨hrow, hp⟩ := h.mem_pending hphase hmem
  obtain ⟨t, hget, hst⟩ := h.stored hphase wk hmem
  obtain ⟨t', hget', -⟩ := hst.step hat.2 hget hm
  have hsettles := settles_eq hat.2 hp hst hget hm hget' hlook
  -- the worker's trip is in its hands before the step and, if the task has ended, in nobody's
  -- after it
  have hbusy : s.handling wk.trip.id = true :=
    Sys.handling_iff.mpr ⟨hphase, wk, hmem, rfl, hm.busy⟩
  have hframe := (h.wf.worker_frame hw hm).2
  constructor
  · intro hnone
    constructor
    · -- a trip in nobody's hands is not this worker's, whose row is the only one to change
      intro t₀ ht₀ hfree
      have hne : t₀.id ≠ wk.trip.id := fun heq => by
        rw [heq, hbusy] at hfree
        cases hfree
      have hsame := hnone t₀ ht₀ (by rw [handling_set_ne hw hne]; exact hfree)
      rwa [show db.get t₀.id = _ from hframe _ hne] at hsame
    · -- the worker's own trip: if the step ends the task, the trip must be settled by then
      rw [← hsettles]
      cases hend : k'.ended with
      | false => rfl
      | true =>
        have hmine : wk.trip ∈ Trip.getPending db₀ := Trip.mem_getPending.mpr ⟨hrow, hp⟩
        obtain ⟨u, hu, hset⟩ := hnone wk.trip hmine (h.wf.handling_set hw hend)
        rw [show db.get wk.trip.id = some t' from hget'] at hu
        cases hu
        exact hset
  · rintro ⟨hnone, hyes⟩ t₀ ht₀ hfree
    by_cases hid : t₀.id = wk.trip.id
    · have hend : k'.ended = true := by
        cases hend : k'.ended with
        | true => rfl
        | false =>
          rw [hid, handling_set_busy hphase hw hend] at hfree
          cases hfree
      rw [hend, hyes] at hsettles
      exact ⟨t', hid ▸ hget', hsettles⟩
    · rw [handling_set_ne hw hid] at hfree
      rw [show db.get t₀.id = _ from hframe _ hid]
      exact hnone t₀ ht₀ hfree

/-- A step of a worker in the second loop: its trip is accepted or a no-show, before and after.
Both states count as settled, so that the second loop strands nobody and saves nobody. -/
theorem noneStranded_noShow (h : Solo w nows db₀ s) (hphase : s.phase = .sweeping) {i : Nat}
    {env : Env} {wk : Worker} {k' : Task} {db : Table Trip} (hw : s.workers[i]? = some wk)
    (hm : Task.Moves w env s.trips wk.task db k') :
    NoneStranded db₀ { s with trips := db, workers := s.workers.set i ⟨wk.trip, k'⟩ } ↔
      NoneStranded db₀ s := by
  have hmem : wk ∈ s.workers := List.mem_of_getElem? hw
  have hframe := (h.wf.worker_frame hw hm).2
  have hmatching : s.phase ≠ .matching := by
    rw [hphase]
    decide
  refine noneStranded_congr (Sys.handling_of_phase hmatching) (Sys.handling_of_phase hmatching)
    fun t₀ _ => ?_
  by_cases hid : t₀.id = wk.trip.id
  · have hat := h.wf.workers_at wk hmem
    rw [hphase] at hat
    obtain ⟨⟨now, -, hover⟩, t, hget, hswept⟩ := h.swept hphase wk hmem
    obtain ⟨t', hget', hswept', -⟩ := hswept.step hat hget hm
    rw [hid]
    exact iff_of_true ⟨t', hget', hswept'.isSettled hover⟩ ⟨t, hget, hswept.isSettled hover⟩
  · rw [show db.get t₀.id = _ from hframe _ hid]

/-- A worker of the first loop that is dropped leaves its trip Initial. -/
theorem stranded_skip (h : Solo w nows db₀ s) (hphase : s.phase = .matching) {i : Nat}
    {wk : Worker} (hw : s.workers[i]? = some wk) (hun : wk.unstarted .matching = true) :
    ¬ NoneStranded db₀ { s with workers := s.workers.set i ⟨wk.trip, .failed .aborted⟩ } := by
  intro hnone
  have hmem : wk ∈ s.workers := List.mem_of_getElem? hw
  obtain ⟨hrow, hp⟩ := h.mem_pending hphase hmem
  obtain ⟨t, hget, hst⟩ := h.stored hphase wk hmem
  obtain ⟨tripId, state, trip, hk⟩ := Worker.unstarted_matching hun
  rw [hk] at hst
  have hsame : t = wk.trip := hst
  obtain ⟨u, hu, hset⟩ := hnone wk.trip (Trip.mem_getPending.mpr ⟨hrow, hp⟩)
    (h.wf.handling_set hw rfl)
  rw [show s.trips.get wk.trip.id = some t from hget] at hu
  cases hu
  rw [hsame, Trip.not_settled_of_isPending hp] at hset
  cases hset

/-- **One transition of the tick**: it leaves no trip stranded exactly when none was and
the transition strands none. -/
theorem noneStranded_step (h : Solo w nows db₀ s) (hs : s.Steps w l s') (hl : l.ofTick = true)
    (hlook : LookupsSucceed w s l) :
    NoneStranded db₀ s' ↔ NoneStranded db₀ s ∧ TickSettles w s l := by
  cases hs with
  | request => cases hl
  | client => cases hl
  | tick => cases hl
  | @worker i env wk k' db hw hm =>
    have hmem : wk ∈ s.workers := List.mem_of_getElem? hw
    cases hphase : s.phase with
    | idle =>
      have hat := h.wf.workers_at wk hmem
      rw [hphase] at hat
      exact hat.elim
    -- the first loop is where a trip can be stranded
    | matching =>
      have hworker := noneStranded_worker h hphase hw hm (hlook.not_mem hw hm)
      rw [hphase] at hworker
      rw [hworker]
      refine and_congr_right fun _ => ⟨fun hyes _ x hx => ?_, fun hyes => hyes hphase wk hw⟩
      rw [hw] at hx
      cases hx
      exact hyes
    | sweeping =>
      have hsettles : TickSettles w s (.worker i env) := fun hmatch => by
        rw [hphase] at hmatch
        cases hmatch
      rw [and_iff_left hsettles, ← hphase]
      exact noneStranded_noShow h hphase hw hm
  -- a trip that is dropped in the first loop stays in the state Initial, and its worker is gone
  | @skip i wk hw hun hthrew =>
    by_cases hphase : s.phase = .matching
    · rw [hphase] at hun
      exact iff_of_false (stranded_skip h hphase hw hun) fun hboth => hboth.2 hphase
    · have hsettles : TickSettles w s (.skip i) := hphase
      rw [and_iff_left hsettles]
      exact noneStranded_congr (Sys.handling_of_phase hphase) (Sys.handling_of_phase hphase)
        fun _ _ => Iff.rfl
  -- the loops have ended, so nothing is in anybody's hands on either side
  | @sweep now hphase hended =>
    have hsettles : TickSettles w s (.sweep now) := trivial
    rw [and_iff_left hsettles]
    exact noneStranded_congr (Sys.handling_of_allEnded hended)
      (Sys.handling_of_phase fun hp => nomatch hp) fun _ _ => Iff.rfl
  | rest hphase hended =>
    have hsettles : TickSettles w s .rest := trivial
    rw [and_iff_left hsettles]
    exact noneStranded_congr (Sys.handling_of_allEnded hended)
      (Sys.handling_of_phase fun hp => nomatch hp) fun _ _ => Iff.rfl

end

/-- **When a tick strands no trip.** In a tick that runs alone and in which every lookup
succeeds, every trip that was pending at the start ends settled exactly when each
worker of the first loop that reaches its choice finds at most one vehicle available
and a readable schedule, its updates can be published, and no worker is dropped. -/
theorem tick_settles_iff {w : World} {db : Table Trip} {ls : List Label} {s : Sys}
    (h : TickRun w db ls s)
    (hlook : Run.Meets (Sys.step w) (LookupsSucceed w) { trips := db } (.tick :: ls)) :
    (∀ t₀ ∈ Trip.getPending db, ∃ t, s.trips.get t₀.id = some t ∧ t.isSettled = true) ↔
      Run.Meets (Sys.step w) (TickSettles w) { trips := db } (.tick :: ls) := by
  obtain ⟨m, hfirst, hrest⟩ := Run.exec_cons.mp h.runs
  have hmem : Run.Meets (Sys.step w) (fun _ l => l ∈ ls) m ls :=
    Run.meets_of_forall (fun l hl _ => hl) m
  have hfinal := Run.final_iff_meets (C := TickSettles w)
    (I := Solo w (sweptAtTime ls) db) (P := NoneStranded db)
    (fun s l s' hs hl hsolo => hsolo.step (Sys.step_steps hs) (h.alone l hl.1) fun now heq =>
      show Label.sweep now ∈ ls from heq ▸ hl.1)
    (fun s l s' hs hl hsolo =>
      noneStranded_step hsolo (Sys.step_steps hs) (h.alone l hl.1) hl.2)
    (solo_tick w (sweptAtTime ls) db (Sys.step_steps hfirst)) (hmem.and (hlook.tail hfirst)) hrest
  -- at the start every pending trip has a busy worker, at the end none has
  have hbegin : NoneStranded db m := by
    intro t₀ ht₀ hfree
    have hbusy : m.handling t₀.id = true := by
      cases Sys.step_steps hfirst with
      | tick =>
        refine Sys.handling_iff.mpr ⟨rfl, Worker.findVehicle t₀, ?_, rfl, rfl⟩
        exact List.mem_map_of_mem ht₀
    rw [hbusy] at hfree
    cases hfree
  have hend : NoneStranded db s ↔
      ∀ t₀ ∈ Trip.getPending db, ∃ t, s.trips.get t₀.id = some t ∧ t.isSettled = true := by
    refine forall₂_congr fun t₀ _ => ?_
    rw [Sys.handling_of_phase (by rw [h.idle]; decide)]
    exact ⟨fun hall => hall rfl, fun hall _ => hall⟩
  have htick : TickSettles w { trips := db } .tick := trivial
  rw [← hend, hfinal, and_iff_right hbegin, Run.meets_cons hfirst, and_iff_right htick]

/-- With one van the tick settles its trip. -/
theorem tick_settles_bookingTick :
    ∃ s, TickRun (Town.world [Town.van 9 4]) (Town.trips [(Town.ride 5 1).trip 0]) bookingTick s ∧
      ∀ t₀ ∈ Trip.getPending (Town.trips [(Town.ride 5 1).trip 0]),
        ∃ t, s.trips.get t₀.id = some t ∧ t.isSettled = true := by
  obtain ⟨s, htick⟩ := tickRun_bookingTick
  exact ⟨s, htick, (tick_settles_iff htick (by decide)).mpr (by decide)⟩

/-- Two vehicles are available for the one pending trip, and neither is chosen. -/
theorem stranded_between_two_vehicles :
    ∃ (w : World) (db : Table Trip) (ls : List Label) (s : Sys), TickRun w db ls s ∧
      Run.Meets (Sys.step w) (LookupsSucceed w) { trips := db } (.tick :: ls) ∧
      ∃ t₀ ∈ Trip.getPending db, ∃ t, s.trips.get t₀.id = some t ∧
        t.rideState = RideStateType.findingVehicle.id := by
  have hrun : (Run.exec (Sys.step (Town.world [Town.van 8 4, Town.van 9 4]))
      { trips := Town.trips [(Town.ride 5 1).trip 0] } (.tick :: bookingTick)).any
      (fun s => s.phase == .idle && (s.trips.get 1).any fun t =>
        t.rideState == RideStateType.findingVehicle.id) = true := by decide
  obtain ⟨s, hs, hend⟩ := (Option.any_eq_true _ _).mp hrun
  rw [Bool.and_eq_true, beq_iff_eq] at hend
  obtain ⟨t, hget, hstate⟩ := (Option.any_eq_true _ _).mp hend.2
  exact ⟨Town.world [Town.van 8 4, Town.van 9 4], Town.trips [(Town.ride 5 1).trip 0],
    bookingTick, s, ⟨hs, by decide, hend.1⟩, by decide,
    { (Town.ride 5 1).trip 0 with id := 1, createdAt := some 0, updatedAt := some 0 }, by decide,
    t, hget, beq_iff_eq.mp hstate⟩

end Maiden
