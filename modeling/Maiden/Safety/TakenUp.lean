import Maiden.Safety.Journeys

/-!
# No trip is passed over

A tick that reaches its second loop has taken up every trip that was waiting when it began
(`taken_up`): none of them is Initial any more. This holds whatever other requests do meanwhile
and however many ticks were broken off before by an exception.

The invariant follows the trip from hand to hand (`Waiting`): it lies in the table for the next
tick, or a worker has it that is about to mark it or has thrown, or it has been marked. A tick
with a worker that has thrown does not reach the second loop, and gives the trip back to the
table as it was.
-/

namespace Maiden

/-- The trip is there and no longer in the first state. -/
def Sys.Marked (tripId : Int) (s : Sys) : Prop :=
  ∃ state, s.rideState tripId = some state ∧ state ≠ RideStateType.initial.id

/-- Nothing leads back to the first state. -/
theorem RideEdge.marked {state state' : Option Int} (h : RideEdge state state')
    (hstate : ∃ st, state = some st ∧ st ≠ RideStateType.initial.id) :
    ∃ st, state' = some st ∧ st ≠ RideStateType.initial.id := by
  cases h with
  | same => exact hstate
  | booked =>
    obtain ⟨st, hst, -⟩ := hstate
    cases hst
  | finding => exact ⟨_, rfl, by decide⟩
  | accepted => exact ⟨_, rfl, by decide⟩
  | refused => exact ⟨_, rfl, by decide⟩
  | noShow => exact ⟨_, rfl, by decide⟩

/-- A worker that has its trip and has not marked it. -/
def Task.holdsBack (k : Task) : Prop :=
  k.expects .matching = some RideStateType.initial.id ∨ k.threw = true

/-- In whose hands the pending trip `t` is. -/
inductive Waiting (t : Trip) (s : Sys) : Prop
  | unread (hget : s.trips.get t.id = some t) (hphase : s.phase = .idle)
  | held {i : Nat} {wk : Worker} (hget : s.trips.get t.id = some t) (hphase : s.phase = .matching)
      (hw : s.workers[i]? = some wk) (hid : wk.trip.id = t.id) (hback : wk.task.holdsBack)
  | marked (h : s.Marked t.id)

section

variable {w : World} {okB : Booking → Prop} {okS : Int → Prop} {s s' : Sys} {l : Label} {t : Trip}

/-- A worker that has not marked its trip marks it or leaves the row as it is. -/
theorem Matching.holdsBack_step {env : Env} {trip : Trip} {db db' : Table Trip} {k k' : Task}
    (hat : Matching w trip k) (hm : Task.Moves w env db k db' k')
    (hget : db.get trip.id = some t) (hback : k.holdsBack) :
    (db' = db ∧ k'.holdsBack) ∨
      (db'.get trip.id).map Trip.rideState = some RideStateType.findingVehicle.id := by
  have hinitial : k.expects .matching = some RideStateType.initial.id := by
    rcases hback with h | hthrew
    · exact h
    · cases hm <;> cases hthrew
  have hne : some RideStateType.findingVehicle.id ≠ some RideStateType.initial.id := by decide
  cases hat with
  | start =>
    cases hm with
    | missing hnone => cases hget.symm.trans hnone
    | read => exact Or.inl ⟨rfl, Or.inl rfl⟩
  | mark hid hstate =>
    cases hm with
    | rollback => exact Or.inl ⟨rfl, Or.inr rfl⟩
    | commit =>
      rw [rideState_update hid hget, hstate]
      exact Or.inr rfl
  | finished => cases hm
  | failed => cases hm
  -- everywhere else the worker expects the state it has written
  | _ => exact absurd hinitial hne

/-- A worker that has thrown or is not done keeps the tick from its second loop. -/
theorem Task.holdsBack.not_over {wk : Worker} (hback : wk.task.holdsBack) (hwk : wk ∈ s.workers)
    (hended : s.allEnded = true) : s.someThrew = true := by
  rcases hback with hexpects | hthrew
  · rw [Task.expects_of_ended (List.all_eq_true.mp hended wk hwk)] at hexpects
    cases hexpects
  · exact List.any_eq_true.mpr ⟨wk, hwk, hthrew⟩

/-- The row of a trip that waits survives every request that does not update the trip. -/
theorem Waiting.client (h : Waiting t s) (hwf : Wf w okB okS s) {i : Nat} {env : Env}
    {k k' : Task} {db : Table Trip} (hk : s.clients[i]? = some k)
    (hm : Task.Moves w env s.trips k db k') (huntouched : Untouched t.id s (.client i env)) :
    Waiting t { s with trips := db, clients := s.clients.set i k' } := by
  obtain ⟨hedge, hkept⟩ := hwf.client_edge hk hm huntouched
  cases h with
  | unread hget hphase => exact .unread (hkept t hget) hphase
  | held hget hphase hw hid hback => exact .held (hkept t hget) hphase hw hid hback
  | marked hmarked => exact .marked (hedge.marked hmarked)

/-- A step of a worker: it is the one that has the trip in hand, or it leaves the trip's row
alone. -/
theorem Waiting.worker (h : Waiting t s) (hwf : Wf w okB okS s) {i : Nat} {env : Env}
    {wk : Worker} {k' : Task} {db : Table Trip} (hw : s.workers[i]? = some wk)
    (hm : Task.Moves w env s.trips wk.task db k')
    (hedge : RideEdge (s.rideState t.id) ((db.get t.id).map Trip.rideState)) :
    Waiting t { s with trips := db, workers := s.workers.set i ⟨wk.trip, k'⟩ } := by
  have hat := hwf.workers_at wk (List.mem_of_getElem? hw)
  cases h with
  | unread hget hphase =>
    -- no loop runs, and so no worker does
    rw [hphase] at hat
    exact hat.elim
  | @held j wk' hget hphase hw' hid hback =>
    by_cases hij : i = j
    · -- the worker that has the trip
      subst hij
      cases hw.symm.trans hw'
      rw [hphase] at hat
      rw [← hid] at hget
      rcases hat.2.holdsBack_step hm hget hback with ⟨rfl, hback'⟩ | hfinding
      · obtain ⟨hlt, -⟩ := List.getElem?_eq_some_iff.mp hw
        exact .held (hid ▸ hget) hphase (List.getElem?_set_self hlt) hid hback'
      · exact .marked ⟨_, hid ▸ hfinding, by decide⟩
    · have hother : t.id ≠ wk.trip.id := fun heq => hwf.id_ne hw hw' (Ne.symm hij) (hid.trans heq)
      have hrow : db.get t.id = some t := ((hwf.worker_frame hw hm).2 t.id hother).trans hget
      exact .held hrow hphase ((List.getElem?_set_ne hij).trans hw') hid hback
  | marked hmarked => exact .marked (hedge.marked hmarked)

/-- **One transition** passes the trip on: the tick hands it to a worker, the worker marks it, and
a tick that is broken off before the mark leaves it to the next one. -/
theorem Waiting.step (h : Waiting t s) (hwf : Wf w okB okS s) (hexp : AsExpected t.id s)
    (hpending : t.isPending = true) (hs : s.Steps w l s') (huntouched : Untouched t.id s l) :
    Waiting t s' := by
  have hedge := (hexp.step hwf hs huntouched).1
  cases hs with
  | request =>
    cases h with
    | unread hget hphase => exact .unread hget hphase
    | held hget hphase hw hid hback => exact .held hget hphase hw hid hback
    | marked hmarked => exact .marked hmarked
  | client hk hm => exact h.client hwf hk hm huntouched
  | tick hidle =>
    cases h with
    | unread hget hphase =>
      -- the tick reads the trip and starts a worker for it
      have hmem : t ∈ Trip.getPending s.trips :=
        Trip.mem_getPending.mpr ⟨Table.mem_of_get hget, hpending⟩
      obtain ⟨i, hi⟩ :=
        List.mem_iff_getElem?.mp (List.mem_map_of_mem (f := Worker.findVehicle) hmem)
      exact .held hget rfl hi rfl (Or.inl rfl)
    | held hget hphase hw hid hback => cases hphase.symm.trans hidle
    | marked hmarked => exact .marked hmarked
  | worker hw hm => exact h.worker hwf hw hm hedge
  | @skip i wk hw hun hthrew =>
    cases h with
    | unread hget hphase => exact .unread hget hphase
    | @held j wk' hget hphase hw' hid hback =>
      by_cases hij : i = j
      · -- its own body was skipped, so the row is as it was
        subst hij
        cases hw.symm.trans hw'
        obtain ⟨hlt, -⟩ := List.getElem?_eq_some_iff.mp hw
        exact .held hget hphase (List.getElem?_set_self hlt) hid (Or.inr rfl)
      · exact .held hget hphase ((List.getElem?_set_ne hij).trans hw') hid hback
    | marked hmarked => exact .marked hmarked
  | sweep hmatching hended hthrew =>
    cases h with
    | unread hget hphase => cases hphase.symm.trans hmatching
    | held hget hphase hw hid hback =>
      rw [hback.not_over (List.mem_of_getElem? hw) hended] at hthrew
      cases hthrew
    | marked hmarked => exact .marked hmarked
  | rest hbusy =>
    cases h with
    | unread hget hphase => exact absurd hphase hbusy
    -- broken off: the next tick will read it again
    | held hget hphase hw hid hback => exact .unread hget rfl
    | marked hmarked => exact .marked hmarked

end

/-! ## Whole runs -/

/-- **No trip is passed over.** Let a trip be pending between two ticks. In every run from there,
with any number of ticks and any requests that do not update the trip, whenever the dispatcher is
in its second loop the trip has left the first state. -/
theorem taken_up (w : World) (db : Table Trip) {before run : List Label} {s s' : Sys} {t : Trip}
    (hbefore : Run.exec (Sys.step w) { trips := db } before = some s) (hidle : s.phase = .idle)
    (hpending : t ∈ Trip.getPending s.trips)
    (huntouched : Run.Meets (Sys.step w) (Untouched t.id) s run)
    (hrun : Run.exec (Sys.step w) s run = some s') (hsweeping : s'.phase = .sweeping) :
    s'.Marked t.id := by
  have hwf := wf_of_exec hbefore
  obtain ⟨hmem, hp⟩ := Trip.mem_getPending.mp hpending
  -- between two ticks there are no workers
  have hexp : AsExpected t.id s := fun wk hwk => by
    have hat := hwf.workers_at wk hwk
    rw [hidle] at hat
    exact hat.elim
  have hend := Run.invariant_of_meets
    (I := fun m => Wf w (fun _ => True) (fun _ => True) m ∧ AsExpected t.id m ∧ Waiting t m)
    (fun m l m' hstep hl hm => ⟨hm.1.step (Sys.step_steps hstep) l.within_true,
      (hm.2.1.step hm.1 (Sys.step_steps hstep) hl).2,
      hm.2.2.step hm.1 hm.2.1 hp (Sys.step_steps hstep) hl⟩)
    ⟨hwf, hexp, .unread (Table.get_of_mem hmem) hidle⟩ huntouched hrun
  cases hend.2.2 with
  | unread hget hphase => cases hphase.symm.trans hsweeping
  | held hget hphase hw hid hback => cases hphase.symm.trans hsweeping
  | marked hmarked => exact hmarked

/-- The first tick is broken off since the worker of the trip fails to publish; a second trip is
booked, and the second tick reaches its second loop. -/
def secondAttempt : List Label :=
  [.tick, .worker 0 (Town.env 0), .worker 0 { Town.env 0 with publishes := fun _ => false },
    .rest] ++
    Town.served 1 2 (.bookTrip (Town.ride 6 1)) ++ [.tick] ++ Town.worked 0 7 ++ Town.worked 1 7 ++
    [.sweep 0]

theorem taken_up_secondAttempt :
    ∃ s t s', Run.exec (Sys.step (Town.world [Town.van 9 4])) { trips := Table.empty }
        (Town.served 0 2 (.bookTrip (Town.ride 5 1))) = some s ∧
      t ∈ Trip.getPending s.trips ∧
      Run.exec (Sys.step (Town.world [Town.van 9 4])) s secondAttempt = some s' ∧
      s'.phase = .sweeping ∧ s'.Marked t.id := by
  have hrun : (Run.exec (Sys.step (Town.world [Town.van 9 4])) { trips := Table.empty }
      (Town.served 0 2 (.bookTrip (Town.ride 5 1)))).any (fun s =>
        s.phase == .idle && (Trip.getPending s.trips).any (fun t => t.id == 1) &&
        decide (Run.Meets (Sys.step (Town.world [Town.van 9 4])) (Untouched 1) s secondAttempt) &&
        (Run.exec (Sys.step (Town.world [Town.van 9 4])) s secondAttempt).any
          fun s' => s'.phase == .sweeping) = true := by decide
  obtain ⟨s, hs, hall⟩ := (Option.any_eq_true _ _).mp hrun
  simp only [Bool.and_eq_true, decide_eq_true_eq, Option.any_eq_true, List.any_eq_true,
    beq_iff_eq] at hall
  obtain ⟨⟨⟨hidle, t, ht, hid⟩, huntouched⟩, s', hs', hsweeping⟩ := hall
  exact ⟨s, t, s', hs, ht, hs', hsweeping,
    taken_up _ _ hs hidle ht (hid ▸ huntouched) hs' hsweeping⟩

end Maiden
