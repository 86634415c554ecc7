import Maiden.Base.Potential
import Maiden.Tick.Solo

/-!
# The dispatcher comes to rest

A tick waits for all its workers, and the actor takes no other message meanwhile; a worker
that never returned would stop dispatching for good. Nothing in the code bounds a tick: its
workers look at one vehicle after the other, and while they do, requests go on adding trips
that the second loop will read.

`Task.rank` bounds the transactions a thread still makes, whatever the outside answers
(`Task.Moves.rank_lt`): the loops of a thread run over lists that it read before. The second
loop is bounded by the trips there are when it starts. So between two ticks the system makes
a bounded number of steps, and in every state that is not at rest some thread can go on
(`comes_to_rest`).
-/

namespace Maiden

/-! ## Threads -/

/-- The transactions `Trip.assignVehicle` makes at most: `new TripMeta`, one for each vehicle,
the choice, and the two of whatever the choice leads to. -/
def assignRank (w : World) (trip : Trip) : Nat :=
  match TripMeta.of w trip with
  | .error _ => 1
  | .ok tm => tm.vehicles.length + 4

/-- The same for what comes after an update. -/
def After.rank (w : World) : After → Nat
  | .assign trip => assignRank w trip
  | _ => 0

/-- The transactions that a thread makes at most before it ends. -/
def Task.rank (w : World) : Task → Nat
  | .update _ _ after => after.rank w + 2
  | .write _ after => after.rank w + 1
  | .assign trip => assignRank w trip
  | .survey _ _ _ left => left.length + 3
  | .route _ _ _ _ => 2
  | .save _ _ => 1
  | .book _ => 2
  | .insert _ _ => 1
  | .authorise _ _ _ => 3
  | .finished => 0
  | .failed _ => 0

theorem Task.rank_of_ended (w : World) {k : Task} (h : k.ended = true) : k.rank w = 0 := by
  cases k with
  | finished => rfl
  | failed why => rfl
  | _ => cases h

theorem After.rank_next (w : World) (env : Env) (row : Trip) (after : After) :
    (after.next w env row).rank w ≤ after.rank w := by
  by_cases h : ∃ trip, after = .assign trip
  · obtain ⟨trip, rfl⟩ := h
    exact Nat.le_refl _
  · rw [Task.rank_of_ended w (After.ended_next w env row fun trip heq => h ⟨trip, heq⟩)]
    exact Nat.zero_le _

/-- **Every step of a thread brings it nearer to its end.** The rank of a task bounds the steps it
has left; a worker that is still surveying counts the vehicles that it has not looked at. -/
theorem Task.Moves.rank_lt {w : World} {env : Env} {db db' : Table Trip} {k k' : Task}
    (h : Task.Moves w env db k db' k') : k'.rank w < k.rank w := by
  cases h with
  | @commit row after hp =>
    have hnext := After.rank_next w env row after
    show (after.next w env row).rank w < after.rank w + 1
    omega
  | @noStops trip e hof =>
    show 0 < assignRank w trip
    simp [assignRank, hof]
  -- the survey is as long as the list of vehicles, which is only read here
  | @begin trip tm hof =>
    show tm.vehicles.length + 3 < assignRank w trip
    simp [assignRank, hof]
  | saved => split <;> exact Nat.zero_lt_one
  | inserted => split <;> exact Nat.zero_lt_one
  | look =>
    show _ + 3 < List.length (_ :: _) + 3
    rw [List.length_cons]
    omega
  | _ => simp [Task.rank, After.rank]

/-- No step deletes a trip. -/
theorem Task.Moves.length_le {w : World} {env : Env} {db db' : Table Trip} {k k' : Task}
    (h : Task.Moves w env db k db' k') : db.rows.length ≤ db'.rows.length := by
  have hupsert : ∀ (t : Trip) (now : Int), db.rows.length ≤ (upsert db t now).1.rows.length := by
    intro t now
    unfold upsert
    split
    · exact List.length_append.symm ▸ Nat.le_add_right _ _
    · exact Nat.le_of_eq (List.length_map ..).symm
  cases h with
  | commit => exact Nat.le_of_eq (List.length_map ..).symm
  | saved => exact hupsert _ _
  | inserted => exact hupsert _ _
  | _ => exact Nat.le_refl _

/-! ## The system -/

/-- The transitions that run a thread or the tick on. -/
def Label.works : Label → Bool
  | .client _ _ => true
  | l => l.ofTick

/-- The transitions that bring a new thread. -/
def Label.isRequest : Label → Bool
  | .request _ => true
  | _ => false

/-- The label leaves the outside no choice but these answers and this time. -/
def Label.Sees (env : Env) (now : Int) : Label → Prop
  | .client _ e => e = env
  | .worker _ e => e = env
  | .sweep t => t = now
  | _ => True

/-- No thread is running. -/
def Sys.AtRest (s : Sys) : Prop := s.phase = .idle ∧ ∀ k ∈ s.clients, k.ended = true

/-- The steps of all threads together. -/
def Sys.threads (w : World) (s : Sys) : Nat :=
  (s.workers.map fun wk => wk.task.rank w).sum + (s.clients.map (Task.rank w)).sum

/-- The steps of the tick itself, and of its second loop if there are at most `n` trips. -/
def Phase.left (n : Nat) : Phase → Nat
  | .idle => 0
  | .matching => 2 * n + 2
  | .sweeping => 1

/-- The steps the system can make before it is at rest, if there will be at most `n` trips. -/
def Sys.left (w : World) (n : Nat) (s : Sys) : Nat := s.threads w + s.phase.left n

section

variable {w : World} {s s' : Sys} {l : Label}

theorem Request.rank_start_le (w : World) (r : Request) : r.start.rank w ≤ 3 := by
  cases r with
  | bookTrip b => exact Nat.le_succ 2
  | updateTripState caller tripId state => exact Nat.le_refl 3
  | updateTrip caller tripId state =>
    show (if validState state then Task.update tripId state (.authorise caller)
      else .failed .invalidRideState).rank w ≤ 3
    split
    · exact Nat.le_succ 2
    · exact Nat.zero_le 3

theorem threads_client {i : Nat} {k k' : Task} (db : Table Trip) (hk : s.clients[i]? = some k)
    (h : k'.rank w < k.rank w) :
    Sys.threads w { s with trips := db, clients := s.clients.set i k' } + 1 ≤ s.threads w := by
  have hsum := sum_map_set (Task.rank w) (b := k') hk
  show (s.workers.map fun wk => wk.task.rank w).sum + ((s.clients.set i k').map (Task.rank w)).sum
    + 1 ≤ (s.workers.map fun wk => wk.task.rank w).sum + (s.clients.map (Task.rank w)).sum
  omega

theorem threads_worker {i : Nat} {wk : Worker} {k' : Task} (db : Table Trip)
    (hw : s.workers[i]? = some wk) (h : k'.rank w < wk.task.rank w) :
    Sys.threads w { s with trips := db, workers := s.workers.set i ⟨wk.trip, k'⟩ } + 1 ≤
      s.threads w := by
  have hsum : ((s.workers.set i ⟨wk.trip, k'⟩).map fun wk => wk.task.rank w).sum
      + wk.task.rank w = (s.workers.map fun wk => wk.task.rank w).sum + k'.rank w :=
    sum_map_set _ hw
  show ((s.workers.set i ⟨wk.trip, k'⟩).map fun wk => wk.task.rank w).sum
    + (s.clients.map (Task.rank w)).sum + 1 ≤
      (s.workers.map fun wk => wk.task.rank w).sum + (s.clients.map (Task.rank w)).sum
  omega

/-- A worker that may be dropped has work left. -/
theorem Worker.rank_of_unstarted {phase : Phase} {wk : Worker} (h : wk.unstarted phase = true) :
    0 < wk.task.rank w := by
  cases phase with
  | idle => cases wk.task <;> cases h
  | matching =>
    obtain ⟨tripId, state, trip, heq⟩ := Worker.unstarted_matching h
    rw [heq]
    exact Nat.succ_pos _
  | sweeping =>
    obtain ⟨tripId, state, after, heq⟩ := Worker.unstarted_sweeping h
    rw [heq]
    exact Nat.succ_pos _

/-- Workers that have all ended have no work left. -/
theorem sum_rank_of_allEnded (h : s.allEnded = true) :
    (s.workers.map fun wk => wk.task.rank w).sum = 0 := by
  refine List.sum_eq_zero fun n hn => ?_
  obtain ⟨wk, hwk, rfl⟩ := List.mem_map.mp hn
  exact Task.rank_of_ended w (List.all_eq_true.mp h wk hwk)

/-- The second loop has two steps for each trip that it read. -/
theorem sum_rank_noShow (w : World) (trips : List Trip) :
    ((trips.map Worker.noShow).map fun wk => wk.task.rank w).sum = 2 * trips.length := by
  induction trips with
  | nil => rfl
  | cons t ts ih =>
    rw [List.map_cons, List.map_cons, List.sum_cons, ih, List.length_cons]
    show 2 + 2 * ts.length = _
    omega

theorem length_le_of_steps (hs : s.Steps w l s') : s.trips.rows.length ≤ s'.trips.rows.length := by
  cases hs with
  | client hk hm => exact hm.length_le
  | worker hw hm => exact hm.length_le
  | _ => exact Nat.le_refl _

/-- **What one transition uses up.** Working transitions lower the sum of the ranks; a request adds
its own rank, and the sweep at most what was put aside for it. -/
theorem left_step {n : Nat} (hs : s.Steps w l s') (hno : l ≠ .tick)
    (hsmall : s'.trips.rows.length ≤ n) :
    (if l.works then 1 else 0) + s'.left w n ≤ s.left w n + if l.isRequest then 3 else 0 := by
  cases hs with
  | @request r =>
    have hstart := r.rank_start_le w
    show 0 + ((s.workers.map fun wk => wk.task.rank w).sum
      + ((s.clients ++ [r.start]).map (Task.rank w)).sum + s.phase.left n) ≤
        (s.workers.map fun wk => wk.task.rank w).sum + (s.clients.map (Task.rank w)).sum
          + s.phase.left n + 3
    rw [List.map_append, List.sum_append, List.map_singleton, List.sum_singleton]
    omega
  | @client i env k k' db hk hm =>
    have hthreads := threads_client db hk hm.rank_lt
    show 1 + (Sys.threads w _ + s.phase.left n) ≤ s.threads w + s.phase.left n
    omega
  | tick => exact absurd rfl hno
  | @worker i env wk k' db hw hm =>
    have hthreads := threads_worker db hw hm.rank_lt
    show 1 + (Sys.threads w _ + s.phase.left n) ≤ s.threads w + s.phase.left n
    omega
  | @skip i wk hw hun hthrew =>
    have hrank : (Task.failed .aborted).rank w < wk.task.rank w := Worker.rank_of_unstarted hun
    have hthreads := threads_worker s.trips hw hrank
    show 1 + (Sys.threads w _ + s.phase.left n) ≤ s.threads w + s.phase.left n
    omega
  | @sweep now hphase hended hthrew =>
    -- the first loop is over; the second has at most two steps for each trip
    have hread : (Trip.getVehicleOverdue s.trips now).length ≤ n :=
      Nat.le_trans (List.length_filter_le _ _) hsmall
    show 1 + ((((Trip.getVehicleOverdue s.trips now).map Worker.noShow).map
      fun wk => wk.task.rank w).sum + (s.clients.map (Task.rank w)).sum + 1) ≤
        (s.workers.map fun wk => wk.task.rank w).sum + (s.clients.map (Task.rank w)).sum
          + s.phase.left n
    rw [sum_rank_noShow, sum_rank_of_allEnded hended, hphase]
    show _ ≤ 0 + (s.clients.map (Task.rank w)).sum + (2 * n + 2)
    omega
  | rest hphase hended hover =>
    have hleft : 1 ≤ s.phase.left n := by
      cases hp : s.phase with
      | idle => exact absurd hp hphase
      | matching => exact Nat.succ_pos _
      | sweeping => exact Nat.le_refl 1
    show 1 + (0 + (s.clients.map (Task.rank w)).sum + 0) ≤
      (s.workers.map fun wk => wk.task.rank w).sum + (s.clients.map (Task.rank w)).sum
        + s.phase.left n
    omega

/-! ## Progress -/

/-- Later phases of a tick are lower. -/
def Phase.rank : Phase → Nat
  | .idle => 0
  | .sweeping => 1
  | .matching => 2

/-- Lower in phase, or in the same phase with fewer steps left in the threads. -/
def Sys.Lower (w : World) (s' s : Sys) : Prop :=
  Prod.Lex (· < ·) (· < ·) (s'.phase.rank, s'.threads w) (s.phase.rank, s.threads w)

theorem wellFounded_lower (w : World) : WellFounded (Sys.Lower w) :=
  InvImage.wf (fun s : Sys => (s.phase.rank, s.threads w))
    (WellFounded.prod_lex Nat.lt_wfRel.wf Nat.lt_wfRel.wf)

/-- **Somebody can go on** in every state that is not at rest. A request that has not ended can
always take its next step, and so can a worker; with all workers at their end, the tick goes on. -/
theorem exists_lower (w : World) (env : Env) (now : Int) (s : Sys) (h : ¬ s.AtRest) :
    ∃ l s', (l.works = true ∧ l.Sees env now) ∧ s.step w l = some s' ∧ s'.Lower w s := by
  by_cases hclients : ∀ k ∈ s.clients, k.ended = true
  · have hphase : s.phase ≠ .idle := fun hidle => h ⟨hidle, hclients⟩
    by_cases hended : s.allEnded = true
    · -- the loop has returned: the tick goes on to its next phase
      by_cases hover : s.phase = .sweeping ∨ s.someThrew = true
      · refine ⟨.rest, _, ⟨rfl, trivial⟩, if_pos ⟨hphase, hended, hover⟩, Prod.Lex.left _ _ ?_⟩
        show 0 < s.phase.rank
        cases hp : s.phase with
        | idle => exact absurd hp hphase
        | matching => exact Nat.two_pos
        | sweeping => exact Nat.one_pos
      · rw [not_or] at hover
        have hmatching : s.phase = .matching := by
          cases hp : s.phase with
          | idle => exact absurd hp hphase
          | matching => rfl
          | sweeping => exact absurd hp hover.1
        refine ⟨.sweep now, _, ⟨rfl, rfl⟩, if_pos ⟨hmatching, hended, hover.2⟩,
          Prod.Lex.left _ _ ?_⟩
        rw [hmatching]
        exact Nat.one_lt_two
    · -- some worker of the loop has not ended, and nothing that the others do can block it
      have hbusy : ∃ wk ∈ s.workers, wk.task.ended = false := by
        simpa [Sys.allEnded] using hended
      obtain ⟨wk, hwk, hbusy⟩ := hbusy
      obtain ⟨i, hi⟩ := List.mem_iff_getElem?.mp hwk
      obtain ⟨db, k', hmove⟩ := Task.exists_moves w env s.trips hbusy
      refine ⟨.worker i env, { s with trips := db, workers := s.workers.set i ⟨wk.trip, k'⟩ },
        ⟨rfl, rfl⟩, ?_, Prod.Lex.right _ ?_⟩
      · simp only [Sys.step, hi, hmove.step_eq]
      · exact threads_worker db hi hmove.rank_lt
  · have hbusy : ∃ k ∈ s.clients, k.ended = false := by
      simpa using hclients
    obtain ⟨k, hk, hbusy⟩ := hbusy
    obtain ⟨i, hi⟩ := List.mem_iff_getElem?.mp hk
    obtain ⟨db, k', hmove⟩ := Task.exists_moves w env s.trips hbusy
    refine ⟨.client i env, { s with trips := db, clients := s.clients.set i k' },
      ⟨rfl, rfl⟩, ?_, Prod.Lex.right _ ?_⟩
    · simp only [Sys.step, hi, hmove.step_eq]
    · exact threads_client db hi hmove.rank_lt

end

/-- **The system comes to rest.** From any state, whatever its threads are doing: as long as no
new tick starts, every run makes a bounded number of steps, three for each request that
arrives, two for each trip of the second loop, and those of the threads there were. And
whatever the outside answers, the threads can all be run to their end. -/
theorem comes_to_rest (w : World) {s s' : Sys} {run : List Label}
    (hrun : Run.exec (Sys.step w) s run = some s') (hno : Label.tick ∉ run) :
    run.countP Label.works + s'.left w s'.trips.rows.length ≤
        s.left w s'.trips.rows.length + 3 * run.countP Label.isRequest ∧
      ∀ (env : Env) (now : Int), ∃ run' s'', (∀ l ∈ run', l.works = true ∧ l.Sees env now) ∧
        Run.exec (Sys.step w) s' run' = some s'' ∧ s''.AtRest := by
  refine ⟨?_, fun env now => ?_⟩
  · refine Run.countP_add_le (P := fun m => m.trips.rows.length ≤ s'.trips.rows.length)
      (A := fun l => l ≠ .tick) ?_ ?_ ?_ hrun (Nat.le_refl _)
    · -- the table only grows, so that its last length bounds the trips of a sweep at any time
      intro m l m' hstep hsmall
      exact Nat.le_trans (length_le_of_steps (Sys.step_steps hstep)) hsmall
    · intro m l m' hstep hl hsmall
      exact left_step (Sys.step_steps hstep) hl hsmall
    · rintro l hl rfl
      exact hno hl
  · exact Run.exists_exec_of_progress (wellFounded_lower w) (exists_lower w env now) s'

/-- A tick that has just started on the one trip there is. -/
def Town.midTick : Sys where
  trips := Town.trips [(Town.ride 7 1).trip 0]
  phase := .matching
  workers := (Trip.getPending (Town.trips [(Town.ride 7 1).trip 0])).map Worker.findVehicle

/-- Its worker finds the van while somebody else books; then it ends. -/
def Town.tickAndBooking : List Label :=
  Town.worked 0 3 ++ Town.served 0 2 (.bookTrip (Town.ride 8 1)) ++ Town.worked 0 4 ++
    [.sweep 0, .rest]

theorem comes_to_rest_tickAndBooking :
    ∃ s',
      Run.exec (Sys.step (Town.world [Town.van 5 4])) Town.midTick Town.tickAndBooking =
        some s' ∧
      s'.phase = .idle ∧
      Town.tickAndBooking.countP Label.works + s'.left (Town.world [Town.van 5 4])
          s'.trips.rows.length ≤
        Town.midTick.left (Town.world [Town.van 5 4]) s'.trips.rows.length
          + 3 * Town.tickAndBooking.countP Label.isRequest := by
  have hrun : (Run.exec (Sys.step (Town.world [Town.van 5 4])) Town.midTick
      Town.tickAndBooking).any (fun s => s.phase == .idle) = true := by decide
  obtain ⟨s', hs', hidle⟩ := (Option.any_eq_true _ _).mp hrun
  rw [beq_iff_eq] at hidle
  refine ⟨s', hs', hidle, (comes_to_rest _ hs' ?_).1⟩
  simp [Town.tickAndBooking, Town.worked, Town.served]

end Maiden
