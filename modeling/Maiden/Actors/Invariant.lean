import Maiden.Actors.Dispatch

/-!
# What every run keeps

The facts about a run that all its safety results rest on, whatever its clients do.

- `Matching w trip`, `Sweeping trip`: the places a worker of the first and of the
  second loop can be in. A worker only ever writes the row of its own trip; the only
  live state it writes is the one of a saved match, and that match was decided by
  the availability test on the readings it took.
- `Client okB okS`: the places a request can be in, when every booking meets `okB`
  and every requested state meets `okS`.
- `Wf`: all of it together, with the agreement of every copy of a row with the
  stored row on the columns fixed by the booking; kept by every transition
  (`Wf.step`).
-/

namespace Maiden

/-! ## Places of a worker -/

/-- Where a worker that was given the pending trip `trip` can be. -/
inductive Matching (w : World) (trip : Trip) : Task → Prop
  | start : Matching w trip (.update trip.id RideStateType.findingVehicle.id (.assign trip))
  | mark {row : Trip} (hid : row.id = trip.id)
      (hstate : row.rideState = RideStateType.findingVehicle.id) :
      Matching w trip (.write row (.assign trip))
  | assign : Matching w trip (.assign trip)
  | survey {tm : TripMeta} {readings : List Reading} {left : List Vehicle}
      (hof : TripMeta.of w trip = .ok tm)
      (hread : readings.map Prod.fst ++ left = tm.vehicles) :
      Matching w trip (.survey trip tm readings left)
  | route {tm : TripMeta} {readings : List Reading} {available : List Vehicle}
      (hof : TripMeta.of w trip = .ok tm) (hread : readings.map Prod.fst = tm.vehicles)
      (havail : getAvailableVehicles w tm trip.seats readings = .ok available)
      (hne : available ≠ []) :
      Matching w trip (.route trip tm readings available)
  | save {tm : TripMeta} {readings : List Reading} {v : Vehicle} {eta : Int} {geom : JString}
      (hof : TripMeta.of w trip = .ok tm) (hread : readings.map Prod.fst = tm.vehicles)
      (havail : getAvailableVehicles w tm trip.seats readings = .ok [v]) :
      Matching w trip (.save (trip.assigned v eta geom) readings)
  | giveUp : Matching w trip (.update trip.id RideStateType.noAvailableVehicles.id .done)
  | refuse {row : Trip} (hid : row.id = trip.id)
      (hstate : row.rideState = RideStateType.noAvailableVehicles.id) :
      Matching w trip (.write row .done)
  | finished : Matching w trip .finished
  | failed {why : Failure} : Matching w trip (.failed why)

/-- A worker of the first loop goes on as `FindVehicle` does: mark, survey, route, save, or give
up. -/
theorem Matching.step {w : World} {env : Env} {trip : Trip} {db db' : Table Trip} {k k' : Task}
    (hstate : trip.rideState ≠ RideStateType.vehicleAccepted.id) (h : Matching w trip k)
    (hm : Task.Moves w env db k db' k') : Matching w trip k' := by
  cases h with
  | start =>
    cases hm with
    | missing => exact .failed
    | read hget => exact .mark (Table.key_of_get hget) rfl
  | mark hid hst =>
    cases hm with
    | rollback => exact .failed
    | commit => exact .assign
  | assign =>
    cases hm with
    | noStops => exact .failed
    | begin hof => exact .survey hof rfl
  | survey hof hread =>
    cases hm with
    | look =>
      -- the vehicle that was read moves from the list of those left to the readings
      refine .survey hof ?_
      rw [List.map_append, List.append_assoc]
      exact hread
    | unreadable => exact .failed
    | noVehicle => exact .giveUp
    | choose havail hne =>
      rw [List.append_nil] at hread
      exact .route hof hread havail hne
  | route hof hread havail hne =>
    cases hm with
    | unroutable => exact .failed
    | unmatched => exact .finished
    | matched hmatch =>
      -- the trip was not accepted before, so it was matched with the one vehicle left
      obtain ⟨v, eta, geom, rfl, rfl⟩ := matchTrip_some hstate hmatch
      exact .save hof hread havail
  | save hof hread havail =>
    cases hm with
    | saved =>
      split
      · exact .finished
      · exact .failed
  | giveUp =>
    cases hm with
    | missing => exact .failed
    | read hget => exact .refuse (Table.key_of_get hget) rfl
  | refuse hid hst =>
    cases hm with
    | rollback => exact .failed
    | commit => exact .finished
  | finished => cases hm
  | failed => cases hm

/-- Where a worker that was given the overdue trip `trip` can be. -/
inductive Sweeping (trip : Trip) : Task → Prop
  | start : Sweeping trip (.update trip.id RideStateType.driverNoShow.id .done)
  | mark {row : Trip} (hid : row.id = trip.id)
      (hstate : row.rideState = RideStateType.driverNoShow.id) :
      Sweeping trip (.write row .done)
  | finished : Sweeping trip .finished
  | failed {why : Failure} : Sweeping trip (.failed why)

/-- A worker of the second loop has one row to read and one to write. -/
theorem Sweeping.step {w : World} {env : Env} {trip : Trip} {db db' : Table Trip} {k k' : Task}
    (h : Sweeping trip k) (hm : Task.Moves w env db k db' k') : Sweeping trip k' := by
  cases h with
  | start =>
    cases hm with
    | missing => exact .failed
    | read hget => exact .mark (Table.key_of_get hget) rfl
  | mark hid hst =>
    cases hm with
    | rollback => exact .failed
    | commit => exact .finished
  | finished => cases hm
  | failed => cases hm

/-- Where a worker can be, by the phase of the tick. -/
def Worker.At (w : World) (phase : Phase) (wk : Worker) : Prop :=
  match phase with
  | .idle => False
  | .matching => wk.trip.isPending = true ∧ Matching w wk.trip wk.task
  | .sweeping => Sweeping wk.trip wk.task

/-- A pending trip has not been accepted. -/
theorem Trip.ne_accepted_of_isPending {t : Trip} (h : t.isPending = true) :
    t.rideState ≠ RideStateType.vehicleAccepted.id := by
  rw [(Trip.isPending_iff.mp h).1]
  decide

/-- A worker stays within the code of its loop. -/
theorem Worker.At.step {w : World} {env : Env} {phase : Phase} {wk : Worker}
    {db db' : Table Trip} {k' : Task} (h : wk.At w phase)
    (hm : Task.Moves w env db wk.task db' k') : Worker.At w phase ⟨wk.trip, k'⟩ := by
  cases phase with
  | idle => exact h
  | matching => exact ⟨h.1, h.2.step (Trip.ne_accepted_of_isPending h.1) hm⟩
  | sweeping => exact Sweeping.step h hm

/-- It may fail anywhere. -/
theorem Worker.At.failed {w : World} {phase : Phase} {wk : Worker} (h : wk.At w phase)
    (why : Failure) : Worker.At w phase ⟨wk.trip, .failed why⟩ := by
  cases phase with
  | idle => exact h
  | matching => exact ⟨h.1, .failed⟩
  | sweeping => exact Sweeping.failed

/-! ## Places of a request -/

/-- Where a request can be, when bookings meet `okB` and requested states `okS`. -/
inductive Client (okB : Booking → Prop) (okS : Int → Prop) : Task → Prop
  | book {b : Booking} (hb : okB b) : Client okB okS (.book b)
  | insert {b : Booking} {created : Int} (hb : okB b) : Client okB okS (.insert b created)
  | authorise {caller tripId state : Int} (hs : okS state) :
      Client okB okS (.authorise caller tripId state)
  | update {tripId state : Int} {after : After} (hs : okS state)
      (hafter : ∀ trip, after ≠ .assign trip) : Client okB okS (.update tripId state after)
  | write {row : Trip} {after : After} (hs : okS row.rideState)
      (hafter : ∀ trip, after ≠ .assign trip) : Client okB okS (.write row after)
  | ended {k : Task} (h : k.ended = true) : Client okB okS k

/-- A request stays a request: its next step is again one of a booking in `okB` or of a change to a
state in `okS`, and only a change that has been written has something to do after it. -/
theorem Client.step {okB : Booking → Prop} {okS : Int → Prop} {w : World} {env : Env}
    {db db' : Table Trip} {k k' : Task} (h : Client okB okS k)
    (hm : Task.Moves w env db k db' k') : Client okB okS k' := by
  cases h with
  | book hb =>
    cases hm with
    | taken => exact .ended rfl
    | free => exact .insert hb
  | insert hb =>
    cases hm with
    | inserted => exact .ended (by split <;> rfl)
  | authorise hs =>
    cases hm with
    | unknown => exact .ended rfl
    | refused => exact .ended rfl
    | allowed => exact .update hs (fun trip h => nomatch h)
  | update hs hafter =>
    cases hm with
    | missing => exact .ended rfl
    | read => exact .write hs hafter
  | @write row after hs hafter =>
    cases hm with
    | rollback => exact .ended rfl
    | commit => exact .ended (After.ended_next w env row hafter)
  | ended hended =>
    cases hm <;> cases hended

/-- The request asks for a booking in `okB` or a state in `okS`. -/
def Request.Within (okB : Booking → Prop) (okS : Int → Prop) : Request → Prop
  | .bookTrip b => okB b
  | .updateTripState _ _ state => okS state
  | .updateTrip _ _ state => okS state

/-- A request starts within what it was admitted with. -/
theorem Request.client_start {okB : Booking → Prop} {okS : Int → Prop} {r : Request}
    (h : r.Within okB okS) : Client okB okS r.start := by
  cases r with
  | bookTrip b => exact .book h
  | updateTripState caller tripId state => exact .authorise h
  | updateTrip caller tripId state =>
    show Client okB okS (if validState state then
      .update tripId state (.authorise caller) else .failed .invalidRideState)
    split
    · exact .update h (fun trip heq => nomatch heq)
    · exact .ended rfl

/-- A request starts with nothing in hand. -/
theorem Request.held_start (r : Request) : r.start.held = [] := by
  cases r with
  | bookTrip b => rfl
  | updateTripState caller tripId state => rfl
  | updateTrip caller tripId state =>
    show (if validState state then Task.update tripId state (.authorise caller)
      else .failed .invalidRideState).held = []
    split <;> rfl

/-- Every request that arrives is within `okB` and `okS`. -/
def Label.Within (okB : Booking → Prop) (okS : Int → Prop) : Label → Prop
  | .request r => r.Within okB okS
  | _ => True

theorem Label.within_true (l : Label) : l.Within (fun _ => True) (fun _ => True) := by
  cases l with
  | request r => cases r <;> trivial
  | _ => trivial

instance {okB : Booking → Prop} {okS : Int → Prop} [DecidablePred okB] [DecidablePred okS] :
    DecidablePred (Label.Within okB okS)
  | .request (.bookTrip b) => inferInstanceAs (Decidable (okB b))
  | .request (.updateTripState _ _ state) => inferInstanceAs (Decidable (okS state))
  | .request (.updateTrip _ _ state) => inferInstanceAs (Decidable (okS state))
  | .client _ _ => inferInstanceAs (Decidable True)
  | .tick => inferInstanceAs (Decidable True)
  | .worker _ _ => inferInstanceAs (Decidable True)
  | .skip _ => inferInstanceAs (Decidable True)
  | .sweep _ => inferInstanceAs (Decidable True)
  | .rest => inferInstanceAs (Decidable True)

/-! ## Well-formed systems -/

/-- The state of a system whose requests were all within `okB` and `okS`. -/
structure Wf (w : World) (okB : Booking → Prop) (okS : Int → Prop) (s : Sys) : Prop where
  /-- No trip has two workers. -/
  workers_nodup : ((s.workers.map Worker.trip).map Trip.id).Nodup
  workers_at : ∀ wk ∈ s.workers, wk.At w s.phase
  workers_agree : ∀ wk ∈ s.workers, Agrees s.trips (wk.trip :: wk.task.held)
  clients_at : ∀ k ∈ s.clients, Client okB okS k
  clients_agree : ∀ k ∈ s.clients, Agrees s.trips k.held
  rows_booked : ∀ t ∈ s.trips.rows, okB t.booking

/-- After one element of a list is replaced, an element is the new one or stands at
another position. -/
theorem mem_set_cases {α : Type} {l : List α} {i : Nat} {a x : α} (h : x ∈ l.set i a) :
    x = a ∨ ∃ j, j ≠ i ∧ l[j]? = some x := by
  obtain ⟨j, hj⟩ := List.mem_iff_getElem?.mp h
  by_cases hij : j = i
  · subst hij
    rw [List.getElem?_set_self'] at hj
    cases hl : l[j]? with
    | none =>
      rw [hl] at hj
      cases hj
    | some y =>
      rw [hl] at hj
      cases hj
      exact Or.inl rfl
  · rw [List.getElem?_set_ne (Ne.symm hij)] at hj
    exact Or.inr ⟨j, hij, hj⟩

/-- A worker that moves on keeps its trip. -/
theorem map_trip_set {workers : List Worker} {i : Nat} {wk : Worker} (k : Task)
    (h : workers[i]? = some wk) :
    (workers.set i ⟨wk.trip, k⟩).map Worker.trip = workers.map Worker.trip := by
  rw [List.map_set]
  refine List.ext_getElem? fun j => ?_
  by_cases hij : i = j
  · subst hij
    rw [List.getElem?_set_self', List.getElem?_map, h]
    rfl
  · rw [List.getElem?_set_ne hij]

/-- The rows of the table keep coming from bookings in `okB`. Only an insert brings a new one in;
every update writes a row that agrees with a stored one on its booking. -/
theorem okB_kept {okB : Booking → Prop} {w : World} {env : Env} {db db' : Table Trip}
    {k k' : Task} (hm : Task.Moves w env db k db' k') (hag : Agrees db k.held)
    (hins : ∀ b created, k = .insert b created → okB b) (hrows : ∀ t ∈ db.rows, okB t.booking) :
    ∀ t ∈ db'.rows, okB t.booking := by
  -- an update stores a copy, and a copy has the booking of a row that was there
  have hwrite : ∀ row : Trip, Agrees db [row] → ∀ t ∈ (db.update row).rows, okB t.booking := by
    intro row hrow t ht
    rcases Table.mem_update.mp ht with ⟨rfl, -⟩ | ⟨hmem, -⟩
    · obtain ⟨t₀, hget, hbook⟩ := hrow t List.mem_cons_self
      rw [← hbook]
      exact hrows t₀ (Table.mem_of_get hget)
    · exact hrows t hmem
  rcases hm.table hag with ⟨rfl, -⟩ | ⟨row, after, rfl, -, rfl⟩ | ⟨trip, readings, rfl, rfl⟩ |
    ⟨b, created, rfl, rfl⟩
  · exact hrows
  · exact hwrite row hag.head
  · exact hwrite _ (hag.head.congr rfl rfl)
  · intro t ht
    rcases Table.mem_insert.mp ht with hmem | rfl
    · exact hrows t hmem
    · exact hins b created rfl

section Kept

variable {w : World} {okB : Booking → Prop} {okS : Int → Prop} {s : Sys}

/-- A system with trips in the table and nothing else going on. -/
theorem wf_of_rows {db : Table Trip} (h : ∀ t ∈ db.rows, okB t.booking) :
    Wf w okB okS { trips := db } where
  workers_nodup := List.nodup_nil
  workers_at := fun _ h => nomatch h
  workers_agree := fun _ h => nomatch h
  clients_at := fun _ h => nomatch h
  clients_agree := fun _ h => nomatch h
  rows_booked := h

theorem wf_init : Wf w okB okS Sys.init := wf_of_rows fun _ ht => nomatch ht

theorem wf_start (w : World) (db : Table Trip) :
    Wf w (fun _ => True) (fun _ => True) { trips := db } := wf_of_rows fun _ _ => trivial

/-- A thread's copies survive the step of any thread. -/
theorem Wf.others_agree (h : Wf w okB okS s) {env : Env} {k k' : Task} {db : Table Trip}
    (hag : Agrees s.trips k.held) (hm : Task.Moves w env s.trips k db k') :
    (∀ wk ∈ s.workers, Agrees db (wk.trip :: wk.task.held)) ∧
      ∀ c ∈ s.clients, Agrees db c.held :=
  ⟨fun wk hwk => (h.workers_agree wk hwk).kept (hm.bookingsKept hag),
    fun c hc => (h.clients_agree c hc).kept (hm.bookingsKept hag)⟩

/-- A step of a request keeps the system well-formed. Workers go on agreeing with the table on the
columns of a booking, whatever state the request has written. -/
theorem Wf.client (h : Wf w okB okS s) {i : Nat} {env : Env} {k k' : Task} {db : Table Trip}
    (hk : s.clients[i]? = some k) (hm : Task.Moves w env s.trips k db k') :
    Wf w okB okS { s with trips := db, clients := s.clients.set i k' } := by
  have hmem : k ∈ s.clients := List.mem_of_getElem? hk
  have hag := h.clients_agree k hmem
  obtain ⟨hworkers, hclients⟩ := h.others_agree hag hm
  -- the workers are where they were; of the clients, one has moved
  refine ⟨h.workers_nodup, h.workers_at, hworkers, ?_, ?_, ?_⟩
  · intro c hc
    rcases List.mem_or_eq_of_mem_set hc with hold | rfl
    · exact h.clients_at c hold
    · exact (h.clients_at k hmem).step hm
  · intro c hc
    rcases List.mem_or_eq_of_mem_set hc with hold | rfl
    · exact hclients c hold
    · exact hm.agrees hag
  · refine okB_kept hm hag (fun b created heq => ?_) h.rows_booked
    have hat := h.clients_at k hmem
    rw [heq] at hat
    cases hat with
    | insert hb => exact hb
    | ended hended => cases hended

/-- Workers insert nothing. -/
theorem Worker.At.not_insert {phase : Phase} {wk : Worker} (h : wk.At w phase) (b : Booking)
    (created : Int) : wk.task ≠ .insert b created := by
  intro heq
  cases phase with
  | idle => exact h
  | matching =>
    have hat := h.2
    rw [heq] at hat
    cases hat
  | sweeping =>
    have hat : Sweeping wk.trip wk.task := h
    rw [heq] at hat
    cases hat

/-- A step of a worker keeps the system well-formed. The other threads still agree with the table,
since a worker changes no column of a booking. -/
theorem Wf.worker (h : Wf w okB okS s) {i : Nat} {env : Env} {wk : Worker} {k' : Task}
    {db : Table Trip} (hw : s.workers[i]? = some wk)
    (hm : Task.Moves w env s.trips wk.task db k') :
    Wf w okB okS { s with trips := db, workers := s.workers.set i ⟨wk.trip, k'⟩ } := by
  have hmem : wk ∈ s.workers := List.mem_of_getElem? hw
  have hag : Agrees s.trips wk.task.held := (h.workers_agree wk hmem).tail
  obtain ⟨hworkers, hclients⟩ := h.others_agree hag hm
  refine ⟨?_, ?_, ?_, h.clients_at, hclients, ?_⟩
  · show (((s.workers.set i ⟨wk.trip, k'⟩).map Worker.trip).map Trip.id).Nodup
    rw [map_trip_set k' hw]
    exact h.workers_nodup
  · intro x hx
    rcases List.mem_or_eq_of_mem_set hx with hold | rfl
    · exact h.workers_at x hold
    · exact (h.workers_at wk hmem).step hm
  · intro x hx
    rcases List.mem_or_eq_of_mem_set hx with hold | rfl
    · exact hworkers x hold
    · intro r hr
      rcases List.mem_cons.mp hr with rfl | hr
      · exact hworkers wk hmem _ List.mem_cons_self
      · exact hm.agrees hag r hr
  · exact okB_kept hm hag
      (fun b created heq => absurd heq ((h.workers_at wk hmem).not_insert b created))
      h.rows_booked

/-- The workers of a new loop: one for each row that was read. Their trips are different, because
the ids in a table are, and what they hold was read just now. -/
theorem Wf.spawn (h : Wf w okB okS s) {phase : Phase} {p : Trip → Bool} {body : Trip → Worker}
    (htrip : ∀ t, (body t).trip = t)
    (hheld : ∀ t, (body t).task.held ⊆ [t])
    (hat : ∀ t, p t = true → (body t).At w phase) :
    Wf w okB okS { s with phase := phase, workers := (s.trips.fetch p).map body } := by
  refine ⟨?_, ?_, ?_, h.clients_at, h.clients_agree, h.rows_booked⟩
  · show ((((s.trips.fetch p).map body).map Worker.trip).map Trip.id).Nodup
    have htrips : ((s.trips.fetch p).map body).map Worker.trip = s.trips.fetch p := by
      rw [List.map_map, show Worker.trip ∘ body = id from funext htrip, List.map_id]
    rw [htrips]
    exact s.trips.keys_nodup.sublist (List.filter_sublist.map _)
  · intro wk hwk
    obtain ⟨t, ht, rfl⟩ := List.mem_map.mp hwk
    exact hat t (Table.mem_fetch.mp ht).2
  · intro wk hwk
    obtain ⟨t, ht, rfl⟩ := List.mem_map.mp hwk
    intro r hr
    have hrt : r = t := by
      rcases List.mem_cons.mp hr with rfl | hr
      · exact htrip t
      · exact List.mem_singleton.mp (hheld t hr)
    rw [hrt]
    exact ⟨t, Table.get_of_mem (Table.mem_fetch.mp ht).1, rfl⟩

/-- The states that dispatch writes without a match. -/
def passiveStates : List Int :=
  [RideStateType.findingVehicle.id, RideStateType.noAvailableVehicles.id,
   RideStateType.driverNoShow.id]

/-- A row a worker writes back is its own trip's, in a passive state. -/
theorem Worker.At.write {phase : Phase} {wk : Worker} (h : wk.At w phase) {row : Trip}
    {after : After} (hk : wk.task = .write row after) :
    row.id = wk.trip.id ∧ row.rideState ∈ passiveStates := by
  cases phase with
  | idle => exact h.elim
  | matching =>
    have hat := h.2
    rw [hk] at hat
    cases hat with
    | mark hid hst => exact ⟨hid, hst ▸ by decide⟩
    | refuse hid hst => exact ⟨hid, hst ▸ by decide⟩
  | sweeping =>
    have hat : Sweeping wk.trip wk.task := h
    rw [hk] at hat
    cases hat with
    | mark hid hst => exact ⟨hid, hst ▸ by decide⟩

/-- A match is saved in the first loop, for the worker's own trip. -/
theorem Worker.At.save {phase : Phase} {wk : Worker} (h : wk.At w phase) {trip : Trip}
    {readings : List Reading} (hk : wk.task = .save trip readings) :
    phase = .matching ∧ ∃ tm v eta geom, trip = wk.trip.assigned v eta geom ∧
      TripMeta.of w wk.trip = .ok tm ∧ readings.map Prod.fst = tm.vehicles ∧
      getAvailableVehicles w tm wk.trip.seats readings = .ok [v] := by
  cases phase with
  | idle => exact h.elim
  | matching =>
    have hat := h.2
    rw [hk] at hat
    cases hat with
    | @save tm readings v eta geom hof hread havail =>
      exact ⟨rfl, tm, v, eta, geom, rfl, hof, hread, havail⟩
  | sweeping =>
    have hat : Sweeping wk.trip wk.task := h
    rw [hk] at hat
    cases hat

/-- **What a worker writes**: nothing, a row of its own trip in a passive state, or the match of
its own trip, and with that its task ends. -/
theorem Wf.worker_table (h : Wf w okB okS s) {i : Nat} {env : Env} {wk : Worker} {k' : Task}
    {db : Table Trip} (hw : s.workers[i]? = some wk)
    (hm : Task.Moves w env s.trips wk.task db k') :
    (db = s.trips ∧ wk.task.commits env = false) ∨
    (∃ row after, wk.task = .write row after ∧ row.id = wk.trip.id ∧ row.rideState ∈ passiveStates ∧
      env.publishes row = true ∧ db = s.trips.update row) ∨
    ∃ trip readings, wk.task = .save trip readings ∧ trip.id = wk.trip.id ∧
      k'.ended = true ∧ db = s.trips.update (stamped trip.unprocessed env.now) := by
  have hmem : wk ∈ s.workers := List.mem_of_getElem? hw
  have hat := h.workers_at wk hmem
  have hag : Agrees s.trips wk.task.held := (h.workers_agree wk hmem).tail
  rcases hm.table hag with hnone | ⟨row, after, hk, hp, hdb⟩ | ⟨trip, readings, hk, hdb⟩ |
    ⟨b, created, hk, -⟩
  · exact Or.inl hnone
  · obtain ⟨hid, hpassive⟩ := hat.write hk
    exact Or.inr (Or.inl ⟨row, after, hk, hid, hpassive, hp, hdb⟩)
  · obtain ⟨-, tm, v, eta, geom, htrip, -⟩ := hat.save hk
    have hended : k'.ended = true := by
      rw [hk] at hm
      cases hm with
      | saved => split <;> rfl
    exact Or.inr (Or.inr ⟨trip, readings, hk, htrip ▸ rfl, hended, hdb⟩)
  · -- only a request inserts
    exact absurd hk (hat.not_insert b created)

/-- A worker touches no row but its own, and adds none. -/
theorem Wf.worker_frame (h : Wf w okB okS s) {i : Nat} {env : Env} {wk : Worker} {k' : Task}
    {db : Table Trip} (hw : s.workers[i]? = some wk)
    (hm : Task.Moves w env s.trips wk.task db k') :
    db.rows.map Trip.id = s.trips.rows.map Trip.id ∧
      ∀ tripId, tripId ≠ wk.trip.id → db.get tripId = s.trips.get tripId := by
  rcases h.worker_table hw hm with ⟨rfl, -⟩ | ⟨row, after, -, hid, -, -, rfl⟩ |
    ⟨trip, readings, -, hid, -, rfl⟩
  · exact ⟨rfl, fun _ _ => rfl⟩
  · refine ⟨Table.map_key_replaceRow row s.trips.rows, fun tripId hne => ?_⟩
    exact Table.get_update_ne fun heq => hne (heq.trans hid)
  · refine ⟨Table.map_key_replaceRow _ s.trips.rows, fun tripId hne => ?_⟩
    exact Table.get_update_ne fun heq => hne (heq.trans hid)

/-- **What a request writes**: nothing, a row in a state that requests may write, or a new trip. -/
theorem Wf.client_table (h : Wf w okB okS s) {i : Nat} {env : Env} {k k' : Task}
    {db : Table Trip} (hk : s.clients[i]? = some k)
    (hm : Task.Moves w env s.trips k db k') :
    (db = s.trips ∧ k.commits env = false) ∨
    (∃ row after, k = .write row after ∧ okS row.rideState ∧ Agrees s.trips [row] ∧
      env.publishes row = true ∧ db = s.trips.update row) ∨
    ∃ b created, k = .insert b created ∧ okB b ∧
      db = s.trips.insert (stamped (b.trip created) env.now) := by
  have hmem : k ∈ s.clients := List.mem_of_getElem? hk
  have hat := h.clients_at k hmem
  have hag := h.clients_agree k hmem
  rcases hm.table hag with hnone | ⟨row, after, rfl, hp, hdb⟩ | ⟨trip, readings, rfl, -⟩ |
    ⟨b, created, rfl, hdb⟩
  · exact Or.inl hnone
  · cases hat with
    | write hs => exact Or.inr (Or.inl ⟨row, after, rfl, hs, hag.head, hp, hdb⟩)
    | ended hended => cases hended
  · cases hat with
    -- a request never stores a match
    | ended hended => cases hended
  · cases hat with
    | insert hb => exact Or.inr (Or.inr ⟨b, created, rfl, hb, hdb⟩)
    | ended hended => cases hended

/-- Different positions hold workers of different trips. -/
theorem Wf.id_ne (h : Wf w okB okS s) {i j : Nat} {wk wk' : Worker}
    (hi : s.workers[i]? = some wk) (hj : s.workers[j]? = some wk') (hij : j ≠ i) :
    wk'.trip.id ≠ wk.trip.id := by
  intro heq
  obtain ⟨hlt, -⟩ := List.getElem?_eq_some_iff.mp hj
  -- the same id at two positions of a list without repetition
  have hpos : ((s.workers.map Worker.trip).map Trip.id)[j]? =
      ((s.workers.map Worker.trip).map Trip.id)[i]? := by
    simp only [List.getElem?_map, hi, hj]
    exact congrArg some heq
  exact hij ((List.getElem?_inj (by simpa using hlt) h.workers_nodup).mp hpos)

/-- Once its worker has ended, a trip is in nobody's hands. -/
theorem Wf.handling_set (h : Wf w okB okS s) {i : Nat} {wk : Worker}
    {k' : Task} {db : Table Trip} (hw : s.workers[i]? = some wk) (hended : k'.ended = true) :
    Sys.handling { s with trips := db, workers := s.workers.set i ⟨wk.trip, k'⟩ } wk.trip.id
      = false := by
  rw [Bool.eq_false_iff]
  intro hhand
  obtain ⟨-, x, hx, hid, hbusy⟩ := Sys.handling_iff.mp hhand
  rcases mem_set_cases hx with rfl | ⟨j, hij, hj⟩
  · rw [hended] at hbusy
    cases hbusy
  · exact h.id_ne hw hj hij hid

/-- The step of one worker leaves the trips of the others in the same hands. -/
theorem handling_set_ne {i : Nat} {wk : Worker} {k' : Task} {db : Table Trip}
    (hw : s.workers[i]? = some wk) {tripId : Int} (hne : tripId ≠ wk.trip.id) :
    Sys.handling { s with trips := db, workers := s.workers.set i ⟨wk.trip, k'⟩ } tripId =
      s.handling tripId := by
  rw [Bool.eq_iff_iff, Sys.handling_iff, Sys.handling_iff]
  refine and_congr_right fun _ => ⟨?_, ?_⟩
  · rintro ⟨x, hx, hid, hbusy⟩
    rcases List.mem_or_eq_of_mem_set hx with hold | rfl
    · exact ⟨x, hold, hid, hbusy⟩
    · exact absurd hid.symm hne
  · rintro ⟨x, hx, hid, hbusy⟩
    obtain ⟨j, hj⟩ := List.mem_iff_getElem?.mp hx
    have hij : i ≠ j := by
      rintro rfl
      rw [hw] at hj
      cases hj
      exact hne hid.symm
    refine ⟨x, List.mem_iff_getElem?.mpr ⟨j, ?_⟩, hid, hbusy⟩
    show (s.workers.set i _)[j]? = _
    rw [List.getElem?_set_ne hij]
    exact hj

/-- A worker that has not ended keeps its trip in hand. -/
theorem handling_set_busy (hphase : s.phase = .matching) {i : Nat} {wk : Worker} {k' : Task}
    {db : Table Trip} (hw : s.workers[i]? = some wk) (hbusy : k'.ended = false) :
    Sys.handling { s with trips := db, workers := s.workers.set i ⟨wk.trip, k'⟩ } wk.trip.id
      = true := by
  obtain ⟨hlt, -⟩ := List.getElem?_eq_some_iff.mp hw
  exact Sys.handling_iff.mpr ⟨hphase, _, List.mem_set hlt _, rfl, hbusy⟩

/-- **Every transition keeps the system well-formed.** Requests and workers step one thread; `tick`
and `sweep` replace all workers by new ones, and `rest` lets them go. -/
theorem Wf.step {s' : Sys} {l : Label} (h : Wf w okB okS s) (hs : s.Steps w l s')
    (hl : l.Within okB okS) : Wf w okB okS s' := by
  cases hs with
  | @request r =>
    refine ⟨h.workers_nodup, h.workers_at, h.workers_agree, ?_, ?_, h.rows_booked⟩
    · intro k hk
      rcases List.mem_append.mp hk with hold | hnew
      · exact h.clients_at k hold
      · rw [List.mem_singleton.mp hnew]
        exact Request.client_start hl
    · intro k hk
      rcases List.mem_append.mp hk with hold | hnew
      · exact h.clients_agree k hold
      · rw [List.mem_singleton.mp hnew, Request.held_start]
        exact fun r hr => nomatch hr
  | client hk hm => exact h.client hk hm
  | tick hidle =>
    rw [Trip.getPending_eq]
    exact h.spawn (fun _ => rfl) (fun _ => List.Subset.refl _) fun t ht => ⟨ht, .start⟩
  | worker hw hm => exact h.worker hw hm
  | @skip i wk hw hun hthrew =>
    have hmem : wk ∈ s.workers := List.mem_of_getElem? hw
    refine ⟨?_, ?_, ?_, h.clients_at, h.clients_agree, h.rows_booked⟩
    · -- a body that is skipped keeps its trip, and holds no row any more
      show (((s.workers.set i ⟨wk.trip, .failed .aborted⟩).map Worker.trip).map Trip.id).Nodup
      rw [map_trip_set _ hw]
      exact h.workers_nodup
    · intro x hx
      rcases List.mem_or_eq_of_mem_set hx with hold | rfl
      · exact h.workers_at x hold
      · exact (h.workers_at wk hmem).failed _
    · intro x hx
      rcases List.mem_or_eq_of_mem_set hx with hold | rfl
      · exact h.workers_agree x hold
      · intro r hr
        rw [List.mem_singleton.mp hr]
        exact h.workers_agree wk hmem _ List.mem_cons_self
  | sweep hmatching hended hthrew =>
    exact h.spawn (fun _ => rfl) (fun _ => List.nil_subset _) fun t _ => Sweeping.start
  | rest =>
    exact ⟨List.nodup_nil, (fun _ hx => nomatch hx), (fun _ hx => nomatch hx), h.clients_at,
      h.clients_agree, h.rows_booked⟩

end Kept

/-- Every system that a run arrives at is well-formed. -/
theorem wf_of_exec {w : World} {db : Table Trip} {run : List Label} {s : Sys}
    (h : Run.exec (Sys.step w) { trips := db } run = some s) :
    Wf w (fun _ => True) (fun _ => True) s :=
  Run.invariant_of_meets (C := fun _ _ => True)
    (fun _ l _ hstep _ hm => hm.step (Sys.step_steps hstep) l.within_true) (wf_start w db)
    (Run.meets_of_forall (fun _ _ _ => trivial) _) h

end Maiden
