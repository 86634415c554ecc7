import Maiden.Actors.Invariant
import Maiden.Base.Run

/-!
# Live trips and their assignments

A trip's vehicle and driver are written in one place, `saveTrip`, at the end of a
match. Its ride state is written in three more: by the tick, and by the two update
actions, which accept any state from any caller who owns the trip. A passenger can
thus declare a trip that has no vehicle to be on its way.

`Assigned es t` says where an assignment must come from: a match saved earlier in
the run. `liveAssigned_of_meets`: live trips are assigned as long as no client
writes a live state over a row that had no vehicle when it was read, and every
vehicle has a driver.
-/

namespace Maiden

/-- The trip's vehicle and driver are set, and were set by a match saved in `es`. -/
def Assigned (es : List Event) (t : Trip) : Prop :=
  t.vehicleId ≠ 0 ∧ t.driverId ≠ 0 ∧
    ∃ row, Event.save row ∈ es ∧ row.id = t.id ∧ row.vehicleId = t.vehicleId ∧
      row.driverId = t.driverId

/-- Every live trip is assigned. -/
def LiveAssigned (es : List Event) (db : Table Trip) : Prop :=
  ∀ t ∈ db.rows, t.isLive = true → Assigned es t

/-- Every vehicle has a driver. -/
def Crewed (w : World) : Prop := ∀ v ∈ w.vehicles.rows, v.driverId ≠ 0

/-- The next step writes a live state over a row that had no vehicle when it was read. -/
def Task.livens (env : Env) : Task → Bool
  | .write row _ => env.publishes row && row.isLive && row.vehicleId == 0
  | _ => false

/-- No client makes a trip without a vehicle live. -/
def LiveOverAssigned (s : Sys) : Label → Prop
  | .client i env => ∀ k ∈ s.clients[i]?, k.livens env = false
  | _ => True

instance (s : Sys) : DecidablePred (LiveOverAssigned s)
  | .client i env => inferInstanceAs (Decidable (∀ k ∈ s.clients[i]?, k.livens env = false))
  | .request _ => isTrue trivial
  | .tick => isTrue trivial
  | .worker _ _ => isTrue trivial
  | .skip _ => isTrue trivial
  | .sweep _ => isTrue trivial
  | .rest => isTrue trivial

/-- A row's assignment, if it has one, was set by a match saved in `es`. -/
def Sourced (es : List Event) (t : Trip) : Prop := t.vehicleId ≠ 0 → Assigned es t

theorem Sourced.mono {es es' : List Event} (hsub : es ⊆ es') {t : Trip} (h : Sourced es t) :
    Sourced es' t := by
  intro hv
  obtain ⟨h1, h2, row, hrow, hrest⟩ := h hv
  exact ⟨h1, h2, row, hsub hrow, hrest⟩

/-- The columns that carry the assignment decide where it comes from. -/
theorem Sourced.congr {es : List Event} {t t' : Trip} (h : Sourced es t) (hid : t'.id = t.id)
    (hv : t'.vehicleId = t.vehicleId) (hd : t'.driverId = t.driverId) : Sourced es t' := by
  unfold Sourced Assigned at *
  rw [hid, hv, hd]
  exact h

/-- The copies of rows a thread holds, before a match has changed one of them. -/
def Task.unmatched : Task → List Trip
  | .save _ _ => []
  | k => k.held

/-- Every row and every copy of one is sourced, and live rows have a vehicle. -/
structure Traced (es : List Event) (s : Sys) : Prop where
  rows : ∀ t ∈ s.trips.rows, Sourced es t
  live : ∀ t ∈ s.trips.rows, t.isLive = true → t.vehicleId ≠ 0
  workers : ∀ wk ∈ s.workers, ∀ r ∈ wk.task.unmatched, Sourced es r
  clients : ∀ k ∈ s.clients, ∀ r ∈ k.unmatched, Sourced es r

theorem Task.unmatched_subset (k : Task) : k.unmatched ⊆ k.held := by
  cases k with
  | save trip readings => exact List.nil_subset _
  | _ => exact List.Subset.refl _

section

variable {w : World} {okB : Booking → Prop} {okS : Int → Prop} {env : Env}
  {db db' : Table Trip} {k k' : Task} {es es' : List Event}

/-- A thread's copies come from the table or from the copies it had. The one exception is the copy
that the match has filled in, and `unmatched` leaves it out. -/
theorem Task.Moves.copies_sourced (hm : Task.Moves w env db k db' k')
    (hrows : ∀ t ∈ db.rows, Sourced es t) (hcopies : ∀ r ∈ k.unmatched, Sourced es r) :
    ∀ r ∈ k'.unmatched, Sourced es r := by
  cases hm with
  | @read tripId state after t hget =>
    intro r hr
    rcases List.mem_cons.mp hr with rfl | hr
    · exact (hrows t (Table.mem_of_get hget)).congr rfl rfl rfl
    · exact hcopies r hr
  | @commit row after hp =>
    intro r hr
    have hheld := After.held_next w env row after (Task.unmatched_subset _ hr)
    exact hcopies r (List.mem_cons_of_mem row hheld)
  | begin => exact hcopies
  | look => exact hcopies
  | choose => exact hcopies
  | saved =>
    intro r hr
    split at hr <;> exact nomatch hr
  | inserted =>
    intro r hr
    split at hr <;> exact nomatch hr
  | _ => exact fun r hr => nomatch hr

/-- Rows stay sourced through a step, if the row it saves is. A row that is written back was
sourced in the hands of its thread, and a booking has no vehicle yet. -/
theorem Task.Moves.sourced (hm : Task.Moves w env db k db' k') (hag : Agrees db k.held)
    (hrows : ∀ t ∈ db.rows, Sourced es t) (hcopies : ∀ r ∈ k.unmatched, Sourced es r)
    (hsub : es ⊆ es')
    (hsave : ∀ trip readings, k = .save trip readings →
      Sourced es' (stamped trip.unprocessed env.now)) :
    ∀ t ∈ db'.rows, Sourced es' t := by
  intro t ht
  rcases hm.table hag with ⟨rfl, -⟩ | ⟨row, after, rfl, -, rfl⟩ | ⟨trip, readings, rfl, rfl⟩ |
    ⟨b, created, rfl, rfl⟩
  · exact (hrows t ht).mono hsub
  · rcases Table.mem_update.mp ht with ⟨rfl, -⟩ | ⟨hmem, -⟩
    · exact (hcopies t List.mem_cons_self).mono hsub
    · exact (hrows t hmem).mono hsub
  · rcases Table.mem_update.mp ht with ⟨rfl, -⟩ | ⟨hmem, -⟩
    · exact hsave trip readings rfl
    · exact (hrows t hmem).mono hsub
  · rcases Table.mem_insert.mp ht with hmem | rfl
    · exact (hrows t hmem).mono hsub
    · exact fun hv => absurd rfl hv

variable {s s' : Sys} {l : Label}

theorem Traced.spawn (h : Traced es s) (hsub : es ⊆ es') {phase : Phase} {workers : List Worker}
    (hnew : ∀ wk ∈ workers, wk.task.unmatched ⊆ s.trips.rows) :
    Traced es' { s with phase := phase, workers := workers } :=
  ⟨fun t ht => (h.rows t ht).mono hsub, h.live,
    fun wk hwk r hr => (h.rows r (hnew wk hwk hr)).mono hsub,
    fun k hk r hr => (h.clients k hk r hr).mono hsub⟩

theorem Traced.client (h : Traced es s) (hwf : Wf w okB okS s) {i : Nat}
    (hk : s.clients[i]? = some k) (hm : Task.Moves w env s.trips k db k')
    (hover : LiveOverAssigned s (.client i env)) (hsub : es ⊆ es') :
    Traced es' { s with trips := db, clients := s.clients.set i k' } := by
  have hmem : k ∈ s.clients := List.mem_of_getElem? hk
  have hag := hwf.clients_agree k hmem
  -- clients save no matches
  have hnosave : ∀ trip readings, k ≠ .save trip readings := by
    rintro trip readings rfl
    cases hwf.clients_at _ hmem with
    | ended hended => cases hended
  have hcopies := h.clients k hmem
  refine ⟨hm.sourced hag h.rows hcopies hsub (fun trip readings heq =>
    absurd heq (hnosave trip readings)), ?_, ?_, ?_⟩
  · intro t ht hlive
    rcases hwf.client_table hk hm with ⟨rfl, -⟩ | ⟨row, after, rfl, -, -, hp, rfl⟩ |
      ⟨b, created, -, -, rfl⟩
    · exact h.live t ht hlive
    · rcases Table.mem_update.mp ht with ⟨rfl, -⟩ | ⟨hold, -⟩
      · -- the row is live, so it was read with a vehicle
        intro hv
        have hno := hover _ hk
        simp [Task.livens, hp, hlive, hv] at hno
      · exact h.live t hold hlive
    · rcases Table.mem_insert.mp ht with hold | rfl
      · exact h.live t hold hlive
      · cases hlive
  · exact fun wk hwk r hr => (h.workers wk hwk r hr).mono hsub
  · intro c hc r hr
    rcases List.mem_or_eq_of_mem_set hc with hold | rfl
    · exact (h.clients c hold r hr).mono hsub
    · exact (hm.copies_sourced h.rows hcopies r hr).mono hsub

theorem Traced.worker (h : Traced es s) (hwf : Wf w okB okS s) (hcrew : Crewed w) {i : Nat}
    {wk : Worker} (hw : s.workers[i]? = some wk) (hm : Task.Moves w env s.trips wk.task db k') :
    Traced (es ++ (wk.task.workerEvent env).toList)
      { s with trips := db, workers := s.workers.set i ⟨wk.trip, k'⟩ } := by
  have hmem : wk ∈ s.workers := List.mem_of_getElem? hw
  have hag : Agrees s.trips wk.task.held := (hwf.workers_agree wk hmem).tail
  have hcopies := h.workers wk hmem
  have hsub : es ⊆ es ++ (wk.task.workerEvent env).toList := List.subset_append_left _ _
  -- a saved match has the vehicle of the fleet that was available, and is an event
  have hsave : ∀ trip readings, wk.task = .save trip readings → trip.vehicleId ≠ 0 ∧
      Assigned (es ++ (wk.task.workerEvent env).toList) (stamped trip.unprocessed env.now) := by
    intro trip readings hk
    obtain ⟨-, tm, v, eta, geom, rfl, hof, hread, havail⟩ := (hwf.workers_at wk hmem).save hk
    have hrow := (Vehicle.mem_getForRouteRaw.mp (available_onRoute hof hread havail)).1
    have hvid : v.id ≠ 0 := Table.key_ne_zero_of_mem hrow
    refine ⟨hvid, hvid, hcrew v hrow, _, List.mem_append_right _ ?_, rfl, rfl, rfl⟩
    rw [hk]
    exact List.mem_cons_self
  refine ⟨hm.sourced hag h.rows hcopies hsub (fun trip readings hk _ =>
    (hsave trip readings hk).2), ?_, ?_, ?_⟩
  · intro t ht hlive
    rcases hwf.worker_table hw hm with ⟨rfl, -⟩ | ⟨row, after, -, -, hpassive, -, rfl⟩ |
      ⟨trip, readings, hk, -, -, rfl⟩
    · exact h.live t ht hlive
    · rcases Table.mem_update.mp ht with ⟨rfl, -⟩ | ⟨hold, -⟩
      · have hdead : ∀ st ∈ passiveStates, st ∉ Trip.haveRideStates := by decide
        exact absurd (Trip.isLive_iff.mp hlive) (hdead _ hpassive)
      · exact h.live t hold hlive
    · rcases Table.mem_update.mp ht with ⟨rfl, -⟩ | ⟨hold, -⟩
      · exact (hsave trip readings hk).1
      · exact h.live t hold hlive
  · intro x hx r hr
    rcases List.mem_or_eq_of_mem_set hx with hold | rfl
    · exact (h.workers x hold r hr).mono hsub
    · exact (hm.copies_sourced h.rows hcopies r hr).mono hsub
  · exact fun c hc r hr => (h.clients c hc r hr).mono hsub

/-- **One transition** keeps every vehicle traced to the match that gave it: a match adds its own
event, and every other write is of a copy that was traced before. -/
theorem Traced.step (h : Traced es s) (hwf : Wf w okB okS s) (hcrew : Crewed w)
    (hs : s.Steps w l s') (hover : LiveOverAssigned s l) :
    Traced (es ++ (s.event l).toList) s' := by
  have hsub : es ⊆ es ++ (s.event l).toList := List.subset_append_left _ _
  cases hs with
  | @request r =>
    refine ⟨fun t ht => (h.rows t ht).mono hsub, h.live,
      fun wk hwk x hx => (h.workers wk hwk x hx).mono hsub, fun k hk x hx => ?_⟩
    rcases List.mem_append.mp hk with hold | hnew
    · exact (h.clients k hold x hx).mono hsub
    · -- a new request holds no row
      have hheld := Task.unmatched_subset k hx
      rw [List.mem_singleton.mp hnew, Request.held_start] at hheld
      exact nomatch hheld
  | client hk hm => exact h.client hwf hk hm hover hsub
  | tick =>
    refine h.spawn hsub fun wk hwk r hr => ?_
    obtain ⟨t, ht, rfl⟩ := List.mem_map.mp hwk
    rw [List.mem_singleton.mp hr]
    exact (Trip.mem_getPending.mp ht).1
  | @worker i env wk k' db hw hm =>
    rw [Sys.event_worker env hw]
    exact h.worker hwf hcrew hw hm
  | @skip i wk hw =>
    refine ⟨fun t ht => (h.rows t ht).mono hsub, h.live, fun x hx r hr => ?_,
      fun k hk x hx => (h.clients k hk x hx).mono hsub⟩
    rcases List.mem_or_eq_of_mem_set hx with hold | rfl
    · exact (h.workers x hold r hr).mono hsub
    · exact nomatch hr
  | sweep =>
    refine h.spawn hsub fun wk hwk r hr => ?_
    obtain ⟨t, ht, rfl⟩ := List.mem_map.mp hwk
    exact nomatch hr
  | rest => exact h.spawn hsub fun wk hwk => nomatch hwk

end

/-- **Live trips are assigned**: in every run of requests and ticks, if every vehicle
has a driver and no client writes a live state over a row that had no vehicle when it
was read, then every live trip has a vehicle and a driver that a saved match gave it. -/
theorem liveAssigned_of_meets {w : World} (hcrew : Crewed w) {run : List Label} {s : Sys}
    (hrun : Run.exec (Sys.step w) Sys.init run = some s)
    (hover : Run.Meets (Sys.step w) LiveOverAssigned Sys.init run) :
    LiveAssigned (Run.trace (Sys.step w) Sys.event Sys.init run) s.trips := by
  have hinit : Wf w (fun _ => True) (fun _ => True) Sys.init ∧ Traced [] Sys.init :=
    ⟨wf_init, fun _ h => (nomatch h), fun _ h => (nomatch h), fun _ h => (nomatch h),
      fun _ h => nomatch h⟩
  have hend := Run.trace_invariant
    (K := fun es s => Wf w (fun _ => True) (fun _ => True) s ∧ Traced es s)
    (fun es s l s' hs hl hK =>
      ⟨hK.1.step (Sys.step_steps hs) (Label.within_true l),
        hK.2.step hK.1 hcrew (Sys.step_steps hs) hl⟩) hinit hover hrun
  exact fun t ht hlive => hend.2.rows t ht (hend.2.live t ht hlive)

/-- A trip is matched and its driver sets out. -/
def driverSetsOut : List Label :=
  Town.served 0 2 (.bookTrip (Town.ride 5 1)) ++ [.tick] ++ Town.worked 0 7 ++
    Town.served 1 3 (.updateTripState 9 1 RideStateType.vehicleOnWay.id)

theorem liveAssigned_driverSetsOut :
    ∃ s, Run.exec (Sys.step (Town.world [Town.van 9 4])) Sys.init driverSetsOut = some s ∧
      LiveAssigned (Run.trace (Sys.step (Town.world [Town.van 9 4])) Sys.event Sys.init
        driverSetsOut) s.trips := by
  have hrun : (Run.exec (Sys.step (Town.world [Town.van 9 4])) Sys.init
      driverSetsOut).isSome = true := by decide
  obtain ⟨s, hs⟩ := Option.isSome_iff_exists.mp hrun
  exact ⟨s, hs, liveAssigned_of_meets (by unfold Crewed; decide) hs (by decide)⟩

/-- A passenger declares a trip that no tick has seen to be on its way. -/
def passengerSetsOut : List Label :=
  Town.served 0 2 (.bookTrip (Town.ride 5 1)) ++
    Town.served 1 3 (.updateTripState 5 1 RideStateType.vehicleOnWay.id)

theorem live_without_vehicle :
    ∃ (w : World) (run : List Label) (s : Sys), Crewed w ∧
      Run.exec (Sys.step w) Sys.init run = some s ∧
      ¬ LiveAssigned (Run.trace (Sys.step w) Sys.event Sys.init run) s.trips := by
  have hrun : (Run.exec (Sys.step (Town.world [Town.van 9 4])) Sys.init passengerSetsOut).any
      (fun s => s.trips.rows.any fun t => t.isLive && t.vehicleId == 0) = true := by decide
  obtain ⟨s, hs, hany⟩ := (Option.any_eq_true _ _).mp hrun
  obtain ⟨t, ht, hbad⟩ := List.any_eq_true.mp hany
  rw [Bool.and_eq_true, beq_iff_eq] at hbad
  exact ⟨Town.world [Town.van 9 4], passengerSetsOut, s, by unfold Crewed; decide, hs,
    fun h => (h t ht hbad.1).1 hbad.2⟩

end Maiden
