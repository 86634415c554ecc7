import Maiden.Actors.Invariant
import Maiden.Base.Run

/-!
# A tick that runs undisturbed

What one dispatch tick does to the table when no request runs beside it, with its
workers still interleaved in any way and any of them free to throw. Without
disturbance a worker knows the stored row of its trip at every point
(`StoredAt`, `SweptAt`), and so each row has one of five fates (`Fate`): it is left
as it was, marked FindingVehicle, refused, booked on an active vehicle of its route,
or, when it is accepted and overdue at the moment the tick looks for overdue trips,
declared a no-show.

The overdue trips are read after the first loop has returned, with the clock of that
moment; a trip that is not overdue when the tick starts may be overdue by then.
-/

namespace Maiden

/-- The transitions of a tick after its start. -/
def Label.ofTick : Label → Bool
  | .worker _ _ => true
  | .skip _ => true
  | .sweep _ => true
  | .rest => true
  | _ => false

/-- The row `saveTrip` leaves for a trip matched with `v`. -/
def Trip.matched (t : Trip) (v : Vehicle) (eta : Int) (geom : JString) (now : Int) : Trip :=
  stamped (t.assigned v eta geom).unprocessed now

/-- What a tick can have made of the row `t₀`; `nows` are the times at which it looked
for overdue trips. -/
inductive Fate (w : World) (nows : Int → Prop) (t₀ : Trip) : Trip → Prop
  | same : Fate w nows t₀ t₀
  | finding (hp : t₀.isPending = true) :
      Fate w nows t₀ (t₀.withState RideStateType.findingVehicle.id)
  | refused (hp : t₀.isPending = true) :
      Fate w nows t₀ (t₀.withState RideStateType.noAvailableVehicles.id)
  | booked (hp : t₀.isPending = true) {v : Vehicle} {eta : Int} {geom : JString} {now : Int}
      (hv : v ∈ Vehicle.getForRouteRaw w.vehicles t₀.routeId) :
      Fate w nows t₀ (t₀.matched v eta geom now)
  | noShow {t : Trip} {now : Int} (hnow : nows now) (hover : t.isOverdue now = true)
      (h : Fate w nows t₀ t) : Fate w nows t₀ (t.withState RideStateType.driverNoShow.id)

/-! ## The stored row behind a worker -/

/-- The stored row of the trip while its worker in the first loop is at `k`. -/
def StoredAt (w : World) (trip t : Trip) : Task → Prop
  | .update _ _ (.assign _) => t = trip
  | .write row (.assign _) =>
    t = trip ∧ row = trip.withState RideStateType.findingVehicle.id
  -- the only other update of a worker of the first loop: no vehicle is available
  | .write row _ =>
    t = trip.withState RideStateType.findingVehicle.id ∧
      row = trip.withState RideStateType.noAvailableVehicles.id
  | .finished =>
    t = trip.withState RideStateType.findingVehicle.id ∨
    t = trip.withState RideStateType.noAvailableVehicles.id ∨
    ∃ v eta geom now, v ∈ Vehicle.getForRouteRaw w.vehicles trip.routeId ∧
      t = trip.matched v eta geom now
  -- it may have thrown before the first write, in between, or after the save
  | .failed _ =>
    t = trip ∨ t = trip.withState RideStateType.findingVehicle.id ∨
    ∃ v eta geom now, v ∈ Vehicle.getForRouteRaw w.vehicles trip.routeId ∧
      t = trip.matched v eta geom now
  | _ => t = trip.withState RideStateType.findingVehicle.id

/-- The stored row of the trip while its worker in the second loop is at `k`. -/
def SweptAt (trip t : Trip) : Task → Prop
  | .write row _ => t = trip ∧ row = trip.withState RideStateType.driverNoShow.id
  | .finished => t = trip.withState RideStateType.driverNoShow.id
  | _ => t = trip

section

variable {w : World} {env : Env} {db db' : Table Trip} {trip t : Trip} {k k' : Task}

/-- An update finds the row of its trip. -/
theorem Task.Moves.of_update {tripId state : Int} {after : After}
    (hm : Task.Moves w env db (.update tripId state after) db' k')
    (hget : db.get tripId = some t) : db' = db ∧ k' = .write (t.withState state) after := by
  cases hm with
  | missing hnone =>
    rw [hget] at hnone
    cases hnone
  | read hread =>
    rw [hget] at hread
    cases hread
    exact ⟨rfl, rfl⟩

/-- A saved match stands in the row of its trip. -/
theorem get_saved (hget : db.get trip.id = some t) (v : Vehicle) (eta : Int) (geom : JString)
    (now : Int) : (upsert db (trip.assigned v eta geom).unprocessed now).1.get trip.id =
      some (trip.matched v eta geom now) := by
  have hid : (trip.assigned v eta geom).unprocessed.id ≠ 0 := by
    rw [show (trip.assigned v eta geom).unprocessed.id = trip.id from rfl, ← Table.key_of_get hget]
    exact Table.key_ne_zero_of_mem (Table.mem_of_get hget)
  rw [upsert_old db now hid]
  exact Table.get_update_self (a := trip.matched v eta geom now) hget

/-- A worker of the first loop carries its stored row along. -/
theorem StoredAt.step (h : StoredAt w trip t k) (hk : Matching w trip k)
    (hget : db.get trip.id = some t) (hm : Task.Moves w env db k db' k') :
    ∃ t', db'.get trip.id = some t' ∧ StoredAt w trip t' k' := by
  cases hk with
  | start =>
    obtain ⟨rfl, rfl⟩ := hm.of_update hget
    exact ⟨t, hget, h, by rw [show t = trip from h]⟩
  | mark =>
    obtain ⟨rfl, rfl⟩ := h
    cases hm with
    | rollback => exact ⟨t, hget, Or.inl rfl⟩
    | commit => exact ⟨_, Table.get_update_self (a := t.withState _) hget, rfl⟩
  | assign =>
    cases hm with
    | noStops => exact ⟨t, hget, Or.inr (Or.inl h)⟩
    | begin => exact ⟨t, hget, h⟩
  | survey =>
    cases hm with
    | look => exact ⟨t, hget, h⟩
    | unreadable => exact ⟨t, hget, Or.inr (Or.inl h)⟩
    | noVehicle => exact ⟨t, hget, h⟩
    | choose => exact ⟨t, hget, h⟩
  | route =>
    cases hm with
    | unroutable => exact ⟨t, hget, Or.inr (Or.inl h)⟩
    | unmatched => exact ⟨t, hget, Or.inl h⟩
    | matched => exact ⟨t, hget, h⟩
  | @save tm readings v eta geom hof hread havail =>
    have hv := available_onRoute hof hread havail
    cases hm with
    | saved =>
      refine ⟨trip.matched v eta geom env.now, get_saved hget v eta geom env.now, ?_⟩
      -- the row is committed whether or not the publishing throws
      split
      · exact Or.inr (Or.inr ⟨v, eta, geom, env.now, hv, rfl⟩)
      · exact Or.inr (Or.inr ⟨v, eta, geom, env.now, hv, rfl⟩)
  | giveUp =>
    obtain ⟨rfl, rfl⟩ := hm.of_update hget
    exact ⟨t, hget, h, by rw [show t = trip.withState _ from h]; rfl⟩
  | refuse =>
    obtain ⟨rfl, rfl⟩ := h
    cases hm with
    | rollback => exact ⟨_, hget, Or.inr (Or.inl rfl)⟩
    | commit =>
      exact ⟨_, Table.get_update_self (a := trip.withState _) hget, Or.inr (Or.inl rfl)⟩
  | finished => cases hm
  | failed => cases hm

/-- A worker of the second loop: the row is the one that was fetched until the worker writes, and
then has the state of a no-show. -/
theorem SweptAt.step (h : SweptAt trip t k) (hk : Sweeping trip k)
    (hget : db.get trip.id = some t) (hm : Task.Moves w env db k db' k') :
    ∃ t', db'.get trip.id = some t' ∧ SweptAt trip t' k' ∧
      (t' = t ∨ (t = trip ∧ t' = trip.withState RideStateType.driverNoShow.id)) := by
  cases hk with
  | start =>
    obtain ⟨rfl, rfl⟩ := hm.of_update hget
    exact ⟨t, hget, ⟨h, by rw [show t = trip from h]⟩, Or.inl rfl⟩
  | mark =>
    obtain ⟨rfl, rfl⟩ := h
    cases hm with
    | rollback => exact ⟨t, hget, rfl, Or.inl rfl⟩
    | commit =>
      exact ⟨_, Table.get_update_self (a := t.withState _) hget, rfl, Or.inr ⟨rfl, rfl⟩⟩
  | finished => cases hm
  | failed => cases hm

/-- What a worker of the first loop has stored is a fate of its trip. By where the worker stands
one knows how far the row has come: untouched, marked, refused or booked. -/
theorem StoredAt.fate (h : StoredAt w trip t k) (hk : Matching w trip k)
    (hp : trip.isPending = true) (nows : Int → Prop) : Fate w nows trip t := by
  have hbooked : (∃ v eta geom now, v ∈ Vehicle.getForRouteRaw w.vehicles trip.routeId ∧
      t = trip.matched v eta geom now) → Fate w nows trip t := by
    rintro ⟨v, eta, geom, now, hv, rfl⟩
    exact .booked hp hv
  have hfinding : t = trip.withState RideStateType.findingVehicle.id → Fate w nows trip t := by
    rintro rfl
    exact .finding hp
  cases hk with
  | start => exact (show t = trip from h) ▸ .same
  | mark => exact h.1 ▸ .same
  | assign => exact hfinding h
  | survey => exact hfinding h
  | route => exact hfinding h
  | save => exact hfinding h
  | giveUp => exact hfinding h
  | refuse => exact hfinding h.1
  | finished =>
    rcases h with h | rfl | h
    · exact hfinding h
    · exact .refused hp
    · exact hbooked h
  | failed =>
    -- a worker may fail before its mark, after it, and after the save
    rcases h with rfl | h | h
    · exact .same
    · exact hfinding h
    · exact hbooked h

end

/-! ## The tick as a whole -/

/-- The state of an undisturbed tick that started on `db₀`. -/
structure Solo (w : World) (nows : Int → Prop) (db₀ : Table Trip) (s : Sys) : Prop where
  wf : Wf w (fun _ => True) (fun _ => True) s
  keys : s.trips.rows.map Trip.id = db₀.rows.map Trip.id
  fates : ∀ t₀ ∈ db₀.rows, ∃ t, s.trips.get t₀.id = some t ∧ Fate w nows t₀ t
  pending : s.phase = .matching → s.workers.map Worker.trip = Trip.getPending db₀
  stored : s.phase = .matching → ∀ wk ∈ s.workers,
    ∃ t, s.trips.get wk.trip.id = some t ∧ StoredAt w wk.trip t wk.task
  swept : s.phase = .sweeping → ∀ wk ∈ s.workers,
    (∃ now, nows now ∧ wk.trip.isOverdue now = true) ∧
    ∃ t, s.trips.get wk.trip.id = some t ∧ SweptAt wk.trip t wk.task

section

variable {w : World} {nows : Int → Prop} {db₀ : Table Trip} {s s' : Sys} {l : Label}

/-- The workers of the first loop handle the pending trips of the start. -/
theorem Solo.mem_pending (h : Solo w nows db₀ s) (hphase : s.phase = .matching) {wk : Worker}
    (hwk : wk ∈ s.workers) : wk.trip ∈ db₀.rows ∧ wk.trip.isPending = true := by
  have hmem : wk.trip ∈ s.workers.map Worker.trip := List.mem_map_of_mem hwk
  rw [h.pending hphase] at hmem
  exact Trip.mem_getPending.mp hmem

/-- The tick begins with the rows as they are, and with one worker for each pending trip. -/
theorem solo_tick (w : World) (nows : Int → Prop) (db : Table Trip) {s : Sys}
    (hs : Sys.Steps w { trips := db } .tick s) : Solo w nows db s := by
  have hwf := (wf_start w db).step hs (Label.within_true _)
  cases hs with
  | tick =>
    refine ⟨hwf, rfl, ?_, ?_, ?_, ?_⟩
    · exact fun t₀ ht₀ => ⟨t₀, Table.get_of_mem ht₀, .same⟩
    · intro _
      show ((Trip.getPending db).map Worker.findVehicle).map Worker.trip = _
      rw [List.map_map]
      exact List.map_id _
    · intro _ wk hwk
      obtain ⟨t, ht, rfl⟩ := List.mem_map.mp hwk
      exact ⟨t, Table.get_of_mem (Trip.mem_getPending.mp ht).1, rfl⟩
    · intro hphase
      cases hphase

/-- A worker moves on to `k'`, having stored `t'` for its trip. -/
theorem Solo.worker (h : Solo w nows db₀ s) {i : Nat} {env : Env} {wk : Worker} {k' : Task}
    {db : Table Trip} (hw : s.workers[i]? = some wk)
    (hm : Task.Moves w env s.trips wk.task db k') :
    Solo w nows db₀ { s with trips := db, workers := s.workers.set i ⟨wk.trip, k'⟩ } := by
  have hmem : wk ∈ s.workers := List.mem_of_getElem? hw
  have hat := h.wf.workers_at wk hmem
  obtain ⟨hkeys, hframe⟩ := h.wf.worker_frame hw hm
  have hother : ∀ x ∈ s.workers.set i ⟨wk.trip, k'⟩, x = ⟨wk.trip, k'⟩ ∨
      (x ∈ s.workers ∧ db.get x.trip.id = s.trips.get x.trip.id) := by
    intro x hx
    rcases mem_set_cases hx with rfl | ⟨j, hij, hj⟩
    · exact Or.inl rfl
    · exact Or.inr ⟨List.mem_of_getElem? hj, hframe _ (h.wf.id_ne hw hj hij)⟩
  have htrips := map_trip_set k' hw
  -- the other rows keep their fates; the worker's own row is looked up by phase
  have hfates : (∀ t₀ ∈ db₀.rows, t₀.id = wk.trip.id →
      ∃ t, db.get t₀.id = some t ∧ Fate w nows t₀ t) →
      ∀ t₀ ∈ db₀.rows, ∃ t, db.get t₀.id = some t ∧ Fate w nows t₀ t := by
    intro hown t₀ ht₀
    by_cases hid : t₀.id = wk.trip.id
    · exact hown t₀ ht₀ hid
    · rw [hframe _ hid]
      exact h.fates t₀ ht₀
  have hwf := h.wf.worker hw hm
  cases hphase : s.phase with
  | idle =>
    rw [hphase] at hat
    exact hat.elim
  | matching =>
    rw [hphase] at hat hwf
    obtain ⟨t, hget, hstored⟩ := h.stored hphase wk hmem
    obtain ⟨t', hget', hstored'⟩ := hstored.step hat.2 hget hm
    refine ⟨hwf, hkeys.trans h.keys, hfates fun t₀ ht₀ hid => ?_,
      fun _ => htrips.trans (h.pending hphase), fun _ x hx => ?_, fun hsweep => ?_⟩
    · have heq : t₀ = wk.trip := Table.eq_of_key_eq ht₀ (h.mem_pending hphase hmem).1 hid
      subst heq
      exact ⟨t', hget', hstored'.fate (hat.2.step (Trip.ne_accepted_of_isPending hat.1) hm)
        hat.1 nows⟩
    · rcases hother x hx with rfl | ⟨hold, hsame⟩
      · exact ⟨t', hget', hstored'⟩
      · rw [show (db.get x.trip.id) = _ from hsame]
        exact h.stored hphase x hold
    · cases hsweep
  | sweeping =>
    rw [hphase] at hat hwf
    obtain ⟨hover, t, hget, hswept⟩ := h.swept hphase wk hmem
    obtain ⟨t', hget', hswept', hmoved⟩ := hswept.step hat hget hm
    refine ⟨hwf, hkeys.trans h.keys, hfates fun t₀ ht₀ hid => ?_,
      fun hmatch => ?_, fun hmatch => ?_, fun _ x hx => ?_⟩
    · obtain ⟨u, hu, hfate⟩ := h.fates t₀ ht₀
      rw [hid, hget] at hu
      cases hu
      rw [hid]
      rcases hmoved with rfl | ⟨rfl, rfl⟩
      · exact ⟨t', hget', hfate⟩
      · obtain ⟨now, hnow, hlate⟩ := hover
        exact ⟨_, hget', .noShow hnow hlate hfate⟩
    · cases hmatch
    · cases hmatch
    · rcases hother x hx with rfl | ⟨hold, hsame⟩
      · exact ⟨hover, t', hget', hswept'⟩
      · rw [show (db.get x.trip.id) = _ from hsame]
        exact h.swept hphase x hold

/-- A worker that was not started is dropped. It has written nothing, so its trip still has the row
with which the loop began. -/
theorem Solo.skip (h : Solo w nows db₀ s) {i : Nat} {wk : Worker}
    (hw : s.workers[i]? = some wk) (hun : wk.unstarted s.phase = true)
    (hwf : Wf w (fun _ => True) (fun _ => True)
      { s with workers := s.workers.set i ⟨wk.trip, .failed .aborted⟩ }) :
    Solo w nows db₀ { s with workers := s.workers.set i ⟨wk.trip, .failed .aborted⟩ } := by
  have hmem : wk ∈ s.workers := List.mem_of_getElem? hw
  refine ⟨hwf, h.keys, h.fates, fun hphase => ?_, fun hphase x hx => ?_, fun hphase x hx => ?_⟩
  · rw [← h.pending hphase]
    exact map_trip_set _ hw
  · rcases List.mem_or_eq_of_mem_set hx with hold | rfl
    · exact h.stored hphase x hold
    · obtain ⟨t, hget, hstored⟩ := h.stored hphase wk hmem
      rw [show s.phase = .matching from hphase] at hun
      obtain ⟨tripId, state, trip, hk⟩ := Worker.unstarted_matching hun
      rw [hk] at hstored
      exact ⟨t, hget, Or.inl hstored⟩
  · rcases List.mem_or_eq_of_mem_set hx with hold | rfl
    · exact h.swept hphase x hold
    · obtain ⟨hover, t, hget, hswept⟩ := h.swept hphase wk hmem
      rw [show s.phase = .sweeping from hphase] at hun
      obtain ⟨tripId, state, after, hk⟩ := Worker.unstarted_sweeping hun
      rw [hk] at hswept
      exact ⟨hover, t, hget, hswept⟩

/-- **Every transition of an undisturbed tick.** Requests are excluded, and so is another tick, so
that only the workers write. -/
theorem Solo.step (h : Solo w nows db₀ s) (hs : s.Steps w l s') (hl : l.ofTick = true)
    (hnows : ∀ now, l = .sweep now → nows now) : Solo w nows db₀ s' := by
  have hwf := h.wf.step hs (Label.within_true l)
  cases hs with
  | request => cases hl
  | client => cases hl
  | tick => cases hl
  | worker hw hm => exact h.worker hw hm
  | skip hw hun hthrew => exact h.skip hw hun hwf
  | @sweep now =>
    refine ⟨hwf, h.keys, h.fates, fun hp => (nomatch hp), fun hp => (nomatch hp),
      fun _ wk hwk => ?_⟩
    obtain ⟨t, ht, rfl⟩ := List.mem_map.mp hwk
    obtain ⟨hmem, hlate⟩ := Table.mem_fetch.mp ht
    exact ⟨⟨now, hnows now rfl, hlate⟩, t, Table.get_of_mem hmem, rfl⟩
  | rest =>
    exact ⟨hwf, h.keys, h.fates, fun hp => (nomatch hp), fun hp => (nomatch hp),
      fun hp => nomatch hp⟩

end

/-- `ls` are the transitions of one whole tick, from its start on `db` to its end in
`s`, with no request beside it. -/
structure TickRun (w : World) (db : Table Trip) (ls : List Label) (s : Sys) : Prop where
  runs : Run.exec (Sys.step w) { trips := db } (.tick :: ls) = some s
  alone : ∀ l ∈ ls, l.ofTick = true
  idle : s.phase = .idle

/-- The times at which a tick looked for overdue trips. -/
def sweptAtTime (ls : List Label) (now : Int) : Prop := Label.sweep now ∈ ls

/-- A run of the tick keeps what its transitions keep. -/
theorem TickRun.solo {w : World} {db : Table Trip} {ls : List Label} {s : Sys}
    (h : TickRun w db ls s) : Solo w (sweptAtTime ls) db s := by
  obtain ⟨m, hfirst, hrest⟩ := Run.exec_cons.mp h.runs
  have hstart : Solo w (sweptAtTime ls) db m :=
    solo_tick w (sweptAtTime ls) db (Sys.step_steps hfirst)
  have hmeets : Run.Meets (Sys.step w) (fun _ l => l ∈ ls) m ls :=
    Run.meets_of_forall (fun l hl _ => hl) m
  refine Run.invariant_of_meets (I := Solo w (sweptAtTime ls) db) ?_ hstart hmeets hrest
  intro s l s' hs hl hsolo
  exact hsolo.step (Sys.step_steps hs) (h.alone l hl) fun now heq =>
    show Label.sweep now ∈ ls from heq ▸ hl

/-! ## Frame and soundness -/

/-- The row `t` is `t₀` booked by the tick: on one active vehicle of its route, with
that vehicle's driver, an eta and a geometry, not processing, its booking unchanged. -/
def BookedOn (w : World) (t₀ t : Trip) : Prop :=
  (∃ v ∈ w.vehicles.rows, v.active = true ∧ v.routeId = t.routeId ∧ t.vehicleId = v.id ∧
    t.driverId = v.driverId) ∧
  t.eta.isSome = true ∧ t.geom.isSome = true ∧ t.isProcessing = false ∧ t.booking = t₀.booking

/-- A row that was not pending is left alone or was overdue when the tick looked. -/
theorem Fate.of_not_pending {w : World} {nows : Int → Prop} {t₀ t : Trip}
    (h : Fate w nows t₀ t) (hp : t₀.isPending = false) :
    t = t₀ ∨ ∃ now, nows now ∧ t₀.isOverdue now = true := by
  have hno : t₀.isPending ≠ true := by rw [hp]; exact Bool.false_ne_true
  -- the induction is on the no-shows, each of which follows another fate
  induction h with
  | same => exact Or.inl rfl
  | finding hpend => exact absurd hpend hno
  | refused hpend => exact absurd hpend hno
  | booked hpend => exact absurd hpend hno
  | noShow hnow hover _ ih =>
    rcases ih with rfl | hlate
    · exact Or.inr ⟨_, hnow, hover⟩
    · exact Or.inr hlate

/-- An accepted row was accepted before or has been booked. -/
theorem Fate.of_accepted {w : World} {nows : Int → Prop} {t₀ t : Trip}
    (h : Fate w nows t₀ t) (hacc : t.rideState = RideStateType.vehicleAccepted.id) :
    t = t₀ ∨ BookedOn w t₀ t := by
  cases h with
  | same => exact Or.inl rfl
  | finding => exact absurd hacc (show RideStateType.findingVehicle.id ≠ _ by decide)
  | refused => exact absurd hacc (show RideStateType.noAvailableVehicles.id ≠ _ by decide)
  | @booked hp v eta geom now hv =>
    obtain ⟨hrow, hroute, hactive⟩ := Vehicle.mem_getForRouteRaw.mp hv
    exact Or.inr ⟨⟨v, hrow, hactive, hroute, rfl, rfl⟩, rfl, rfl, rfl, rfl⟩
  | noShow => exact absurd hacc (show RideStateType.driverNoShow.id ≠ _ by decide)

/-- A trip that was pending and is accepted, or accepted and then declared a no-show, has been
booked: only an accepted trip is overdue. A pending one becomes accepted in no other way. -/
theorem Fate.of_pending {w : World} {nows : Int → Prop} {t₀ t : Trip} (h : Fate w nows t₀ t)
    (hp : t₀.isPending = true)
    (hstate : t.rideState ∈ [RideStateType.vehicleAccepted.id, RideStateType.driverNoShow.id]) :
    BookedOn w t₀ t := by
  have hne := Trip.ne_accepted_of_isPending hp
  have haccepted : ∀ {t}, Fate w nows t₀ t → t.rideState = RideStateType.vehicleAccepted.id →
      BookedOn w t₀ t := by
    intro t ht hacc
    rcases ht.of_accepted hacc with rfl | hbooked
    · exact absurd hacc hne
    · exact hbooked
  rcases List.mem_cons.mp hstate with hacc | hshow
  · exact haccepted h hacc
  · have hshow := List.mem_singleton.mp hshow
    cases h with
    | same =>
      rw [(Trip.isPending_iff.mp hp).1] at hshow
      exact absurd hshow (by decide)
    | finding => exact absurd hshow (show RideStateType.findingVehicle.id ≠ _ by decide)
    | refused => exact absurd hshow (show RideStateType.noAvailableVehicles.id ≠ _ by decide)
    | booked => exact absurd hshow (show RideStateType.vehicleAccepted.id ≠ _ by decide)
    | noShow hnow hover h =>
      -- `BookedOn` does not look at the state, which is all that the sweep has changed
      have hbooked := haccepted h (beq_iff_eq.mp (Bool.and_eq_true_iff.mp hover).1)
      exact hbooked

/-- At any point of an undisturbed tick, an accepted row is one of the start or has been booked. -/
theorem Solo.accepted {w : World} {nows : Int → Prop} {db₀ : Table Trip} {s : Sys}
    (h : Solo w nows db₀ s) {t : Trip} (ht : t ∈ s.trips.rows)
    (hacc : t.rideState = RideStateType.vehicleAccepted.id) :
    ∃ t₀ ∈ db₀.rows, t₀.id = t.id ∧ (t = t₀ ∨ BookedOn w t₀ t) := by
  have hid : t.id ∈ db₀.rows.map Trip.id := by
    rw [← h.keys]
    exact List.mem_map_of_mem ht
  obtain ⟨t₀, ht₀, hid₀⟩ := List.mem_map.mp hid
  obtain ⟨t', hget, hfate⟩ := h.fates t₀ ht₀
  have hsame : s.trips.get t.id = some t := Table.get_of_mem ht
  rw [hid₀, hsame] at hget
  cases hget
  exact ⟨t₀, ht₀, hid₀, hfate.of_accepted hacc⟩

/-- **Frame and soundness of a tick.** A trip that was neither pending at the start nor
overdue at the moment the tick read the overdue trips keeps its row. In every state of the tick,
so also right after each save, an accepted row is the one of the start or has been booked on an
active vehicle of its route. And a pending trip that ends up accepted or as a no-show has been
booked so: the second loop has changed nothing but the state. -/
theorem tick_frame_sound {w : World} {db : Table Trip} {ls : List Label} {s : Sys}
    (h : TickRun w db ls s) :
    (∀ t₀ ∈ db.rows, t₀.isPending = false →
      (∀ now, sweptAtTime ls now → t₀.isOverdue now = false) →
      s.trips.get t₀.id = some t₀) ∧
    Run.Throughout (Sys.step w)
      (fun m => ∀ t ∈ m.trips.rows, t.rideState = RideStateType.vehicleAccepted.id →
        ∃ t₀ ∈ db.rows, t₀.id = t.id ∧ (t = t₀ ∨ BookedOn w t₀ t))
      { trips := db } (.tick :: ls) ∧
    ∀ t₀ ∈ db.rows, t₀.isPending = true → ∀ t, s.trips.get t₀.id = some t →
      t.rideState ∈ [RideStateType.vehicleAccepted.id, RideStateType.driverNoShow.id] →
      BookedOn w t₀ t := by
  have hsolo := h.solo
  refine ⟨?_, ⟨fun t ht _ => ⟨t, ht, rfl, Or.inl rfl⟩, fun m hfirst => ?_⟩, ?_⟩
  · intro t₀ ht₀ hp hlate
    obtain ⟨t, hget, hfate⟩ := hsolo.fates t₀ ht₀
    -- a trip that was not pending can only have been swept
    rcases hfate.of_not_pending hp with rfl | ⟨now, hnow, hover⟩
    · exact hget
    · rw [hlate now hnow] at hover
      cases hover
  · -- the states before the end: `Solo` is an invariant, and what is accepted can be read off it
    refine Run.throughout_of_meets (C := fun _ l => l ∈ ls) (I := Solo w (sweptAtTime ls) db)
      (fun m l m' hstep hl hm => ?_) (fun m hm t ht hacc => hm.accepted ht hacc)
      (solo_tick w (sweptAtTime ls) db (Sys.step_steps hfirst))
      (Run.meets_of_forall (fun l hl _ => hl) m)
    exact hm.step (Sys.step_steps hstep) (h.alone l hl) fun now heq =>
      show Label.sweep now ∈ ls from heq ▸ hl
  · intro t₀ ht₀ hp t hget hstate
    obtain ⟨t', hget', hfate⟩ := hsolo.fates t₀ ht₀
    rw [hget] at hget'
    cases hget'
    exact hfate.of_pending hp hstate

/-- A tick that books the one pending trip. -/
def bookingTick : List Label := Town.worked 0 7 ++ [.sweep 0, .rest]

theorem tickRun_bookingTick : ∃ s, TickRun (Town.world [Town.van 9 4])
    (Town.trips [(Town.ride 5 1).trip 0]) bookingTick s := by
  have hrun : (Run.exec (Sys.step (Town.world [Town.van 9 4]))
      { trips := Town.trips [(Town.ride 5 1).trip 0] } (.tick :: bookingTick)).any
      (fun s => s.phase == .idle) = true := by decide
  obtain ⟨s, hs, hidle⟩ := (Option.any_eq_true _ _).mp hrun
  exact ⟨s, hs, by decide, beq_iff_eq.mp hidle⟩

/-- A tick that books the pending trip, whose eta is a minute away, and looks for overdue trips
more than ten minutes after that. -/
def lateSweep : List Label :=
  Town.worked 0 7 ++ [.sweep (60000 + Trip.tenMinutes + 1), .worker 0 (Town.env 0),
    .worker 0 (Town.env 0), .rest]

theorem tick_frame_sound_lateSweep :
    ∃ s t₀ t, TickRun (Town.world [Town.van 9 4]) (Town.trips [(Town.ride 5 1).trip 0]) lateSweep
        s ∧
      s.trips.get 1 = some t ∧ t.rideState = RideStateType.driverNoShow.id ∧
      BookedOn (Town.world [Town.van 9 4]) t₀ t := by
  have hrun : (Run.exec (Sys.step (Town.world [Town.van 9 4]))
      { trips := Town.trips [(Town.ride 5 1).trip 0] } (.tick :: lateSweep)).any
      (fun s => s.phase == .idle && (s.trips.get 1).any fun t =>
        t.rideState == RideStateType.driverNoShow.id) = true := by decide
  obtain ⟨s, hs, hend⟩ := (Option.any_eq_true _ _).mp hrun
  rw [Bool.and_eq_true, beq_iff_eq, Option.any_eq_true] at hend
  obtain ⟨hidle, t, hget, hstate⟩ := hend
  have htick : TickRun (Town.world [Town.van 9 4]) (Town.trips [(Town.ride 5 1).trip 0])
      lateSweep s :=
    ⟨hs, by decide, hidle⟩
  refine ⟨s, { (Town.ride 5 1).trip 0 with id := 1 }, t, htick, hget, beq_iff_eq.mp hstate, ?_⟩
  exact (tick_frame_sound htick).2.2 _ (by decide) (by decide) t hget
    (by rw [beq_iff_eq.mp hstate]; decide)

/-- The clock a transition of the tick sees. -/
def Label.clock : Label → Option Int
  | .worker _ env => some env.now
  | .sweep now => some now
  | _ => none

/-- An accepted trip whose eta lies exactly ten minutes back when the tick starts, and
a millisecond more when the overdue trips are read. -/
def lateTrip : Trip :=
  { (Town.ride 5 1).trip 0 with rideState := RideStateType.vehicleAccepted.id, eta := some 0 }

/-- The tick looks for overdue trips a millisecond after it started. -/
def lateTick : List Label :=
  [.sweep (Trip.tenMinutes + 1), .worker 0 (Town.env (Trip.tenMinutes + 1)),
   .worker 0 (Town.env (Trip.tenMinutes + 1)), .rest]

theorem overdue_after_start :
    ∃ (w : World) (db : Table Trip) (ls : List Label) (s : Sys) (start : Int) (t₀ : Trip),
      TickRun w db ls s ∧ (∀ l ∈ ls, ∀ now ∈ l.clock, start ≤ now) ∧ t₀ ∈ db.rows ∧
      t₀.isPending = false ∧ t₀.isOverdue start = false ∧ s.trips.get t₀.id ≠ some t₀ := by
  have hrun : (Run.exec (Sys.step (Town.world [])) { trips := Town.trips [lateTrip] }
      (.tick :: lateTick)).any (fun s => s.phase == .idle &&
        !decide (s.trips.get 1 = some { lateTrip with id := 1 })) = true := by decide
  obtain ⟨s, hs, hend⟩ := (Option.any_eq_true _ _).mp hrun
  rw [Bool.and_eq_true, beq_iff_eq] at hend
  refine ⟨Town.world [], Town.trips [lateTrip], lateTick, s, Trip.tenMinutes,
    { lateTrip with id := 1 }, ⟨hs, by decide, hend.1⟩, by decide, by decide, by decide,
    by decide, by simpa using hend.2⟩

end Maiden
