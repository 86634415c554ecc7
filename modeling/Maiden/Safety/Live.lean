import Maiden.Actors.Invariant

/-!
# Runs whose clients book and end trips

Bookings, ticks, and updates that cancel or complete a trip, in any order. In such a
run a trip becomes live in one way only: a worker saves a match. `live_writes` says
what each transition does to the table under that restriction, and `Quiet` is the
invariant behind it: while a worker is still matching a trip, the trip is not live.
-/

namespace Maiden

/-- The states of a trip that is still open. -/
def openStates : List Int :=
  [RideStateType.initial.id, RideStateType.findingVehicle.id, RideStateType.vehicleAccepted.id,
   RideStateType.vehicleOnWay.id, RideStateType.rideUnderway.id]

/-- A state that cancels or completes a trip. -/
def Ending (state : Int) : Prop :=
  validState state = true ∧ state ∉ openStates

instance (state : Int) : Decidable (Ending state) := inferInstanceAs (Decidable (_ ∧ _))

/-- The trip waits for no tick and occupies no vehicle. -/
def Trip.isIdle (t : Trip) : Prop := t.isLive = false ∧ t.isPending = false

theorem Trip.isIdle_of_state {t : Trip} (hlive : t.rideState ∉ Trip.haveRideStates)
    (hpend : t.rideState ≠ RideStateType.initial.id) : t.isIdle := by
  constructor
  · rw [Bool.eq_false_iff]
    exact fun h => hlive (Trip.isLive_iff.mp h)
  · rw [Bool.eq_false_iff]
    exact fun h => hpend (Trip.isPending_iff.mp h).1

theorem Ending.isIdle {t : Trip} (h : Ending t.rideState) : t.isIdle := by
  have hsub : Trip.haveRideStates ⊆ openStates := by decide
  refine Trip.isIdle_of_state (fun hlive => h.2 (hsub hlive)) fun heq => h.2 ?_
  rw [heq]
  decide

theorem Trip.isIdle_of_passive {t : Trip} (h : t.rideState ∈ passiveStates) : t.isIdle := by
  have hall : ∀ st ∈ passiveStates, st ∉ Trip.haveRideStates ∧ st ≠ RideStateType.initial.id := by
    decide
  exact Trip.isIdle_of_state (hall _ h).1 (hall _ h).2

theorem Trip.not_live_of_isPending {t : Trip} (h : t.isPending = true) : t.isLive = false := by
  rw [Trip.isLive, (Trip.isPending_iff.mp h).1]
  decide

/-- Trips being matched are not live. -/
def Quiet (s : Sys) : Prop :=
  ∀ t ∈ s.trips.rows, s.handling t.id = true → t.isLive = false

section

variable {w : World} {okB : Booking → Prop} {s s' : Sys} {l : Label}

/-- A trip comes into a worker's hands at a tick, and only if it is pending. After that it can only
be let go. -/
theorem handling_of_step (hs : s.Steps w l s') {tripId : Int}
    (h : s'.handling tripId = true) :
    s.handling tripId = true ∨
      (s'.trips = s.trips ∧ ∃ t ∈ s.trips.rows, t.id = tripId ∧ t.isPending = true) := by
  obtain ⟨hphase, wk, hwk, hid, hended⟩ := Sys.handling_iff.mp h
  have hsame : ∀ {wk₀ : Worker}, s.phase = .matching → wk₀ ∈ s.workers →
      wk₀.trip.id = tripId → wk₀.task.ended = false → s.handling tripId = true :=
    fun hp hmem hid hended => Sys.handling_iff.mpr ⟨hp, _, hmem, hid, hended⟩
  cases hs with
  | request => exact Or.inl (hsame hphase hwk hid hended)
  | client => exact Or.inl (hsame hphase hwk hid hended)
  | tick =>
    obtain ⟨t, ht, rfl⟩ := List.mem_map.mp hwk
    obtain ⟨hmem, hpend⟩ := Trip.mem_getPending.mp ht
    exact Or.inr ⟨rfl, t, hmem, hid, hpend⟩
  | @worker i env wk₀ k' db hw hm =>
    rcases List.mem_or_eq_of_mem_set hwk with hold | rfl
    · exact Or.inl (hsame hphase hold hid hended)
    · exact Or.inl (hsame hphase (List.mem_of_getElem? hw) hid hm.busy)
  | skip =>
    rcases List.mem_or_eq_of_mem_set hwk with hold | rfl
    · exact Or.inl (hsame hphase hold hid hended)
    · -- a body that is skipped has ended
      cases hended
  | sweep => cases hphase
  | rest => cases hphase

/-- **What a transition does to the table**, when clients only book and end trips: nothing, it
ends a trip, it inserts a booking, or a worker saves the match of the trip it has in hand. -/
theorem live_writes (h : Wf w okB Ending s) (hs : s.Steps w l s') :
    s'.trips = s.trips ∨
    (∃ row, row.isIdle ∧ Agrees s.trips [row] ∧ s'.trips = s.trips.update row) ∨
    (∃ env b created, s.running l = some (env, .insert b created) ∧
      s'.trips = s.trips.insert (stamped (b.trip created) env.now)) ∨
    ∃ i env wk trip readings, l = .worker i env ∧ s.workers[i]? = some wk ∧
      wk.task = .save trip readings ∧ s'.handling trip.id = false ∧
      s'.trips = s.trips.update (stamped trip.unprocessed env.now) := by
  cases hs with
  | @client i env k k' db hk hm =>
    rcases h.client_table hk hm with ⟨rfl, -⟩ | ⟨row, after, rfl, hs, hag, -, rfl⟩ |
      ⟨b, created, rfl, -, rfl⟩
    · exact Or.inl rfl
    · exact Or.inr (Or.inl ⟨row, hs.isIdle, hag, rfl⟩)
    · exact Or.inr (Or.inr (Or.inl ⟨env, b, created, Sys.running_client env hk, rfl⟩))
  | @worker i env wk k' db hw hm =>
    have hag := (h.workers_agree wk (List.mem_of_getElem? hw)).tail
    rcases h.worker_table hw hm with ⟨rfl, -⟩ | ⟨row, after, hk, -, hpassive, -, rfl⟩ |
      ⟨trip, readings, hk, hid, hended, rfl⟩
    · exact Or.inl rfl
    · rw [hk] at hag
      exact Or.inr (Or.inl ⟨row, Trip.isIdle_of_passive hpassive, hag.head, rfl⟩)
    · refine Or.inr (Or.inr (Or.inr ⟨i, env, wk, trip, readings, rfl, hw, hk, ?_, rfl⟩))
      rw [hid]
      exact h.handling_set hw hended
  -- the other transitions run no thread
  | _ => exact Or.inl rfl

theorem quiet_init : Quiet Sys.init := fun _ ht => nomatch ht

/-- Matching a trip never meets a live row of that trip: to become live it must be matched, and
that ends the one worker that has it. -/
theorem Quiet.step (hq : Quiet s) (h : Wf w okB Ending s) (hs : s.Steps w l s') : Quiet s' := by
  intro t ht hhand
  rcases handling_of_step hs hhand with hold | ⟨htrips, t₀, ht₀, hid, hpend⟩
  swap
  · -- a trip that was just taken on is pending
    rw [htrips] at ht
    have heq : t₀ = t := Table.eq_of_key_eq ht₀ ht hid
    exact Trip.not_live_of_isPending (heq ▸ hpend)
  rcases live_writes h hs with htrips | ⟨row, hdead, -, htrips⟩ |
    ⟨env, b, created, -, htrips⟩ | ⟨i, env, wk, trip, readings, -, -, -, hfree, htrips⟩
  · exact hq t (htrips ▸ ht) hold
  · rw [htrips] at ht
    rcases Table.mem_update.mp ht with ⟨rfl, -⟩ | ⟨hmem, -⟩
    · exact hdead.1
    · exact hq t hmem hold
  · rw [htrips] at ht
    rcases Table.mem_insert.mp ht with hmem | rfl
    · exact hq t hmem hold
    · rfl
  · rw [htrips] at ht
    rcases Table.mem_update.mp ht with ⟨rfl, -⟩ | ⟨hmem, -⟩
    · -- the match makes the trip live and ends its worker at once
      rw [show (stamped trip.unprocessed env.now).id = trip.id from rfl, hfree] at hhand
      cases hhand
    · exact hq t hmem hold

end

end Maiden
