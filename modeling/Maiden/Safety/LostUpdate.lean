import Maiden.Actors.Invariant
import Maiden.Base.Run

/-!
# Client updates that a tick overwrites

A tick reads the trips it will handle and writes them back several transactions
later: `updateState` writes the row it has just read but a ride state decided
before, and `saveTrip` writes the whole object read at the start of the tick. A
client update committed in between is overwritten, since neither the row nor
`isProcessing` is tested at the write.

`unseen` follows, per trip, the ride state that a client has committed since the
tick last read the trip; `NoLostUpdate` says that the tick never writes another
state over it. `noLostUpdate_of_meets`: that is so when no client update is
committed while a worker of the tick still holds the trip.
-/

namespace Maiden

/-- How one event changes what the tick has not seen of a trip. -/
def Event.track (tripId : Int) (unseen : Option Int) : Event → Option Int
  | .tickRead tripIds => if tripId ∈ tripIds then none else unseen
  | .client tripId' state => if tripId' = tripId then some state else unseen
  | .mark _ => unseen
  | .save _ => unseen

/-- The ride state a client has committed for the trip since the tick last read it. -/
def unseen (tripId : Int) (es : List Event) : Option Int :=
  es.foldl (Event.track tripId) none

/-- Whenever the tick writes a row, it writes no other ride state over one that it has
not seen. -/
def NoLostUpdate (es : List Event) : Prop :=
  ∀ n e row state, es[n]? = some e → e.written = some row →
    unseen row.id (es.take n) = some state → row.rideState = state

theorem unseen_append (tripId : Int) (es : List Event) (e : Event) :
    unseen tripId (es ++ [e]) = e.track tripId (unseen tripId es) := by
  unfold unseen
  rw [List.foldl_append]
  rfl

/-- One more event loses nothing if its own write overwrites nothing unseen. -/
theorem NoLostUpdate.append {es : List Event} {e : Event} (h : NoLostUpdate es)
    (he : ∀ row, e.written = some row → unseen row.id es = none) : NoLostUpdate (es ++ [e]) := by
  intro n e' row state hn hrow hunseen
  rcases Nat.lt_trichotomy n es.length with hlt | rfl | hgt
  · rw [List.getElem?_append_left hlt] at hn
    rw [List.take_append_of_le_length (Nat.le_of_lt hlt)] at hunseen
    exact h n e' row state hn hrow hunseen
  · rw [List.getElem?_concat_length] at hn
    cases hn
    rw [List.take_left, he row hrow] at hunseen
    cases hunseen
  · rw [List.getElem?_eq_none (by simp; omega)] at hn
    cases hn

/-- A client update is committed only when no worker still holds the trip. -/
def HandsOff (s : Sys) (l : Label) : Prop :=
  ∀ tripId ∈ (s.event l).bind Event.updated,
    ∀ wk ∈ s.workers, wk.trip.id = tripId → wk.task.ended = true

instance (s : Sys) (l : Label) : Decidable (HandsOff s l) :=
  inferInstanceAs (Decidable (∀ tripId ∈ (s.event l).bind Event.updated, _))

/-- The tick has seen everything clients did to the trips its workers hold. -/
def Seen (es : List Event) (s : Sys) : Prop :=
  NoLostUpdate es ∧ ∀ wk ∈ s.workers, wk.task.ended = false → unseen wk.trip.id es = none

section

variable {w : World} {okB : Booking → Prop} {okS : Int → Prop} {s s' : Sys} {l : Label}
  {es : List Event}

/-- A read of the tick makes it see the trips it reads. -/
theorem Seen.spawn (h : Seen es s) {trips : List Trip} {body : Trip → Worker} {phase : Phase}
    (hbody : ∀ t, (body t).trip = t) :
    Seen (es ++ [.tickRead (trips.map Trip.id)])
      { s with phase := phase, workers := trips.map body } := by
  refine ⟨h.1.append (fun row hrow => nomatch hrow), fun wk hwk _ => ?_⟩
  obtain ⟨t, ht, rfl⟩ := List.mem_map.mp hwk
  rw [unseen_append, hbody]
  exact if_pos (List.mem_map_of_mem ht)

/-- A write of the tick leaves what it has seen of each trip. -/
theorem Seen.write (h : Seen es s) {i : Nat} {wk : Worker} {k' : Task} {db : Table Trip}
    {e : Event} {row : Trip} (hw : s.workers[i]? = some wk) (hbusy : wk.task.ended = false)
    (hrow : e.written = some row) (hid : row.id = wk.trip.id) :
    Seen (es ++ [e]) { s with trips := db, workers := s.workers.set i ⟨wk.trip, k'⟩ } := by
  -- the tick's own writes are no client updates
  have htrack : ∀ tripId, unseen tripId (es ++ [e]) = unseen tripId es := by
    intro tripId
    rw [unseen_append]
    cases e with
    | tickRead tripIds => cases hrow
    | client tripId' state => cases hrow
    | mark r => rfl
    | save r => rfl
  have hseen := h.2 wk (List.mem_of_getElem? hw) hbusy
  refine ⟨h.1.append fun row' hrow' => ?_, fun x hx hxbusy => ?_⟩
  · rw [hrow] at hrow'
    cases hrow'
    rw [hid]
    exact hseen
  · rw [htrack]
    rcases List.mem_or_eq_of_mem_set hx with hold | rfl
    · exact h.2 x hold hxbusy
    · exact hseen

/-- A transition without an event and with no new busy worker changes nothing. -/
theorem Seen.quiet (h : Seen es s)
    (hworkers : ∀ x ∈ s'.workers, x.task.ended = false →
      ∃ wk ∈ s.workers, wk.task.ended = false ∧ wk.trip = x.trip) : Seen es s' := by
  refine ⟨h.1, fun x hx hbusy => ?_⟩
  obtain ⟨wk, hwk, hwkbusy, htrip⟩ := hworkers x hx hbusy
  rw [← htrip]
  exact h.2 wk hwk hwkbusy

theorem Seen.step (h : Seen es s) (hwf : Wf w okB okS s) (hs : s.Steps w l s')
    (hoff : HandsOff s l) : Seen (es ++ (s.event l).toList) s' := by
  have hnone : Seen es s' → s.event l = none → Seen (es ++ (s.event l).toList) s' := by
    intro hseen hev
    rw [hev, Option.toList_none, List.append_nil]
    exact hseen
  cases hs with
  | request => exact hnone (h.quiet fun x hx hbusy => ⟨x, hx, hbusy, rfl⟩) rfl
  | @client i env k k' db hk hm =>
    cases hev : k.clientEvent env with
    | none =>
      exact hnone (h.quiet fun x hx hbusy => ⟨x, hx, hbusy, rfl⟩)
        ((Sys.event_client env hk).trans hev)
    | some e =>
      have hevent := (Sys.event_client env hk).trans hev
      obtain ⟨row, after, rfl, -, rfl⟩ := Task.clientEvent_eq_some hev
      have hheld := hoff row.id (by rw [hevent]; rfl)
      rw [hevent, Option.toList_some]
      refine ⟨h.1.append (fun row hrow => nomatch hrow), fun wk hwk hbusy => ?_⟩
      -- the trip updated is in nobody's hands, so what the workers have seen stands
      have hne : row.id ≠ wk.trip.id := by
        intro heq
        rw [hheld wk hwk heq.symm] at hbusy
        cases hbusy
      rw [unseen_append]
      exact (if_neg hne).trans (h.2 wk hwk hbusy)
  | tick => exact h.spawn fun _ => rfl
  | @worker i env wk k' db hw hm =>
    have hbusy := hm.busy
    have hat := hwf.workers_at wk (List.mem_of_getElem? hw)
    cases hev : wk.task.workerEvent env with
    | none =>
      refine hnone (h.quiet fun x hx hxbusy => ?_) ((Sys.event_worker env hw).trans hev)
      rcases List.mem_or_eq_of_mem_set hx with hold | rfl
      · exact ⟨x, hold, hxbusy, rfl⟩
      · exact ⟨wk, List.mem_of_getElem? hw, hbusy, rfl⟩
    | some e =>
      rw [(Sys.event_worker env hw).trans hev]
      rcases Task.workerEvent_eq_some hev with ⟨row, after, hk, -, rfl⟩ |
        ⟨trip, readings, hk, rfl⟩
      · exact h.write hw hbusy rfl (hat.write hk).1
      · obtain ⟨-, tm, v, eta, geom, rfl, -⟩ := hat.save hk
        exact h.write hw hbusy rfl rfl
  | @skip i wk hw =>
    refine hnone (h.quiet fun x hx hbusy => ?_) rfl
    rcases List.mem_or_eq_of_mem_set hx with hold | rfl
    · exact ⟨x, hold, hbusy, rfl⟩
    · cases hbusy
  | sweep => exact h.spawn fun _ => rfl
  | rest => exact hnone (h.quiet fun x hx => nomatch hx) rfl

end

/-- **No client update is lost**: from any table, in any interleaving of requests and
ticks in which no client update is committed while a worker of the tick still holds
the trip, the tick never overwrites a ride state that it has not seen. -/
theorem noLostUpdate_of_meets (w : World) (db : Table Trip) {run : List Label} {s : Sys}
    (hrun : Run.exec (Sys.step w) { trips := db } run = some s)
    (hoff : Run.Meets (Sys.step w) HandsOff { trips := db } run) :
    NoLostUpdate (Run.trace (Sys.step w) Sys.event { trips := db } run) := by
  have hinit : Wf w (fun _ => True) (fun _ => True) { trips := db } ∧ Seen [] { trips := db } :=
    ⟨wf_start w db, fun n e _ _ hn => by simp at hn, fun _ h => nomatch h⟩
  have hend := Run.trace_invariant
    (K := fun es s => Wf w (fun _ => True) (fun _ => True) s ∧ Seen es s)
    (fun es s l s' hs hl hK =>
      ⟨hK.1.step (Sys.step_steps hs) (Label.within_true l),
        hK.2.step hK.1 (Sys.step_steps hs) hl⟩) hinit hoff hrun
  exact hend.2.1

/-- A passenger cancels after the tick that took the trip on has handled it. -/
def cancelAfterTick : List Label :=
  Town.served 0 2 (.bookTrip (Town.ride 5 1)) ++ [.tick] ++ Town.worked 0 7 ++
    Town.served 1 3 (.updateTripState 5 1 RideStateType.passengerCancelled.id)

theorem noLostUpdate_cancelAfterTick :
    NoLostUpdate (Run.trace (Sys.step (Town.world [Town.van 9 4])) Sys.event
      { trips := Table.empty } cancelAfterTick) := by
  have hrun : (Run.exec (Sys.step (Town.world [Town.van 9 4])) { trips := Table.empty }
      cancelAfterTick).isSome = true := by decide
  obtain ⟨s, hs⟩ := Option.isSome_iff_exists.mp hrun
  exact noLostUpdate_of_meets _ _ hs (by decide)

/-- A passenger cancels after the tick has read the trip and before its worker writes:
the trip goes on to FindingVehicle. -/
def cancelDuringTick : List Label :=
  Town.served 0 2 (.bookTrip (Town.ride 5 1)) ++ [.tick] ++
    Town.served 1 3 (.updateTripState 5 1 RideStateType.passengerCancelled.id) ++ Town.worked 0 2

theorem cancellation_overwritten :
    ∃ (w : World) (db : Table Trip) (run : List Label),
      (Run.exec (Sys.step w) { trips := db } run).isSome = true ∧
      ¬ NoLostUpdate (Run.trace (Sys.step w) Sys.event { trips := db } run) := by
  refine ⟨Town.world [Town.van 9 4], Table.empty, cancelDuringTick, by decide, fun h => ?_⟩
  -- the third event is the FindingVehicle update, over the cancellation
  have hthird : ((Run.trace (Sys.step (Town.world [Town.van 9 4])) Sys.event
      { trips := Table.empty } cancelDuringTick)[2]?.bind Event.written).any (fun row =>
        row.id == 1 && row.rideState == RideStateType.findingVehicle.id) = true := by decide
  have hseen : unseen 1 ((Run.trace (Sys.step (Town.world [Town.van 9 4])) Sys.event
      { trips := Table.empty } cancelDuringTick).take 2) =
        some RideStateType.passengerCancelled.id := by decide
  obtain ⟨row, hrow, hwas⟩ := (Option.any_eq_true _ _).mp hthird
  obtain ⟨e, he, hwritten⟩ := Option.bind_eq_some_iff.mp hrow
  rw [Bool.and_eq_true, beq_iff_eq, beq_iff_eq] at hwas
  have hsame := h 2 e row _ he hwritten (hwas.1 ▸ hseen)
  rw [hwas.2] at hsame
  exact absurd hsame (by decide)

end Maiden
