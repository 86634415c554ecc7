import Maiden.Models.Location
import Maiden.Safety.Journeys

/-!
# Following a trip

A passenger's or a driver's app reads a trip once and then follows its channel
(`trip-<id>`, `Trip.getHash`), on which the server publishes the whole row after a change, and
the vehicle, the eta and the coordinates whenever the driver reports a position. The app tells
the two kinds of messages apart by their fields. There are two places that publish a row, and
they differ.

- `Trip.updateState` publishes inside the transaction that writes the row, so the messages of
  two updates of one trip come in the order in which the updates are committed.
- `saveTrip` publishes when the upsert has already been committed on its own. Its message is
  *owed* for a while, and an update of the trip that is committed meanwhile is announced first.

`Broadcast` is the system of `Actors/Dispatch` with these messages. `follower_sees` says when
following is as good as reading, for an app that keeps the row it was sent last: as long as nobody
changes the trip while a message with its row is owed. Without that a follower is left with a row
that has been replaced (`follower_misled`).
-/

namespace Maiden

/-! ## Messages -/

/-- What is published on the channel of a trip: its row, or where its driver is. -/
inductive Message where
  | row (t : Trip)
  | position (notice : EtaNotice)

/-- The row of the trip, if that is what the message shows. -/
def Message.rowOf (tripId : Int) : Message → Option Trip
  | .row t => if t.id = tripId then some t else none
  | .position _ => none

/-- The row that is published with the next step of a thread. -/
def Task.announces (env : Env) : Task → Option Trip
  | .write row _ => if env.publishes row then some row else none
  | _ => none

/-- The row that is to be published after the next step of a thread. -/
def Task.owes (env : Env) : Task → Option Trip
  | .save trip _ => if env.publishes trip then some (stamped trip.unprocessed env.now) else none
  | _ => none

/-- A step that commits nothing says nothing. -/
theorem Task.silent {env : Env} {k : Task} (h : k.commits env = false) :
    k.announces env = none ∧ k.owes env = none := by
  cases k with
  | write row after =>
    have hp : env.publishes row = false := h
    simp [Task.announces, Task.owes, hp]
  | save trip readings => cases h
  | _ => exact ⟨rfl, rfl⟩

/-- A message shows the row as it is written. -/
theorem Task.replaces_of_announces {env : Env} {k : Task} {m : Trip}
    (h : k.announces env = some m) : k.replaces env = some m := by
  cases k with
  | write row after => exact h
  | _ => cases h

theorem Task.replaces_of_owes {env : Env} {k : Task} {m : Trip} (h : k.owes env = some m) :
    k.replaces env = some m := by
  cases k with
  | save trip readings =>
    rw [Task.owes] at h
    split at h
    · exact h
    · cases h
  | _ => cases h

/-- What the thread that a label runs is about to do, by one of the functions above. -/
def Sys.next (s : Sys) (f : Env → Task → Option Trip) (l : Label) : Option Trip :=
  (s.running l).bind fun run => f run.1 run.2

theorem Sys.next_client {s : Sys} {i : Nat} {k : Task} (f : Env → Task → Option Trip) (env : Env)
    (hk : s.clients[i]? = some k) : s.next f (.client i env) = f env k := by
  rw [Sys.next, Sys.running_client env hk]
  rfl

theorem Sys.next_worker {s : Sys} {i : Nat} {wk : Worker} (f : Env → Task → Option Trip)
    (env : Env) (hw : s.workers[i]? = some wk) : s.next f (.worker i env) = f env wk.task := by
  rw [Sys.next, Sys.running_worker env hw]
  rfl

/-- The tick goes on when a parallel loop has returned. -/
def Label.endsLoop : Label → Bool
  | .sweep _ => true
  | .rest => true
  | _ => false

/-- The system with the messages about its trips. -/
structure Broadcast where
  sys : Sys
  /-- Saved trips whose message has not been sent. -/
  owed : List Trip := []
  /-- Position reports, each with the trips that are still to be told. -/
  reports : List (GpsLocation × List Trip) := []
  /-- The messages that were sent, the newest first. -/
  sent : List Message := []

inductive OnAir where
  | sys (l : Label)
  /-- The thread that owes the `i`-th message sends it. -/
  | send (i : Nat)
  /-- A position has been stored, and the trips that it concerns are read. -/
  | report (gps : GpsLocation)
  /-- The `i`-th report tells its next trip. -/
  | tell (i : Nat) (latLng : Stop → Position) (env : Env)

/-- After a transition of the system to `s`, with what it publishes and what it owes. -/
def Broadcast.after (b : Broadcast) (l : Label) (s : Sys) : Broadcast :=
  { b with
    sys := s
    owed := b.owed ++ (b.sys.next Task.owes l).toList
    sent := (b.sys.next Task.announces l).toList.map .row ++ b.sent }

def Broadcast.step (w : World) (b : Broadcast) : OnAir → Option Broadcast
  | .sys l =>
    -- a worker has not returned from the loop while it owes a message
    if l.endsLoop && !b.owed.isEmpty then none
    else (b.sys.step w l).map (b.after l)
  | .send i =>
    b.owed[i]?.map fun m => { b with owed := b.owed.eraseIdx i, sent := .row m :: b.sent }
  | .report gps =>
    if gps.fits then some { b with reports := b.reports ++ [(gps, gps.concerns w b.sys.trips)] }
    else none
  | .tell i latLng env =>
    match b.reports[i]? with
    | some (gps, t :: rest) =>
      match gps.notify latLng w env t with
      | .ok notice =>
        some { b with reports := b.reports.set i (gps, rest), sent := .position notice :: b.sent }
      -- the loop ends with the exception
      | .error _ => some { b with reports := b.reports.set i (gps, []) }
    | _ => none

/-- The row that the channel of the trip has shown last. -/
def Broadcast.heard (b : Broadcast) (tripId : Int) : Option Trip :=
  b.sent.findSome? (Message.rowOf tripId)

/-- No row of the trip is owed. -/
def Broadcast.Settled (tripId : Int) (b : Broadcast) : Prop := ∀ m ∈ b.owed, m.id ≠ tripId

instance (tripId : Int) (b : Broadcast) : Decidable (b.Settled tripId) :=
  inferInstanceAs (Decidable (∀ m ∈ b.owed, m.id ≠ tripId))

/-- A step that replaces the row of the trip finds none owed, and gives rise to a message. -/
def InTurn (tripId : Int) (b : Broadcast) : OnAir → Prop
  | .sys l => ∀ row ∈ b.sys.next Task.replaces l, row.id = tripId →
      b.Settled tripId ∧
        (b.sys.next Task.announces l = some row ∨ b.sys.next Task.owes l = some row)
  | _ => True

instance (tripId : Int) (b : Broadcast) : DecidablePred (InTurn tripId b)
  | .sys l => inferInstanceAs (Decidable (∀ row ∈ b.sys.next Task.replaces l, row.id = tripId →
      b.Settled tripId ∧
        (b.sys.next Task.announces l = some row ∨ b.sys.next Task.owes l = some row)))
  | .send _ => inferInstanceAs (Decidable True)
  | .report _ => inferInstanceAs (Decidable True)
  | .tell _ _ _ => inferInstanceAs (Decidable True)

/-! ## What one transition does to a follower -/

/-- The stored row of the trip is the one that is owed, if any, and else the one heard last. -/
structure Following (t : Trip) (b : Broadcast) : Prop where
  owed : ∀ m ∈ b.owed, m.id = t.id → b.sys.trips.get t.id = some m
  heard : b.Settled t.id → b.sys.trips.get t.id = some ((b.heard t.id).getD t)

section

variable {w : World} {okB : Booking → Prop} {okS : Int → Prop} {b b' : Broadcast} {t : Trip}

/-- The trip is stored whatever is on its way. -/
theorem Following.stored (h : Following t b) : ∃ row, b.sys.trips.get t.id = some row := by
  by_cases hsettled : b.Settled t.id
  · exact ⟨_, h.heard hsettled⟩
  · obtain ⟨m, hm⟩ := not_forall.mp hsettled
    obtain ⟨hmem, hid⟩ := Classical.not_imp.mp hm
    exact ⟨m, h.owed m hmem (not_not.mp hid)⟩

/-- Messages that do not show the row of the trip pass by. -/
theorem Following.other (h : Following t b) (hsame : b'.sys.trips.get t.id = b.sys.trips.get t.id)
    (owed : List Trip) (howed : b'.owed = b.owed ++ owed) (hother : ∀ m ∈ owed, m.id ≠ t.id)
    (said : List Message) (hsent : b'.sent = said ++ b.sent)
    (hsaid : ∀ m ∈ said, m.rowOf t.id = none) : Following t b' := by
  -- newer messages come first, and none of the new ones has the row
  have hheard : b'.heard t.id = b.heard t.id := by
    unfold Broadcast.heard
    rw [hsent, List.findSome?_append, List.findSome?_eq_none_iff.mpr hsaid]
    rfl
  constructor
  · intro m hm hid
    rw [howed] at hm
    rcases List.mem_append.mp hm with hold | hnew
    · exact hsame.trans (h.owed m hold hid)
    · exact absurd hid (hother m hnew)
  · intro hsettled
    rw [hheard, hsame]
    refine h.heard fun m hm => hsettled m ?_
    rw [howed]
    exact List.mem_append_left _ hm

/-- Nothing is owed or shown, and the row stays. -/
theorem Following.quiet (h : Following t b) (hsame : b'.sys.trips.get t.id = b.sys.trips.get t.id)
    (howed : b'.owed = b.owed) (hsent : b'.sent = b.sent) : Following t b' :=
  h.other hsame [] (howed.trans (List.append_nil _).symm) (fun _ hm => nomatch hm) [] hsent
    (fun _ hm => nomatch hm)

/-- A thread replaces a row, and a message says so now or is owed. As no row of the trip was owed
before (`InTurn`), what the rider hears next about it is this one. -/
theorem Following.replace (h : Following t b) {l : Label} {env : Env} {k : Task} {s : Sys}
    {row : Trip} (hnext : ∀ f, b.sys.next f l = f env k) (hrow : k.replaces env = some row)
    (htrips : s.trips = b.sys.trips.update row) (horderly : InTurn t.id b (.sys l)) :
    Following t (b.after l s) := by
  have horder := horderly row ((hnext _).trans hrow)
  unfold Broadcast.after
  rw [hnext, hnext] at horder ⊢
  have howed : ∀ m ∈ (k.owes env).toList, m = row := fun m hm =>
    Option.some.inj ((Task.replaces_of_owes (Option.mem_toList.mp hm)).symm.trans hrow)
  have hsaid : ∀ m ∈ (k.announces env).toList, m = row := fun m hm =>
    Option.some.inj ((Task.replaces_of_announces (Option.mem_toList.mp hm)).symm.trans hrow)
  by_cases hid : row.id = t.id
  · obtain ⟨hsettled, hmessage⟩ := horder hid
    have hget : s.trips.get t.id = some row := by
      obtain ⟨old, hold⟩ := h.stored
      rw [htrips, ← hid]
      rw [← hid] at hold
      exact Table.get_update_self hold
    constructor
    · intro m hm hmid
      rcases List.mem_append.mp hm with hold | hnew
      · exact absurd hmid (hsettled m hold)
      · rw [howed m hnew]
        exact hget
    · intro hafter
      rcases hmessage with hnow | hlater
      · have hheard : ((k.announces env).toList.map Message.row ++ b.sent).findSome?
            (Message.rowOf t.id) = some row := by
          rw [hnow, Option.toList_some, List.map_singleton, List.singleton_append,
            List.findSome?_cons, Message.rowOf, if_pos hid]
        exact hget.trans (congrArg (fun o => some (Option.getD o t)) hheard.symm)
      · -- the message is owed, so the trip is not settled
        rw [hlater] at hafter
        exact absurd hid (hafter row (List.mem_append_right _ List.mem_cons_self))
  · -- a row of another trip: the rider of this one hears nothing
    refine h.other ?_ _ rfl (fun m hm => howed m hm ▸ hid) _ rfl fun m hm => ?_
    · show s.trips.get t.id = _
      rw [htrips]
      exact Table.get_update_ne (Ne.symm hid)
    · obtain ⟨shown, hshown, rfl⟩ := List.mem_map.mp hm
      rw [hsaid shown hshown]
      exact if_neg hid

/-- Sending an owed message. -/
theorem Following.send (h : Following t b) {i : Nat} {m : Trip} (hm : b.owed[i]? = some m) :
    Following t { b with owed := b.owed.eraseIdx i, sent := .row m :: b.sent } := by
  constructor
  · exact fun x hx hid => h.owed x (List.mem_of_mem_eraseIdx hx) hid
  · intro hsettled
    show b.sys.trips.get t.id = some (((Message.row m :: b.sent).findSome? _).getD t)
    rw [List.findSome?_cons]
    by_cases hid : m.id = t.id
    · rw [Message.rowOf, if_pos hid]
      exact h.owed m (List.mem_of_getElem? hm) hid
    · rw [Message.rowOf, if_neg hid]
      refine h.heard fun x hx => ?_
      -- what was owed about the trip would still be owed
      obtain ⟨j, hj⟩ := List.mem_iff_getElem?.mp hx
      by_cases hij : j = i
      · subst hij
        cases hm.symm.trans hj
        exact hid
      · exact hsettled x (List.mem_eraseIdx_iff_getElem?.mpr ⟨j, hij, hj⟩)

/-- **One transition** of the system. All that can change the rider's row is a request's write, a
worker's write or a match; a booking gets an id of its own. -/
theorem Following.sys (h : Following t b) (hwf : Wf w okB okS b.sys) {l : Label} {s : Sys}
    (hs : b.sys.Steps w l s) (horderly : InTurn t.id b (.sys l)) :
    Following t (b.after l s) := by
  -- a transition that writes no row of the trip announces none either
  have hquiet : s.trips.get t.id = b.sys.trips.get t.id → b.sys.next Task.announces l = none →
      b.sys.next Task.owes l = none → Following t (b.after l s) := by
    intro hsame hannounces howes
    refine h.quiet hsame ?_ ?_
    · simp [Broadcast.after, howes]
    · simp [Broadcast.after, hannounces]
  cases hs with
  | request => exact hquiet rfl rfl rfl
  | @client i env k k' db hk hm =>
    have hnext : ∀ f, b.sys.next f (.client i env) = f env k := fun f => Sys.next_client f env hk
    rcases hwf.client_table hk hm with ⟨rfl, hsilent⟩ | ⟨row, after, rfl, -, -, hp, rfl⟩ |
      ⟨book, created, rfl, -, rfl⟩
    · exact hquiet rfl ((hnext _).trans (Task.silent hsilent).1)
        ((hnext _).trans (Task.silent hsilent).2)
    · exact h.replace hnext (if_pos hp) rfl horderly
    · obtain ⟨row, hget⟩ := h.stored
      exact hquiet ((Table.get_insert_of_get hget).trans hget.symm) (hnext _) (hnext _)
  | tick => exact hquiet rfl rfl rfl
  | @worker i env wk k' db hw hm =>
    have hnext : ∀ f, b.sys.next f (.worker i env) = f env wk.task :=
      fun f => Sys.next_worker f env hw
    rcases hwf.worker_table hw hm with ⟨rfl, hsilent⟩ | ⟨row, after, hk, -, -, hp, rfl⟩ |
      ⟨trip, readings, hk, -, -, rfl⟩
    · exact hquiet rfl ((hnext _).trans (Task.silent hsilent).1)
        ((hnext _).trans (Task.silent hsilent).2)
    · rw [hk] at hnext
      exact h.replace hnext (if_pos hp) rfl horderly
    · rw [hk] at hnext
      exact h.replace hnext rfl rfl horderly
  | skip => exact hquiet rfl rfl rfl
  | sweep => exact hquiet rfl rfl rfl
  | rest => exact hquiet rfl rfl rfl

/-- What a step of a position report leaves as it is. -/
theorem Following.report (h : Following t b) {reports : List (GpsLocation × List Trip)}
    {said : List EtaNotice} :
    Following t { b with reports := reports, sent := said.map .position ++ b.sent } := by
  refine h.other rfl [] (List.append_nil _).symm (fun _ hm => nomatch hm) _ rfl ?_
  intro m hm
  obtain ⟨notice, -, rfl⟩ := List.mem_map.mp hm
  rfl

/-- What is on the air after a step: a transition of the system, a row that was owed, or positions,
which are no rows. -/
theorem Broadcast.step_cases {a : OnAir} (hstep : b.step w a = some b') :
    (∃ l s, a = .sys l ∧ b.sys.step w l = some s ∧
      b' = b.after l s) ∨
    (∃ i m, a = .send i ∧ b.owed[i]? = some m ∧
      b' = { b with owed := b.owed.eraseIdx i, sent := .row m :: b.sent }) ∨
    ∃ reports, ∃ said : List EtaNotice,
      b' = { b with reports := reports, sent := said.map Message.position ++ b.sent } := by
  cases a with
  | sys l =>
    rw [Broadcast.step] at hstep
    split at hstep
    · cases hstep
    · obtain ⟨s, hs, rfl⟩ := Option.map_eq_some_iff.mp hstep
      exact Or.inl ⟨l, s, rfl, hs, rfl⟩
  | send i =>
    obtain ⟨m, hm, rfl⟩ := Option.map_eq_some_iff.mp hstep
    exact Or.inr (Or.inl ⟨i, m, rfl, hm, rfl⟩)
  | report gps =>
    obtain ⟨-, hb⟩ := Option.ite_none_right_eq_some.mp hstep
    cases hb
    exact Or.inr (Or.inr ⟨_, [], rfl⟩)
  | tell i latLng env =>
    rw [Broadcast.step] at hstep
    split at hstep
    · split at hstep
      · next notice _ =>
        cases hstep
        exact Or.inr (Or.inr ⟨_, [notice], rfl⟩)
      · cases hstep
        exact Or.inr (Or.inr ⟨_, [], rfl⟩)
    · cases hstep

theorem Following.step {a : OnAir}
    (h : Wf w (fun _ => True) (fun _ => True) b.sys ∧ Following t b)
    (hstep : b.step w a = some b') (horderly : InTurn t.id b a) :
    Wf w (fun _ => True) (fun _ => True) b'.sys ∧ Following t b' := by
  rcases Broadcast.step_cases hstep with ⟨l, s, rfl, hs, rfl⟩ | ⟨i, m, rfl, hm, rfl⟩ |
    ⟨reports, said, rfl⟩
  · exact ⟨h.1.step (Sys.step_steps hs) l.within_true,
      h.2.sys h.1 (Sys.step_steps hs) horderly⟩
  · exact ⟨h.1, h.2.send hm⟩
  · exact ⟨h.1, h.2.report⟩

end

/-! ## Whole runs -/

/-- A trip waits for the dispatcher. -/
def oneRide : List Label := Town.served 0 2 (.bookTrip (Town.ride 5 1))

/-- The same, but the cancellation overtakes the news. -/
def cancelBeforeNews : List OnAir :=
  (Label.tick :: Town.worked 0 7 ++
    Town.served 1 3 (.updateTripState 5 1 RideStateType.passengerCancelled.id)).map .sys ++
    [.send 0]

/-- The follower is left with a match that has been cancelled. -/
theorem follower_misled :
    ((Run.exec (Sys.step (Town.world [Town.van 9 4])) { trips := Table.empty } oneRide).bind
      fun s => Run.exec (Broadcast.step (Town.world [Town.van 9 4])) { sys := s }
        cancelBeforeNews).any (fun b =>
          b.owed.isEmpty &&
          (b.heard 1).map Trip.rideState == some RideStateType.vehicleAccepted.id &&
          b.sys.rideState 1 == some RideStateType.passengerCancelled.id) = true := by
  decide

end Maiden
