import Maiden.Actors.Invariant

/-!
# Bookings are an append-only log

Every thread that changes a trip writes back a whole row: the object it has read, perhaps
long before, with some columns changed. Updates get lost that way. The columns that a
booking has set do not: no thread changes them in the object it holds, so that whichever row
is written last, they are the same.

`bookings_logged` says so for whole runs. Seen through its ids and bookings, the Trips table
is a log: what requests insert is added, each booking under an id of its own, and nothing is
ever changed or deleted, whatever the dispatcher and the other requests do at the same time.
Which ids the new rows have, and in which order a query finds them, is left to the database: an
id is drawn from a sequence before the insert is committed, so that overlapping inserts may be
committed the other way round, and refused ones leave gaps.
-/

namespace Maiden

/-- A trip as the log shows it. -/
def Trip.entry (t : Trip) : Int × Booking := (t.id, t.booking)

/-- The booking that the next step of a thread commits. -/
def Task.books : Task → Option Booking
  | .insert b _ => some b
  | _ => none

/-- The booking that a transition commits. -/
def Sys.books (s : Sys) : Label → Option Booking
  | .client i _ => s.clients[i]?.bind Task.books
  | _ => none

/-- `db'` is `db` with these bookings added, each under some id. -/
def Logged (db : Table Trip) (bs : List Booking) (db' : Table Trip) : Prop :=
  ∃ ids : List Int, ids.length = bs.length ∧
    (db'.rows.map Trip.entry).Perm (db.rows.map Trip.entry ++ ids.zip bs)

theorem Logged.of_eq {db db' : Table Trip}
    (hrows : db'.rows.map Trip.entry = db.rows.map Trip.entry) : Logged db [] db' := by
  refine ⟨[], rfl, ?_⟩
  rw [hrows, List.zip_nil_left, List.append_nil]

theorem Logged.trans {db db' db'' : Table Trip} {bs bs' : List Booking} (h : Logged db bs db')
    (h' : Logged db' bs' db'') : Logged db (bs ++ bs') db'' := by
  obtain ⟨ids, hlen, hperm⟩ := h
  obtain ⟨ids', hlen', hperm'⟩ := h'
  refine ⟨ids ++ ids', by simp [hlen, hlen'], ?_⟩
  rw [List.zip_append hlen, ← List.append_assoc]
  exact hperm'.trans (hperm.append_right _)

/-- Writing back a copy of a stored row changes no entry. -/
theorem entries_update {db : Table Trip} {row : Trip} (h : Agrees db [row]) :
    (db.update row).rows.map Trip.entry = db.rows.map Trip.entry := by
  obtain ⟨t, hget, hbooking⟩ := h row List.mem_cons_self
  refine Table.map_replaceRow Trip.entry fun r hr hkey => ?_
  rw [Table.eq_of_get hget hr hkey]
  exact Prod.ext (Table.key_of_get hget) hbooking

/-- An insert appends an entry. -/
theorem entries_insert (db : Table Trip) (b : Booking) (created now : Int) :
    (db.insert (stamped (b.trip created) now)).rows.map Trip.entry =
      db.rows.map Trip.entry ++ [(db.nextKey, b)] := by
  show (db.rows ++ [_]).map Trip.entry = _
  rw [List.map_append]
  rfl

/-- **What one step of a thread does to the log**: a booking adds its entry, and every other write
is of a row with the entry it had. -/
theorem Task.Moves.logged {w : World} {env : Env} {db db' : Table Trip} {k k' : Task}
    (h : Task.Moves w env db k db' k') (hag : Agrees db k.held) : Logged db k.books.toList db' := by
  rcases h.table hag with ⟨rfl, hidle⟩ | ⟨row, after, rfl, -, rfl⟩ | ⟨trip, readings, rfl, rfl⟩ |
    ⟨b, created, rfl, rfl⟩
  · have hbooks : k.books = none := by
      cases k with
      | insert b created => cases hidle
      | _ => rfl
    rw [hbooks]
    exact .of_eq rfl
  · exact .of_eq (entries_update hag.head)
  · exact .of_eq (entries_update (hag.head.congr rfl rfl))
  · refine ⟨[db.nextKey], rfl, ?_⟩
    rw [entries_insert]
    exact .refl _

/-- **One transition** adds what it commits. Starting and ending the loops writes nothing. -/
theorem Wf.logged {w : World} {s s' : Sys} {l : Label} {okB : Booking → Prop} {okS : Int → Prop}
    (h : Wf w okB okS s) (hs : s.Steps w l s') : Logged s.trips (s.books l).toList s'.trips := by
  cases hs with
  | @client i env k k' db hk hm =>
    rw [Sys.books, hk]
    exact hm.logged (h.clients_agree k (List.mem_of_getElem? hk))
  | @worker i env wk k' db hw hm =>
    have hmem := List.mem_of_getElem? hw
    have hlogged := hm.logged (h.workers_agree wk hmem).tail
    -- a worker never inserts, so it adds nothing
    have hbooks : wk.task.books = none := by
      cases htask : wk.task with
      | insert b created => exact absurd htask ((h.workers_at wk hmem).not_insert b created)
      | _ => rfl
    rw [hbooks] at hlogged
    exact hlogged
  | _ => exact .of_eq rfl

/-- No entry is there twice, and an added one is under an id that was not taken. -/
theorem Logged.nodup {db db' : Table Trip} {bs : List Booking} {ids : List Int}
    (hlen : ids.length = bs.length)
    (hperm : (db'.rows.map Trip.entry).Perm (db.rows.map Trip.entry ++ ids.zip bs)) :
    (db.rows.map Trip.id ++ ids).Nodup := by
  have hkeys : ∀ db : Table Trip, (db.rows.map Trip.entry).map Prod.fst = db.rows.map Trip.id :=
    fun db => List.map_map
  have hids := hperm.map Prod.fst
  rw [List.map_append, hkeys, hkeys, List.map_fst_zip hlen.le] at hids
  exact hids.nodup_iff.mp db'.keys_nodup

/-- **Bookings are an append-only log.** Between any two points of a run, through every
interleaving of requests and ticks, the entries of the Trips table are the earlier ones and one
for each booking that was committed in between, under an id of its own. -/
theorem bookings_logged (w : World) (db : Table Trip) {before run : List Label} {s s' : Sys}
    (hbefore : Run.exec (Sys.step w) { trips := db } before = some s)
    (hrun : Run.exec (Sys.step w) s run = some s') :
    ∃ ids : List Int, (s.trips.rows.map Trip.id ++ ids).Nodup ∧
      ids.length = (Run.trace (Sys.step w) Sys.books s run).length ∧
      (s'.trips.rows.map Trip.entry).Perm (s.trips.rows.map Trip.entry ++
        ids.zip (Run.trace (Sys.step w) Sys.books s run)) := by
  have hstart : Logged s.trips [] s.trips ∧ Wf w (fun _ => True) (fun _ => True) s :=
    ⟨.of_eq rfl, wf_of_exec hbefore⟩
  -- the log grows with the trace; well-formedness is carried along for the steps
  have hlog := Run.trace_invariant (C := fun _ _ => True)
    (K := fun es x => Logged s.trips es x.trips ∧ Wf w (fun _ => True) (fun _ => True) x)
    (fun es x l x' hstep _ hx => ⟨hx.1.trans (hx.2.logged (Sys.step_steps hstep)),
      hx.2.step (Sys.step_steps hstep) l.within_true⟩)
    hstart (Run.meets_of_forall (fun _ _ _ => trivial) _) hrun
  obtain ⟨ids, hlen, hperm⟩ := hlog.1
  exact ⟨ids, Logged.nodup hlen hperm, hlen, hperm⟩

/-- A passenger is being matched. -/
def firstInHand : List Label :=
  Town.served 0 2 (.bookTrip (Town.ride 7 1)) ++ [.tick] ++ Town.worked 0 3

/-- Another one books before the match is saved. -/
def bookDuringTick : List Label :=
  Town.served 1 2 (.bookTrip (Town.ride 8 2)) ++ Town.worked 0 4

theorem bookings_logged_bookDuringTick :
    ∃ s s', Run.exec (Sys.step (Town.world [Town.van 5 4])) { trips := Table.empty } firstInHand =
        some s ∧
      Run.exec (Sys.step (Town.world [Town.van 5 4])) s bookDuringTick = some s' ∧
      ∃ id, (s'.trips.rows.map Trip.entry).Perm [(1, Town.ride 7 1), (id, Town.ride 8 2)] := by
  have hrun : (Run.exec (Sys.step (Town.world [Town.van 5 4])) { trips := Table.empty }
      firstInHand).any (fun s =>
        s.trips.rows.map Trip.entry == [(1, Town.ride 7 1)] &&
        Run.trace (Sys.step (Town.world [Town.van 5 4])) Sys.books s bookDuringTick
          == [Town.ride 8 2] &&
        (Run.exec (Sys.step (Town.world [Town.van 5 4])) s bookDuringTick).isSome) = true := by
    decide
  obtain ⟨s, hs, hall⟩ := (Option.any_eq_true _ _).mp hrun
  simp only [Bool.and_eq_true, beq_iff_eq] at hall
  obtain ⟨⟨hfirst, htrace⟩, hsome⟩ := hall
  obtain ⟨s', hs'⟩ := Option.isSome_iff_exists.mp hsome
  obtain ⟨ids, -, hlen, hperm⟩ := bookings_logged _ _ hs hs'
  rw [htrace] at hlen hperm
  obtain ⟨id, rfl⟩ := List.length_eq_one_iff.mp hlen
  rw [hfirst] at hperm
  exact ⟨s, s', hs, hs', id, hperm⟩

end Maiden
