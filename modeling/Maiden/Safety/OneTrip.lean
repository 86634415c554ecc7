import Maiden.Base.Run
import Maiden.Safety.Live

/-!
# One live trip per passenger

`Trip.create` refuses a passenger who has a live trip (`AlreadyHaveTripException`).
A booked trip becomes live later, in a tick, so the check protects nothing while an
earlier booking is still waiting: two bookings before the next tick are both
matched. The same happens when a trip is cancelled while a worker holds it and is
booked again before the worker saves the match.

A trip is *underway* for its passenger from the booking until it is settled: while
it is live, waiting for a tick, or in a worker's hands. `oneLiveTrip_of_meets` says
that bookings committed only when the passenger has no trip underway keep everyone
to one live trip.
-/

namespace Maiden

/-- No passenger has two live trips. -/
def OneLiveTrip (db : Table Trip) : Prop :=
  ∀ t ∈ db.rows, ∀ t' ∈ db.rows, t.isLive = true → t'.isLive = true →
    t.userId = t'.userId → t = t'

instance (db : Table Trip) : Decidable (OneLiveTrip db) :=
  inferInstanceAs (Decidable (∀ t ∈ db.rows, ∀ t' ∈ db.rows, _))

/-- The trip is live, waits for a tick, or is being matched. -/
def Sys.underway (s : Sys) (t : Trip) : Bool :=
  t.isLive || t.isPending || s.handling t.id

/-- A booking is committed only when its passenger has no trip underway. -/
def BooksOne (s : Sys) (l : Label) : Prop :=
  match s.running l with
  | some (_, .insert b _) => ∀ t ∈ s.trips.rows, t.userId = b.userId → s.underway t = false
  | _ => True

instance (s : Sys) (l : Label) : Decidable (BooksOne s l) := by
  unfold BooksOne
  split <;> infer_instance

/-- No passenger has two trips underway. -/
def OneUnderway (s : Sys) : Prop :=
  ∀ t ∈ s.trips.rows, ∀ t' ∈ s.trips.rows, s.underway t = true → s.underway t' = true →
    t.userId = t'.userId → t = t'

theorem Sys.underway_iff {s : Sys} {t : Trip} :
    s.underway t = true ↔ t.isLive = true ∨ t.isPending = true ∨ s.handling t.id = true := by
  unfold Sys.underway
  rw [Bool.or_eq_true, Bool.or_eq_true, or_assoc]

section

variable {w : World} {okB : Booking → Prop} {s s' : Sys} {l : Label}

/-- A row that was there before and is underway now was underway before. -/
theorem underway_of_step (hs : s.Steps w l s') {t : Trip} (ht : t ∈ s.trips.rows)
    (h : s'.underway t = true) : s.underway t = true := by
  rcases Sys.underway_iff.mp h with hlive | hpend | hhand
  · exact Sys.underway_iff.mpr (Or.inl hlive)
  · exact Sys.underway_iff.mpr (Or.inr (Or.inl hpend))
  · rcases handling_of_step hs hhand with hold | ⟨-, t₀, ht₀, hid, hpend⟩
    · exact Sys.underway_iff.mpr (Or.inr (Or.inr hold))
    · rw [Table.eq_of_key_eq ht₀ ht hid] at hpend
      exact Sys.underway_iff.mpr (Or.inr (Or.inl hpend))

/-- **Where a trip underway comes from**: it was underway before the transition, for
the same passenger, or it has just been booked. -/
theorem underway_origin (h : Wf w okB Ending s) (hs : s.Steps w l s') {t : Trip}
    (ht : t ∈ s'.trips.rows) (hup : s'.underway t = true) :
    (∃ t₀ ∈ s.trips.rows, t₀.id = t.id ∧ t₀.userId = t.userId ∧ s.underway t₀ = true) ∨
    ∃ env b created, s.running l = some (env, .insert b created) ∧ t.userId = b.userId ∧
      t.id = s.trips.nextKey := by
  rcases live_writes h hs with htrips | ⟨row, hidle, hag, htrips⟩ |
    ⟨env, b, created, hrun, htrips⟩ | ⟨i, env, wk, trip, readings, rfl, hw, hk, hfree, htrips⟩
  · rw [htrips] at ht
    exact Or.inl ⟨t, ht, rfl, rfl, underway_of_step hs ht hup⟩
  · rw [htrips] at ht
    rcases Table.mem_update.mp ht with ⟨rfl, -⟩ | ⟨hmem, -⟩
    · -- the row is idle, so it can only be in a worker's hands, as it was before
      obtain ⟨t₀, hget, hbook⟩ := hag t List.mem_cons_self
      obtain ⟨hmem, hid⟩ := Table.get_eq_some_iff.mp hget
      refine Or.inl ⟨t₀, hmem, hid, congrArg Booking.userId hbook, ?_⟩
      rcases Sys.underway_iff.mp hup with hlive | hpend | hhand
      · rw [hidle.1] at hlive
        cases hlive
      · rw [hidle.2] at hpend
        cases hpend
      · refine underway_of_step hs hmem (Sys.underway_iff.mpr (Or.inr (Or.inr ?_)))
        rw [show t₀.id = t.id from hid]
        exact hhand
    · exact Or.inl ⟨t, hmem, rfl, rfl, underway_of_step hs hmem hup⟩
  · rw [htrips] at ht
    rcases Table.mem_insert.mp ht with hmem | rfl
    · exact Or.inl ⟨t, hmem, rfl, rfl, underway_of_step hs hmem hup⟩
    · -- the booked trip has the next key, which no other trip has
      exact Or.inr ⟨env, b, created, hrun, rfl, rfl⟩
  · rw [htrips] at ht
    rcases Table.mem_update.mp ht with ⟨rfl, -⟩ | ⟨hmem, -⟩
    · -- the saved trip was in this worker's hands
      have hwk : wk ∈ s.workers := List.mem_of_getElem? hw
      obtain ⟨hphase, tm, v, eta, geom, rfl, -⟩ := (h.workers_at wk hwk).save hk
      obtain ⟨t₀, hget, hbook⟩ := h.workers_agree wk hwk wk.trip List.mem_cons_self
      obtain ⟨hmem, hid⟩ := Table.get_eq_some_iff.mp hget
      refine Or.inl ⟨t₀, hmem, hid, congrArg Booking.userId hbook, ?_⟩
      refine Sys.underway_iff.mpr (Or.inr (Or.inr (Sys.handling_iff.mpr ?_)))
      exact ⟨hphase, wk, hwk, hid.symm, by rw [hk]; rfl⟩
    · exact Or.inl ⟨t, hmem, rfl, rfl, underway_of_step hs hmem hup⟩

/-- Careful bookings keep every passenger to one trip underway. -/
theorem OneUnderway.step (hone : OneUnderway s) (h : Wf w okB Ending s) (hs : s.Steps w l s')
    (hbooks : BooksOne s l) : OneUnderway s' := by
  have hnew : ∀ {env b created}, s.running l = some (env, .insert b created) →
      ∀ t ∈ s.trips.rows, t.userId = b.userId → s.underway t = false := by
    intro env b created hrun
    unfold BooksOne at hbooks
    rw [hrun] at hbooks
    exact hbooks
  -- two trips underway are two old ones, an old one and the new one, or both the new one
  intro t ht t' ht' hup hup' huser
  rcases underway_origin h hs ht hup with ⟨t₀, hmem, hid, hu, hold⟩ |
    ⟨env, b, created, hrun, hu, hid⟩
  · rcases underway_origin h hs ht' hup' with ⟨t₀', hmem', hid', hu', hold'⟩ |
      ⟨env, b, created, hrun, hu', -⟩
    · have heq := hone t₀ hmem t₀' hmem' hold hold' (by rw [hu, hu', huser])
      exact Table.eq_of_key_eq ht ht' (hid.symm.trans ((congrArg Trip.id heq).trans hid'))
    · rw [hnew hrun t₀ hmem (hu.trans (huser.trans hu'))] at hold
      cases hold
  · rcases underway_origin h hs ht' hup' with ⟨t₀', hmem', -, hu', hold'⟩ |
      ⟨-, -, -, -, -, hid'⟩
    · rw [hnew hrun t₀' hmem' (hu'.trans (huser.symm.trans hu))] at hold'
      cases hold'
    · exact Table.eq_of_key_eq ht ht' (hid.trans hid'.symm)

end

/-- **One live trip per passenger**: in a run of bookings, ticks and updates that end
trips, nobody ever has two live trips, if every booking is committed at a moment when
its passenger has no trip underway. -/
theorem oneLiveTrip_of_meets (w : World) {run : List Label}
    (hdom : ∀ l ∈ run, l.Within (fun _ => True) Ending)
    (hbooks : Run.Meets (Sys.step w) BooksOne Sys.init run) :
    Run.Throughout (Sys.step w) (fun s => OneLiveTrip s.trips) Sys.init run := by
  have hwithin : Run.Meets (Sys.step w) (fun _ l => l.Within (fun _ => True) Ending) Sys.init run :=
    Run.meets_of_forall (fun l hl _ => hdom l hl) Sys.init
  refine Run.throughout_of_meets
    (I := fun s => Wf w (fun _ => True) Ending s ∧ OneUnderway s) ?_ ?_
    ⟨wf_init, fun _ ht => nomatch ht⟩ (hwithin.and hbooks)
  · rintro s l s' hs ⟨hl, hbook⟩ ⟨hwf, hone⟩
    exact ⟨hwf.step (Sys.step_steps hs) hl, hone.step hwf (Sys.step_steps hs) hbook⟩
  · rintro s ⟨-, hone⟩ t ht t' ht' hlive hlive' huser
    exact hone t ht t' ht' (Sys.underway_iff.mpr (Or.inl hlive))
      (Sys.underway_iff.mpr (Or.inl hlive')) huser

/-- One passenger books, is matched, and is turned away on booking again. -/
def secondBookingRefused : List Label :=
  Town.served 0 2 (.bookTrip (Town.ride 5 1)) ++ [.tick] ++ Town.worked 0 7 ++
    Town.served 1 1 (.bookTrip (Town.ride 5 1))

theorem oneLiveTrip_secondBookingRefused :
    Run.Throughout (Sys.step (Town.world [Town.van 9 4])) (fun s => OneLiveTrip s.trips)
      Sys.init secondBookingRefused :=
  oneLiveTrip_of_meets _ (by decide) (by decide)

/-- One passenger books twice before the tick. -/
def twoBookings : List Label :=
  Town.served 0 2 (.bookTrip (Town.ride 5 1)) ++ Town.served 1 2 (.bookTrip (Town.ride 5 1)) ++
    [.tick] ++ Town.worked 0 7 ++ Town.worked 1 7

theorem two_live_trips :
    ∃ (w : World) (run : List Label) (s : Sys),
      (∀ l ∈ run, l.Within (fun _ => True) Ending) ∧
      Run.exec (Sys.step w) Sys.init run = some s ∧ ¬ OneLiveTrip s.trips := by
  have hrun : (Run.exec (Sys.step (Town.world [Town.van 9 4])) Sys.init twoBookings).any
      (fun s => !decide (OneLiveTrip s.trips)) = true := by decide
  obtain ⟨s, hs, htwo⟩ := (Option.any_eq_true _ _).mp hrun
  exact ⟨Town.world [Town.van 9 4], twoBookings, s, by decide, hs, by simpa using htwo⟩

end Maiden
