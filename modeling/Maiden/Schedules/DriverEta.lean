import Maiden.Schedules.Today

/-!
# When does a scheduled ride come?

The eta of a trip that was booked on a row of the timetable should be the first minute from
now on with the row's weekday and time. `Trip.getDriverEta` compares the row's day, in
which Sunday is 0, with Joda's day of the week, in which it is 7. Equal days mean today,
even when the time has passed, and different ones mean tomorrow, whatever they are.

`driverEta_iff` says exactly when this is right: on a row of today, other than on a Sunday,
whose time is still to come, and on a row of tomorrow.
-/

namespace Maiden

open DateTime

/-- The minutes, counted from the start of 1970, with the row's weekday and time. -/
def RowMinute (s : Schedule) (hour minute μ : Int) : Prop :=
  weekday (μ * minuteMillis) = s.dayOfWeek ∧ μ % 1440 = hour * 60 + minute

/-- The eta lies in the first minute from now on that is the row's. -/
def EtaInFirstMinute (w : World) (env : Env) (t : Trip) (s : Schedule) (hour minute : Int) :
    Prop :=
  ∃ eta, getDriverEta w env t = .ok eta ∧
    IsLeast {μ | env.now / minuteMillis ≤ μ ∧ RowMinute s hour minute μ} (eta / minuteMillis)

/-- The row is of today, by Joda's number, and its time is not over; or it is of
tomorrow. -/
def TodayOrTomorrow (s : Schedule) (hour minute now : Int) : Prop :=
  (s.dayOfWeek = getDayOfWeek now ∧
    getHourOfDay now * 60 + getMinuteOfHour now ≤ hour * 60 + minute) ∨
  s.dayOfWeek = (getDayOfWeek now + 1) % 7

instance (s : Schedule) (hour minute now : Int) : Decidable (TodayOrTomorrow s hour minute now) :=
  inferInstanceAs (Decidable ((_ ∧ _) ∨ _))

section

variable {w : World} {env : Env} {t : Trip} {s : Schedule} {hour minute : Int}

variable (env) in
/-- The eta of a scheduled trip: the row's time today or tomorrow. -/
theorem getDriverEta_scheduled (hs : w.schedules.get t.scheduleId = some s)
    (hwf : s.WellFormed w.unicode hour minute) :
    getDriverEta w env t = .ok (atTime (if getDayOfWeek env.now = s.dayOfWeek then env.now
      else plusDays env.now 1) hour minute) := by
  have hid : t.scheduleId ≠ 0 := by
    rw [← Table.key_of_get hs]
    exact Table.key_ne_zero_of_mem (Table.mem_of_get hs)
  rw [getDriverEta, if_neg hid]
  exact scheduledEta_eq hs hwf.read hwf.hour hwf.minute env.now

theorem rowMinute_iff (hwf : s.WellFormed w.unicode hour minute) {μ : Int} :
    RowMinute s hour minute μ ↔
      μ % 10080 = ((s.dayOfWeek - 4) * 1440 + (hour * 60 + minute)) % 10080 := by
  obtain ⟨hday, -, hhour, hminute⟩ := hwf
  unfold RowMinute weekday minuteMillis dayMillis
  constructor
  · rintro ⟨hweekday, htime⟩
    omega
  · intro hmod
    omega

/-- Only the minutes of the week matter: the seconds of the eta are those of the instant, and a row
has none. -/
theorem etaInFirstMinute_iff (hs : w.schedules.get t.scheduleId = some s)
    (hwf : s.WellFormed w.unicode hour minute) :
    EtaInFirstMinute w env t s hour minute ↔ IsLeast {μ | env.now / minuteMillis ≤ μ ∧
      μ % 10080 = ((s.dayOfWeek - 4) * 1440 + (hour * 60 + minute)) % 10080}
        (atTime (if getDayOfWeek env.now = s.dayOfWeek then env.now
          else plusDays env.now 1) hour minute / minuteMillis) := by
  have heta := getDriverEta_scheduled env hs hwf
  have hset : {μ | env.now / minuteMillis ≤ μ ∧ RowMinute s hour minute μ} =
      {μ | env.now / minuteMillis ≤ μ ∧
        μ % 10080 = ((s.dayOfWeek - 4) * 1440 + (hour * 60 + minute)) % 10080} :=
    Set.ext fun μ => and_congr_right fun _ => rowMinute_iff hwf
  unfold EtaInFirstMinute
  rw [hset]
  constructor
  · rintro ⟨eta, heq, hleast⟩
    rw [heta] at heq
    rwa [← Except.ok.inj heq] at hleast
  · exact fun hleast => ⟨_, heta, hleast⟩

/-- **The eta of a scheduled trip.** For every instant, every well-formed row and every trip
booked on it: the eta is in the first minute of the row from now on if and only if the row is
of today and not over, or of tomorrow. -/
theorem driverEta_iff (hs : w.schedules.get t.scheduleId = some s)
    (hwf : s.WellFormed w.unicode hour minute) :
    EtaInFirstMinute w env t s hour minute ↔ TodayOrTomorrow s hour minute env.now := by
  rw [etaInFirstMinute_iff hs hwf, Recurrence.isLeast_iff (by decide)]
  obtain ⟨hday, -, hhour, hminute⟩ := hwf
  unfold TodayOrTomorrow atTime plusDays getHourOfDay getMinuteOfHour getDayOfWeek dayMillis
    hourMillis minuteMillis
  -- the code takes today for a row of today and tomorrow for every other
  by_cases htoday : (env.now / 86400000 + 3) % 7 + 1 = s.dayOfWeek
  · rw [if_pos htoday]
    constructor
    · rintro ⟨hle, -, -⟩
      exact Or.inl ⟨htoday.symm, by omega⟩
    · rintro (⟨-, hle⟩ | hnext)
      · refine ⟨by omega, by omega, by omega⟩
      · omega
  · rw [if_neg htoday]
    constructor
    · rintro ⟨-, -, hmod⟩
      exact Or.inr (by omega)
    · rintro (⟨heq, -⟩ | hnext)
      · exact absurd heq.symm htoday
      · refine ⟨by omega, by omega, by omega⟩

end

/-- A town with nothing but the Thursday bus. -/
def thursdayTown : World where
  unicode := Unicode.ascii
  stops := Table.empty
  vehicles := Table.empty
  schedules := thursdayBus

/-- Nothing but a clock. -/
def clockEnv (now : Int) : Env where
  now := now
  getCurrentForUser _ := none
  getClosestStop _ := none
  latLngFromWKB _ := none
  getRouteAndEta _ _ := none
  latLngListToWKB _ := none
  publishes _ := true

/-- A trip with the bus, and the row it is booked on. -/
def busTrip : Trip :=
  { scheduleId := 1, reservationTime := 0, createdAt := none, updatedAt := none }

def busRow : Schedule :=
  { id := 1, routeId := 1, stopId := 1, dayOfWeek := 4, stopTime := js ['9', ':', '0', '5'] }

theorem busRow_wellFormed : busRow.WellFormed thursdayTown.unicode 9 5 :=
  ⟨by decide, by decide, by decide, by decide⟩

/-- At Thursday midnight and on Wednesday, at any time. -/
theorem driverEta_thursdayBus :
    thursdayTown.schedules.get busTrip.scheduleId = some busRow ∧
    busRow.WellFormed thursdayTown.unicode 9 5 ∧
    EtaInFirstMinute thursdayTown (clockEnv 0) busTrip busRow 9 5 ∧
    EtaInFirstMinute thursdayTown (clockEnv (-1)) busTrip busRow 9 5 := by
  have hs : thursdayTown.schedules.get busTrip.scheduleId = some busRow := by decide
  exact ⟨hs, busRow_wellFormed, (driverEta_iff hs busRow_wellFormed).mpr (by decide),
    (driverEta_iff hs busRow_wellFormed).mpr (by decide)⟩

/-- At ten on Thursday the eta is an hour ago. -/
theorem eta_in_the_past :
    thursdayTown.schedules.get busTrip.scheduleId = some busRow ∧
    busRow.WellFormed thursdayTown.unicode 9 5 ∧
    getDriverEta thursdayTown (clockEnv (10 * hourMillis)) busTrip =
      .ok (9 * hourMillis + 5 * minuteMillis) ∧
    ¬ EtaInFirstMinute thursdayTown (clockEnv (10 * hourMillis)) busTrip busRow 9 5 := by
  have hs : thursdayTown.schedules.get busTrip.scheduleId = some busRow := by decide
  have heta : getDriverEta thursdayTown (clockEnv (10 * hourMillis)) busTrip =
      .ok (9 * hourMillis + 5 * minuteMillis) :=
    getDriverEta_scheduled (clockEnv (10 * hourMillis)) hs busRow_wellFormed
  refine ⟨hs, busRow_wellFormed, heta, ?_⟩
  rintro ⟨eta, heq, hleast⟩
  obtain rfl := Except.ok.inj (heta.symm.trans heq)
  exact absurd hleast.1.1 (by decide)

end Maiden
