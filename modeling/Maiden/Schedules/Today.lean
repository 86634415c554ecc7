import Maiden.Base.Recurrence
import Maiden.Models.Schedule

/-!
# Does today's schedule show the upcoming departures?

A row of the timetable stands for a departure once a week. It is upcoming when the next
one is at most a day away (`Upcoming`), which depends on the weekday and the time of day:
a row of today has to be later than now, a row of tomorrow not later (`upcoming_iff`).

`getTodaysSchedule` asks the database for the rows of the two days and then filters them by
their times. The filter tests each row against *both* days, and the time of day of a row is
always either still to come today or within a day from now tomorrow, so that it keeps
everything (`isShown_eq`). `todaysSchedule_iff` says when that does no harm.
-/

namespace Maiden

open DateTime

/-- The day of the week, with Sunday as 0. -/
def weekday (t : Int) : Int := (t / dayMillis + 4) % 7

/-- The row can be read: a day of the week, an hour and a minute. -/
structure Schedule.WellFormed (U : Unicode) (s : Schedule) (hour minute : Int) : Prop where
  day : 0 ≤ s.dayOfWeek ∧ s.dayOfWeek ≤ 6
  read : hourAndMinute U s.stopTime = some (hour, minute)
  hour : 0 ≤ hour ∧ hour ≤ 23
  minute : 0 ≤ minute ∧ minute ≤ 59

/-- The instants with a given weekday and time of day. -/
def Departs (s : Schedule) (hour minute t : Int) : Prop :=
  weekday t = s.dayOfWeek ∧ t % dayMillis = hour * hourMillis + minute * minuteMillis

/-- The next departure is at most `MAX_STOP_TIME` minutes after `now`. -/
def Upcoming (s : Schedule) (hour minute now : Int) : Prop :=
  ∃ t, IsLeast {t | now < t ∧ Departs s hour minute t} t ∧
    t ≤ now + Schedule.maxStopTime * minuteMillis

section

variable {U : Unicode} {s : Schedule} {hour minute now : Int}

/-- A departure is an event of the week. -/
theorem departs_iff (h : s.WellFormed U hour minute) {t : Int} :
    Departs s hour minute t ↔ t % (7 * dayMillis) =
      ((s.dayOfWeek - 4) * dayMillis + (hour * hourMillis + minute * minuteMillis)) %
        (7 * dayMillis) := by
  obtain ⟨hday, -, hhour, hminute⟩ := h
  unfold Departs weekday dayMillis hourMillis minuteMillis
  constructor
  · rintro ⟨hweekday, htime⟩
    omega
  · intro hmod
    omega

theorem departures_eq (h : s.WellFormed U hour minute) :
    {t | now < t ∧ Departs s hour minute t} = {t | now + 1 ≤ t ∧ t % (7 * dayMillis) =
      ((s.dayOfWeek - 4) * dayMillis + (hour * hourMillis + minute * minuteMillis)) %
        (7 * dayMillis)} :=
  Set.ext fun _ => and_congr Int.lt_iff_add_one_le (departs_iff h)

/-- The next departure is the first event of the week after now. -/
theorem upcoming_iff_first (h : s.WellFormed U hour minute) :
    Upcoming s hour minute now ↔ Recurrence.first (7 * dayMillis)
      ((s.dayOfWeek - 4) * dayMillis + (hour * hourMillis + minute * minuteMillis)) (now + 1) ≤
        now + Schedule.maxStopTime * minuteMillis := by
  have hleast := Recurrence.isLeast_first (show 0 < 7 * dayMillis by decide)
    ((s.dayOfWeek - 4) * dayMillis + (hour * hourMillis + minute * minuteMillis)) (now + 1)
  unfold Upcoming
  rw [departures_eq h]
  constructor
  · rintro ⟨t, ht, hle⟩
    exact (hleast.unique ht) ▸ hle
  · exact fun hle => ⟨_, hleast, hle⟩

/-- **When a row is upcoming**: later today, or tomorrow and not later in the day than now. -/
theorem upcoming_iff (h : s.WellFormed U hour minute) :
    Upcoming s hour minute now ↔
      (s.dayOfWeek = weekday now ∧ now % dayMillis < hour * hourMillis + minute * minuteMillis) ∨
      (s.dayOfWeek = weekday (plusDays now 1) ∧
        hour * hourMillis + minute * minuteMillis ≤ now % dayMillis) := by
  rw [upcoming_iff_first h]
  obtain ⟨hday, -, hhour, hminute⟩ := h
  unfold Recurrence.first weekday plusDays Schedule.maxStopTime dayMillis hourMillis minuteMillis
  constructor
  · intro hle
    omega
  · intro hcases
    omega

theorem weekday_ne_next (now : Int) : weekday now ≠ weekday (plusDays now 1) := by
  unfold weekday plusDays dayMillis
  omega

theorem dayNumber_eq (t : Int) : Schedule.dayNumber t = weekday t := by
  unfold Schedule.dayNumber getDayOfWeek weekday
  split <;> omega

/-- **The filter keeps every row.** It asks whether the time of day is less than a day ahead,
counted from today or from tomorrow, and never looks at the day of the row. -/
theorem isShown_eq (h : s.WellFormed U hour minute) : Schedule.isShown U now s = .ok true := by
  obtain ⟨-, hread, hhour, hminute⟩ := h
  obtain ⟨t₁, hday₁, htime₁⟩ := withTime hhour hminute now
  obtain ⟨t₂, hday₂, htime₂⟩ := withTime hhour hminute (plusDays now 1)
  unfold Schedule.isShown
  simp only [hread, getOr, hday₁, htime₁, hday₂, htime₂, bind, Except.bind, pure, Except.pure]
  refine congrArg Except.ok ?_
  -- a time of day that is not still to come today comes tomorrow, within a day
  rw [Bool.or_eq_true, Bool.and_eq_true, Bool.and_eq_true]
  simp only [decide_eq_true_iff]
  unfold Schedule.minutesBetween Schedule.maxStopTime atTime plusDays dayMillis hourMillis
    minuteMillis
  rcases lt_or_ge now (now - now % 86400000 + hour * 3600000 + minute * 60000 + now % 60000)
    with hlt | hge
  · refine Or.inl ⟨hlt, ?_⟩
    rw [Int.tdiv_eq_ediv_of_nonneg (by omega)]
    omega
  · refine Or.inr ⟨by omega, ?_⟩
    rw [Int.tdiv_eq_ediv_of_nonneg (by omega)]
    omega

/-- A filter whose test never throws and never fails. -/
theorem filterE_of_forall {p : Schedule → Except Failure Bool} {rows : List Schedule}
    (h : ∀ s ∈ rows, p s = .ok true) : Schedule.filterE p rows = .ok rows := by
  induction rows with
  | nil => rfl
  | cons s rows ih =>
    unfold Schedule.filterE
    rw [h s List.mem_cons_self, ih fun s' hs' => h s' (List.mem_cons_of_mem s hs')]
    rfl

end

/-! ## The whole answer -/

section

variable (le : JString → JString → Prop) [DecidableRel le] (U : Unicode)
  (schedules : Table Schedule) (now stopId : Int)

/-- The rows of the stop are well formed. -/
def StopWellFormed : Prop :=
  ∀ s ∈ schedules.rows, s.stopId = stopId → ∃ hour minute, s.WellFormed U hour minute

/-- The answer is made of exactly the upcoming rows of the stop. -/
def ShowsUpcoming : Prop :=
  ∃ shown : List Schedule, shown.Nodup ∧
    (∀ s, s ∈ shown ↔ s ∈ schedules.rows ∧ s.stopId = stopId ∧
      ∃ hour minute, s.WellFormed U hour minute ∧ Upcoming s hour minute now) ∧
    Schedule.getTodaysSchedule le U schedules now stopId = .ok (shown.map Schedule.departure)

/-- The rows of today are later than now, those of tomorrow are not. -/
def WithinDay (s : Schedule) : Prop :=
  ∀ hour minute, s.WellFormed U hour minute →
    (s.dayOfWeek = weekday now →
      now % dayMillis < hour * hourMillis + minute * minuteMillis) ∧
    (s.dayOfWeek = weekday (plusDays now 1) →
      hour * hourMillis + minute * minuteMillis ≤ now % dayMillis)

/-- All rows of the stop for today and tomorrow, by their texts and then by their days. -/
def todaysRows : List Schedule :=
  ((schedules.fetch fun s => s.stopId == stopId &&
    (s.dayOfWeek == Schedule.dayNumber now ||
      s.dayOfWeek == Schedule.dayNumber (plusDays now 1))).insertionSort
        fun s s' => le s.stopTime s'.stopTime).insertionSort fun s s' => s.dayOfWeek ≤ s'.dayOfWeek

variable {schedules stopId}

theorem mem_todaysRows {s : Schedule} :
    s ∈ todaysRows le schedules now stopId ↔ s ∈ schedules.rows ∧ s.stopId = stopId ∧
      (s.dayOfWeek = weekday now ∨ s.dayOfWeek = weekday (plusDays now 1)) := by
  rw [todaysRows, List.mem_insertionSort, List.mem_insertionSort, Table.mem_fetch,
    Bool.and_eq_true, Bool.or_eq_true, beq_iff_eq, beq_iff_eq, beq_iff_eq, dayNumber_eq,
    dayNumber_eq]

theorem nodup_todaysRows : (todaysRows le schedules now stopId).Nodup := by
  refine (List.perm_insertionSort _ _).nodup_iff.mpr ?_
  refine (List.perm_insertionSort _ _).nodup_iff.mpr ?_
  exact schedules.nodup_fetch _

variable {U}

/-- What is answered. -/
theorem getTodaysSchedule_eq (hrows : StopWellFormed U schedules stopId) :
    Schedule.getTodaysSchedule le U schedules now stopId =
      .ok ((todaysRows le schedules now stopId).map Schedule.departure) := by
  unfold Schedule.getTodaysSchedule
  dsimp only
  rw [filterE_of_forall fun s hs => ?_]
  · rfl
  · have hs' : s ∈ todaysRows le schedules now stopId := (List.mem_insertionSort _).mpr hs
    obtain ⟨hrow, hstop, -⟩ := (mem_todaysRows le now).mp hs'
    obtain ⟨hour, minute, hwf⟩ := hrows s hrow hstop
    exact isShown_eq hwf

variable {le now}

/-- **Today's schedule.** For every table in which the rows of the stop are well formed,
every instant and every order of the database's texts: the answer consists of exactly the
upcoming rows if and only if no row of today has passed and no row of tomorrow is more than
a day away. -/
theorem todaysSchedule_iff (hrows : StopWellFormed U schedules stopId) :
    ShowsUpcoming le U schedules now stopId ↔
      ∀ s ∈ schedules.rows, s.stopId = stopId → WithinDay U now s := by
  have hanswer := getTodaysSchedule_eq le now hrows
  constructor
  · rintro ⟨upcoming, -, hup, hsame⟩ s hrow hstop hour minute hwf
    -- a row of the two days is answered, so it is one of the upcoming ones
    have hupcoming : s.dayOfWeek = weekday now ∨ s.dayOfWeek = weekday (plusDays now 1) →
        Upcoming s hour minute now := by
      intro hday
      have hs := List.mem_map_of_mem (f := Schedule.departure)
        ((mem_todaysRows le now).mpr ⟨hrow, hstop, hday⟩)
      rw [Except.ok.inj (hanswer.symm.trans hsame)] at hs
      obtain ⟨s', hs', heq⟩ := List.mem_map.mp hs
      obtain ⟨hrow', -, hour', minute', hwf', hnext⟩ := (hup s').mp hs'
      obtain rfl : s' = s := Table.eq_of_key_eq hrow' hrow (congrArg Schedule.Departure.id heq)
      obtain ⟨rfl, rfl⟩ := Prod.mk.inj (Option.some.inj (hwf'.read.symm.trans hwf.read))
      exact hnext
    constructor
    · intro hday
      rcases (upcoming_iff hwf).mp (hupcoming (Or.inl hday)) with h | h
      · exact h.2
      · exact absurd (hday.symm.trans h.1) (weekday_ne_next now)
    · intro hday
      rcases (upcoming_iff hwf).mp (hupcoming (Or.inr hday)) with h | h
      · exact absurd (h.1.symm.trans hday) (weekday_ne_next now)
      · exact h.2
  · intro hall
    refine ⟨_, nodup_todaysRows le now, fun s => ?_, hanswer⟩
    rw [mem_todaysRows]
    constructor
    · rintro ⟨hrow, hstop, hday⟩
      obtain ⟨hour, minute, hwf⟩ := hrows s hrow hstop
      obtain ⟨htoday, htomorrow⟩ := hall s hrow hstop hour minute hwf
      refine ⟨hrow, hstop, hour, minute, hwf, (upcoming_iff hwf).mpr ?_⟩
      exact hday.imp (fun h => ⟨h, htoday h⟩) fun h => ⟨h, htomorrow h⟩
    · rintro ⟨hrow, hstop, hour, minute, hwf, hup⟩
      exact ⟨hrow, hstop, ((upcoming_iff hwf).mp hup).imp And.left And.left⟩

end

/-- Thursdays at five past nine. -/
def thursdayBus : Table Schedule := Table.empty.insert
  { routeId := 1, stopId := 1, dayOfWeek := 4, stopTime := js ['9', ':', '0', '5'] }

theorem thursdayBus_wellFormed : StopWellFormed Unicode.ascii thursdayBus 1 := by
  intro s hs _
  obtain rfl := List.mem_singleton.mp hs
  exact ⟨9, 5, by decide, by decide, by decide, by decide⟩

/-- At midnight the bus is still to come. -/
theorem todaysSchedule_midnight :
    StopWellFormed Unicode.ascii thursdayBus 1 ∧
      ShowsUpcoming (· ≤ ·) Unicode.ascii thursdayBus 0 1 := by
  refine ⟨thursdayBus_wellFormed, (todaysSchedule_iff thursdayBus_wellFormed).mpr ?_⟩
  intro s hs _ hour minute hwf
  obtain rfl := List.mem_singleton.mp hs
  obtain ⟨rfl, rfl⟩ : 9 = hour ∧ 5 = minute := Prod.mk.inj (Option.some.inj hwf.read)
  decide

/-- At ten the bus of five past nine is shown, which leaves in a week. -/
theorem departed_bus_shown :
    StopWellFormed Unicode.ascii thursdayBus 1 ∧
      ¬ ShowsUpcoming (· ≤ ·) Unicode.ascii thursdayBus (10 * hourMillis) 1 := by
  refine ⟨thursdayBus_wellFormed, ?_⟩
  rintro ⟨shown, -, hmem, hanswer⟩
  have hcode : Schedule.getTodaysSchedule (· ≤ ·) Unicode.ascii thursdayBus (10 * hourMillis) 1 =
      .ok [⟨4, 1, js ['9', ':', '0', '5']⟩] := by decide
  have hlen : shown.length = 1 := by
    have := congrArg List.length (Except.ok.inj (hanswer.symm.trans hcode))
    rwa [List.length_map] at this
  obtain ⟨s, rfl⟩ := List.length_eq_one_iff.mp hlen
  obtain ⟨hs, -, hour, minute, hwf, hup⟩ := (hmem s).mp List.mem_cons_self
  obtain rfl := List.mem_singleton.mp hs
  obtain ⟨rfl, rfl⟩ : 9 = hour ∧ 5 = minute := Prod.mk.inj (Option.some.inj hwf.read)
  exact absurd ((upcoming_iff hwf).mp hup) (by decide)

end Maiden
