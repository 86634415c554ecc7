import Maiden.Base.StableSort
import Maiden.Routes.Operating
import Maiden.Schedules.Generated
import Maiden.Schedules.Today

/-!
# Is today's schedule in the order of the departures?

`getTodaysSchedule` lets the database sort the rows of the two days by the texts of their
times, and then sorts them by the numbers of their days, which keeps the order of the
texts on each day (`pairwise_todaysRows`). Departures are in another order in three cases:

- a row of today that has departed leaves again in a week, after the rest of today and all
  of tomorrow, but stands among the rows of today;
- from Saturday to Sunday the day number falls back to 0, so that tomorrow comes first;
- the rows of arrivals before ten have no leading zero, those of the first stop and those
  after midnight do, so that `9:05` comes after `10:00`.

Nothing else can go wrong: `chronological_iff` names exactly these.
-/

namespace Maiden

open DateTime StableSort

/-- The order of a text column, as it is documented: a collation orders all texts, and texts
that its language takes for equal are told apart by their bytes. -/
structure TextOrder (le : JString → JString → Prop) : Prop where
  total : ∀ s t, le s t ∨ le t s
  trans : ∀ s t u, le s t → le t u → le s u
  antisymm : ∀ s t, le s t → le t s → s = t

/-! ## Departures -/

section

variable (U : Unicode) (now : Int)

/-- The row departs at the instant, and not before it. -/
def NextDeparture (s : Schedule) (t : Int) : Prop :=
  ∃ hour minute, s.WellFormed U hour minute ∧ IsLeast {t | now < t ∧ Departs s hour minute t} t

/-- The next departure of the first row is not after the one of the second. -/
def NotAfter (s s' : Schedule) : Prop :=
  ∀ t t', NextDeparture U now s t → NextDeparture U now s' t' → t ≤ t'

/-- The time of day of a row, in milliseconds. -/
def timeOfDay (s : Schedule) : Int :=
  match hourAndMinute U s.stopTime with
  | some (hour, minute) => hour * hourMillis + minute * minuteMillis
  | none => 0

/-- The row is one of today, and its time is over. -/
def Departed (s : Schedule) : Prop :=
  s.dayOfWeek = weekday now ∧ timeOfDay U s ≤ now % dayMillis

end

section

variable {U : Unicode} {now : Int} {s s' : Schedule}

theorem Schedule.WellFormed.timeOfDay_eq {hour minute : Int} (h : s.WellFormed U hour minute) :
    timeOfDay U s = hour * hourMillis + minute * minuteMillis := by
  rw [timeOfDay, h.read]

theorem Schedule.WellFormed.timeOfDay_range {hour minute : Int} (h : s.WellFormed U hour minute) :
    0 ≤ timeOfDay U s ∧ timeOfDay U s < dayMillis := by
  rw [h.timeOfDay_eq]
  obtain ⟨-, -, hhour, hminute⟩ := h
  unfold dayMillis hourMillis minuteMillis
  omega

instance : Decidable (Departed U now s) := inferInstanceAs (Decidable (_ ∧ _))

variable (U now s) in
/-- The days from today to the next departure of a row of today or tomorrow: one that has
departed leaves in a week. -/
def daysUntil : Int :=
  if s.dayOfWeek = weekday now then (if Departed U now s then 7 else 0) else 1

variable (U now s) in
theorem daysUntil_cases :
    (Departed U now s ∧ daysUntil U now s = 7) ∨
      (s.dayOfWeek = weekday now ∧ now % dayMillis < timeOfDay U s ∧ daysUntil U now s = 0) ∨
      (s.dayOfWeek ≠ weekday now ∧ daysUntil U now s = 1) := by
  unfold daysUntil
  by_cases htoday : s.dayOfWeek = weekday now
  · rw [if_pos htoday]
    by_cases hgone : Departed U now s
    · exact Or.inl ⟨hgone, if_pos hgone⟩
    · have hlt : now % dayMillis < timeOfDay U s := lt_of_not_ge fun hle => hgone ⟨htoday, hle⟩
      exact Or.inr (Or.inl ⟨htoday, hlt, if_neg hgone⟩)
  · exact Or.inr (Or.inr ⟨htoday, if_neg htoday⟩)

/-- The next departure of a row of today or tomorrow: today if it is still to come, else on the
next such day. -/
theorem nextDeparture_iff {hour minute : Int} (h : s.WellFormed U hour minute)
    (hday : s.dayOfWeek = weekday now ∨ s.dayOfWeek = weekday (plusDays now 1)) {t : Int} :
    NextDeparture U now s t ↔
      t = now - now % dayMillis + daysUntil U now s * dayMillis + timeOfDay U s := by
  have hrange := h.timeOfDay_range
  have hleast : NextDeparture U now s t ↔ now + 1 ≤ t ∧ t < now + 1 + 7 * dayMillis ∧
      t % (7 * dayMillis) = ((s.dayOfWeek - 4) * dayMillis + timeOfDay U s) % (7 * dayMillis) := by
    rw [h.timeOfDay_eq, ← Recurrence.isLeast_iff (by decide), ← departures_eq h]
    refine ⟨fun ⟨hour', minute', h', ht⟩ => ?_, fun ht => ⟨hour, minute, h, ht⟩⟩
    -- a row can be read in one way only
    obtain ⟨rfl, rfl⟩ := Prod.mk.inj (Option.some.inj (h'.read.symm.trans h.read))
    exact ht
  have hcases := daysUntil_cases U now s
  rw [hleast]
  unfold Departed at hcases
  unfold weekday plusDays at *
  unfold dayMillis at *
  rcases hcases with ⟨⟨htoday, hle⟩, hdays⟩ | ⟨htoday, hlt, hdays⟩ | ⟨hother, hdays⟩
  · omega
  · omega
  · omega

/-- Departures are compared by the day and then by the time of day, as the times of a day are less
than one day apart. -/
theorem notAfter_iff {hour minute hour' minute' : Int} (h : s.WellFormed U hour minute)
    (h' : s'.WellFormed U hour' minute')
    (hday : s.dayOfWeek = weekday now ∨ s.dayOfWeek = weekday (plusDays now 1))
    (hday' : s'.dayOfWeek = weekday now ∨ s'.dayOfWeek = weekday (plusDays now 1)) :
    NotAfter U now s s' ↔ daysUntil U now s < daysUntil U now s' ∨
      (daysUntil U now s = daysUntil U now s' ∧ timeOfDay U s ≤ timeOfDay U s') := by
  have hrange := h.timeOfDay_range
  have hrange' := h'.timeOfDay_range
  have hnext : NotAfter U now s s' ↔
      daysUntil U now s * dayMillis + timeOfDay U s ≤
        daysUntil U now s' * dayMillis + timeOfDay U s' := by
    refine ⟨fun hle => ?_, fun hle t t' ht ht' => ?_⟩
    · have := hle _ _ ((nextDeparture_iff h hday).mpr rfl) ((nextDeparture_iff h' hday').mpr rfl)
      omega
    · rw [(nextDeparture_iff h hday).mp ht, (nextDeparture_iff h' hday').mp ht']
      omega
  rw [hnext]
  unfold dayMillis at *
  omega

/-- On one day, what has departed comes after what has not. -/
theorem notAfter_same_day {hour minute hour' minute' : Int} (h : s.WellFormed U hour minute)
    (h' : s'.WellFormed U hour' minute')
    (hday : s.dayOfWeek = weekday now ∨ s.dayOfWeek = weekday (plusDays now 1))
    (hsame : s.dayOfWeek = s'.dayOfWeek) :
    NotAfter U now s s' ↔ (Departed U now s → Departed U now s') ∧
      ((Departed U now s ↔ Departed U now s') → timeOfDay U s ≤ timeOfDay U s') := by
  rw [notAfter_iff h h' hday (hsame ▸ hday)]
  have hcases := daysUntil_cases U now s
  have hcases' := daysUntil_cases U now s'
  unfold Departed at *
  omega

/-- What departs today comes before tomorrow, and what has departed after it. -/
theorem notAfter_next_day {hour minute hour' minute' : Int} (h : s.WellFormed U hour minute)
    (h' : s'.WellFormed U hour' minute') (hday : s.dayOfWeek = weekday now)
    (hday' : s'.dayOfWeek = weekday (plusDays now 1)) :
    (NotAfter U now s s' ↔ ¬Departed U now s) ∧ (NotAfter U now s' s ↔ Departed U now s) := by
  rw [notAfter_iff h h' (Or.inl hday) (Or.inr hday'),
    notAfter_iff h' h (Or.inr hday') (Or.inl hday)]
  have hcases := daysUntil_cases U now s
  have hcases' := daysUntil_cases U now s'
  have hne := weekday_ne_next now
  unfold Departed at *
  omega

variable (now) in
theorem weekday_lt_next_iff : weekday now < weekday (plusDays now 1) ↔ weekday now ≠ 6 := by
  unfold weekday plusDays dayMillis
  omega

/-- Two rows of different days: which one is listed first depends on the day alone, and which
one leaves first on whether the row of today has departed. -/
theorem two_days_iff {le : JString → JString → Prop} {hour minute hour' minute' : Int}
    (h : s.WellFormed U hour minute) (h' : s'.WellFormed U hour' minute')
    (hday : s.dayOfWeek = weekday now) (hday' : s'.dayOfWeek = weekday (plusDays now 1)) :
    ((ByKey Schedule.dayOfWeek (fun s s' => le s.stopTime s'.stopTime) s s' →
        NotAfter U now s s') ∧
      (ByKey Schedule.dayOfWeek (fun s s' => le s.stopTime s'.stopTime) s' s →
        NotAfter U now s' s)) ↔ (Departed U now s ↔ weekday now = 6) := by
  have hne := weekday_ne_next now
  have hlt := weekday_lt_next_iff now
  have hgt : weekday (plusDays now 1) < weekday now ↔ weekday now = 6 := by omega
  obtain ⟨hbefore, hafter⟩ := notAfter_next_day h h' hday hday'
  rw [byKey_iff_of_ne (by rwa [hday, hday']), byKey_iff_of_ne (by rw [hday, hday']; exact hne.symm),
    hday, hday', hlt, hgt, hbefore, hafter]
  -- Saturday is followed by the day with number 0, which the query lists first
  by_cases hsat : weekday now = 6
  · simp [hsat]
  · simp [hsat]

end

/-! ## The whole answer -/

section

variable (le : JString → JString → Prop) [DecidableRel le] (U : Unicode)
  (schedules : Table Schedule) (now stopId : Int)

/-- The answer is in the order of the next departures. -/
def Chronological : Prop :=
  ∃ answer, Schedule.getTodaysSchedule le U schedules now stopId = .ok answer ∧
    answer.Pairwise fun d d' => ∀ s ∈ schedules.rows, ∀ s' ∈ schedules.rows,
      s.id = d.id → s'.id = d'.id → NotAfter U now s s'

/-- The row is one of the stop, for today or tomorrow. -/
def Listed (s : Schedule) : Prop :=
  s ∈ schedules.rows ∧ s.stopId = stopId ∧
    (s.dayOfWeek = weekday now ∨ s.dayOfWeek = weekday (plusDays now 1))

/-- The texts and day numbers of the rows are in the order of the departures: on one day no
row that has departed comes by its text before one that has not, the others come in the
order of their times, and if there are rows for both days, then none of today has
departed, or it is Saturday and all of them have. -/
structure SortsByTime : Prop where
  same_day : ∀ s s', Listed schedules now stopId s → Listed schedules now stopId s' →
    s.dayOfWeek = s'.dayOfWeek → le s.stopTime s'.stopTime →
      (Departed U now s → Departed U now s') ∧
        ((Departed U now s ↔ Departed U now s') → timeOfDay U s ≤ timeOfDay U s')
  two_days : ∀ s s', Listed schedules now stopId s → Listed schedules now stopId s' →
    s.dayOfWeek = weekday now → s'.dayOfWeek = weekday (plusDays now 1) →
      (Departed U now s ↔ weekday now = 6)

variable {le U schedules now stopId}

/-- The rows are sorted by their days, and on each day by their texts. -/
theorem pairwise_todaysRows (hle : TextOrder le) :
    (todaysRows le schedules now stopId).Pairwise
      (ByKey Schedule.dayOfWeek fun s s' => le s.stopTime s'.stopTime) := by
  have : Std.Total fun s s' : Schedule => le s.stopTime s'.stopTime := ⟨fun _ _ => hle.total _ _⟩
  have : IsTrans Schedule fun s s' => le s.stopTime s'.stopTime := ⟨fun _ _ _ => hle.trans _ _ _⟩
  exact pairwise_insertionSort (List.pairwise_insertionSort _ _)

/-- An element of the answer has the id of its row, and of no other. -/
theorem chronological_iff_pairwise (hrows : StopWellFormed U schedules stopId) :
    Chronological le U schedules now stopId ↔
      (todaysRows le schedules now stopId).Pairwise (NotAfter U now) := by
  have hpair : Chronological le U schedules now stopId ↔
      ((todaysRows le schedules now stopId).map Schedule.departure).Pairwise fun d d' =>
        ∀ s ∈ schedules.rows, ∀ s' ∈ schedules.rows, s.id = d.id → s'.id = d'.id →
          NotAfter U now s s' := by
    unfold Chronological
    rw [getTodaysSchedule_eq le now hrows]
    refine ⟨fun ⟨answer, hanswer, h⟩ => ?_, fun h => ⟨_, rfl, h⟩⟩
    rwa [← Except.ok.inj hanswer] at h
  rw [hpair, List.pairwise_map]
  refine ⟨fun h => h.imp_of_mem fun hs hs' hall => ?_, fun h => h.imp_of_mem ?_⟩
  · exact hall _ ((mem_todaysRows le now).mp hs).1 _ ((mem_todaysRows le now).mp hs').1 rfl rfl
  · intro r r' hr hr' hle s hs s' hs' hid hid'
    -- ids are unique, so that the rows of an answer can be named by them
    obtain rfl : s = r := Table.eq_of_key_eq hs ((mem_todaysRows le now).mp hr).1 hid
    obtain rfl : s' = r' := Table.eq_of_key_eq hs' ((mem_todaysRows le now).mp hr').1 hid'
    exact hle

/-- The answer is in order if every two rows are, as the sorts arrange them. -/
theorem chronological_iff_forall (hle : TextOrder le)
    (hrows : StopWellFormed U schedules stopId) :
    Chronological le U schedules now stopId ↔
      ∀ s, Listed schedules now stopId s → ∀ s', Listed schedules now stopId s' →
        ByKey Schedule.dayOfWeek (fun s s' => le s.stopTime s'.stopTime) s s' →
          NotAfter U now s s' := by
  have htie : ∀ s ∈ todaysRows le schedules now stopId,
      ∀ s' ∈ todaysRows le schedules now stopId,
        ByKey Schedule.dayOfWeek (fun s s' => le s.stopTime s'.stopTime) s s' →
        ByKey Schedule.dayOfWeek (fun s s' => le s.stopTime s'.stopTime) s' s →
          NotAfter U now s s' := by
    -- the same day and the same text, so the same time
    intro s hs s' hs' hss hss'
    obtain ⟨hday, hle₁, hle₂⟩ := hss.tie hss'
    have htext : s.stopTime = s'.stopTime := hle.antisymm _ _ hle₁ hle₂
    obtain ⟨hrow, hstop, hdays⟩ := (mem_todaysRows le now).mp hs
    obtain ⟨hrow', hstop', -⟩ := (mem_todaysRows le now).mp hs'
    obtain ⟨hour, minute, hwf⟩ := hrows s hrow hstop
    obtain ⟨hour', minute', hwf'⟩ := hrows s' hrow' hstop'
    have htime : timeOfDay U s = timeOfDay U s' := by rw [timeOfDay, timeOfDay, htext]
    rw [notAfter_same_day hwf hwf' hdays hday]
    refine ⟨fun h => ⟨hday ▸ h.1, htime ▸ h.2⟩, fun _ => le_of_eq htime⟩
  rw [chronological_iff_pairwise hrows, pairwise_iff_forall (pairwise_todaysRows hle) htie]
  simp only [mem_todaysRows]
  rfl

/-- **The order of today's schedule.** For every table in which the rows of the stop are
well formed, every instant and every collation: the answer is in the order of the next
departures if and only if the texts and the day numbers of its rows are. -/
theorem chronological_iff (hle : TextOrder le) (hrows : StopWellFormed U schedules stopId) :
    Chronological le U schedules now stopId ↔ SortsByTime le U schedules now stopId := by
  rw [chronological_iff_forall hle hrows]
  constructor
  · intro h
    refine ⟨fun s s' hs hs' hday htext => ?_, fun s s' hs hs' hday hday' => ?_⟩
    · -- two rows of one day are compared by their texts alone
      obtain ⟨hour, minute, hwf⟩ := hrows s hs.1 hs.2.1
      obtain ⟨hour', minute', hwf'⟩ := hrows s' hs'.1 hs'.2.1
      exact (notAfter_same_day hwf hwf' hs.2.2 hday).mp (h s hs s' hs' (Or.inr ⟨hday, htext⟩))
    · obtain ⟨hour, minute, hwf⟩ := hrows s hs.1 hs.2.1
      obtain ⟨hour', minute', hwf'⟩ := hrows s' hs'.1 hs'.2.1
      exact (two_days_iff hwf hwf' hday hday').mp ⟨h s hs s' hs', h s' hs' s hs⟩
  · intro h s hs s' hs' hkey
    obtain ⟨hour, minute, hwf⟩ := hrows s hs.1 hs.2.1
    obtain ⟨hour', minute', hwf'⟩ := hrows s' hs'.1 hs'.2.1
    by_cases hday : s.dayOfWeek = s'.dayOfWeek
    · have htext := (hkey.resolve_left (not_lt_of_ge (le_of_eq hday.symm))).2
      exact (notAfter_same_day hwf hwf' hs.2.2 hday).mpr (h.same_day s s' hs hs' hday htext)
    · -- one of them is today's and the other one tomorrow's
      rcases hs.2.2, hs'.2.2 with ⟨htoday | htomorrow, htoday' | htomorrow'⟩
      · exact absurd (htoday.trans htoday'.symm) hday
      · exact ((two_days_iff hwf hwf' htoday htomorrow').mpr
          (h.two_days s s' hs hs' htoday htomorrow')).1 hkey
      · exact ((two_days_iff hwf' hwf htoday' htomorrow).mpr
          (h.two_days s' s hs' hs htoday' htomorrow)).2 hkey
      · exact absurd (htomorrow.trans htomorrow'.symm) hday

end

/-- The order by the first difference is one. -/
theorem textOrder_lexLe : TextOrder fun s t => lexLe s t = true :=
  ⟨lexLe_total, fun _ _ _ => lexLe_trans, fun _ _ => lexLe_antisymm⟩

theorem Schedule.Means.wellFormed {U : Unicode} {s : Schedule} {t : Int} (h : s.Means U t) :
    ∃ hour minute, s.WellFormed U hour minute := by
  obtain ⟨hour, minute, hclock, hread, -⟩ := h.clock
  exact ⟨hour, minute, h.day_range, hread, hclock.hour_range, hclock.minute_range⟩

/-- A run of the generator adds well-formed rows, as long as it stays within its two days. -/
theorem StopWellFormed.generateSchedule {U : Unicode} {schedules : Table Schedule} {stopId : Int}
    (hrows : StopWellFormed U schedules stopId) (env : ScheduleEnv) (stops : Table Stop)
    {a : ScheduleArgs} (ha : a.Valid) {fuel : Nat}
    (hwithin : ∀ e ∈ (Schedule.generateSchedule env stops schedules a fuel).1.written,
      0 ≤ e.minute ∧ a.startHour * 60 + e.minute < 2880) :
    StopWellFormed U (Schedule.generateSchedule env stops schedules a fuel).1.schedules
      stopId := by
  have hrun : (Schedule.generateSchedule env stops schedules a fuel).1.Recorded U a schedules :=
    recorded_generateSchedule ha stops fuel
  intro s hs hstop
  rcases (hrun.rows s).mp hs with hold | ⟨e, he, rfl⟩
  · exact hrows s hold hstop
  · exact ((hrun.written e he).means (hwithin e he).1 (hwithin e he).2).wellFormed

/-- The rows of a night from Saturday half past eleven on, which reaches Sunday. -/
def nightRows : Table Schedule :=
  (Schedule.generateSchedule tenMinutes twoStops Table.empty lateShift 1).1.schedules

theorem nightRows_wellFormed : StopWellFormed Unicode.ascii nightRows 1 := by
  have hempty : StopWellFormed Unicode.ascii Table.empty 1 := fun _ hs => nomatch hs
  exact hempty.generateSchedule tenMinutes twoStops ⟨by decide, by decide, by decide⟩ (by decide)

/-- At a quarter to midnight the bus of half past eleven has left, and the next one is that
of Sunday. -/
theorem chronological_late :
    StopWellFormed Unicode.ascii nightRows 1 ∧
      Chronological (fun s t => lexLe s t = true) Unicode.ascii nightRows
        (2 * dayMillis + 23 * hourMillis + 45 * minuteMillis) 1 := by
  refine ⟨nightRows_wellFormed,
    (chronological_iff textOrder_lexLe nightRows_wellFormed).mpr ⟨?_, ?_⟩⟩
  · have hall : ∀ s ∈ nightRows.rows, ∀ s' ∈ nightRows.rows, s.stopId = 1 → s'.stopId = 1 →
        s.dayOfWeek = s'.dayOfWeek → s = s' := by decide
    intro s s' hs hs' hday _
    obtain rfl := hall s hs.1 s' hs'.1 hs.2.1 hs'.2.1 hday
    exact ⟨id, fun _ => le_refl _⟩
  · have hall : ∀ s ∈ nightRows.rows, s.stopId = 1 → s.dayOfWeek = 6 →
        Departed Unicode.ascii (2 * dayMillis + 23 * hourMillis + 45 * minuteMillis) s := by decide
    intro s s' hs _ hday _
    exact iff_of_true (hall s hs.1 hs.2.1 hday) rfl

/-- On Saturday at noon the bus of Sunday comes before the one of tonight. -/
theorem sunday_listed_first :
    lateShift.Valid ∧
      Schedule.getTodaysSchedule (fun s t => lexLe s t = true) Unicode.ascii nightRows
          (2 * dayMillis + 12 * hourMillis) 1 =
        .ok [⟨0, 3, js ['0', '0', ':', '1', '4']⟩, ⟨6, 1, js ['2', '3', ':', '3', '0']⟩] ∧
      ¬Chronological (fun s t => lexLe s t = true) Unicode.ascii nightRows
        (2 * dayMillis + 12 * hourMillis) 1 := by
  refine ⟨⟨by decide, by decide, by decide⟩, by decide, fun h => ?_⟩
  have hsat : weekday (2 * dayMillis + 12 * hourMillis) = 6 := by decide
  have hsun : weekday (plusDays (2 * dayMillis + 12 * hourMillis) 1) = 0 := by decide
  obtain ⟨s, hs, hstop, hday, hleft⟩ : ∃ s ∈ nightRows.rows, s.stopId = 1 ∧ s.dayOfWeek = 6 ∧
      ¬Departed Unicode.ascii (2 * dayMillis + 12 * hourMillis) s := by decide
  obtain ⟨s', hs', hstop', hday'⟩ : ∃ s ∈ nightRows.rows, s.stopId = 1 ∧ s.dayOfWeek = 0 := by
    decide
  obtain ⟨hour, minute, hwf⟩ := nightRows_wellFormed s hs hstop
  obtain ⟨hour', minute', hwf'⟩ := nightRows_wellFormed s' hs' hstop'
  have htoday := hday.trans hsat.symm
  have htomorrow := hday'.trans hsun.symm
  have hfirst : s'.dayOfWeek < s.dayOfWeek := by
    rw [hday, hday']
    decide
  have hnotAfter := (chronological_iff_forall textOrder_lexLe nightRows_wellFormed).mp h
    s' ⟨hs', hstop', Or.inr htomorrow⟩ s ⟨hs, hstop, Or.inl htoday⟩ (Or.inl hfirst)
  exact hleft ((notAfter_next_day hwf hwf' htoday htomorrow).2.mp hnotAfter)

end Maiden
