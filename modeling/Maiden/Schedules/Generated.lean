import Maiden.Models.Schedule

/-!
# What the rows of a timetable mean

Every row that `generateSchedule` writes for day `D` at minute `m`, counted from the full
start hour, should name the moment `m` minutes after the start of hour `startHour` of day
`D`. Up to two days after the start of `D` it does (`generateSchedule_means`).

The moments that count are those of exact arithmetic: `accumulated` is the sum of the
legs' minutes, in which nothing wraps. The counter of the code agrees with it as long as
the sum is within the two days (`Entry.Sound.counter`). A travel time that makes the counter wrap
is far beyond them. For a row it is its own counter that matters, and a row is right
whenever its counter is not negative and within the two days (`means_arrival`).

The result for the whole run is one invariant, `Progress.Sound`, which each write keeps
(`Progress.Sound.save`); legs, rounds and days add nothing but their loops.
-/

namespace Maiden

open Loop JString

/-! ## Times of day -/

/-- The text of an hour and a minute, as `H:MM` or `HH:MM`. -/
structure IsClock (text : JString) (hour minute : Int) : Prop where
  hour_range : 0 ≤ hour ∧ hour ≤ 23
  minute_range : 0 ≤ minute ∧ minute ≤ 59
  text_eq : text = ofInt hour ++ jc ':' :: format02 minute ∨
    text = format02 hour ++ jc ':' :: format02 minute

theorem colon_not_mem_ofInt (i : Int) : jc ':' ∉ ofInt i := by
  have hdecimal : ∀ n, jc ':' ∉ toDecimal n := fun n h =>
    absurd (isAsciiDigit_of_mem_toDecimal h) (by decide)
  unfold ofInt
  split
  · exact List.not_mem_cons_of_ne_of_not_mem (by decide) (hdecimal _)
  · exact hdecimal _

theorem colon_not_mem_format02 (i : Int) : jc ':' ∉ format02 i := by
  unfold format02
  split
  · exact List.not_mem_cons_of_ne_of_not_mem (by decide) (colon_not_mem_ofInt i)
  · exact colon_not_mem_ofInt i

/-- Two numbers around a colon are read back. -/
theorem hourAndMinute_append {U : Unicode} {h m : JString} {hour minute : Int}
    (hh : jc ':' ∉ h) (hm : jc ':' ∉ m) (hhour : toInt U h = some hour)
    (hminute : toInt U m = some minute) :
    hourAndMinute U (h ++ jc ':' :: m) = some (hour, minute) := by
  have hsplit : (h ++ jc ':' :: m).splitOn (jc ':') = [h, m] := by
    have hno : ∀ {s : JString}, jc ':' ∉ s → ∀ c ∈ s, (c == jc ':') = false :=
      fun hs c hc => beq_eq_false_iff_ne.mpr fun heq => hs (heq ▸ hc)
    unfold List.splitOn
    rw [List.splitOnP_append_cons_of_forall_mem (hno hh) _ (by decide),
      List.splitOnP_eq_singleton (hno hm)]
  unfold hourAndMinute
  rw [hsplit]
  simp only [hhour, hminute]

/-- What is written is what is read. -/
theorem IsClock.read {text : JString} {hour minute : Int} (h : IsClock text hour minute)
    (U : Unicode) : hourAndMinute U text = some (hour, minute) := by
  obtain ⟨⟨hlo, hhi⟩, ⟨mlo, mhi⟩, htext⟩ := h
  have hminute := toInt_format02 U mlo (by omega)
  rcases htext with rfl | rfl
  · exact hourAndMinute_append (colon_not_mem_ofInt _) (colon_not_mem_format02 _)
      (toInt_ofInt U hlo (by omega)) hminute
  · exact hourAndMinute_append (colon_not_mem_format02 _) (colon_not_mem_format02 _)
      (toInt_format02 U hlo (by omega)) hminute

/-- The row stands for the minute `t` of the week, and its readers take it so. -/
structure Schedule.Means (U : Unicode) (row : Schedule) (t : Int) : Prop where
  day_range : 0 ≤ row.dayOfWeek ∧ row.dayOfWeek ≤ 6
  clock : ∃ hour minute, IsClock row.stopTime hour minute ∧
    hourAndMinute U row.stopTime = some (hour, minute) ∧
    (row.dayOfWeek * 1440 + hour * 60 + minute) % 10080 = t % 10080

/-- Only the day and the time of a row matter. -/
theorem Schedule.Means.congr {U : Unicode} {row row' : Schedule} {t : Int}
    (h : row.Means U t) (heq : (row'.dayOfWeek, row'.stopTime) = (row.dayOfWeek, row.stopTime)) :
    row'.Means U t := by
  obtain ⟨hday, htime⟩ := Prod.mk.inj heq
  exact ⟨hday ▸ h.day_range, by rw [hday, htime]; exact h.clock⟩

/-! ## One row -/

section

variable {a : ScheduleArgs} {day : Int}

/-- The hypotheses on the arguments: the start is a time of day, the days are weekdays. -/
structure ScheduleArgs.Valid (a : ScheduleArgs) : Prop where
  days : ∀ day ∈ a.days, 0 ≤ day ∧ day ≤ 6
  hour : 0 ≤ a.startHour ∧ a.startHour ≤ 23
  minute : 0 ≤ a.startMinute ∧ a.startMinute ≤ 59

theorem means_initialStop (U : Unicode) (ha : a.Valid) (hday : day ∈ a.days) (first : Stop) :
    (Schedule.initialStop a day first).Means U
      (day * 1440 + a.startHour * 60 + a.startMinute) := by
  have hclock : IsClock (Schedule.initialStop a day first).stopTime a.startHour a.startMinute :=
    ⟨ha.hour, ha.minute, Or.inr rfl⟩
  exact ⟨ha.days day hday, a.startHour, a.startMinute, hclock, hclock.read U, rfl⟩

/-- **The row of an arrival**: hour and day roll over once, which is enough for two days. -/
theorem means_arrival (U : Unicode) (ha : a.Valid) (hday : day ∈ a.days) (tripCounter : Int)
    (nextStop : Stop) {minute : Int} (hlo : 0 ≤ minute)
    (hhi : a.startHour * 60 + minute < 2880) :
    (Schedule.arrival a day tripCounter nextStop minute).Means U
      (day * 1440 + a.startHour * 60 + minute) := by
  obtain ⟨dlo, dhi⟩ := ha.days day hday
  obtain ⟨slo, shi⟩ := ha.hour
  have hdiv : minute.tdiv 60 = minute / 60 := Int.tdiv_eq_ediv_of_nonneg hlo
  have hmod : minute.tmod 60 = minute % 60 := Int.tmod_eq_emod_of_nonneg hlo
  have hhour : int32 (a.startHour + minute.tdiv 60) = a.startHour + minute / 60 := by
    rw [hdiv]
    exact int32_of_range (by omega) (by omega)
  -- no sum of these leaves the machine integers
  have hnext : int32 (day + 1) = day + 1 := int32_of_range (by omega) (by omega)
  have hm : 0 ≤ minute % 60 ∧ minute % 60 ≤ 59 := by omega
  unfold Schedule.arrival
  rw [hhour, hmod, hnext]
  by_cases hlate : 24 ≤ a.startHour + minute / 60
  · -- past midnight: the next day, at the hour less 24
    have hclock : IsClock (format02 (a.startHour + minute / 60 - 24) ++
        jc ':' :: format02 (minute % 60)) (a.startHour + minute / 60 - 24) (minute % 60) :=
      ⟨by omega, hm, Or.inr rfl⟩
    simp only [if_pos hlate]
    refine ⟨?_, _, _, hclock, hclock.read U, ?_⟩
    · show 0 ≤ (if day + 1 = 7 then 0 else day + 1) ∧ (if day + 1 = 7 then 0 else day + 1) ≤ 6
      split <;> omega
    · show ((if day + 1 = 7 then 0 else day + 1) * 1440 + _ + _) % 10080 = _
      split <;> omega
  · have hclock : IsClock (ofInt (a.startHour + minute / 60) ++ jc ':' :: format02 (minute % 60))
        (a.startHour + minute / 60) (minute % 60) :=
      ⟨by omega, hm, Or.inl rfl⟩
    simp only [if_neg hlate]
    refine ⟨⟨dlo, dhi⟩, _, _, hclock, hclock.read U, ?_⟩
    show (day * 1440 + _ + _) % 10080 = _
    omega

end

/-! ## The counter -/

/-- The whole minutes of a leg: the doubled travel time, and two minutes for each stop. -/
def Leg.minutes (leg : Leg) : Int := (2 * leg.totalTime + 120 * leg.stops) / 60

/-- The minutes since the full start hour after the given legs. -/
def accumulated (a : ScheduleArgs) (legs : List Leg) : Int :=
  a.startMinute + (legs.map Leg.minutes).sum

@[simp] theorem accumulated_nil (a : ScheduleArgs) : accumulated a [] = a.startMinute := by
  simp [accumulated]

theorem accumulated_snoc (a : ScheduleArgs) (legs : List Leg) (leg : Leg) :
    accumulated a (legs ++ [leg]) = accumulated a legs + leg.minutes := by
  unfold accumulated
  rw [List.map_append, List.sum_append, List.map_singleton, List.sum_singleton]
  omega

/-- A leg within the two days is computed without wrapping or rounding. -/
theorem legEta_of_lt {leg : Leg} (h : 0 ≤ leg.totalTime) (hlt : leg.minutes < 2880) :
    (Schedule.legEta leg).tdiv 60 = leg.minutes := by
  have hsum : 2 * leg.totalTime + 120 * leg.stops < 2880 * 60 := by
    unfold Leg.minutes at hlt
    omega
  have hdoubled : Schedule.doubledTime leg.totalTime = leg.totalTime * 2 :=
    int32_of_range (by omega) (by omega)
  have hstops : int32 (leg.stops * 120) = leg.stops * 120 :=
    int32_of_range (by omega) (by omega)
  have heta : Schedule.legEta leg = 2 * leg.totalTime + 120 * leg.stops := by
    unfold Schedule.legEta
    rw [hdoubled, hstops, round_of_lt (by omega), int32_of_range (by omega) (by omega)]
    omega
  rw [heta]
  exact Int.tdiv_eq_ediv_of_nonneg (by omega)

/-! ## A whole run -/

/-- What is known of a write: the counter is the exact sum while the sum is within the two
days, and the row means its counter while that is within them. -/
structure Entry.Sound (U : Unicode) (a : ScheduleArgs) (e : Entry) : Prop where
  day : e.day ∈ a.days
  nonneg : 0 ≤ accumulated a e.legs
  counter : a.startHour * 60 + accumulated a e.legs < 2880 → e.minute = accumulated a e.legs
  means : 0 ≤ e.minute → a.startHour * 60 + e.minute < 2880 →
    e.row.Means U (e.day * 1440 + a.startHour * 60 + e.minute)

/-- The invariant of a run that found the rows of `before`. -/
structure Progress.Recorded (U : Unicode) (a : ScheduleArgs) (before : Table Schedule)
    (p : Progress) : Prop where
  written : ∀ e ∈ p.written, e.Sound U a
  rows : ∀ r, r ∈ p.schedules.rows ↔ r ∈ before.rows ∨ ∃ e ∈ p.written, e.row = r

/-- The invariant within a day. -/
structure Progress.Sound (U : Unicode) (a : ScheduleArgs) (before : Table Schedule)
    (p : Progress) : Prop extends p.Recorded U a before where
  legs : ∀ leg ∈ p.legs, 0 ≤ leg.totalTime
  counter : a.startHour * 60 + accumulated a p.legs < 2880 → p.minute = accumulated a p.legs

section

variable {U : Unicode} {env : ScheduleEnv} {a : ScheduleArgs} {before : Table Schedule}
  {stops : List Stop} {day : Int} {p : Progress}

theorem minutes_nonneg {leg : Leg} (h : 0 ≤ leg.totalTime) : 0 ≤ leg.minutes := by
  unfold Leg.minutes
  omega

theorem Progress.Sound.accumulated_nonneg (hp : p.Sound U a before) (ha : a.Valid) :
    0 ≤ accumulated a p.legs := by
  have hsum : 0 ≤ (p.legs.map Leg.minutes).sum := by
    refine List.sum_nonneg fun x hx => ?_
    obtain ⟨leg, hleg, rfl⟩ := List.mem_map.mp hx
    exact minutes_nonneg (hp.legs leg hleg)
  have := ha.minute.1
  unfold accumulated
  omega

/-- A new row that means the counter can be written. A row that does not fit is refused, and then
nothing has changed. -/
theorem Progress.Sound.save (hp : p.Sound U a before) (ha : a.Valid) (hday : day ∈ a.days)
    {row : Schedule} (hid : row.id = 0)
    (hrow : 0 ≤ p.minute → a.startHour * 60 + p.minute < 2880 →
      row.Means U (day * 1440 + a.startHour * 60 + p.minute)) :
    (Schedule.save env day p row).1.Sound U a before := by
  unfold Schedule.save
  split
  · refine ⟨⟨fun e he => ?_, fun r => ?_⟩, hp.legs, hp.counter⟩
    · rcases List.mem_append.mp he with he | he
      · exact hp.written e he
      · obtain rfl := List.mem_singleton.mp he
        -- the entry records the legs and the minute at which its row was written
        refine ⟨hday, hp.accumulated_nonneg ha, hp.counter, fun hlo hhi => ?_⟩
        exact (hrow hlo hhi).congr (upsert_saved (fun s : Schedule => (s.dayOfWeek, s.stopTime))
          (fun _ _ => rfl) (fun _ _ _ => rfl) _ _ _)
    · dsimp only
      rw [upsert_new _ _ (show Keyed.key row = 0 from hid), Table.mem_insert, hp.rows r]
      constructor
      · rintro ((hr | ⟨e, he, heq⟩) | rfl)
        · exact Or.inl hr
        · exact Or.inr ⟨e, List.mem_append_left _ he, heq⟩
        · exact Or.inr ⟨_, List.mem_append_right _ (List.mem_singleton.mpr rfl), rfl⟩
      · rintro (hr | ⟨e, he, heq⟩)
        · exact Or.inl (Or.inl hr)
        · rcases List.mem_append.mp he with he | he
          · exact Or.inl (Or.inr ⟨e, he, heq⟩)
          · obtain rfl := List.mem_singleton.mp he
            exact Or.inr heq.symm
  · exact hp

theorem travelTime_nonneg {request : Nat} {stop : Stop} {inBetween : List Stop} {t : Int}
    (h : Schedule.travelTime env request stop inBetween = .ok t) : 0 ≤ t := by
  obtain ⟨start, -, h⟩ := bind_eq_ok.mp h
  obtain ⟨points, -, h⟩ := bind_eq_ok.mp h
  exact (env.totalTime_range _ _ _ _ (getOr_eq_ok.mp h)).1

/-- The counter stays exact when a leg is added. -/
theorem Progress.Sound.snoc (hp : p.Sound U a before) (ha : a.Valid) {leg : Leg}
    (hleg : 0 ≤ leg.totalTime) :
    Progress.Sound U a before { p with
      minute := int32 (p.minute + (Schedule.legEta leg).tdiv 60)
      requests := p.requests + 1
      legs := p.legs ++ [leg] } := by
  refine ⟨⟨hp.written, hp.rows⟩, fun l hl => ?_, fun hlt => ?_⟩
  · rcases List.mem_append.mp hl with hl | hl
    · exact hp.legs l hl
    · rw [List.mem_singleton.mp hl]
      exact hleg
  · dsimp only at hlt ⊢
    rw [accumulated_snoc] at hlt ⊢
    -- both summands are within the two days, so that nothing has wrapped
    have hsum := hp.accumulated_nonneg ha
    have hminutes := minutes_nonneg hleg
    have hhour := ha.hour.1
    rw [legEta_of_lt hleg (by omega), hp.counter (by omega)]
    exact int32_of_range (by omega) (by omega)

/-- One leg. -/
theorem Progress.Sound.drive (hp : p.Sound U a before) (ha : a.Valid) (hday : day ∈ a.days)
    (ends : Stop × Stop) : (Schedule.drive env a stops day p ends).1.Sound U a before := by
  unfold Schedule.drive
  dsimp only
  split
  · exact hp
  · next t ht =>
    exact (hp.snoc ha (travelTime_nonneg ht)).save ha hday rfl (means_arrival U ha hday _ _)

/-- One round. -/
theorem Progress.Sound.cycle (hp : p.Sound U a before) (ha : a.Valid) (hday : day ∈ a.days) :
    (Schedule.cycle env a stops day p).1.Sound U a before := by
  have hround : (forEach (Schedule.drive env a stops day) p
      (stops.zip (stops.tail ++ stops.take 1))).1.Sound U a before :=
    forEach_induct (fun _ ends _ hq => hq.drive ha hday ends) p hp
  unfold Schedule.cycle
  split
  · next p' hp' =>
    rw [hp'] at hround
    exact ⟨⟨hround.written, hround.rows⟩, hround.legs, hround.counter⟩
  · exact hround

/-- One day. The counter starts again from the starting minute, so what holds of it holds anew;
what has been recorded on earlier days stays. -/
theorem Progress.Recorded.generateDay (hp : p.Recorded U a before) (ha : a.Valid)
    (hday : day ∈ a.days) (fuel : Nat) :
    (Schedule.generateDay env a stops fuel p day).1.Recorded U a before := by
  have hstart : Progress.Sound U a before
      { p with minute := a.startMinute, tripCounter := 1, legs := [] } :=
    ⟨⟨hp.written, hp.rows⟩, by simp, fun _ => (accumulated_nil a).symm⟩
  unfold Schedule.generateDay
  dsimp only
  split
  · exact hstart.toRecorded
  · next first _ =>
    have hfirst : (Schedule.save env day _ (Schedule.initialStop a day first)).1.Sound U a before :=
      hstart.save ha hday rfl fun _ _ => means_initialStop U ha hday first
    split
    · next p' hp' =>
      rw [hp'] at hfirst
      exact (whileDo_induct (fun q _ hq => hq.cycle ha hday) fuel p' hfirst).toRecorded
    · -- the first row was refused, and the day ends there
      exact hfirst.toRecorded

/-- All days. -/
theorem recorded_generateSchedule (ha : a.Valid) (stops : Table Stop) (fuel : Nat) :
    (Schedule.generateSchedule env stops before a fuel).1.Recorded U a before := by
  have hinit : Progress.Recorded U a before { schedules := before } := ⟨by simp, by simp⟩
  exact forEach_induct (fun p day hday hp => hp.generateDay ha hday fuel) _ hinit

end

/-- **What the timetable means.** For every routing service, all stops and stored rows, all
valid arguments and any end hour, after any number of rounds: the run has added exactly the
rows it has written, and each row written for a day at minute `m` names that minute. -/
theorem generateSchedule_means (U : Unicode) (env : ScheduleEnv) (stops : Table Stop)
    (schedules : Table Schedule) (a : ScheduleArgs) (ha : a.Valid) (fuel : Nat) :
    let p := (Schedule.generateSchedule env stops schedules a fuel).1
    (∀ r, r ∈ p.schedules.rows ↔ r ∈ schedules.rows ∨ ∃ e ∈ p.written, e.row = r) ∧
    ∀ e ∈ p.written, e.day ∈ a.days ∧
      ∀ m, m = accumulated a e.legs ∨ (m = e.minute ∧ 0 ≤ m) →
        a.startHour * 60 + m < 2880 → e.row.Means U (e.day * 1440 + a.startHour * 60 + m) := by
  have hrun : (Schedule.generateSchedule env stops schedules a fuel).1.Recorded U a schedules :=
    recorded_generateSchedule ha stops fuel
  refine ⟨hrun.rows, fun e he => ?_⟩
  obtain ⟨hday, hnonneg, hcounter, hmeans⟩ := hrun.written e he
  refine ⟨hday, fun m hm hlt => ?_⟩
  rcases hm with rfl | ⟨rfl, hlo⟩
  · have heq := hcounter hlt
    rw [← heq]
    exact hmeans (by omega) (by omega)
  · exact hmeans hlo hlt

/-- Ten minutes for every leg. -/
def tenMinutes : ScheduleEnv where
  latLngFromWKB _ := some ⟨0, 0⟩
  totalTime _ _ _ := some 600
  totalTime_range _ _ _ t h := by
    obtain rfl := Option.some.inj h
    decide
  now _ := 0

/-- Saturday from half past eleven to midnight. -/
def lateShift : ScheduleArgs where
  routeId := 1
  days := [6]
  startHour := 23
  endHour := 24
  startMinute := 30

def twoStops : Table Stop := (Table.empty.insert { routeId := 1, stopOrder := 1 }).insert
  { routeId := 1, stopOrder := 2 }

/-- A night that ends on Sunday. -/
theorem generateSchedule_means_lateShift :
    lateShift.Valid ∧
    (Schedule.generateSchedule tenMinutes twoStops Table.empty lateShift 1).2 = .returned ∧
    ((Schedule.generateSchedule tenMinutes twoStops Table.empty lateShift 1).1.written.map
      fun e => (e.row.dayOfWeek, e.row.stopTime)) =
        [(6, js ['2', '3', ':', '3', '0']), (6, js ['2', '3', ':', '5', '2']),
          (0, js ['0', '0', ':', '1', '4'])] ∧
    ∀ e ∈ (Schedule.generateSchedule tenMinutes twoStops Table.empty lateShift 1).1.written,
      lateShift.startHour * 60 + accumulated lateShift e.legs < 2880 →
        e.row.Means Unicode.ascii
          (e.day * 1440 + lateShift.startHour * 60 + accumulated lateShift e.legs) := by
  have hvalid : lateShift.Valid := ⟨by decide, by decide, by decide⟩
  refine ⟨hvalid, by decide, by decide, fun e he => ?_⟩
  exact ((generateSchedule_means Unicode.ascii tenMinutes twoStops Table.empty lateShift hvalid 1).2
    e he).2 _ (Or.inl rfl)

end Maiden
