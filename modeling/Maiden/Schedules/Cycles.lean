import Mathlib.Order.Bounds.Basic
import Maiden.Routes.CyclicWalk
import Maiden.Schedules.Generated

/-!
# Timetables are made of whole cycles

For each day `generateSchedule` writes a row for the first stop and then goes around the
circuit, until a cycle ends after the operating hours. Each leg leads to the next stop, with
none in between, also from the last stop to the first and on a route of one stop
(`getInBetweenStops_next`). So each leg takes at least the two minutes that are added for its
end, and the loop ends (`rounds_le`).

What is written is compared with a timetable in exact arithmetic: `minuteAfter` is the minute
after a number of legs, `Rounds` the number of cycles, `stage` what the rows show. If nothing
overflows and the texts fit their columns, the run follows it row by row
(`generateSchedule_cycles`). An hour of ten digits does not fit (`far_hour_refused`).
-/

namespace Maiden

open Loop

/-! ## The exact timetable -/

/-- The legs of the circuit: each stop and the next one. -/
def circuit (stops : List Stop) : List (Stop × Stop) := stops.zip (stops.tail ++ stops.take 1)

/-- The `j`-th leg of a day. -/
def leg (stops : List Stop) (j : Nat) : Option (Stop × Stop) := (circuit stops)[j % stops.length]?

/-- The minutes of operation. -/
def operatingMinutes (a : ScheduleArgs) : Int := (a.endHour - a.startHour) * 60

section

variable (env : ScheduleEnv) (a : ScheduleArgs) (stops : List Stop)

/-- The routing service's answer for the `j`-th leg of a day whose first request has the
number `q`. -/
def legAnswer (q j : Nat) : Int :=
  match leg stops j with
  | some ends =>
    match Schedule.travelTime env (q + j) ends.1 [ends.2] with
    | .ok t => t
    | .error _ => 0
  | none => 0

/-- The minutes since the full start hour after `j` legs of the day. -/
def minuteAfter (q : Nat) : Nat → Int
  | 0 => a.startMinute
  | j + 1 => minuteAfter q j + (round (legAnswer env stops q j * 2) + 120) / 60

/-- `K` is the least number of cycles after which the operating hours are over. -/
def Rounds (q K : Nat) : Prop :=
  IsLeast {k | operatingMinutes a < minuteAfter env a stops q (k * stops.length)} K

/-- `Q` holds for each of the days, with the number of its first request and of its cycles. -/
def EachDay (Q : Nat → Int → Nat → Prop) : Nat → List Int → Prop
  | _, [] => True
  | q, day :: days => ∀ K, Rounds env a stops q K →
      Q q day K ∧ EachDay Q (q + K * stops.length) days

/-- No `Int` operation of the `j`-th leg overflows. -/
structure LegInRange (q j : Nat) : Prop where
  doubled : int32 (legAnswer env stops q j * 2) = legAnswer env stops q j * 2
  eta : int32 (round (legAnswer env stops q j * 2) + 120) =
    round (legAnswer env stops q j * 2) + 120
  minute : int32 (minuteAfter env a stops q (j + 1)) = minuteAfter env a stops q (j + 1)

/-- No `Int` operation of a day of `K` cycles overflows. -/
structure DayInRange (q K : Nat) : Prop where
  tripCounter : int32 (K + 1) = K + 1
  legs : ∀ j < K * stops.length, LegInRange env a stops q j

/-- No `Int` operation overflows. -/
structure NoOverflow : Prop where
  hours : int32 (a.endHour - a.startHour) = a.endHour - a.startHour
  minutes : int32 (operatingMinutes a) = operatingMinutes a
  days : EachDay env a stops (fun q _ K => DayInRange env a stops q K) 0 a.days

/-- No row of a day of `K` cycles is too long for its columns. -/
structure DayFits (q : Nat) (day : Int) (K : Nat) : Prop where
  first : ∀ first, stops.head? = some first → (Schedule.initialStop a day first).fits = true
  legs : ∀ j < K * stops.length, ∀ ends, leg stops j = some ends →
    (Schedule.arrival a day (j / stops.length + 1 : Nat) ends.2
      (minuteAfter env a stops q (j + 1))).fits = true

/-- No row is too long for its columns. -/
def TextsFit : Prop := EachDay env a stops (DayFits env a stops) 0 a.days

/-- What the rows of a day show, from the first: the day, the minute, the stop and the tag. -/
def stage (day : Int) (q : Nat) : Nat → Int × Int × Option Int × JString
  | 0 => (day, a.startMinute, stops.head?.map Stop.id, a.masterScheduleId 1)
  | j + 1 => (day, minuteAfter env a stops q (j + 1), (leg stops j).map fun ends => ends.2.id,
      a.masterScheduleId (j / stops.length + 1 : Nat))

end

/-- What a write shows. -/
def Entry.seen (e : Entry) : Int × Int × Option Int × JString :=
  (e.day, e.minute, some e.row.stopId, e.row.masterScheduleId)

/-! ## How the minutes grow -/

section

variable (env : ScheduleEnv) (a : ScheduleArgs) (stops : List Stop) (q : Nat)

theorem legAnswer_nonneg (j : Nat) : 0 ≤ legAnswer env stops q j := by
  unfold legAnswer
  split
  · split
    · next h => exact travelTime_nonneg h
    · exact le_refl 0
  · exact le_refl 0

/-- Every leg takes two minutes at least. -/
theorem minuteAfter_add_two_le (j : Nat) :
    minuteAfter env a stops q j + 2 ≤ minuteAfter env a stops q (j + 1) := by
  have hanswer := legAnswer_nonneg env stops q j
  have hround : 0 ≤ round (legAnswer env stops q j * 2) := round_nonneg (by omega)
  show _ ≤ minuteAfter env a stops q j + (round (legAnswer env stops q j * 2) + 120) / 60
  omega

/-- Every leg takes two minutes at least, the stop itself. -/
theorem minuteAfter_ge (j : Nat) : a.startMinute + 2 * j ≤ minuteAfter env a stops q j := by
  induction j with
  | zero =>
    show a.startMinute + 2 * (0 : Nat) ≤ a.startMinute
    omega
  | succ j ih =>
    have hstep := minuteAfter_add_two_le env a stops q j
    omega

variable {stops}

/-- So does every cycle. -/
theorem minuteAfter_cycles_ge (hne : stops ≠ []) (k : Nat) :
    a.startMinute + 2 * k ≤ minuteAfter env a stops q (k * stops.length) := by
  have hge := minuteAfter_ge env a stops q (k * stops.length)
  have hle : k ≤ k * stops.length := Nat.le_mul_of_pos_right k (List.length_pos_of_ne_nil hne)
  omega

/-- The cycles that fit into the operating hours at two minutes each, and one more. -/
def roundsBound (a : ScheduleArgs) : Nat := (operatingMinutes a - a.startMinute).toNat / 2 + 1

/-- There is a number of cycles after which the operating hours are over. -/
theorem exists_rounds (hne : stops ≠ []) : ∃ K, Rounds env a stops q K := by
  have hexists : ∃ k, operatingMinutes a < minuteAfter env a stops q (k * stops.length) := by
    have hge := minuteAfter_cycles_ge env a q hne
      ((operatingMinutes a - a.startMinute).toNat / 2 + 1)
    exact ⟨_, lt_of_lt_of_le (by omega) hge⟩
  classical
  exact ⟨Nat.find hexists, Nat.find_spec hexists, fun k hk => Nat.find_min' hexists hk⟩

variable {env a q}

/-- Before the last round the minute is within the operating hours. -/
theorem Rounds.minute_le {K k : Nat} (h : Rounds env a stops q K) (hk : k < K) :
    minuteAfter env a stops q (k * stops.length) ≤ operatingMinutes a :=
  not_lt.mp fun hlt => absurd (h.2 hlt) (Nat.not_le.mpr hk)

/-- The day ends: each round takes some minutes, however short the answers are. -/
theorem rounds_le (hne : stops ≠ []) {K : Nat} (h : Rounds env a stops q K) :
    K ≤ roundsBound a := by
  cases K with
  | zero => exact Nat.zero_le _
  | succ K =>
    have hle := h.minute_le (Nat.lt_succ_self K)
    have hge := minuteAfter_cycles_ge env a q hne K
    show K + 1 ≤ (operatingMinutes a - a.startMinute).toNat / 2 + 1
    omega

end

/-! ## One leg -/

section

variable {env : ScheduleEnv} {a : ScheduleArgs} {stops : List Stop} {q j : Nat}
  {ends : Stop × Stop}

/-- There is no stop between a stop and the next one. -/
theorem getInBetweenStops_next (hord : stops.Pairwise fun s s' => s.stopOrder < s'.stopOrder)
    {s : Stop} (hs : s ∈ stops) : getInBetweenStops stops s (Cycle.next stops s) = [] := by
  have hnodup := Cycle.nodup_of_ranked hord
  by_cases heq : s = Cycle.next stops s
  · -- a route of one stop
    rw [← heq, getInBetweenStops, if_pos rfl]
  · exact (walk_inBetween hord hs (Cycle.next_mem hnodup hs) heq).unique (.arrive rfl)

/-- The ends of a leg are a stop and the next one. -/
theorem ends_of_leg (hnodup : stops.Nodup) (h : leg stops j = some ends) :
    ends.1 ∈ stops ∧ ends.2 = Cycle.next stops ends.1 := by
  have hmem : ends ∈ circuit stops := List.mem_of_getElem? h
  rw [circuit, Cycle.zip_next hnodup] at hmem
  obtain ⟨s, hs, rfl⟩ := List.mem_map.mp hmem
  exact ⟨hs, rfl⟩

/-- What is needed of the outside: all geometries can be read, and the routing service
answers. -/
structure ScheduleEnv.Answers (env : ScheduleEnv) (stops : List Stop) : Prop where
  decodes : ∀ s ∈ stops, ∃ pos, env.latLngFromWKB s.geom = some pos
  responds : ∀ request start points, ∃ t, env.totalTime request start points = some t

/-- A leg is the way between neighbours, for which the service is asked once. -/
theorem travelTime_leg (henv : env.Answers stops) (hnodup : stops.Nodup)
    (h : leg stops j = some ends) :
    Schedule.travelTime env (q + j) ends.1 [ends.2] = .ok (legAnswer env stops q j) := by
  obtain ⟨hs, hnext⟩ := ends_of_leg hnodup h
  obtain ⟨start, hstart⟩ := henv.decodes _ hs
  obtain ⟨point, hpoint⟩ := henv.decodes _ (hnext ▸ Cycle.next_mem hnodup hs)
  obtain ⟨t, ht⟩ := henv.responds (q + j) start [point]
  have htime : Schedule.travelTime env (q + j) ends.1 [ends.2] = .ok t := by
    refine bind_eq_ok.mpr ⟨start, getOr_eq_ok.mpr hstart, bind_eq_ok.mpr ⟨[point], ?_, ?_⟩⟩
    · rw [mapE_eq_ok]
      exact .cons (getOr_eq_ok.mpr hpoint) .nil
    · exact getOr_eq_ok.mpr ht
  rw [htime, legAnswer, h]
  dsimp only
  rw [htime]

/-- The minutes of a leg that stays in range. -/
theorem legEta_of_inRange (h : LegInRange env a stops q j) :
    (Schedule.legEta ⟨legAnswer env stops q j, 1⟩).tdiv 60 =
      (round (legAnswer env stops q j * 2) + 120) / 60 := by
  have hanswer := legAnswer_nonneg env stops q j
  have hround : 0 ≤ round (legAnswer env stops q j * 2) := round_nonneg (by omega)
  have hdwell : int32 ((1 : Nat) * 120) = 120 := by decide
  rw [Schedule.legEta, Schedule.doubledTime, h.doubled, hdwell, h.eta]
  exact Int.tdiv_eq_ediv_of_nonneg (by omega)

end

/-! ## What is written -/

/-- The first `i` rows of a day are written as `shown` has them, after what was `done` on the
days before. -/
structure Progress.Shows (before : Table Schedule) (done : List Entry)
    (shown : Nat → Int × Int × Option Int × JString) (i : Nat) (p : Progress) : Prop where
  written : ∃ es, p.written = done ++ es ∧ es.map Entry.seen = (List.range i).map shown
  rows : p.schedules.rows = before.rows ++ p.written.map Entry.row

/-- Where the run is after `j` legs of a day. -/
structure Progress.At (env : ScheduleEnv) (a : ScheduleArgs) (stops : List Stop)
    (before : Table Schedule) (done : List Entry) (day : Int) (q j : Nat) (p : Progress) : Prop
    extends p.Shows before done (stage env a stops day q) (j + 1) where
  minute : p.minute = minuteAfter env a stops q j
  requests : p.requests = q + j

section

variable {env : ScheduleEnv} {a : ScheduleArgs} {stops : List Stop} {before : Table Schedule}
  {done : List Entry} {day : Int} {q : Nat} {p : Progress}

/-- A new row that fits is written, and is the next one that the exact timetable shows. -/
theorem Progress.Shows.save {shown : Nat → Int × Int × Option Int × JString} {i : Nat}
    (hp : p.Shows before done shown i) (env : ScheduleEnv) {row : Schedule} (hid : row.id = 0)
    (hfits : row.fits = true)
    (hrow : shown i = (day, p.minute, some row.stopId, row.masterScheduleId)) :
    ∃ p', Schedule.save env day p row = (p', .returned) ∧ p'.Shows before done shown (i + 1) ∧
      p'.minute = p.minute ∧ p'.requests = p.requests ∧ p'.tripCounter = p.tripCounter := by
  obtain ⟨es, hes, hseen⟩ := hp.written
  have hshown := upsert_saved (fun s : Schedule => (s.stopId, s.masterScheduleId))
    (fun _ _ => rfl) (fun _ _ _ => rfl) p.schedules row (env.now p.written.length)
  -- the id is 0, so that the row goes to the end of the table
  have hnew := upsert_new p.schedules (env.now p.written.length) (show Keyed.key row = 0 from hid)
  generalize hsaved : upsert p.schedules row (env.now p.written.length) = saved at hshown hnew
  obtain ⟨hstop, htag⟩ := Prod.mk.inj hshown
  refine ⟨{ p with
      schedules := saved.1
      written := p.written ++ [⟨day, p.legs, p.minute, saved.2⟩] }, ?_,
    ⟨⟨es ++ [⟨day, p.legs, p.minute, saved.2⟩], ?_, ?_⟩, ?_⟩, rfl, rfl, rfl⟩
  · rw [Schedule.save, if_pos hfits, hsaved]
  · rw [hes, List.append_assoc]
  · rw [List.map_append, hseen, List.range_succ, List.map_append, List.map_singleton,
      List.map_singleton, hrow, Entry.seen, hstop, htag]
  · dsimp only
    rw [hnew, List.map_append, ← List.append_assoc, ← hp.rows]
    rfl

/-- A leg without overflow writes the next row of the exact timetable: between two stops that
follow each other nothing is skipped, so one travel time is asked for, and the sum does not
wrap. -/
theorem drive_eq {j : Nat} (hord : stops.Pairwise fun s s' => s.stopOrder < s'.stopOrder)
    (henv : env.Answers stops) {ends : Stop × Stop} (hleg : leg stops j = some ends)
    (hrange : LegInRange env a stops q j) (hminute : p.minute = minuteAfter env a stops q j)
    (hrequests : p.requests = q + j) :
    Schedule.drive env a stops day p ends =
      Schedule.save env day
        { p with
          minute := minuteAfter env a stops q (j + 1)
          requests := p.requests + 1
          legs := p.legs ++ [⟨legAnswer env stops q j, 1⟩] }
        (Schedule.arrival a day p.tripCounter ends.2 (minuteAfter env a stops q (j + 1))) := by
  have hnodup := Cycle.nodup_of_ranked hord
  obtain ⟨hs, hnext⟩ := ends_of_leg hnodup hleg
  have hbetween : getInBetweenStops stops ends.1 ends.2 ++ [ends.2] = [ends.2] := by
    rw [hnext, getInBetweenStops_next hord hs]
    rfl
  have hsum : int32 (p.minute + (Schedule.legEta ⟨legAnswer env stops q j, 1⟩).tdiv 60) =
      minuteAfter env a stops q (j + 1) := by
    rw [legEta_of_inRange hrange, hminute]
    exact hrange.minute
  have htime : Schedule.travelTime env p.requests ends.1 [ends.2] = .ok (legAnswer env stops q j) :=
    hrequests ▸ travelTime_leg henv hnodup hleg
  unfold Schedule.drive
  dsimp only
  rw [hbetween, htime]
  dsimp only
  rw [List.length_singleton, hsum]

/-- **One leg** of the exact timetable. The trip counter names the cycle, which is `j /
stops.length` plus one after `j` legs of the day. -/
theorem Progress.At.drive {j : Nat} (hp : p.At env a stops before done day q j)
    (hord : stops.Pairwise fun s s' => s.stopOrder < s'.stopOrder) (henv : env.Answers stops)
    (htrip : p.tripCounter = (j / stops.length + 1 : Nat)) {ends : Stop × Stop}
    (hleg : leg stops j = some ends) (hrange : LegInRange env a stops q j)
    (hfits : (Schedule.arrival a day p.tripCounter ends.2
      (minuteAfter env a stops q (j + 1))).fits = true) :
    ∃ p', Schedule.drive env a stops day p ends = (p', .returned) ∧
      p'.At env a stops before done day q (j + 1) ∧ p'.tripCounter = p.tripCounter := by
  rw [drive_eq hord henv hleg hrange hp.minute hp.requests]
  have hshows : Progress.Shows before done (stage env a stops day q) (j + 1)
      { p with
        minute := minuteAfter env a stops q (j + 1)
        requests := p.requests + 1
        legs := p.legs ++ [⟨legAnswer env stops q j, 1⟩] } := ⟨hp.written, hp.rows⟩
  obtain ⟨p', hsave, hp', hminute, hrequests, hcounter⟩ :=
    hshows.save env rfl hfits (by rw [stage, hleg, ← htrip]; rfl)
  refine ⟨p', hsave, ⟨hp', hminute, ?_⟩, hcounter⟩
  rw [hrequests, hp.requests, Nat.add_assoc]

theorem length_circuit (stops : List Stop) : (circuit stops).length = stops.length := by
  rw [circuit, List.length_zip, List.length_append, List.length_tail, List.length_take]
  omega

theorem map_snd_circuit (stops : List Stop) :
    (circuit stops).map Prod.snd = stops.tail ++ stops.take 1 :=
  List.map_snd_zip (by rw [List.length_append, List.length_tail, List.length_take]; omega)

/-- The `i`-th leg of every cycle is the `i`-th of the circuit. -/
theorem leg_cycle (k : Nat) {i : Nat} (hi : i < stops.length) :
    leg stops (k * stops.length + i) = (circuit stops)[i]? := by
  rw [leg, Nat.mul_add_mod', Nat.mod_eq_of_lt hi]

/-- The number of the cycle, read off the number of the leg. -/
theorem cycle_of_leg (k : Nat) {i : Nat} (hi : i < stops.length) :
    (k * stops.length + i) / stops.length = k := by
  rw [Nat.mul_comm, Nat.mul_add_div (by omega), Nat.div_eq_of_lt hi, Nat.add_zero]

/-- **One cycle** of the exact timetable: a leg for each stop, the last one back to the first stop,
and then the trip counter. -/
theorem Progress.At.cycle {k K : Nat}
    (hp : p.At env a stops before done day q (k * stops.length))
    (hord : stops.Pairwise fun s s' => s.stopOrder < s'.stopOrder) (henv : env.Answers stops)
    (hk : k < K) (hrange : DayInRange env a stops q K) (hfits : DayFits env a stops q day K)
    (htrip : p.tripCounter = (k + 1 : Nat)) :
    ∃ p', Schedule.cycle env a stops day p = (p', .returned) ∧
      p'.At env a stops before done day q ((k + 1) * stops.length) ∧
      p'.tripCounter = (k + 1 + 1 : Nat) := by
  have hround : ∃ p', forEach (Schedule.drive env a stops day) p (circuit stops) = (p', .returned) ∧
      p'.At env a stops before done day q (k * stops.length + (circuit stops).length) ∧
      p'.tripCounter = ((k + 1 : Nat) : Int) := by
    refine forEach_returns (P := fun i (s : Progress) =>
      s.At env a stops before done day q (k * stops.length + i) ∧
        s.tripCounter = ((k + 1 : Nat) : Int)) ?_ p ⟨hp, htrip⟩
    rintro i hi s ⟨hs, hcounter⟩
    have hi' : i < stops.length := length_circuit stops ▸ hi
    have hleg : leg stops (k * stops.length + i) = some (circuit stops)[i] := by
      rw [leg_cycle k hi', List.getElem?_eq_getElem hi]
    -- the ranges are assumed for all legs of the day, and this is one of them
    have hj : k * stops.length + i < K * stops.length :=
      calc k * stops.length + i < k * stops.length + stops.length := by omega
        _ = (k + 1) * stops.length := (Nat.succ_mul k _).symm
        _ ≤ K * stops.length := Nat.mul_le_mul_right _ hk
    have htrip' : s.tripCounter = ((k * stops.length + i) / stops.length + 1 : Nat) := by
      rw [hcounter, cycle_of_leg k hi']
    obtain ⟨s', hdrive, hs', hcounter'⟩ := hs.drive hord henv htrip' hleg (hrange.legs _ hj)
      (htrip' ▸ hfits.legs _ hj _ hleg)
    exact ⟨s', hdrive, hs', hcounter'.trans hcounter⟩
  obtain ⟨p', hround, hp', htrip'⟩ := hround
  rw [length_circuit, ← Nat.succ_mul] at hp'
  have hnext : int32 (p'.tripCounter + 1) = (k + 1 + 1 : Nat) := by
    have hbound := int32_range (K + 1)
    rw [hrange.tripCounter] at hbound
    rw [htrip']
    exact int32_of_range (by omega) (by omega)
  refine ⟨{ p' with tripCounter := int32 (p'.tripCounter + 1) }, ?_,
    ⟨⟨hp'.written, hp'.rows⟩, hp'.minute, hp'.requests⟩, hnext⟩
  rw [Schedule.cycle, show stops.zip (stops.tail ++ stops.take 1) = circuit stops from rfl, hround]

/-- **The loop** goes on while the minute of the timetable is within the operating hours. It is
looked at before a cycle, never within one, so a cycle once begun is driven to its end. -/
theorem Progress.At.cycles (hp : p.At env a stops before done day q 0)
    (hord : stops.Pairwise fun s s' => s.stopOrder < s'.stopOrder) (henv : env.Answers stops)
    (htotal : Schedule.totalMinutes a = operatingMinutes a) {K : Nat} (hK : Rounds env a stops q K)
    (hrange : DayInRange env a stops q K) (hfits : DayFits env a stops q day K) {fuel : Nat}
    (hfuel : K ≤ fuel) (htrip : p.tripCounter = 1) :
    ∃ p', whileDo (fun p : Progress => p.minute ≤ Schedule.totalMinutes a)
        (Schedule.cycle env a stops day) fuel p = (p', .returned) ∧
      p'.At env a stops before done day q (K * stops.length) ∧
      p'.tripCounter = (K + 1 : Nat) := by
  have hstart : p.At env a stops before done day q (0 * stops.length) := by
    rwa [Nat.zero_mul]
  refine whileDo_returns (P := fun k (s : Progress) =>
    s.At env a stops before done day q (k * stops.length) ∧
      s.tripCounter = ((k + 1 : Nat) : Int)) ?_ ?_ hfuel p ⟨hstart, htrip⟩
  · rintro k hk s ⟨hs, hcounter⟩
    refine ⟨?_, hs.cycle hord henv hk hrange hfits hcounter⟩
    rw [decide_eq_true_eq, hs.minute, htotal]
    exact hK.minute_le hk
  · -- after `K` rounds the minute is past the operating hours
    rintro s ⟨hs, -⟩
    rw [decide_eq_false_iff_not, hs.minute, htotal, not_le]
    exact hK.1

/-- **One day** of the exact timetable: the row of the first stop at the starting minute, and the
cycles. -/
theorem generateDay_returns (hord : stops.Pairwise fun s s' => s.stopOrder < s'.stopOrder)
    (hne : stops ≠ []) (henv : env.Answers stops)
    (htotal : Schedule.totalMinutes a = operatingMinutes a) {K : Nat} (hK : Rounds env a stops q K)
    (hrange : DayInRange env a stops q K) (hfits : DayFits env a stops q day K) {fuel : Nat}
    (hfuel : K ≤ fuel) (hrequests : p.requests = q)
    (hrows : p.schedules.rows = before.rows ++ p.written.map Entry.row) :
    ∃ p', Schedule.generateDay env a stops fuel p day = (p', .returned) ∧
      p'.At env a stops before p.written day q (K * stops.length) := by
  have hhead : stops.head? = some (stops.head hne) := List.head?_eq_some_head hne
  have hshows : Progress.Shows before p.written (stage env a stops day q) 0
      { p with minute := a.startMinute, tripCounter := 1, legs := [] } :=
    ⟨⟨[], (List.append_nil _).symm, rfl⟩, hrows⟩
  obtain ⟨p₁, hsave, hp₁, hminute, hrequests₁, htrip⟩ :=
    hshows.save env rfl (hfits.first _ hhead) (by rw [stage, hhead]; rfl)
  have hstart : p₁.At env a stops before p.written day q 0 :=
    ⟨hp₁, hminute, hrequests₁.trans hrequests⟩
  obtain ⟨p', hloop, hp', -⟩ := hstart.cycles hord henv htotal hK hrange hfits hfuel htrip
  refine ⟨p', ?_, hp'⟩
  rw [Schedule.generateDay, hhead]
  dsimp only
  rw [hsave]
  exact hloop

end

/-! ## Whole cycles -/

/-- What is written for a day: a row for the first stop and then `K` cycles, each with a row for
every stop, the first one last. From each row to the next the minute grows by two at least, and
`K` is the least number of cycles after which it exceeds the minutes of operation. -/
structure WholeCycles (a : ScheduleArgs) (stops : List Stop) (day : Int) (K : Nat)
    (entries : List Entry) : Prop where
  length : entries.length = K * stops.length + 1
  day : ∀ e ∈ entries, e.day = day
  first : ∃ e, entries[0]? = some e ∧ stops.head?.map Stop.id = some e.row.stopId ∧
    e.minute = a.startMinute
  cycle : ∀ k < K, ∀ i < stops.length, ∃ e, entries[k * stops.length + i + 1]? = some e ∧
    (stops.tail ++ stops.take 1)[i]?.map Stop.id = some e.row.stopId ∧
    e.row.masterScheduleId = a.masterScheduleId (k + 1 : Nat)
  grows : entries.IsChain fun e e' => e.minute + 2 ≤ e'.minute
  within : ∀ k < K, ∃ e, entries[k * stops.length]? = some e ∧ e.minute ≤ operatingMinutes a
  exceeded : ∃ e, entries[K * stops.length]? = some e ∧ operatingMinutes a < e.minute

section

variable {env : ScheduleEnv} {a : ScheduleArgs} {stops : List Stop} {day : Int} {q : Nat}

theorem stage_day (j : Nat) : (stage env a stops day q j).1 = day := by
  cases j with
  | zero => rfl
  | succ j => rfl

theorem stage_minute (j : Nat) : (stage env a stops day q j).2.1 = minuteAfter env a stops q j := by
  cases j with
  | zero => rfl
  | succ j => rfl

/-- The rows of a cycle are for the stops after the first one, and then for the first. -/
theorem stage_cycle (k : Nat) {i : Nat} (hi : i < stops.length) :
    (stage env a stops day q (k * stops.length + i + 1)).2.2 =
      ((stops.tail ++ stops.take 1)[i]?.map Stop.id, a.masterScheduleId (k + 1 : Nat)) := by
  rw [stage, cycle_of_leg k hi, leg_cycle k hi, ← map_snd_circuit, List.getElem?_map,
    Option.map_map]
  rfl

/-- Each row is the one of the timetable. -/
theorem seen_getElem {shown : Nat → Int × Int × Option Int × JString} {es : List Entry} {n : Nat}
    (hes : es.map Entry.seen = (List.range n).map shown) {i : Nat} (hi : i < es.length) :
    es[i].seen = shown i := by
  have hi' : i < (es.map Entry.seen).length := by rwa [List.length_map]
  have hget := List.getElem_of_eq hes hi'
  rwa [List.getElem_map, List.getElem_map, List.getElem_range] at hget

/-- **The exact timetable has whole cycles.** Read off row by row: row `k * stops.length + i + 1`
is where leg `i` of cycle `k` ends. -/
theorem wholeCycles_of_shown {K : Nat} (hK : Rounds env a stops q K) {es : List Entry}
    (hes : es.map Entry.seen = (List.range (K * stops.length + 1)).map (stage env a stops day q)) :
    WholeCycles a stops day K es := by
  have hlength : es.length = K * stops.length + 1 := by
    have hlen := congrArg List.length hes
    rwa [List.length_map, List.length_map, List.length_range] at hlen
  have hminute : ∀ (i : Nat) (hi : i < es.length), es[i].minute = minuteAfter env a stops q i :=
    fun i hi => (congrArg (fun s => s.2.1) (seen_getElem hes hi)).trans (stage_minute i)
  have hcycles : ∀ {k : Nat}, k ≤ K → k * stops.length < es.length := fun hk => by
    have := Nat.mul_le_mul_right stops.length hk
    omega
  refine ⟨hlength, fun e he => ?_, ?_, fun k hk i hi => ?_, ?_, fun k hk => ?_, ?_⟩
  · obtain ⟨i, hi, rfl⟩ := List.mem_iff_getElem.mp he
    exact (congrArg Prod.fst (seen_getElem hes hi)).trans (stage_day i)
  · have hpos : 0 < es.length := by omega
    refine ⟨es[0], List.getElem?_eq_getElem hpos, ?_, hminute 0 hpos⟩
    exact (congrArg (fun s => s.2.2.1) (seen_getElem hes hpos)).symm
  · have hlt : k * stops.length + i + 1 < es.length := by
      have := Nat.mul_le_mul_right stops.length (Nat.succ_le_of_lt hk)
      rw [Nat.succ_mul] at this
      omega
    have hseen := (congrArg (fun s => s.2.2) (seen_getElem hes hlt)).trans (stage_cycle k hi)
    obtain ⟨hstop, htag⟩ := Prod.mk.inj hseen
    exact ⟨_, List.getElem?_eq_getElem hlt, hstop.symm, htag⟩
  · rw [List.isChain_iff_getElem]
    intro i hi
    rw [hminute i (by omega), hminute (i + 1) hi]
    exact minuteAfter_add_two_le env a stops q i
  · have hlt := hcycles (Nat.le_of_lt hk)
    exact ⟨_, List.getElem?_eq_getElem hlt, (hminute _ hlt).trans_le (hK.minute_le hk)⟩
  · have hlt := hcycles (Nat.le_refl K)
    exact ⟨_, List.getElem?_eq_getElem hlt, hK.1.trans_eq (hminute _ hlt).symm⟩

/-- The days, one after the other. Each begins with the number of travel times that the days before
it have asked for, which is why `q` is generalised in the induction over the days. -/
theorem days_return (hord : stops.Pairwise fun s s' => s.stopOrder < s'.stopOrder)
    (hne : stops ≠ []) (henv : env.Answers stops)
    (htotal : Schedule.totalMinutes a = operatingMinutes a) {fuel : Nat}
    (hfuel : roundsBound a ≤ fuel) (before : Table Schedule) (days : List Int) :
    ∀ {q : Nat} {p : Progress}, p.requests = q →
      p.schedules.rows = before.rows ++ p.written.map Entry.row →
      EachDay env a stops (fun q _ K => DayInRange env a stops q K) q days →
      EachDay env a stops (DayFits env a stops) q days →
      ∃ p' blocks, forEach (Schedule.generateDay env a stops fuel) p days = (p', .returned) ∧
        p'.written = p.written ++ blocks.flatten ∧
        p'.schedules.rows = before.rows ++ p'.written.map Entry.row ∧
        List.Forall₂ (fun day block => ∃ K, WholeCycles a stops day K block) days blocks := by
  induction days with
  | nil => exact fun _ hrows _ _ => ⟨_, [], rfl, (List.append_nil _).symm, hrows, .nil⟩
  | cons day days ih =>
    intro q p hrequests hrows hrange hfits
    obtain ⟨K, hK⟩ := exists_rounds env a q hne
    obtain ⟨hday, hrange⟩ := hrange K hK
    obtain ⟨hday', hfits⟩ := hfits K hK
    obtain ⟨p₁, hday, hp₁⟩ := generateDay_returns hord hne henv htotal hK hday hday'
      ((rounds_le hne hK).trans hfuel) hrequests hrows
    obtain ⟨es, hwritten, hes⟩ := hp₁.written
    obtain ⟨p', blocks, hrun, hblocks, hrows', hall⟩ := ih hp₁.requests hp₁.rows hrange hfits
    refine ⟨p', es :: blocks, ?_, ?_, hrows', .cons ⟨K, wholeCycles_of_shown hK hes⟩ hall⟩
    · rw [forEach_cons hday]
      exact hrun
    · rw [hblocks, hwritten, List.flatten_cons, List.append_assoc]

end

/-- **Schedule generation ends with whole cycles.** For every route with stops, whose orders
are distinct, all arguments, stored rows and answers of the routing service for which no `Int`
operation overflows and no row is too long for its columns: the generator returns, with no
more cycles for a day than `roundsBound`, and appends to the table what it writes, which is for
each day a row for the first stop and whole cycles. -/
theorem generateSchedule_cycles {env : ScheduleEnv} {stops : Table Stop}
    (schedules : Table Schedule) {a : ScheduleArgs} (h : DistinctOrders a.routeId stops)
    (hne : Route.getStops stops a.routeId ≠ [])
    (henv : env.Answers (Route.getStops stops a.routeId))
    (hrange : NoOverflow env a (Route.getStops stops a.routeId))
    (hfits : TextsFit env a (Route.getStops stops a.routeId)) {fuel : Nat}
    (hfuel : roundsBound a ≤ fuel) :
    ∃ p blocks, Schedule.generateSchedule env stops schedules a fuel = (p, .returned) ∧
      p.written = blocks.flatten ∧ p.schedules.rows = schedules.rows ++ p.written.map Entry.row ∧
      List.Forall₂ (fun day block =>
        ∃ K, WholeCycles a (Route.getStops stops a.routeId) day K block) a.days blocks := by
  -- the operating hours are computed before the loop, in 32 bits as well
  have htotal : Schedule.totalMinutes a = operatingMinutes a := by
    rw [Schedule.totalMinutes, hrange.hours]
    exact hrange.minutes
  exact days_return (p := { schedules }) (pairwise_getStops h) hne henv htotal hfuel schedules
    a.days rfl (List.append_nil _).symm hrange.days hfits

/-! ## Two timetables -/

theorem answers_tenMinutes (stops : List Stop) : tenMinutes.Answers stops :=
  ⟨fun _ _ => ⟨_, rfl⟩, fun _ _ _ => ⟨_, rfl⟩⟩

/-- One cycle ends after midnight. -/
theorem rounds_lateShift : Rounds tenMinutes lateShift (Route.getStops twoStops 1) 0 1 := by
  refine ⟨by decide, fun k hk => Nat.one_le_iff_ne_zero.mpr ?_⟩
  rintro rfl
  exact absurd hk (by decide)

/-- It has two legs. -/
theorem forall_legs_lateShift {Q : Nat → Prop} (h₀ : Q 0) (h₁ : Q 1) :
    ∀ j < 1 * (Route.getStops twoStops 1).length, Q j := by
  intro j hj
  have hlen : (Route.getStops twoStops 1).length = 2 := by decide
  obtain rfl | rfl : j = 0 ∨ j = 1 := by omega
  · exact h₀
  · exact h₁

theorem noOverflow_lateShift : NoOverflow tenMinutes lateShift (Route.getStops twoStops 1) := by
  refine ⟨by decide, by decide, fun K hK => ?_⟩
  obtain rfl := hK.unique rounds_lateShift
  exact ⟨⟨by decide, forall_legs_lateShift ⟨by decide, by decide, by decide⟩
    ⟨by decide, by decide, by decide⟩⟩, trivial⟩

theorem textsFit_lateShift : TextsFit tenMinutes lateShift (Route.getStops twoStops 1) := by
  intro K hK
  obtain rfl := hK.unique rounds_lateShift
  exact ⟨⟨fun _ _ => rfl, forall_legs_lateShift (fun _ _ => rfl) fun _ _ => rfl⟩, trivial⟩

/-- The late shift has whole cycles. -/
theorem generateSchedule_cycles_lateShift :
    ∃ p blocks, Schedule.generateSchedule tenMinutes twoStops Table.empty lateShift 16 =
        (p, .returned) ∧
      p.written = blocks.flatten ∧ p.schedules.rows = [] ++ p.written.map Entry.row ∧
      List.Forall₂ (fun day block =>
        ∃ K, WholeCycles lateShift (Route.getStops twoStops 1) day K block) [6] blocks :=
  generateSchedule_cycles Table.empty (by decide) (by decide) (answers_tenMinutes _)
    noOverflow_lateShift textsFit_lateShift (by decide)

/-- From the hour 1000000000 on. -/
def farHour : ScheduleArgs where
  routeId := 1
  days := [1]
  startHour := 1000000000
  endHour := 1000000000
  startMinute := 1

/-- The text of the hour is too long for its column: the first row is refused, although nothing
overflows. -/
theorem far_hour_refused :
    DistinctOrders 1 twoStops ∧ NoOverflow tenMinutes farHour (Route.getStops twoStops 1) ∧
      ∀ fuel, Schedule.generateSchedule tenMinutes twoStops Table.empty farHour fuel =
        ({ schedules := Table.empty, minute := 1 }, .threw .rejected) := by
  have hrounds : Rounds tenMinutes farHour (Route.getStops twoStops 1) 0 0 :=
    ⟨by decide, fun k _ => Nat.zero_le k⟩
  refine ⟨by decide, ⟨by decide, by decide, fun K hK => ?_⟩, fun fuel => rfl⟩
  obtain rfl := hK.unique hrounds
  exact ⟨⟨by decide, fun j hj => absurd hj (by omega)⟩, trivial⟩

end Maiden
