import Maiden.Base.Loop
import Maiden.Base.Varchar
import Maiden.Models.Eta

/-!
# Timetables (`data/models/Schedule.scala`)

`generateSchedule` (`Schedule.scala:30–143`) drives the route in thought, day by day: from
the first stop it goes around the circuit, again and again until the operating hours are
over, asks the routing service for the time of each leg, adds two minutes for each stop on
it and writes a row for each arrival. `getTodaysSchedule` (`Schedule.scala:145–190`) reads
the rows of a stop for the next hours, `getForStop` (`Schedule.scala:192–234`) those of the
days on which the route runs.

The `minute` variable of the generator counts from the start hour and is never reset; hour
and day are derived from it for each row. All its numbers are `Int`s and wrap.

Every row is a transaction of its own, so that the rows before an exception stay. A run is
recorded in a `Progress`: besides the tables and the loop's variables it keeps what was
answered on the way (`legs`) and what was written when (`written`). Nothing reads these
two.
-/

namespace Maiden

open Loop

/-- What a row may hold: `stop_time` has 12 characters and `master_schedule_id` 255. Neither text
has a blank that could be cut off. -/
def Schedule.fits (s : Schedule) : Bool :=
  Varchar.fits 12 s.stopTime && Varchar.fits 255 s.masterScheduleId

/-! ## The generator -/

/-- What `generateSchedule` asks of the outside. Requests and writes are numbered, as the
answers and the clock may change from one to the next. -/
structure ScheduleEnv where
  /-- `Geo.latLngFromWKB` and `Geo.latLngPairFromWKB`, which read the same point. -/
  latLngFromWKB : JString → Option Position
  /-- The `total_time` in the answer of the routing service, an `Int`. -/
  totalTime : Nat → Position → List Position → Option Int
  totalTime_range : ∀ n start points t, totalTime n start points = some t → 0 ≤ t ∧ t < 2 ^ 31
  /-- The clock at each write. -/
  now : Nat → Int

/-- The arguments of `generateSchedule`. -/
structure ScheduleArgs where
  routeId : Int
  days : List Int
  startHour : Int
  endHour : Int
  startMinute : Int := 0

/-- The text of the three parts of a master schedule id. -/
def ScheduleArgs.masterScheduleId (a : ScheduleArgs) (tripCounter : Int) : JString :=
  JString.ofInt a.routeId ++ jc ':' :: JString.ofInt a.startMinute ++
    jc ':' :: JString.ofInt tripCounter

/-- A leg from one stop to the next, as it was answered: the routing service's time and
the number of stops that it ends at or passes. -/
structure Leg where
  totalTime : Int
  stops : Nat
deriving DecidableEq

/-- A write: the day and the legs since its first row, the `minute` variable, and the row
that was saved. -/
structure Entry where
  day : Int
  legs : List Leg
  minute : Int
  row : Schedule
deriving DecidableEq

/-- Where a run of `generateSchedule` is. -/
structure Progress where
  schedules : Table Schedule
  minute : Int := 0
  tripCounter : Int := 1
  requests : Nat := 0
  legs : List Leg := []
  written : List Entry := []

namespace Schedule

/-- `Osrm.getRouteAndEta` (`Osrm.scala:61–77`): "double what OSRM gives us". -/
def doubledTime (totalTime : Int) : Int := int32 (totalTime * 2)

/-- The `eta` of a leg, with two minutes for each stop. -/
def legEta (leg : Leg) : Int :=
  int32 (round (doubledTime leg.totalTime) + int32 (leg.stops * 120))

/-- The first row of a day. -/
def initialStop (a : ScheduleArgs) (day : Int) (first : Stop) : Schedule where
  routeId := a.routeId
  stopId := first.id
  dayOfWeek := day
  masterScheduleId := a.masterScheduleId 1
  stopTime := JString.format02 a.startHour ++ jc ':' :: JString.format02 a.startMinute

/-- The row of an arrival when the counter is at `minute`. -/
def arrival (a : ScheduleArgs) (day tripCounter : Int) (nextStop : Stop) (minute : Int) :
    Schedule :=
  let hour := int32 (a.startHour + minute.tdiv 60)
  let realMinute := minute.tmod 60
  { routeId := a.routeId
    stopId := nextStop.id
    dayOfWeek :=
      if 24 ≤ hour then if int32 (day + 1) = 7 then 0 else int32 (day + 1) else day
    masterScheduleId := a.masterScheduleId tripCounter
    stopTime :=
      if 24 ≤ hour then JString.format02 (hour - 24) ++ jc ':' :: JString.format02 realMinute
      else JString.ofInt hour ++ jc ':' :: JString.format02 realMinute }

/-- `Schedules.upsert`, which the database may refuse. -/
def save (env : ScheduleEnv) (day : Int) (p : Progress) (row : Schedule) :
    Progress × Ending Failure :=
  if row.fits then
    let saved := upsert p.schedules row (env.now p.written.length)
    ({ p with
        schedules := saved.1
        written := p.written ++ [⟨day, p.legs, p.minute, saved.2⟩] }, .returned)
  else (p, .threw .rejected)

/-- The routing service's time from a stop along the given ones. -/
def travelTime (env : ScheduleEnv) (request : Nat) (stop : Stop) (inBetween : List Stop) :
    Except Failure Int := do
  let startCoords ← getOr (env.latLngFromWKB stop.geom) .geometry
  let otherCoords ← mapE (fun s => getOr (env.latLngFromWKB s.geom) .geometry) inBetween
  getOr (env.totalTime request startCoords otherCoords) .osrm

/-- One leg: from a stop to the next one. -/
def drive (env : ScheduleEnv) (a : ScheduleArgs) (stops : List Stop) (day : Int) (p : Progress)
    (ends : Stop × Stop) : Progress × Ending Failure :=
  let inBetween := getInBetweenStops stops ends.1 ends.2 ++ [ends.2]
  match travelTime env p.requests ends.1 inBetween with
  | .error e => (p, .threw e)
  | .ok totalTime =>
    let leg : Leg := ⟨totalTime, inBetween.length⟩
    let minute := int32 (p.minute + (legEta leg).tdiv 60)
    save env day
      { p with minute := minute, requests := p.requests + 1, legs := p.legs ++ [leg] }
      (arrival a day p.tripCounter ends.2 minute)

/-- Once around the circuit. -/
def cycle (env : ScheduleEnv) (a : ScheduleArgs) (stops : List Stop) (day : Int) (p : Progress) :
    Progress × Ending Failure :=
  match forEach (drive env a stops day) p (stops.zip (stops.tail ++ stops.take 1)) with
  | (p', .returned) => ({ p' with tripCounter := int32 (p'.tripCounter + 1) }, .returned)
  | r => r

/-- `totalMinutes`. -/
def totalMinutes (a : ScheduleArgs) : Int := int32 (int32 (a.endHour - a.startHour) * 60)

/-- One day, with at most `fuel` rounds. -/
def generateDay (env : ScheduleEnv) (a : ScheduleArgs) (stops : List Stop) (fuel : Nat)
    (p : Progress) (day : Int) : Progress × Ending Failure :=
  let p := { p with minute := a.startMinute, tripCounter := 1, legs := [] }
  match stops.head? with
  | none => (p, .threw .stop)
  | some first =>
    match save env day p (initialStop a day first) with
    | (p, .returned) =>
      whileDo (fun p => p.minute ≤ totalMinutes a) (cycle env a stops day) fuel p
    | r => r

/-- `Schedule.scala:30–143`. -/
def generateSchedule (env : ScheduleEnv) (stops : Table Stop) (schedules : Table Schedule)
    (a : ScheduleArgs) (fuel : Nat) : Progress × Ending Failure :=
  forEach (generateDay env a (Route.getStops stops a.routeId) fuel) { schedules } a.days

/-! ## The reader -/

/-- `MAX_STOP_TIME`, in minutes. -/
def maxStopTime : Int := 1440

/-- `Minutes.minutesBetween(t, t').getMinutes`, which counts whole minutes. -/
def minutesBetween (t t' : Int) : Int := (t' - t).tdiv DateTime.minuteMillis

/-- The day of the week with Sunday as 0, as the rows have it. -/
def dayNumber (t : Int) : Int :=
  if DateTime.getDayOfWeek t = 7 then 0 else DateTime.getDayOfWeek t

/-- An element of the answer. -/
structure Departure where
  day : Int
  id : Int
  time : JString
deriving DecidableEq

/-- What the answer says of a row. -/
def departure (s : Schedule) : Departure := ⟨s.dayOfWeek, s.id, s.stopTime⟩

/-- The test of the filter in `getTodaysSchedule`. -/
def isShown (U : Unicode) (today : Int) (s : Schedule) : Except Failure Bool := do
  let tomorrow := DateTime.plusDays today 1
  let (stopHour, stopMinute) ← getOr (hourAndMinute U s.stopTime) .schedule
  let t ← getOr (DateTime.withHourOfDay today stopHour) .schedule
  let todayStopTime ← getOr (DateTime.withMinuteOfHour t stopMinute) .schedule
  let t ← getOr (DateTime.withHourOfDay tomorrow stopHour) .schedule
  let tomorrowStopTime ← getOr (DateTime.withMinuteOfHour t stopMinute) .schedule
  return (today < todayStopTime && minutesBetween today todayStopTime ≤ maxStopTime) ||
    (today < tomorrowStopTime && minutesBetween today tomorrowStopTime ≤ maxStopTime)

/-- A filter whose test may throw. -/
def filterE (p : Schedule → Except Failure Bool) : List Schedule → Except Failure (List Schedule)
  | [] => .ok []
  | s :: rest => do
    let keep ← p s
    let kept ← filterE p rest
    return if keep then s :: kept else kept

section

-- the order of the column in the database, which depends on its collation
variable (le : JString → JString → Prop) [DecidableRel le]

/-- `Schedule.scala:145–190`. -/
def getTodaysSchedule (U : Unicode) (schedules : Table Schedule) (today stopId : Int) :
    Except Failure (List Departure) := do
  let todayDay := dayNumber today
  let tomorrowDay := dayNumber (DateTime.plusDays today 1)
  let sched := (schedules.fetch fun s => s.stopId == stopId &&
    (s.dayOfWeek == todayDay || s.dayOfWeek == tomorrowDay)).insertionSort
      fun s s' => le s.stopTime s'.stopTime
  let shown ← filterE (isShown U today) sched
  return (shown.insertionSort fun s s' => s.dayOfWeek ≤ s'.dayOfWeek).map departure

end

/-! ## The timetable of a stop -/

/-- `first to last`. -/
def dayRange (first last : Int) : List Int :=
  (List.range (last + 1 - first).toNat).map fun i : Nat => first + i

/-- The days on which the route runs (`Schedule.scala:215–219`). -/
def days (r : Route) : List Int :=
  if r.dayStart < r.dayEnd then dayRange r.dayStart r.dayEnd
  else dayRange r.dayStart 6 ++ dayRange 0 r.dayEnd

/-- `Schedule.scala:192–234`: the pairs of the map that it answers with, or `none` when it
throws. A day that is listed twice has the same times both times. -/
def getForStop (routes : Table Route) (schedules : Table Schedule) (stopId routeId : Int) :
    Option (List (DayOfWeek × List (Int × JString))) :=
  match routes.fetchOne fun r => r.id == routeId with
  | none => none
  | some r =>
    -- `or` binds no weaker than `and`, and is the last of the four
    let stopSchedule := schedules.fetch fun s =>
      (s.stopId == stopId && s.routeId == routeId && r.dayStart ≤ s.dayOfWeek) ||
        s.dayOfWeek ≤ r.dayEnd
    (days r).mapM fun day => (DayOfWeek.ofId day).map fun name =>
      (name, (stopSchedule.filter fun s => s.dayOfWeek == day).map fun s => (s.id, s.stopTime))

theorem mem_dayRange {first last day : Int} :
    day ∈ dayRange first last ↔ first ≤ day ∧ day ≤ last := by
  rw [dayRange, List.mem_map]
  constructor
  · rintro ⟨i, hi, rfl⟩
    rw [List.mem_range] at hi
    omega
  · rintro ⟨hlo, hhi⟩
    exact ⟨(day - first).toNat, List.mem_range.mpr (by omega), by omega⟩

theorem mem_days {r : Route} {day : Int} :
    day ∈ days r ↔ (r.dayStart < r.dayEnd ∧ r.dayStart ≤ day ∧ day ≤ r.dayEnd) ∨
      (r.dayEnd ≤ r.dayStart ∧ ((r.dayStart ≤ day ∧ day ≤ 6) ∨ (0 ≤ day ∧ day ≤ r.dayEnd))) := by
  unfold days
  by_cases h : r.dayStart < r.dayEnd
  · rw [if_pos h, mem_dayRange]
    omega
  · rw [if_neg h, List.mem_append, mem_dayRange, mem_dayRange]
    omega

end Schedule

end Maiden
