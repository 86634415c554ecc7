import Maiden.Models.Schedule

/-!
# Whose rows are in a stop's timetable?

`getForStop` should list the rows of one stop on one route, by the days on which the route
runs. Its `where` clause ends in `… and (dayOfWeek gte dayStart) or (dayOfWeek lte dayEnd)`,
and Scala gives `and` and `or` the same rank: the last test stands alone, for the rows of
every stop and route. No row of its own is lost that way, because an operating day is not
before the first one or not after the last (`start_le_or_le_end`); but the days up to `dayEnd`
show the rows of everybody (`mem_shownRows`). `getForStop_iff` says when nobody else has any.
-/

namespace Maiden

open Schedule

section

variable (routes : Table Route) (schedules : Table Schedule) (stopId routeId : Int)

/-- The rows of the stop on the route for a day. -/
def ownRows (day : Int) : List Schedule :=
  schedules.fetch fun s => s.stopId == stopId && s.routeId == routeId && s.dayOfWeek == day

/-- What is listed of a row. -/
def listed (s : Schedule) : Int × JString := (s.id, s.stopTime)

/-- The answer has an entry for each day on which the route runs, and each entry lists the
stop's own rows for that day, in some order. -/
def ListsOwnRows (r : Route) : Prop :=
  ∃ timetable, getForStop routes schedules stopId routeId = some timetable ∧
    timetable.map (fun entry => entry.1.id) = days r ∧
    ∀ entry ∈ timetable,
      entry.2.Perm ((ownRows schedules stopId routeId entry.1.id).map listed)

/-- The rows that the code lists for a day. -/
def shownRows (r : Route) (day : Int) : List Schedule :=
  (schedules.fetch fun s =>
    (s.stopId == stopId && s.routeId == routeId && r.dayStart ≤ s.dayOfWeek) ||
      s.dayOfWeek ≤ r.dayEnd).filter fun s => s.dayOfWeek == day

end

section

variable {routes : Table Route} {schedules : Table Schedule} {stopId routeId day : Int}
  {r : Route} {s : Schedule}

/-- The name of a day. -/
def dayName (day : Int) : DayOfWeek := (DayOfWeek.ofId day).getD .sunday

theorem ofId_eq {day : Int} (hlo : 0 ≤ day) (hhi : day ≤ 6) :
    DayOfWeek.ofId day = some (dayName day) ∧ (dayName day).id = day := by
  have hall : ∀ day ∈ dayRange 0 6,
      DayOfWeek.ofId day = some (dayName day) ∧ (dayName day).id = day := by decide
  exact hall day (mem_dayRange.mpr ⟨hlo, hhi⟩)

theorem range_of_mem_days (hstart : 0 ≤ r.dayStart) (hend : r.dayEnd ≤ 6) (h : day ∈ days r) :
    0 ≤ day ∧ day ≤ 6 := by
  have := mem_days.mp h
  omega

theorem start_le_or_le_end (h : day ∈ days r) : r.dayStart ≤ day ∨ day ≤ r.dayEnd := by
  have := mem_days.mp h
  omega

/-- What `getForStop` answers. -/
theorem getForStop_eq (hroute : routes.get routeId = some r) (hstart : 0 ≤ r.dayStart)
    (hend : r.dayEnd ≤ 6) :
    getForStop routes schedules stopId routeId = some ((days r).map fun day =>
      (dayName day, (shownRows schedules stopId routeId r day).map listed)) := by
  have hfetch : routes.fetchOne (fun r => r.id == routeId) = some r := hroute
  unfold getForStop
  rw [hfetch]
  refine mapM_eq_some fun day hday => ?_
  obtain ⟨hlo, hhi⟩ := range_of_mem_days hstart hend hday
  rw [(ofId_eq hlo hhi).1]
  rfl

/-- Of an operating day the code lists the stop's own rows, and up to `dayEnd` all others. -/
theorem mem_shownRows (hday : day ∈ days r) :
    s ∈ shownRows schedules stopId routeId r day ↔ s ∈ schedules.rows ∧ s.dayOfWeek = day ∧
      ((s.stopId = stopId ∧ s.routeId = routeId) ∨ day ≤ r.dayEnd) := by
  have hcover := start_le_or_le_end hday
  unfold shownRows
  simp only [List.mem_filter, Table.mem_fetch, Bool.or_eq_true, Bool.and_eq_true, beq_iff_eq,
    decide_eq_true_iff]
  constructor
  · rintro ⟨⟨hrow, ⟨hown, -⟩ | hend⟩, rfl⟩
    · exact ⟨hrow, rfl, Or.inl hown⟩
    · exact ⟨hrow, rfl, Or.inr hend⟩
  · rintro ⟨hrow, rfl, hown | hend⟩
    · exact ⟨⟨hrow, hcover.imp_left fun hle => ⟨hown, hle⟩⟩, rfl⟩
    · exact ⟨⟨hrow, Or.inr hend⟩, rfl⟩

theorem mem_ownRows : s ∈ ownRows schedules stopId routeId day ↔
    s ∈ schedules.rows ∧ (s.stopId = stopId ∧ s.routeId = routeId) ∧ s.dayOfWeek = day := by
  rw [ownRows, Table.mem_fetch, Bool.and_eq_true, Bool.and_eq_true, beq_iff_eq, beq_iff_eq,
    beq_iff_eq]

/-- One day's list is the stop's own exactly when nobody else has a row that is let through. -/
theorem shownRows_perm_iff (hday : day ∈ days r) :
    ((shownRows schedules stopId routeId r day).map listed).Perm
        ((ownRows schedules stopId routeId day).map listed) ↔
      ∀ s ∈ schedules.rows, s.dayOfWeek = day → day ≤ r.dayEnd →
        s.stopId = stopId ∧ s.routeId = routeId := by
  constructor
  · intro hperm s hrow hsday hend
    have hshown : s ∈ shownRows schedules stopId routeId r day :=
      (mem_shownRows hday).mpr ⟨hrow, hsday, Or.inr hend⟩
    obtain ⟨s', hs', hlisted⟩ := List.mem_map.mp (hperm.subset (List.mem_map_of_mem hshown))
    obtain ⟨hrow', hown, -⟩ := mem_ownRows.mp hs'
    -- the list shows the row's key, which no other row has
    obtain rfl : s' = s := Table.eq_of_key_eq hrow' hrow (congrArg Prod.fst hlisted)
    exact hown
  · intro hnone
    have hsame : ∀ s, s ∈ shownRows schedules stopId routeId r day ↔
        s ∈ ownRows schedules stopId routeId day := by
      intro s
      rw [mem_shownRows hday, mem_ownRows]
      constructor
      · rintro ⟨hrow, hsday, hown | hend⟩
        · exact ⟨hrow, hown, hsday⟩
        · exact ⟨hrow, hnone s hrow hsday hend, hsday⟩
      · rintro ⟨hrow, hown, hsday⟩
        exact ⟨hrow, hsday, Or.inl hown⟩
    exact ((List.perm_ext_iff_of_nodup ((schedules.nodup_fetch _).filter _)
      (schedules.nodup_fetch _)).mpr hsame).map _

/-- **Whose rows are listed.** For every timetable, every route and every stop: `getForStop`
lists under each operating day exactly the rows of the stop on the route if and only if no
other stop or route has a row for an operating day that is not after `dayEnd`. -/
theorem getForStop_iff (hroute : routes.get routeId = some r)
    (hstart : 0 ≤ r.dayStart ∧ r.dayStart ≤ 6) (hend : 0 ≤ r.dayEnd ∧ r.dayEnd ≤ 6) :
    ListsOwnRows routes schedules stopId routeId r ↔
      ∀ s ∈ schedules.rows, s.dayOfWeek ∈ days r → s.dayOfWeek ≤ r.dayEnd →
        s.stopId = stopId ∧ s.routeId = routeId := by
  -- names and numbers of the days are used for each other, which is right for 0 to 6
  have hname : ∀ day ∈ days r, (dayName day).id = day := fun day hday =>
    (ofId_eq (range_of_mem_days hstart.1 hend.2 hday).1
      (range_of_mem_days hstart.1 hend.2 hday).2).2
  unfold ListsOwnRows
  rw [getForStop_eq hroute hstart.1 hend.2]
  constructor
  · rintro ⟨timetable, heq, -, hentries⟩ s hrow hday
    obtain rfl := Option.some.inj heq
    have hperm := hentries _ (List.mem_map_of_mem hday)
    rw [hname _ hday] at hperm
    exact (shownRows_perm_iff hday).mp hperm s hrow rfl
  · intro hnone
    refine ⟨_, rfl, ?_, fun entry hentry => ?_⟩
    · rw [List.map_map]
      exact (List.map_congr_left hname).trans (List.map_id _)
    · obtain ⟨day, hday, rfl⟩ := List.mem_map.mp hentry
      show (_ : List (Int × JString)).Perm _
      rw [hname day hday]
      refine (shownRows_perm_iff hday).mpr fun s hrow hsday => ?_
      subst hsday
      exact hnone s hrow hday

end

/-- A route that runs from Monday to Friday. -/
def weekdayRoute : Route := { id := 1, dayStart := 1, dayEnd := 5 }

/-- A table with that route. -/
def weekdayRoutes : Table Route := Table.empty.insert weekdayRoute

/-- The first stop on Mondays at nine. -/
def mondayRow : Schedule :=
  { routeId := 1, stopId := 1, dayOfWeek := 1, stopTime := js ['0', '9', ':', '0', '0'] }

/-- The second stop has a row only for Saturdays, when the route does not run. -/
theorem getForStop_saturdayRow :
    ListsOwnRows weekdayRoutes ((Table.empty.insert mondayRow).insert
      { mondayRow with stopId := 2, dayOfWeek := 6 }) 1 1 weekdayRoute := by
  refine (getForStop_iff (by decide) (by decide) (by decide)).mpr ?_
  decide

/-- The row of the second stop, ten minutes later, is in the first stop's timetable. -/
theorem other_stop_listed :
    weekdayRoutes.get 1 = some weekdayRoute ∧
      ¬ ListsOwnRows weekdayRoutes ((Table.empty.insert mondayRow).insert
        { mondayRow with stopId := 2, stopTime := js ['0', '9', ':', '1', '0'] }) 1 1
          weekdayRoute := by
  refine ⟨by decide, ?_⟩
  rintro ⟨timetable, hanswer, -, hentries⟩
  have hcode : (getForStop weekdayRoutes ((Table.empty.insert mondayRow).insert
      { mondayRow with stopId := 2, stopTime := js ['0', '9', ':', '1', '0'] }) 1 1) =
        some [(.monday, [(1, js ['0', '9', ':', '0', '0']), (2, js ['0', '9', ':', '1', '0'])]),
          (.tuesday, []), (.wednesday, []), (.thursday, []), (.friday, [])] := by decide
  obtain rfl := Option.some.inj (hcode.symm.trans hanswer)
  exact absurd (hentries _ List.mem_cons_self) (by decide)

end Maiden
