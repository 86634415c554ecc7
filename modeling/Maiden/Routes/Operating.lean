import Maiden.Schedules.Today

/-!
# Which routes are operating?

A route runs on a range of days of the week and in a range of hours. Both may wrap: a route
from Thursday to Monday, or from six in the evening to two in the morning. `getForStop`
expands the days that way (`Schedule.days`). `getCurrentlyActive` leaves both ranges to SQL's
`between`, which does not wrap, and it asks with Joda's day of the week, in which Sunday is 7
and so after all days of the table.

The code returns no route that is not operating (`operates_of_mem`); `currentlyActive_iff` says
which operating routes it misses.
-/

namespace Maiden

open DateTime JString

/-! ## Times of day as texts -/

/-- A time of day that can be written with two digits for the hour and two for the minute. -/
structure ClockTime where
  hour : Int
  minute : Int
  hour_range : 0 ≤ hour ∧ hour < 100
  minute_range : 0 ≤ minute ∧ minute < 60

namespace ClockTime

/-- The time as `HH:MM`. -/
def text (t : ClockTime) : JString := Route.padded t.hour ++ jc ':' :: Route.padded t.minute

/-- The minutes since midnight. -/
def minutes (t : ClockTime) : Int := t.hour * 60 + t.minute

/-- The time of day of an instant. -/
def of (now : Int) : ClockTime where
  hour := getHourOfDay now
  minute := getMinuteOfHour now
  hour_range := by
    unfold getHourOfDay dayMillis hourMillis
    omega
  minute_range := by
    unfold getMinuteOfHour hourMillis minuteMillis
    omega

end ClockTime

/-- The order of texts by their first difference. -/
def lexLe : JString → JString → Bool
  | [], _ => true
  | _ :: _, [] => false
  | a :: s, b :: t => a < b || (a == b && lexLe s t)

theorem lexLe_nil (t : JString) : lexLe [] t = true := rfl

theorem lexLe_cons {a b : Nat} {s t : JString} :
    lexLe (a :: s) (b :: t) = true ↔ a < b ∨ (a = b ∧ lexLe s t = true) := by
  rw [lexLe, Bool.or_eq_true, Bool.and_eq_true, decide_eq_true_eq, beq_iff_eq]

/-- Any two texts can be compared. -/
theorem lexLe_total (s t : JString) : lexLe s t = true ∨ lexLe t s = true := by
  induction s generalizing t with
  | nil => exact Or.inl (lexLe_nil t)
  | cons a s ih =>
    cases t with
    | nil => exact Or.inr (lexLe_nil _)
    | cons b t =>
      rw [lexLe_cons, lexLe_cons]
      rcases lt_trichotomy a b with hlt | heq | hgt
      · exact Or.inl (Or.inl hlt)
      · exact (ih t).imp (fun h => Or.inr ⟨heq, h⟩) fun h => Or.inr ⟨heq.symm, h⟩
      · exact Or.inr (Or.inl hgt)

/-- Comparison goes by the first difference, wherever that is. -/
theorem lexLe_trans {s t u : JString} (hst : lexLe s t = true) (htu : lexLe t u = true) :
    lexLe s u = true := by
  induction s generalizing t u with
  | nil => exact lexLe_nil u
  | cons a s ih =>
    match t, u with
    | b :: t, c :: u =>
      rw [lexLe_cons] at hst htu ⊢
      rcases hst with hlt | ⟨rfl, hst⟩
      · exact Or.inl (htu.elim (lt_trans hlt) fun h => h.1 ▸ hlt)
      · exact htu.imp_right fun h => ⟨h.1, ih hst h.2⟩

theorem lexLe_antisymm {s t : JString} (hst : lexLe s t = true) (hts : lexLe t s = true) :
    s = t := by
  induction s generalizing t with
  | nil =>
    cases t with
    | nil => rfl
    | cons b t => cases hts
  | cons a s ih =>
    match t with
    | b :: t =>
      rw [lexLe_cons] at hst hts
      obtain ⟨rfl, hst'⟩ := hst.resolve_left fun hlt => by omega
      rw [ih hst' (hts.resolve_left (lt_irrefl a)).2]

/-- Two digits, a colon and two digits. -/
def IsClockText (s : JString) : Prop :=
  ∃ a b c d, s = [a, b, jc ':', c, d] ∧ ∀ x ∈ [a, b, c, d], isAsciiDigit x = true

/-- The database orders times of day by their digits, as every collation does: texts of one
form are told apart by the first digit that differs. -/
def OrdersClockTexts (le : JString → JString → Prop) : Prop :=
  ∀ s t, IsClockText s → IsClockText t → (le s t ↔ lexLe s t = true)

/-- Two digits, the first possibly zero. -/
theorem padded_of_lt {n : Int} (hlo : 0 ≤ n) (hhi : n < 100) :
    Route.padded n = [48 + n.toNat / 10, 48 + n.toNat % 10] := by
  have htable : ∀ k : Fin 100,
      Route.padded (k : Nat) = [48 + (k : Nat) / 10, 48 + (k : Nat) % 10] := by decide
  have h := htable ⟨n.toNat, by omega⟩
  rwa [show (((⟨n.toNat, by omega⟩ : Fin 100) : Nat) : Int) = n by simp; omega] at h

/-- A clock text has five characters with the colon in the middle, which is why comparing texts
compares times. -/
theorem ClockTime.text_eq (t : ClockTime) : t.text =
    [48 + t.hour.toNat / 10, 48 + t.hour.toNat % 10, jc ':', 48 + t.minute.toNat / 10,
      48 + t.minute.toNat % 10] := by
  obtain ⟨hlo, hhi⟩ := t.hour_range
  obtain ⟨hlo', hhi'⟩ := t.minute_range
  rw [text, padded_of_lt hlo hhi, padded_of_lt hlo' (by omega)]
  rfl

theorem ClockTime.isClockText (t : ClockTime) : IsClockText t.text := by
  have hhour := t.hour_range
  have hminute := t.minute_range
  refine ⟨_, _, _, _, t.text_eq, fun x hx => isAsciiDigit_iff.mpr ?_⟩
  simp only [List.mem_cons, List.not_mem_nil, or_false] at hx
  omega

/-- **Texts and times are in the same order**, since the texts have leading zeros. -/
theorem OrdersClockTexts.text_le {le : JString → JString → Prop} (h : OrdersClockTexts le)
    (t t' : ClockTime) : le t.text t'.text ↔ t.minutes ≤ t'.minutes := by
  rw [h _ _ t.isClockText t'.isClockText, t.text_eq, t'.text_eq]
  have hhour := t.hour_range
  have hminute := t.minute_range
  have hhour' := t'.hour_range
  have hminute' := t'.minute_range
  unfold ClockTime.minutes
  simp only [lexLe_cons, lexLe_nil, and_true, lt_self_iff_false, false_or, true_and]
  omega

/-! ## Operating hours -/

/-- The row can be read: days of the week and times of day. -/
structure Route.WellFormed (r : Route) (opens closes : ClockTime) : Prop where
  dayStart : 0 ≤ r.dayStart ∧ r.dayStart ≤ 6
  dayEnd : 0 ≤ r.dayEnd ∧ r.dayEnd ≤ 6
  hourStart : r.hourStart = opens.text
  hourEnd : r.hourEnd = closes.text

/-- The time is in the range, which goes through midnight if it ends before it starts. -/
def WithinHours (opens closes t : ClockTime) : Prop :=
  if closes.minutes < opens.minutes then
    opens.minutes ≤ t.minutes ∨ t.minutes ≤ closes.minutes
  else opens.minutes ≤ t.minutes ∧ t.minutes ≤ closes.minutes

instance (opens closes t : ClockTime) : Decidable (WithinHours opens closes t) :=
  inferInstanceAs (Decidable (ite _ _ _))

/-- The route is running at the instant. -/
def Operates (r : Route) (opens closes : ClockTime) (now : Int) : Prop :=
  r.active = true ∧ weekday now ∈ Schedule.days r ∧ WithinHours opens closes (ClockTime.of now)

instance (r : Route) (opens closes : ClockTime) (now : Int) :
    Decidable (Operates r opens closes now) :=
  inferInstanceAs (Decidable (_ ∧ _ ∧ _))

/-- It is not Sunday, and neither range wraps: the route stops on a later day of the week
than it starts, or runs on this day only, and it closes no earlier than it opens. -/
def NoWrap (r : Route) (opens closes : ClockTime) (now : Int) : Prop :=
  weekday now ≠ 0 ∧
    (r.dayStart < r.dayEnd ∨ (r.dayStart = weekday now ∧ r.dayEnd = weekday now)) ∧
    opens.minutes ≤ closes.minutes

section

variable {le : JString → JString → Prop} [DecidableRel le] {routes : Table Route} {r : Route}
  {opens closes : ClockTime} {now : Int}

/-- Joda counts Sunday as the seventh day, the schedules as the zeroth. -/
theorem getDayOfWeek_cases (now : Int) :
    (weekday now = 0 ∧ getDayOfWeek now = 7) ∨
      (1 ≤ weekday now ∧ weekday now ≤ 6 ∧ getDayOfWeek now = weekday now) := by
  unfold weekday getDayOfWeek
  omega

variable (now) in
/-- What the query asks for. -/
theorem mem_getCurrentlyActive (hle : OrdersClockTexts le) (h : r.WellFormed opens closes)
    (hr : r ∈ routes.rows) :
    r ∈ Route.getCurrentlyActive le routes now ↔
      (r.dayStart ≤ getDayOfWeek now ∧ getDayOfWeek now ≤ r.dayEnd) ∧
      (opens.minutes ≤ (ClockTime.of now).minutes ∧
        (ClockTime.of now).minutes ≤ closes.minutes) ∧ r.active = true := by
  have hquery : r ∈ Route.getCurrentlyActive le routes now ↔
      (r.dayStart ≤ getDayOfWeek now ∧ getDayOfWeek now ≤ r.dayEnd) ∧
      (le r.hourStart (ClockTime.of now).text ∧ le (ClockTime.of now).text r.hourEnd) ∧
      r.active = true := by
    rw [Route.getCurrentlyActive, Table.mem_fetch]
    simp only [Bool.and_eq_true, decide_eq_true_eq, hr, true_and, and_assoc]
    rfl
  rw [hquery, h.hourStart, h.hourEnd, hle.text_le, hle.text_le]

/-- The range of days, on a day that is not Sunday. -/
theorem between_iff (hday : weekday now ∈ Schedule.days r) (hend : r.dayEnd ≤ 6) :
    (r.dayStart ≤ getDayOfWeek now ∧ getDayOfWeek now ≤ r.dayEnd) ↔
      weekday now ≠ 0 ∧
        (r.dayStart < r.dayEnd ∨ (r.dayStart = weekday now ∧ r.dayEnd = weekday now)) := by
  rw [Schedule.mem_days] at hday
  have hcases := getDayOfWeek_cases now
  omega

/-- **No route is returned that is not operating.** Comparing with both ends can miss a range that
wraps, but it never takes a wrong day or hour in. -/
theorem operates_of_mem (hle : OrdersClockTexts le) (h : r.WellFormed opens closes)
    (hr : r ∈ routes.rows) (hmem : r ∈ Route.getCurrentlyActive le routes now) :
    Operates r opens closes now := by
  obtain ⟨⟨hfrom, hto⟩, ⟨hopen, hclose⟩, hactive⟩ := (mem_getCurrentlyActive now hle h hr).mp hmem
  refine ⟨hactive, Schedule.mem_days.mpr ?_, ?_⟩
  · -- Joda's Sunday is after the last day of the table
    have hend := h.dayEnd
    have hcases := getDayOfWeek_cases now
    omega
  · rw [WithinHours, if_neg (by omega)]
    exact ⟨hopen, hclose⟩

/-- **Currently operating routes.** For every table, every route of it whose days and hours
are well formed and every instant: the route is returned exactly when it is operating, if and
only if it is not operating or the instant is not on a Sunday and neither range wraps. -/
theorem currentlyActive_iff (hle : OrdersClockTexts le) (h : r.WellFormed opens closes)
    (hr : r ∈ routes.rows) :
    (r ∈ Route.getCurrentlyActive le routes now ↔ Operates r opens closes now) ↔
      (Operates r opens closes now → NoWrap r opens closes now) := by
  have hmem := mem_getCurrentlyActive now hle h hr
  constructor
  · -- an operating route that is returned has passed both comparisons, so neither range wraps
    intro hexact hop
    obtain ⟨hdays, ⟨hopen, hclose⟩, -⟩ := hmem.mp (hexact.mpr hop)
    obtain ⟨hsunday, hwrap⟩ := (between_iff hop.2.1 h.dayEnd.2).mp hdays
    exact ⟨hsunday, hwrap, hopen.trans hclose⟩
  · intro hnowrap
    refine ⟨operates_of_mem hle h hr, fun hop => hmem.mpr ?_⟩
    obtain ⟨hsunday, hwrap, hhours⟩ := hnowrap hop
    obtain ⟨hactive, hday, hwithin⟩ := hop
    rw [WithinHours, if_neg (by omega)] at hwithin
    exact ⟨(between_iff hday h.dayEnd.2).mpr ⟨hsunday, hwrap⟩, hwithin, hactive⟩

end

/-! ## Routes that run all day -/

/-- A route from the first minute of a day to the last. -/
def allDay (dayStart dayEnd : Int) : Route where
  id := 1
  dayStart
  dayEnd
  hourEnd := js ['2', '3', ':', '5', '9']

def midnight : ClockTime := ⟨0, 0, by decide, by decide⟩

def lastMinute : ClockTime := ⟨23, 59, by decide, by decide⟩

theorem ordersClockTexts_lexLe : OrdersClockTexts fun s t => lexLe s t = true :=
  fun _ _ _ _ => Iff.rfl

/-- A route from Monday to Friday is returned on a Thursday. -/
theorem currentlyActive_weekdays :
    (allDay 1 5).WellFormed midnight lastMinute ∧ Operates (allDay 1 5) midnight lastMinute 0 ∧
      (allDay 1 5 ∈ Route.getCurrentlyActive (fun s t => lexLe s t = true)
          (Table.empty.insert (allDay 1 5)) 0 ↔
        Operates (allDay 1 5) midnight lastMinute 0) := by
  have h : (allDay 1 5).WellFormed midnight lastMinute :=
    ⟨by decide, by decide, by decide, by decide⟩
  refine ⟨h, by decide, (currentlyActive_iff ordersClockTexts_lexLe h (by decide)).mpr fun _ => ?_⟩
  exact ⟨by decide, Or.inl (by decide), by decide⟩

/-- The days that the database gives to a route by default are Thursday to Monday. On a
Thursday such a route is running, and it is not returned. -/
theorem default_route_missed :
    (allDay 4 1).WellFormed midnight lastMinute ∧ Operates (allDay 4 1) midnight lastMinute 0 ∧
      allDay 4 1 ∈ (Table.empty.insert (allDay 4 1)).rows ∧
      Route.getCurrentlyActive (fun s t => lexLe s t = true) (Table.empty.insert (allDay 4 1)) 0 =
        [] :=
  ⟨⟨by decide, by decide, by decide, by decide⟩, by decide, by decide, by decide⟩

end Maiden
