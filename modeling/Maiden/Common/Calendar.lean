import Mathlib.Tactic.Common

/-!
# Dates (`org.joda.time.DateTime`)

Instants are milliseconds of local time since the start of 1970, a Thursday, on a
calendar whose days all have 24 hours. The functions are the `DateTime` methods
the models call; the two `with…` methods throw on a value outside their range.
-/

namespace Maiden.DateTime

def dayMillis : Int := 86400000

def hourMillis : Int := 3600000

def minuteMillis : Int := 60000

/-- Monday is 1 and Sunday is 7. -/
def getDayOfWeek (t : Int) : Int := (t / dayMillis + 3) % 7 + 1

def getHourOfDay (t : Int) : Int := t % dayMillis / hourMillis

def getMinuteOfHour (t : Int) : Int := t % hourMillis / minuteMillis

def plusDays (t n : Int) : Int := t + n * dayMillis

def plusSeconds (t n : Int) : Int := t + n * 1000

/-- The instant with its hour of the day replaced. -/
def withHourOfDay (t h : Int) : Option Int :=
  if 0 ≤ h ∧ h ≤ 23 then some (t + (h - getHourOfDay t) * hourMillis) else none

/-- The instant with its minute of the hour replaced. -/
def withMinuteOfHour (t m : Int) : Option Int :=
  if 0 ≤ m ∧ m ≤ 59 then some (t + (m - getMinuteOfHour t) * minuteMillis) else none

/-- The day of `t` at the given time; the seconds are those of `t`. -/
def atTime (t h m : Int) : Int :=
  t - t % dayMillis + h * hourMillis + m * minuteMillis + t % minuteMillis

/-- Replacing the hour and then the minute leaves the day and the seconds. -/
theorem withTime {h m : Int} (hh : 0 ≤ h ∧ h ≤ 23) (hm : 0 ≤ m ∧ m ≤ 59) (t : Int) :
    ∃ t', withHourOfDay t h = some t' ∧ withMinuteOfHour t' m = some (atTime t h m) := by
  refine ⟨_, if_pos hh, ?_⟩
  rw [withMinuteOfHour, if_pos hm]
  refine congrArg some ?_
  unfold atTime getMinuteOfHour getHourOfDay dayMillis hourMillis minuteMillis
  omega

end Maiden.DateTime
