import Mathlib.Order.Bounds.Basic
import Mathlib.Tactic.Common

/-!
# Recurring times

Something that happens once in every period happens at the times of one residue class.
`first` is the first of them from a given time on: it is the least (`isLeast_first`), and
the only one within a period (`first_eq_iff`, `isLeast_iff`).
-/

namespace Maiden.Recurrence

/-- The first time from `lo` on that is `c` modulo the period. -/
def first (period c lo : Int) : Int := lo + (c - lo) % period

variable {period : Int}

theorem first_eq_iff (hperiod : 0 < period) {c lo t : Int} :
    first period c lo = t ↔ lo ≤ t ∧ t < lo + period ∧ t % period = c % period := by
  unfold first
  have hlo := Int.emod_nonneg (c - lo) (ne_of_gt hperiod)
  have hhi := Int.emod_lt_of_pos (c - lo) hperiod
  constructor
  · rintro rfl
    refine ⟨by omega, by omega, ?_⟩
    rw [Int.add_emod_emod, Int.add_comm, Int.sub_add_cancel]
  · rintro ⟨hle, hlt, hmod⟩
    -- the distances from `lo` agree modulo the period, and both are less than it
    have hsame : (c - lo) % period = (t - lo) % period := by
      rw [Int.sub_emod, ← hmod, ← Int.sub_emod]
    rw [hsame, Int.emod_eq_of_lt (by omega) (by omega)]
    omega

theorem isLeast_first (hperiod : 0 < period) (c lo : Int) :
    IsLeast {t | lo ≤ t ∧ t % period = c % period} (first period c lo) := by
  obtain ⟨hle, hlt, hmod⟩ := (first_eq_iff hperiod).mp (rfl : first period c lo = _)
  refine ⟨⟨hle, hmod⟩, fun t ⟨hle', hmod'⟩ => ?_⟩
  rcases lt_or_ge t (lo + period) with hlt' | hge'
  · exact le_of_eq ((first_eq_iff hperiod).mpr ⟨hle', hlt', hmod'⟩)
  · exact le_of_lt (lt_of_lt_of_le hlt hge')

theorem isLeast_iff (hperiod : 0 < period) {c lo t : Int} :
    IsLeast {t | lo ≤ t ∧ t % period = c % period} t ↔
      lo ≤ t ∧ t < lo + period ∧ t % period = c % period := by
  rw [← first_eq_iff hperiod]
  constructor
  · exact fun h => (isLeast_first hperiod c lo).unique h
  · rintro rfl
    exact isLeast_first hperiod c lo

end Maiden.Recurrence
