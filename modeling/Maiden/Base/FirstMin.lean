import Mathlib.Data.List.MinMax
import Mathlib.Data.Prod.Lex

/-!
# The first minimum of a list

`firstMin` numbers the elements of a list and takes the smallest pair in the lexicographic
order, which is the smallest element at its first place (`firstMin_eq_some_iff`). When the
list has been filtered before, the number is a place in the filtered list; the place in the
list itself is further on by the number of elements that were dropped before it
(`firstMin_filter_iff`).
-/

namespace Maiden

/-! ## Places in a list and in a filtered list -/

section

variable {α : Type*} {l : List α} {a b : α} {i j k : Nat}

theorem mem_take_of_lt (hb : l[j]? = some b) (h : j < i) : b ∈ l.take i :=
  List.mem_iff_getElem?.mpr ⟨j, by rw [List.getElem?_take_of_lt h, hb]⟩

/-- What is at a place of a list that is kept, is in the filtered list after what was kept of
the places before. -/
theorem getElem?_filter {p : α → Bool} (hplace : l[i]? = some a) (ha : p a = true) :
    (l.filter p)[((l.take i).filter p).length]? = some a ∧
      (l.filter p).take ((l.take i).filter p).length = (l.take i).filter p := by
  obtain ⟨hi, rfl⟩ := List.getElem?_eq_some_iff.mp hplace
  have hsplit : l.filter p = (l.take i).filter p ++ l[i] :: (l.drop (i + 1)).filter p := by
    rw [← List.filter_cons_of_pos ha, List.getElem_cons_drop, ← List.filter_append,
      List.take_append_drop]
  rw [hsplit]
  exact ⟨by simp, List.take_left⟩

theorem exists_of_getElem?_filter {p : α → Bool} (h : (l.filter p)[k]? = some a) :
    ∃ i, l[i]? = some a ∧ ((l.take i).filter p).length = k := by
  induction l generalizing k with
  | nil => cases h
  | cons b l ih =>
    by_cases hb : p b = true
    · rw [List.filter_cons_of_pos hb] at h
      cases k with
      | zero => exact ⟨0, h, rfl⟩
      | succ k =>
        obtain ⟨i, hplace, hlen⟩ := ih h
        exact ⟨i + 1, hplace, by rw [List.take_succ_cons, List.filter_cons_of_pos hb,
          List.length_cons, hlen]⟩
    · rw [List.filter_cons_of_neg hb] at h
      obtain ⟨i, hplace, hlen⟩ := ih h
      exact ⟨i + 1, hplace, by rw [List.take_succ_cons, List.filter_cons_of_neg hb, hlen]⟩

end

/-! ## The first minimum -/

variable {α : Type*} [LinearOrder α] {l : List α} {a b : α} {i j k : Nat}

/-- The smallest element and the number of its first place. -/
def firstMin (l : List α) : Option (α × Nat) := l.zipIdx.argmin toLex

/-- `a` is the smallest element of the list, and `i` its first place. -/
structure IsFirstMin (l : List α) (a : α) (i : Nat) : Prop where
  place : l[i]? = some a
  least : ∀ b ∈ l, a ≤ b
  first : ∀ b ∈ l.take i, a < b

theorem IsFirstMin.unique (h : IsFirstMin l a i) (h' : IsFirstMin l b j) : a = b ∧ i = j := by
  have hab : a = b :=
    le_antisymm (h.least b (List.mem_of_getElem? h'.place))
      (h'.least a (List.mem_of_getElem? h.place))
  refine ⟨hab, ?_⟩
  rcases Nat.lt_trichotomy i j with hlt | heq | hgt
  · exact absurd (h'.first a (mem_take_of_lt h.place hlt)) hab.le.not_gt
  · exact heq
  · exact absurd (h.first b (mem_take_of_lt h'.place hgt)) hab.ge.not_gt

theorem firstMin_eq_none_iff : firstMin l = none ↔ l = [] := by
  rw [firstMin, List.argmin_eq_none, List.zipIdx_eq_nil_iff]

/-- The minimum of the pairs of an element and its place is a smallest element at its first
place. -/
theorem isFirstMin_of_firstMin (h : firstMin l = some (a, i)) : IsFirstMin l a i := by
  -- pairs are compared by the element and then by the place
  have hleast : ∀ b j, l[j]? = some b → a < b ∨ a = b ∧ i ≤ j := by
    intro b j hb
    have hmem : (b, j) ∈ l.zipIdx := List.mem_zipIdx_iff_getElem?.mpr hb
    exact Prod.Lex.toLex_le_toLex.mp (List.le_of_mem_argmin hmem h)
  refine ⟨List.mem_zipIdx_iff_getElem?.mp (List.argmin_mem h), fun b hb => ?_, fun b hb => ?_⟩
  · obtain ⟨j, hj⟩ := List.mem_iff_getElem?.mp hb
    rcases hleast b j hj with hlt | ⟨heq, -⟩
    · exact hlt.le
    · exact heq.le
  · obtain ⟨j, hj⟩ := List.mem_iff_getElem?.mp hb
    have hji : j < i := by
      by_contra hge
      rw [List.getElem?_take_eq_none (Nat.not_lt.mp hge)] at hj
      cases hj
    rw [List.getElem?_take_of_lt hji] at hj
    rcases hleast b j hj with hlt | ⟨-, hle⟩
    · exact hlt
    · omega

theorem firstMin_eq_some_iff : firstMin l = some (a, i) ↔ IsFirstMin l a i := by
  refine ⟨isFirstMin_of_firstMin, fun h => ?_⟩
  cases hmin : firstMin l with
  | none =>
    rw [firstMin_eq_none_iff.mp hmin] at h
    cases h.place
  | some found =>
    obtain ⟨b, j⟩ := found
    obtain ⟨rfl, rfl⟩ := h.unique (isFirstMin_of_firstMin hmin)
    rfl

/-- The number of the first minimum among the elements that are kept: its place in the whole
list, less the elements before it that are dropped. -/
theorem firstMin_filter_iff {p : α → Bool} : firstMin (l.filter p) = some (a, k) ↔
    ∃ i, l[i]? = some a ∧ p a = true ∧ (∀ b ∈ l, p b = true → a ≤ b) ∧
      (∀ b ∈ l.take i, p b = true → a < b) ∧ ((l.take i).filter p).length = k := by
  rw [firstMin_eq_some_iff]
  constructor
  · intro h
    obtain ⟨i, hplace, rfl⟩ := exists_of_getElem?_filter h.place
    have ha : p a = true := (List.mem_filter.mp (List.mem_of_getElem? h.place)).2
    refine ⟨i, hplace, ha, fun b hb hp => h.least b (List.mem_filter.mpr ⟨hb, hp⟩),
      fun b hb hp => h.first b ?_, rfl⟩
    rw [(getElem?_filter hplace ha).2]
    exact List.mem_filter.mpr ⟨hb, hp⟩
  · rintro ⟨i, hplace, ha, hleast, hfirst, rfl⟩
    obtain ⟨hkept, hbefore⟩ := getElem?_filter hplace ha
    refine ⟨hkept, fun b hb => ?_, fun b hb => ?_⟩
    · obtain ⟨hmem, hp⟩ := List.mem_filter.mp hb
      exact hleast b hmem hp
    · rw [hbefore] at hb
      obtain ⟨hmem, hp⟩ := List.mem_filter.mp hb
      exact hfirst b hmem hp

end Maiden
