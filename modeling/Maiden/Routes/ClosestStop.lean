import Maiden.Models.Stop

/-!
# Is the closest stop closest?

The routing service answers with the distances from a position to itself and to each stop.
`getClosestStop` drops the zeros of the answer, to get rid of the position itself, and then
numbers what is left. A stop at distance 0 is dropped as well, and then every stop behind it is
taken for the one before (`getClosestStop_eq_some_iff`); when the vehicle stands at all the
stops there are, nothing is left and the code throws.

`closestStop_iff` says when the answer is a closest stop all the same.
-/

namespace Maiden

/-- `s` is at the smallest of the distances to the stops. -/
def IsClosest (all : List Stop) (distances : List Nat) (s : Stop) : Prop :=
  ∃ (i d : Nat), all[i]? = some s ∧ distances[i]? = some d ∧ ∀ d' ∈ distances, d ≤ d'

/-- `getClosestStop` returns a closest stop. -/
def FindsClosest (stops : Table Stop) (distances : List Nat) : Prop :=
  ∃ s, Stop.getClosestStop stops (0 :: distances) = some s ∧
    IsClosest (Stop.getAll stops) distances s

/-- The place `e` is the first one at the smallest distance that is not 0. -/
def FirstElsewhere (distances : List Nat) (e : Nat) : Prop :=
  ∃ d, distances[e]? = some d ∧ d ≠ 0 ∧ (∀ d' ∈ distances, d' ≠ 0 → d ≤ d') ∧
    ∀ d' ∈ distances.take e, d' ≠ 0 → d < d'

variable {stops : Table Stop} {distances : List Nat} {s : Stop} {e : Nat}

theorem nodup_getAll (stops : Table Stop) : (Stop.getAll stops).Nodup :=
  (List.perm_insertionSort _ stops.rows).nodup_iff.mpr stops.nodup_rows

theorem length_getAll (stops : Table Stop) : (Stop.getAll stops).length = stops.rows.length :=
  List.length_insertionSort _ _

theorem FirstElsewhere.lt (h : FirstElsewhere distances e) : e < distances.length := by
  obtain ⟨d, hplace, -⟩ := h
  exact (List.getElem?_eq_some_iff.mp hplace).1

/-- The entries before a place that are not 0. -/
theorem length_filter_take (he : e < distances.length) :
    ((distances.take e).filter fun x => x != 0).length = e - (distances.take e).count 0 := by
  have hlen : (distances.take e).length = e := List.length_take_of_le he.le
  have hsum : (distances.take e).length =
      (distances.take e).count 0 + (distances.take e).countP fun x => x != 0 := by
    rw [List.length_eq_countP_add_countP fun x => x == 0]
    refine congrArg _ (List.countP_congr fun x _ => ?_)
    rw [decide_eq_true_iff, beq_iff_eq, bne_iff_ne]
  rw [← List.countP_eq_length_filter]
  omega

/-- The stop that the code takes: as many places before the nearest stop elsewhere as there are
stops at distance 0 before it. -/
theorem getClosestStop_eq_some_iff :
    Stop.getClosestStop stops (0 :: distances) = some s ↔ ∃ e, FirstElsewhere distances e ∧
      (Stop.getAll stops)[e - (distances.take e).count 0]? = some s := by
  -- the code looks for the place in the list without zeroes, and uses it in the list with them
  have hposition : ∀ d k, firstMin ((0 :: distances).filter fun x => x != 0) = some (d, k) ↔
      ∃ e, distances[e]? = some d ∧ d ≠ 0 ∧ (∀ d' ∈ distances, d' ≠ 0 → d ≤ d') ∧
        (∀ d' ∈ distances.take e, d' ≠ 0 → d < d') ∧ e - (distances.take e).count 0 = k := by
    intro d k
    rw [List.filter_cons_of_neg (by decide), firstMin_filter_iff]
    refine exists_congr fun e => and_congr_right fun hplace => ?_
    rw [length_filter_take (List.getElem?_eq_some_iff.mp hplace).1]
    simp only [bne_iff_ne]
  unfold Stop.getClosestStop
  constructor
  · intro h
    split at h
    · cases h
    · rename_i d k hfirst
      obtain ⟨e, hplace, hpos, hleast, hbefore, rfl⟩ := (hposition d k).mp hfirst
      exact ⟨e, ⟨d, hplace, hpos, hleast, hbefore⟩, h⟩
  · rintro ⟨e, ⟨d, hplace, hpos, hleast, hbefore⟩, hs⟩
    rw [(hposition d _).mpr ⟨e, hplace, hpos, hleast, hbefore, rfl⟩]
    exact hs

theorem exists_firstElsewhere {d : Nat} (hd : d ∈ distances) (hpos : d ≠ 0) :
    ∃ e, FirstElsewhere distances e := by
  cases hfirst : firstMin (distances.filter fun x => x != 0) with
  | none =>
    have hkept : d ∈ distances.filter fun x => x != 0 :=
      List.mem_filter.mpr ⟨hd, bne_iff_ne.mpr hpos⟩
    rw [firstMin_eq_none_iff.mp hfirst] at hkept
    cases hkept
  | some found =>
    obtain ⟨e, hplace, hpos, hleast, hbefore, -⟩ := firstMin_filter_iff.mp hfirst
    simp only [bne_iff_ne] at hpos hleast hbefore
    exact ⟨e, found.1, hplace, hpos, hleast, hbefore⟩

/-- **The closest stop.** For every table with a stop and every row of distances to its stops:
the stop that is returned is at the smallest distance if and only if no stop is at distance
0, or there is a stop elsewhere and, counting back from the first nearest of them as many places
as there are stops at distance 0 before it, one comes to a stop at distance 0. -/
theorem closestStop_iff (hsome : stops.rows ≠ []) (hlen : distances.length = stops.rows.length) :
    FindsClosest stops distances ↔ 0 ∉ distances ∨ ∃ e, FirstElsewhere distances e ∧
      distances[e - (distances.take e).count 0]? = some 0 := by
  constructor
  · rintro ⟨s, hcode, i, d, hs, hd, hleast⟩
    by_cases hzero : 0 ∈ distances
    · obtain ⟨e, he, hs'⟩ := getClosestStop_eq_some_iff.mp hcode
      -- a stop has one place only
      have hplace : i = e - (distances.take e).count 0 :=
        (List.getElem?_inj (List.getElem?_eq_some_iff.mp hs).1 (nodup_getAll stops)).mp
          (hs.trans hs'.symm)
      have hd0 : d = 0 := Nat.le_zero.mp (hleast 0 hzero)
      exact Or.inr ⟨e, he, by rw [← hplace, hd, hd0]⟩
    · exact Or.inl hzero
  · rintro (hzero | ⟨e, he, hd⟩)
    · obtain ⟨d, hd⟩ := List.exists_mem_of_ne_nil distances
        (fun h => hsome (List.eq_nil_of_length_eq_zero (by rw [← hlen, h]; rfl)))
      obtain ⟨e, he⟩ := exists_firstElsewhere hd fun h => hzero (h ▸ hd)
      have hback : e - (distances.take e).count 0 = e := by
        rw [List.count_eq_zero_of_not_mem fun h => hzero (List.mem_of_mem_take h), Nat.sub_zero]
      obtain ⟨s, hs⟩ : ∃ s, (Stop.getAll stops)[e]? = some s :=
        ⟨_, List.getElem?_eq_getElem (by rw [length_getAll, ← hlen]; exact he.lt)⟩
      obtain ⟨d', hplace, -, hleast, -⟩ := id he
      exact ⟨s, getClosestStop_eq_some_iff.mpr ⟨e, he, by rw [hback, hs]⟩, e, d', hs, hplace,
        fun d'' hd'' => hleast d'' hd'' fun h => hzero (h ▸ hd'')⟩
    · have hlt := (List.getElem?_eq_some_iff.mp hd).1
      obtain ⟨s, hs⟩ : ∃ s, (Stop.getAll stops)[e - (distances.take e).count 0]? = some s :=
        ⟨_, List.getElem?_eq_getElem (by rw [length_getAll, ← hlen]; exact hlt)⟩
      exact ⟨s, getClosestStop_eq_some_iff.mpr ⟨e, he, hs⟩, _, 0, hs, hd,
        fun d' _ => Nat.zero_le d'⟩

/-- Two stops of one route. -/
def twoInOrder : Table Stop :=
  ((Table.empty.insert { routeId := 1, stopOrder := 1 }).insert { routeId := 1, stopOrder := 2 })

/-- From a position between the two, the second stop is found. -/
theorem closestStop_between : FindsClosest twoInOrder [700, 300] :=
  (closestStop_iff (by decide) (by decide)).mpr (Or.inl (by decide))

/-- A vehicle that stands at the second stop is sent to the first, 700 away. -/
theorem standing_at_second :
    Stop.getClosestStop twoInOrder [0, 700, 0] = (Stop.getAll twoInOrder)[0]? ∧
      ¬ FindsClosest twoInOrder [700, 0] := by
  have hcode : Stop.getClosestStop twoInOrder [0, 700, 0] = (Stop.getAll twoInOrder)[0]? := by
    decide
  refine ⟨hcode, ?_⟩
  rintro ⟨s, hs, i, d, hi, hd, hleast⟩
  have hplace : i = 0 := (List.getElem?_inj (List.getElem?_eq_some_iff.mp hi).1
    (nodup_getAll twoInOrder)).mp (hi.trans (hs.symm.trans hcode))
  subst hplace
  obtain rfl : 700 = d := Option.some.inj hd
  exact absurd (hleast 0 (by decide)) (by decide)

end Maiden
