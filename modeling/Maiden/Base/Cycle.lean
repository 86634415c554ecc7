import Mathlib.Order.Lattice
import Mathlib.Data.List.Basic
import Mathlib.Data.List.Rotate
import Mathlib.Tactic.Common

/-!
# Walking a closed circuit

A circuit is a list without repetition, read cyclically: after its last element
comes the first. The walk from `p` towards `d` leaves `p`, passes the elements
in order, wraps around at the end of the list and stops at `d`.

- `ahead xs p a`: how many moves from `p` reach `a`;
- `Covers xs p d a`: the walk from `p` to `d` travels the leg that starts at `a`,
  that is, reaches `a` strictly before it reaches `d`;
- `Walk xs p d ys`: the elements met on the way from `p` to `d`, both left out, are
  `ys`. From a point to itself the walk goes once around.

A circuit is often given by a rank (`xs.Pairwise (rank · < rank ·)`); then the
walk is decided by comparing ranks, in one way when `p` comes before `d`
(`covers_iff_of_lt`, `walk_of_lt`) and in another when the walk wraps
(`covers_iff_of_gt`, `walk_of_ge`). Either way, there and back again is once around
(`there_and_back`).
-/

namespace Maiden.Cycle

universe u v

variable {α : Type u} [DecidableEq α]

/-- The number of moves from `p` to `a` along the circuit. -/
def ahead (xs : List α) (p a : α) : Nat :=
  (xs.idxOf a + xs.length - xs.idxOf p) % xs.length

/-- The walk from `p` to `d` travels the leg that starts at `a`. -/
def Covers (xs : List α) (p d a : α) : Prop :=
  a ∈ xs ∧ ahead xs p a < ahead xs p d

instance (xs : List α) (p d a : α) : Decidable (Covers xs p d a) :=
  inferInstanceAs (Decidable (_ ∧ _))

/-- Ahead on this round. -/
theorem ahead_of_le {xs : List α} {p a : α} (ha : a ∈ xs)
    (h : xs.idxOf p ≤ xs.idxOf a) : ahead xs p a = xs.idxOf a - xs.idxOf p := by
  have hlt := List.idxOf_lt_length_of_mem ha
  have hsplit : xs.idxOf a + xs.length - xs.idxOf p
      = (xs.idxOf a - xs.idxOf p) + xs.length := by omega
  unfold ahead
  rw [hsplit, Nat.add_mod_right, Nat.mod_eq_of_lt (by omega)]

/-- Behind, and so ahead on the next round. -/
theorem ahead_of_lt {xs : List α} {p a : α} (hp : p ∈ xs)
    (h : xs.idxOf a < xs.idxOf p) :
    ahead xs p a = xs.idxOf a + xs.length - xs.idxOf p := by
  have hlt := List.idxOf_lt_length_of_mem hp
  unfold ahead
  exact Nat.mod_eq_of_lt (by omega)

theorem ahead_self {xs : List α} {p : α} (hp : p ∈ xs) : ahead xs p p = 0 := by
  rw [ahead_of_le hp (Nat.le_refl _), Nat.sub_self]

/-- Nothing is covered by the walk from a point to itself. -/
theorem not_covers_self {xs : List α} {p a : α} (hp : p ∈ xs) : ¬ Covers xs p p a := by
  rintro ⟨-, hlt⟩
  rw [ahead_self hp] at hlt
  exact Nat.not_lt_zero _ hlt

/-- Everything but the position itself is ahead of it. -/
theorem ahead_pos {xs : List α} {p a : α} (hp : p ∈ xs) (ha : a ∈ xs) (hne : p ≠ a) :
    0 < ahead xs p a := by
  have hlt := List.idxOf_lt_length_of_mem hp
  rcases Nat.lt_trichotomy (xs.idxOf p) (xs.idxOf a) with h | h | h
  · rw [ahead_of_le ha (Nat.le_of_lt h)]
    omega
  · exact absurd ((List.idxOf_inj hp).mp h) hne
  · rw [ahead_of_lt hp h]
    omega

/-- A walk to another point covers the leg that it starts with. -/
theorem covers_start {xs : List α} {p d : α} (hp : p ∈ xs) (hd : d ∈ xs) (hne : p ≠ d) :
    Covers xs p d p :=
  ⟨hp, by rw [ahead_self hp]; exact ahead_pos hp hd hne⟩

section Ranked

variable {β : Type v} [LinearOrder β] {rank : α → β} {xs : List α}

/-- In a list that is strictly increasing in rank, positions and ranks agree. -/
theorem idxOf_lt_iff (h : xs.Pairwise fun a b => rank a < rank b) {a b : α}
    (ha : a ∈ xs) (hb : b ∈ xs) : xs.idxOf a < xs.idxOf b ↔ rank a < rank b := by
  have key : ∀ {a b : α}, a ∈ xs → b ∈ xs → xs.idxOf a < xs.idxOf b → rank a < rank b := by
    intro a b ha hb hlt
    have hia := List.idxOf_lt_length_of_mem ha
    have hib := List.idxOf_lt_length_of_mem hb
    have hpair := List.pairwise_iff_getElem.mp h _ _ hia hib hlt
    rwa [List.getElem_idxOf, List.getElem_idxOf] at hpair
  constructor
  · exact key ha hb
  · intro hlt
    rcases Nat.lt_trichotomy (xs.idxOf a) (xs.idxOf b) with hi | hi | hi
    · exact hi
    · have heq : a = b := (List.idxOf_inj ha).mp hi
      rw [heq] at hlt
      exact absurd hlt (lt_irrefl _)
    · exact absurd (key hb ha hi) (lt_asymm hlt)

/-- In a ranked list the order of places is the order of ranks. -/
theorem idxOf_le_iff (h : xs.Pairwise fun a b => rank a < rank b) {a b : α}
    (ha : a ∈ xs) (hb : b ∈ xs) : xs.idxOf a ≤ xs.idxOf b ↔ rank a ≤ rank b := by
  rw [← Nat.not_lt, ← not_lt, idxOf_lt_iff h hb ha]

/-- Ranks tell the elements of the circuit apart. -/
theorem eq_of_rank_eq (h : xs.Pairwise fun a b => rank a < rank b) {a b : α}
    (ha : a ∈ xs) (hb : b ∈ xs) (hrank : rank a = rank b) : a = b := by
  have h1 := (idxOf_le_iff h ha hb).mpr (le_of_eq hrank)
  have h2 := (idxOf_le_iff h hb ha).mpr (le_of_eq hrank.symm)
  exact (List.idxOf_inj ha).mp (Nat.le_antisymm h1 h2)

/-- A walk that does not wrap covers the legs from `p` up to, not including, `d`. -/
theorem covers_iff_of_lt (h : xs.Pairwise fun a b => rank a < rank b) {p d a : α}
    (hp : p ∈ xs) (hd : d ∈ xs) (ha : a ∈ xs) (hpd : rank p < rank d) :
    Covers xs p d a ↔ rank p ≤ rank a ∧ rank a < rank d := by
  have hi := (idxOf_lt_iff h hp hd).mpr hpd
  have hlen := List.idxOf_lt_length_of_mem hd
  rw [← idxOf_le_iff h hp ha, ← idxOf_lt_iff h ha hd]
  unfold Covers
  rw [ahead_of_le hd (Nat.le_of_lt hi)]
  rcases Nat.lt_or_ge (xs.idxOf a) (xs.idxOf p) with hap | hpa
  · rw [ahead_of_lt hp hap]
    constructor
    · rintro ⟨-, hlt⟩
      omega
    · rintro ⟨hle, -⟩
      omega
  · rw [ahead_of_le ha hpa]
    constructor
    · rintro ⟨-, hlt⟩
      omega
    · rintro ⟨-, hlt⟩
      exact ⟨ha, by omega⟩

/-- A walk that wraps covers the legs from `p` to the end of the list and those
before `d`. -/
theorem covers_iff_of_gt (h : xs.Pairwise fun a b => rank a < rank b) {p d a : α}
    (hp : p ∈ xs) (hd : d ∈ xs) (ha : a ∈ xs) (hpd : rank d < rank p) :
    Covers xs p d a ↔ rank p ≤ rank a ∨ rank a < rank d := by
  have hi := (idxOf_lt_iff h hd hp).mpr hpd
  have hlena := List.idxOf_lt_length_of_mem ha
  have hlenp := List.idxOf_lt_length_of_mem hp
  rw [← idxOf_le_iff h hp ha, ← idxOf_lt_iff h ha hd]
  unfold Covers
  rw [ahead_of_lt hp hi]
  rcases Nat.lt_or_ge (xs.idxOf a) (xs.idxOf p) with hap | hpa
  · -- a leg that starts before the pickup is reached on the next round
    rw [ahead_of_lt hp hap]
    constructor
    · rintro ⟨-, hlt⟩
      omega
    · rintro (hle | hlt)
      · omega
      · exact ⟨ha, by omega⟩
  · rw [ahead_of_le ha hpa]
    constructor
    · rintro ⟨-, hlt⟩
      omega
    · rintro -
      exact ⟨ha, by omega⟩

end Ranked

/-! ## The elements on the way -/

/-- The element after `a`; after the last one comes the first. -/
def next (xs : List α) (a : α) : α := xs.getD ((xs.idxOf a + 1) % xs.length) a

/-- The next place, with the first one after the last. -/
theorem next_getElem {xs : List α} (hnodup : xs.Nodup) {i j : Nat} (hi : i < xs.length)
    (hj : j < xs.length) (hij : (i + 1) % xs.length = j) : next xs xs[i] = xs[j] := by
  rw [next, hnodup.idxOf_getElem i hi, hij, List.getD_eq_getElem?_getD,
    List.getElem?_eq_getElem hj, Option.getD_some]

/-- The place after a place of the list. -/
theorem exists_next {xs : List α} (hnodup : xs.Nodup) {a : α} (ha : a ∈ xs) :
    ∃ (i j : Nat) (hi : i < xs.length) (hj : j < xs.length),
      (i + 1) % xs.length = j ∧ xs[i] = a ∧ xs[j] = next xs a := by
  obtain ⟨i, hi, rfl⟩ := List.mem_iff_getElem.mp ha
  have hj : (i + 1) % xs.length < xs.length := Nat.mod_lt _ (by omega)
  exact ⟨i, _, hi, hj, rfl, rfl, (next_getElem hnodup hi hj rfl).symm⟩

theorem next_mem {xs : List α} (hnodup : xs.Nodup) {a : α} (ha : a ∈ xs) : next xs a ∈ xs := by
  obtain ⟨i, j, hi, hj, -, -, hnext⟩ := exists_next hnodup ha
  exact hnext ▸ List.getElem_mem hj

/-- Renaming the elements renames the next one. -/
theorem next_map {β : Type v} [DecidableEq β] {f : α → β} {xs : List α} (hnodup : (xs.map f).Nodup)
    {a : α} (ha : a ∈ xs) : next (xs.map f) (f a) = f (next xs a) := by
  obtain ⟨i, j, hi, hj, hij, rfl, hnext⟩ := exists_next hnodup.of_map ha
  have hi' : i < (xs.map f).length := by rwa [List.length_map]
  have hj' : j < (xs.map f).length := by rwa [List.length_map]
  have h := next_getElem hnodup hi' hj' (by rwa [List.length_map])
  rwa [List.getElem_map, List.getElem_map, hnext] at h

/-- The circuit next to itself, moved on by one, pairs each element with the next. -/
theorem zip_next {xs : List α} (hnodup : xs.Nodup) :
    xs.zip (xs.tail ++ xs.take 1) = xs.map fun a => (a, next xs a) := by
  have hrotate : xs.tail ++ xs.take 1 = xs.rotate 1 := by
    cases xs with
    | nil => rfl
    | cons x xs => simp
  rw [hrotate]
  refine List.ext_getElem (by simp) fun i hi _ => ?_
  have hlt : i < xs.length := by simpa using hi
  rw [List.getElem_zip, List.getElem_rotate, List.getElem_map,
    next_getElem hnodup hlt (Nat.mod_lt _ (by omega)) rfl]

/-- The place of the next one, as a remainder. -/
theorem idxOf_next {xs : List α} (hnodup : xs.Nodup) {a : α} (ha : a ∈ xs) :
    xs.idxOf (next xs a) = (xs.idxOf a + 1) % xs.length := by
  obtain ⟨i, j, hi, hj, hij, rfl, hnext⟩ := exists_next hnodup ha
  rw [← hnext, hnodup.idxOf_getElem j hj, hnodup.idxOf_getElem i hi, hij]

/-- The next element is one move further. -/
theorem ahead_next {xs : List α} (hnodup : xs.Nodup) {p a : α} (hp : p ∈ xs) (ha : a ∈ xs) :
    ahead xs p (next xs a) = (ahead xs p a + 1) % xs.length := by
  have hpi := List.idxOf_lt_length_of_mem hp
  have hai := List.idxOf_lt_length_of_mem ha
  unfold ahead
  rw [idxOf_next hnodup ha, Nat.mod_add_mod]
  rcases Nat.lt_or_ge (xs.idxOf a + 1) xs.length with hlt | hge
  · rw [Nat.mod_eq_of_lt hlt]
    congr 1
    omega
  · -- the last element is followed by the first
    have hlast : xs.idxOf a + 1 = xs.length := by omega
    rw [hlast, Nat.mod_self]
    have hsplit : xs.idxOf a + xs.length - xs.idxOf p + 1 =
        xs.length + (0 + xs.length - xs.idxOf p) := by omega
    rw [hsplit, Nat.add_mod_left]

/-- Nothing is a whole round ahead. -/
theorem ahead_lt {xs : List α} {p : α} (hp : p ∈ xs) (a : α) : ahead xs p a < xs.length :=
  Nat.mod_lt _ (List.length_pos_of_mem hp)

/-- Elements are told apart by how far ahead they are. -/
theorem eq_of_ahead_eq {xs : List α} {p a b : α} (hp : p ∈ xs) (ha : a ∈ xs) (hb : b ∈ xs)
    (h : ahead xs p a = ahead xs p b) : a = b := by
  have hpi := List.idxOf_lt_length_of_mem hp
  have hai := List.idxOf_lt_length_of_mem ha
  have hbi := List.idxOf_lt_length_of_mem hb
  refine (List.idxOf_inj ha).mp ?_
  rcases Nat.lt_or_ge (xs.idxOf a) (xs.idxOf p) with hap | hap
  · rcases Nat.lt_or_ge (xs.idxOf b) (xs.idxOf p) with hbp | hbp
    · rw [ahead_of_lt hp hap, ahead_of_lt hp hbp] at h
      omega
    · rw [ahead_of_lt hp hap, ahead_of_le hb hbp] at h
      omega
  · rcases Nat.lt_or_ge (xs.idxOf b) (xs.idxOf p) with hbp | hbp
    · rw [ahead_of_le ha hap, ahead_of_lt hp hbp] at h
      omega
    · rw [ahead_of_le ha hap, ahead_of_le hb hbp] at h
      omega

/-- Every element comes after one. -/
theorem exists_prev {xs : List α} (hnodup : xs.Nodup) {b : α} (hb : b ∈ xs) :
    ∃ a ∈ xs, next xs a = b := by
  obtain ⟨j, hj, rfl⟩ := List.mem_iff_getElem.mp hb
  rcases Nat.eq_zero_or_pos j with rfl | hpos
  · have hlast : xs.length - 1 < xs.length := by omega
    refine ⟨xs[xs.length - 1], List.getElem_mem hlast, next_getElem hnodup hlast hj ?_⟩
    rw [Nat.sub_add_cancel (by omega), Nat.mod_self]
  · have hprev : j - 1 < xs.length := by omega
    refine ⟨xs[j - 1], List.getElem_mem hprev, next_getElem hnodup hprev hj ?_⟩
    rw [Nat.sub_add_cancel hpos, Nat.mod_eq_of_lt hj]

/-- A walk covers the leg into its end. -/
theorem covers_of_next_eq {xs : List α} (hnodup : xs.Nodup) {p d a : α} (hp : p ∈ xs) (hd : d ∈ xs)
    (hne : p ≠ d) (ha : a ∈ xs) (hnext : next xs a = d) : Covers xs p d a := by
  refine ⟨ha, ?_⟩
  have hpos := ahead_pos hp hd hne
  have hlt := ahead_lt hp a
  rw [← hnext, ahead_next hnodup hp ha] at hpos ⊢
  rcases Nat.lt_or_ge (ahead xs p a + 1) xs.length with h | h
  · rw [Nat.mod_eq_of_lt h]
    omega
  · have hend : ahead xs p a + 1 = xs.length := by omega
    rw [hend, Nat.mod_self] at hpos
    exact absurd hpos (Nat.lt_irrefl 0)

/-- A leg that is covered leads to the end or to another one that is. -/
theorem Covers.next {xs : List α} (hnodup : xs.Nodup) {p d a : α} (hp : p ∈ xs) (hd : d ∈ xs)
    (h : Covers xs p d a) : next xs a = d ∨ Covers xs p d (next xs a) := by
  have hlt := ahead_lt hp d
  have hmem := next_mem hnodup h.1
  have hstep := ahead_next hnodup hp h.1
  rw [Nat.mod_eq_of_lt (by have := h.2; omega)] at hstep
  rcases Nat.lt_or_ge (ahead xs p (Cycle.next xs a)) (ahead xs p d) with hbefore | hnot
  · exact Or.inr ⟨hmem, hbefore⟩
  · refine Or.inl (eq_of_ahead_eq hp hmem hd ?_)
    have := h.2
    omega

/-- A walk whose legs another walk covers ends where that one passes or ends. -/
theorem end_of_covers {xs : List α} (hnodup : xs.Nodup) {p d p' d' : α} (hp : p ∈ xs) (hd : d ∈ xs)
    (hp' : p' ∈ xs) (hd' : d' ∈ xs) (hne : p' ≠ d')
    (h : ∀ a, Covers xs p' d' a → Covers xs p d a) : d' = d ∨ Covers xs p d d' := by
  obtain ⟨a, ha, rfl⟩ := exists_prev hnodup hd'
  exact (h a (covers_of_next_eq hnodup hp' hd' hne ha rfl)).next hnodup hp hd

/-- The walk from `p` to the next occurrence of `d` meets exactly `ys` in between. -/
inductive Walk (xs : List α) (d : α) : α → List α → Prop
  | arrive {p : α} (h : next xs p = d) : Walk xs d p []
  | pass {p b : α} {ys : List α} (h : next xs p = b) (hb : b ≠ d) (rest : Walk xs d b ys) :
      Walk xs d p (b :: ys)

/-- There is only one way to walk. -/
theorem Walk.unique {xs : List α} {d p : α} {ys zs : List α} (h : Walk xs d p ys)
    (h' : Walk xs d p zs) : ys = zs := by
  induction h generalizing zs with
  | arrive hn =>
    cases h' with
    | arrive => rfl
    | pass hn' hb => exact absurd (hn'.symm.trans hn) hb
  | pass hn hb _ ih =>
    cases h' with
    | arrive hn' => exact absurd (hn.symm.trans hn') hb
    | pass hn' _ rest' =>
      obtain rfl := hn.symm.trans hn'
      rw [ih rest']

/-- What is met on the way follows one after the other. -/
theorem Walk.isChain {xs : List α} {d p : α} {ys : List α} (h : Walk xs d p ys) :
    List.IsChain (fun a b => next xs a = b) (p :: (ys ++ [d])) := by
  induction h with
  | arrive hn => exact List.isChain_cons_cons.mpr ⟨hn, .singleton _⟩
  | pass hn _ _ ih => exact List.isChain_cons_cons.mpr ⟨hn, ih⟩

/-- Neighbours on the circuit, unrolled once, follow each other. -/
theorem next_of_append {xs us vs : List α} {a b : α} (hnodup : xs.Nodup)
    (h : xs ++ xs = us ++ a :: b :: vs) : next xs a = b := by
  have hlen : 2 * xs.length = us.length + vs.length + 2 := by
    have := congrArg List.length h
    simp only [List.length_append, List.length_cons] at this
    omega
  have hpos : 0 < xs.length := by omega
  -- the unrolled circuit repeats with the period of the circuit
  have hrepeat : ∀ i, i < 2 * xs.length → (xs ++ xs)[i]? = xs[i % xs.length]? := by
    intro i hi
    rcases Nat.lt_or_ge i xs.length with hlt | hge
    · rw [List.getElem?_append_left hlt, Nat.mod_eq_of_lt hlt]
    · rw [List.getElem?_append_right hge, Nat.mod_eq_sub_mod hge,
        Nat.mod_eq_of_lt (by omega : i - xs.length < xs.length)]
  have ha : xs[us.length % xs.length]? = some a := by
    rw [← hrepeat us.length (by omega), h]
    simp
  have hb : xs[(us.length + 1) % xs.length]? = some b := by
    rw [← hrepeat (us.length + 1) (by omega), h]
    simp
  have hidx : xs.idxOf a = us.length % xs.length := by
    obtain ⟨hlt, hget⟩ := List.getElem?_eq_some_iff.mp ha
    rw [← hget]
    exact hnodup.idxOf_getElem _ hlt
  unfold next
  rw [hidx, Nat.mod_add_mod, List.getD_eq_getElem?_getD, hb, Option.getD_some]

/-- A stretch of the unrolled circuit that ends at the first `d` is a walk. -/
theorem walk_of_append {xs : List α} {d : α} (hnodup : xs.Nodup) {ys : List α} (hd : d ∉ ys) :
    ∀ (us vs : List α) {p : α}, xs ++ xs = us ++ p :: (ys ++ d :: vs) → Walk xs d p ys := by
  induction ys with
  | nil => exact fun us vs p h => .arrive (next_of_append hnodup h)
  | cons y ys ih =>
    intro us vs p h
    have hy : y ≠ d := fun heq => hd (heq ▸ List.mem_cons_self)
    refine .pass (next_of_append hnodup h) hy ?_
    refine ih (fun hmem => hd (List.mem_cons_of_mem y hmem)) (us ++ [p]) vs ?_
    rw [h]
    simp

section Ranked

variable {β : Type v} [LinearOrder β] {rank : α → β} {xs : List α}

omit [DecidableEq α] in
/-- An element splits a ranked list into what is below and what is above it. -/
theorem eq_below_append_above (h : xs.Pairwise fun a b => rank a < rank b) {p : α}
    (hp : p ∈ xs) :
    xs = xs.filter (fun a => rank a < rank p) ++ p :: xs.filter fun a => rank p < rank a := by
  induction xs with
  | nil => cases hp
  | cons x xs ih =>
    obtain ⟨hx, hxs⟩ := List.pairwise_cons.mp h
    rcases List.mem_cons.mp hp with rfl | hp
    · have hbelow : (p :: xs).filter (fun a => rank a < rank p) = [] := by
        refine List.filter_eq_nil_iff.mpr fun a ha => ?_
        rcases List.mem_cons.mp ha with rfl | ha
        · simp
        · simpa using le_of_lt (hx a ha)
      have habove : xs.filter (fun a => rank p < rank a) = xs :=
        List.filter_eq_self.mpr fun a ha => by simpa using hx a ha
      rw [hbelow, List.filter_cons_of_neg (by simp), habove, List.nil_append]
    · have hlt := hx p hp
      rw [List.filter_cons_of_pos (by simpa using hlt),
        List.filter_cons_of_neg (by simpa using le_of_lt hlt), List.cons_append, ← ih hxs hp]

omit [DecidableEq α] in
theorem nodup_of_ranked (h : xs.Pairwise fun a b => rank a < rank b) : xs.Nodup :=
  h.imp fun hlt heq => absurd (heq ▸ hlt) (lt_irrefl _)

omit [DecidableEq α] in
/-- Above `p` come the elements up to `d`, then `d`, then those above it. -/
theorem above_eq (h : xs.Pairwise fun a b => rank a < rank b) {p d : α} (hd : d ∈ xs)
    (hpd : rank p < rank d) :
    (xs.filter fun a => rank p < rank a) =
      xs.filter (fun a => rank p < rank a && rank a < rank d) ++
        d :: xs.filter fun a => rank d < rank a := by
  have hsplit := eq_below_append_above (h.filter fun a => rank p < rank a)
    (List.mem_filter.mpr ⟨hd, by simpa using hpd⟩)
  rw [List.filter_filter, List.filter_filter] at hsplit
  rw [hsplit]
  congr 1
  · exact List.filter_congr fun a _ => Bool.and_comm _ _
  · congr 1
    refine List.filter_congr fun a _ => ?_
    rw [← Bool.decide_and, decide_eq_decide, and_iff_left_iff_imp]
    exact hpd.trans

omit [DecidableEq α] in
/-- Below `d` come the elements below `p`, then `p`, then those up to `d`. -/
theorem below_eq (h : xs.Pairwise fun a b => rank a < rank b) {p d : α} (hp : p ∈ xs)
    (hpd : rank p < rank d) :
    (xs.filter fun a => rank a < rank d) =
      xs.filter (fun a => rank a < rank p) ++
        p :: xs.filter fun a => rank p < rank a && rank a < rank d := by
  have hsplit := eq_below_append_above (h.filter fun a => rank a < rank d)
    (List.mem_filter.mpr ⟨hp, by simpa using hpd⟩)
  rw [List.filter_filter, List.filter_filter] at hsplit
  rw [hsplit]
  congr 1
  refine List.filter_congr fun a _ => ?_
  rw [← Bool.decide_and, decide_eq_decide, and_iff_left_iff_imp]
  exact fun hap => hap.trans hpd

/-- The circuit, cut open behind `p`. -/
theorem rotate_eq (h : xs.Pairwise fun a b => rank a < rank b) {p : α} (hp : p ∈ xs) :
    xs.rotate (xs.idxOf p + 1) =
      xs.filter (fun a => rank p < rank a) ++ (xs.filter (fun a => rank a < rank p) ++ [p]) := by
  have hsplit := eq_below_append_above h hp
  have hbelow : p ∉ xs.filter fun a => rank a < rank p := by simp
  generalize xs.filter (fun a => rank a < rank p) = below at *
  generalize xs.filter (fun a => rank p < rank a) = above at *
  have hlen : xs.idxOf p + 1 = (below ++ [p]).length := by
    rw [hsplit, List.idxOf_append_of_notMem hbelow, List.idxOf_cons_self, List.length_append,
      List.length_singleton, Nat.add_zero]
  rw [hlen, hsplit, List.append_cons]
  exact List.rotate_append_length_eq _ _

/-- A walk that does not wrap meets the elements ranked between its ends. -/
theorem walk_of_lt (h : xs.Pairwise fun a b => rank a < rank b) {p d : α} (hp : p ∈ xs)
    (hd : d ∈ xs) (hpd : rank p < rank d) :
    Walk xs d p (xs.filter fun a => rank p < rank a && rank a < rank d) := by
  refine walk_of_append (nodup_of_ranked h) (by simp) (xs.filter fun a => rank a < rank p)
    (xs.filter (fun a => rank d < rank a) ++ xs) ?_
  calc xs ++ xs
      = (xs.filter (fun a => rank a < rank p) ++
          p :: xs.filter fun a => rank p < rank a) ++ xs := by
        rw [← eq_below_append_above h hp]
    _ = _ := by
        rw [above_eq h hd hpd]
        simp

/-- A walk that wraps meets the elements above `p` and then those below `d`; a walk from a
point to itself wraps. -/
theorem walk_of_ge (h : xs.Pairwise fun a b => rank a < rank b) {p d : α} (hp : p ∈ xs)
    (hd : d ∈ xs) (hpd : rank d ≤ rank p) :
    Walk xs d p
      (xs.filter (fun a => rank p < rank a) ++ xs.filter fun a => rank a < rank d) := by
  have hout : d ∉ xs.filter (fun a => rank p < rank a) ++ xs.filter fun a => rank a < rank d := by
    simp [hpd]
  refine walk_of_append (nodup_of_ranked h) hout (xs.filter fun a => rank a < rank p)
    (xs.filter fun a => rank d < rank a) ?_
  calc xs ++ xs
      = (xs.filter (fun a => rank a < rank p) ++ p :: xs.filter fun a => rank p < rank a) ++
          (xs.filter (fun a => rank a < rank d) ++ d :: xs.filter fun a => rank d < rank a) := by
        rw [← eq_below_append_above h hp, ← eq_below_append_above h hd]
    _ = _ := by simp

/-- **There and back again is once around**: the walk from `p` to `d`, continued back to `p`,
is the circuit cut open behind `p`. -/
theorem there_and_back (h : xs.Pairwise fun a b => rank a < rank b) {p d : α} (hp : p ∈ xs)
    (hd : d ∈ xs) (hpd : rank p ≠ rank d) {ys zs : List α} (hthere : Walk xs d p ys)
    (hback : Walk xs p d zs) : ys ++ d :: (zs ++ [p]) = xs.rotate (xs.idxOf p + 1) := by
  rw [rotate_eq h hp]
  rcases lt_or_gt_of_ne hpd with hlt | hgt
  · rw [hthere.unique (walk_of_lt h hp hd hlt), hback.unique (walk_of_ge h hd hp (le_of_lt hlt)),
      above_eq h hd hlt]
    simp
  · rw [hthere.unique (walk_of_ge h hp hd (le_of_lt hgt)), hback.unique (walk_of_lt h hd hp hgt),
      below_eq h hd hgt]
    simp

end Ranked

end Maiden.Cycle
