import Mathlib.Algebra.BigOperators.Group.List.Basic
import Mathlib.Algebra.Ring.Int.Defs
import Mathlib.Data.List.Nodup
import Mathlib.Data.List.ProdSigma

/-!
# Keyed tables

A relational table as the store sees it through its primary key: a list of rows
and the last value its key sequence has issued. The two facts every query
relies on are fields of the structure, so a table that breaks them cannot be
built: no two rows share a key (`keys_nodup`), and every key was issued by the
sequence (`keys_issued`), hence is positive and never issued again.

- `Table.get`, `Table.fetch`, `Table.fetchOne`, `Table.fetchPair`: the lookups (by
  key, all rows of a `where` clause, the first row of one, the first pair of rows of
  two tables);
- `Table.insert`, `Table.update`, `Table.deleteWhere`: the writes (a new row under the next
  key, the whole row with a given key replaced, the rows of a `where` clause dropped);
- the frame lemmas `get_insert_of_get`, `get_update_ne`: a write touches one key.

Nothing here knows what the rows are: any type with a `Keyed` instance will do.
-/

namespace Maiden

universe u v

/-- Rows with an integer primary key. -/
class Keyed (α : Type u) where
  /-- The row's primary key. -/
  key : α → Int
  /-- The row under another key (what an insert does to the row it is given). -/
  withKey : α → Int → α
  key_withKey : ∀ a k, key (withKey a k) = k

open Keyed

/-- A table: rows with distinct keys, all issued by the table's sequence. -/
structure Table (α : Type u) [Keyed α] where
  rows : List α
  /-- The last key the sequence has issued. -/
  seq : Int
  keys_nodup : (rows.map key).Nodup
  keys_issued : ∀ r ∈ rows, 0 < key r ∧ key r ≤ seq

namespace Table

variable {α : Type u} [Keyed α]

/-- The table before any row was inserted. -/
def empty : Table α where
  rows := []
  seq := 0
  keys_nodup := List.nodup_nil
  keys_issued := fun _ h => nomatch h

/-- The row with primary key `k`. -/
def get (tb : Table α) (k : Int) : Option α :=
  tb.rows.find? fun r => key r == k

/-- All rows that meet a `where` clause. -/
def fetch (tb : Table α) (p : α → Bool) : List α :=
  tb.rows.filter p

/-- The first row that meets a `where` clause. -/
def fetchOne (tb : Table α) (p : α → Bool) : Option α :=
  tb.rows.find? p

/-- The first pair of rows that meets a `where` clause over two tables. -/
def fetchPair {β : Type u} [Keyed β] (ta : Table α) (tb : Table β) (p : α → β → Bool) :
    Option (α × β) :=
  (List.product ta.rows tb.rows).find? fun ab => p ab.1 ab.2

/-- The key the next insert will get. -/
def nextKey (tb : Table α) : Int := max tb.seq 0 + 1

/-- Insert a row under the next key of the sequence. A database draws the key with the statement
and not at its commit, so that keys may be committed in another order and with gaps; proofs use of
a new key only that it is new. -/
def insert (tb : Table α) (a : α) : Table α where
  rows := tb.rows ++ [withKey a tb.nextKey]
  seq := tb.nextKey
  keys_nodup := by
    -- the keys in use are at most `seq`, the new one is above it
    rw [List.map_append, List.map_singleton, key_withKey]
    refine List.nodup_append.mpr ⟨tb.keys_nodup, List.nodup_singleton _, ?_⟩
    intro k hk k' hk' heq
    obtain ⟨r, hr, rfl⟩ := List.mem_map.mp hk
    have hissued := (tb.keys_issued r hr).2
    rw [List.mem_singleton.mp hk'] at heq
    unfold nextKey at heq
    omega
  keys_issued := by
    intro r hr
    rcases List.mem_append.mp hr with hold | hnew
    · have hissued := tb.keys_issued r hold
      unfold nextKey
      omega
    · rw [List.mem_singleton.mp hnew, key_withKey]
      unfold nextKey
      omega

/-- Delete the rows that meet a `where` clause. The sequence goes on where it was. -/
def deleteWhere (tb : Table α) (p : α → Bool) : Table α where
  rows := tb.rows.filter fun r => !p r
  seq := tb.seq
  keys_nodup := tb.keys_nodup.sublist (List.filter_sublist.map key)
  keys_issued := fun r hr => tb.keys_issued r (List.mem_of_mem_filter hr)

/-- The rows after the whole row with `a`'s key is replaced by `a`. -/
def replaceRow (a : α) (rows : List α) : List α :=
  rows.map fun r => if key r = key a then a else r

/-- A column that the replaced row agrees on stays as it is. -/
theorem map_replaceRow {β : Type v} (f : α → β) {a : α} {rows : List α}
    (h : ∀ r ∈ rows, key r = key a → f r = f a) : (replaceRow a rows).map f = rows.map f := by
  unfold replaceRow
  rw [List.map_map]
  refine List.map_congr_left fun r hr => ?_
  show f (if key r = key a then a else r) = f r
  by_cases hk : key r = key a
  · rw [if_pos hk, h r hr hk]
  · rw [if_neg hk]

theorem map_key_replaceRow (a : α) (rows : List α) :
    (replaceRow a rows).map key = rows.map key :=
  map_replaceRow key fun _ _ h => h

/-- Replace the whole row that has `a`'s key (no row, no effect). -/
def update (tb : Table α) (a : α) : Table α where
  rows := replaceRow a tb.rows
  seq := tb.seq
  keys_nodup := by
    rw [map_key_replaceRow]
    exact tb.keys_nodup
  keys_issued := by
    intro r hr
    have hk : key r ∈ tb.rows.map key := by
      rw [← map_key_replaceRow a]
      exact List.mem_map_of_mem hr
    obtain ⟨r', hr', heq⟩ := List.mem_map.mp hk
    rw [← heq]
    exact tb.keys_issued r' hr'

/-! ## Lookups -/

@[simp] theorem rows_empty : (empty : Table α).rows = [] := rfl

@[simp] theorem mem_fetch {tb : Table α} {p : α → Bool} {r : α} :
    r ∈ tb.fetch p ↔ r ∈ tb.rows ∧ p r = true :=
  List.mem_filter

/-- A lookup comes back empty only if no row matches. -/
theorem fetchOne_eq_none {tb : Table α} {p : α → Bool} :
    tb.fetchOne p = none ↔ ∀ r ∈ tb.rows, p r = false := by
  unfold fetchOne
  rw [List.find?_eq_none]
  exact forall₂_congr fun r _ => by rw [Bool.not_eq_true]

/-- No row has the key that was looked up in vain. -/
theorem not_mem_map_of_fetchOne {K : Type v} {tb : Table α} {p : α → Bool} {column : α → K} {k : K}
    (hp : ∀ r, column r = k → p r = true) (h : tb.fetchOne p = none) :
    k ∉ tb.rows.map column := by
  intro hk
  obtain ⟨r, hr, heq⟩ := List.mem_map.mp hk
  cases (fetchOne_eq_none.mp h r hr).symm.trans (hp r heq)

/-- A lookup returns a stored row that matches; which one, if there are several, is not said
here. -/
theorem mem_of_fetchOne {tb : Table α} {p : α → Bool} {r : α}
    (h : tb.fetchOne p = some r) : r ∈ tb.rows ∧ p r = true :=
  ⟨List.mem_of_find?_eq_some h, List.find?_some h⟩

/-- A row is found when it is the only one that meets the clause. -/
theorem fetchOne_of_unique {tb : Table α} {p : α → Bool} {r : α} (hr : r ∈ tb.rows)
    (hp : p r = true) (h : ∀ r' ∈ tb.rows, p r' = true → r' = r) : tb.fetchOne p = some r := by
  cases hf : tb.fetchOne p with
  | none =>
    have hno := fetchOne_eq_none.mp hf r hr
    rw [hp] at hno
    cases hno
  | some r' =>
    obtain ⟨hr', hp'⟩ := mem_of_fetchOne hf
    rw [h r' hr' hp']

section

variable {β : Type u} [Keyed β] {ta : Table α} {tb : Table β} {p : α → β → Bool}

/-- A join comes back empty only if no pair of rows matches. -/
theorem fetchPair_eq_none :
    ta.fetchPair tb p = none ↔ ∀ a ∈ ta.rows, ∀ b ∈ tb.rows, p a b = false := by
  unfold fetchPair
  rw [List.find?_eq_none]
  constructor
  · intro h a ha b hb
    exact Bool.eq_false_iff.mpr (h (a, b) (List.pair_mem_product.mpr ⟨ha, hb⟩))
  · rintro h ⟨a, b⟩ hab
    obtain ⟨ha, hb⟩ := List.pair_mem_product.mp hab
    exact Bool.eq_false_iff.mp (h a ha b hb)

theorem mem_of_fetchPair {a : α} {b : β} (h : ta.fetchPair tb p = some (a, b)) :
    a ∈ ta.rows ∧ b ∈ tb.rows ∧ p a b = true := by
  obtain ⟨ha, hb⟩ := List.pair_mem_product.mp (List.mem_of_find?_eq_some h)
  have hp := List.find?_some h
  exact ⟨ha, hb, hp⟩

/-- What a pair of rows shows in some columns is found by those columns alone, if the `where`
clause reads no others. -/
theorem map_fetchPair {γ : Type*} {δ : Type*} (ta : Table α) (tb : Table β) (f : α → γ)
    (g : β → δ) (q : γ → δ → Bool) :
    (ta.fetchPair tb fun a b => q (f a) (g b)).map (Prod.map f g) =
      (List.product (ta.rows.map f) (tb.rows.map g)).find? fun cd => q cd.1 cd.2 := by
  have hproduct : List.product (ta.rows.map f) (tb.rows.map g) =
      (List.product ta.rows tb.rows).map (Prod.map f g) := by
    simp only [List.product, List.flatMap_map, List.map_flatMap, List.map_map]
    rfl
  rw [hproduct, List.find?_map]
  rfl

/-- A join has one answer when one pair matches, and then the order of the rows does not matter. -/
theorem fetchPair_of_unique {a : α} {b : β} (ha : a ∈ ta.rows) (hb : b ∈ tb.rows)
    (hp : p a b = true)
    (h : ∀ a' ∈ ta.rows, ∀ b' ∈ tb.rows, p a' b' = true → a' = a ∧ b' = b) :
    ta.fetchPair tb p = some (a, b) := by
  cases hf : ta.fetchPair tb p with
  | none =>
    have hno := fetchPair_eq_none.mp hf a ha b hb
    rw [hp] at hno
    cases hno
  | some ab =>
    obtain ⟨a', b'⟩ := ab
    obtain ⟨ha', hb', hp'⟩ := mem_of_fetchPair hf
    obtain ⟨rfl, rfl⟩ := h a' ha' b' hb' hp'
    rfl

end

theorem mem_of_get {tb : Table α} {k : Int} {r : α} (h : tb.get k = some r) :
    r ∈ tb.rows :=
  List.mem_of_find?_eq_some h

theorem key_of_get {tb : Table α} {k : Int} {r : α} (h : tb.get k = some r) :
    key r = k := by
  have := List.find?_some h
  simpa using this

/-- Rows with the same key are the same row. -/
theorem eq_of_key_eq {tb : Table α} {r r' : α} (hr : r ∈ tb.rows)
    (hr' : r' ∈ tb.rows) (h : key r = key r') : r = r' :=
  List.inj_on_of_nodup_map tb.keys_nodup hr hr' h

/-- Keys are different, so rows are. -/
theorem nodup_rows (tb : Table α) : tb.rows.Nodup := List.Nodup.of_map _ tb.keys_nodup

theorem nodup_fetch (tb : Table α) (p : α → Bool) : (tb.fetch p).Nodup := tb.nodup_rows.filter _

/-- A query for the key of a stored row finds this row alone. -/
theorem fetch_key {tb : Table α} {r : α} (h : r ∈ tb.rows) :
    (tb.fetch fun r' => key r' == key r) = [r] := by
  refine List.perm_singleton.mp ((List.perm_ext_iff_of_nodup (tb.nodup_fetch _)
    (List.nodup_singleton r)).mpr fun r' => ?_)
  rw [mem_fetch, List.mem_singleton, beq_iff_eq]
  constructor
  · exact fun ⟨hr', hkey⟩ => eq_of_key_eq hr' h hkey
  · rintro rfl
    exact ⟨h, rfl⟩

/-- Reading a row under its key gives the row itself, because no other row has the key. -/
theorem get_of_mem {tb : Table α} {r : α} (h : r ∈ tb.rows) :
    tb.get (key r) = some r := by
  cases hg : tb.get (key r) with
  | none =>
    have := List.find?_eq_none.mp hg r h
    simp at this
  | some r' => rw [eq_of_key_eq (mem_of_get hg) h (key_of_get hg)]

/-- Rows have been given a key by the sequence, which never issues zero. -/
theorem key_ne_zero_of_mem {tb : Table α} {r : α} (h : r ∈ tb.rows) : key r ≠ 0 := by
  have hissued := (tb.keys_issued r h).1
  omega

/-- A row is the one that a lookup of its key finds. -/
theorem eq_of_get {tb : Table α} {k : Int} {r r' : α} (h : tb.get k = some r)
    (hr' : r' ∈ tb.rows) (hk : key r' = k) : r' = r :=
  eq_of_key_eq hr' (mem_of_get h) (hk.trans (key_of_get h).symm)

/-- Reading by key and being a row with that key are the same. Most proofs about tables use one of
the two directions. -/
theorem get_eq_some_iff {tb : Table α} {k : Int} {r : α} :
    tb.get k = some r ↔ r ∈ tb.rows ∧ key r = k := by
  constructor
  · exact fun h => ⟨mem_of_get h, key_of_get h⟩
  · rintro ⟨hr, rfl⟩
    exact get_of_mem hr

theorem get_eq_none_iff {tb : Table α} {k : Int} :
    tb.get k = none ↔ ∀ r ∈ tb.rows, key r ≠ k := by
  unfold get
  rw [List.find?_eq_none]
  exact forall₂_congr fun r _ => by simp

/-! ## Inserts -/

/-- An insert leaves the rows as they are and adds the new one under the next key. -/
@[simp] theorem mem_insert {tb : Table α} {a r : α} :
    r ∈ (tb.insert a).rows ↔ r ∈ tb.rows ∨ r = withKey a tb.nextKey := by
  show r ∈ tb.rows ++ [withKey a tb.nextKey] ↔ _
  rw [List.mem_append, List.mem_singleton]

/-- The next key is above all keys in use, so that an insert never meets one. -/
theorem key_lt_nextKey {tb : Table α} {r : α} (h : r ∈ tb.rows) :
    key r < tb.nextKey := by
  have := (tb.keys_issued r h).2
  unfold nextKey
  omega

/-- An insert leaves every row that was there under its key. -/
theorem get_insert_of_get {tb : Table α} {a r : α} {k : Int}
    (h : tb.get k = some r) : (tb.insert a).get k = some r := by
  obtain ⟨hr, hk⟩ := get_eq_some_iff.mp h
  exact get_eq_some_iff.mpr ⟨mem_insert.mpr (Or.inl hr), hk⟩

/-- An insert touches no other key. -/
theorem get_insert_ne {tb : Table α} {a : α} {k : Int} (h : k ≠ tb.nextKey) :
    (tb.insert a).get k = tb.get k := by
  cases hget : tb.get k with
  | some r => exact get_insert_of_get hget
  | none =>
    refine get_eq_none_iff.mpr fun r hr hk => ?_
    rcases mem_insert.mp hr with hold | rfl
    · exact get_eq_none_iff.mp hget r hold hk
    · exact h (hk.symm.trans (key_withKey a _))

/-! ## Updates -/

/-- An update writes only where the key is already stored: under an unknown key nothing happens,
which is SQL's `UPDATE ... WHERE id = ?`. -/
theorem mem_update {tb : Table α} {a r : α} :
    r ∈ (tb.update a).rows ↔
      (r = a ∧ ∃ r₀ ∈ tb.rows, key r₀ = key a) ∨ (r ∈ tb.rows ∧ key r ≠ key a) := by
  show r ∈ tb.rows.map (fun r => if key r = key a then a else r) ↔ _
  rw [List.mem_map]
  constructor
  · rintro ⟨r₀, hr₀, rfl⟩
    by_cases h : key r₀ = key a
    · rw [if_pos h]
      exact Or.inl ⟨rfl, r₀, hr₀, h⟩
    · rw [if_neg h]
      exact Or.inr ⟨hr₀, h⟩
  · rintro (⟨rfl, r₀, hr₀, h⟩ | ⟨hr, h⟩)
    · exact ⟨r₀, hr₀, if_pos h⟩
    · exact ⟨r, hr, if_neg h⟩

/-- An update puts its row in place of the one with its key. -/
theorem get_update_self {tb : Table α} {a r : α} (h : tb.get (key a) = some r) :
    (tb.update a).get (key a) = some a := by
  obtain ⟨hr, hk⟩ := get_eq_some_iff.mp h
  exact get_eq_some_iff.mpr ⟨mem_update.mpr (Or.inl ⟨rfl, r, hr, hk⟩), rfl⟩

/-- An update touches no other key. -/
theorem get_update_ne {tb : Table α} {a : α} {k : Int} (h : k ≠ key a) :
    (tb.update a).get k = tb.get k := by
  cases hg : tb.get k with
  | none =>
    rw [get_eq_none_iff] at hg ⊢
    intro r hr heq
    rcases mem_update.mp hr with ⟨rfl, -⟩ | ⟨hmem, -⟩
    · exact h heq.symm
    · exact hg r hmem heq
  | some r =>
    obtain ⟨hr, rfl⟩ := get_eq_some_iff.mp hg
    exact get_of_mem (mem_update.mpr (Or.inr ⟨hr, h⟩))

/-- A delete takes out what matches and nothing else. -/
theorem mem_deleteWhere {tb : Table α} {p : α → Bool} {r : α} :
    r ∈ (tb.deleteWhere p).rows ↔ r ∈ tb.rows ∧ p r = false := by
  show r ∈ tb.rows.filter (fun r => !p r) ↔ _
  rw [List.mem_filter, Bool.not_eq_true']

@[simp] theorem nextKey_deleteWhere (tb : Table α) (p : α → Bool) :
    (tb.deleteWhere p).nextKey = tb.nextKey := rfl

/-- A row that is not deleted is found as before. -/
theorem get_deleteWhere_of_not {tb : Table α} {p : α → Bool} {k : Int}
    (h : ∀ r ∈ tb.rows, key r = k → p r = false) : (tb.deleteWhere p).get k = tb.get k := by
  cases hget : tb.get k with
  | none =>
    refine get_eq_none_iff.mpr fun r hr => ?_
    exact get_eq_none_iff.mp hget r (mem_deleteWhere.mp hr).1
  | some r =>
    obtain ⟨hr, hk⟩ := get_eq_some_iff.mp hget
    exact get_eq_some_iff.mpr ⟨mem_deleteWhere.mpr ⟨hr, h r hr hk⟩, hk⟩

/-- A key is gone once its row matches. -/
theorem get_deleteWhere_of_all {tb : Table α} {p : α → Bool} {k : Int}
    (h : ∀ r ∈ tb.rows, key r = k → p r = true) : (tb.deleteWhere p).get k = none := by
  refine get_eq_none_iff.mpr fun r hr hk => ?_
  obtain ⟨hmem, hp⟩ := mem_deleteWhere.mp hr
  rw [h r hmem hk] at hp
  cases hp

/-- Writing back a row that is already there changes nothing. -/
theorem update_of_mem {tb : Table α} {a : α} (h : a ∈ tb.rows) : tb.update a = tb := by
  have hrows : replaceRow a tb.rows = tb.rows := by
    unfold replaceRow
    refine (List.map_congr_left fun r hr => ?_).trans (List.map_id tb.rows)
    by_cases hk : key r = key a
    · rw [if_pos hk, eq_of_key_eq hr h hk]
      rfl
    · rw [if_neg hk]
      rfl
  cases tb
  unfold update
  congr

/-- Writes to two different rows may be exchanged. -/
theorem update_comm (tb : Table α) {a b : α} (h : key a ≠ key b) :
    (tb.update a).update b = (tb.update b).update a := by
  have hrows : replaceRow b (replaceRow a tb.rows) = replaceRow a (replaceRow b tb.rows) := by
    unfold replaceRow
    rw [List.map_map, List.map_map]
    refine List.map_congr_left fun r _ => ?_
    show (if key (if key r = key a then a else r) = key b then b else _) =
      if key (if key r = key b then b else r) = key a then a else _
    by_cases ha : key r = key a
    · have hb : key r ≠ key b := fun hb => h (ha.symm.trans hb)
      rw [if_pos ha, if_neg hb, if_neg h, if_pos ha]
    · by_cases hb : key r = key b
      · rw [if_neg ha, if_pos hb, if_neg (Ne.symm h)]
      · rw [if_neg ha, if_neg hb, if_neg ha]
  unfold update
  congr

/-- A write shows in no query that selects neither the old row nor the new one. -/
theorem fetch_update {tb : Table α} {a : α} {p : α → Bool} (hnew : p a = false)
    (hold : ∀ r ∈ tb.rows, key r = key a → p r = false) : (tb.update a).fetch p = tb.fetch p := by
  show (replaceRow a tb.rows).filter p = tb.rows.filter p
  generalize tb.rows = rows at hold
  induction rows with
  | nil => rfl
  | cons r rows ih =>
    have hrest := ih fun r' hr' => hold r' (List.mem_cons_of_mem r hr')
    unfold replaceRow at hrest ⊢
    rw [List.map_cons]
    by_cases hk : key r = key a
    · rw [if_pos hk, List.filter_cons_of_neg (by simp [hnew]),
        List.filter_cons_of_neg (by simp [hold r List.mem_cons_self hk])]
      exact hrest
    · rw [if_neg hk, List.filter_cons, List.filter_cons, hrest]

/-! ## Sums over a table -/

/-- A sum over the rows grows by what the new row contributes. -/
theorem sum_insert (tb : Table α) (a : α) (f : α → Int) :
    ((tb.insert a).rows.map f).sum = (tb.rows.map f).sum + f (withKey a tb.nextKey) := by
  show ((tb.rows ++ [withKey a tb.nextKey]).map f).sum = _
  rw [List.map_append, List.sum_append, List.map_singleton, List.sum_singleton]

/-- No row has the key, and nothing is replaced. -/
theorem replaceRow_of_not_mem {a : α} {rows : List α} (h : key a ∉ rows.map key) :
    replaceRow a rows = rows := by
  unfold replaceRow
  refine (List.map_congr_left fun r hr => ?_).trans (List.map_id rows)
  have hk : key r ≠ key a := by
    intro heq
    rw [← heq] at h
    exact h (List.mem_map_of_mem hr)
  rw [if_neg hk]
  rfl

/-- Replacing a row moves a sum over the rows by the difference of the two: with distinct
keys exactly one row is replaced. -/
theorem sum_replaceRow (f : α → Int) {a r : α} {rows : List α} (hnodup : (rows.map key).Nodup)
    (hr : r ∈ rows) (hk : key r = key a) :
    ((replaceRow a rows).map f).sum = (rows.map f).sum - f r + f a := by
  induction rows with
  | nil => cases hr
  | cons x xs ih =>
    rw [List.map_cons, List.nodup_cons] at hnodup
    show ((if key x = key a then a else x) :: replaceRow a xs |>.map f).sum = _
    rw [List.map_cons, List.map_cons, List.sum_cons, List.sum_cons]
    by_cases hx : key x = key a
    · -- `x` is the row that is replaced, and no other row has its key
      have hrx : r = x := by
        rcases List.mem_cons.mp hr with rfl | hr
        · rfl
        · exact absurd (List.mem_map_of_mem hr) (hk.trans hx.symm ▸ hnodup.1)
      rw [if_pos hx, replaceRow_of_not_mem (hx ▸ hnodup.1), hrx]
      omega
    · have hr' : r ∈ xs := by
        rcases List.mem_cons.mp hr with rfl | hr
        · exact absurd hk hx
        · exact hr
      rw [if_neg hx, ih hnodup.2 hr']
      omega

/-- An update moves a sum over the table by the new row less the old one. -/
theorem sum_update {tb : Table α} {a r : α} (h : tb.get (key a) = some r) (f : α → Int) :
    ((tb.update a).rows.map f).sum = (tb.rows.map f).sum - f r + f a :=
  sum_replaceRow f tb.keys_nodup (mem_of_get h) (key_of_get h)

end Table

end Maiden
