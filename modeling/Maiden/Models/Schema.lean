import Maiden.Base.Table

/-!
# Upserts (`data/models/Schema.scala`)

Every model is written through `UpsertableTable.upsert` (`Schema.scala:96–115`):
it fills a missing creation time, moves the modification time to now, and inserts
the row when its id is still `0` or replaces the stored row otherwise. The whole
row is written, so whatever the object in memory holds overwrites every column.
-/

namespace Maiden

universe u

/-- Rows with the two time stamps of `BaseMaidenTableWithTimestamps`. -/
class Stamped (α : Type u) extends Keyed α where
  createdAt : α → Option Int
  /-- The row with both time stamps set. -/
  stamp : α → Int → Int → α
  key_stamp : ∀ a c m, key (stamp a c m) = key a

open Keyed Stamped

variable {α : Type u} [Stamped α]

/-- The row as `upsert` writes it, before its id is looked at. -/
def stamped (a : α) (now : Int) : α := stamp a ((createdAt a).getD now) now

/-- `UpsertableTable.upsert`: the table after it, and the saved row. -/
def upsert (tb : Table α) (a : α) (now : Int) : Table α × α :=
  if key a = 0 then
    (tb.insert (stamped a now), withKey (stamped a now) tb.nextKey)
  else
    (tb.update (stamped a now), stamped a now)

@[simp] theorem key_stamped (a : α) (now : Int) : key (stamped a now) = key a :=
  key_stamp a _ now

theorem upsert_new (tb : Table α) {a : α} (now : Int) (h : key a = 0) :
    upsert tb a now = (tb.insert (stamped a now), withKey (stamped a now) tb.nextKey) :=
  if_pos h

theorem upsert_old (tb : Table α) {a : α} (now : Int) (h : key a ≠ 0) :
    upsert tb a now = (tb.update (stamped a now), stamped a now) :=
  if_neg h

/-- What neither the id nor the time stamps carry is saved as it was. -/
theorem upsert_saved {β : Type u} (f : α → β) (hkey : ∀ a k, f (withKey a k) = f a)
    (hstamp : ∀ a c m, f (stamp a c m) = f a) (tb : Table α) (a : α) (now : Int) :
    f (upsert tb a now).2 = f a := by
  unfold upsert stamped
  by_cases h : key a = 0
  · rw [if_pos h, hkey, hstamp]
  · rw [if_neg h, hstamp]

/-- An upsert brings no row but the saved one. -/
theorem mem_of_mem_upsert {tb : Table α} {a r : α} {now : Int}
    (h : r ∈ (upsert tb a now).1.rows) :
    r = (upsert tb a now).2 ∨ (r ∈ tb.rows ∧ key r ≠ key a) := by
  by_cases hk : key a = 0
  · -- no stored row has the key `0` of a new one
    rw [upsert_new tb now hk] at h ⊢
    rcases Table.mem_insert.mp h with hr | hr
    · refine Or.inr ⟨hr, ?_⟩
      rw [hk]
      exact Table.key_ne_zero_of_mem hr
    · exact Or.inl hr
  · rw [upsert_old tb now hk] at h ⊢
    rcases Table.mem_update.mp h with ⟨hr, -⟩ | ⟨hr, hne⟩
    · exact Or.inl hr
    · exact Or.inr ⟨hr, by rwa [key_stamped] at hne⟩

/-- After an upsert the table has the saved row in place of the one with its id. -/
theorem mem_upsert {tb : Table α} {a r : α} {now : Int}
    (h : key a = 0 ∨ ∃ r₀ ∈ tb.rows, key r₀ = key a) :
    r ∈ (upsert tb a now).1.rows ↔
      r = (upsert tb a now).2 ∨ (r ∈ tb.rows ∧ key r ≠ key a) := by
  refine ⟨mem_of_mem_upsert, ?_⟩
  by_cases hk : key a = 0
  · rw [upsert_new tb now hk, Table.mem_insert, or_comm]
    exact Or.imp_left And.left
  · rw [upsert_old tb now hk, Table.mem_update, key_stamped]
    exact Or.imp_left fun hr => ⟨hr, h.resolve_left hk⟩

/-- The saved row is found under its key. -/
theorem get_upsert_saved {tb : Table α} {a : α} {now : Int}
    (h : key a = 0 ∨ ∃ r₀ ∈ tb.rows, key r₀ = key a) :
    (upsert tb a now).1.get (key (upsert tb a now).2) = some (upsert tb a now).2 :=
  Table.get_eq_some_iff.mpr ⟨(mem_upsert h).mpr (Or.inl rfl), rfl⟩

/-- An upsert touches no other key. -/
theorem get_upsert_ne {tb : Table α} {a : α} {now k : Int} (h : k ≠ key (upsert tb a now).2) :
    (upsert tb a now).1.get k = tb.get k := by
  by_cases hk : key a = 0
  · rw [upsert_new tb now hk, key_withKey] at h
    rw [upsert_new tb now hk]
    exact Table.get_insert_ne h
  · rw [upsert_old tb now hk] at h ⊢
    exact Table.get_update_ne h

/-- A stored row stays, or is replaced by one that is saved under its key. -/
theorem exists_get_upsert {tb : Table α} {a : α} {now k : Int} {P : α → Prop}
    (h : ∃ r, tb.get k = some r ∧ P r) (hP : key a = k → P (upsert tb a now).2) :
    ∃ r, (upsert tb a now).1.get k = some r ∧ P r := by
  obtain ⟨r, hr, hPr⟩ := h
  have hmem := Table.mem_of_get hr
  have hkey : key r = k := Table.key_of_get hr
  have hk : k ≠ 0 := hkey ▸ Table.key_ne_zero_of_mem hmem
  by_cases ha : key a = k
  · have hsaved : key (upsert tb a now).2 = k := by
      rw [upsert_old tb now (ha ▸ hk), key_stamped, ha]
    refine ⟨(upsert tb a now).2, ?_, hP ha⟩
    rw [← hsaved]
    exact get_upsert_saved (Or.inr ⟨r, hmem, hkey.trans ha.symm⟩)
  · refine ⟨r, (get_upsert_ne fun heq => ?_).trans hr, hPr⟩
    by_cases hzero : key a = 0
    · rw [upsert_new tb now hzero, key_withKey, ← hkey] at heq
      exact absurd heq (Int.ne_of_lt (Table.key_lt_nextKey hmem))
    · rw [upsert_old tb now hzero, key_stamped] at heq
      exact ha heq.symm

/-- A row that is written back under its key replaces the stored one. -/
theorem mem_upsert_stored {tb : Table α} {a old r : α} {now : Int} (hold : old ∈ tb.rows)
    (hkey : key a = key old) :
    r ∈ (upsert tb a now).1.rows ↔ r = stamped a now ∨ (r ∈ tb.rows ∧ key r ≠ key a) := by
  have hne : key a ≠ 0 := hkey ▸ Table.key_ne_zero_of_mem hold
  rw [mem_upsert (Or.inr ⟨old, hold, hkey.symm⟩), upsert_old tb now hne]

theorem get_upsert_stored {tb : Table α} {a old : α} {now : Int} (hold : old ∈ tb.rows)
    (hkey : key old = key a) : (upsert tb a now).1.get (key a) = some (stamped a now) :=
  Table.get_eq_some_iff.mpr
    ⟨(mem_upsert_stored hold hkey.symm).mpr (Or.inl rfl), key_stamped a now⟩

/-- Writing a row back changes nothing exactly if it is the stored one, stamps and all. -/
theorem rows_upsert_eq_iff {tb : Table α} {a old : α} {now : Int} (hold : old ∈ tb.rows)
    (hkey : key a = key old) : (upsert tb a now).1.rows = tb.rows ↔ stamped a now = old := by
  have hne : key a ≠ 0 := hkey ▸ Table.key_ne_zero_of_mem hold
  rw [upsert_old tb now hne]
  constructor
  · intro hsame
    have hmem : stamped a now ∈ (tb.update (stamped a now)).rows :=
      Table.mem_update.mpr (Or.inl ⟨rfl, old, hold, by rw [key_stamped, hkey]⟩)
    rw [hsame] at hmem
    exact Table.eq_of_key_eq hmem hold (by rw [key_stamped, hkey])
  · intro heq
    rw [heq, Table.update_of_mem hold]

/-- A column that the row keeps is kept in the whole table. -/
theorem map_upsert_stored {β : Type*} {tb : Table α} {a old : α} {now : Int} (f : α → β)
    (hold : old ∈ tb.rows) (hkey : key a = key old) (hf : f (stamped a now) = f old) :
    (upsert tb a now).1.rows.map f = tb.rows.map f := by
  have hne : key a ≠ 0 := hkey ▸ Table.key_ne_zero_of_mem hold
  rw [upsert_old tb now hne]
  refine Table.map_replaceRow f fun r hr hr' => ?_
  rw [key_stamped, hkey] at hr'
  rw [Table.eq_of_key_eq hr hold hr', hf]

/-! ## Writing back several rows -/

/-- `rows.foreach(r => t.upsert(r))`. -/
def upsertAll (tb : Table α) (rows : List α) (now : Int) : Table α :=
  rows.foldl (fun tb a => (upsert tb a now).1) tb

/-- Rows that are written back under their own keys replace the stored ones, each in its
place. -/
theorem rows_upsertAll {as : List α} (hnodup : (as.map key).Nodup) (hkeys : ∀ a ∈ as, key a ≠ 0)
    (now : Int) : ∀ tb : Table α, (upsertAll tb as now).rows =
      tb.rows.map fun r => ((as.find? fun a => key a == key r).map (stamped · now)).getD r := by
  induction as with
  | nil => exact fun tb => (List.map_id' tb.rows).symm
  | cons a as ih =>
    intro tb
    rw [List.map_cons, List.nodup_cons] at hnodup
    have hrest := ih hnodup.2 (fun b hb => hkeys b (List.mem_cons_of_mem a hb)) (upsert tb a now).1
    have hrows : (upsert tb a now).1.rows = Table.replaceRow (stamped a now) tb.rows := by
      rw [upsert_old tb now (hkeys a List.mem_cons_self)]
      rfl
    show (upsertAll (upsert tb a now).1 as now).rows = _
    rw [hrest, hrows, Table.replaceRow, List.map_map]
    refine List.map_congr_left fun r _ => ?_
    rw [Function.comp_apply, key_stamped]
    by_cases hk : key r = key a
    · -- the row that `a` has replaced is not written again
      have hnone : (as.find? fun b => key b == key (stamped a now)) = none := by
        refine List.find?_eq_none.mpr fun b hb hkey => hnodup.1 ?_
        rw [beq_iff_eq, key_stamped] at hkey
        exact hkey ▸ List.mem_map_of_mem hb
      rw [if_pos hk, hnone, List.find?_cons_of_pos (by simp [hk])]
      rfl
    · rw [if_neg hk, List.find?_cons_of_neg (by simp [Ne.symm hk])]

/-- Among changed copies of the stored rows that meet `p`, a row finds its own. -/
theorem find_changed {tb : Table α} {p : α → Bool} {sel : List α} {g : α → α}
    (hsel : ∀ r, r ∈ sel ↔ r ∈ tb.rows ∧ p r = true) (hg : ∀ r, key (g r) = key r) {r : α}
    (hr : r ∈ tb.rows) :
    sel.find? ((fun a => key a == key r) ∘ g) = if p r then some r else none := by
  have hown : ∀ r' ∈ sel, ((fun a => key a == key r) ∘ g) r' = true → r' = r := by
    intro r' hr' hk
    rw [Function.comp_apply, beq_iff_eq, hg] at hk
    exact Table.eq_of_key_eq ((hsel r').mp hr').1 hr hk
  cases hf : sel.find? ((fun a => key a == key r) ∘ g) with
  | some r' =>
    have hmem := List.mem_of_find?_eq_some hf
    obtain rfl := hown r' hmem (List.find?_some hf)
    rw [if_pos ((hsel r').mp hmem).2]
  | none =>
    have hno : ¬ p r = true := fun hp => by
      have := List.find?_eq_none.mp hf r ((hsel r).mpr ⟨hr, hp⟩)
      simp [hg] at this
    rw [if_neg hno]

/-- Changing the stored rows that meet `p`, read in any order, and writing them back. -/
theorem rows_upsertAll_map {tb : Table α} {p : α → Bool} {sel : List α} {g : α → α}
    (hsel : ∀ r, r ∈ sel ↔ r ∈ tb.rows ∧ p r = true) (hnodup : (sel.map key).Nodup)
    (hg : ∀ r, key (g r) = key r) (now : Int) :
    (upsertAll tb (sel.map g) now).rows =
      tb.rows.map fun r => if p r then stamped (g r) now else r := by
  have hkeys : (sel.map g).map key = sel.map key := by
    rw [List.map_map]
    exact List.map_congr_left fun r _ => hg r
  have hstored : ∀ a ∈ sel.map g, key a ≠ 0 := by
    intro a ha
    obtain ⟨r, hr, rfl⟩ := List.mem_map.mp ha
    rw [hg]
    exact Table.key_ne_zero_of_mem ((hsel r).mp hr).1
  rw [rows_upsertAll (hkeys ▸ hnodup) hstored]
  refine List.map_congr_left fun r hr => ?_
  rw [List.find?_map, find_changed hsel hg hr]
  split <;> rfl

/-! ## Unique columns -/

/-- No two rows have the same value in the column. -/
def UniqueColumn {β : Type u} (tb : Table α) (column : α → β) : Prop :=
  ∀ r ∈ tb.rows, ∀ r' ∈ tb.rows, column r = column r' → r = r'

/-- A column stays unique when no other row has the value that is saved. -/
theorem UniqueColumn.upsert {β : Type u} {tb : Table α} {column : α → β}
    (h : UniqueColumn tb column) {a : α} {now : Int}
    (hsaved : column (Maiden.upsert tb a now).2 = column a)
    (hnew : ∀ r ∈ tb.rows, key r ≠ key a → column r ≠ column a) :
    UniqueColumn (Maiden.upsert tb a now).1 column := by
  intro r hr r' hr' heq
  rcases mem_of_mem_upsert hr with rfl | ⟨hr, hne⟩
  · rcases mem_of_mem_upsert hr' with rfl | ⟨hr', hne'⟩
    · rfl
    · rw [hsaved] at heq
      exact absurd heq.symm (hnew r' hr' hne')
  · rcases mem_of_mem_upsert hr' with rfl | ⟨hr', -⟩
    · rw [hsaved] at heq
      exact absurd heq (hnew r hr hne)
    · exact h r hr r' hr' heq

end Maiden
