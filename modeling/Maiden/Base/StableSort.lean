import Mathlib.Data.List.Pairwise
import Mathlib.Data.List.Sort
import Mathlib.Tactic.Common

/-!
# Sorting a sorted list by another key

A stable sort keeps the order of what it does not tell apart. A list that is sorted by
`R` and then by a key is therefore sorted by the key and, for equal keys, by `R`.

- `pairwise_insertionSort`: this order, `ByKey`, holds of the result;
- `pairwise_iff_forall`: a sorted list is in another order exactly if the elements are,
  two by two, whichever the sort puts first.
-/

namespace Maiden.StableSort

variable {α κ : Type}

section

variable [LinearOrder κ] (key : α → κ) (R : α → α → Prop)

/-- By the key, and for equal keys by `R`. -/
def ByKey (a b : α) : Prop := key a < key b ∨ (key a = key b ∧ R a b)

variable {key R}

theorem ByKey.key_le {a b : α} (h : ByKey key R a b) : key a ≤ key b :=
  h.elim le_of_lt fun h => le_of_eq h.1

theorem byKey_of_le {a b : α} (hkey : key a ≤ key b) (hR : R a b) : ByKey key R a b :=
  (lt_or_eq_of_le hkey).imp_right fun heq => ⟨heq, hR⟩

theorem byKey_iff_of_ne {a b : α} (hne : key a ≠ key b) : ByKey key R a b ↔ key a < key b :=
  or_iff_left fun h => hne h.1

/-- Only elements with an equal key come before each other. -/
theorem ByKey.tie {a b : α} (h : ByKey key R a b) (h' : ByKey key R b a) :
    key a = key b ∧ R a b ∧ R b a := by
  have hkey := le_antisymm h.key_le h'.key_le
  exact ⟨hkey, (h.resolve_left (not_lt_of_ge (le_of_eq hkey.symm))).2,
    (h'.resolve_left (not_lt_of_ge (le_of_eq hkey))).2⟩

/-- An element that came before all others goes before those with an equal key. -/
theorem pairwise_orderedInsert {a : α} {l : List α} (hl : l.Pairwise (ByKey key R))
    (ha : ∀ b ∈ l, R a b) :
    (l.orderedInsert (fun a b => key a ≤ key b) a).Pairwise (ByKey key R) := by
  induction l with
  | nil => exact List.pairwise_singleton _ _
  | cons b l ih =>
    obtain ⟨hb, hrest⟩ := List.pairwise_cons.mp hl
    rw [List.orderedInsert_cons]
    split
    · -- `a` stops here, before the first element with no smaller key, so also before those of
      -- equal key
      rename_i hle
      refine List.pairwise_cons.mpr ⟨fun c hc => byKey_of_le ?_ (ha c hc), hl⟩
      rcases List.mem_cons.mp hc with rfl | hc
      · exact hle
      · exact le_trans hle (hb c hc).key_le
    · rename_i hlt
      refine List.pairwise_cons.mpr ⟨fun c hc => ?_, ih hrest fun c hc =>
        ha c (List.mem_cons_of_mem b hc)⟩
      rcases (List.mem_orderedInsert _).mp hc with rfl | hc
      · exact Or.inl (lt_of_not_ge hlt)
      · exact hb c hc

theorem pairwise_insertionSort {l : List α} (hl : l.Pairwise R) :
    (l.insertionSort fun a b => key a ≤ key b).Pairwise (ByKey key R) := by
  induction l with
  | nil => exact List.Pairwise.nil
  | cons a l ih =>
    obtain ⟨ha, hrest⟩ := List.pairwise_cons.mp hl
    refine pairwise_orderedInsert (ih hrest) fun b hb => ha b ?_
    exact (List.mem_insertionSort _).mp hb

end

/-- When a list that is sorted by `Q` is in the order `P`. -/
theorem pairwise_iff_forall {Q P : α → α → Prop} {l : List α} (hl : l.Pairwise Q)
    (htie : ∀ a ∈ l, ∀ b ∈ l, Q a b → Q b a → P a b) :
    l.Pairwise P ↔ ∀ a ∈ l, ∀ b ∈ l, Q a b → P a b := by
  refine ⟨fun hP a ha b hb hab => ?_, fun h => hl.imp_of_mem fun ha hb => h _ ha _ hb⟩
  -- one of the two stands before the other, and is not later in either order
  let either : α → α → Prop := fun a b => (Q a b ∧ P a b) ∨ (Q b a ∧ P b a)
  have : Std.Symm either := ⟨fun a b => Or.symm⟩
  have hboth : l.Pairwise either := (hl.and hP).imp Or.inl
  by_cases heq : a = b
  · exact htie a ha b hb hab (heq ▸ heq ▸ hab)
  · rcases hboth.forall ha hb heq with h | h
    · exact h.2
    · exact htie a ha b hb hab h.1

end Maiden.StableSort
