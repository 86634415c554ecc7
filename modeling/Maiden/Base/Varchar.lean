import Maiden.Base.Java
import Maiden.Base.Utf

/-!
# Texts in columns of limited length

What a database keeps of a text in a column `character varying(n)`. The column counts
characters, while a text is a list of UTF-16 units, so the text is first cut into characters
(`split`); a surrogate that is not in a pair is no character, and a question mark is sent in
its place.

- `sent s`: the text as it goes to the database, in a row or in a query;
- `store n s`: the text in the column, or nothing if the row is refused. U+0000 is refused at
  any length. A text that is too long is refused as well, unless all characters beyond the
  limit are blanks: these are cut off without a word.
- `accepts`, `kept`: whether the column takes the text, and what it keeps of it;
- `fits`: the column keeps the text as it is.

What is in a column stays what it is when it is written again (`store_of_store`), and it is
empty only if the text was (`store_eq_nil_iff`).
-/

namespace Maiden.Varchar

open Utf

/-- The unit, if it is a character by itself, or a question mark. -/
def single (a : Nat) : JString := if IsSingle a then [a] else [63]

/-- The characters of the text, each with its units. -/
def split : JString → List JString
  | [] => []
  | [a] => [single a]
  | a :: b :: s => if IsPair a b then [a, b] :: split s else single a :: split (b :: s)

/-- The text as it is sent. -/
def sent (s : JString) : JString := (split s).flatten

/-- What a column for `n` characters stores. -/
def store (n : Nat) (s : JString) : Option JString :=
  if 0 ∈ s then none
  else if ((split s).drop n).all (· == [32]) then some ((split s).take n).flatten
  else none

/-- A column without a limit takes the text. -/
def acceptsAny (s : JString) : Bool := !s.contains 0

/-- The column takes the text. -/
def accepts (n : Nat) (s : JString) : Bool := (store n s).isSome

/-- What the column keeps of a text that it takes. -/
def kept (n : Nat) (s : JString) : JString := (store n s).getD s

/-- The column keeps the text as it is. -/
def fits (n : Nat) (s : JString) : Bool := store n s == some s

/-! ## Characters -/

/-- The units of one character. -/
def IsChar (c : JString) : Prop := (∃ a, IsSingle a ∧ c = [a]) ∨ ∃ a b, IsPair a b ∧ c = [a, b]

theorem isChar_single (a : Nat) : IsChar (single a) := by
  unfold single
  split
  · next h => exact Or.inl ⟨a, h, rfl⟩
  · exact Or.inl ⟨63, Or.inl (by decide), rfl⟩

theorem IsChar.ne_nil {c : JString} (h : IsChar c) : c ≠ [] := by
  rcases h with ⟨a, -, rfl⟩ | ⟨a, b, -, rfl⟩
  · exact List.cons_ne_nil a []
  · exact List.cons_ne_nil a [b]

/-- A text is sent as characters: a lone surrogate has become a question mark. -/
theorem isChar_of_mem_split {s c : JString} (h : c ∈ split s) : IsChar c := by
  induction s using split.induct with
  | case1 => cases h
  | case2 a =>
    rw [split, List.mem_singleton] at h
    exact h ▸ isChar_single a
  | case3 a b s hpair ih =>
    rw [split, if_pos hpair, List.mem_cons] at h
    rcases h with rfl | h
    · exact Or.inr ⟨a, b, hpair, rfl⟩
    · exact ih h
  | case4 a b s hpair ih =>
    rw [split, if_neg hpair, List.mem_cons] at h
    rcases h with rfl | h
    · exact isChar_single a
    · exact ih h

/-- A unit that is no surrogate is a character by itself. -/
theorem split_single {a : Nat} (h : IsSingle a) (s : JString) :
    split (a :: s) = [a] :: split s := by
  have hchar : single a = [a] := if_pos h
  cases s with
  | nil => exact congrArg (fun c => [c]) hchar
  | cons b s => rw [split, if_neg fun hpair => not_single_of_pair hpair h, hchar]

/-- A list of characters is read back from its units. -/
theorem split_flatten {cs : List JString} (h : ∀ c ∈ cs, IsChar c) : split cs.flatten = cs := by
  induction cs with
  | nil => rfl
  | cons c cs ih =>
    have ih := ih fun c hc => h c (List.mem_cons_of_mem _ hc)
    rw [List.flatten_cons]
    rcases h c List.mem_cons_self with ⟨a, ha, rfl⟩ | ⟨a, b, hab, rfl⟩
    · rw [List.singleton_append, split_single ha, ih]
    · show split (a :: b :: cs.flatten) = _
      rw [split, if_pos hab, ih]

theorem split_ne_nil {s : JString} (h : s ≠ []) : split s ≠ [] := by
  cases s using split.induct with
  | case1 => exact absurd rfl h
  | case2 a => simp [split]
  | case3 a b s hpair => simp [split, hpair]
  | case4 a b s hpair => simp [split, hpair]

theorem zero_mem_single {a : Nat} : 0 ∈ single a ↔ 0 = a := by
  unfold single
  split
  · exact List.mem_singleton
  · next h =>
    refine iff_of_false (by decide) ?_
    rintro rfl
    exact h (Or.inl (by decide))

/-- U+0000 is sent exactly if it is in the text. -/
theorem zero_mem_sent {s : JString} : 0 ∈ sent s ↔ 0 ∈ s := by
  unfold sent
  induction s using split.induct with
  | case1 => exact Iff.rfl
  | case2 a => simp [split, zero_mem_single]
  | case3 a b s hpair ih => simp [split, hpair, ih]
  | case4 a b s hpair ih =>
    rw [split, if_neg hpair, List.flatten_cons, List.mem_append, ih, zero_mem_single]
    exact List.mem_cons.symm

/-! ## What is stored -/

section

variable {n : Nat} {s t : JString}

/-- When a text is taken: it has no NUL, and whatever is over the limit is blank and cut off. -/
theorem store_eq_some : store n s = some t ↔
    0 ∉ s ∧ (∀ c ∈ (split s).drop n, c = [32]) ∧ ((split s).take n).flatten = t := by
  unfold store
  split
  · next h => exact iff_of_false (by simp) fun h' => h'.1 h
  · next h =>
    split
    · next hall =>
      simp only [List.all_eq_true, beq_iff_eq] at hall
      rw [Option.some.injEq]
      exact ⟨fun heq => ⟨h, hall, heq⟩, fun h' => h'.2.2⟩
    · next hall =>
      simp only [List.all_eq_true, beq_iff_eq] at hall
      exact iff_of_false (by simp) fun h' => hall h'.2.1

/-- **What is stored is stored as it is** when it is written once more. -/
theorem store_of_store (h : store n s = some t) : store n t = some t := by
  obtain ⟨hzero, -, rfl⟩ := store_eq_some.mp h
  have hchars : split ((split s).take n).flatten = (split s).take n :=
    split_flatten fun c hc => isChar_of_mem_split (List.mem_of_mem_take hc)
  refine store_eq_some.mpr ⟨fun hmem => ?_, ?_, ?_⟩
  · obtain ⟨c, hc, h0⟩ := List.mem_flatten.mp hmem
    exact hzero (zero_mem_sent.mp (List.mem_flatten.mpr ⟨c, List.mem_of_mem_take hc, h0⟩))
  · rw [hchars, List.drop_eq_nil_of_le (List.length_take_le n _)]
    exact fun _ h => nomatch h
  · rw [hchars, List.take_take, Nat.min_self]

theorem store_nil (n : Nat) : store n [] = some [] := by simp [store, split]

/-- A text that is not empty leaves something in the column. -/
theorem store_eq_nil_iff (hn : 0 < n) (h : store n s = some t) : t = [] ↔ s = [] := by
  obtain ⟨-, -, rfl⟩ := store_eq_some.mp h
  refine ⟨fun hnil => ?_, fun hs => by rw [hs]; simp [split]⟩
  by_contra hs
  obtain ⟨c, cs, hsplit⟩ := List.exists_cons_of_ne_nil (split_ne_nil hs)
  have hc : c ∈ (split s).take n := by
    rw [hsplit, ← Nat.succ_pred_eq_of_pos hn]
    exact List.mem_cons_self
  exact (isChar_of_mem_split (List.mem_of_mem_take hc)).ne_nil
    (List.flatten_eq_nil_iff.mp hnil c hc)

/-- `kept` is what is stored, if anything is. -/
theorem kept_of_store (h : store n s = some t) : kept n s = t := by
  rw [kept, h]
  rfl

/-- A text that is accepted is stored as what is kept of it. -/
theorem store_kept (h : accepts n s = true) : store n s = some (kept n s) := by
  obtain ⟨t, ht⟩ := Option.isSome_iff_exists.mp h
  rw [ht, kept_of_store ht]

/-- A refused text stays refused, and what is kept of any other is taken again. -/
theorem accepts_kept (n : Nat) (s : JString) : accepts n (kept n s) = accepts n s := by
  cases h : store n s with
  | none => rw [kept, h, Option.getD_none]
  | some t => rw [kept_of_store h, accepts, accepts, store_of_store h, h]

/-- Sending puts question marks for lone surrogates, which makes no NUL and hides none. -/
theorem acceptsAny_sent (s : JString) : acceptsAny (sent s) = acceptsAny s := by
  unfold acceptsAny
  rw [Bool.eq_iff_iff]
  simp [zero_mem_sent]

theorem kept_nil (n : Nat) : kept n [] = [] := kept_of_store (store_nil n)

/-- Cutting never leaves an empty text of one that was not. -/
theorem kept_eq_nil_iff (hn : 0 < n) (h : accepts n s = true) : kept n s = [] ↔ s = [] :=
  store_eq_nil_iff hn (store_kept h)

theorem kept_of_fits (h : fits n s = true) : kept n s = s := kept_of_store (beq_iff_eq.mp h)

/-- A text that is kept as it is is sent as it is. -/
theorem sent_of_fits (h : fits n s = true) : sent s = s := by
  obtain ⟨-, -, heq⟩ := store_eq_some.mp (beq_iff_eq.mp h)
  have hchars : split s = (split s).take n := by
    conv_lhs => rw [← heq]
    exact split_flatten fun c hc => isChar_of_mem_split (List.mem_of_mem_take hc)
  rw [sent, hchars, heq]

end

/-- A blank beyond the limit is cut off; a letter there, or U+0000 anywhere, is refused. -/
example : store 2 (js ['a', 'b', ' ']) = some (js ['a', 'b']) ∧
    store 2 (js ['a', 'b', 'c']) = none ∧ store 2 [0] = none := by decide

end Maiden.Varchar
