import Maiden.Base.Java

/-!
# Trimmed, squeezed, split and lower-cased strings

What the string operations of `Base.Java` leave behind, for texts that go through
several of them.

- `exists_trim`: `trim` cuts a part out of a string, whose ends are no blanks or
  control units, and cuts off nothing else;
- `squeeze_of_no_pair`, `no_pair_squeeze`: squeezed strings are those without two
  separators in a row;
- `sublist_filter`, `sublist_replaceChar`, `sublist_squeeze`, `sublist_trim`: the order
  of units is kept;
- `split`, `split_eq_splitOn`: `String.split` at one unit;
- `Unicode.LowerCases`: what is documented about lower case outside ASCII, and that
  `squeeze`, `trim` and `replaceChar` keep a text in lower case.
-/

namespace Maiden

namespace JString

/-! ## Trimming -/

theorem of_mem_takeWhile {p : Nat → Bool} {a : Nat} {s : JString} (h : a ∈ s.takeWhile p) :
    p a = true :=
  List.all_eq_true.mp List.all_takeWhile a h

theorem of_mem_head?_dropWhile {p : Nat → Bool} {a : Nat} {s : JString}
    (h : a ∈ (s.dropWhile p).head?) : p a = false := by
  have hhead := List.head?_dropWhile_not p s
  rwa [Option.mem_def.mp h] at hhead

/-- What `trim` cuts off, and where it stops. -/
theorem exists_trim (s : JString) :
    ∃ x z, s = x ++ (trim s ++ z) ∧ (∀ a ∈ x, a ≤ 32) ∧ (∀ a ∈ z, a ≤ 32) ∧
      (∀ a ∈ (trim s).head?, 32 < a) ∧ ∀ a ∈ (trim s).getLast?, 32 < a := by
  let p : Nat → Bool := (· ≤ 32)
  let t := s.dropWhile p
  let z := (t.reverse.takeWhile p).reverse
  have hfront : s = s.takeWhile p ++ t := List.takeWhile_append_dropWhile.symm
  have hback : t = trim s ++ z := by
    have := congrArg List.reverse (List.takeWhile_append_dropWhile (p := p) (l := t.reverse)).symm
    rwa [List.reverse_append, List.reverse_reverse] at this
  have hstop : ∀ a, p a = false → 32 < a := fun a ha => Nat.lt_of_not_le (of_decide_eq_false ha)
  have hhead : ∀ a ∈ (trim s).head?, 32 < a := by
    -- the first unit that is left is the first one of `t`
    intro a ha
    refine hstop a (of_mem_head?_dropWhile (s := s) ?_)
    show a ∈ t.head?
    rw [hback, List.head?_append, Option.mem_def.mp ha]
    rfl
  have hlast : ∀ a ∈ (trim s).getLast?, 32 < a := by
    intro a ha
    rw [trim, List.getLast?_reverse] at ha
    exact hstop a (of_mem_head?_dropWhile ha)
  exact ⟨s.takeWhile p, z, hback ▸ hfront, fun a ha => of_decide_eq_true (of_mem_takeWhile ha),
    fun a ha => of_decide_eq_true (of_mem_takeWhile (List.mem_reverse.mp ha)), hhead, hlast⟩

/-- Trimming cuts at both ends and nowhere else. -/
theorem trim_isInfix_self (s : JString) : trim s <:+: s := by
  obtain ⟨x, z, hs, -⟩ := exists_trim s
  exact ⟨x, z, by rw [List.append_assoc]; exact hs.symm⟩

theorem mem_of_mem_trim {a : Nat} {s : JString} (h : a ∈ trim s) : a ∈ s :=
  (trim_isInfix_self s).subset h

/-- A string that neither begins nor ends with a blank or a control unit. -/
theorem trim_of_ends {s : JString} (hhead : ∀ a ∈ s.head?, 32 < a)
    (hlast : ∀ a ∈ s.getLast?, 32 < a) : trim s = s := by
  have hkeep : ∀ {t : JString}, (∀ a ∈ t.head?, 32 < a) → t.dropWhile (· ≤ 32) = t := by
    intro t ht
    cases t with
    | nil => rfl
    | cons a t =>
      have ha : 32 < a := ht a rfl
      exact List.dropWhile_cons_of_neg (by simpa using ha)
  have hrev : ∀ a ∈ s.reverse.head?, 32 < a := by
    rw [List.head?_reverse]
    exact hlast
  unfold trim
  rw [hkeep hhead, hkeep hrev, List.reverse_reverse]

/-- A text without blanks and control characters is as it would be trimmed. -/
theorem trim_of_lt {s : JString} (h : ∀ c ∈ s, 32 < c) : trim s = s :=
  trim_of_ends (fun a ha => h a (List.mem_of_mem_head? ha)) fun a ha =>
    h a (List.mem_of_mem_getLast? ha)

/-- A trimmed text has nothing left at its ends, so that a second pass finds nothing. -/
theorem trim_trim (s : JString) : trim (trim s) = trim s := by
  obtain ⟨-, -, -, -, -, hhead, hlast⟩ := exists_trim s
  exact trim_of_ends hhead hlast

/-! ## Squeezing -/

/-- Squeezing only leaves out characters. -/
theorem squeeze_sublist (c : Nat) (s : JString) : (squeeze c s).Sublist s := by
  induction s using squeeze.induct c with
  | case1 => exact List.Sublist.refl _
  | case2 x => exact List.Sublist.refl _
  | case3 x y rest hrun ih =>
    rw [squeeze, if_pos hrun]
    exact ih.cons x
  | case4 x y rest hrun ih =>
    rw [squeeze, if_neg hrun]
    exact ih.cons_cons x

theorem mem_of_mem_squeeze {c a : Nat} {s : JString} (h : a ∈ squeeze c s) : a ∈ s :=
  (squeeze_sublist c s).subset h

/-- Of a run of the character the first one stays, so the text starts as before. -/
theorem head?_squeeze (c : Nat) (s : JString) : (squeeze c s).head? = s.head? := by
  induction s using squeeze.induct c with
  | case1 => rfl
  | case2 x => rfl
  | case3 x y rest hrun ih =>
    rw [squeeze, if_pos hrun, ih, hrun.1, hrun.2]
    rfl
  | case4 x y rest hrun ih =>
    rw [squeeze, if_neg hrun]
    rfl

/-- What squeezing is for: the character does not follow itself any more. -/
theorem no_pair_squeeze (c : Nat) (s : JString) : ¬[c, c] <:+: squeeze c s := by
  induction s using squeeze.induct c with
  | case1 => exact fun h => absurd h.length_le (Nat.not_succ_le_zero 1)
  | case2 x => exact fun h => absurd h.length_le (Nat.not_succ_le_self 1)
  | case3 x y rest hrun ih => rwa [squeeze, if_pos hrun]
  | case4 x y rest hrun ih =>
    rw [squeeze, if_neg hrun, List.infix_cons_iff]
    rintro (hhere | hrest)
    · -- the second unit of the pair would be the `y` that follows in the source
      obtain ⟨hx, t, ht⟩ := List.cons_prefix_cons.mp hhere
      have hy := head?_squeeze c (y :: rest)
      rw [← ht] at hy
      exact hrun ⟨hx.symm, (Option.some.inj hy).symm⟩
    · exact ih hrest

/-- Squeezing is the identity on texts without a pair of the character, in particular on its own
results. -/
theorem squeeze_of_no_pair {c : Nat} {s : JString} (h : ¬[c, c] <:+: s) : squeeze c s = s := by
  induction s using squeeze.induct c with
  | case1 => rfl
  | case2 x => rfl
  | case3 x y rest hrun ih =>
    rw [hrun.1, hrun.2] at h
    exact absurd ⟨[], rest, rfl⟩ h
  | case4 x y rest hrun ih =>
    rw [squeeze, if_neg hrun, ih fun hrest => h (List.infix_cons_iff.mpr (Or.inr hrest))]

theorem squeeze_of_not_mem {c : Nat} {s : JString} (h : c ∉ s) : squeeze c s = s :=
  squeeze_of_no_pair fun hpair => h (hpair.subset List.mem_cons_self)

/-- Replacing back undoes a replacement, provided the new character was not in the text before:
else its own occurrences would be turned as well. -/
theorem replaceChar_replaceChar {a b : Nat} {s : JString} (h : b ∉ s) :
    replaceChar b a (replaceChar a b s) = s := by
  unfold replaceChar
  rw [List.map_map]
  refine (List.map_congr_left fun c hc => ?_).trans (List.map_id s)
  have hcb : c ≠ b := fun heq => h (heq ▸ hc)
  by_cases hca : c = a
  · simp [hca]
  · simp [hca, hcb]

/-! ## Units in their order

That some units stand in a string in this order, with anything between them, is kept
by every editing step that leaves these units alone. -/

/-- A filter that lets a word through does not change whether the text contains it as a
subsequence. -/
theorem sublist_filter {p : Nat → Bool} {l s : JString} (hl : ∀ a ∈ l, p a = true) :
    l.Sublist (s.filter p) ↔ l.Sublist s := by
  refine ⟨fun h => h.trans List.filter_sublist, fun h => ?_⟩
  have := h.filter p
  rwa [List.filter_eq_self.mpr hl] at this

/-- A replacement among characters that the word does not have does not change it either. -/
theorem sublist_replaceChar {a b : Nat} {l s : JString} (ha : a ∉ l) (hb : b ∉ l) :
    l.Sublist (replaceChar a b s) ↔ l.Sublist s := by
  refine ⟨fun h => ?_, fun h => ?_⟩
  · obtain ⟨k, hk, rfl⟩ := List.sublist_map_iff.mp h
    -- an `a` that was replaced would be a `b` of `l`
    have hno : a ∉ k := fun hak => hb (List.mem_map.mpr ⟨a, hak, if_pos rfl⟩)
    have hsame : (k.map fun c => if c = a then b else c) = k := replaceChar_of_not_mem hno
    rwa [hsame]
  · have := h.map fun c => if c = a then b else c
    rwa [← replaceChar, replaceChar_of_not_mem ha] at this

/-- Squeezing shortens runs of one character, and of the others it leaves all. -/
theorem filter_squeeze (c : Nat) (s : JString) :
    (squeeze c s).filter (· != c) = s.filter (· != c) := by
  induction s using squeeze.induct c with
  | case1 => rfl
  | case2 x => rfl
  | case3 x y rest hrun ih =>
    rw [squeeze, if_pos hrun, ih, List.filter_cons_of_neg (a := x) (by simp [hrun.1])]
  | case4 x y rest hrun ih =>
    rw [squeeze, if_neg hrun, List.filter_cons, List.filter_cons, ih]

/-- Nor does squeezing a character that the word does not have. With `sublist_filter` and
`sublist_replaceChar` a word can be followed through a rewriting that touches none of its
characters. -/
theorem sublist_squeeze {c : Nat} {l s : JString} (hl : c ∉ l) :
    l.Sublist (squeeze c s) ↔ l.Sublist s := by
  have hkeep : ∀ a ∈ l, (a != c) = true := fun a ha => bne_iff_ne.mpr fun heq => hl (heq ▸ ha)
  rw [← sublist_filter hkeep, filter_squeeze, sublist_filter hkeep]

/-- Nothing between two units over 32 is trimmed off. -/
theorem sublist_trim {a b : Nat} {m s : JString} (ha : 32 < a) (hb : 32 < b) :
    (a :: (m ++ [b])).Sublist (trim s) ↔ (a :: (m ++ [b])).Sublist s := by
  refine ⟨fun h => h.trans (trim_isInfix_self s).sublist, fun h => ?_⟩
  obtain ⟨x, z, hs, hx, hz, -⟩ := exists_trim s
  rw [hs] at h
  obtain ⟨l₁, l₂, hl, hl₁, hl₂⟩ := List.sublist_append_iff.mp h
  obtain ⟨l₃, l₄, hl', hl₃, hl₄⟩ := List.sublist_append_iff.mp hl₂
  -- the word starts and ends with units that trimming would not cut, so none of it lies outside
  have hfront : l₁ = [] := by
    cases l₁ with
    | nil => rfl
    | cons a' l₁ =>
      rw [List.cons_append, List.cons.injEq] at hl
      have := hx a' (hl₁.subset List.mem_cons_self)
      omega
  have hback : l₄ = [] := by
    rcases List.eq_nil_or_concat l₄ with hnil | ⟨l₄, b', rfl⟩
    · exact hnil
    · rw [hl', List.concat_eq_append, ← List.cons_append, ← List.append_assoc,
        ← List.append_assoc] at hl
      have := hz b' (hl₄.subset (by simp))
      have := List.append_inj_right' hl rfl
      simp only [List.cons.injEq] at this
      omega
  rw [hl, hfront, hl', hback, List.nil_append, List.append_nil]
  exact hl₃

/-- A unit up to 32 that is left by `trim` stands between two units over 32. -/
theorem exists_around_of_mem_trim {c : Nat} {s : JString} (hc : c ≤ 32) (h : c ∈ trim s) :
    ∃ a b, 32 < a ∧ 32 < b ∧ [a, c, b].Sublist (trim s) := by
  obtain ⟨-, -, -, -, -, hhead, hlast⟩ := exists_trim s
  obtain ⟨x, z, hs⟩ := List.append_of_mem h
  rw [hs] at hhead hlast ⊢
  obtain ⟨a, x, rfl⟩ : ∃ a x', x = a :: x' := by
    cases x with
    | nil => exact absurd (hhead c rfl) (Nat.not_lt.mpr hc)
    | cons a x => exact ⟨a, x, rfl⟩
  obtain ⟨z, b, rfl⟩ : ∃ z' b, z = z' ++ [b] := by
    rcases List.eq_nil_or_concat z with rfl | ⟨z, b, rfl⟩
    · exact absurd (hlast c List.getLast?_concat) (Nat.not_lt.mpr hc)
    · exact ⟨z, b, List.concat_eq_append⟩
  rw [← List.cons_append, ← List.append_assoc] at hlast
  have hfront : [a].Sublist (a :: x) := (List.nil_sublist x).cons_cons a
  have hback : [b].Sublist (z ++ [b]) := List.sublist_append_right z [b]
  exact ⟨a, b, hhead a rfl, hlast b List.getLast?_concat, hfront.append (hback.cons_cons c)⟩

/-! ## Splitting -/

/-- `split` at one unit: the empty parts at the end are left out, and a string without the
unit is its only part, also if it is empty. -/
def split (c : Nat) (s : JString) : List JString :=
  if c ∈ s then ((s.splitOn c).reverse.dropWhile (·.isEmpty)).reverse else [s]

/-- The separator is in none of the parts. -/
theorem not_mem_of_mem_splitOn {c : Nat} {w s : JString} (hw : w ∈ s.splitOn c) : c ∉ w := by
  induction s generalizing w with
  | nil =>
    rw [List.mem_singleton.mp hw]
    exact List.not_mem_nil
  | cons a s ih =>
    obtain ⟨v, vs, hparts⟩ := List.exists_cons_of_ne_nil (List.splitOn_ne_nil c s)
    rw [hparts] at ih
    rw [List.splitOn_eq_splitOnP, List.splitOnP_cons_eq_if_modifyHead,
      ← List.splitOn_eq_splitOnP, hparts] at hw
    by_cases hac : a = c
    · rw [if_pos (beq_iff_eq.mpr hac)] at hw
      rcases List.mem_cons.mp hw with rfl | hw
      · exact List.not_mem_nil
      · exact ih hw
    · rw [if_neg (mt beq_iff_eq.mp hac)] at hw
      rcases List.mem_cons.mp hw with rfl | hw
      · rw [List.mem_cons, not_or]
        exact ⟨Ne.symm hac, ih List.mem_cons_self⟩
      · exact ih (List.mem_cons_of_mem v hw)

/-- The parts after the first one are not empty, and the first one is only if the string
begins with the unit. -/
theorem parts_of_no_pair {c : Nat} {s : JString} (hpair : ¬[c, c] <:+: s)
    (hlast : s.getLast? ≠ some c) :
    (∀ w ∈ (s.splitOn c).tail, w ≠ []) ∧
      ((s.splitOn c).head? = some [] → s = [] ∨ s.head? = some c) := by
  induction s with
  | nil => exact ⟨fun _ hw => absurd hw (List.not_mem_nil), fun _ => Or.inl rfl⟩
  | cons a s ih =>
    have hpair' : ¬[c, c] <:+: s := fun h => hpair (List.infix_cons_iff.mpr (Or.inr h))
    have hlast' : s.getLast? ≠ some c := fun h => hlast (by rw [List.getLast?_cons, h]; rfl)
    obtain ⟨htail, hhead⟩ := ih hpair' hlast'
    obtain ⟨w, ws, hparts⟩ := List.exists_cons_of_ne_nil (List.splitOn_ne_nil c s)
    rw [List.splitOn_eq_splitOnP] at hparts htail hhead ⊢
    rw [List.splitOnP_cons_eq_if_modifyHead]
    rw [hparts] at htail hhead ⊢
    by_cases hac : a = c
    · -- the part that begins here would be empty only if a pair or the end followed
      rw [if_pos (beq_iff_eq.mpr hac)]
      refine ⟨fun v hv => ?_, fun _ => Or.inr (congrArg some hac)⟩
      rcases List.mem_cons.mp hv with rfl | hv
      · intro hv
        rcases hhead (congrArg some hv) with rfl | hc
        · exact hlast (congrArg some hac)
        · obtain ⟨t, rfl⟩ := List.head?_eq_some_iff.mp hc
          rw [hac] at hpair
          exact hpair ⟨[], t, rfl⟩
      · exact htail v hv
    · rw [if_neg (mt beq_iff_eq.mp hac)]
      exact ⟨htail, fun h => nomatch Option.some.inj h⟩

/-- Without empty parts, `split` is the plain division. -/
theorem split_eq_splitOn {c : Nat} {s : JString} (h : ∀ w ∈ s.splitOn c, w ≠ []) :
    split c s = s.splitOn c := by
  unfold split
  by_cases hc : c ∈ s
  · have hkeep : (s.splitOn c).reverse.dropWhile (·.isEmpty) = (s.splitOn c).reverse := by
      obtain ⟨w, ws, hparts⟩ := List.exists_cons_of_ne_nil
        (mt List.reverse_eq_nil_iff.mp (List.splitOn_ne_nil c s))
      have hw : w ≠ [] := h w (List.mem_reverse.mp (hparts ▸ List.mem_cons_self))
      rw [hparts, List.dropWhile_cons_of_neg (by simpa using hw)]
    rw [if_pos hc, hkeep, List.reverse_reverse]
  · rw [if_neg hc, List.splitOn_eq_singleton hc]

theorem mem_intercalate_of_mem {sep w : JString} {ws : List JString} {a : Nat} (hw : w ∈ ws)
    (ha : a ∈ w) : a ∈ sep.intercalate ws := by
  induction ws with
  | nil => cases hw
  | cons v ws ih =>
    cases ws with
    | nil =>
      rw [List.mem_singleton.mp hw] at ha
      rwa [List.intercalate_singleton]
    | cons v' ws =>
      rw [List.intercalate_cons_cons]
      rcases List.mem_cons.mp hw with rfl | hw
      · exact List.mem_append_left _ (List.mem_append_left _ ha)
      · exact List.mem_append_right _ (ih hw)

/-- A character of a joined text is of the separator or of one of the words. -/
theorem of_mem_intercalate {sep : JString} {ws : List JString} {a : Nat}
    (h : a ∈ sep.intercalate ws) : a ∈ sep ∨ ∃ w ∈ ws, a ∈ w := by
  induction ws with
  | nil => cases h
  | cons v ws ih =>
    cases ws with
    | nil => exact Or.inr ⟨v, List.mem_cons_self, by rwa [List.intercalate_singleton] at h⟩
    | cons v' ws =>
      rw [List.intercalate_cons_cons, List.append_assoc, List.mem_append, List.mem_append] at h
      rcases h with hv | hsep | hrest
      · exact Or.inr ⟨v, List.mem_cons_self, hv⟩
      · exact Or.inl hsep
      · exact (ih hrest).imp_right fun ⟨w, hw, ha⟩ => ⟨w, List.mem_cons_of_mem v hw, ha⟩

theorem mem_of_mem_splitOn {a c : Nat} {w s : JString} (hw : w ∈ s.splitOn c) (ha : a ∈ w) :
    a ∈ s := by
  have hjoin : [c].intercalate (s.splitOn c) = s := List.intercalate_splitOn c
  exact hjoin ▸ mem_intercalate_of_mem hw ha

/-- Splitting loses only separators. -/
theorem exists_mem_splitOn {a c : Nat} {s : JString} (hne : a ≠ c) (ha : a ∈ s) :
    ∃ w ∈ s.splitOn c, a ∈ w := by
  have hjoin : [c].intercalate (s.splitOn c) = s := List.intercalate_splitOn c
  refine (of_mem_intercalate (hjoin.symm ▸ ha)).resolve_left fun hc => ?_
  exact hne (List.mem_singleton.mp hc)

end JString

/-! ## Lower case -/

namespace Unicode

/-- What an English text becomes in lower case does not depend on the tables of the platform: ASCII
characters that are no capitals stay. -/
theorem toLowerCase_of_ascii (U : Unicode) {s : JString}
    (h : ∀ c ∈ s, c < 128 ∧ JString.isUpper c = false) : U.toLowerCase s = s := by
  rw [U.lower_ascii s fun c hc => (h c hc).1]
  exact JString.map_lower_of_no_upper fun c hc => (h c hc).2

/-- A text that lower-casing leaves as it is. -/
def IsLowerCase (U : Unicode) (s : JString) : Prop := U.toLowerCase s = s

/-- What is documented about lower case: lower-casing makes it, and a text is in lower case
when its characters are, of which an ASCII unit is always a whole one. -/
structure LowerCases (U : Unicode) : Prop where
  twice : ∀ s, U.IsLowerCase (U.toLowerCase s)
  pieces : ∀ (s : JString) (a : Nat) (t : JString), a < 128 →
    (U.IsLowerCase (s ++ a :: t) ↔
      U.IsLowerCase s ∧ JString.isUpper a = false ∧ U.IsLowerCase t)

theorem lowerCases_ascii : ascii.LowerCases where
  twice s := JString.map_lower_of_no_upper fun c hc =>
    Bool.eq_false_iff.mpr fun hup => noCapitals_ascii s c hup hc
  pieces s a t _ := by
    have hkept : (if JString.isUpper a then a + 32 else a) = a ↔ JString.isUpper a = false := by
      cases JString.isUpper a <;> simp
    show List.map _ _ = _ ↔ List.map _ _ = _ ∧ _ ∧ List.map _ _ = _
    rw [List.map_append, List.map_cons, ← hkept]
    refine ⟨fun h => ?_, fun ⟨hs, ha, ht⟩ => by rw [hs, ha, ht]⟩
    obtain ⟨hs, hrest⟩ := List.append_inj h (List.length_map _)
    exact ⟨hs, List.cons.inj hrest⟩

namespace LowerCases

open JString

variable {U : Unicode} (hU : U.LowerCases) {s : JString}

include hU

/-- Tables that make lower case leave no ASCII capitals: a capital would be lowered once more. -/
theorem noCapitals : U.NoCapitals := by
  intro s c hc hmem
  obtain ⟨x, z, hs⟩ := List.append_of_mem hmem
  have hlow := hU.twice s
  have hrange := isUpper_iff.mp hc
  rw [hs] at hlow
  have hno := ((hU.pieces x c z (by omega)).mp hlow).2.1
  rw [hc] at hno
  cases hno

/-- Being in lower case is a fact about the whole text, since tables may look at the context. ASCII
at either end can be cut off without changing it. -/
theorem of_append_append {x t z : JString} (h : U.IsLowerCase (x ++ (t ++ z)))
    (hx : ∀ a ∈ x, a < 128) (hz : ∀ a ∈ z, a < 128) : U.IsLowerCase t := by
  have hfront : U.IsLowerCase (t ++ z) := by
    rcases List.eq_nil_or_concat x with rfl | ⟨x, a, rfl⟩
    · exact h
    · rw [List.concat_eq_append] at h hx
      rw [List.append_assoc] at h
      exact ((hU.pieces x a _ (hx a (by simp))).mp h).2.2
  cases z with
  | nil => rwa [List.append_nil] at hfront
  | cons a z => exact ((hU.pieces t a z (hz a List.mem_cons_self)).mp hfront).1

/-- Trimming cuts ASCII only, namely blanks and control characters. -/
theorem trim (h : U.IsLowerCase s) : U.IsLowerCase (JString.trim s) := by
  obtain ⟨x, z, hs, hx, hz, -⟩ := exists_trim s
  rw [hs] at h
  exact hU.of_append_append h (fun a ha => by have := hx a ha; omega) fun a ha => by
    have := hz a ha
    omega

/-- Squeezing an ASCII character leaves one of each run, which still parts the text in the same
pieces. -/
theorem squeeze {c : Nat} (hc : c < 128) (h : U.IsLowerCase s) :
    U.IsLowerCase (JString.squeeze c s) := by
  -- with a part in front, which has gone through already
  suffices hall : ∀ x, U.IsLowerCase (x ++ s) → U.IsLowerCase (x ++ JString.squeeze c s) from
    hall [] h
  clear h
  induction s using squeeze.induct c with
  | case1 => exact fun x h => h
  | case2 a => exact fun x h => h
  | case3 a b rest hrun ih =>
    intro x h
    rw [JString.squeeze, if_pos hrun]
    rw [hrun.1] at h
    rw [hrun.2] at ih h ⊢
    obtain ⟨hx, hup, hrest⟩ := (hU.pieces x c _ hc).mp h
    exact ih x ((hU.pieces x c _ hc).mpr ⟨hx, hup, ((hU.pieces [] c rest hc).mp hrest).2.2⟩)
  | case4 a b rest hrun ih =>
    intro x h
    rw [JString.squeeze, if_neg hrun, List.append_cons]
    exact ih (x ++ [a]) (by rwa [← List.append_cons])

/-- An ASCII character may be exchanged for one that is no capital. -/
theorem replaceChar {a b : Nat} (ha : a < 128) (hb : b < 128) (hup : isUpper b = false)
    (h : U.IsLowerCase s) : U.IsLowerCase (JString.replaceChar a b s) := by
  suffices hall : ∀ x, U.IsLowerCase (x ++ s) → U.IsLowerCase (x ++ JString.replaceChar a b s) from
    hall [] h
  clear h
  induction s with
  | nil => exact fun x h => h
  | cons c s ih =>
    intro x h
    unfold JString.replaceChar at ih ⊢
    rw [List.map_cons]
    by_cases hca : c = a
    · rw [hca] at h
      obtain ⟨hx, -, hs⟩ := (hU.pieces x a s ha).mp h
      rw [if_pos hca]
      exact (hU.pieces x b _ hb).mpr ⟨hx, hup, ih [] hs⟩
    · rw [if_neg hca, List.append_cons]
      exact ih (x ++ [c]) (by rwa [← List.append_cons])

end LowerCases

end Unicode

/-! ## Upper case -/

/-- The Unicode tables with those behind `toUpperCase`, which are documented on ASCII. -/
structure Casing extends Unicode where
  toUpperCase : JString → JString
  upper_ascii : ∀ s : JString, (∀ c ∈ s, c < 128) →
    toUpperCase s = s.map fun c => if JString.isLower c then c - 32 else c

/-- The tables restricted to ASCII. -/
def Casing.ascii : Casing where
  toUnicode := Unicode.ascii
  toUpperCase s := s.map fun c => if JString.isLower c then c - 32 else c
  upper_ascii _ _ := rfl

end Maiden
