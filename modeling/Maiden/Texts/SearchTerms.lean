import Maiden.Base.Strings
import Maiden.Common.Text

/-!
# Search terms as queries (`data/models/Schema.scala`)

`toTsQuery` makes a text-search query of what the user typed: dots and dashes become
blanks, all but ASCII letters, digits and white space is deleted, runs of blanks are
squeezed, the text is trimmed and lower-cased, and its words are joined by `&`. The
result stands in an SQL literal of `User.search`.

Only blanks are squeezed and separate words, while tabs and line breaks are white space
as well and stay. At the ends `trim` takes them away; between two words they stay in the
query, which then has two operands without an operator.

- `lowered_eq_nil_or_words`: whatever the term, the text that is split has no empty word;
- `not_mem_tsQueryBase`: nor is there a quote that could end the literal;
- `wellFormedBase_iff`: the query is well formed exactly if no tab or line break stands
  between two letters or digits.
-/

namespace Maiden

namespace Schema

open JString

/-- `[a-zA-Z0-9]`. -/
def isWordChar (c : Nat) : Bool := isLower c || isUpper c || isAsciiDigit c

/-- `toTsQuery` up to `trim` (`Schema.scala:147–151`). -/
def cleaned (term : JString) : JString :=
  trim (squeeze (jc ' ')
    ((replaceChar (jc '-') (jc ' ') (replaceChar (jc '.') (jc ' ') term)).filter
      fun c => isWordChar c || isSpace c))

/-- The value `base` of `toTsQuery`. -/
def tsQueryBase (U : Unicode) (term : JString) : JString :=
  (js [' ', '&', ' ']).intercalate (split (jc ' ') (U.toLowerCase (cleaned term)))

/-- The quote that begins and ends an SQL literal. -/
def quote : Nat := 39

def backslash : Nat := 92

/-- `base` in the text `to_tsquery('…')`. -/
def tsQueryOf (base : JString) : JString :=
  js ['t', 'o', '_', 't', 's', 'q', 'u', 'e', 'r', 'y', '('] ++ [quote] ++ base ++ [quote] ++
    js [')']

/-- `Schema.scala:145–156`. -/
def toTsQuery (U : Unicode) (term : JString) : JString := tsQueryOf (tsQueryBase U term)

/-- A query of words: each is a non-empty word over `a-z` and `0-9`, and they are joined by
`&`. Without words it is empty. -/
def WellFormedBase (base : JString) : Prop :=
  ∃ words : List JString, (∀ w ∈ words, w ≠ [] ∧ ∀ c ∈ w, Text.isPlain c = true) ∧
    base = (js [' ', '&', ' ']).intercalate words

/-- White space other than the blank: tab, line feed, vertical tab, form feed and carriage
return. -/
def IsBreak (c : Nat) : Prop := isSpace c = true ∧ c ≠ jc ' '

/-- A tab or line break stands somewhere between two letters or digits. -/
def BreakInside (term : JString) : Prop :=
  ∃ a c b, isWordChar a = true ∧ IsBreak c ∧ isWordChar b = true ∧ [a, c, b].Sublist term

/-! ## The cleaned text -/

theorem isWordChar_iff {c : Nat} : isWordChar c = true ↔
    (97 ≤ c ∧ c ≤ 122) ∨ (65 ≤ c ∧ c ≤ 90) ∨ (48 ≤ c ∧ c ≤ 57) := by
  rw [isWordChar, Bool.or_eq_true, Bool.or_eq_true, isLower_iff, isUpper_iff, isAsciiDigit_iff,
    or_assoc]

theorem isBreak_iff {c : Nat} : IsBreak c ↔ 9 ≤ c ∧ c ≤ 13 := by
  show isSpace c = true ∧ c ≠ 32 ↔ _
  rw [isSpace_iff]
  omega

/-- Cleaning leaves word characters and white space. -/
theorem of_mem_cleaned {term : JString} {c : Nat} (h : c ∈ cleaned term) :
    isWordChar c = true ∨ isSpace c = true := by
  have hkept := (List.mem_filter.mp (mem_of_mem_squeeze (mem_of_mem_trim h))).2
  rwa [Bool.or_eq_true] at hkept

/-- The order of letters, digits and breaks is the one of the term. -/
theorem sublist_cleaned {term : JString} {a c b : Nat} (ha : isWordChar a = true)
    (hc : IsBreak c) (hb : isWordChar b = true) :
    [a, c, b].Sublist (cleaned term) ↔ [a, c, b].Sublist term := by
  have ha' := isWordChar_iff.mp ha
  have hb' := isWordChar_iff.mp hb
  have hc' := isBreak_iff.mp hc
  have hkept : ∀ x ∈ [a, c, b], (isWordChar x || isSpace x) = true := by
    simp [ha, hb, hc.1]
  have hother : ∀ x, isWordChar x = false → ¬IsBreak x → x ∉ [a, c, b] := by
    intro x hx hbreak hmem
    simp only [List.mem_cons, List.not_mem_nil, or_false] at hmem
    rcases hmem with rfl | rfl | rfl
    · exact Bool.false_ne_true (hx.symm.trans ha)
    · exact hbreak hc
    · exact Bool.false_ne_true (hx.symm.trans hb)
  have hblank : jc ' ' ∉ [a, c, b] := hother _ (by decide) fun h => h.2 rfl
  unfold cleaned
  rw [← List.singleton_append (x := c), sublist_trim (by omega) (by omega), List.singleton_append,
    sublist_squeeze hblank, sublist_filter hkept,
    sublist_replaceChar (hother _ (by decide) fun h => absurd h.1 (by decide)) hblank,
    sublist_replaceChar (hother _ (by decide) fun h => absurd h.1 (by decide)) hblank]

/-- A break survives cleaning only if it stands between words: at the ends it is trimmed. -/
theorem exists_break_iff {term : JString} :
    (∃ c ∈ cleaned term, IsBreak c) ↔ BreakInside term := by
  constructor
  · rintro ⟨c, hmem, hc⟩
    have hrange := isBreak_iff.mp hc
    obtain ⟨a, b, ha, hb, hsub⟩ := exists_around_of_mem_trim (by omega) hmem
    -- what is over 32 and was not deleted is a letter or a digit
    have hword : ∀ x ∈ cleaned term, 32 < x → isWordChar x = true := by
      intro x hx hlt
      refine (of_mem_cleaned hx).resolve_right fun hspace => ?_
      have := isSpace_iff.mp hspace
      omega
    have ha' := hword a (hsub.subset (by simp)) ha
    have hb' := hword b (hsub.subset (by simp)) hb
    exact ⟨a, c, b, ha', hc, hb', (sublist_cleaned ha' hc hb').mp hsub⟩
  · rintro ⟨a, c, b, ha, hc, hb, hsub⟩
    exact ⟨c, ((sublist_cleaned ha hc hb).mpr hsub).subset (by simp), hc⟩

/-! ## Its words -/

variable (U : Unicode)

/-- The text is in ASCII, where lower-casing goes unit by unit. -/
theorem toLowerCase_cleaned (term : JString) :
    U.toLowerCase (cleaned term) =
      (cleaned term).map fun c => if isUpper c then c + 32 else c := by
  refine U.lower_ascii _ fun c hc => ?_
  rcases of_mem_cleaned hc with hword | hspace
  · have := isWordChar_iff.mp hword
    omega
  · have := isSpace_iff.mp hspace
    omega

/-- What stands before the capitals in ASCII is neither lowered nor the result of lowering. -/
theorem lower_eq_iff {x c : Nat} (hc : c < 65) :
    (if isUpper x then x + 32 else x) = c ↔ x = c := by
  by_cases hx : isUpper x = true
  · have := isUpper_iff.mp hx
    rw [if_pos hx]
    omega
  · rw [if_neg hx]

theorem isPlain_lower {x : Nat} (hx : isWordChar x = true) :
    Text.isPlain (if isUpper x then x + 32 else x) = true := by
  have hrange := isWordChar_iff.mp hx
  rw [Text.isPlain_iff]
  by_cases hup : isUpper x = true
  · have := isUpper_iff.mp hup
    rw [if_pos hup]
    omega
  · have := mt isUpper_iff.mpr hup
    rw [if_neg hup]
    omega

/-- Blanks and breaks are the same before and after lowering. -/
theorem mem_toLowerCase_cleaned {term : JString} {c : Nat} (hc : c < 65) :
    c ∈ U.toLowerCase (cleaned term) ↔ c ∈ cleaned term := by
  rw [toLowerCase_cleaned, List.mem_map]
  refine ⟨fun ⟨x, hx, hxc⟩ => (lower_eq_iff hc).mp hxc ▸ hx, fun h => ⟨c, h, ?_⟩⟩
  exact (lower_eq_iff hc).mpr rfl

theorem of_mem_toLowerCase_cleaned {term : JString} {c : Nat}
    (h : c ∈ U.toLowerCase (cleaned term)) : Text.isPlain c = true ∨ isSpace c = true := by
  rw [toLowerCase_cleaned] at h
  obtain ⟨x, hx, rfl⟩ := List.mem_map.mp h
  rcases of_mem_cleaned hx with hword | hspace
  · exact Or.inl (isPlain_lower hword)
  · have hrange := isSpace_iff.mp hspace
    rw [(lower_eq_iff (by omega)).mpr rfl]
    exact Or.inr hspace

/-! A blank of the lower-cased text was a blank before, so what `squeeze` and `trim` have
established about blanks stays true. -/

/-- Runs of blanks have been squeezed. -/
theorem no_blank_pair (term : JString) :
    ¬[jc ' ', jc ' '] <:+: U.toLowerCase (cleaned term) := by
  rw [toLowerCase_cleaned, List.infix_map_iff]
  rintro ⟨l, hl, heq⟩
  have hblanks : l = [jc ' ', jc ' '] := by
    obtain ⟨x, l, rfl, hx, hrest⟩ := List.map_eq_cons_iff.mp heq.symm
    obtain ⟨y, l, rfl, hy, hnil⟩ := List.map_eq_cons_iff.mp hrest
    rw [(lower_eq_iff (by decide)).mp hx, (lower_eq_iff (by decide)).mp hy,
      List.map_eq_nil_iff.mp hnil]
  exact no_pair_squeeze _ _ (hblanks ▸ hl.trans (trim_isInfix_self _))

/-- The ends are trimmed before lowering, and lowering makes no blank. -/
theorem no_blank_at_ends (term : JString) :
    (U.toLowerCase (cleaned term)).head? ≠ some (jc ' ') ∧
      (U.toLowerCase (cleaned term)).getLast? ≠ some (jc ' ') := by
  have hends : (∀ a ∈ (cleaned term).head?, 32 < a) ∧ ∀ a ∈ (cleaned term).getLast?, 32 < a := by
    obtain ⟨-, -, -, -, -, hhead, hlast⟩ := exists_trim _
    exact ⟨hhead, hlast⟩
  have hblank : ∀ {o : Option Nat}, (∀ a ∈ o, 32 < a) →
      (o.map fun c => if isUpper c then c + 32 else c) ≠ some (jc ' ') := by
    intro o ho h
    obtain ⟨x, hx, hxc⟩ := Option.map_eq_some_iff.mp h
    have := ho x hx
    rw [(lower_eq_iff (by decide)).mp hxc] at this
    exact Nat.lt_irrefl _ this
  rw [toLowerCase_cleaned, List.head?_map, List.getLast?_map]
  exact ⟨hblank hends.1, hblank hends.2⟩

/-- The text that is split is empty, or has no empty word. -/
theorem lowered_eq_nil_or_words (term : JString) :
    U.toLowerCase (cleaned term) = [] ∨
      ∀ w ∈ (U.toLowerCase (cleaned term)).splitOn (jc ' '), w ≠ [] := by
  refine or_iff_not_imp_left.mpr fun hne w hw => ?_
  obtain ⟨hhead, hlast⟩ := no_blank_at_ends U term
  obtain ⟨htail, hfirst⟩ := parts_of_no_pair (no_blank_pair U term) hlast
  obtain ⟨v, vs, hparts⟩ := List.exists_cons_of_ne_nil (List.splitOn_ne_nil (jc ' ') _)
  rw [hparts] at hw htail hfirst
  rcases List.mem_cons.mp hw with rfl | hw
  · exact fun hnil => (hfirst (congrArg some hnil)).elim hne hhead
  · exact htail w hw

/-! ## The query -/

/-- The query is empty, or the words of the text joined. -/
theorem tsQueryBase_eq (term : JString) :
    (U.toLowerCase (cleaned term) = [] ∧ tsQueryBase U term = []) ∨
      (∀ w ∈ (U.toLowerCase (cleaned term)).splitOn (jc ' '), w ≠ []) ∧
        tsQueryBase U term = (js [' ', '&', ' ']).intercalate
          ((U.toLowerCase (cleaned term)).splitOn (jc ' ')) := by
  rcases lowered_eq_nil_or_words U term with hnil | hwords
  · refine Or.inl ⟨hnil, ?_⟩
    rw [tsQueryBase, hnil]
    rfl
  · exact Or.inr ⟨hwords, by rw [tsQueryBase, split_eq_splitOn hwords]⟩

/-- Joining leaves what is in the text, and adds only blanks and ampersands. -/
theorem mem_tsQueryBase {term : JString} {c : Nat} (hblank : c ≠ jc ' ') (hand : c ≠ jc '&') :
    c ∈ tsQueryBase U term ↔ c ∈ U.toLowerCase (cleaned term) := by
  rcases tsQueryBase_eq U term with ⟨hnil, hbase⟩ | ⟨-, hbase⟩
  · rw [hnil, hbase]
  · have hsep : c ∉ js [' ', '&', ' '] := by
      show c ∉ [jc ' ', jc '&', jc ' ']
      simp [hblank, hand]
    rw [hbase]
    refine ⟨fun h => ?_, fun h => ?_⟩
    · obtain ⟨w, hw, hc⟩ := (of_mem_intercalate h).resolve_left hsep
      exact mem_of_mem_splitOn hw hc
    · obtain ⟨w, hw, hc⟩ := exists_mem_splitOn hblank h
      exact mem_intercalate_of_mem hw hc

/-- Nothing in the query is a quote or a backslash, which could end the literal. -/
theorem not_mem_tsQueryBase {term : JString} {c : Nat} (hpunct : isPunct c = true)
    (hand : c ≠ jc '&') : c ∉ tsQueryBase U term := by
  have hrange := isPunct_iff.mp hpunct
  have hblank : c ≠ jc ' ' := by
    show c ≠ 32
    omega
  rw [mem_tsQueryBase U hblank hand]
  intro h
  rcases of_mem_toLowerCase_cleaned U h with hplain | hspace
  · have := Text.isPlain_iff.mp hplain
    omega
  · have := isSpace_iff.mp hspace
    omega

/-- **A term is well-formed unless it has a break inside.** Only blanks are joined by an operator,
so a tab or a line break between two words leaves them side by side. -/
theorem wellFormedBase_iff (term : JString) :
    WellFormedBase (tsQueryBase U term) ↔ ¬BreakInside term := by
  rw [← exists_break_iff]
  constructor
  · rintro ⟨words, hwords, hbase⟩ ⟨c, hmem, hc⟩
    have hrange := isBreak_iff.mp hc
    have hand : c ≠ jc '&' := by
      show c ≠ 38
      omega
    -- the break is in the query, but in none of its words
    have hquery := (mem_tsQueryBase U hc.2 hand).mpr
      ((mem_toLowerCase_cleaned U (by omega)).mpr hmem)
    rw [hbase] at hquery
    rcases of_mem_intercalate hquery with hsep | ⟨w, hw, hcw⟩
    · simp only [js, List.map_cons, List.map_nil, List.mem_cons, List.not_mem_nil, or_false] at hsep
      rcases hsep with h | h | h
      · exact hc.2 h
      · exact hand h
      · exact hc.2 h
    · have := Text.isPlain_iff.mp ((hwords w hw).2 c hcw)
      omega
  · intro hno
    rcases tsQueryBase_eq U term with ⟨-, hbase⟩ | ⟨hwords, hbase⟩
    · exact ⟨[], fun w hw => absurd hw List.not_mem_nil, hbase⟩
    · refine ⟨_, fun w hw => ⟨hwords w hw, fun c hc => ?_⟩, hbase⟩
      have hblank : c ≠ jc ' ' := fun heq => not_mem_of_mem_splitOn hw (heq ▸ hc)
      have hmem : c ∈ U.toLowerCase (cleaned term) := mem_of_mem_splitOn hw hc
      refine (of_mem_toLowerCase_cleaned U hmem).resolve_right fun hspace => ?_
      have hrange := isSpace_iff.mp hspace
      exact hno ⟨c, (mem_toLowerCase_cleaned U (by omega)).mp hmem, hspace, hblank⟩

theorem tsQueryOf_injective : Function.Injective tsQueryOf := fun _ _ h =>
  List.append_cancel_left (List.append_cancel_right (List.append_cancel_right h))

/-- A search term becomes a query of words joined by `&` exactly if no tab or line break
stands between two of its letters or digits. No term ends the literal. -/
theorem toTsQuery_iff (term : JString) :
    ((∃ base, toTsQuery U term = tsQueryOf base ∧ WellFormedBase base) ↔ ¬BreakInside term) ∧
      ∃ base, toTsQuery U term = tsQueryOf base ∧ quote ∉ base ∧ backslash ∉ base := by
  refine ⟨?_, tsQueryBase U term, rfl, not_mem_tsQueryBase U (by decide) (by decide),
    not_mem_tsQueryBase U (by decide) (by decide)⟩
  rw [← wellFormedBase_iff U]
  refine ⟨fun ⟨base, hquery, hform⟩ => ?_, fun h => ⟨_, rfl, h⟩⟩
  exact tsQueryOf_injective hquery ▸ hform

/-- A name with a dot, and blanks around it. -/
theorem toTsQuery_name :
    ¬BreakInside (js [' ', 'J', 'o', '.', 'D', '2', ' ']) ∧
      WellFormedBase (js ['j', 'o', ' ', '&', ' ', 'd', '2']) := by
  have hno : ¬BreakInside (js [' ', 'J', 'o', '.', 'D', '2', ' ']) := by
    rintro ⟨a, c, b, -, hc, -, hsub⟩
    have hmem : c ∈ js [' ', 'J', 'o', '.', 'D', '2', ' '] := hsub.subset (by simp)
    have hnone : ∀ x ∈ js [' ', 'J', 'o', '.', 'D', '2', ' '], ¬(9 ≤ x ∧ x ≤ 13) := by decide
    exact hnone c hmem (isBreak_iff.mp hc)
  have hbase : tsQueryBase Unicode.ascii (js [' ', 'J', 'o', '.', 'D', '2', ' ']) =
      js ['j', 'o', ' ', '&', ' ', 'd', '2'] := by decide
  obtain ⟨base, hquery, hform⟩ := (toTsQuery_iff Unicode.ascii _).1.mpr hno
  rw [← tsQueryOf_injective hquery, hbase] at hform
  exact ⟨hno, hform⟩

/-- Two words with a tab between them are two operands without an operator. -/
theorem tab_in_query :
    toTsQuery Unicode.ascii [jc 'a', 9, jc 'b'] = tsQueryOf [jc 'a', 9, jc 'b'] ∧
      ¬WellFormedBase [jc 'a', 9, jc 'b'] := by
  have hbase : tsQueryBase Unicode.ascii [jc 'a', 9, jc 'b'] = [jc 'a', 9, jc 'b'] := by decide
  refine ⟨congrArg tsQueryOf hbase, ?_⟩
  rw [← hbase, wellFormedBase_iff, not_not]
  exact ⟨jc 'a', 9, jc 'b', by decide, ⟨by decide, by decide⟩, by decide, List.Sublist.refl _⟩

end Schema

end Maiden
