import Maiden.Base.Strings

/-!
# Slugs and names (`common/helpers/Text.scala`)

`slugify` (`Text.scala:115–119`) makes the base of a friendly id out of any text:
`underscore` separates the words of a camel-cased text and turns blanks and dashes
into underscores, `dasherize` makes dashes of underscores and dots, then the other
ASCII punctuation is dropped, everything is lower-cased and runs of dashes are
squeezed. `camelize` goes the other way, from a name with underscores to a camel-cased
one.

The regular expressions work on ASCII classes only, so a pass over the code units
does what `replaceAllIn` does: their matches never overlap, and each inserts one
underscore at a place that the neighbouring units determine.
-/

namespace Maiden

namespace Text

open JString

/-- `([A-Z]+)([A-Z][a-z])` to `$1_$2`: a run of capitals is matched as a whole, and the
underscore goes before its last one if a small letter follows. -/
def splitCapitals : JString → JString
  | a :: b :: c :: rest =>
    if isUpper a && isUpper b && isLower c then a :: jc '_' :: splitCapitals (b :: c :: rest)
    else a :: splitCapitals (b :: c :: rest)
  | s => s

/-- `([a-z\d])([A-Z])` to `$1_$2`. -/
def splitWords : JString → JString
  | a :: b :: rest =>
    if (isLower a || isAsciiDigit a) && isUpper b then a :: jc '_' :: splitWords (b :: rest)
    else a :: splitWords (b :: rest)
  | s => s

/-- `[-\s]` to `_`. -/
def spacesToUnderscores (s : JString) : JString :=
  s.map fun c => if c == jc '-' || isSpace c then jc '_' else c

/-- `Text.scala:76–85`. -/
def underscore (U : Unicode) (word : JString) : JString :=
  U.toLowerCase (spacesToUnderscores (splitWords (splitCapitals word)))

/-- `Text.scala:110`. -/
def dasherize (U : Unicode) (word : JString) : JString :=
  replaceChar (jc '_') (jc '-') (replaceChar (jc '.') (jc '-') (underscore U word))

/-- `Text.scala:113`. -/
def squeezeDash (word : JString) : JString := trim (squeeze (jc '-') word)

/-- `[\p{Punct}&&[^-]]` to nothing. -/
def dropPunct (s : JString) : JString := s.filter fun c => !(isPunct c && c != jc '-')

/-- `Text.scala:115–119`. -/
def slugify (U : Unicode) (word : JString) : JString :=
  squeezeDash (U.toLowerCase (dropPunct (dasherize U word)))

/-- A slug has no punctuation but dashes: what is dropped is not brought back by the
second lower-casing, which makes nothing new in ASCII but small letters. -/
theorem not_mem_slugify (U : Unicode) (word : JString) {c : Nat} (hc : isPunct c = true)
    (hdash : c ≠ jc '-') : c ∉ slugify U word := by
  intro h
  have hpunct := isPunct_iff.mp hc
  have hascii : c < 128 := by omega
  have hlow : c ∈ U.toLowerCase (dropPunct (dasherize U word)) :=
    mem_of_mem_squeeze (mem_of_mem_trim h)
  rcases U.lower_new _ c hascii hlow with hkept | hnew
  · have hfilter := (List.mem_filter.mp hkept).2
    simp [hc, hdash] at hfilter
  · have hsmall := isLower_iff.mp hnew
    omega

/-- No capital is in a slug, if lower-casing leaves none. -/
theorem not_mem_slugify_of_upper (U : Unicode) (hU : U.NoCapitals) (word : JString) {c : Nat}
    (hc : isUpper c = true) : c ∉ slugify U word := fun h =>
  hU _ c hc (mem_of_mem_squeeze (mem_of_mem_trim h))

/-! ## Texts that are their own slugs -/

/-- The small letters and digits. -/
def isPlain (c : Nat) : Bool := isLower c || isAsciiDigit c

theorem isPlain_iff {c : Nat} : isPlain c = true ↔ (97 ≤ c ∧ c ≤ 122) ∨ (48 ≤ c ∧ c ≤ 57) := by
  rw [isPlain, Bool.or_eq_true, isLower_iff, isAsciiDigit_iff]

section

variable {s : JString}

theorem splitCapitals_of_no_upper (h : ∀ c ∈ s, isUpper c = false) : splitCapitals s = s := by
  induction s using splitCapitals.induct with
  | case1 a b c rest hsplit _ =>
    rw [h a List.mem_cons_self] at hsplit
    cases hsplit
  | case2 a b c rest hsplit ih =>
    rw [splitCapitals, if_neg hsplit, ih fun x hx => h x (List.mem_cons_of_mem a hx)]
  | case3 s hshort =>
    rw [splitCapitals]
    exact hshort

theorem splitWords_of_no_upper (h : ∀ c ∈ s, isUpper c = false) : splitWords s = s := by
  induction s using splitWords.induct with
  | case1 a b rest hsplit _ =>
    rw [h b (List.mem_cons_of_mem a List.mem_cons_self), Bool.and_false] at hsplit
    cases hsplit
  | case2 a b rest hsplit ih =>
    rw [splitWords, if_neg hsplit, ih fun x hx => h x (List.mem_cons_of_mem a hx)]
  | case3 s hshort =>
    rw [splitWords]
    exact hshort

/-! Small letters and digits go through every stage unchanged. -/

theorem isUpper_eq_false_of_plain {c : Nat} (h : isPlain c = true) : isUpper c = false := by
  have := isPlain_iff.mp h
  rw [← Bool.not_eq_true, isUpper_iff]
  omega

theorem not_upper_of_plain (h : ∀ c ∈ s, isPlain c = true) : ∀ c ∈ s, isUpper c = false :=
  fun c hc => isUpper_eq_false_of_plain (h c hc)

theorem toLowerCase_of_plain (U : Unicode) (h : ∀ c ∈ s, isPlain c = true) :
    U.toLowerCase s = s := by
  refine U.toLowerCase_of_ascii fun c hc => ⟨?_, not_upper_of_plain h c hc⟩
  have := isPlain_iff.mp (h c hc)
  omega

/-- Behind the dash there is no blank in ASCII. -/
theorem spacesToUnderscores_of_lt (h : ∀ c ∈ s, jc '-' < c) : spacesToUnderscores s = s := by
  refine (List.map_congr_left fun c hc => if_neg ?_).trans (List.map_id s)
  have : 45 < c := h c hc
  rw [Bool.or_eq_true, beq_iff_eq, isSpace_iff]
  show ¬(c = 45 ∨ _)
  omega

theorem dropPunct_of_plain (h : ∀ c ∈ s, isPlain c = true) : dropPunct s = s := by
  refine List.filter_eq_self.mpr fun c hc => ?_
  have hno : isPunct c = false := by
    have := isPlain_iff.mp (h c hc)
    rw [← Bool.not_eq_true, isPunct_iff]
    omega
  rw [hno]
  rfl

theorem slugify_of_plain (U : Unicode) (h : ∀ c ∈ s, isPlain c = true) : slugify U s = s := by
  have hother : ∀ x, isPlain x = false → x ∉ s := fun x hx hc => by
    rw [h x hc] at hx
    cases hx
  have hupper := not_upper_of_plain h
  have hlower := toLowerCase_of_plain U h
  have htrim : trim s = s := trim_of_lt fun c hc => by
    have := isPlain_iff.mp (h c hc)
    omega
  have hspaces : spacesToUnderscores s = s := spacesToUnderscores_of_lt fun c hc => by
    show 45 < c
    have := isPlain_iff.mp (h c hc)
    omega
  unfold slugify dasherize underscore squeezeDash
  rw [splitCapitals_of_no_upper hupper, splitWords_of_no_upper hupper, hspaces, hlower,
    replaceChar_of_not_mem (hother (jc '.') (by decide)),
    replaceChar_of_not_mem (hother (jc '_') (by decide)), dropPunct_of_plain h, hlower,
    squeeze_of_not_mem (hother (jc '-') (by decide)), htrim]

end

/-- A camel-cased name with a dot, a blank and a plus sign. -/
example : slugify Unicode.ascii (js ['J', 'o', 'e', '.', 'M', 'c', 'K', ' ', '+', '1']) =
    js ['j', 'o', 'e', '-', 'm', 'c', '-', 'k', '-', '1'] := by decide

end Text

end Maiden
