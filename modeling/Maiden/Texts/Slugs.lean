import Maiden.Base.Strings
import Maiden.Common.Text

/-!
# Slugs are normal forms (`common/helpers/Text.scala`)

`slugify` sends a text through six stages. Friendly ids and the names of mail templates
are slugs (`FriendlyId.scala:47, 76`, `Mailer.scala:49`), so a text that is a slug
already has to stay the same. `IsSlug` says what the stages establish between them:

- `isSlug_slugify`: no later stage undoes what an earlier one has done;
- `IsSlug.slugify_eq`: every stage but two leaves such a text as it is, and these two
  undo each other: `underscore` makes underscores of the dashes, `dasherize` dashes of
  the underscores.
-/

namespace Maiden

namespace Text

open JString

/-- A text in the form of a slug. -/
structure IsSlug (U : Unicode) (s : JString) : Prop where
  no_pair : ¬[jc '-', jc '-'] <:+: s
  no_upper : ∀ c ∈ s, isUpper c = false
  no_space : ∀ c ∈ s, isSpace c = false
  no_punct : ∀ c ∈ s, isPunct c = true → c = jc '-'
  lower : U.IsLowerCase s
  trimmed : trim s = s

/-! ## The stages on a slug -/

namespace IsSlug

variable {U : Unicode} {s : JString}

theorem not_mem (hs : IsSlug U s) {c : Nat} (hc : isPunct c = true) (hdash : c ≠ jc '-') :
    c ∉ s := fun h =>
  hdash (hs.no_punct c h hc)

theorem spacesToUnderscores_eq (hs : IsSlug U s) :
    spacesToUnderscores s = replaceChar (jc '-') (jc '_') s :=
  List.map_congr_left fun c hc => by simp [hs.no_space c hc]

theorem dropPunct_eq (hs : IsSlug U s) : dropPunct s = s := by
  refine List.filter_eq_self.mpr fun c hc => ?_
  by_cases hp : isPunct c = true
  · simp [hs.no_punct c hc hp]
  · simp [hp]

/-- Dashes that became underscores become dashes again. -/
theorem dasherize_eq (hU : U.LowerCases) (hs : IsSlug U s) : dasherize U s = s := by
  have hlow : U.toLowerCase (replaceChar (jc '-') (jc '_') s) = replaceChar (jc '-') (jc '_') s :=
    hU.replaceChar (by decide) (by decide) (by decide) hs.lower
  have hdot : jc '.' ∉ replaceChar (jc '-') (jc '_') s := fun h =>
    hs.not_mem (by decide) (by decide) (mem_replaceChar_of_ne (by decide) h)
  unfold dasherize underscore
  rw [splitCapitals_of_no_upper hs.no_upper, splitWords_of_no_upper hs.no_upper,
    hs.spacesToUnderscores_eq, hlow, replaceChar_of_not_mem hdot,
    replaceChar_replaceChar (hs.not_mem (by decide) (by decide))]

theorem slugify_eq (hU : U.LowerCases) (hs : IsSlug U s) : slugify U s = s := by
  unfold slugify squeezeDash
  rw [hs.dasherize_eq hU, hs.dropPunct_eq, hs.lower, squeeze_of_no_pair hs.no_pair, hs.trimmed]

end IsSlug

/-! ## What the stages leave -/

/-- No blank goes through `dasherize`: the pattern made underscores of them all. -/
theorem not_mem_dasherize (U : Unicode) (word : JString) {c : Nat} (hc : isSpace c = true) :
    c ∉ dasherize U word := by
  intro h
  have hrange := isSpace_iff.mp hc
  have hne : c ≠ jc '-' := fun heq => absurd hc (by rw [heq]; decide)
  have hlow : c ∈ underscore U word := mem_replaceChar_of_ne hne (mem_replaceChar_of_ne hne h)
  rcases U.lower_new _ c (by omega) hlow with hold | hnew
  · obtain ⟨x, -, hx⟩ := List.mem_map.mp hold
    by_cases hblank : (x == jc '-' || isSpace x) = true
    · rw [if_pos hblank] at hx
      exact absurd hc (by rw [← hx]; decide)
    · rw [if_neg hblank] at hx
      rw [hx, hc, Bool.or_true] at hblank
      exact hblank rfl
  · have := isLower_iff.mp hnew
    omega

theorem not_mem_slugify_of_space (U : Unicode) (word : JString) {c : Nat}
    (hc : isSpace c = true) : c ∉ slugify U word := by
  intro h
  have hrange := isSpace_iff.mp hc
  rcases U.lower_new _ c (by omega) (mem_of_mem_squeeze (mem_of_mem_trim h)) with hold | hnew
  · exact not_mem_dasherize U word hc (List.mem_filter.mp hold).1
  · have := isLower_iff.mp hnew
    omega

theorem isSlug_slugify {U : Unicode} (hU : U.LowerCases) (word : JString) :
    IsSlug U (slugify U word) where
  no_pair h := no_pair_squeeze _ _ (h.trans (trim_isInfix_self _))
  no_upper _ hc := Bool.eq_false_iff.mpr fun hup =>
    not_mem_slugify_of_upper U hU.noCapitals word hup hc
  no_space _ hc := Bool.eq_false_iff.mpr fun hsp => not_mem_slugify_of_space U word hsp hc
  no_punct _ hc hp := by_contra fun hdash => not_mem_slugify U word hp hdash hc
  lower := hU.trim (hU.squeeze (by decide) (hU.twice _))
  trimmed := trim_trim _

/-- Slugs are normal forms: no two dashes in a row, no ASCII capital, no blank, no ASCII
punctuation but the dash, and the slug of a slug is itself. -/
theorem slugify_normal (U : Unicode) (hU : U.LowerCases) (word : JString) :
    ¬[jc '-', jc '-'] <:+: slugify U word ∧
      (∀ c ∈ slugify U word, isUpper c = false ∧ isSpace c = false ∧
        (isPunct c = true → c = jc '-')) ∧
      slugify U (slugify U word) = slugify U word := by
  have h := isSlug_slugify hU word
  exact ⟨h.no_pair, fun c hc => ⟨h.no_upper c hc, h.no_space c hc, h.no_punct c hc⟩,
    h.slugify_eq hU⟩

/-- A text with a run of dashes, dots and blanks. -/
theorem slugify_normal_runs :
    slugify Unicode.ascii (js ['J', 'o', 'e', ' ', '-', '.', 'M', 'c', 'K', '!']) =
        js ['j', 'o', 'e', '-', 'm', 'c', '-', 'k'] ∧
      slugify Unicode.ascii (js ['j', 'o', 'e', '-', 'm', 'c', '-', 'k']) =
        js ['j', 'o', 'e', '-', 'm', 'c', '-', 'k'] := by
  have hslug : slugify Unicode.ascii (js ['J', 'o', 'e', ' ', '-', '.', 'M', 'c', 'K', '!']) =
      js ['j', 'o', 'e', '-', 'm', 'c', '-', 'k'] := by decide
  have hnormal := slugify_normal Unicode.ascii Unicode.lowerCases_ascii
    (js ['J', 'o', 'e', ' ', '-', '.', 'M', 'c', 'K', '!'])
  rw [hslug] at hnormal
  exact ⟨hslug, hnormal.2.2⟩

end Text

end Maiden
