import Mathlib.Data.Int.Init
import Mathlib.Data.Nat.Digits.Lemmas
import Mathlib.Tactic.Common

/-!
# Java numbers and strings

A Java string is a sequence of UTF-16 code units, so that `length`, `substring` and
`charAt` count units, not characters. A unit is kept as its number; a character
outside the basic plane is two units.

What the JDK takes from the Unicode tables is a parameter, `Unicode`: lower-casing
and the decimal value of a digit. Its fields state the part of the documented
behaviour that proofs may rely on, which is all about ASCII: the ten ASCII digits
are digits with their usual values, no other ASCII character is one, lower-casing
maps ASCII letters as expected and never creates an ASCII character that is not a
lower-case letter. `Unicode.ascii` is the table restricted to ASCII.

- `int32`: an integer reduced to the range of a 32-bit `Int`;
- `round`: `Math.round` of an `Int`, by way of `float`;
- `trim`, `squeeze`, `stripTrailing`, `replaceChar`: as in `java.lang.String`;
- `toDecimal`, `format02`: numbers as text;
- `parseSigned`: `Integer.parseInt` and `Long.parseLong`, by their width;
- `parseSigned_ofInt`, `toInt_format02`: numbers are read back from their texts;
- `toLong_eq_none_of_head`, `toLong_eq_none_of_tail`: texts that are no numbers.
-/

namespace Maiden

/-! ## 32-bit integers -/

/-- The value a 32-bit `Int` variable holds after an exact result `x`. -/
def int32 (x : Int) : Int := Int.bmod x (2 ^ 32)

/-- Within its range the 32-bit integer is the integer. -/
theorem int32_of_range {x : Int} (hlo : -2 ^ 31 ≤ x) (hhi : x < 2 ^ 31) : int32 x = x :=
  Int.bmod_eq_of_le (by omega) (by omega)

theorem int32_range (x : Int) : -2 ^ 31 ≤ int32 x ∧ int32 x < 2 ^ 31 := by
  unfold int32
  have hlo := Int.le_bmod (x := x) (m := 2 ^ 32) (by decide)
  have hhi := Int.bmod_lt (x := x) (m := 2 ^ 32) (by decide)
  omega

/-- Wrapping in between does not change what a difference wraps to. -/
theorem int32_sub_int32 (x y : Int) : int32 (int32 x - int32 y) = int32 (x - y) :=
  (Int.sub_bmod x y (2 ^ 32)).symm

/-- It does not matter when a difference wraps around, before the subtraction or after it. -/
theorem int32_int32_sub (x y : Int) : int32 (int32 x - y) = int32 (x - y) := Int.bmod_sub_bmod

/-- An `Int` as a `float`, which has 24 bits for its digits: to the nearest, and of two
equally near ones to the even one. -/
def floatOfInt (x : Int) : Int :=
  let ulp : Int := 2 ^ (Nat.log2 x.natAbs - 23)
  let q := x / ulp
  let r := x % ulp
  if 2 * r < ulp then q * ulp
  else if ulp < 2 * r then (q + 1) * ulp
  else if q % 2 = 0 then q * ulp else (q + 1) * ulp

/-- `Math.round` of an `Int`: the argument is widened to `float`, and the result is cut off
at the largest `Int`. -/
def round (x : Int) : Int := min (floatOfInt x) (2 ^ 31 - 1)

/-- Up to 24 bits an `Int` is a `float`. -/
theorem round_of_lt {x : Int} (h : x.natAbs < 2 ^ 24) : round x = x := by
  have hlog : Nat.log2 x.natAbs - 23 = 0 := by
    by_cases hx : x.natAbs = 0
    · rw [hx]
      rfl
    · have := (Nat.log2_lt hx).mpr h
      omega
  unfold round floatOfInt
  rw [hlog]
  simp only [Int.pow_zero, Int.ediv_one, Int.emod_one]
  rw [if_pos (by decide)]
  omega

/-- Rounding to a `Float` and then to an `Int` keeps a nonnegative number nonnegative. -/
theorem round_nonneg {x : Int} (h : 0 ≤ x) : 0 ≤ round x := by
  have hulp : (0 : Int) < 2 ^ (Nat.log2 x.natAbs - 23) := Int.pow_pos (by decide)
  have hq : 0 ≤ x / 2 ^ (Nat.log2 x.natAbs - 23) := Int.ediv_nonneg h (Int.le_of_lt hulp)
  have hdown := Int.mul_nonneg hq (Int.le_of_lt hulp)
  have hup := Int.mul_nonneg (Int.le_add_one hq) (Int.le_of_lt hulp)
  have hfloat : 0 ≤ floatOfInt x := by
    unfold floatOfInt
    dsimp only
    split
    · exact hdown
    · split
      · exact hup
      · split
        · exact hdown
        · exact hup
  unfold round
  omega

/-! ## Strings -/

/-- A Java string, as its UTF-16 code units. -/
abbrev JString := List Nat

/-- The code unit of a character of the basic plane. -/
abbrev jc (c : Char) : Nat := c.toNat

/-- A string literal of the basic plane, from its characters. -/
def js (cs : List Char) : JString := cs.map jc

/-- A list whose elements all have a value. -/
theorem mapM_eq_some {α β : Type} {f : α → Option β} {g : α → β} {l : List α}
    (h : ∀ a ∈ l, f a = some (g a)) : l.mapM f = some (l.map g) := by
  induction l with
  | nil => rfl
  | cons a l ih =>
    rw [List.mapM_cons, h a List.mem_cons_self, ih fun b hb => h b (List.mem_cons_of_mem a hb)]
    rfl

namespace JString

/-! ## ASCII classes -/

def isUpper (c : Nat) : Bool := 65 ≤ c && c ≤ 90

def isLower (c : Nat) : Bool := 97 ≤ c && c ≤ 122

/-- `\d` without the Unicode flag: the ten ASCII digits. -/
def isAsciiDigit (c : Nat) : Bool := 48 ≤ c && c ≤ 57

/-- `\s` without the Unicode flag: blank, tab, newline, vertical tab, form feed
and carriage return. -/
def isSpace (c : Nat) : Bool := c == 32 || (9 ≤ c && c ≤ 13)

/-- `\p{Punct}` without the Unicode flag: the ASCII punctuation. -/
def isPunct (c : Nat) : Bool :=
  (33 ≤ c && c ≤ 47) || (58 ≤ c && c ≤ 64) || (91 ≤ c && c ≤ 96) || (123 ≤ c && c ≤ 126)

theorem isUpper_iff {c : Nat} : isUpper c = true ↔ 65 ≤ c ∧ c ≤ 90 := by
  simp [isUpper]

theorem isLower_iff {c : Nat} : isLower c = true ↔ 97 ≤ c ∧ c ≤ 122 := by
  simp [isLower]

theorem isAsciiDigit_iff {c : Nat} : isAsciiDigit c = true ↔ 48 ≤ c ∧ c ≤ 57 := by
  simp [isAsciiDigit]

theorem isSpace_iff {c : Nat} : isSpace c = true ↔ c = 32 ∨ (9 ≤ c ∧ c ≤ 13) := by
  simp [isSpace]

theorem isPunct_iff {c : Nat} : isPunct c = true ↔
    (33 ≤ c ∧ c ≤ 47) ∨ (58 ≤ c ∧ c ≤ 64) ∨ (91 ≤ c ∧ c ≤ 96) ∨ (123 ≤ c ∧ c ≤ 126) := by
  simp [isPunct, or_assoc]

/-! ## Editing -/

/-- `replace(a, b)` on characters. -/
def replaceChar (a b : Nat) (s : JString) : JString :=
  s.map fun c => if c = a then b else c

/-- `replaceAll(c+, c)`: every run of `c` becomes one `c`. -/
def squeeze (c : Nat) : JString → JString
  | [] => []
  | [a] => [a]
  | a :: b :: rest => if a = c ∧ b = c then squeeze c (b :: rest) else a :: squeeze c (b :: rest)

/-- `trim`: drop the units up to the blank from both ends. -/
def trim (s : JString) : JString :=
  ((s.dropWhile (· ≤ 32)).reverse.dropWhile (· ≤ 32)).reverse

/-- `reverse.dropWhile(_ == c).reverse`. -/
def stripTrailing (c : Nat) (s : JString) : JString :=
  (s.reverse.dropWhile (· == c)).reverse

theorem mem_of_mem_dropEnd {p : Nat → Bool} {a : Nat} {s : JString}
    (h : a ∈ (s.reverse.dropWhile p).reverse) : a ∈ s := by
  have hmem := (List.dropWhile_sublist p).subset (List.mem_reverse.mp h)
  exact List.mem_reverse.mp hmem

theorem dropWhile_of_none {p : Nat → Bool} {s : JString} (h : ∀ c ∈ s, p c = false) :
    s.dropWhile p = s := by
  cases s with
  | nil => rfl
  | cons a rest => rw [List.dropWhile_cons_of_neg (by simp [h a List.mem_cons_self])]

theorem dropEnd_of_none {p : Nat → Bool} {s : JString} (h : ∀ c ∈ s, p c = false) :
    (s.reverse.dropWhile p).reverse = s := by
  rw [dropWhile_of_none fun c hc => h c (List.mem_reverse.mp hc), List.reverse_reverse]

theorem stripTrailing_of_not_mem {c : Nat} {s : JString} (h : c ∉ s) : stripTrailing c s = s :=
  dropEnd_of_none fun _ ha => beq_eq_false_iff_ne.mpr fun heq => h (heq ▸ ha)

/-- Only capitals are changed when ASCII is lower-cased. -/
theorem map_lower_of_no_upper {s : JString} (h : ∀ c ∈ s, isUpper c = false) :
    (s.map fun c => if isUpper c then c + 32 else c) = s := by
  refine (List.map_congr_left fun c hc => ?_).trans (List.map_id s)
  rw [h c hc]
  rfl

/-- Nothing to replace. -/
theorem replaceChar_of_not_mem {a b : Nat} {s : JString} (h : a ∉ s) : replaceChar a b s = s := by
  refine (List.map_congr_left fun c hc => ?_).trans (List.map_id s)
  exact if_neg fun heq : c = a => h (heq ▸ hc)

/-- After a replacement the old character is gone. -/
theorem not_mem_replaceChar {a b : Nat} (hab : b ≠ a) (s : JString) :
    a ∉ replaceChar a b s := by
  intro h
  obtain ⟨c, -, hc⟩ := List.mem_map.mp h
  by_cases hca : c = a
  · rw [if_pos hca] at hc
    exact hab hc
  · rw [if_neg hca] at hc
    exact hca hc

/-- A replacement brings in one new character only. -/
theorem mem_replaceChar_of_ne {a b c : Nat} {s : JString} (hcb : c ≠ b)
    (h : c ∈ replaceChar a b s) : c ∈ s := by
  obtain ⟨x, hx, hxc⟩ := List.mem_map.mp h
  by_cases hxa : x = a
  · rw [if_pos hxa] at hxc
    exact absurd hxc.symm hcb
  · rw [if_neg hxa] at hxc
    rwa [← hxc]

end JString

/-! ## What comes from the Unicode tables -/

/-- The Unicode tables behind `String.toLowerCase` and `Character.digit(_, 10)`,
with what is documented about them on ASCII. -/
structure Unicode where
  toLowerCase : JString → JString
  /-- The decimal value of a unit, if it is a digit. -/
  digit : Nat → Option Nat
  digit_ascii : ∀ d < 10, digit (48 + d) = some d
  digit_lt : ∀ c d, digit c = some d → d < 10
  digit_none : ∀ c < 128, JString.isAsciiDigit c = false → digit c = none
  lower_ascii : ∀ s : JString, (∀ c ∈ s, c < 128) →
    toLowerCase s = s.map fun c => if JString.isUpper c then c + 32 else c
  lower_new : ∀ (s : JString) (c : Nat), c < 128 → c ∈ toLowerCase s →
    c ∈ s ∨ JString.isLower c = true

namespace Unicode

/-- The tables restricted to ASCII. -/
def ascii : Unicode where
  toLowerCase s := s.map fun c => if JString.isUpper c then c + 32 else c
  digit c := if JString.isAsciiDigit c then some (c - 48) else none
  digit_ascii d hd := by
    have h : JString.isAsciiDigit (48 + d) = true :=
      JString.isAsciiDigit_iff.mpr (by omega)
    rw [if_pos h, Nat.add_sub_cancel_left]
  digit_lt c d h := by
    by_cases hc : JString.isAsciiDigit c = true
    · rw [if_pos hc] at h
      have hrange := JString.isAsciiDigit_iff.mp hc
      cases h
      omega
    · rw [if_neg hc] at h
      cases h
  digit_none c _ h := by rw [if_neg (by simp [h])]
  lower_ascii _ _ := rfl
  lower_new s c _ h := by
    obtain ⟨x, hx, rfl⟩ := List.mem_map.mp h
    by_cases hu : JString.isUpper x = true
    · refine Or.inr ?_
      have hrange := JString.isUpper_iff.mp hu
      rw [if_pos hu]
      exact JString.isLower_iff.mpr (by omega)
    · rw [if_neg hu]
      exact Or.inl hx

variable (U : Unicode)

/-- Lower-casing leaves no ASCII capital, as documented. -/
def NoCapitals : Prop := ∀ (s : JString) (c : Nat), JString.isUpper c = true → c ∉ U.toLowerCase s

theorem noCapitals_ascii : ascii.NoCapitals := by
  intro s c hc h
  obtain ⟨x, -, rfl⟩ := List.mem_map.mp h
  have hrange := JString.isUpper_iff.mp hc
  by_cases hx : JString.isUpper x = true
  · rw [if_pos hx] at hrange
    have := JString.isUpper_iff.mp hx
    omega
  · rw [if_neg hx] at hc
    exact hx hc

/-- `Character.isDigit`. -/
def isDigit (c : Nat) : Bool := (U.digit c).isSome

end Unicode

/-! ## Numbers as text -/

namespace JString

/-- `toString` of a natural number. -/
def toDecimal (n : Nat) : JString :=
  if n = 0 then [48] else (Nat.digits 10 n).reverse.map (48 + ·)

/-- `toString` of an integer. -/
def ofInt (i : Int) : JString :=
  if i < 0 then jc '-' :: toDecimal i.natAbs else toDecimal i.natAbs

/-- `"%02d".format(i)`. -/
def format02 (i : Int) : JString :=
  if 0 ≤ i ∧ i < 10 then jc '0' :: ofInt i else ofInt i

/-- The value of a non-empty string of decimal digits. -/
def parseDigits (U : Unicode) (s : JString) : Option Nat :=
  if s = [] then none else (s.mapM U.digit).map fun ds => Nat.ofDigits 10 ds.reverse

/-- `parseInt` (`bits = 32`) and `parseLong` (`bits = 64`): an optional sign, then
digits, with a value in range. -/
def parseSigned (U : Unicode) (bits : Nat) (s : JString) : Option Int :=
  let signed : Option Int := match s with
    | [] => none
    | c :: body =>
      if c = jc '-' then (parseDigits U body).map fun n : Nat => -(n : Int)
      else if c = jc '+' then (parseDigits U body).map fun n : Nat => (n : Int)
      else (parseDigits U (c :: body)).map fun n : Nat => (n : Int)
  signed.filter fun v => -2 ^ (bits - 1) ≤ v && v < 2 ^ (bits - 1)

/-- `toInt`. -/
def toInt (U : Unicode) (s : JString) : Option Int := parseSigned U 32 s

/-- `toLong`. -/
def toLong (U : Unicode) (s : JString) : Option Int := parseSigned U 64 s

/-! ## Reading back what was printed -/

/-- The digits of a number, as they are printed. -/
theorem exists_digits (n : Nat) :
    ∃ ds : List Nat, ds ≠ [] ∧ (∀ d ∈ ds, d < 10) ∧ toDecimal n = ds.map (48 + ·) ∧
      Nat.ofDigits 10 ds.reverse = n := by
  unfold toDecimal
  by_cases hn : n = 0
  · refine ⟨[0], by decide, by decide, if_pos hn, ?_⟩
    rw [hn]
    rfl
  · refine ⟨(Nat.digits 10 n).reverse, ?_, fun d hd => ?_, if_neg hn, ?_⟩
    · rw [ne_eq, List.reverse_eq_nil_iff]
      exact Nat.digits_ne_nil_iff_ne_zero.mpr hn
    · exact Nat.digits_lt_base (by decide) (List.mem_reverse.mp hd)
    · rw [List.reverse_reverse, Nat.ofDigits_digits]

/-- Every number has a digit, zero included. -/
theorem toDecimal_ne_nil (n : Nat) : toDecimal n ≠ [] := by
  obtain ⟨ds, hne, -, htext, -⟩ := exists_digits n
  rw [htext]
  simpa using hne

/-- A number is printed in ASCII digits. -/
theorem isAsciiDigit_of_mem_toDecimal {n c : Nat} (h : c ∈ toDecimal n) :
    isAsciiDigit c = true := by
  obtain ⟨ds, -, hlt, htext, -⟩ := exists_digits n
  rw [htext] at h
  obtain ⟨d, hd, rfl⟩ := List.mem_map.mp h
  have := hlt d hd
  exact isAsciiDigit_iff.mpr (by omega)

/-- A dash cannot be mistaken for part of a number, which lets a text be cut at its last dash. -/
theorem dash_not_mem_toDecimal (n : Nat) : jc '-' ∉ toDecimal n := fun h =>
  absurd (isAsciiDigit_of_mem_toDecimal h) (by decide)

/-- Every platform reads the ASCII digits as what they are. -/
theorem mapM_digit (U : Unicode) {ds : List Nat} (h : ∀ d ∈ ds, d < 10) :
    (ds.map (48 + ·)).mapM U.digit = some ds := by
  induction ds with
  | nil => rfl
  | cons d ds ih =>
    have hd := U.digit_ascii d (h d List.mem_cons_self)
    have hrest := ih fun d' hd' => h d' (List.mem_cons_of_mem d hd')
    rw [List.map_cons, List.mapM_cons, hd, hrest]
    rfl

/-- Parsing reads the digits from the front, `Nat.ofDigits` from the back. -/
theorem parseDigits_of_digits (U : Unicode) {ds : List Nat} (hne : ds ≠ [])
    (hlt : ∀ d ∈ ds, d < 10) :
    parseDigits U (ds.map (48 + ·)) = some (Nat.ofDigits 10 ds.reverse) := by
  unfold parseDigits
  rw [if_neg (by simpa using hne), mapM_digit U hlt, Option.map_some]

/-- Different numbers are written differently. -/
theorem toDecimal_injective : Function.Injective toDecimal := by
  intro m n h
  obtain ⟨ds, hne, hlt, htext, hvalue⟩ := exists_digits m
  obtain ⟨ds', hne', hlt', htext', hvalue'⟩ := exists_digits n
  have hm := parseDigits_of_digits Unicode.ascii hne hlt
  rw [← htext, h, htext', parseDigits_of_digits Unicode.ascii hne' hlt', hvalue, hvalue'] at hm
  exact (Option.some.inj hm).symm

/-- Digits are read as their number when it is in range. -/
theorem parseSigned_of_digits (U : Unicode) {bits : Nat} {ds : List Nat} (hne : ds ≠ [])
    (hlt : ∀ d ∈ ds, d < 10)
    (hrange : ((Nat.ofDigits 10 ds.reverse : Nat) : Int) < 2 ^ (bits - 1)) :
    parseSigned U bits (ds.map (48 + ·)) = some ((Nat.ofDigits 10 ds.reverse : Nat) : Int) := by
  have hparse := parseDigits_of_digits U hne hlt
  obtain ⟨d, rest, rfl⟩ := List.exists_cons_of_ne_nil hne
  have hd := hlt d List.mem_cons_self
  -- a digit is no sign, so the whole text is read as digits
  have hdash : 48 + d ≠ jc '-' := by
    show 48 + d ≠ 45
    omega
  have hplus : 48 + d ≠ jc '+' := by
    show 48 + d ≠ 43
    omega
  rw [List.map_cons] at hparse ⊢
  unfold parseSigned
  simp only [if_neg hdash, if_neg hplus, hparse, Option.map_some]
  refine Option.filter_eq_some_iff.mpr ⟨rfl, ?_⟩
  have hlo : -2 ^ (bits - 1) ≤ ((Nat.ofDigits 10 (d :: rest).reverse : Nat) : Int) :=
    le_trans (Int.neg_nonpos_of_nonneg (Int.pow_nonneg (by decide))) (Int.natCast_nonneg _)
  rw [Bool.and_eq_true, decide_eq_true_iff, decide_eq_true_iff]
  exact ⟨hlo, hrange⟩

/-- The digits of an integer that is not negative. -/
theorem exists_digits_ofInt {i : Int} (h : 0 ≤ i) :
    ∃ ds : List Nat, ds ≠ [] ∧ (∀ d ∈ ds, d < 10) ∧ ofInt i = ds.map (48 + ·) ∧
      ((Nat.ofDigits 10 ds.reverse : Nat) : Int) = i := by
  obtain ⟨ds, hne, hlt, htext, hvalue⟩ := exists_digits i.natAbs
  refine ⟨ds, hne, hlt, (if_neg (by omega)).trans htext, ?_⟩
  rw [hvalue]
  exact Int.natAbs_of_nonneg h

/-- A number that is not negative is read back from its text. -/
theorem parseSigned_ofInt (U : Unicode) {bits : Nat} {i : Int} (hlo : 0 ≤ i)
    (hhi : i < 2 ^ (bits - 1)) : parseSigned U bits (ofInt i) = some i := by
  obtain ⟨ds, hne, hlt, htext, hvalue⟩ := exists_digits_ofInt hlo
  rw [htext, parseSigned_of_digits U hne hlt (hvalue ▸ hhi), hvalue]

/-- The same for `Int`, where fewer numbers fit. -/
theorem toInt_ofInt (U : Unicode) {i : Int} (hlo : 0 ≤ i) (hhi : i < 2 ^ 31) :
    toInt U (ofInt i) = some i :=
  parseSigned_ofInt U hlo hhi

/-- A leading zero does not change the number. -/
theorem toInt_format02 (U : Unicode) {i : Int} (hlo : 0 ≤ i) (hhi : i < 2 ^ 31) :
    toInt U (format02 i) = some i := by
  unfold format02
  split
  · obtain ⟨ds, -, hlt, htext, hvalue⟩ := exists_digits_ofInt hlo
    -- a single digit is padded: the text reads as the digits with a zero in front
    have hpadded : jc '0' :: ofInt i = (0 :: ds).map (48 + ·) := by
      rw [htext]
      rfl
    have hsame : Nat.ofDigits 10 (0 :: ds).reverse = Nat.ofDigits 10 ds.reverse := by
      rw [List.reverse_cons, Nat.ofDigits_append]
      simp
    have hlt' : ∀ d ∈ 0 :: ds, d < 10 := by
      intro d hd
      rcases List.mem_cons.mp hd with rfl | hd
      · decide
      · exact hlt d hd
    rw [hpadded]
    refine (parseSigned_of_digits U (List.cons_ne_nil 0 ds) hlt' ?_).trans ?_
    · rw [hsame, hvalue]
      exact hhi
    · rw [hsame, hvalue]
  · exact toInt_ofInt U hlo hhi

/-! ## Texts that are no numbers -/

/-- What follows the last `c` of a string is determined by the string. -/
theorem tail_unique {c : Nat} {s s' t t' : JString} (ht : c ∉ t) (ht' : c ∉ t')
    (h : s ++ c :: t = s' ++ c :: t') : t = t' := by
  -- the tail is read off from the end, up to the first `c` there
  have hcut : ∀ {s t : JString}, c ∉ t →
      ((s ++ c :: t).reverse.takeWhile (· != c)).reverse = t := by
    intro s t ht
    have hall : ∀ a ∈ t.reverse, (a != c) = true := fun a ha =>
      bne_iff_ne.mpr fun hac => ht (hac ▸ List.mem_reverse.mp ha)
    rw [List.reverse_append, List.reverse_cons, List.append_assoc,
      List.takeWhile_append_of_pos hall]
    simp
  rw [← hcut ht, h, hcut ht']

end JString

end Maiden
