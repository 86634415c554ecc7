import Mathlib.Tactic.Common

/-!
# Characters in code units and in bytes

A Unicode text is a list of characters, the code points without the surrogates. In UTF-16 it
is a list of 16-bit units, kept as numbers, and in UTF-8 a list of bytes:

- `utf16`, `utf8`: a text in units and in bytes (the bytes of one character are core's);
- `chars`: the characters of a list of units, if it has no surrogate outside a pair. It is the
  inverse of `utf16` (`chars_eq_some_iff`);
- `encodeUtf8`: from units to bytes.

Only the ASCII characters take as many bytes as units (`length_utf8`), so that a decoder that
makes a unit of each byte reads nothing else back, whatever units it makes (`map_utf8_iff`).
-/

namespace Maiden.Utf

/-! ## UTF-16 -/

/-- One unit for a character of the basic plane, a pair of surrogates for any other. -/
def utf16Char (c : Char) : List Nat :=
  if c.toNat < 0x10000 then [c.toNat]
  else [0xD800 + (c.toNat - 0x10000) / 0x400, 0xDC00 + (c.toNat - 0x10000) % 0x400]

def utf16 (cs : List Char) : List Nat := cs.flatMap utf16Char

/-- The unit is a character by itself. -/
def IsSingle (a : Nat) : Prop := a < 0xD800 ∨ (0xDFFF < a ∧ a < 0x10000)

/-- The units are the two surrogates of a pair, in order. -/
def IsPair (a b : Nat) : Prop := (0xD800 ≤ a ∧ a < 0xDC00) ∧ (0xDC00 ≤ b ∧ b < 0xE000)

instance (a : Nat) : Decidable (IsSingle a) := inferInstanceAs (Decidable (_ ∨ _))

instance (a b : Nat) : Decidable (IsPair a b) := inferInstanceAs (Decidable (_ ∧ _))

/-- The code point of a pair. -/
def pairCode (a b : Nat) : Nat := 0x10000 + (a - 0xD800) * 0x400 + (b - 0xDC00)

/-- The characters of a list of units; none if a surrogate is not in a pair. -/
def chars : List Nat → Option (List Char)
  | [] => some []
  | [a] => if IsSingle a then some [Char.ofNat a] else none
  | a :: b :: s =>
    if IsSingle a then (chars (b :: s)).map (Char.ofNat a :: ·)
    else if IsPair a b then (chars s).map (Char.ofNat (pairCode a b) :: ·)
    else none

theorem toNat_ofNat {n : Nat} (h : n.isValidChar) : (Char.ofNat n).toNat = n := by
  rw [Char.ofNat, dif_pos h]
  rfl

theorem utf16Char_of_single {a : Nat} (h : IsSingle a) : utf16Char (Char.ofNat a) = [a] := by
  have hvalid : a.isValidChar := h.imp_right fun h => ⟨h.1, by omega⟩
  have hlt : a < 0x10000 := h.elim (fun h => by omega) And.right
  rw [utf16Char, toNat_ofNat hvalid, if_pos hlt]

theorem utf16Char_of_pair {a b : Nat} (h : IsPair a b) :
    utf16Char (Char.ofNat (pairCode a b)) = [a, b] := by
  obtain ⟨⟨alo, ahi⟩, blo, bhi⟩ := h
  have hcode : pairCode a b = 0x10000 + (a - 0xD800) * 0x400 + (b - 0xDC00) := rfl
  have hvalid : (pairCode a b).isValidChar := Or.inr (by omega)
  have hfirst : 0xD800 + (pairCode a b - 0x10000) / 0x400 = a := by omega
  have hsecond : 0xDC00 + (pairCode a b - 0x10000) % 0x400 = b := by omega
  rw [utf16Char, toNat_ofNat hvalid, if_neg (by omega), hfirst, hsecond]

/-- A character is one unit or a pair, and can be told by them. -/
theorem utf16Char_cases (c : Char) :
    (∃ a, IsSingle a ∧ utf16Char c = [a] ∧ Char.ofNat a = c) ∨
      ∃ a b, IsPair a b ∧ utf16Char c = [a, b] ∧ Char.ofNat (pairCode a b) = c := by
  have hvalid : c.toNat < 0xD800 ∨ (0xDFFF < c.toNat ∧ c.toNat < 0x110000) := c.valid
  unfold utf16Char
  by_cases hlt : c.toNat < 0x10000
  · rw [if_pos hlt]
    exact Or.inl ⟨c.toNat, hvalid.imp_right fun h => ⟨h.1, hlt⟩, rfl, Char.ofNat_toNat c⟩
  · rw [if_neg hlt]
    refine Or.inr ⟨_, _, ⟨by omega, by omega⟩, rfl, ?_⟩
    have hcode : pairCode (0xD800 + (c.toNat - 0x10000) / 0x400)
        (0xDC00 + (c.toNat - 0x10000) % 0x400) = c.toNat := by
      unfold pairCode
      omega
    rw [hcode, Char.ofNat_toNat]

/-- The first unit of a pair cannot be read as a character of its own, so that reading is
unambiguous. -/
theorem not_single_of_pair {a b : Nat} (h : IsPair a b) : ¬IsSingle a := by
  obtain ⟨⟨alo, ahi⟩, -⟩ := h
  rintro (hlt | ⟨hgt, -⟩)
  · omega
  · omega

theorem chars_single {a : Nat} (h : IsSingle a) (s : List Nat) :
    chars (a :: s) = (chars s).map (Char.ofNat a :: ·) := by
  cases s with
  | nil => simp [chars, h]
  | cons b s => simp [chars, h]

theorem chars_pair {a b : Nat} (h : IsPair a b) (s : List Nat) :
    chars (a :: b :: s) = (chars s).map (Char.ofNat (pairCode a b) :: ·) := by
  rw [chars, if_neg (not_single_of_pair h), if_pos h]

/-- A text is read back from its units. -/
theorem chars_utf16 (cs : List Char) : chars (utf16 cs) = some cs := by
  induction cs with
  | nil => rfl
  | cons c cs ih =>
    show chars (utf16Char c ++ utf16 cs) = some (c :: cs)
    rcases utf16Char_cases c with ⟨a, ha, hunits, hc⟩ | ⟨a, b, hab, hunits, hc⟩
    · rw [hunits, List.singleton_append, chars_single ha, ih, hc]
      rfl
    · rw [hunits]
      show chars (a :: b :: utf16 cs) = some (c :: cs)
      rw [chars_pair hab, ih, hc]
      rfl

/-- **UTF-16.** Units are the text that they are read as: what can be read at all is read in one
way. -/
theorem chars_eq_some_iff {s : List Nat} {cs : List Char} :
    chars s = some cs ↔ s = utf16 cs := by
  refine ⟨fun h => ?_, fun h => h ▸ chars_utf16 cs⟩
  induction s using chars.induct generalizing cs with
  | case1 =>
    obtain rfl := Option.some.inj h
    rfl
  | case2 a ha =>
    rw [chars, if_pos ha] at h
    obtain rfl := Option.some.inj h
    show [a] = utf16Char (Char.ofNat a) ++ []
    rw [utf16Char_of_single ha, List.append_nil]
  | case3 a ha =>
    rw [chars, if_neg ha] at h
    cases h
  | case4 a b s ha ih =>
    rw [chars, if_pos ha] at h
    obtain ⟨cs', hcs', rfl⟩ := Option.map_eq_some_iff.mp h
    show a :: b :: s = utf16Char (Char.ofNat a) ++ utf16 cs'
    rw [utf16Char_of_single ha, ← ih hcs', List.singleton_append]
  -- a surrogate pair, taken together
  | case5 a b s ha hab ih =>
    rw [chars_pair hab] at h
    obtain ⟨cs', hcs', rfl⟩ := Option.map_eq_some_iff.mp h
    show a :: b :: s = utf16Char (Char.ofNat (pairCode a b)) ++ utf16 cs'
    rw [utf16Char_of_pair hab, ← ih hcs']
    rfl
  | case6 a b s ha hab =>
    rw [chars, if_neg ha, if_neg hab] at h
    cases h

/-! ## UTF-8 -/

def utf8 (cs : List Char) : List UInt8 := cs.flatMap String.utf8EncodeChar

/-- From units to bytes; there are none for a surrogate outside a pair. -/
def encodeUtf8 (s : List Nat) : Option (List UInt8) := (chars s).map utf8

/-- Texts with an encoding are those without lone surrogates. -/
theorem encodeUtf8_eq_some_iff {s : List Nat} {bs : List UInt8} :
    encodeUtf8 s = some bs ↔ ∃ cs, s = utf16 cs ∧ utf8 cs = bs := by
  rw [encodeUtf8, Option.map_eq_some_iff]
  simp only [chars_eq_some_iff]

/-! ## ASCII -/

/-- The characters below 128. -/
def IsAscii (c : Char) : Prop := c.toNat < 128

theorem utf16Char_of_ascii {c : Char} (h : IsAscii c) : utf16Char c = [c.toNat] :=
  if_pos (Nat.lt_trans h (by decide))

theorem utf8EncodeChar_of_ascii {c : Char} (h : IsAscii c) :
    String.utf8EncodeChar c = [UInt8.ofNat c.toNat] :=
  if_pos (Nat.le_of_lt_succ h)

/-- Any other character takes more bytes than units. -/
theorem length_lt_of_not_ascii {c : Char} (h : ¬IsAscii c) :
    (utf16Char c).length < (String.utf8EncodeChar c).length := by
  have hone : ¬c.val.toNat ≤ 127 := fun hle => h (Nat.lt_succ_of_le hle)
  unfold utf16Char String.utf8EncodeChar
  simp only [if_neg hone]
  by_cases htwo : c.val.toNat ≤ 2047
  · rw [if_pos htwo, if_pos (show c.toNat < 0x10000 from Nat.lt_of_le_of_lt htwo (by decide))]
    show 1 < 2
    omega
  · rw [if_neg htwo]
    by_cases hthree : c.val.toNat ≤ 65535
    · rw [if_pos hthree, if_pos (show c.toNat < 0x10000 from Nat.lt_succ_of_le hthree)]
      show 1 < 3
      omega
    · have hbig : ¬c.toNat < 0x10000 := fun hlt => hthree (Nat.le_of_lt_succ hlt)
      rw [if_neg hthree, if_neg hbig]
      show 2 < 4
      omega

/-- A character has no more units in UTF-16 than bytes in UTF-8. -/
theorem length_le (c : Char) : (utf16Char c).length ≤ (String.utf8EncodeChar c).length := by
  by_cases h : IsAscii c
  · rw [utf16Char_of_ascii h, utf8EncodeChar_of_ascii h]
    exact Nat.le_refl 1
  · exact Nat.le_of_lt (length_lt_of_not_ascii h)

/-- A text takes as many bytes as units only if it is ASCII. -/
theorem length_utf8 (cs : List Char) :
    (utf16 cs).length ≤ (utf8 cs).length ∧
      ((utf8 cs).length = (utf16 cs).length → ∀ c ∈ cs, IsAscii c) := by
  induction cs with
  | nil => exact ⟨Nat.le_refl 0, fun _ c hc => nomatch hc⟩
  | cons c cs ih =>
    have hunits : (utf16 (c :: cs)).length = (utf16Char c).length + (utf16 cs).length :=
      List.length_append
    have hbytes : (utf8 (c :: cs)).length =
        (String.utf8EncodeChar c).length + (utf8 cs).length := List.length_append
    have hle := length_le c
    rw [hunits, hbytes]
    refine ⟨by omega, fun heq => List.forall_mem_cons.mpr ⟨?_, ih.2 (by omega)⟩⟩
    by_contra hc
    have hlt := length_lt_of_not_ascii hc
    omega

section

variable {unit : UInt8 → Nat}

/-- A decoder that is right on each ASCII byte is right on each ASCII text. -/
theorem map_utf8_of_ascii (hunit : ∀ b : UInt8, b.toNat < 128 → unit b = b.toNat)
    {cs : List Char} (h : ∀ c ∈ cs, IsAscii c) : (utf8 cs).map unit = utf16 cs := by
  induction cs with
  | nil => rfl
  | cons c cs ih =>
    obtain ⟨hc, hcs⟩ := List.forall_mem_cons.mp h
    have hbyte : (UInt8.ofNat c.toNat).toNat = c.toNat :=
      UInt8.toNat_ofNat_of_lt (Nat.lt_trans hc (by decide))
    show (String.utf8EncodeChar c ++ utf8 cs).map unit = utf16Char c ++ utf16 cs
    rw [utf8EncodeChar_of_ascii hc, utf16Char_of_ascii hc, List.map_append, ih hcs]
    show unit (UInt8.ofNat c.toNat) :: utf16 cs = c.toNat :: utf16 cs
    rw [hunit _ (by rw [hbyte]; exact hc), hbyte]

/-- **One unit a byte.** A decoder that makes one unit of each byte reads exactly the ASCII
texts, whatever it makes of the other bytes. -/
theorem map_utf8_iff (hunit : ∀ b : UInt8, b.toNat < 128 → unit b = b.toNat) (cs : List Char) :
    (utf8 cs).map unit = utf16 cs ↔ ∀ c ∈ cs, IsAscii c := by
  refine ⟨fun h => (length_utf8 cs).2 ?_, map_utf8_of_ascii hunit⟩
  rw [← h, List.length_map]

end

/-- A text is ASCII if its units are below 128. -/
theorem forall_utf16_lt_iff {cs : List Char} :
    (∀ a ∈ utf16 cs, a < 128) ↔ ∀ c ∈ cs, IsAscii c := by
  have hchar : ∀ c, (∀ a ∈ utf16Char c, a < 128) ↔ IsAscii c := by
    intro c
    by_cases hc : IsAscii c
    · rw [utf16Char_of_ascii hc, List.forall_mem_singleton]
      rfl
    · refine iff_of_false (fun h => ?_) hc
      rcases utf16Char_cases c with ⟨a, ha, hunits, rfl⟩ | ⟨a, b, hab, hunits, -⟩
      · have hlt := h a (hunits ▸ List.mem_cons_self)
        exact hc (by rwa [IsAscii, toNat_ofNat (Or.inl (by omega))])
      · have hlt := h a (hunits ▸ List.mem_cons_self)
        have := hab.1.1
        omega
  show (∀ a ∈ cs.flatMap utf16Char, a < 128) ↔ _
  rw [List.forall_mem_flatMap]
  exact forall₂_congr fun c _ => hchar c

end Maiden.Utf
