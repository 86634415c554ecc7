import Mathlib.Algebra.Group.Nat.Even
import Mathlib.Algebra.Ring.Nat
import Mathlib.Tactic.Common

/-!
# Bytes

Three ways to write things down in bytes, each with its way back:

- hexadecimal texts, two digits a byte (`decode_encode`); texts are lists of code units;
- numbers of a fixed width, the highest byte first (`ofBytes_toBytes`);
- line strings in well-known binary (WKB) with big-endian numbers: a byte for the byte order,
  the type, the number of points, and two 64-bit ordinates a point (`readLine_writeLine`).
-/

namespace Maiden.Bytes

/-! ## Hexadecimal texts -/

/-- The value of a hexadecimal digit. -/
def hexValue (c : Nat) : Option Nat :=
  if 48 ≤ c ∧ c ≤ 57 then some (c - 48)
  else if 65 ≤ c ∧ c ≤ 70 then some (c - 55)
  else if 97 ≤ c ∧ c ≤ 102 then some (c - 87)
  else none

/-- The digits `0` to `9` and `A` to `F`. -/
def upperDigit (d : Nat) : Nat := if d < 10 then 48 + d else 55 + d

/-- The digits `0` to `9` and `a` to `f`. -/
def lowerDigit (d : Nat) : Nat := if d < 10 then 48 + d else 87 + d

/-- Two digits a byte, in the given digits. -/
def encode (digit : Nat → Nat) (bs : List UInt8) : List Nat :=
  bs.flatMap fun b => [digit (b.toNat / 16), digit (b.toNat % 16)]

/-- A byte for every two values; a last single one is a byte too. -/
def pairUp : List Nat → List UInt8
  | a :: b :: rest => UInt8.ofNat (16 * a + b) :: pairUp rest
  | [a] => [UInt8.ofNat a]
  | [] => []

/-- The bytes of the hexadecimal digits of a text, whatever stands between them. -/
def decode (text : List Nat) : List UInt8 := pairUp (text.filterMap hexValue)

theorem hexValue_upperDigit : ∀ d < 16, hexValue (upperDigit d) = some d := by decide

theorem hexValue_lowerDigit : ∀ d < 16, hexValue (lowerDigit d) = some d := by decide

/-- The small digit of a digit's value is the digit itself, as a small letter. -/
theorem lowerDigit_of_hexValue {c d : Nat} (h : hexValue c = some d) :
    d < 16 ∧ lowerDigit d = if 65 ≤ c ∧ c ≤ 90 then c + 32 else c := by
  unfold hexValue at h
  unfold lowerDigit
  split_ifs at h with hdecimal hcapital hsmall
  all_goals
    obtain rfl := Option.some.inj h
    refine ⟨by omega, ?_⟩
    split_ifs <;> omega

/-- Bytes are read back from their digits. -/
theorem decode_encode {digit : Nat → Nat} (h : ∀ d < 16, hexValue (digit d) = some d)
    (bs : List UInt8) : decode (encode digit bs) = bs := by
  induction bs with
  | nil => rfl
  | cons b bs ih =>
    have hb := b.toNat_lt
    have hhigh := h (b.toNat / 16) (by omega)
    have hlow := h (b.toNat % 16) (by omega)
    have hwhole : 16 * (b.toNat / 16) + b.toNat % 16 = b.toNat := by omega
    unfold decode encode at ih ⊢
    rw [List.flatMap_cons, List.filterMap_append, List.filterMap_cons_some hhigh,
      List.filterMap_cons_some hlow, List.filterMap_nil, List.cons_append, List.cons_append,
      List.nil_append, pairUp, hwhole, UInt8.ofNat_toNat, ih]

/-- What stands between the digits is not looked at. -/
theorem decode_intercalate {sep : List Nat} (hsep : ∀ c ∈ sep, hexValue c = none)
    (texts : List (List Nat)) : decode (sep.intercalate texts) = decode texts.flatten := by
  have hskip : sep.filterMap hexValue = [] := List.filterMap_eq_nil_iff.mpr hsep
  refine congrArg pairUp ?_
  induction texts with
  | nil => rfl
  | cons text texts ih =>
    cases texts with
    | nil => rw [List.intercalate_singleton, List.flatten_singleton]
    | cons next rest =>
      rw [List.intercalate_cons_cons, List.filterMap_append, List.filterMap_append, hskip, ih,
        List.append_nil, ← List.filterMap_append, ← List.flatten_cons]

/-- An even number of values, two a byte, are the values of the byte's digits. -/
theorem encode_pairUp (digit : Nat → Nat) {values : List Nat} (hsmall : ∀ v ∈ values, v < 16)
    (heven : Even values.length) : encode digit (pairUp values) = values.map digit := by
  induction values using pairUp.induct with
  | case1 a b rest ih =>
    have ha := hsmall a List.mem_cons_self
    have hb := hsmall b (List.mem_cons_of_mem a List.mem_cons_self)
    have hrest := ih (fun v hv => hsmall v (List.mem_cons_of_mem a (List.mem_cons_of_mem b hv)))
      (by simpa [Nat.even_add_one] using heven)
    have hbyte : (UInt8.ofNat (16 * a + b)).toNat = 16 * a + b :=
      UInt8.toNat_ofNat_of_lt' (by show 16 * a + b < 256; omega)
    have hhigh : (16 * a + b) / 16 = a := by omega
    have hlow : (16 * a + b) % 16 = b := by omega
    unfold encode at hrest ⊢
    rw [pairUp, List.flatMap_cons, hbyte, hhigh, hlow, hrest]
    rfl
  | case2 a => simp at heven
  | case3 => rfl

/-- The digits that a text contains, in small letters. -/
def lowerDigits (text : List Nat) : List Nat :=
  (text.filter fun c => (hexValue c).isSome).map fun c => if 65 ≤ c ∧ c ≤ 90 then c + 32 else c

/-- Decoding a text and writing the digits again gives the same digits in lower case. -/
theorem map_lowerDigit (text : List Nat) :
    (text.filterMap hexValue).map lowerDigit = lowerDigits text := by
  induction text with
  | nil => rfl
  | cons c text ih =>
    unfold lowerDigits at ih ⊢
    cases hc : hexValue c with
    | none => rw [List.filterMap_cons_none hc, List.filter_cons_of_neg (by simp [hc]), ih]
    | some d =>
      rw [List.filterMap_cons_some hc, List.filter_cons_of_pos (by simp [hc]), List.map_cons,
        List.map_cons, ih, (lowerDigit_of_hexValue hc).2]

/-- An even number of digits is read and written back in small letters. -/
theorem encode_decode {text : List Nat}
    (heven : Even (text.countP fun c => (hexValue c).isSome)) :
    encode lowerDigit (decode text) = lowerDigits text := by
  have hsmall : ∀ v ∈ text.filterMap hexValue, v < 16 := by
    intro v hv
    obtain ⟨c, -, hc⟩ := List.mem_filterMap.mp hv
    exact (lowerDigit_of_hexValue hc).1
  rw [← map_lowerDigit]
  exact encode_pairUp lowerDigit hsmall (by rwa [List.length_filterMap_eq_countP])

theorem encode_ne_nil {digit : Nat → Nat} {bs : List UInt8} (h : bs ≠ []) :
    encode digit bs ≠ [] := by
  obtain ⟨b, rest, rfl⟩ := List.exists_cons_of_ne_nil h
  simp [encode]

/-! ## Numbers -/

/-- The number in the given width, highest byte first. -/
def toBytes : Nat → Nat → List UInt8
  | 0, _ => []
  | width + 1, n => toBytes width (n / 256) ++ [UInt8.ofNat n]

/-- The number that the bytes stand for. -/
def ofBytes (bs : List UInt8) : Nat := bs.foldl (fun n b => 256 * n + b.toNat) 0

@[simp] theorem length_toBytes (width n : Nat) : (toBytes width n).length = width := by
  induction width generalizing n with
  | zero => rfl
  | succ width ih => rw [toBytes, List.length_append, ih, List.length_singleton]

/-- A number that fits is read back. -/
theorem ofBytes_toBytes {width n : Nat} (h : n < 256 ^ width) : ofBytes (toBytes width n) = n := by
  induction width generalizing n with
  | zero =>
    rw [pow_zero, Nat.lt_one_iff] at h
    rw [h]
    rfl
  | succ width ih =>
    have hhigh : n / 256 < 256 ^ width := by
      rw [Nat.div_lt_iff_lt_mul (by decide), ← pow_succ]
      exact h
    have hlow : (UInt8.ofNat n).toNat = n % 256 := UInt8.toNat_ofNat'
    have happend : ofBytes (toBytes (width + 1) n) =
        256 * ofBytes (toBytes width (n / 256)) + (UInt8.ofNat n).toNat := by
      rw [toBytes, ofBytes, List.foldl_append]
      rfl
    rw [happend, ih hhigh, hlow]
    omega

/-! ## Line strings -/

/-- Big-endian, a line string. -/
def lineHeader : List UInt8 := 0 :: toBytes 4 2

def writePoint (p : UInt64 × UInt64) : List UInt8 :=
  toBytes 8 p.1.toNat ++ toBytes 8 p.2.toNat

def readPoint (bs : List UInt8) : UInt64 × UInt64 :=
  (UInt64.ofNat (ofBytes (bs.take 8)), UInt64.ofNat (ofBytes (bs.drop 8)))

/-- The line string, with the number of its points in four bytes. -/
def writeLine (points : List (UInt64 × UInt64)) : List UInt8 :=
  lineHeader ++ toBytes 4 points.length ++ points.flatMap writePoint

/-- So many points. -/
def readPoints : Nat → List UInt8 → List (UInt64 × UInt64)
  | 0, _ => []
  | n + 1, bs => readPoint (bs.take 16) :: readPoints n (bs.drop 16)

/-- The points of a line string: as many as there are bytes for behind the header. -/
def readLine (bs : List UInt8) : Option (List (UInt64 × UInt64)) :=
  if bs.take 5 = lineHeader then some (readPoints ((bs.length - 9) / 16) (bs.drop 9)) else none

@[simp] theorem length_writePoint (p : UInt64 × UInt64) : (writePoint p).length = 16 := by
  rw [writePoint, List.length_append, length_toBytes, length_toBytes]

/-- A point is read back as it was written, bit for bit. -/
theorem readPoint_writePoint (p : UInt64 × UInt64) : readPoint (writePoint p) = p := by
  have hread : ∀ x : UInt64, UInt64.ofNat (ofBytes (toBytes 8 x.toNat)) = x := fun x => by
    rw [ofBytes_toBytes x.toNat_lt, UInt64.ofNat_toNat]
  unfold readPoint writePoint
  rw [List.take_left' (length_toBytes ..), List.drop_left' (length_toBytes ..), hread, hread]

/-- And so are the points of a line, one behind the other. -/
theorem readPoints_writePoints (points : List (UInt64 × UInt64)) :
    readPoints points.length (points.flatMap writePoint) = points := by
  induction points with
  | nil => rfl
  | cons p points ih =>
    rw [List.flatMap_cons, List.length_cons, readPoints, List.take_left' (length_writePoint p),
      List.drop_left' (length_writePoint p), readPoint_writePoint, ih]

theorem length_writePoints (points : List (UInt64 × UInt64)) :
    (points.flatMap writePoint).length = 16 * points.length := by
  induction points with
  | nil => rfl
  | cons p points ih =>
    rw [List.flatMap_cons, List.length_append, length_writePoint, ih, List.length_cons]
    omega

/-- A line string is read back. -/
theorem readLine_writeLine (points : List (UInt64 × UInt64)) :
    readLine (writeLine points) = some points := by
  have hhead : (lineHeader ++ toBytes 4 points.length).length = 9 := by
    rw [List.length_append, length_toBytes]
    rfl
  have htake : (writeLine points).take 5 = lineHeader := by
    rw [writeLine, List.append_assoc]
    exact List.take_left' rfl
  unfold readLine
  rw [if_pos htake]
  unfold writeLine
  rw [List.drop_left' hhead, List.length_append, hhead, length_writePoints]
  have hcount : (9 + 16 * points.length - 9) / 16 = points.length := by omega
  rw [hcount, readPoints_writePoints]

theorem writeLine_ne_nil (points : List (UInt64 × UInt64)) : writeLine points ≠ [] := by
  simp [writeLine, lineHeader]

end Maiden.Bytes
