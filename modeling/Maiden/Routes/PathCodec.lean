import Maiden.Common.Geometry
import Maiden.Models.Trip
import Mathlib.Data.Int.Range

/-!
# Paths come back with their axes exchanged

A path that goes into `latLngListToWKB` should come out of `latLngListFromWKB`, each latitude
under `latitude`. The encoder puts the latitude into `x` and the decoder takes the longitude
from `x`, so that the two are exchanged in every point (`latLngListFromWKB_of_encoded`);
and a single point is not encoded at all, because a line string has none or two and more
points (`latLngToWKB_throws`), which are the positions of stops.

Two replies show a trip's path. `getFullDetails` shows the points as they are decoded;
`getTripRoute` lists longitude and latitude, which by the exchange is again the order of
the encoder's input (`geometry_of_encoded`). `roundTrip_iff` says for which paths all is well.

The texts themselves are no part of the trouble: bytes are read back from their hexadecimal
digits whatever separates them, and an even number of digits is written back in small letters
(`hex2Bytes_bytes2Hex`).
-/

namespace Maiden

open GeoCodec

variable {F D : Type} {floats : Floats F D} {jts : Jts D}

/-! ## Hexadecimal texts -/

/-- A separator that contains no digit is skipped by the reader. -/
theorem hex2Bytes_bytes2Hex_sep (bytes : List UInt8) {sep : Option JString}
    (hsep : ∀ s ∈ sep, ∀ c ∈ s, Bytes.hexValue c = none) :
    hex2Bytes (bytes2Hex bytes sep) = bytes := by
  have hplain : hex2Bytes (bytes2Hex bytes none) = bytes := by
    rw [bytes2Hex_none]
    exact Bytes.decode_encode Bytes.hexValue_lowerDigit bytes
  cases sep with
  | none => exact hplain
  | some s => exact (Bytes.decode_intercalate (hsep s rfl) _).trans hplain

/-- The two directions between bytes and texts: every byte array comes back, with any separator
that contains no digit or with none, and an even number of digits, whatever else the text
contains, comes back in small letters. -/
theorem hex2Bytes_bytes2Hex :
    (∀ (bytes : List UInt8) (sep : Option JString),
      (∀ s ∈ sep, ∀ c ∈ s, Bytes.hexValue c = none) → hex2Bytes (bytes2Hex bytes sep) = bytes) ∧
    ∀ h : JString, Even (h.countP fun c => (Bytes.hexValue c).isSome) →
      bytes2Hex (hex2Bytes h) none = Bytes.lowerDigits h :=
  ⟨fun bytes _ hsep => hex2Bytes_bytes2Hex_sep bytes hsep, fun h heven =>
    (bytes2Hex_none (hex2Bytes h)).trans (Bytes.encode_decode heven)⟩

/-- The bytes 0, 127 and -1 with colons, and a text of four digits in mixed case. -/
theorem hex2Bytes_bytes2Hex_colons :
    hex2Bytes (bytes2Hex [0, 127, 255] (some [jc ':'])) = [0, 127, 255] ∧
      bytes2Hex (hex2Bytes (js ['0', 'F', '-', 'x', 'a', '9'])) none = js ['0', 'f', 'a', '9'] :=
  ⟨hex2Bytes_bytes2Hex.1 _ _ (by decide), (hex2Bytes_bytes2Hex.2 _ (by decide)).trans (by decide)⟩

/-! ## What the API shows of a path -/

/-- The entry `tripGeom` of `getFullDetails` (`Trip.scala:264–270`). -/
def Trip.tripGeom (jts : Jts D) (trip : Trip) : Except Failure (List (LatLng D)) :=
  match trip.geom with
  | none => .ok []
  | some geom => if geom = [] then .ok [] else latLngListFromWKB jts geom

/-- The entry `geometry` of `getTripRoute` (`Trip.scala:435–440`). -/
def Trip.geometry (floats : Floats F D) (jts : Jts D) (trip : Trip) :
    Except Failure (List (List F)) :=
  match trip.geom with
  | none => .error .nullPointer
  | some geom => (latLngListFromWKB jts geom).map fun points =>
      points.map fun c => [floats.toFloat c.longitude, floats.toFloat c.latitude]

/-! ## What is encoded and decoded -/

/-- A path as the encoder takes it. -/
def asPairs (points : List (F × F)) : List (List F) := points.map fun p => [p.1, p.2]

/-- A path as the decoder should return it. -/
def asLatLng (floats : Floats F D) (points : List (F × F)) : List (LatLng D) :=
  points.map fun p => ⟨floats.toDouble p.1, floats.toDouble p.2⟩

/-- The coordinates that are written. -/
def coordinates (floats : Floats F D) (points : List (F × F)) : List (Coordinate D) :=
  points.map fun p => makePoint (floats.toDouble p.1) (floats.toDouble p.2)

section

variable {points : List (F × F)} {wkb : JString}

theorem mapE_toPoint (points : List (F × F)) :
    mapE (toPoint floats) (asPairs points) = .ok (coordinates floats points) := by
  induction points with
  | nil => rfl
  | cons p points ih =>
    unfold asPairs coordinates at ih ⊢
    rw [List.map_cons, List.map_cons, mapE, ih]
    rfl

/-- What is stored for a path. -/
theorem latLngListToWKB_eq_ok_iff :
    latLngListToWKB floats jts (asPairs points) = .ok wkb ↔
      points.length ≠ 1 ∧ wkb = bytesToHex (jts.write (coordinates floats points)) := by
  have hlength : (coordinates floats points).length = points.length := List.length_map ..
  unfold latLngListToWKB
  rw [mapE_toPoint]
  show (createLineString (coordinates floats points) >>= _) = _ ↔ _
  unfold createLineString
  rw [hlength]
  by_cases hone : points.length = 1
  · rw [if_pos hone]
    exact iff_of_false (fun h => nomatch h) fun h => h.1 hone
  · rw [if_neg hone]
    exact ⟨fun h => ⟨hone, (Except.ok.inj h).symm⟩, fun h => congrArg Except.ok h.2.symm⟩

/-- The position of a stop cannot be encoded. -/
theorem latLngToWKB_throws (lat lng : F) : latLngToWKB floats jts [lat, lng] = .error .geometry :=
  rfl

theorem read_of_encoded (h : latLngListToWKB floats jts (asPairs points) = .ok wkb) :
    jts.read (hex2Bytes wkb) = some (coordinates floats points) := by
  obtain ⟨hlength, rfl⟩ := latLngListToWKB_eq_ok_iff.mp h
  rw [hex2Bytes_bytesToHex]
  exact jts.read_write _ (by rwa [coordinates, List.length_map])

/-- **The axes are exchanged.** The encoder writes latitude before longitude and the decoder reads
the second ordinate as the latitude. -/
theorem latLngListFromWKB_of_encoded (h : latLngListToWKB floats jts (asPairs points) = .ok wkb) :
    latLngListFromWKB jts wkb = .ok (asLatLng floats (points.map Prod.swap)) := by
  unfold latLngListFromWKB
  rw [read_of_encoded h]
  show Except.ok ((coordinates floats points).map latLng) = _
  unfold coordinates asLatLng
  rw [List.map_map, List.map_map]
  rfl

theorem latLngFromWKB_of_encoded (h : latLngListToWKB floats jts (asPairs points) = .ok wkb)
    {p : F × F} (hp : points.head? = some p) :
    latLngFromWKB jts wkb = .ok ⟨floats.toDouble p.2, floats.toDouble p.1⟩ := by
  obtain ⟨rest, rfl⟩ := List.head?_eq_some_iff.mp hp
  unfold latLngFromWKB
  rw [read_of_encoded h]
  rfl

/-- What is stored is not the empty text. -/
theorem ne_nil_of_encoded (h : latLngListToWKB floats jts (asPairs points) = .ok wkb) :
    wkb ≠ [] := by
  obtain ⟨-, rfl⟩ := latLngListToWKB_eq_ok_iff.mp h
  exact Bytes.encode_ne_nil (jts.write_ne_nil _)

theorem tripGeom_of_encoded (h : latLngListToWKB floats jts (asPairs points) = .ok wkb)
    {trip : Trip} (hgeom : trip.geom = some wkb) :
    trip.tripGeom jts = latLngListFromWKB jts wkb := by
  unfold Trip.tripGeom
  rw [hgeom]
  exact if_neg (ne_nil_of_encoded h)

/-- `getTripRoute` shows what was encoded: there the exchange is undone. -/
theorem geometry_of_encoded (h : latLngListToWKB floats jts (asPairs points) = .ok wkb)
    {trip : Trip} (hgeom : trip.geom = some wkb) :
    trip.geometry floats jts = .ok (asPairs points) := by
  unfold Trip.geometry
  rw [hgeom]
  show (latLngListFromWKB jts wkb).map _ = _
  rw [latLngListFromWKB_of_encoded h]
  show Except.ok ((asLatLng floats _).map _) = _
  unfold asLatLng asPairs
  rw [List.map_map, List.map_map]
  refine congrArg Except.ok (List.map_congr_left fun p _ => ?_)
  show [floats.toFloat (floats.toDouble p.1), floats.toFloat (floats.toDouble p.2)] = [p.1, p.2]
  rw [floats.toFloat_toDouble, floats.toFloat_toDouble]

end

/-! ## Round trips -/

/-- The path is encoded as `wkb`, and everything that decodes it returns the path. -/
structure RoundTrip (floats : Floats F D) (jts : Jts D) (points : List (F × F)) (wkb : JString) :
    Prop where
  encoded : latLngListToWKB floats jts (asPairs points) = .ok wkb
  /-- A single position goes through the encoder for stops. -/
  stop : ∀ p, points = [p] → latLngToWKB floats jts [p.1, p.2] = .ok wkb
  list : latLngListFromWKB jts wkb = .ok (asLatLng floats points)
  first : ∀ p, points.head? = some p →
    latLngFromWKB jts wkb = .ok ⟨floats.toDouble p.1, floats.toDouble p.2⟩
  fullDetails : ∀ trip : Trip, trip.geom = some wkb →
    trip.tripGeom jts = .ok (asLatLng floats points)
  tripRoute : ∀ trip : Trip, trip.geom = some wkb →
    trip.geometry floats jts = .ok (points.map fun p => [p.2, p.1])

theorem toDouble_inj {f g : F} : floats.toDouble f = floats.toDouble g ↔ f = g := by
  refine ⟨fun h => ?_, congrArg _⟩
  rw [← floats.toFloat_toDouble f, h, floats.toFloat_toDouble]

/-- A path is what it becomes when its latitudes equal its longitudes. -/
theorem asLatLng_swap_iff {points : List (F × F)} :
    asLatLng floats (points.map Prod.swap) = asLatLng floats points ↔
      ∀ p ∈ points, p.1 = p.2 := by
  unfold asLatLng
  rw [List.map_map, List.map_inj_left]
  refine forall₂_congr fun p _ => ?_
  show (⟨floats.toDouble p.2, floats.toDouble p.1⟩ : LatLng D) = _ ↔ _
  rw [LatLng.mk.injEq, toDouble_inj, toDouble_inj]
  exact ⟨fun h => h.2, fun h => ⟨h.symm, h⟩⟩

/-- **When a path survives the codec**: exactly when it has two points or more and each
point's latitude is its longitude. -/
theorem roundTrip_iff (floats : Floats F D) (jts : Jts D) {points : List (F × F)}
    (hne : points ≠ []) :
    (∃ wkb, RoundTrip floats jts points wkb) ↔
      2 ≤ points.length ∧ ∀ p ∈ points, p.1 = p.2 := by
  have hpos := List.length_pos_iff.mpr hne
  constructor
  · rintro ⟨wkb, h⟩
    have hone := (latLngListToWKB_eq_ok_iff.mp h.encoded).1
    -- decoding returns the points with latitude and longitude exchanged
    have hlist := (latLngListFromWKB_of_encoded h.encoded).symm.trans h.list
    exact ⟨by omega, asLatLng_swap_iff.mp (Except.ok.inj hlist)⟩
  · rintro ⟨hlength, hequal⟩
    have hencoded : latLngListToWKB floats jts (asPairs points) =
        .ok (bytesToHex (jts.write (coordinates floats points))) :=
      latLngListToWKB_eq_ok_iff.mpr ⟨by omega, rfl⟩
    have hlist := latLngListFromWKB_of_encoded hencoded
    rw [asLatLng_swap_iff.mpr hequal] at hlist
    refine ⟨_, hencoded, ?_, hlist, fun p hp => ?_, fun trip hgeom => ?_, fun trip hgeom => ?_⟩
    · rintro p rfl
      rw [List.length_singleton] at hlength
      omega
    · rw [latLngFromWKB_of_encoded hencoded hp, hequal p (List.mem_of_mem_head? hp)]
    · rw [tripGeom_of_encoded hencoded hgeom, hlist]
    · rw [geometry_of_encoded hencoded hgeom]
      refine congrArg Except.ok (List.map_congr_left fun p hp => ?_)
      rw [hequal p hp]

/-! ## Whole degrees -/

/-- The bits of a whole number as a double. -/
def doubleBits (n : Int) : UInt64 :=
  if n = 0 then 0
  else
    let e := Nat.log2 n.natAbs
    UInt64.ofNat ((if n < 0 then 2 ^ 63 else 0) + (1022 + e) * 2 ^ 52 + n.natAbs * 2 ^ (52 - e))

/-- The whole part of a double. -/
def wholePart (bits : UInt64) : Int :=
  let b := bits.toNat
  if b % 2 ^ 63 = 0 then 0
  else
    let n : Nat := (2 ^ 52 + b % 2 ^ 52) * 2 ^ (b / 2 ^ 52 % 2048) / 2 ^ 1075
    if 2 ^ 63 ≤ b then -n else n

/-- The floats that are whole degrees. -/
@[ext]
structure Degrees where
  n : Int
  range : -180 ≤ n ∧ n ≤ 180
deriving DecidableEq

theorem wholePart_doubleBits : ∀ n : Int, -180 ≤ n → n ≤ 180 → wholePart (doubleBits n) = n := by
  decide +kernel

/-- Whole degrees keep their value as doubles. -/
def degrees : Floats Degrees UInt64 where
  toDouble f := doubleBits f.n
  toFloat d :=
    if h : -180 ≤ wholePart d ∧ wholePart d ≤ 180 then ⟨wholePart d, h⟩ else ⟨0, by decide⟩
  toFloat_toDouble f := by
    have hwhole := wholePart_doubleBits f.n f.range.1 f.range.2
    rw [dif_pos (hwhole.symm ▸ f.range)]
    exact Degrees.ext hwhole

/-- Along the diagonal nothing changes. -/
theorem roundTrip_diagonal :
    ∃ wkb, RoundTrip degrees Jts.wkb
      [(⟨1, by decide⟩, ⟨1, by decide⟩), (⟨2, by decide⟩, ⟨2, by decide⟩)] wkb :=
  (roundTrip_iff degrees Jts.wkb (by decide)).mpr ⟨by decide, by decide⟩

/-- Two points in California. -/
def californianPath : List (Degrees × Degrees) :=
  [(⟨37, by decide⟩, ⟨-122, by decide⟩), (⟨38, by decide⟩, ⟨-121, by decide⟩)]

/-- The path comes back with latitude -122 first, and the position of a stop is not encoded. -/
theorem californian_path_exchanged :
    (∃ wkb, latLngListToWKB degrees Jts.wkb (asPairs californianPath) = .ok wkb ∧
      latLngListFromWKB Jts.wkb wkb =
        .ok [⟨doubleBits (-122), doubleBits 37⟩, ⟨doubleBits (-121), doubleBits 38⟩]) ∧
    (∀ wkb, ¬ RoundTrip degrees Jts.wkb californianPath wkb) ∧
    latLngToWKB degrees Jts.wkb [⟨37, by decide⟩, ⟨-122, by decide⟩] = .error .geometry := by
  have hencoded : latLngListToWKB degrees Jts.wkb (asPairs californianPath) =
      .ok (bytesToHex (Jts.wkb.write (coordinates degrees californianPath))) :=
    latLngListToWKB_eq_ok_iff.mpr ⟨by decide, rfl⟩
  refine ⟨⟨_, hencoded, latLngListFromWKB_of_encoded hencoded⟩, fun wkb h => ?_,
    latLngToWKB_throws _ _⟩
  have hlist := (latLngListFromWKB_of_encoded h.encoded).symm.trans h.list
  exact absurd (asLatLng_swap_iff.mp (Except.ok.inj hlist)) (by decide)

end Maiden
