import Maiden.Base.Bytes
import Maiden.Base.Java
import Maiden.Common.Exceptions

/-!
# The geometry codec (`common/Geometry.scala`)

Positions and paths are stored as the hexadecimal text of a WKB line string. The encoder
takes lists of `[latitude, longitude]` and makes a coordinate of each, whose `x` is the
first of the two; the decoder finds the latitude in `y` and the longitude in `x`.

What comes from outside is a parameter: `Floats`, the conversions between the two kinds of
floating-point numbers by way of their decimal texts, and `Jts`, the WKB reader and writer.
`Jts.wkb` is the format itself, for ordinates that are given by their 64 bits.
-/

namespace Maiden

/-- A planar coordinate. -/
structure Coordinate (D : Type) where
  x : D
  y : D
deriving DecidableEq

/-- A decoded point: the map with the keys `latitude` and `longitude`. -/
structure LatLng (D : Type) where
  latitude : D
  longitude : D
deriving DecidableEq

/-- `Float` and `Double`, and how the code converts them into each other. -/
structure Floats (F D : Type) where
  /-- `toString.toDouble`. -/
  toDouble : F → D
  /-- `toString.toFloat`. -/
  toFloat : D → F
  /-- The text of a float identifies it. -/
  toFloat_toDouble : ∀ f, toFloat (toDouble f) = f

/-- WKB as JTS reads and writes it. -/
structure Jts (D : Type) where
  /-- `WKBWriter.write` of a line string. -/
  write : List (Coordinate D) → List UInt8
  /-- `WKBReader.read(_).getCoordinates`; `none` when it throws. -/
  read : List UInt8 → Option (List (Coordinate D))
  read_write : ∀ points, points.length ≠ 1 → read (write points) = some points
  write_ne_nil : ∀ points, write points ≠ []

/-- The format itself. -/
def Jts.wkb : Jts UInt64 where
  write points := Bytes.writeLine (points.map fun c => (c.x, c.y))
  read bytes := (Bytes.readLine bytes).map fun points => points.map fun p => ⟨p.1, p.2⟩
  read_write points _ := by
    rw [Bytes.readLine_writeLine, Option.map_some, List.map_map]
    exact congrArg some (List.map_id points)
  write_ne_nil _ := Bytes.writeLine_ne_nil _

namespace GeoCodec

variable {F D : Type} (floats : Floats F D) (jts : Jts D)

/-- `Geometry.scala:55–61`. -/
def hex2Bytes (hex : JString) : List UInt8 := Bytes.decode hex

/-- `WKBWriter.bytesToHex`. -/
def bytesToHex (bytes : List UInt8) : JString := Bytes.encode Bytes.upperDigit bytes

/-- `"%02x".format(b)`: `Formatter` adds `2^8` to a negative byte, and fills up with a zero. -/
def format02x (b : UInt8) : JString :=
  let signed := b.toInt8.toInt
  let value := (if signed < 0 then signed + 256 else signed).toNat
  if value < 16 then [jc '0', Bytes.lowerDigit value]
  else [Bytes.lowerDigit (value / 16), Bytes.lowerDigit (value % 16)]

/-- `Geometry.scala:63–68`. -/
def bytes2Hex (bytes : List UInt8) (sep : Option JString) : JString :=
  match sep with
  | none => (bytes.map format02x).flatten
  | some sep => sep.intercalate (bytes.map format02x)

/-- The sign is gone: the text is that of the byte's eight bits. -/
theorem format02x_eq (b : UInt8) :
    format02x b = [Bytes.lowerDigit (b.toNat / 16), Bytes.lowerDigit (b.toNat % 16)] := by
  have hb := b.toNat_lt
  have hsigned : b.toInt8.toInt = (b.toNat : Int).bmod 256 := BitVec.toInt_eq_toNat_bmod b.toBitVec
  have hvalue : (if b.toInt8.toInt < 0 then b.toInt8.toInt + 256 else b.toInt8.toInt).toNat =
      b.toNat := by
    rw [hsigned, Int.bmod_def]
    split_ifs <;> omega
  show (if _ < 16 then _ else _) = _
  rw [hvalue]
  by_cases hsmall : b.toNat < 16
  · rw [if_pos hsmall, Nat.div_eq_of_lt hsmall, Nat.mod_eq_of_lt hsmall]
    rfl
  · rw [if_neg hsmall]

theorem bytes2Hex_none (bytes : List UInt8) :
    bytes2Hex bytes none = Bytes.encode Bytes.lowerDigit bytes := by
  show (bytes.map format02x).flatten = _
  rw [List.map_congr_left fun b _ => format02x_eq b]
  rfl

theorem hex2Bytes_bytesToHex (bytes : List UInt8) : hex2Bytes (bytesToHex bytes) = bytes :=
  Bytes.decode_encode Bytes.hexValue_upperDigit bytes

/-- `Geometry.scala:105`. -/
def makePoint (lat lng : D) : Coordinate D := ⟨lat, lng⟩

/-- `GeometryFactory.createLineString`, which does not accept a single point. -/
def createLineString (points : List (Coordinate D)) : Except Failure (List (Coordinate D)) :=
  if points.length = 1 then .error .geometry else .ok points

/-- The coordinate of a pair, which may be too short. -/
def toPoint (c : List F) : Except Failure (Coordinate D) :=
  match c with
  | lat :: lng :: _ => .ok (makePoint (floats.toDouble lat) (floats.toDouble lng))
  | _ => .error .geometry

/-- `Geometry.scala:90–100`. -/
def latLngListToWKB (coords : List (List F)) : Except Failure JString := do
  let points ← mapE (toPoint floats) coords
  let route ← createLineString points
  .ok (bytesToHex (jts.write route))

/-- `Geometry.scala:103`. -/
def latLngToWKB (coords : List F) : Except Failure JString := latLngListToWKB floats jts [coords]

/-- The map for a coordinate. -/
def latLng (c : Coordinate D) : LatLng D := ⟨c.y, c.x⟩

/-- `Geometry.scala:70–74`. A geometry without points has no first coordinate. -/
def latLngFromWKB (wkb : JString) : Except Failure (LatLng D) :=
  match jts.read (hex2Bytes wkb) with
  | none => .error .geometry
  | some [] => .error .nullPointer
  | some (c :: _) => .ok (latLng c)

/-- `Geometry.scala:82–88`. -/
def latLngListFromWKB (wkb : JString) : Except Failure (List (LatLng D)) :=
  match jts.read (hex2Bytes wkb) with
  | none => .error .geometry
  | some points => .ok (points.map latLng)

end GeoCodec

end Maiden
