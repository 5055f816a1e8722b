import RealEstate.Systems.Binary

/-!
# Reading stored polygons (`common/geo.py`)

PostGIS returns service areas as EWKB. The reader keeps a running offset through polygons, each
in a byte order of its own, and their rings, of which it wants the first.

- `ringsFromEwkb`: the reader, with `none` where it would read past the end.
- `Ewkb`: a MultiPolygon with what its encoding is free to choose.
- `ringsFromEwkb_encode`: every encoding is read.
-/

namespace RealEstate

namespace Common

namespace Geo

open Systems

/-- A point, as WKB holds it. -/
abbrev LonLat := Double × Double

/-! ### The reader -/

/-- `_EWKB_SRID_FLAG`. -/
def ewkbSridFlag : Nat := 0x20000000

/-- `"<" if b == 1 else ">"`. -/
def orderOf (b : Fin 256) : ByteOrder := if b = 1 then .little else .big

/-- Two numbers at a time. -/
def pairs : List Double → List LonLat
  | lon :: lat :: points => (lon, lat) :: pairs points
  | _ => []

/-- The loop over the rings of a polygon, from the one with this index on. -/
def readRings (order : ByteOrder) (raw : Bytes) :
    Nat → Nat → Nat → List (List LonLat) → Option (List (List LonLat) × Nat)
  | 0, _, offset, rings => some (rings, offset)
  | n + 1, ringIndex, offset, rings => do
    let numPoints ← unpackFrom order 4 raw offset
    let offset := offset + 4
    let points ← unpackMany order 8 (numPoints * 2) raw offset
    let offset := offset + numPoints * 16
    readRings order raw n (ringIndex + 1) offset <|
      if ringIndex = 0 then rings ++ [pairs (points.map (BitVec.ofNat 64))] else rings

/-- The loop over the polygons. -/
def readPolygons (raw : Bytes) : Nat → Nat → List (List LonLat) → Option (List (List LonLat))
  | 0, _, rings => some rings
  | n + 1, offset, rings => do
    let order := orderOf (← raw[offset]?)
    let numRings ← unpackFrom order 4 raw (offset + 5)
    let (rings, offset) ← readRings order raw numRings 0 (offset + 9) rings
    readPolygons raw n offset rings

/-- `_rings_from_ewkb`. -/
def ringsFromEwkb (raw : Bytes) : Option (List (List LonLat)) := do
  let order := orderOf (← raw[0]?)
  let geomType ← unpackFrom order 4 raw 1
  let offset := if geomType &&& ewkbSridFlag ≠ 0 then 9 else 5
  let numPolygons ← unpackFrom order 4 raw offset
  readPolygons raw numPolygons (offset + 4) []

/-! ### Encodings -/

/-- A count fits in 32 bits. -/
def Fits (n : Nat) : Prop := n < 256 ^ 4

/-- A ring, in the encoding's limits. -/
structure LinearRing where
  points : List LonLat
  fits : Fits points.length

/-- A polygon with holes. -/
structure Polygon where
  outer : LinearRing
  holes : List LinearRing
  fits : Fits (holes.length + 1)

/-- A MultiPolygon, the byte order of each of its polygons, and an SRID if there is one. -/
structure Ewkb where
  order : ByteOrder
  srid : Option (BitVec 32)
  polygons : List (ByteOrder × Polygon)
  fits : Fits polygons.length

/-- The byte that names a byte order. -/
def marker : ByteOrder → Fin 256
  | .little => 1
  | .big => 0

/-- The coordinates of a ring, in their order. -/
def LinearRing.coordinates (ring : LinearRing) : List Nat :=
  ring.points.flatMap fun point => [point.1.toNat, point.2.toNat]

/-- A ring, in WKB. -/
def LinearRing.encode (order : ByteOrder) (ring : LinearRing) : Bytes :=
  pack order 4 ring.points.length ++ ring.coordinates.flatMap (pack order 8)

/-- A polygon, in WKB, with its own byte order. -/
def Polygon.encode (order : ByteOrder) (polygon : Polygon) : Bytes :=
  [marker order] ++ pack order 4 3 ++ pack order 4 (polygon.holes.length + 1) ++
    (polygon.outer :: polygon.holes).flatMap (LinearRing.encode order)

/-- The type of a MultiPolygon, with the SRID after it. -/
def encodeType (order : ByteOrder) : Option (BitVec 32) → Bytes
  | none => pack order 4 6
  | some srid => pack order 4 (6 + ewkbSridFlag) ++ pack order 4 srid.toNat

/-- A multipolygon, in EWKB, with or without an SRID. -/
def Ewkb.encode (e : Ewkb) : Bytes :=
  [marker e.order] ++ encodeType e.order e.srid ++ pack e.order 4 e.polygons.length ++
    e.polygons.flatMap fun polygon => polygon.2.encode polygon.1

/-- The polygons, without the choices of the encoding. -/
def Ewkb.value (e : Ewkb) : List Polygon := e.polygons.map Prod.snd

/-! ### Rings -/

theorem orderOf_marker (order : ByteOrder) : orderOf (marker order) = order := by
  cases order <;> rfl

section

variable {order : ByteOrder} {raw : Bytes} {offset : Nat} {rings : List (List LonLat)}

/-- Coordinates are read back in pairs. -/
theorem pairs_coordinates (points : List LonLat) :
    pairs ((points.flatMap fun point => [point.1.toNat, point.2.toNat]).map (BitVec.ofNat 64)) =
      points := by
  induction points with
  | nil => rfl
  | cons point points ih =>
    obtain ⟨lon, lat⟩ := point
    rw [List.flatMap_cons, List.map_append]
    simp only [List.map_cons, List.map_nil, BitVec.ofNat_toNat, BitVec.setWidth_eq,
      List.cons_append, List.nil_append, pairs, ih]

theorem length_coordinates (ring : LinearRing) :
    ring.coordinates.length = ring.points.length * 2 := by
  unfold LinearRing.coordinates
  induction ring.points with
  | nil => rfl
  | cons point points ih =>
    rw [List.flatMap_cons, List.length_append, ih, List.length_cons]
    simp only [List.length_cons, List.length_nil]
    omega

theorem lt_of_mem_coordinates {ring : LinearRing} :
    ∀ n ∈ ring.coordinates, n < 256 ^ 8 := by
  intro n hn
  obtain ⟨point, -, hpoint⟩ := List.mem_flatMap.1 hn
  rcases List.mem_cons.1 hpoint with rfl | hpoint
  · exact point.1.isLt
  · rw [List.mem_singleton.1 hpoint]
    exact point.2.isLt

theorem length_encode (ring : LinearRing) :
    (ring.encode order).length = 4 + ring.points.length * 16 := by
  have hcoordinates : ∀ ns : List Nat, (ns.flatMap (pack order 8)).length = 8 * ns.length := by
    intro ns
    induction ns with
    | nil => rfl
    | cons n ns ih =>
      rw [List.flatMap_cons, List.length_append, length_pack, ih, List.length_cons]
      omega
  rw [LinearRing.encode, List.length_append, length_pack, hcoordinates, length_coordinates]
  omega

/-- One round of the loop over the rings. -/
theorem readRings_encode {ring : LinearRing} (h : At raw offset (ring.encode order))
    (n ringIndex : Nat) :
    readRings order raw (n + 1) ringIndex offset rings =
      readRings order raw n (ringIndex + 1) (offset + (ring.encode order).length)
        (if ringIndex = 0 then rings ++ [ring.points] else rings) := by
  have hcount : unpackFrom order 4 raw offset = some ring.points.length :=
    h.left.unpackFrom ring.fits
  have hpoints : unpackMany order 8 (ring.points.length * 2) raw (offset + 4) =
      some ring.coordinates := by
    have hright := h.right
    rw [length_pack] at hright
    rw [← length_coordinates]
    exact hright.unpackMany lt_of_mem_coordinates
  have hpairs : pairs (ring.coordinates.map (BitVec.ofNat 64)) = ring.points :=
    pairs_coordinates ring.points
  rw [readRings, hcount]
  show (unpackMany order 8 (ring.points.length * 2) raw (offset + 4)).bind _ = _
  rw [hpoints, Option.bind_some, hpairs, length_encode, Nat.add_assoc]

/-- The holes of a polygon are skipped. -/
theorem readRings_holes (holes : List LinearRing) {ringIndex : Nat} (hindex : ringIndex ≠ 0)
    (h : At raw offset (holes.flatMap (LinearRing.encode order))) :
    readRings order raw holes.length ringIndex offset rings =
      some (rings, offset + (holes.flatMap (LinearRing.encode order)).length) := by
  induction holes generalizing ringIndex offset with
  | nil => rfl
  | cons hole holes ih =>
    rw [List.flatMap_cons] at h
    rw [List.length_cons, readRings_encode h.left, if_neg hindex, ih (Nat.succ_ne_zero _) h.right,
      List.flatMap_cons, List.length_append, Nat.add_assoc]

/-! ### Polygons -/

/-- The rings of a polygon are read, and its holes skipped. -/
theorem readRings_polygon (polygon : Polygon)
    (h : At raw offset ((polygon.outer :: polygon.holes).flatMap (LinearRing.encode order))) :
    readRings order raw (polygon.holes.length + 1) 0 offset rings =
      some (rings ++ [polygon.outer.points],
        offset + ((polygon.outer :: polygon.holes).flatMap (LinearRing.encode order)).length) := by
  rw [List.flatMap_cons] at h
  rw [readRings_encode h.left, if_pos rfl, readRings_holes _ Nat.one_ne_zero h.right,
    List.flatMap_cons, List.length_append, Nat.add_assoc]

/-- One round of the loop over the polygons. -/
theorem readPolygons_encode {polygon : Polygon} (h : At raw offset (polygon.encode order))
    (n : Nat) :
    readPolygons raw (n + 1) offset rings =
      readPolygons raw n (offset + (polygon.encode order).length)
        (rings ++ [polygon.outer.points]) := by
  have hmarker : raw[offset]? = some (marker order) := by
    unfold Polygon.encode at h
    exact h.left.left.left.getElem?
  have hcount : unpackFrom order 4 raw (offset + 5) = some (polygon.holes.length + 1) := by
    have hright := h.left.right
    simp only [List.length_append, List.length_singleton, length_pack] at hright
    exact hright.unpackFrom polygon.fits
  have hrings := h.right
  simp only [List.length_append, List.length_singleton, length_pack] at hrings
  have hlength : (polygon.encode order).length =
      9 + ((polygon.outer :: polygon.holes).flatMap (LinearRing.encode order)).length := by
    simp only [Polygon.encode, List.length_append, List.length_singleton, length_pack]
  rw [readPolygons, hmarker]
  show (unpackFrom (orderOf (marker order)) 4 raw (offset + 5)).bind _ = _
  rw [orderOf_marker, hcount, Option.bind_some]
  show (readRings order raw (polygon.holes.length + 1) 0 (offset + 9) rings).bind _ = _
  rw [readRings_polygon polygon hrings, Option.bind_some, hlength, Nat.add_assoc]

/-- Polygons are read one after the other, each in its byte order. -/
theorem readPolygons_polygons (polygons : List (ByteOrder × Polygon))
    (h : At raw offset (polygons.flatMap fun polygon => polygon.2.encode polygon.1)) :
    readPolygons raw polygons.length offset rings =
      some (rings ++ polygons.map fun polygon => polygon.2.outer.points) := by
  induction polygons generalizing offset rings with
  | nil => exact congrArg some (List.append_nil rings).symm
  | cons polygon polygons ih =>
    rw [List.flatMap_cons] at h
    rw [List.length_cons, readPolygons_encode h.left, ih h.right, List.map_cons,
      List.append_assoc, List.singleton_append]

end

/-- **Every encoding is read**: the outer rings come out in order with their coordinates, and
nothing is read past the end. -/
theorem ringsFromEwkb_encode (e : Ewkb) :
    ringsFromEwkb e.encode = some (e.value.map fun polygon => polygon.outer.points) := by
  have hat : At e.encode 0 e.encode := at_self e.encode
  have hmarker : e.encode[0]? = some (marker e.order) := rfl
  -- The flag decides whether the count comes after an SRID.
  have htype : ∃ geomType, unpackFrom e.order 4 e.encode 1 = some geomType ∧
      (if geomType &&& ewkbSridFlag ≠ 0 then 9 else 5) =
        1 + (encodeType e.order e.srid).length := by
    have hright := hat.left.left.right
    cases hsrid : e.srid with
    | none =>
      rw [hsrid] at hright
      exact ⟨6, hright.unpackFrom (by decide), by rw [encodeType, length_pack]; rfl⟩
    | some srid =>
      rw [hsrid] at hright
      refine ⟨6 + ewkbSridFlag, hright.left.unpackFrom (by decide), ?_⟩
      rw [encodeType, List.length_append, length_pack, length_pack]
      rfl
  obtain ⟨geomType, htype, hoffset⟩ := htype
  have hcount : unpackFrom e.order 4 e.encode (1 + (encodeType e.order e.srid).length) =
      some e.polygons.length := by
    have hright := hat.left.right
    rw [List.length_append, List.length_singleton, Nat.zero_add] at hright
    exact hright.unpackFrom e.fits
  have hpolygons := hat.right
  rw [List.length_append, List.length_append, List.length_singleton, length_pack, Nat.zero_add]
    at hpolygons
  unfold ringsFromEwkb
  rw [hmarker]
  show (unpackFrom (orderOf (marker e.order)) 4 e.encode 1).bind _ = _
  rw [orderOf_marker, htype, Option.bind_some]
  show (unpackFrom e.order 4 e.encode (if geomType &&& ewkbSridFlag ≠ 0 then 9 else 5)).bind
    (fun numPolygons => readPolygons e.encode numPolygons
      ((if geomType &&& ewkbSridFlag ≠ 0 then 9 else 5) + 4) []) = _
  rw [hoffset, hcount, Option.bind_some, readPolygons_polygons _ hpolygons,
    List.nil_append, Ewkb.value, List.map_map]
  rfl

/-! ### A polygon with a hole -/

/-- Small counts fit. -/
theorem fits_of_ble {n : Nat} (h : Nat.ble n 4 = true) : Fits n :=
  Nat.lt_of_le_of_lt (Nat.le_of_ble_eq_true h) (by decide)

/-- The second polygon is in the byte order of the whole, the first in the other. -/
def sampleEwkb : Ewkb where
  order := .little
  srid := some 4326
  polygons :=
    [(.big, ⟨⟨[(1, 2), (3, 4), (5, 6), (1, 2)], fits_of_ble rfl⟩,
        [⟨[(7, 8), (7, 8)], fits_of_ble rfl⟩], fits_of_ble rfl⟩),
      (.little, ⟨⟨[(9, 0)], fits_of_ble rfl⟩, [], fits_of_ble rfl⟩)]
  fits := fits_of_ble rfl

example : ringsFromEwkb sampleEwkb.encode = some [[(1, 2), (3, 4), (5, 6), (1, 2)], [(9, 0)]] := by
  decide +kernel

end Geo

end Common

end RealEstate
