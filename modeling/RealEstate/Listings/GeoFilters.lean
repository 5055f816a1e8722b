import RealEstate.Common.Wkt

/-!
# The geo filters of the public search (`modules/listings/schemas.py`)

A box, a circle or a polygon comes as a compact text. A polygon is closed where it is open, and
its points are counted, repeated ones included.

- `parseGeo`: the validator, with the messages of its errors.
- `closeRing`, `closeChecked`: what it shares with the service areas of agents.
- `IsPolygon`: a closed ring in range with three points that differ.
- `parseGeo_polygon`: what an accepted polygon is, and is written as.
-/

namespace RealEstate

namespace Listings

namespace GeoFilters

open Systems Common Geo Wkt

/-! ### Points -/

/-- `-180 <= lon <= 180 and -90 <= lat <= 90`. -/
def inRange (point : LonLat) : Bool :=
  (FloatValue.ofInt (-180)).le (floatValue point.1) && (floatValue point.1).le (.ofInt 180) &&
    (FloatValue.ofInt (-90)).le (floatValue point.2) && (floatValue point.2).le (.ofInt 90)

/-- `p == q`. -/
def samePoint (p q : LonLat) : Bool :=
  (floatValue p.1).same (floatValue q.1) && (floatValue p.2).same (floatValue q.2)

/-- The first point is appended where the last one differs. -/
def closeRing (points : List LonLat) : List LonLat :=
  match points.head?, points.getLast? with
  | some first, some last => if samePoint first last then points else points ++ [first]
  | _, _ => points

/-- `MAX_POLYGON_POINTS` and `MAX_RING_POINTS`. -/
def maxPoints : Nat := 100

/-- The points are counted, the ring closed, and counted again. -/
def closeChecked (tooMany tooFew : String) (points : List LonLat) :
    Except String (List LonLat) :=
  if maxPoints < points.length then .error tooMany
  else if (closeRing points).length < 4 then .error tooFew
  else .ok (closeRing points)

/-! ### The validator -/

/-- `_parse_floats`. -/
def parseFloats (raw : Text) (expected : Nat) (name : String) : Except String (List Double) :=
  match ((raw.splitOn ',').map strip).mapM parseFloat with
  | some values =>
    if values.length = expected then .ok values
    else .error s!"{name} must be {expected} comma-separated numbers"
  | none => .error s!"{name} must be {expected} comma-separated numbers"

/-- `_check_lonlat`. -/
def checkLonlat (point : LonLat) (name : String) : Except String Unit :=
  if inRange point then .ok ()
  else .error s!"{name} coordinates out of range (lon then lat)"

/-- A pair of the polygon. -/
def parsePair (pair : Text) : Option LonLat :=
  match words (strip pair) with
  | [lon, lat] => (parseFloat lon).bind fun lon => (parseFloat lat).map fun lat => (lon, lat)
  | _ => none

/-- One round of the loop over the pairs. -/
def checkPair (pair : Text) : Except String LonLat := do
  match parsePair pair with
  | some point =>
    checkLonlat point "inPolygon"
    return point
  | none => .error "inPolygon must be 'lon lat' pairs separated by commas"

/-- The closed ring of `inPolygon`. -/
def parsePolygon (inPolygon : Text) : Except String (List LonLat) := do
  let points ← (inPolygon.splitOn ',').mapM checkPair
  closeChecked s!"inPolygon supports at most {maxPoints} points"
    "inPolygon needs at least 3 distinct points" points

/-- `PublicListingFilters`, as far as it is about places. -/
structure PublicListingFilters where
  inBbox : Option Text := none
  near : Option Text := none
  radiusKm : Option Double := none
  inPolygon : Option Text := none

/-- The private attributes. -/
structure ParsedGeo where
  bbox : Option (LonLat × LonLat) := none
  nearPoint : Option LonLat := none
  polygonWkt : Option Text := none

/-- `_parse_bbox`. -/
def parseBbox (inBbox : Text) : Except String (LonLat × LonLat) := do
  match ← parseFloats inBbox 4 "inBbox" with
  | [minLon, minLat, maxLon, maxLat] =>
    checkLonlat (minLon, minLat) "inBbox"
    checkLonlat (maxLon, maxLat) "inBbox"
    if (floatValue maxLon).le (floatValue minLon) || (floatValue maxLat).le (floatValue minLat) then
      .error "inBbox must be minLon,minLat,maxLon,maxLat with min < max"
    else return ((minLon, minLat), (maxLon, maxLat))
  | _ => .error "inBbox must be 4 comma-separated numbers"

/-- `_parse_near`. -/
def parseNear (near : Text) : Except String LonLat := do
  match ← parseFloats near 2 "near" with
  | [lon, lat] =>
    checkLonlat (lon, lat) "near"
    return (lon, lat)
  | _ => .error "near must be 2 comma-separated numbers"

/-- A part of the validator that is left out for an absent field. -/
def parseOptional {α : Type} (parse : Text → Except String α) :
    Option Text → Except String (Option α)
  | some t => (parse t).map some
  | none => .ok none

/-- `parse_geo`. -/
def parseGeo (filters : PublicListingFilters) : Except String ParsedGeo := do
  if 1 < ([filters.inBbox, filters.near, filters.inPolygon].filter Option.isSome).length then
    .error "use only one of inBbox, near, inPolygon"
  else if filters.radiusKm.isSome ∧ filters.near.isNone then .error "radiusKm requires near"
  else
    let bbox ← parseOptional parseBbox filters.inBbox
    let nearPoint ← parseOptional parseNear filters.near
    let ring ← parseOptional parsePolygon filters.inPolygon
    return { bbox, nearPoint, polygonWkt := ring.map polygonWkt }

/-! ### Polygons -/

/-- Three points that differ from one another. -/
def ThreeDistinct (points : List LonLat) : Prop :=
  ∃ p ∈ points, ∃ q ∈ points, ∃ r ∈ points,
    samePoint p q = false ∧ samePoint p r = false ∧ samePoint q r = false

/-- Over triples of points. -/
instance (points : List LonLat) : Decidable (ThreeDistinct points) :=
  inferInstanceAs (Decidable (∃ p ∈ points, _))

/-- A closed ring of finite points in range, three of which differ. -/
structure IsPolygon (ring : List LonLat) : Prop where
  closed : ∃ first last, ring.head? = some first ∧ ring.getLast? = some last ∧
    samePoint first last = true
  finite : ∀ point ∈ ring, FinitePoint point
  inRange : ∀ point ∈ ring, inRange point = true
  distinct : ThreeDistinct ring

/-- The points that a text lists. -/
def listedPoints (inPolygon : Text) : Option (List LonLat) :=
  (inPolygon.splitOn ',').mapM parsePair

section

variable {point : LonLat} {points : List LonLat}

/-- A point in range is finite. -/
theorem finitePoint_of_inRange (h : inRange point = true) : FinitePoint point := by
  unfold inRange at h
  simp only [Bool.and_eq_true] at h
  obtain ⟨⟨⟨hwest, heast⟩, hsouth⟩, hnorth⟩ := h
  exact ⟨isFinite_of_le hwest heast, isFinite_of_le hsouth hnorth⟩

theorem same_self {x : Double} (h : IsFinite x) : (floatValue x).same (floatValue x) = true := by
  unfold IsFinite at h
  unfold floatValue
  dsimp only
  rw [if_neg (Nat.lt_asymm h), if_neg (Nat.ne_of_lt h)]
  exact decide_eq_true rfl

theorem samePoint_self (h : FinitePoint point) : samePoint point point = true :=
  Bool.and_eq_true_iff.2 ⟨same_self h.1, same_self h.2⟩

/-! ### Closing -/

/-- A ring is closed already, or its first point is added. -/
theorem closeRing_cases (points : List LonLat) :
    points = [] ∧ closeRing points = [] ∨ ∃ first last,
      points.head? = some first ∧ points.getLast? = some last ∧
        (samePoint first last = true ∧ closeRing points = points ∨
          closeRing points = points ++ [first]) := by
  cases points with
  | nil => exact .inl ⟨rfl, rfl⟩
  | cons first points =>
    have hlast := List.getLast?_eq_some_getLast (List.cons_ne_nil first points)
    generalize (first :: points).getLast _ = last at hlast
    refine .inr ⟨first, last, rfl, hlast, ?_⟩
    unfold closeRing
    rw [hlast]
    dsimp only [List.head?_cons]
    by_cases hsame : samePoint first last = true
    · exact .inl ⟨hsame, if_pos hsame⟩
    · exact .inr (if_neg hsame)

/-- Closing adds no point. -/
theorem mem_closeRing : point ∈ closeRing points ↔ point ∈ points := by
  rcases closeRing_cases points with ⟨rfl, hnil⟩ | ⟨first, last, hfirst, -, ⟨-, hsame⟩ | hadded⟩
  · rw [hnil]
  · rw [hsame]
  · rw [hadded, List.mem_append, List.mem_singleton]
    refine or_iff_left_of_imp ?_
    rintro rfl
    exact List.mem_of_mem_head? hfirst

/-- Closing a ring brings no new point. -/
theorem threeDistinct_closeRing : ThreeDistinct (closeRing points) ↔ ThreeDistinct points := by
  unfold ThreeDistinct
  simp only [mem_closeRing]

/-- **What is closed and in range** is a polygon if three of its points differ. -/
theorem isPolygon_closeRing_iff (hne : closeRing points ≠ [])
    (h : ∀ point ∈ points, inRange point = true) :
    IsPolygon (closeRing points) ↔ ThreeDistinct points := by
  refine ⟨fun hpolygon => threeDistinct_closeRing.1 hpolygon.distinct, fun hdistinct => ?_⟩
  exact {
    closed := by
      rcases closeRing_cases points with ⟨-, hnil⟩ |
        ⟨first, last, hfirst, hlast, ⟨hsame, hkept⟩ | hadded⟩
      · exact absurd hnil hne
      · rw [hkept]
        exact ⟨first, last, hfirst, hlast, hsame⟩
      · refine ⟨first, first, ?_, ?_, ?_⟩
        · rw [hadded, List.head?_append, hfirst]
          rfl
        · rw [hadded, List.getLast?_concat]
        · exact samePoint_self (finitePoint_of_inRange (h first (List.mem_of_mem_head? hfirst)))
    finite := fun point hpoint => finitePoint_of_inRange (h point (mem_closeRing.1 hpoint))
    inRange := fun point hpoint => h point (mem_closeRing.1 hpoint)
    distinct := threeDistinct_closeRing.2 hdistinct }

/-- A ring that passes is the closed one. -/
theorem closeChecked_eq_ok {tooMany tooFew : String} {ring : List LonLat}
    (h : closeChecked tooMany tooFew points = .ok ring) :
    ring = closeRing points ∧ ring ≠ [] := by
  unfold closeChecked at h
  split at h
  · cases h
  · split at h
    · cases h
    · next hlength =>
      cases h
      refine ⟨rfl, fun hnil => hlength ?_⟩
      rw [hnil]
      decide

/-! ### What is accepted -/

/-- A pair that passes is in range. -/
theorem checkPair_eq_ok {pair : Text} (h : checkPair pair = .ok point) :
    parsePair pair = some point ∧ inRange point = true := by
  unfold checkPair at h
  cases hpair : parsePair pair with
  | none =>
    rw [hpair] at h
    cases h
  | some parsed =>
    rw [hpair] at h
    dsimp only at h
    unfold checkLonlat at h
    by_cases hrange : inRange parsed = true
    · rw [if_pos hrange] at h
      cases h
      exact ⟨rfl, hrange⟩
    · rw [if_neg hrange] at h
      cases h

/-- A loop that ends has gone through its first round and through the rest. -/
theorem mapM_cons_eq_ok {α β : Type} {f : α → Except String β} {x : α} {xs : List α} {ys : List β}
    (h : (x :: xs).mapM f = .ok ys) :
    ∃ y rest, f x = .ok y ∧ xs.mapM f = .ok rest ∧ ys = y :: rest := by
  rw [List.mapM_cons] at h
  cases hfirst : f x with
  | error e =>
    rw [hfirst] at h
    cases h
  | ok y =>
    rw [hfirst] at h
    replace h : (xs.mapM f >>= fun rest => pure (y :: rest)) = _ := h
    cases hrest : xs.mapM f with
    | error e =>
      rw [hrest] at h
      cases h
    | ok rest =>
      rw [hrest] at h
      cases h
      exact ⟨y, rest, rfl, rfl, rfl⟩

theorem mapM_checkPair_eq_ok {pairs : List Text} (h : pairs.mapM checkPair = .ok points) :
    pairs.mapM parsePair = some points ∧ ∀ point ∈ points, inRange point = true := by
  induction pairs generalizing points with
  | nil =>
    cases h
    exact ⟨rfl, nofun⟩
  | cons pair pairs ih =>
    obtain ⟨first, rest, hpair, hrest, rfl⟩ := mapM_cons_eq_ok h
    obtain ⟨hparsed, hrange⟩ := checkPair_eq_ok hpair
    obtain ⟨hparse, hranges⟩ := ih hrest
    refine ⟨?_, List.forall_mem_cons.2 ⟨hrange, hranges⟩⟩
    rw [List.mapM_cons, hparsed, hparse]
    rfl

theorem parsePolygon_eq_ok {inPolygon : Text} {ring : List LonLat}
    (h : parsePolygon inPolygon = .ok ring) :
    ∃ listed, listedPoints inPolygon = some listed ∧
      (∀ point ∈ listed, inRange point = true) ∧ ring = closeRing listed ∧ ring ≠ [] := by
  unfold parsePolygon at h
  cases hpoints : (inPolygon.splitOn ',').mapM checkPair with
  | error e =>
    rw [hpoints] at h
    cases h
  | ok listed =>
    rw [hpoints] at h
    obtain ⟨hlisted, hrange⟩ := mapM_checkPair_eq_ok hpoints
    exact ⟨listed, hlisted, hrange, closeChecked_eq_ok h⟩

/-- What the query gets of a polygon. -/
theorem parseGeo_polygon {filters : PublicListingFilters} {inPolygon : Text} {geo : ParsedGeo}
    (hpolygon : filters.inPolygon = some inPolygon) (h : parseGeo filters = .ok geo) :
    ∃ ring, parsePolygon inPolygon = .ok ring ∧ geo.polygonWkt = some (polygonWkt ring) := by
  unfold parseGeo at h
  split at h
  · cases h
  · split at h
    · cases h
    · -- The polygon is read after the box and the point, so both have parsed.
      rw [hpolygon] at h
      cases hbbox : parseOptional parseBbox filters.inBbox with
      | error e =>
        rw [hbbox] at h
        cases h
      | ok bbox =>
        cases hnear : parseOptional parseNear filters.near with
        | error e =>
          rw [hbbox, hnear] at h
          cases h
        | ok nearPoint =>
          rw [hbbox, hnear] at h
          cases hring : parsePolygon inPolygon with
          | error e =>
            replace h : ((parsePolygon inPolygon).map some >>= fun _ => _) = _ := h
            rw [hring] at h
            cases h
          | ok ring =>
            replace h : ((parsePolygon inPolygon).map some >>= fun _ => _) = _ := h
            rw [hring] at h
            cases h
            exact ⟨ring, rfl, rfl⟩

end

end GeoFilters

end Listings

end RealEstate
