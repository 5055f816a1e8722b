import RealEstate.Listings.GeoFilters

/-!
# The service areas of agents (`modules/agents/schemas.py`)

An agent covers a few polygons, given as lists of points. They are closed and counted as the
polygon of the public search is, and stored as one text.

- `validateRings`: the validator, with the messages of its errors.
- `storedAreas`: what the profile keeps of them.
- `polygons_accepted`: what both validators let through is a polygon just where three of the
  points given differ; a few points repeated are let through as well.
-/

namespace RealEstate

namespace Agents

namespace ServiceAreas

open Systems Common Geo Wkt Listings.GeoFilters

/-! ### The validator -/

/-- `MAX_SERVICE_AREAS`. -/
def maxServiceAreas : Nat := 10

/-- One round of the loop over the rings. -/
def validateRing (ring : List LonLat) : Except String (List LonLat) :=
  if ring.all inRange then
    closeChecked s!"each service area supports at most {maxPoints} points"
      "each service area needs at least 3 distinct points" ring
  else .error "serviceAreas coordinates out of range (lon then lat)"

/-- `_validate_rings`. -/
def validateRings : Option (List (List LonLat)) → Except String (Option (List (List LonLat)))
  | none => .ok none
  | some rings =>
    if maxServiceAreas < rings.length then
      .error s!"at most {maxServiceAreas} service areas are supported"
    else (rings.mapM validateRing).map some

/-- `to_multipolygon(data.service_areas) if data.service_areas else None`. -/
def storedAreas : Option (List (List LonLat)) → Option Text
  | none | some [] => none
  | some (ring :: rings) => some (toMultipolygon (ring :: rings))

section

variable {ring : List LonLat} {areas rings : List (List LonLat)}

/-- A ring that passes: all points are in range, and it is the area, closed. -/
theorem validateRing_eq_ok {area : List LonLat} (h : validateRing area = .ok ring) :
    (∀ point ∈ area, inRange point = true) ∧ ring = closeRing area ∧ ring ≠ [] := by
  unfold validateRing at h
  by_cases hrange : area.all inRange = true
  · rw [if_pos hrange] at h
    exact ⟨List.all_eq_true.1 hrange, closeChecked_eq_ok h⟩
  · rw [if_neg hrange] at h
    cases h

theorem mapM_validateRing_eq_ok (h : areas.mapM validateRing = .ok rings) :
    rings = areas.map closeRing ∧ ∀ area ∈ areas,
      (∀ point ∈ area, inRange point = true) ∧ closeRing area ≠ [] := by
  induction areas generalizing rings with
  | nil =>
    cases h
    exact ⟨rfl, nofun⟩
  | cons area areas ih =>
    obtain ⟨ring, rest, harea, hareas, rfl⟩ := mapM_cons_eq_ok h
    obtain ⟨hrange, rfl, hne⟩ := validateRing_eq_ok harea
    obtain ⟨rfl, hrest⟩ := ih hareas
    exact ⟨rfl, List.forall_mem_cons.2 ⟨⟨hrange, hne⟩, hrest⟩⟩

/-- `validateRings` closes every area, or raises. -/
theorem validateRings_eq_ok (h : validateRings (some areas) = .ok (some rings)) :
    rings = areas.map closeRing ∧ ∀ area ∈ areas,
      (∀ point ∈ area, inRange point = true) ∧ closeRing area ≠ [] := by
  unfold validateRings at h
  dsimp only at h
  split at h
  · cases h
  · cases hrings : areas.mapM validateRing with
    | error e =>
      rw [hrings] at h
      cases h
    | ok closed =>
      rw [hrings] at h
      cases h
      exact mapM_validateRing_eq_ok hrings

/-- What is stored is read back. -/
theorem readMultipolygon_storedAreas {wkt : Text} (hrings : ∀ ring ∈ rings, ring ≠ [])
    (h : ∀ ring ∈ rings, ∀ point ∈ ring, FinitePoint point)
    (hwkt : storedAreas (some rings) = some wkt) : readMultipolygon wkt = some rings := by
  cases rings with
  | nil => cases hwkt
  | cons ring rings =>
    cases hwkt
    exact readMultipolygon_toMultipolygon (List.cons_ne_nil ring rings) hrings h

/-! ### What both validators let through -/

/-- What the text given for `inPolygon` comes to is a polygon, written as it was listed. -/
def PolygonAccepted (listed : List LonLat) (polygonWkt : Option Text) : Prop :=
  ∃ ring, ring = closeRing listed ∧ IsPolygon ring ∧ polygonWkt.bind readPolygon = some ring

/-- The rings are polygons, those that were given, and stored as they are. -/
structure AreasAccepted (areas rings : List (List LonLat)) : Prop where
  closed : rings = areas.map closeRing
  polygons : ∀ ring ∈ rings, IsPolygon ring
  stored : ∀ wkt, storedAreas (some rings) = some wkt → readMultipolygon wkt = some rings

/-- **A search polygon is accepted by PostGIS just in case three of its points differ.** -/
theorem polygonAccepted_iff {filters : PublicListingFilters} {inPolygon : Text} {geo : ParsedGeo}
    (hpolygon : filters.inPolygon = some inPolygon) (h : parseGeo filters = .ok geo) :
    ∃ listed, listedPoints inPolygon = some listed ∧
      (PolygonAccepted listed geo.polygonWkt ↔ ThreeDistinct listed) := by
  obtain ⟨ring, hring, hwkt⟩ := parseGeo_polygon hpolygon h
  obtain ⟨listed, hlisted, hrange, rfl, hne⟩ := parsePolygon_eq_ok hring
  have hiff := isPolygon_closeRing_iff hne hrange
  refine ⟨listed, hlisted, ?_, fun hdistinct => ?_⟩
  · rintro ⟨ring, rfl, hpolygon, -⟩
    exact hiff.1 hpolygon
  · have hpolygon := hiff.2 hdistinct
    refine ⟨_, rfl, hpolygon, ?_⟩
    rw [hwkt, Option.bind_some]
    exact readPolygon_polygonWkt hne hpolygon.finite

/-- The same of service areas, for all of them. -/
theorem areasAccepted_iff (h : validateRings (some areas) = .ok (some rings)) :
    AreasAccepted areas rings ↔ ∀ area ∈ areas, ThreeDistinct area := by
  obtain ⟨rfl, hareas⟩ := validateRings_eq_ok h
  have hiff : ∀ area ∈ areas, (IsPolygon (closeRing area) ↔ ThreeDistinct area) :=
    fun area harea => isPolygon_closeRing_iff (hareas area harea).2 (hareas area harea).1
  constructor
  · intro haccepted area harea
    exact (hiff area harea).1 (haccepted.polygons _ (List.mem_map_of_mem harea))
  · intro hdistinct
    have hpolygons : ∀ ring ∈ areas.map closeRing, IsPolygon ring :=
      List.forall_mem_map.2 fun area harea => (hiff area harea).2 (hdistinct area harea)
    exact {
      closed := rfl
      polygons := hpolygons
      stored := fun wkt hwkt => readMultipolygon_storedAreas
        (List.forall_mem_map.2 fun area harea => (hareas area harea).2)
        (fun ring hring => (hpolygons ring hring).finite) hwkt }

/-- **Both validators count points** where their messages speak of distinct ones: what they let
through is a polygon if and only if three of the points given differ. -/
theorem polygons_accepted (filters : PublicListingFilters) (inPolygon : Text) (geo : ParsedGeo)
    (areas rings : List (List LonLat)) :
    (filters.inPolygon = some inPolygon → parseGeo filters = .ok geo →
      ∃ listed, listedPoints inPolygon = some listed ∧
        (PolygonAccepted listed geo.polygonWkt ↔ ThreeDistinct listed)) ∧
    (validateRings (some areas) = .ok (some rings) →
      (AreasAccepted areas rings ↔ ∀ area ∈ areas, ThreeDistinct area)) :=
  ⟨polygonAccepted_iff, areasAccepted_iff⟩

/-! ### A triangle, and one point four times -/

/-- The points 0 0, 1 0 and 0 1. -/
def triangle : List LonLat :=
  [(0, 0), (0x3ff0000000000000, 0), (0, 0x3ff0000000000000)]

/-- A triangle comes out as a polygon, as a filter and as a service area. -/
theorem triangle_accepted :
    PolygonAccepted triangle (some (polygonWkt (closeRing triangle))) ∧
      AreasAccepted [triangle] [closeRing triangle] := by
  have hlisted : listedPoints "0 0,1 0,0 1".toList = some triangle := by decide +kernel
  have hring : parsePolygon "0 0,1 0,0 1".toList = .ok (closeRing triangle) := by decide +kernel
  have hdistinct : ThreeDistinct triangle := by decide +kernel
  have hgeo : parseGeo { inPolygon := some "0 0,1 0,0 1".toList } =
      .ok { polygonWkt := some (polygonWkt (closeRing triangle)) } := by
    show ((parsePolygon _).map some >>= fun ring => _) = _
    rw [hring]
    rfl
  have hareas : validateRings (some [triangle]) = .ok (some [closeRing triangle]) := by
    decide +kernel
  obtain ⟨hpolygon, hrings⟩ := polygons_accepted _ _ _ _ _
  obtain ⟨listed, hlist, hiff⟩ := hpolygon rfl hgeo
  cases hlisted.symm.trans hlist
  exact ⟨hiff.2 hdistinct, (hrings hareas).2 (List.forall_mem_singleton.2 hdistinct)⟩

/-- One point four times is counted as four, by both. -/
theorem repeated_point_accepted :
    ¬ (∀ (filters : PublicListingFilters) (inPolygon : Text) (geo : ParsedGeo),
      filters.inPolygon = some inPolygon → parseGeo filters = .ok geo →
        ∃ listed, listedPoints inPolygon = some listed ∧
          PolygonAccepted listed geo.polygonWkt) ∧
    ¬ ∀ areas rings : List (List LonLat), validateRings (some areas) = .ok (some rings) →
      AreasAccepted areas rings := by
  have hdistinct : ¬ ThreeDistinct (List.replicate 4 (0, 0)) := by decide
  have hlisted : listedPoints "0 0,0 0,0 0,0 0".toList = some (List.replicate 4 (0, 0)) := by
    decide
  have hring : parsePolygon "0 0,0 0,0 0,0 0".toList = .ok (List.replicate 4 (0, 0)) := by
    decide +kernel
  -- The filter keeps the ring as it was parsed.
  have hgeo : parseGeo { inPolygon := some "0 0,0 0,0 0,0 0".toList } =
      .ok { polygonWkt := some (polygonWkt (List.replicate 4 (0, 0))) } := by
    show ((parsePolygon _).map some >>= fun ring => _) = _
    rw [hring]
    rfl
  have hareas : validateRings (some [List.replicate 4 (0, 0)]) =
      .ok (some [List.replicate 4 (0, 0)]) := by
    decide +kernel
  constructor
  · intro h
    obtain ⟨listed, hlist, ring, rfl, hpolygon, -⟩ := h _ _ _ rfl hgeo
    cases hlisted.symm.trans hlist
    exact hdistinct (threeDistinct_closeRing.1 hpolygon.distinct)
  · intro h
    exact hdistinct ((h _ _ hareas).polygons _ List.mem_cons_self).distinct

end

end ServiceAreas

end Agents

end RealEstate
