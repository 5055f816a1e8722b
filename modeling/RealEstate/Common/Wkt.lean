import RealEstate.Common.Geo
import RealEstate.Systems.Floats

/-!
# Writing polygons (`common/geo.py`)

WKT is built from parsed floats only, each written so that it reads back as itself.

- `polygonWkt`, `toMultipolygon`: what is written of rings.
- `readPolygon`, `readMultipolygon`: what the texts mean.
- `readPolygon_polygonWkt`, `readMultipolygon_toMultipolygon`: rings of finite points are read back.
-/

namespace RealEstate

namespace Common

namespace Wkt

open Systems Geo

/-! ### Writing -/

/-- `f"{lon} {lat}"`. -/
def pointText (point : LonLat) : Text := reprFloat point.1 ++ ' ' :: reprFloat point.2

/-- `", ".join(ts)`. -/
def joinText (ts : List Text) : Text := List.intercalate [',', ' '] ts

/-- The points of a ring, between commas. -/
def ringText (ring : List LonLat) : Text := joinText (ring.map pointText)

/-- A ring in double parentheses. -/
def partText (ring : List LonLat) : Text := '(' :: '(' :: (ringText ring ++ [')', ')'])

/-- `POLYGON`, of one ring. -/
def polygonWkt (ring : List LonLat) : Text := "POLYGON".toList ++ partText ring

/-- `to_multipolygon`; its SRID is 4326. -/
def toMultipolygon (polygons : List (List LonLat)) : Text :=
  "MULTIPOLYGON(".toList ++ (joinText (polygons.map partText) ++ [')'])

/-! ### Reading -/

/-- Two numbers with blanks between them. -/
def readPoint (t : Text) : Option LonLat :=
  match words t with
  | [lon, lat] => (parseFloat lon).bind fun lon => (parseFloat lat).map fun lat => (lon, lat)
  | _ => none

/-- A reader of rings. -/
def readRing (t : Text) : Option (List LonLat) := (t.splitOn ',').mapM readPoint

/-- The texts in double parentheses, at most so many. -/
def readParts : Nat → Text → Option (List Text)
  | n + 1, '(' :: '(' :: t =>
    match t.dropWhile (· ≠ ')') with
    | [')', ')'] => some [t.takeWhile (· ≠ ')')]
    | ')' :: ')' :: ',' :: ' ' :: rest => (readParts n rest).map (t.takeWhile (· ≠ ')') :: ·)
    | _ => none
  | _, _ => none

/-- A reader of a fixed text. -/
def readPrefix (before t : Text) : Option Text :=
  if before.isPrefixOf t then some (t.drop before.length) else none

/-- The ring of a polygon without holes. -/
def readPolygon (t : Text) : Option (List LonLat) :=
  (readPrefix "POLYGON".toList t).bind fun t => (readParts 1 t).bind fun parts =>
    parts.head?.bind readRing

/-- The rings of polygons without holes. -/
def readMultipolygon (t : Text) : Option (List (List LonLat)) :=
  (readPrefix "MULTIPOLYGON(".toList t).bind fun t =>
    if t.getLast? = some ')' then (readParts t.length t.dropLast).bind (·.mapM readRing) else none

/-! ### Points -/

/-- Both coordinates are finite. -/
def FinitePoint (point : LonLat) : Prop := IsFinite point.1 ∧ IsFinite point.2

/-- Two comparisons. -/
instance : DecidablePred FinitePoint := fun point =>
  inferInstanceAs (Decidable (IsFinite point.1 ∧ _))

/-- What a text of floats is made of: neither commas nor parentheses. -/
def isPlain (c : Char) : Bool := isFloatChar c || c = ' '

section

variable {point : LonLat} {ring : List LonLat}

theorem isSpace_of_isFloatChar {c : Char} (h : isFloatChar c = true) : isSpace c = false := by
  obtain ⟨hlow, hhigh⟩ := (plain_of_isFloatChar h).1
  refine decide_eq_false ?_
  omega

/-- Two words with a blank between them. -/
theorem words_pair {a b : Text} (ha : a ≠ []) (hb : b ≠ [])
    (ha' : ∀ c ∈ a, isSpace c = false) (hb' : ∀ c ∈ b, isSpace c = false) :
    words (a ++ ' ' :: b) = [a, b] := by
  unfold words
  rw [List.splitOnP_append_cons_of_forall_mem ha' ' ' (by decide),
    List.splitOnP_eq_singleton hb', List.filter_cons_of_pos (by simpa using ha),
    List.filter_cons_of_pos (by simpa using hb), List.filter_nil]

theorem words_blank_cons (t : Text) : words (' ' :: t) = words t := by
  have hnil : ∀ c ∈ ([] : Text), isSpace c = false := nofun
  have hsplit : (' ' :: t).splitOnP isSpace = [] :: t.splitOnP isSpace :=
    List.splitOnP_append_cons_of_forall_mem hnil ' ' (by decide) t
  unfold words
  rw [hsplit, List.filter_cons_of_neg (by decide)]

theorem readPoint_pointText (h : FinitePoint point) : readPoint (pointText point) = some point := by
  have hwords : words (pointText point) = [reprFloat point.1, reprFloat point.2] :=
    words_pair (reprFloat_ne_nil h.1) (reprFloat_ne_nil h.2)
      (fun c hc => isSpace_of_isFloatChar (isFloatChar_reprFloat h.1 c hc))
      (fun c hc => isSpace_of_isFloatChar (isFloatChar_reprFloat h.2 c hc))
  unfold readPoint
  rw [hwords]
  dsimp only
  rw [parseFloat_reprFloat h.1, parseFloat_reprFloat h.2]
  rfl

theorem readPoint_blank_cons (t : Text) : readPoint (' ' :: t) = readPoint t := by
  unfold readPoint
  rw [words_blank_cons]

theorem isPlain_pointText (h : FinitePoint point) : ∀ c ∈ pointText point, isPlain c = true := by
  intro c hc
  rcases List.mem_append.1 hc with hc | hc
  · exact Bool.or_eq_true_iff.2 (.inl (isFloatChar_reprFloat h.1 c hc))
  · rcases List.mem_cons.1 hc with rfl | hc
    · decide
    · exact Bool.or_eq_true_iff.2 (.inl (isFloatChar_reprFloat h.2 c hc))

/-! ### Rings -/

theorem joinText_singleton (t : Text) : joinText [t] = t := by
  unfold joinText
  rw [List.intercalate_singleton]

theorem joinText_cons_cons (t u : Text) (ts : List Text) :
    joinText (t :: u :: ts) = t ++ ',' :: ' ' :: joinText (u :: ts) := by
  unfold joinText
  rw [List.intercalate_cons_cons, List.append_assoc]
  rfl

/-- Where a character of a joined text comes from. -/
theorem mem_joinText {ts : List Text} {c : Char} (h : c ∈ joinText ts) :
    c = ',' ∨ c = ' ' ∨ ∃ t ∈ ts, c ∈ t := by
  induction ts with
  | nil => cases h
  | cons t ts ih =>
    cases ts with
    | nil =>
      rw [joinText_singleton] at h
      exact .inr (.inr ⟨t, List.mem_cons_self, h⟩)
    | cons u ts =>
      rw [joinText_cons_cons] at h
      rcases List.mem_append.1 h with h | h
      · exact .inr (.inr ⟨t, List.mem_cons_self, h⟩)
      · rcases List.mem_cons.1 h with rfl | h
        · exact .inl rfl
        · rcases List.mem_cons.1 h with rfl | h
          · exact .inr (.inl rfl)
          · rcases ih h with h | h | ⟨v, hv, hc⟩
            · exact .inl h
            · exact .inr (.inl h)
            · exact .inr (.inr ⟨v, List.mem_cons_of_mem t hv, hc⟩)

/-- A comma ends a point. -/
theorem readRing_append_comma {t : Text} (ht : ',' ∉ t) (rest : Text) :
    readRing (t ++ ',' :: rest) =
      (readPoint t).bind fun point => (readRing rest).map (point :: ·) := by
  unfold readRing
  rw [List.splitOn_append_cons_self_of_not_mem ht, List.mapM_cons]
  cases readPoint t with
  | none => rfl
  | some point =>
    cases (rest.splitOn ',').mapM readPoint with
    | none => rfl
    | some points => rfl

theorem readRing_blank_cons (t : Text) : readRing (' ' :: t) = readRing t := by
  have hsplit : (' ' :: t).splitOn ',' = (t.splitOn ',').modifyHead (' ' :: ·) :=
    (List.splitOn_cons_eq_if_modifyHead ' ' t).trans (if_neg (by decide))
  unfold readRing
  rw [hsplit]
  cases t.splitOn ',' with
  | nil => rfl
  | cons first rest =>
    rw [List.modifyHead_cons, List.mapM_cons, List.mapM_cons, readPoint_blank_cons]

/-- **A ring is read back.** -/
theorem readRing_ringText (hne : ring ≠ []) (h : ∀ point ∈ ring, FinitePoint point) :
    readRing (ringText ring) = some ring := by
  have hcomma : ∀ {point}, FinitePoint point → ',' ∉ pointText point := fun hpoint hc =>
    Bool.false_ne_true (isPlain_pointText hpoint _ hc)
  induction ring with
  | nil => exact absurd rfl hne
  | cons point ring ih =>
    have hpoint := h point List.mem_cons_self
    cases ring with
    | nil =>
      have htext : ringText [point] = pointText point := joinText_singleton _
      unfold readRing
      rw [htext, List.splitOn_eq_singleton (hcomma hpoint), List.mapM_cons, List.mapM_nil,
        readPoint_pointText hpoint]
      rfl
    | cons next ring =>
      have hrest := ih (List.cons_ne_nil _ _) fun p hp => h p (List.mem_cons_of_mem point hp)
      have htext : ringText (point :: next :: ring) =
          pointText point ++ ',' :: ' ' :: ringText (next :: ring) := joinText_cons_cons _ _ _
      rw [htext, readRing_append_comma (hcomma hpoint), readPoint_pointText hpoint,
        readRing_blank_cons, hrest]
      rfl

/-! ### Polygons -/

theorem not_mem_ringText (h : ∀ point ∈ ring, FinitePoint point) : ')' ∉ ringText ring := by
  intro hc
  rcases mem_joinText hc with hc | hc | ⟨t, ht, hc⟩
  · exact absurd hc (by decide)
  · exact absurd hc (by decide)
  · obtain ⟨point, hpoint, rfl⟩ := List.mem_map.1 ht
    exact Bool.false_ne_true (isPlain_pointText (h point hpoint) _ hc)

/-- The text of a ring ends at its parenthesis. -/
theorem takeWhile_ringText (h : ∀ point ∈ ring, FinitePoint point) (t : Text) :
    (ringText ring ++ ')' :: t).takeWhile (· ≠ ')') = ringText ring ∧
      (ringText ring ++ ')' :: t).dropWhile (· ≠ ')') = ')' :: t := by
  have hall : ∀ c ∈ ringText ring, decide (c ≠ ')') = true := by
    intro c hc
    refine decide_eq_true ?_
    rintro rfl
    exact not_mem_ringText h hc
  constructor
  · rw [List.takeWhile_append_of_pos hall, List.takeWhile_cons_of_neg (by decide), List.append_nil]
  · rw [List.dropWhile_append_of_pos hall, List.dropWhile_cons_of_neg (by decide)]

/-- The parts are found as they were written. -/
theorem readParts_joinText {rings : List (List LonLat)} (hne : rings ≠ [])
    (h : ∀ ring ∈ rings, ∀ point ∈ ring, FinitePoint point) {n : Nat} (hn : rings.length ≤ n) :
    readParts n (joinText (rings.map partText)) = some (rings.map ringText) := by
  induction rings generalizing n with
  | nil => exact absurd rfl hne
  | cons ring rings ih =>
    obtain ⟨n, rfl⟩ : ∃ m, n = m + 1 := ⟨n - 1, by rw [List.length_cons] at hn; omega⟩
    have hring := h ring List.mem_cons_self
    cases rings with
    | nil =>
      obtain ⟨htake, hdrop⟩ := takeWhile_ringText hring [')']
      have htext : joinText ([ring].map partText) = '(' :: '(' :: (ringText ring ++ [')', ')']) :=
        joinText_singleton _
      rw [htext, readParts, htake, hdrop]
      rfl
    | cons next rings =>
      have hrest := ih (List.cons_ne_nil _ _)
        (fun r hr => h r (List.mem_cons_of_mem ring hr))
        (by simpa only [List.length_cons, Nat.add_le_add_iff_right] using hn)
      have htext : joinText ((ring :: next :: rings).map partText) =
          '(' :: '(' :: (ringText ring ++
            ')' :: ')' :: ',' :: ' ' :: joinText ((next :: rings).map partText)) := by
        rw [List.map_cons, List.map_cons, joinText_cons_cons, partText, List.cons_append,
          List.cons_append, List.append_assoc]
        rfl
      obtain ⟨htake, hdrop⟩ := takeWhile_ringText hring
        (')' :: ',' :: ' ' :: joinText ((next :: rings).map partText))
      rw [htext, readParts, htake, hdrop]
      show (readParts n _).map _ = _
      rw [hrest]
      rfl

theorem readPrefix_append (before t : Text) : readPrefix before (before ++ t) = some t := by
  unfold readPrefix
  rw [if_pos (List.isPrefixOf_iff_prefix.2 (List.prefix_append before t)), List.drop_left]

/-- **A polygon is read back.** -/
theorem readPolygon_polygonWkt (hne : ring ≠ []) (h : ∀ point ∈ ring, FinitePoint point) :
    readPolygon (polygonWkt ring) = some ring := by
  have hparts : readParts 1 (partText ring) = some [ringText ring] := by
    have hread := @readParts_joinText [ring] (List.cons_ne_nil _ _)
      (fun r hr => List.mem_singleton.1 hr ▸ h) 1 (Nat.le_refl 1)
    have htext : joinText ([ring].map partText) = partText ring := joinText_singleton _
    rwa [htext] at hread
  unfold readPolygon polygonWkt
  rw [readPrefix_append, Option.bind_some, hparts]
  exact readRing_ringText hne h

theorem length_le_joinText (rings : List (List LonLat)) :
    rings.length ≤ (joinText (rings.map partText)).length := by
  induction rings with
  | nil => exact Nat.le_refl 0
  | cons ring rings ih =>
    cases rings with
    | nil =>
      have htext : joinText ([ring].map partText) = partText ring := joinText_singleton _
      rw [htext]
      exact Nat.succ_le_succ (Nat.zero_le _)
    | cons next rings =>
      rw [List.map_cons] at ih
      rw [List.map_cons, List.map_cons, joinText_cons_cons, List.length_append, List.length_cons]
      simp only [List.length_cons] at ih ⊢
      omega

/-- **Polygons are read back.** -/
theorem readMultipolygon_toMultipolygon {rings : List (List LonLat)} (hne : rings ≠ [])
    (hrings : ∀ ring ∈ rings, ring ≠ [])
    (h : ∀ ring ∈ rings, ∀ point ∈ ring, FinitePoint point) :
    readMultipolygon (toMultipolygon rings) = some rings := by
  have hlast : (joinText (rings.map partText) ++ [')']).getLast? = some ')' :=
    List.getLast?_concat
  have hdrop : (joinText (rings.map partText) ++ [')']).dropLast = joinText (rings.map partText) :=
    List.dropLast_concat
  have hlength : rings.length ≤ (joinText (rings.map partText) ++ [')']).length := by
    have hle := length_le_joinText rings
    rw [List.length_append]
    omega
  -- Each part is read as the ring it was written from.
  have hread : ∀ rings : List (List LonLat), (∀ ring ∈ rings, ring ≠ []) →
      (∀ ring ∈ rings, ∀ point ∈ ring, FinitePoint point) →
      (rings.map ringText).mapM readRing = some rings := by
    intro rings
    induction rings with
    | nil => exact fun _ _ => rfl
    | cons ring rings ih =>
      intro hrings h
      rw [List.map_cons, List.mapM_cons,
        readRing_ringText (hrings ring List.mem_cons_self) (h ring List.mem_cons_self),
        ih (fun r hr => hrings r (List.mem_cons_of_mem ring hr))
          fun r hr => h r (List.mem_cons_of_mem ring hr)]
      rfl
  unfold readMultipolygon toMultipolygon
  rw [readPrefix_append, Option.bind_some, if_pos hlast, hdrop, readParts_joinText hne h hlength]
  exact hread rings hrings h

end

end Wkt

end Common

end RealEstate
