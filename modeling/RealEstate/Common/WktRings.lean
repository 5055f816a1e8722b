import RealEstate.Common.Wkt

/-!
# Reading rings back from a text (`common/geo.py`)

A geometry that was just assigned is still the text that `to_multipolygon` wrote. Its rings are
cut out at the parentheses and commas between them.

- `ringsFromWkt`: the parser; `none` is a `ValueError`.
- `parseChunk_partText`: one ring is read from what its brackets leave of it.
- `ringsFromWkt_toMultipolygon`: the rings that were written are read.
-/

namespace RealEstate

namespace Common

namespace WktRings

open Systems Geo Wkt

/-- `wkt[wkt.index("(") + 1 : wkt.rindex(")")]`. -/
def innerText (wkt : Text) : Option Text :=
  if '(' ∈ wkt ∧ ')' ∈ wkt then some (rpartition ')' (partition '(' wkt).2.2).1 else none

/-- `chunk.strip().lstrip("(").rstrip(")").strip()`. -/
def chunkCoords (chunk : Text) : Text :=
  strip (rstrip (· = ')') ((strip chunk).dropWhile (· = '(')))

/-- One round of the loop over the chunks; a pair is two numbers. -/
def parseChunk (chunk : Text) : Option (List LonLat) :=
  ((chunkCoords chunk).splitOn ',').mapM readPoint

/-- `_rings_from_wkt`. -/
def ringsFromWkt (wkt : Text) : Option (List (List LonLat)) :=
  (innerText wkt).bind fun inner => (splitText ")),".toList inner).mapM parseChunk

section

variable {ring : List LonLat} {rings : List (List LonLat)}

/-! ### The ends of a ring -/

theorem head?_joinText (t : Text) (ts : List Text) (ht : t ≠ []) :
    (joinText (t :: ts)).head? = t.head? := by
  cases ts with
  | nil => rw [joinText_singleton]
  | cons u ts => rw [joinText_cons_cons, List.head?_append_of_ne_nil t ht]

theorem getLast?_joinText {ts : List Text} (hts : ts ≠ []) (h : ∀ t ∈ ts, t ≠ []) :
    ∃ t ∈ ts, (joinText ts).getLast? = t.getLast? := by
  induction ts with
  | nil => exact absurd rfl hts
  | cons t ts ih =>
    cases ts with
    | nil => exact ⟨t, List.mem_cons_self, by rw [joinText_singleton]⟩
    | cons u ts =>
      obtain ⟨v, hv, hlast⟩ := ih (List.cons_ne_nil _ _) fun w hw => h w (List.mem_cons_of_mem t hw)
      refine ⟨v, List.mem_cons_of_mem t hv, ?_⟩
      have hne : (joinText (u :: ts)).getLast? ≠ none := by
        rw [hlast]
        exact fun hnone => h v (List.mem_cons_of_mem t hv) (List.getLast?_eq_none_iff.1 hnone)
      rw [joinText_cons_cons, ← hlast, List.getLast?_append]
      rw [List.getLast?_cons_cons, List.getLast?_cons]
      cases hu : (joinText (u :: ts)).getLast? with
      | none => exact absurd hu hne
      | some c => rfl

/-- A point begins and ends with a character of a float. -/
theorem ends_pointText {point : LonLat} (h : FinitePoint point) :
    (∃ c, (pointText point).head? = some c ∧ isFloatChar c = true) ∧
      ∃ c, (pointText point).getLast? = some c ∧ isFloatChar c = true := by
  constructor
  · obtain ⟨c, t, hlon⟩ := List.exists_cons_of_ne_nil (reprFloat_ne_nil h.1)
    refine ⟨c, ?_, isFloatChar_reprFloat h.1 c (hlon ▸ List.mem_cons_self)⟩
    rw [pointText, hlon]
    rfl
  · have hlast := List.getLast?_eq_some_getLast (reprFloat_ne_nil h.2)
    refine ⟨_, ?_, isFloatChar_reprFloat h.2 _ (List.getLast_mem (reprFloat_ne_nil h.2))⟩
    rw [pointText, List.getLast?_append, List.getLast?_cons, hlast]
    rfl

/-- The text of a ring begins and ends with a digit or a sign. -/
theorem ends_ringText (hne : ring ≠ []) (h : ∀ point ∈ ring, FinitePoint point) :
    (∃ c, (ringText ring).head? = some c ∧ isFloatChar c = true) ∧
      ∃ c, (ringText ring).getLast? = some c ∧ isFloatChar c = true := by
  have hnil : ∀ t ∈ ring.map pointText, t ≠ [] := by
    intro t ht hnil
    obtain ⟨point, hpoint, rfl⟩ := List.mem_map.1 ht
    obtain ⟨⟨c, hc, -⟩, -⟩ := ends_pointText (h point hpoint)
    rw [hnil] at hc
    cases hc
  constructor
  · obtain ⟨point, rest, rfl⟩ := List.exists_cons_of_ne_nil hne
    have hpoint := h point List.mem_cons_self
    have hhead : (ringText (point :: rest)).head? = (pointText point).head? :=
      head?_joinText _ _ (hnil _ List.mem_cons_self)
    rw [hhead]
    exact (ends_pointText hpoint).1
  · obtain ⟨t, ht, hlast⟩ := getLast?_joinText (List.map_eq_nil_iff.not.2 hne) hnil
    obtain ⟨point, hpoint, rfl⟩ := List.mem_map.1 ht
    have hring : (ringText ring).getLast? = (pointText point).getLast? := hlast
    rw [hring]
    exact (ends_pointText (h point hpoint)).2

/-! ### One ring -/

/-- What separates a ring from its neighbours is stripped. -/
theorem chunkCoords_ringText (hne : ring ≠ []) (h : ∀ point ∈ ring, FinitePoint point)
    {close : Text} (hclose : close = [] ∨ close = [')', ')']) :
    chunkCoords ('(' :: '(' :: (ringText ring ++ close)) = ringText ring := by
  obtain ⟨⟨first, hfirst, hfirst'⟩, last, hlast, hlast'⟩ := ends_ringText hne h
  -- No character of a number is stripped.
  have hplain : ∀ {c : Char}, isFloatChar c = true → isSpace c = false ∧ c ≠ '(' ∧ c ≠ ')' := by
    intro c hc
    refine ⟨isSpace_of_isFloatChar hc, ?_, ?_⟩
    · rintro rfl
      exact absurd hc (by decide)
    · rintro rfl
      exact absurd hc (by decide)
  have hspace : strip (ringText ring) = ringText ring := by
    refine strip_of_ends ?_ ?_
    · rw [hfirst]
      exact (hplain hfirst').1
    · rw [hlast]
      exact (hplain hlast').1
  have hopen : ('(' :: '(' :: (ringText ring ++ close)).dropWhile (· = '(') =
      ringText ring ++ close := by
    rw [List.dropWhile_cons_of_pos (by decide), List.dropWhile_cons_of_pos (by decide)]
    refine dropWhile_of_head ?_
    rw [List.head?_append, hfirst]
    exact decide_eq_false (hplain hfirst').2.1
  have hclosed : rstrip (· = ')') (ringText ring) = ringText ring := by
    refine rstrip_of_last ?_
    rw [hlast]
    exact decide_eq_false (hplain hlast').2.2
  have hleft : isSpace '(' = false := by decide
  have hright : isSpace ')' = false := by decide
  unfold chunkCoords
  rcases hclose with rfl | rfl
  · -- All chunks but the last were cut before their parentheses.
    have hstrip : strip ('(' :: '(' :: (ringText ring ++ [])) =
        '(' :: '(' :: (ringText ring ++ []) := by
      refine strip_of_ends hleft ?_
      rw [List.append_nil, List.getLast?_cons, List.getLast?_cons, hlast]
      exact (hplain hlast').1
    rw [hstrip, hopen, List.append_nil, hclosed, hspace]
  · -- The last chunk still has them, and they are stripped.
    have hstrip : strip ('(' :: '(' :: (ringText ring ++ [')', ')'])) =
        '(' :: '(' :: (ringText ring ++ [')', ')']) := by
      refine strip_of_ends hleft ?_
      rw [List.getLast?_cons, List.getLast?_cons, List.getLast?_append]
      exact hright
    have hdrop : rstrip (· = ')') (ringText ring ++ [')', ')']) =
        rstrip (· = ')') (ringText ring) := by
      unfold rstrip
      rw [List.reverse_append]
      rfl
    rw [hstrip, hopen, hdrop, hclosed, hspace]

/-- One chunk of the split is parsed as its ring. -/
theorem parseChunk_ringText (hne : ring ≠ []) (h : ∀ point ∈ ring, FinitePoint point)
    {close : Text} (hclose : close = [] ∨ close = [')', ')']) :
    parseChunk ('(' :: '(' :: (ringText ring ++ close)) = some ring := by
  unfold parseChunk
  rw [chunkCoords_ringText hne h hclose]
  exact readRing_ringText hne h

theorem strip_blank_cons (t : Text) : strip (' ' :: t) = strip t := by
  unfold strip
  rw [List.dropWhile_cons_of_pos (by decide)]

theorem parseChunk_blank_cons (t : Text) : parseChunk (' ' :: t) = parseChunk t := by
  unfold parseChunk chunkCoords
  rw [strip_blank_cons]

/-! ### All rings -/

/-- The chunks of a text are read one by one, whether a blank precedes them or not. -/
theorem mapM_parseChunk_joinText (hne : rings ≠ []) (hrings : ∀ ring ∈ rings, ring ≠ [])
    (h : ∀ ring ∈ rings, ∀ point ∈ ring, FinitePoint point) {lead : Text}
    (hlead : lead = [] ∨ lead = [' ']) :
    (splitText ")),".toList (lead ++ joinText (rings.map partText))).mapM parseChunk =
      some rings := by
  induction rings generalizing lead with
  | nil => exact absurd rfl hne
  | cons ring rings ih =>
    have hring := h ring List.mem_cons_self
    -- The separator begins with a parenthesis, which stands nowhere within a chunk.
    have hclose : ')' ∉ lead ++ '(' :: '(' :: ringText ring := by
      have hopen : ')' ∉ '(' :: '(' :: ringText ring := by
        intro hc
        rcases List.mem_cons.1 hc with hc | hc
        · exact absurd hc (by decide)
        · rcases List.mem_cons.1 hc with hc | hc
          · exact absurd hc (by decide)
          · exact not_mem_ringText hring hc
      intro hc
      rcases List.mem_append.1 hc with hc | hc
      · rcases hlead with rfl | rfl
        · cases hc
        · exact absurd (List.mem_singleton.1 hc) (by decide)
      · exact hopen hc
    -- Whatever is left of the parentheses, and with the blank after a comma or without.
    have hparse : ∀ close : Text, close = [] ∨ close = [')', ')'] →
        parseChunk (lead ++ '(' :: '(' :: (ringText ring ++ close)) = some ring := by
      intro close hends
      have hchunk := parseChunk_ringText (hrings ring List.mem_cons_self) hring hends
      rcases hlead with rfl | rfl
      · exact hchunk
      · exact (parseChunk_blank_cons _).trans hchunk
    cases rings with
    | nil =>
      have htext : lead ++ joinText ([ring].map partText) =
          (lead ++ '(' :: '(' :: ringText ring) ++ [')', ')'] := by
        rw [List.append_assoc]
        exact congrArg (lead ++ ·) (joinText_singleton _)
      have hchunks := @splitText_of_length ')' [')', ','] _ [')', ')'] hclose (by decide)
      have hlast := hparse [')', ')'] (.inr rfl)
      have hassoc : lead ++ '(' :: '(' :: (ringText ring ++ [')', ')']) =
          (lead ++ '(' :: '(' :: ringText ring) ++ [')', ')'] := by
        rw [List.append_assoc]
        rfl
      rw [hassoc] at hlast
      rw [htext]
      show (splitText (')' :: [')', ',']) _).mapM parseChunk = _
      rw [hchunks, List.mapM_cons, List.mapM_nil, hlast]
      rfl
    | cons next rings =>
      have hrest := @ih (List.cons_ne_nil _ _)
        (fun r hr => hrings r (List.mem_cons_of_mem ring hr))
        (fun r hr => h r (List.mem_cons_of_mem ring hr)) [' '] (.inr rfl)
      have htext : lead ++ joinText ((ring :: next :: rings).map partText) =
          (lead ++ '(' :: '(' :: ringText ring) ++
            ')' :: ([')', ','] ++ ' ' :: joinText ((next :: rings).map partText)) := by
        rw [List.map_cons, List.map_cons, joinText_cons_cons, partText, List.cons_append,
          List.cons_append, List.append_assoc, List.append_assoc]
        rfl
      have hfirst := hparse [] (.inl rfl)
      rw [List.append_nil] at hfirst
      rw [htext]
      show (splitText (')' :: [')', ',']) _).mapM parseChunk = _
      have hrest' : (splitText (')' :: [')', ','])
          (' ' :: joinText ((next :: rings).map partText))).mapM parseChunk =
            some (next :: rings) := hrest
      rw [splitText_append hclose, List.mapM_cons, hfirst, hrest']
      rfl

/-- **What was written is read**: the rings of a text of `to_multipolygon` are those it was
written of. -/
theorem ringsFromWkt_toMultipolygon (hne : rings ≠ []) (hrings : ∀ ring ∈ rings, ring ≠ [])
    (h : ∀ ring ∈ rings, ∀ point ∈ ring, FinitePoint point) :
    ringsFromWkt (toMultipolygon rings) = some rings := by
  have hopen : '(' ∉ "MULTIPOLYGON".toList := by decide
  have htext : toMultipolygon rings =
      "MULTIPOLYGON".toList ++ '(' :: (joinText (rings.map partText) ++ ')' :: []) := rfl
  have hinner : innerText (toMultipolygon rings) = some (joinText (rings.map partText)) := by
    have hleft : '(' ∈ toMultipolygon rings := List.mem_append_left _ (by decide)
    have hright : ')' ∈ toMultipolygon rings := List.mem_append_right _
      (List.mem_append_right _ List.mem_cons_self)
    unfold innerText
    rw [if_pos ⟨hleft, hright⟩, htext, partition_append hopen,
      rpartition_append List.not_mem_nil]
  unfold ringsFromWkt
  rw [hinner, Option.bind_some]
  exact @mapM_parseChunk_joinText rings hne hrings h [] (.inl rfl)

/-- Two triangles; a point of the second is far out, another one close to the axis. -/
def triangles : List (List LonLat) :=
  [[(0, 0), (0x3ff0000000000000, 0), (0, 0x3ff0000000000000)],
    [(0xbff8000000000000, 0), (0x4415af1d78b58c40, 0), (0, 0x3eb0c6f7a0b5ed8d)]]

theorem ringsFromWkt_triangles : ringsFromWkt (toMultipolygon triangles) = some triangles := by
  have hrings : (triangles.all fun ring => !ring.isEmpty) = true := by decide
  have hfinite : (triangles.all fun ring => ring.all fun point => FinitePoint point) = true := by
    decide
  refine ringsFromWkt_toMultipolygon (List.cons_ne_nil _ _) (fun ring hring hnil => ?_)
    fun ring hring point hpoint => ?_
  · have hsome := List.all_eq_true.1 hrings ring hring
    rw [hnil] at hsome
    cases hsome
  · have hring := List.all_eq_true.1 hfinite ring hring
    exact of_decide_eq_true (List.all_eq_true.1 hring point hpoint)

end

end WktRings

end Common

end RealEstate
