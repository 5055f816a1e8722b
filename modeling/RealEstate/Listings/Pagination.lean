import Mathlib.Algebra.Order.Field.Rat
import Mathlib.Algebra.Order.Ring.Int
import RealEstate.Listings.Search

/-!
# The lists of listings are complete (`modules/listings/repository.py`)

- `publicPlace`, `portalPlace`: the place of a row, in the linear order that an `ORDER BY` means.
- `publicOrders`, `portalOrders`: the conditions past a cursor mean the same order.
- `decodePublicCursor_encode`, `decodePortalCursor_encode`: a row's cursor is its place.
- `lists_complete`: following the cursors of a list yields its rows, each once and in order.
-/

namespace RealEstate

namespace Listings

namespace Search

open RealEstate.Core Systems

/-! ### Places -/

/-- The place of a row of the public search. -/
def publicPlace (sort : SearchSort) (keyset : PublicKeyset) : Bool ×ₗ ℚ ×ₗ ℤ :=
  toLex (!keyset.featured, toLex (toward sort.descending keyset.key, toward true (keyset.id : ℤ)))

/-- Where a row stands in the inventory. -/
def portalPlace (sort : PortalSort) (keyset : PortalKeyset) : ℚ ×ₗ ℤ :=
  toLex (toward sort.descending keyset.key, toward sort.descending (keyset.id : ℤ))

/-- The keyset of a row. -/
def publicKeyset (sort : SearchSort) (row : Listing) : PublicKeyset :=
  ⟨row.featured, sort.key row, row.id⟩

/-- The keyset of a row. -/
def portalKeyset (sort : PortalSort) (row : Listing) : PortalKeyset := ⟨sort.key row, row.id⟩

theorem past_id {descending : Bool} {a b : UUID} :
    past descending b a = true ↔
      toward descending (a : ℤ) < toward descending (b : ℤ) := by
  rw [← past_iff]
  cases descending <;> simp [past]

/-- The keyset condition says: later in the order. -/
theorem pastPublic_iff {sort : SearchSort} {after : PublicKeyset} {row : Listing} :
    pastPublic sort after row = true ↔
      publicPlace sort after < publicPlace sort (publicKeyset sort row) := by
  have hid : row.id < after.id ↔ toward true (after.id : ℤ) < toward true (row.id : ℤ) := by
    rw [← past_id]
    simp [past]
  have hkey : after.key = sort.key row ↔ sort.key row = after.key := eq_comm
  simp only [pastPublic, publicPlace, publicKeyset, Prod.Lex.toLex_lt_toLex, toward_inj, ← past_iff,
    ← hid, hkey]
  cases after.featured <;> cases row.featured <;> simp

/-- The order is that of places. -/
theorem publicOrder_iff {sort : SearchSort} {a b : Listing} :
    publicOrder sort a b ↔
      publicPlace sort (publicKeyset sort a) ≤ publicPlace sort (publicKeyset sort b) := by
  have hid : b.id ≤ a.id ↔ toward true (a.id : ℤ) ≤ toward true (b.id : ℤ) :=
    Int.ofNat_le.symm.trans neg_le_neg_iff.symm
  simp only [publicOrder, publicPlace, publicKeyset, Prod.Lex.toLex_le_toLex, toward_inj,
    ← past_iff, hid]
  cases a.featured <;> cases b.featured <;> simp

theorem pastPortal_iff {sort : PortalSort} {after : PortalKeyset} {row : Listing} :
    pastPortal sort after row = true ↔
      portalPlace sort after < portalPlace sort (portalKeyset sort row) := by
  have hkey : after.key = sort.key row ↔ sort.key row = after.key := eq_comm
  simp only [pastPortal, portalPlace, portalKeyset, Prod.Lex.toLex_lt_toLex, toward_inj, ← past_id,
    hkey, Bool.or_eq_true, Bool.and_eq_true, decide_eq_true_eq, past_iff]

theorem portalOrder_iff {sort : PortalSort} {a b : Listing} :
    portalOrder sort a b ↔
      portalPlace sort (portalKeyset sort a) ≤ portalPlace sort (portalKeyset sort b) := by
  have hid : (if sort.descending then b.id ≤ a.id else a.id ≤ b.id) ↔
      toward sort.descending (a.id : ℤ) ≤ toward sort.descending (b.id : ℤ) := by
    cases sort.descending with
    | true => exact Int.ofNat_le.symm.trans neg_le_neg_iff.symm
    | false => exact Int.ofNat_le.symm
  simp only [portalOrder, portalPlace, portalKeyset, Prod.Lex.toLex_le_toLex, toward_inj,
    ← past_iff, hid]

/-- The search's order and its condition agree. -/
theorem publicOrders (sort : SearchSort) :
    Orders (fun row => publicPlace sort (publicKeyset sort row)) (publicOrder sort)
      (fun a b => pastPublic sort (publicKeyset sort a) b) :=
  ⟨publicOrder_iff, pastPublic_iff⟩

/-- So do those of the portal. -/
theorem portalOrders (sort : PortalSort) :
    Orders (fun row => portalPlace sort (portalKeyset sort row)) (portalOrder sort)
      (fun a b => pastPortal sort (portalKeyset sort a) b) :=
  ⟨portalOrder_iff, pastPortal_iff⟩

/-- Rows with different ids have different places. -/
theorem nodup_places {P : Type} {place : Listing → P} (table : ListingTable) (p : Listing → Bool)
    (hplace : ∀ {a b}, place a = place b → a.id = b.id) :
    ((table.rows.filter p).map place).Nodup := by
  have hids : ((table.rows.filter p).map Listing.id).Nodup :=
    table.ids.sublist (List.filter_sublist.map _)
  rw [List.Nodup, List.pairwise_map] at hids ⊢
  exact hids.imp fun hne hsame => hne (hplace hsame)

/-! ### Cursors -/

/-- A time, as the number that is compared. -/
theorem number_of_timestamp (t : Timestamp) : (Key.datetime t.val).number = some t.number := by
  rw [Key.number, Datetime.instant, t.property]
  simp [Timestamp.number]

theorem number_of_amount {precision : Nat} (a : Amount precision) :
    (Key.decimal a.toDecimal).number = some a.number := by
  have hcast : (a.hundredths.natAbs : ℚ) = ((a.hundredths.natAbs : ℤ) : ℚ) :=
    (Int.cast_natCast _).symm
  have hsign : (if decide (a.hundredths < 0) = true then -(a.hundredths.natAbs : ℚ)
      else a.hundredths.natAbs) = a.hundredths := by
    split
    · next hneg =>
      rw [hcast, Int.ofNat_natAbs_of_nonpos (Int.le_of_lt (of_decide_eq_true hneg)), Int.cast_neg,
        neg_neg]
    · next hpos =>
      rw [hcast, Int.ofNat_natAbs_of_nonneg (Int.not_lt.1 fun h => hpos (decide_eq_true h))]
  have hscale : (10 : ℚ) ^ (-(-2 : ℤ)).toNat = 100 := by decide
  rw [Key.number, Amount.toDecimal, Decimal.toRat]
  simp only [hsign, hscale, Amount.number]
  rfl

theorem parseDecimal_amount {precision : Nat} (hprecision : precision ≤ 14) (a : Amount precision) :
    parseDecimal (decimalText a.toDecimal) = some a.toDecimal := by
  have hlength : 1 ≤ (natText a.hundredths.natAbs).length :=
    List.length_pos_iff.2 (natText_ne_nil _)
  have hlong : (natText a.hundredths.natAbs).length ≤ 14 :=
    length_natText_le (by decide)
      (Nat.lt_of_lt_of_le a.lt (Nat.pow_le_pow_right (by decide) hprecision))
  refine parseDecimal_decimalText (by decide) (by omega) ?_ (by decide)
  unfold maxExponent
  omega

theorem toKey_isoformat (t : Timestamp) :
    toKey true (.str (isoformat t.val.val)) = .ok (.datetime t.val) := by
  rw [toKey, if_pos rfl, datetimeOf, fromisoformat_isoformat t.property]
  rfl

/-- The key of a price cursor. -/
theorem toKey_amount {precision : Nat} (hprecision : precision ≤ 14) (a : Amount precision) :
    toKey false (.str (decimalText a.toDecimal)) = .ok (.decimal a.toDecimal) := by
  rw [toKey, if_neg Bool.false_ne_true, decimalOf, parseDecimal_amount hprecision]
  rfl

/-- A missing area counts as none, in the cursor as in the column's order. -/
theorem toKey_areaText (area : Option (Amount 10)) :
    ∃ key, toKey false (.str (areaText area)) = .ok key ∧
      key.number = some (area.elim 0 Amount.number) := by
  have hzero : toKey false (.str (decimalText (.finite false 0 0))) =
      .ok (.decimal (.finite false 0 0)) := by
    rw [toKey, if_neg Bool.false_ne_true, decimalOf,
      parseDecimal_decimalText (by decide) (by decide) (by decide) (by decide)]
    rfl
  have hnumber : (Key.decimal (.finite false 0 0)).number = some 0 := by decide +kernel
  cases area with
  | none => exact ⟨_, hzero, hnumber⟩
  | some a =>
    by_cases ha : a.hundredths = 0
    · refine ⟨.decimal (.finite false 0 0), ?_, ?_⟩
      · rw [areaText, Option.filter_some, decide_eq_false (not_not.2 ha)]
        exact hzero
      · rw [hnumber, Option.elim_some, Amount.number, ha, Int.cast_zero, zero_div]
    · refine ⟨.decimal a.toDecimal, ?_, number_of_amount a⟩
      rw [areaText, Option.filter_some, decide_eq_true ha]
      exact toKey_amount (by decide) a

/-- The key in a cursor of the search is the row's. -/
theorem toKey_keyText {sort : SearchSort} {last : Listing} {t : Text}
    (h : sort.keyText last = some t) :
    ∃ key, toKey (sort = .newest) (.str t) = .ok key ∧ key.number = some (sort.key last) := by
  cases sort with
  | newest =>
    obtain ⟨published, hpublished, rfl⟩ := Option.map_eq_some_iff.1 h
    refine ⟨_, toKey_isoformat published, ?_⟩
    rw [number_of_timestamp, SearchSort.key, hpublished, Option.elim_some]
  | priceAsc | priceDesc =>
    cases h
    exact ⟨_, toKey_amount (by decide) last.price, number_of_amount last.price⟩
  | areaAsc | areaDesc =>
    cases h
    exact toKey_areaText last.areaBuilt

/-- So is the key in a cursor of the portal. -/
theorem toKey_portalText (sort : PortalSort) (last : Listing) :
    ∃ key, toKey (sort = .newest ∨ sort = .updated) (.str (sort.keyText last)) = .ok key ∧
      key.number = some (sort.key last) := by
  cases sort with
  | newest => exact ⟨_, toKey_isoformat last.createdAt, number_of_timestamp last.createdAt⟩
  | updated => exact ⟨_, toKey_isoformat last.updatedAt, number_of_timestamp last.updatedAt⟩
  | priceAsc | priceDesc =>
    exact ⟨_, toKey_amount (by decide) last.price, number_of_amount last.price⟩

theorem uuidOf_uuidText (u : UUID) : uuidOf (.str (uuidText u)) = .ok u := by
  rw [uuidOf, parseUuid_uuidText]

/-- A cursor of the same sort. -/
theorem checkSort_eq {value : String} {values : CursorFields}
    (h : fieldOf "sort" values = .ok (.str value.toList)) : checkSort value values = .ok () := by
  have hsame : sameSort value (.str value.toList) = true := decide_eq_true rfl
  rw [checkSort, h]
  show (if sameSort value (.str value.toList) = true then _ else _) = _
  rw [if_pos hsame]
  rfl

section

variable {values : CursorFields} {t : Text} {id : UUID} {key : Key}
  (hkey : fieldOf "key" values = .ok (.str t))
  (hid : fieldOf "id" values = .ok (.str (uuidText id)))
include hkey hid

/-- The fields of a public cursor. -/
theorem publicFields_eq {sort : SearchSort} {featured : Bool}
    (hfeatured : fieldOf "featured" values = .ok (.bool featured))
    (h : toKey (sort = .newest) (.str t) = .ok key) :
    publicFields sort values = .ok (featured, key, id) := by
  simp only [publicFields, hkey, hfeatured, hid, h, uuidOf_uuidText, bind, Except.bind, pure,
    Except.pure, boolOf]

/-- The fields of an inventory cursor. -/
theorem portalFields_eq {sort : PortalSort}
    (h : toKey (sort = .newest ∨ sort = .updated) (.str t) = .ok key) :
    portalFields sort values = .ok (key, id) := by
  simp only [portalFields, hkey, hid, h, uuidOf_uuidText, bind, Except.bind, pure, Except.pure]

end

/-! ### Requests -/

theorem toOption_respond (encode : Listing → Option Text) (size : Nat) (rows : List Listing) :
    (respond encode size rows).toOption = cut encode size rows := by
  rw [respond]
  cases cut encode size rows <;> rfl

theorem map_fst_toOption {α : Type} (e : Except ListError α) (n : Nat) :
    (e.bind fun a => .ok (a, n)).toOption.map Prod.fst = e.toOption := by
  cases e <;> rfl

theorem bindKey_eq {key : Key} {n : ℚ} (h : key.number = some n) : bindKey key = .ok n := by
  rw [bindKey, h]

section

variable {depth : Nat} (hdepth : 0 < depth)
include hdepth

/-- **A row's cursor is its place** in the search. -/
theorem decodePublicCursor_encode {sort : SearchSort} {last : Listing} {cursor : Text}
    (h : encodePublicCursor sort last = some cursor) :
    ∃ key, decodePublicCursor depth cursor sort = .ok (last.featured, key, last.id) ∧
      key.number = some (sort.key last) := by
  obtain ⟨t, ht, rfl⟩ := Option.map_eq_some_iff.1 h
  obtain ⟨key, hkey, hnumber⟩ := toKey_keyText ht
  refine ⟨key, ?_, hnumber⟩
  have hdecode : decodeCursor depth (encodeCursor (publicValues sort last t)) = .ok _ :=
    decodeCursor_encodeCursor hdepth
      (show ["sort".toList, "featured".toList, "key".toList, "id".toList].Nodup by decide)
  rw [decodePublicCursor, hdecode]
  show ((checkSort sort.value _).bind fun _ => orMalformed caught (publicFields sort _)) = _
  rw [checkSort_eq rfl, publicFields_eq rfl rfl rfl hkey]
  rfl

/-- And in the portal. -/
theorem decodePortalCursor_encode (sort : PortalSort) (last : Listing) :
    ∃ key, decodePortalCursor depth (encodePortalCursor sort last) sort = .ok (key, last.id) ∧
      key.number = some (sort.key last) := by
  obtain ⟨key, hkey, hnumber⟩ := toKey_portalText sort last
  refine ⟨key, ?_, hnumber⟩
  have hdecode : decodeCursor depth (encodeCursor (portalValues sort last (sort.keyText last))) =
      .ok _ :=
    decodeCursor_encodeCursor hdepth
      (show ["sort".toList, "key".toList, "id".toList].Nodup by decide)
  rw [decodePortalCursor, encodePortalCursor, hdecode]
  show ((checkSort sort.value _).bind fun _ => orMalformed caught (portalFields sort _)) = _
  rw [checkSort_eq rfl, portalFields_eq rfl rfl hkey]
  rfl

variable (db : Postgres) (pyLower : String → String) (table : ListingTable) (tenantId : Uuid)
  (limit : Option Int)

omit hdepth in
/-- The first page: the rows from the start. -/
theorem listPublic_first {filters : PublicListingFilters} {locale : String}
    {publishedSince : Option Timestamp} {sort : SearchSort} {order : OrderBy (publicOrder sort)} :
    (listPublic db pyLower depth table tenantId filters locale sort order limit publishedSince
        none).toOption =
      cut (encodePublicCursor sort) (clampLimit limit)
        (order.page (published db pyLower table tenantId filters locale publishedSince)
          (clampLimit limit + 1)) := by
  rw [← toOption_respond]
  show (respond _ _ (order.page (List.filter (fun _ => true) _) _)).toOption = _
  rw [List.filter_true]

/-- The page at a row's cursor: the rows past the row. -/
theorem listPublic_cursor {filters : PublicListingFilters} {locale : String}
    {publishedSince : Option Timestamp} {sort : SearchSort} {order : OrderBy (publicOrder sort)}
    {last : Listing} {cursor : Text} (h : encodePublicCursor sort last = some cursor) :
    (listPublic db pyLower depth table tenantId filters locale sort order limit publishedSince
        (some cursor)).toOption =
      cut (encodePublicCursor sort) (clampLimit limit)
        (order.page ((published db pyLower table tenantId filters locale publishedSince).filter
          (pastPublic sort (publicKeyset sort last))) (clampLimit limit + 1)) := by
  obtain ⟨key, hdecode, hnumber⟩ := decodePublicCursor_encode hdepth h
  have hne : cursor ≠ [] := by
    obtain ⟨t, -, rfl⟩ := Option.map_eq_some_iff.1 h
    exact encodeCursor_ne_nil _
  rw [← toOption_respond]
  simp only [listPublic, afterCursor, Option.filter_some, decide_eq_true hne, if_true, hdecode,
    bindKey_eq hnumber, bind, Except.bind, pure, Except.pure, Option.mapM_some]
  rfl

omit hdepth in
/-- The first page of the inventory. -/
theorem listPortal_first {scopeUserIds : Option (List Uuid)} {status : Option ListingStatus}
    {q : Option String} {sort : PortalSort} {order : OrderBy (portalOrder sort)} :
    (listPortal db pyLower depth table tenantId scopeUserIds status q sort order limit
        none).toOption.map Prod.fst =
      cut (fun last => some (encodePortalCursor sort last)) (clampLimit limit)
        (order.page (inventory db pyLower table tenantId scopeUserIds status q)
          (clampLimit limit + 1)) := by
  rw [← toOption_respond]
  refine (map_fst_toOption _ _).trans ?_
  show (respond _ _ (order.page (List.filter (fun _ => true) _) _)).toOption = _
  rw [List.filter_true]

/-- The page after a row: what is past its place. -/
theorem listPortal_cursor {scopeUserIds : Option (List Uuid)} {status : Option ListingStatus}
    {q : Option String} {sort : PortalSort} {order : OrderBy (portalOrder sort)}
    {last : Listing} :
    (listPortal db pyLower depth table tenantId scopeUserIds status q sort order limit
        (some (encodePortalCursor sort last))).toOption.map Prod.fst =
      cut (fun last => some (encodePortalCursor sort last)) (clampLimit limit)
        (order.page ((inventory db pyLower table tenantId scopeUserIds status q).filter
          (pastPortal sort (portalKeyset sort last))) (clampLimit limit + 1)) := by
  obtain ⟨key, hdecode, hnumber⟩ := decodePortalCursor_encode hdepth sort last
  have hne : encodePortalCursor sort last ≠ [] := encodeCursor_ne_nil _
  rw [← toOption_respond]
  simp only [listPortal, afterCursor, Option.filter_some, decide_eq_true hne, if_true, hdecode,
    bindKey_eq hnumber, bind, Except.bind, pure, Except.pure, Option.mapM_some]
  exact map_fst_toOption _ _

end

/-! ### Completeness -/

theorem status_of_publishedFiltered {db : Postgres} {pyLower : String → String} {tenantId : Uuid}
    {filters : PublicListingFilters} {locale : String} {row : Listing}
    (h : publishedFiltered db pyLower tenantId filters locale row = true) :
    row.status = .published := by
  simp only [publishedFiltered, Bool.and_eq_true, decide_eq_true_eq] at h
  tauto

theorem encodePublicCursor_isSome (sort : SearchSort) {row : Listing}
    (h : row.status = .published) : (encodePublicCursor sort row).isSome := by
  rw [encodePublicCursor, Option.isSome_map]
  cases sort with
  | newest => exact (Option.isSome_map ..).trans (row.published h)
  | priceAsc | priceDesc | areaAsc | areaDesc => rfl

/-- Row `a` comes before row `b` in the search: featured rows first, then by key, then by id. -/
def PublicBefore (sort : SearchSort) (a b : Listing) : Prop :=
  publicPlace sort (publicKeyset sort a) < publicPlace sort (publicKeyset sort b)

/-- Row `a` comes before row `b` in the portal: by key, then by id. -/
def PortalBefore (sort : PortalSort) (a b : Listing) : Prop :=
  portalPlace sort (portalKeyset sort a) < portalPlace sort (portalKeyset sort b)

theorem id_of_place {x y : ℚ} {u v : UUID} {descending : Bool}
    (h : toLex (x, toward descending (u : ℤ)) = toLex (y, toward descending (v : ℤ))) : u = v := by
  have hid := toward_inj.1 (Prod.ext_iff.1 (toLex_inj.1 h)).2
  exact Fin.ext (Int.ofNat_inj.1 hid)

section

variable {depth : Nat} (hdepth : 0 < depth) (db : Postgres) (pyLower : String → String)
  (table : ListingTable) (tenantId : Uuid) (limit : Option Int) {fuel : Nat}
  (hfuel : table.rows.length < fuel)
include hdepth hfuel

/-- The walk of the public search. -/
theorem search_complete (filters : PublicListingFilters) (locale : String)
    (publishedSince : Option Timestamp) (sort : SearchSort) (order : OrderBy (publicOrder sort)) :
    ∃ out, walk (fun cursor => (listPublic db pyLower depth table tenantId filters locale sort
        order limit publishedSince cursor).toOption) fuel none = some out ∧
      out.Perm (published db pyLower table tenantId filters locale publishedSince) ∧
      out.Pairwise (PublicBefore sort) := by
  have hbefore : PublicBefore sort =
      fun a b => pastPublic sort (publicKeyset sort a) b = true := by
    funext a b
    exact propext pastPublic_iff.symm
  rw [hbefore]
  refine (publicOrders sort).walk ?_ order (clampLimit_pos limit) ?_
    (listPublic_first db pyLower table tenantId limit) ?_ ?_
  · exact nodup_places table _ fun h => id_of_place (Prod.ext_iff.1 (toLex_inj.1 h)).2
  · -- A published row carries the time that its cursor names.
    intro row hrow
    refine encodePublicCursor_isSome sort ?_
    have hfiltered := (Bool.and_eq_true ..  ▸ (List.mem_filter.1 hrow).2).1
    exact status_of_publishedFiltered hfiltered
  · intro row _ cursor hcursor
    exact listPublic_cursor hdepth db pyLower table tenantId limit hcursor
  · exact Nat.lt_of_le_of_lt (List.length_filter_le _ _) hfuel

theorem inventory_complete (scopeUserIds : Option (List Uuid)) (status : Option ListingStatus)
    (q : Option String) (sort : PortalSort) (order : OrderBy (portalOrder sort)) :
    ∃ out, walk (fun cursor => (listPortal db pyLower depth table tenantId scopeUserIds status q
        sort order limit cursor).toOption.map Prod.fst) fuel none = some out ∧
      out.Perm (inventory db pyLower table tenantId scopeUserIds status q) ∧
      out.Pairwise (PortalBefore sort) := by
  have hbefore : PortalBefore sort =
      fun a b => pastPortal sort (portalKeyset sort a) b = true := by
    funext a b
    exact propext pastPortal_iff.symm
  rw [hbefore]
  refine (portalOrders sort).walk ?_ order (clampLimit_pos limit) ?_
    (listPortal_first db pyLower table tenantId limit) ?_ ?_
  · exact nodup_places table _ id_of_place
  · intro row _
    rfl
  · intro row _ cursor hcursor
    cases hcursor
    exact listPortal_cursor hdepth db pyLower table tenantId limit
  · exact Nat.lt_of_le_of_lt (List.length_filter_le _ _) hfuel

end

/-- **The lists are complete.** For every table, sort, filter and page size, following the cursors
from the first page on ends, and yields the rows of the list, each once and in the order of the
sort. A row's cursor is read back as its place. -/
theorem lists_complete {depth : Nat} (hdepth : 0 < depth) (db : Postgres)
    (pyLower : String → String) (table : ListingTable) (tenantId : Uuid) (limit : Option Int)
    {fuel : Nat} (hfuel : table.rows.length < fuel) :
    (∀ filters locale publishedSince sort (order : OrderBy (publicOrder sort)),
      ∃ out, walk (fun cursor => (listPublic db pyLower depth table tenantId filters locale sort
          order limit publishedSince cursor).toOption) fuel none = some out ∧
        out.Perm (published db pyLower table tenantId filters locale publishedSince) ∧
        out.Pairwise (PublicBefore sort)) ∧
    (∀ scopeUserIds status q sort (order : OrderBy (portalOrder sort)),
      ∃ out, walk (fun cursor => (listPortal db pyLower depth table tenantId scopeUserIds status q
          sort order limit cursor).toOption.map Prod.fst) fuel none = some out ∧
        out.Perm (inventory db pyLower table tenantId scopeUserIds status q) ∧
        out.Pairwise (PortalBefore sort)) ∧
    (∀ sort row, row.status = .published → ∃ cursor key,
      encodePublicCursor sort row = some cursor ∧
        decodePublicCursor depth cursor sort = .ok (row.featured, key, row.id) ∧
        key.number = some (sort.key row)) ∧
    (∀ sort row, ∃ key,
      decodePortalCursor depth (encodePortalCursor sort row) sort = .ok (key, row.id) ∧
        key.number = some (sort.key row)) := by
  refine ⟨search_complete hdepth db pyLower table tenantId limit hfuel,
    inventory_complete hdepth db pyLower table tenantId limit hfuel, ?_,
    decodePortalCursor_encode hdepth⟩
  -- The cursor of a row on the list has a key, since what is sorted by is there.
  intro sort row hrow
  obtain ⟨cursor, hcursor⟩ := Option.isSome_iff_exists.1 (encodePublicCursor_isSome sort hrow)
  obtain ⟨key, hdecode, hnumber⟩ := decodePublicCursor_encode hdepth hcursor
  exact ⟨cursor, key, hcursor, hdecode, hnumber⟩

/-- Two villas at one price, a page each: both are listed, the featured one first. -/
theorem lists_complete_two :
    let noon : Timestamp := ⟨⟨⟨2026, 1, 31, 12, 0, 0, 0, some 0⟩, by decide⟩, rfl⟩
    let villa (id : UUID) (featured : Bool) : Listing := {
      id
      tenantId := 1
      referenceCode := "AGE-2026-00001"
      status := .published
      purpose := .sale
      propertyType := .villa
      title := []
      price := ⟨1500000000, by decide⟩
      featured
      publishedAt := some noon
      createdAt := noon
      updatedAt := noon
      published := fun _ => rfl }
    let table : ListingTable := ⟨[villa 1 true, villa 2 false], by decide⟩
    let db : Postgres := ⟨id, fun _ _ => true, fun _ => "", fun _ _ _ => true, fun _ _ => true,
      fun _ _ _ => true, fun _ _ => true⟩
    ∀ order : OrderBy (publicOrder .priceAsc), ∃ out,
      walk (fun cursor => (listPublic db id 1 table 1 {} "fr" .priceAsc order (some 1) none
          cursor).toOption) 3 none = some out ∧
        out.Perm [villa 1 true, villa 2 false] ∧ out.Pairwise (PublicBefore .priceAsc) := by
  intro noon villa table db order
  exact (lists_complete (by decide) db id table 1 (some 1)
    (by decide)).1 {} "fr" none .priceAsc order

end Search

end Listings

end RealEstate
