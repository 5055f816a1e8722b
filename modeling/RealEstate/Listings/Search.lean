import RealEstate.Core.Json
import RealEstate.Core.Pagination
import RealEstate.Listings.Workflow
import RealEstate.Systems.Keyset

/-!
# Lists of listings (`modules/listings/repository.py`, `modules/listings/service.py`)

The public search and the portal list: their filters, their orders, and the cursors that say
where a page begins.

- `publishedFiltered`, `portalFiltered`: the rows a request lists.
- `publicOrder`, `pastPublic`, `portalOrder`, `pastPortal`: an `ORDER BY`, and the condition that
  a row is past a cursor.
- `listPublic`, `listPortal`: the services.
-/

namespace RealEstate

namespace Listings

namespace Search

open RealEstate.Core Systems

/-! ### Rows -/

/-- A `TIMESTAMPTZ`, as it comes from the driver: in UTC. -/
abbrev Timestamp := { t : Datetime // t.val.offset = some 0 }

/-- A `NUMERIC(precision, 2)`, in hundredths. -/
structure Amount (precision : Nat) where
  hundredths : Int
  lt : hundredths.natAbs < 10 ^ precision

/-- An amount, as Python reads it. -/
def Amount.toDecimal {precision : Nat} (a : Amount precision) : Decimal :=
  .finite (a.hundredths < 0) a.hundredths.natAbs (-2)

/-- `ListingPurpose`. -/
inductive ListingPurpose where
  | sale
  | rent
  | rentDaily
  deriving DecidableEq, Repr

/-- A row of `listings`, without the columns that only PostgreSQL's extensions read. -/
structure Listing where
  id : UUID
  tenantId : Uuid
  deletedAt : Option Timestamp := none
  referenceCode : String
  agentId : Option Uuid := none
  createdBy : Option Uuid := none
  status : ListingStatus
  purpose : ListingPurpose
  propertyType : PropertyType
  title : JsonObject
  price : Amount 14
  beds : Option Int := none
  baths : Option Int := none
  areaBuilt : Option (Amount 10) := none
  features : List String := []
  /-- `address->>'city'`. -/
  city : Option String := none
  featured : Bool := false
  publishedAt : Option Timestamp := none
  createdAt : Timestamp
  updatedAt : Timestamp
  /-- Published rows always carry the time. -/
  published : status = .published → publishedAt.isSome

/-- The table, with its primary key. -/
structure ListingTable where
  rows : List Listing
  ids : (rows.map Listing.id).Nodup

/-- What PostgreSQL and its extensions decide about texts and places. The conditions on
`search_vector` and `location` are theirs as a whole. -/
structure Postgres where
  lower : String → String
  like : (text pattern : String) → Bool
  /-- `cast(title, Text)`. -/
  titleText : JsonObject → String
  /-- `search_vector @@ websearch_to_tsquery(config, q)`. -/
  matchesQuery : (config q : String) → UUID → Bool
  inBox : String → UUID → Bool
  near : (point : String) → (radiusKm : Option String) → UUID → Bool
  inPolygon : String → UUID → Bool

/-! ### Filters -/

/-- `PublicListingFilters`, validated. -/
structure PublicListingFilters where
  purpose : Option ListingPurpose := none
  propertyType : Option PropertyType := none
  priceMin : Option (Amount 14) := none
  priceMax : Option (Amount 14) := none
  bedsMin : Option Int := none
  bathsMin : Option Int := none
  areaMin : Option (Amount 10) := none
  city : Option String := none
  features : List String := []
  q : Option String := none
  inBbox : Option String := none
  near : Option String := none
  radiusKm : Option String := none
  inPolygon : Option String := none

/-- `LOCALE_TS_CONFIG`. -/
def localeTsConfig (locale : String) : String :=
  if locale = "fr" then "french"
  else if locale = "en" then "english"
  else if locale = "ar" then "arabic"
  else "simple"

/-- `_base`. -/
def base (tenantId : Uuid) (scopeUserIds : Option (List Uuid)) (row : Listing) : Bool :=
  row.tenantId = tenantId && row.deletedAt.isNone &&
    scopeUserIds.all fun ids => row.agentId.any (· ∈ ids) || row.createdBy.any (· ∈ ids)

section

variable (db : Postgres) (pyLower : String → String)

/-- `_published_filtered`. -/
def publishedFiltered (tenantId : Uuid) (filters : PublicListingFilters) (locale : String)
    (row : Listing) : Bool :=
  base tenantId none row && row.status = .published &&
    filters.purpose.all (row.purpose = ·) &&
    filters.propertyType.all (row.propertyType = ·) &&
    filters.priceMin.all (·.hundredths ≤ row.price.hundredths) &&
    filters.priceMax.all (row.price.hundredths ≤ ·.hundredths) &&
    filters.bedsMin.all (fun n => row.beds.any (n ≤ ·)) &&
    filters.bathsMin.all (fun n => row.baths.any (n ≤ ·)) &&
    filters.areaMin.all (fun n => row.areaBuilt.any (n.hundredths ≤ ·.hundredths)) &&
    filters.city.all (fun city => row.city.any (db.lower · = pyLower city)) &&
    filters.features.all (· ∈ row.features) &&
    filters.q.all (db.matchesQuery (localeTsConfig locale) · row.id) &&
    filters.inBbox.all (db.inBox · row.id) &&
    filters.near.all (db.near · filters.radiusKm row.id) &&
    filters.inPolygon.all (db.inPolygon · row.id)

/-- `f"%{q.strip().lower()}%"`. -/
def keywordPattern (q : String) : String :=
  "%" ++ pyLower (String.ofList (strip q.toList)) ++ "%"

/-- `_portal_filtered`. -/
def portalFiltered (tenantId : Uuid) (scopeUserIds : Option (List Uuid))
    (status : Option ListingStatus) (q : Option String) (row : Listing) : Bool :=
  base tenantId scopeUserIds row && status.all (row.status = ·) &&
    (q.filter (· ≠ "")).all fun q =>
      db.like (db.lower row.referenceCode) (keywordPattern pyLower q) ||
        db.like (db.lower (db.titleText row.title)) (keywordPattern pyLower q) ||
        row.city.any fun city => db.like (db.lower city) (keywordPattern pyLower q)

end

/-! ### Orders -/

/-- `SearchSort`. -/
inductive SearchSort where
  | newest
  | priceAsc
  | priceDesc
  | areaAsc
  | areaDesc
  deriving DecidableEq, Repr

/-- Its text. -/
def SearchSort.value : SearchSort → String
  | .newest => "newest"
  | .priceAsc => "price_asc"
  | .priceDesc => "price_desc"
  | .areaAsc => "area_asc"
  | .areaDesc => "area_desc"

/-- `PortalSort`. -/
inductive PortalSort where
  | newest
  | updated
  | priceAsc
  | priceDesc
  deriving DecidableEq, Repr

/-- Its text. -/
def PortalSort.value : PortalSort → String
  | .newest => "newest"
  | .updated => "updated"
  | .priceAsc => "price_asc"
  | .priceDesc => "price_desc"

/-- A time as the number it is compared by. -/
def Timestamp.number (t : Timestamp) : Rat := t.val.val.micros

/-- An amount as the number it is compared by. -/
def Amount.number {precision : Nat} (a : Amount precision) : Rat := a.hundredths / 100

/-- The column that `_sort_key` names; `coalesce(area_built, 0)` for the areas. -/
def SearchSort.key (row : Listing) : SearchSort → Rat
  | .newest => row.publishedAt.elim 0 Timestamp.number
  | .priceAsc | .priceDesc => row.price.number
  | .areaAsc | .areaDesc => row.areaBuilt.elim 0 Amount.number

/-- Whether the key descends. -/
def SearchSort.descending : SearchSort → Bool
  | .newest | .priceDesc | .areaDesc => true
  | .priceAsc | .areaAsc => false

/-- `_portal_sort_key`. -/
def PortalSort.key (row : Listing) : PortalSort → Rat
  | .newest => row.createdAt.number
  | .updated => row.updatedAt.number
  | .priceAsc | .priceDesc => row.price.number

/-- Whether it begins with the highest. -/
def PortalSort.descending : PortalSort → Bool
  | .newest | .updated | .priceDesc => true
  | .priceAsc => false

/-- `ORDER BY featured DESC, key, id DESC`: `a` may come before `b`. -/
def publicOrder (sort : SearchSort) (a b : Listing) : Prop :=
  (a.featured = true ∧ b.featured = false) ∨
    (a.featured = b.featured ∧
      (past sort.descending (sort.key b) (sort.key a) = true ∨
        (sort.key a = sort.key b ∧ b.id ≤ a.id)))

/-- `ORDER BY key, id`, both in one direction. -/
def portalOrder (sort : PortalSort) (a b : Listing) : Prop :=
  past sort.descending (sort.key b) (sort.key a) = true ∨
    (sort.key a = sort.key b ∧ if sort.descending then b.id ≤ a.id else a.id ≤ b.id)

/-- Where a page of the public search begins, after the numbers of its cursor. -/
structure PublicKeyset where
  featured : Bool
  key : Rat
  id : UUID

/-- What an inventory cursor holds. -/
structure PortalKeyset where
  key : Rat
  id : UUID

/-- The condition on the rows after a cursor. -/
def pastPublic (sort : SearchSort) (after : PublicKeyset) (row : Listing) : Bool :=
  (if after.featured then !row.featured else false) ||
    (row.featured = after.featured && past sort.descending (sort.key row) after.key) ||
    (row.featured = after.featured && sort.key row = after.key && row.id < after.id)

/-- The keyset condition of the inventory. -/
def pastPortal (sort : PortalSort) (after : PortalKeyset) (row : Listing) : Bool :=
  past sort.descending (sort.key row) after.key ||
    (sort.key row = after.key && past sort.descending row.id after.id)

/-! ### Queries -/

section

variable (db : Postgres) (pyLower : String → String) (table : ListingTable) (tenantId : Uuid)

/-- The rows `list_published` chooses from. -/
def published (filters : PublicListingFilters) (locale : String)
    (publishedSince : Option Timestamp) : List Listing :=
  table.rows.filter fun row =>
    publishedFiltered db pyLower tenantId filters locale row &&
      publishedSince.all fun since => row.publishedAt.any (since.number < ·.number)

/-- `list_published`: one row more than `limit`. -/
def listPublished (filters : PublicListingFilters) (locale : String) (sort : SearchSort)
    (order : OrderBy (publicOrder sort)) (after : Option PublicKeyset) (limit : Nat)
    (publishedSince : Option Timestamp) : List Listing :=
  order.page ((published db pyLower table tenantId filters locale publishedSince).filter
    fun row => after.all (pastPublic sort · row)) (limit + 1)

/-- The rows `list_portal` chooses from. -/
def inventory (scopeUserIds : Option (List Uuid)) (status : Option ListingStatus)
    (q : Option String) : List Listing :=
  table.rows.filter (portalFiltered db pyLower tenantId scopeUserIds status q)

/-- `ListingRepository.list_portal`. -/
def portalPage (scopeUserIds : Option (List Uuid)) (status : Option ListingStatus)
    (q : Option String) (sort : PortalSort) (order : OrderBy (portalOrder sort))
    (after : Option PortalKeyset) (limit : Nat) : List Listing :=
  order.page ((inventory db pyLower table tenantId scopeUserIds status q).filter
    fun row => after.all (pastPortal sort · row)) (limit + 1)

end

/-! ### Cursors -/

/-- A decoded key, of which Python does not know the type. -/
inductive Key where
  | datetime (t : Datetime)
  | decimal (d : Decimal)

/-- The number a key is compared as. The driver takes no naive time for a `TIMESTAMPTZ`, and a
decimal that is not finite is none the column holds. -/
def Key.number : Key → Option Rat
  | .datetime t => t.instant.map fun n => n
  | .decimal d => d.toRat

/-- `str(last.area_built or 0)`. -/
def areaText (area : Option (Amount 10)) : Text :=
  match area.filter (·.hundredths ≠ 0) with
  | some area => decimalText area.toDecimal
  | none => decimalText (.finite false 0 0)

/-- The key in a cursor of the public search; `none` where the assertion fails. -/
def SearchSort.keyText (last : Listing) : SearchSort → Option Text
  | .newest => last.publishedAt.map fun t => isoformat t.val.val
  | .priceAsc | .priceDesc => some (decimalText last.price.toDecimal)
  | .areaAsc | .areaDesc => some (areaText last.areaBuilt)

/-- The fields of a cursor of the public search. -/
def publicValues (sort : SearchSort) (last : Listing) (key : Text) : List (Text × Scalar) :=
  [("sort".toList, .str sort.value.toList), ("featured".toList, .bool last.featured),
    ("key".toList, .str key), ("id".toList, .str (uuidText last.id))]

/-- `_encode_public_cursor`. -/
def encodePublicCursor (sort : SearchSort) (last : Listing) : Option Text :=
  (sort.keyText last).map fun key => encodeCursor (publicValues sort last key)

/-- The key of a cursor, as text. -/
def PortalSort.keyText (last : Listing) : PortalSort → Text
  | .newest => isoformat last.createdAt.val.val
  | .updated => isoformat last.updatedAt.val.val
  | .priceAsc | .priceDesc => decimalText last.price.toDecimal

/-- The fields of an inventory cursor. -/
def portalValues (sort : PortalSort) (last : Listing) (key : Text) : List (Text × Scalar) :=
  [("sort".toList, .str sort.value.toList), ("key".toList, .str key),
    ("id".toList, .str (uuidText last.id))]

/-- `_encode_portal_cursor`. -/
def encodePortalCursor (sort : PortalSort) (last : Listing) : Text :=
  encodeCursor (portalValues sort last (sort.keyText last))

/-- What both decoders catch. -/
def caught : List PyException := [.keyError, .typeError, .valueError, .invalidOperation]

/-- `values["sort"] != sort.value`. -/
def sameSort (value : String) : JsonValue → Bool
  | .str t => t = value.toList
  | _ => false

/-- A cursor only orders the sort it was minted under. -/
def checkSort (value : String) (values : CursorFields) : Except CursorError Unit := do
  let sort ← orMalformed caught (fieldOf "sort" values)
  if sameSort value sort then return ()
  else throw (.invalid "The cursor does not match the requested sort.")

/-- `datetime.fromisoformat(value)` or `Decimal(value)`. -/
def toKey (isTime : Bool) (value : JsonValue) : Except PyException Key :=
  if isTime then (datetimeOf value).map .datetime else (decimalOf value).map .decimal

/-- The `try` block of `_decode_public_cursor` after its check. -/
def publicFields (sort : SearchSort) (values : CursorFields) :
    Except PyException (Bool × Key × UUID) := do
  let key ← toKey (sort = .newest) (← fieldOf "key" values)
  let featured ← fieldOf "featured" values
  let id ← uuidOf (← fieldOf "id" values)
  return (boolOf featured, key, id)

/-- `_decode_public_cursor`. -/
def decodePublicCursor (depth : Nat) (cursor : Text) (sort : SearchSort) :
    Except CursorError (Bool × Key × UUID) := do
  let values ← decodeCursor depth cursor
  checkSort sort.value values
  orMalformed caught (publicFields sort values)

/-- The `try` block of `_decode_portal_cursor` after its check. -/
def portalFields (sort : PortalSort) (values : CursorFields) :
    Except PyException (Key × UUID) := do
  let key ← toKey (sort = .newest ∨ sort = .updated) (← fieldOf "key" values)
  let id ← uuidOf (← fieldOf "id" values)
  return (key, id)

/-- `_decode_portal_cursor`. -/
def decodePortalCursor (depth : Nat) (cursor : Text) (sort : PortalSort) :
    Except CursorError (Key × UUID) := do
  let values ← decodeCursor depth cursor
  checkSort sort.value values
  orMalformed caught (portalFields sort values)

/-! ### Services -/

/-- How a list request fails. -/
inductive ListError where
  | cursor (e : CursorError)
  /-- The driver refuses the key. -/
  | key
  /-- A row on the page has no cursor. -/
  | assertion

/-- `decode(cursor) if cursor else None`. -/
def afterCursor {α : Type} (decode : Text → Except CursorError α) (cursor : Option Text) :
    Except ListError (Option α) :=
  match cursor.filter (· ≠ []) with
  | none => .ok none
  | some cursor =>
    match decode cursor with
    | .ok after => .ok (some after)
    | .error e => .error (.cursor e)

/-- The rows of a page and its next cursor. -/
def respond (encode : Listing → Option Text) (size : Nat) (rows : List Listing) :
    Except ListError (List Listing × Option Text) :=
  match cut encode size rows with
  | some page => .ok page
  | none => .error .assertion

/-- The value that a key is bound to. -/
def bindKey (key : Key) : Except ListError Rat :=
  match key.number with
  | some n => .ok n
  | none => .error .key

section

variable (db : Postgres) (pyLower : String → String) (depth : Nat) (table : ListingTable)
  (tenantId : Uuid)

/-- `list_public`. -/
def listPublic (filters : PublicListingFilters) (locale : String) (sort : SearchSort)
    (order : OrderBy (publicOrder sort)) (limit : Option Int) (publishedSince : Option Timestamp)
    (cursor : Option Text) : Except ListError (List Listing × Option Text) := do
  let pageSize := clampLimit limit
  let after ← afterCursor (decodePublicCursor depth · sort) cursor
  let after ← after.mapM fun (featured, key, id) => return ⟨featured, ← bindKey key, id⟩
  respond (encodePublicCursor sort) pageSize
    (listPublished db pyLower table tenantId filters locale sort order after pageSize
      publishedSince)

/-- `ListingService.list_portal`, with its count. -/
def listPortal (scopeUserIds : Option (List Uuid)) (status : Option ListingStatus)
    (q : Option String) (sort : PortalSort) (order : OrderBy (portalOrder sort))
    (limit : Option Int) (cursor : Option Text) :
    Except ListError ((List Listing × Option Text) × Nat) := do
  let pageSize := clampLimit limit
  let after ← afterCursor (decodePortalCursor depth · sort) cursor
  let after ← after.mapM fun (key, id) => return ⟨← bindKey key, id⟩
  let page ← respond (fun last => some (encodePortalCursor sort last)) pageSize
    (portalPage db pyLower table tenantId scopeUserIds status q sort order after pageSize)
  return (page, (inventory db pyLower table tenantId scopeUserIds status q).length)

end

end Search

end Listings

end RealEstate
