import RealEstate.Listings.Pagination
import RealEstate.Systems.Csv
import RealEstate.Systems.Integers
import RealEstate.Systems.Xml

/-!
# Pull feeds (`modules/syndication/router.py`, `core/i18n.py`)

What a portal fetches of an agency's published listings: a table of values, or a document.

- `pickLocalized`: one language of a text, with the fallbacks.
- `feedRow`, `csvFeed`, `xmlFeed`: the rows of a feed, and its two formats.
- `readCsvFeed`: what a reader of the table finds; `csv_read_back`.
- `xml_read_back`: what a parser of the document finds, and when it finds anything.
-/

namespace RealEstate

namespace Syndication

namespace Feeds

open Systems
open Listings (PropertyType)
open Listings.Search (Amount ListingPurpose parseDecimal_amount)

/-! ### Listings -/

/-- A text by locale. -/
abbrev I18nText := List (Text × Text)

/-- `SUPPORTED_LOCALES`. -/
def supportedLocales : List Text := ["ar".toList, "fr".toList, "en".toList]

/-- `negotiate_locale`. Of the letters that are supported, lower case is ASCII's. -/
def negotiateLocale (explicit acceptLanguage : Option Text) : Text :=
  match explicit.filter (· ∈ supportedLocales) with
  | some locale => locale
  | none =>
    let codes := (acceptLanguage.getD []).splitOn ',' |>.map fun part =>
      ((strip (part.takeWhile (· ≠ ';'))).map Char.toLower).take 2
    (codes.find? (· ∈ supportedLocales)).getD "fr".toList

/-- `FALLBACK_CHAIN`. -/
def fallbackChain : List Text := ["fr".toList, "en".toList, "ar".toList]

/-- `pick_localized`: an empty translation counts as none. -/
def pickLocalized (values : I18nText) (locale : Text) : Option Text :=
  (locale :: fallbackChain).findSome? fun candidate => (values.lookup candidate).filter (· ≠ [])

/-- A `VARCHAR(3)` that matches `^[A-Z]{3}$`. -/
abbrev Currency := { t : Text // t.length = 3 ∧ ∀ c ∈ t, c.isUpper = true }

/-- A `SMALLINT`. -/
abbrev SmallInt := { n : Int // -32768 ≤ n ∧ n < 32768 }

/-- A published listing, as the feeds read it. -/
structure Listing where
  id : UUID
  referenceCode : Text
  title : I18nText
  description : I18nText := []
  purpose : ListingPurpose
  propertyType : PropertyType
  price : Amount 14
  currency : Currency
  beds : Option SmallInt := none
  baths : Option SmallInt := none
  areaBuilt : Option (Amount 10) := none

/-- `ListingPurpose`, as text. -/
def purposeValue : ListingPurpose → Text
  | .sale => "sale".toList
  | .rent => "rent".toList
  | .rentDaily => "rent_daily".toList

/-- `PropertyType`, as text. -/
def propertyTypeValue : PropertyType → Text
  | .apartment => "apartment".toList
  | .house => "house".toList
  | .villa => "villa".toList
  | .studio => "studio".toList
  | .duplex => "duplex".toList
  | .land => "land".toList
  | .office => "office".toList
  | .retail => "retail".toList
  | .warehouse => "warehouse".toList
  | .garage => "garage".toList
  | .farm => "farm".toList
  | .building => "building".toList
  | .other => "other".toList

/-- What `PublicListingOut.from_listing` passes on to a feed. -/
structure PublicListingOut where
  referenceCode : Text
  purpose : ListingPurpose
  propertyType : PropertyType
  title : Text
  description : Option Text
  price : Amount 14
  currency : Currency
  beds : Option SmallInt
  baths : Option SmallInt
  areaBuilt : Option (Amount 10)

/-- `PublicListingOut.from_listing`, in a locale. -/
def PublicListingOut.fromListing (listing : Listing) (locale : Text) : PublicListingOut where
  referenceCode := listing.referenceCode
  purpose := listing.purpose
  propertyType := listing.propertyType
  title := (pickLocalized listing.title locale).getD []
  description := pickLocalized listing.description locale
  price := listing.price
  currency := listing.currency
  beds := listing.beds
  baths := listing.baths
  areaBuilt := listing.areaBuilt

/-! ### Rows -/

/-- The variants of a cover photo: the keys in the bucket, by name. -/
abbrev Variants := List (Text × Text)

/-- What `public_url` reads of the settings. -/
structure StorageSettings where
  mediaPublicBaseUrl : Text
  storageEndpointUrl : Text
  mediaBucket : Text

/-- `public_url`. -/
def publicUrl (settings : StorageSettings) (key : Text) : Text :=
  let base := rstrip (· = '/') settings.mediaPublicBaseUrl
  if base ≠ [] then base ++ '/' :: key
  else rstrip (· = '/') settings.storageEndpointUrl ++ '/' :: (settings.mediaBucket ++ '/' :: key)

/-- `_cover_url`. -/
def coverUrl (settings : StorageSettings) (cover : Option Variants) : Text :=
  match cover with
  | none | some [] => []
  | some (first :: rest) =>
    let variants := first :: rest
    publicUrl settings (((variants.lookup "card_webp".toList).or
      (variants.lookup "gallery_webp".toList)).getD first.2)

/-- `_FeedRow`. -/
structure FeedRow where
  out : PublicListingOut
  coverUrl : Text
  url : Text

/-- A request's headers and query. -/
structure Request where
  host : Text
  acceptLanguage : Option Text := none
  locale : Option Text := none

section

variable (settings : StorageSettings) (covers : UUID → Option Variants) (request : Request)

/-- The row of a listing, for one request. -/
def feedRow (listing : Listing) : FeedRow where
  out := .fromListing listing (negotiateLocale request.locale request.acceptLanguage)
  coverUrl := coverUrl settings (covers listing.id)
  url := "https://".toList ++ request.host.takeWhile (· ≠ ':') ++ "/listings/".toList ++
    listing.referenceCode

end

/-! ### The table -/

/-- The header of the CSV feed. -/
def csvHeader : List Text :=
  ["reference".toList, "url".toList, "title".toList, "purpose".toList, "propertyType".toList,
    "price".toList, "currency".toList, "beds".toList, "baths".toList, "areaBuilt".toList,
    "cover".toList]

/-- An amount, as `str` writes it. -/
def amountText {precision : Nat} (a : Amount precision) : Text := decimalText a.toDecimal

/-- `writer.writerow([...])`. -/
def FeedRow.record (row : FeedRow) : List Text :=
  let out := row.out
  [out.referenceCode, row.url, out.title, purposeValue out.purpose,
    propertyTypeValue out.propertyType, amountText out.price, out.currency.val,
    out.beds.elim [] fun n => intText n.val, out.baths.elim [] fun n => intText n.val,
    out.areaBuilt.elim [] amountText, row.coverUrl]

/-- `_csv_feed`. -/
def csvFeed (rows : List FeedRow) : Text :=
  (csvHeader :: rows.map FeedRow.record).flatMap Csv.writeRow

/-! ### The document -/

/-- One `<listing>`: prices, currencies and enumerations are written as they are. -/
def FeedRow.element (row : FeedRow) : Text :=
  let out := row.out
  let title := Xml.escape (if out.title ≠ [] then out.title else out.referenceCode)
  let desc := Xml.escape (out.description.getD [])
  let cover := if row.coverUrl ≠ [] then
      Xml.startTag "image".toList ++ Xml.escape row.coverUrl ++ Xml.endTag "image".toList
    else []
  Xml.startTag "listing".toList ++
    Xml.startTag "reference".toList ++ Xml.escape out.referenceCode ++
    Xml.endTag "reference".toList ++
    Xml.startTag "url".toList ++ Xml.escape row.url ++ Xml.endTag "url".toList ++
    Xml.startTag "title".toList ++ title ++ Xml.endTag "title".toList ++
    Xml.startTag "description".toList ++ desc ++ Xml.endTag "description".toList ++
    Xml.startTag "purpose".toList ++ purposeValue out.purpose ++ Xml.endTag "purpose".toList ++
    Xml.startTag "propertyType".toList ++ propertyTypeValue out.propertyType ++
    Xml.endTag "propertyType".toList ++
    Xml.startTag "price".toList ++ amountText out.price ++ Xml.endTag "price".toList ++
    Xml.startTag "currency".toList ++ out.currency.val ++ Xml.endTag "currency".toList ++
    cover ++ Xml.endTag "listing".toList

/-- The XML declaration. -/
def xmlDeclaration : Text := "?xml version=\"1.0\" encoding=\"UTF-8\"?".toList

/-- `_xml_feed`. -/
def xmlFeed (rows : List FeedRow) : Text :=
  Xml.startTag xmlDeclaration ++ Xml.startTag "listings".toList ++ rows.flatMap FeedRow.element ++
    Xml.endTag "listings".toList

/-- `listings_feed`, with `none` for a 404. -/
def listingsFeed (settings : StorageSettings) (covers : UUID → Option Variants) (request : Request)
    (fmt : Text) (items : List Listing) : Option Text :=
  let rows := items.map (feedRow settings covers request)
  if fmt = "csv".toList then some (csvFeed rows)
  else if fmt = "xml".toList then some (xmlFeed rows)
  else none

/-! ### Reading the table -/

/-- A record, as a reader of the table understands it. -/
structure Entry where
  reference : Text
  url : Text
  title : Text
  purpose : ListingPurpose
  propertyType : PropertyType
  price : Decimal
  currency : Text
  beds : Option Int
  baths : Option Int
  areaBuilt : Option Decimal
  cover : Text

/-- All purposes. -/
def purposes : List ListingPurpose := [.sale, .rent, .rentDaily]

/-- All types. -/
def propertyTypes : List PropertyType :=
  [.apartment, .house, .villa, .studio, .duplex, .land, .office, .retail, .warehouse, .garage,
    .farm, .building, .other]

/-- An empty field is a missing value. -/
def readOptional {α : Type} (read : Text → Option α) (t : Text) : Option (Option α) :=
  if t = [] then some none else (read t).map some

/-- A reader of one record. -/
def Entry.read : List Text → Option Entry
  | [reference, url, title, purpose, propertyType, price, currency, beds, baths, areaBuilt,
      cover] => do
    some {
      reference, url, title, currency, cover
      purpose := ← purposes.find? fun p => purposeValue p = purpose
      propertyType := ← propertyTypes.find? fun p => propertyTypeValue p = propertyType
      price := ← parseDecimal price
      beds := ← readOptional (parseInt 10) beds
      baths := ← readOptional (parseInt 10) baths
      areaBuilt := ← readOptional parseDecimal areaBuilt }
  | _ => none

/-- A reader of the records after the header. -/
def readRecords : List (List Text) → Option (List Entry)
  | header :: records => if header = csvHeader then records.mapM Entry.read else none
  | [] => none

/-- A reader of the CSV feed. -/
def readCsvFeed (t : Text) : Option (List Entry) := (Csv.readCsv t).bind readRecords

/-- What a feed says of a listing. -/
def Listing.toEntry (settings : StorageSettings) (covers : UUID → Option Variants)
    (request : Request) (listing : Listing) : Entry where
  reference := listing.referenceCode
  url := (feedRow settings covers request listing).url
  title := (pickLocalized listing.title
    (negotiateLocale request.locale request.acceptLanguage)).getD []
  purpose := listing.purpose
  propertyType := listing.propertyType
  price := listing.price.toDecimal
  currency := listing.currency.val
  beds := listing.beds.map Subtype.val
  baths := listing.baths.map Subtype.val
  areaBuilt := listing.areaBuilt.map Amount.toDecimal
  cover := coverUrl settings (covers listing.id)

/-- A purpose is found by its text. -/
theorem find_purposeValue (p : ListingPurpose) :
    purposes.find? (fun q => purposeValue q = purposeValue p) = some p := by
  cases p <;> decide

theorem find_propertyTypeValue (p : PropertyType) :
    propertyTypes.find? (fun q => propertyTypeValue q = propertyTypeValue p) = some p := by
  cases p <;> decide

theorem amountText_ne_nil {precision : Nat} (hprecision : precision ≤ 14)
    (a : Amount precision) : amountText a ≠ [] := by
  intro hnil
  have hread := parseDecimal_amount hprecision a
  rw [show decimalText a.toDecimal = [] from hnil] at hread
  cases hread

/-- An amount, or nothing, is read back. -/
theorem readOptional_amount {precision : Nat} (hprecision : precision ≤ 14)
    (a : Option (Amount precision)) :
    readOptional parseDecimal (a.elim [] amountText) = some (a.map Amount.toDecimal) := by
  cases a with
  | none => rfl
  | some a =>
    rw [Option.elim_some, readOptional, if_neg (amountText_ne_nil hprecision a), amountText,
      parseDecimal_amount hprecision]
    rfl

theorem readOptional_int (n : Option SmallInt) :
    readOptional (parseInt 10) (n.elim [] fun n => intText n.val) = some (n.map Subtype.val) := by
  cases n with
  | none => rfl
  | some n =>
    have hne : intText n.val ≠ [] := by
      unfold intText
      split
      · exact List.cons_ne_nil _ _
      · exact natText_ne_nil _
    have hlength : (natText n.val.natAbs).length ≤ maxStrDigits := by
      refine Nat.le_trans (length_natText_le (k := 5) (by decide) ?_) (by decide)
      have := n.property
      omega
    rw [Option.elim_some, readOptional, if_neg hne, parseInt_intText hlength]
    rfl

/-- A text is empty only if all of its translations are. -/
theorem pickLocalized_eq_nil {values : I18nText} {locale : Text}
    (h : (pickLocalized values locale).getD [] = []) {l : Text} (hl : l ∈ supportedLocales) :
    (values.lookup l).getD [] = [] := by
  -- Every supported locale is in the fallback chain.
  have hchain : l ∈ locale :: fallbackChain := by
    refine List.mem_cons_of_mem _ ?_
    simp only [supportedLocales, List.mem_cons, List.not_mem_nil, or_false] at hl
    rcases hl with rfl | rfl | rfl
    · exact List.mem_cons_of_mem _ (List.mem_cons_of_mem _ List.mem_cons_self)
    · exact List.mem_cons_self
    · exact List.mem_cons_of_mem _ List.mem_cons_self
  -- An empty text is what is written where no candidate has a text.
  have hnone : pickLocalized values locale = none := by
    rw [Option.eq_none_iff_forall_ne_some]
    intro t ht
    rw [ht, Option.getD_some] at h
    obtain ⟨candidate, -, hfound⟩ := List.exists_of_findSome?_eq_some ht
    have hne := (Option.filter_eq_some_iff.1 hfound).2
    rw [h] at hne
    cases hne
  have hfilter := List.findSome?_eq_none_iff.1 hnone l hchain
  cases hlookup : values.lookup l with
  | none => rfl
  | some t =>
    rw [hlookup] at hfilter
    by_contra hne
    have hne : t ≠ [] := hne
    rw [Option.filter_some, if_pos (decide_eq_true hne)] at hfilter
    cases hfilter

section

variable (settings : StorageSettings) (covers : UUID → Option Variants) (request : Request)

/-- **A record is read back as the listing it was written for.** -/
theorem read_record (listing : Listing) :
    Entry.read (feedRow settings covers request listing).record =
      some (listing.toEntry settings covers request) := by
  dsimp only [FeedRow.record, feedRow, PublicListingOut.fromListing, Entry.read]
  rw [find_purposeValue, find_propertyTypeValue, readOptional_int, readOptional_int,
    readOptional_amount (by decide), amountText, parseDecimal_amount (by decide)]
  rfl

/-- **The table is read back**: whatever is in the titles, the codes and the host, a reader finds
the listings' own values, each in its column; and a title only if a translation has one. -/
theorem csv_read_back (items : List Listing) :
    ∃ body, listingsFeed settings covers request "csv".toList items = some body ∧
      readCsvFeed body = some (items.map (Listing.toEntry settings covers request)) ∧
      ∀ listing ∈ items, (listing.toEntry settings covers request).title = [] →
        ∀ l ∈ supportedLocales, (listing.title.lookup l).getD [] = [] := by
  have hfeed : listingsFeed settings covers request "csv".toList items =
      some (csvFeed (items.map (feedRow settings covers request))) := by
    unfold listingsFeed
    exact if_pos rfl
  refine ⟨_, hfeed, ?_,
    fun listing _ htitle l hl => pickLocalized_eq_nil htitle hl⟩
  -- No record is an empty line, so the reader skips none.
  have hrows : ∀ row ∈ csvHeader :: (items.map (feedRow settings covers request)).map
      FeedRow.record, row ≠ [] := by
    intro row hrow
    rcases List.mem_cons.1 hrow with rfl | hrow
    · exact List.cons_ne_nil _ _
    · obtain ⟨r, -, rfl⟩ := List.mem_map.1 hrow
      exact List.cons_ne_nil _ _
  have hrecords : ∀ items : List Listing,
      ((items.map (feedRow settings covers request)).map FeedRow.record).mapM Entry.read =
        some (items.map (Listing.toEntry settings covers request)) := by
    intro items
    induction items with
    | nil => rfl
    | cons listing items ih =>
      rw [List.map_cons, List.map_cons, List.mapM_cons, read_record, ih]
      rfl
  rw [readCsvFeed, csvFeed, Csv.readCsv_writeRows hrows, Option.bind_some, readRecords,
    if_pos rfl, hrecords]

end

/-! ### Reading the document -/

/-- The elements of a `<listing>`. -/
def FeedRow.fields (row : FeedRow) : List (Text × Text) :=
  let out := row.out
  [("reference".toList, out.referenceCode), ("url".toList, row.url),
    ("title".toList, if out.title ≠ [] then out.title else out.referenceCode),
    ("description".toList, out.description.getD []), ("purpose".toList, purposeValue out.purpose),
    ("propertyType".toList, propertyTypeValue out.propertyType),
    ("price".toList, amountText out.price), ("currency".toList, out.currency.val)] ++
  if row.coverUrl ≠ [] then [("image".toList, row.coverUrl)] else []

/-- A listing of a document. -/
def listingItems (fields : List (Text × Text)) : List Xml.Item :=
  ⟨[], "listing".toList⟩ :: ((fields.flatMap fun field => Xml.element field.1 field.2) ++
    [⟨[], '/' :: "listing".toList⟩])

/-- A document of listings. -/
def document (listings : List (List (Text × Text))) : List Xml.Item :=
  ⟨[], xmlDeclaration⟩ :: ⟨[], "listings".toList⟩ :: (listings.flatMap listingItems ++
    [⟨[], '/' :: "listings".toList⟩])

theorem isPlain_purposeValue (p : ListingPurpose) : Xml.IsPlain (purposeValue p) := by
  cases p <;> decide

theorem isPlain_propertyTypeValue (p : PropertyType) : Xml.IsPlain (propertyTypeValue p) := by
  cases p <;> decide

theorem isPlain_amountText {precision : Nat} (a : Amount precision) :
    Xml.IsPlain (amountText a) := by
  -- An amount in positional notation is digits with a point among them.
  have hnumeric : ∀ c ∈ amountText a, IsNumeric c := by
    have hdigits : AllDigits (natText a.hundredths.natAbs) := fun c hc => isDigit_of_mem_natText hc
    have hlength : 1 ≤ (natText a.hundredths.natAbs).length :=
      List.length_pos_iff.2 (natText_ne_nil _)
    obtain ⟨d, t, hpoint, hd, ht⟩ := @pointAt_eq_cons
      (-2 + (natText a.hundredths.natAbs).length) _ hdigits (natText_ne_nil _)
    -- Two decimals are never so few that the number is written with an exponent.
    have hplace : (if (-2 : Int) ≤ 0 ∧ -6 < -2 + ((natText a.hundredths.natAbs).length : Int) then
        -2 + ((natText a.hundredths.natAbs).length : Int) else 1) =
        -2 + (natText a.hundredths.natAbs).length := if_pos ⟨by decide, by omega⟩
    simp only [amountText, Amount.toDecimal, decimalText, hplace, if_true, List.append_nil]
    rw [hpoint]
    intro c hc
    rcases List.mem_append.1 hc with hc | hc
    · split at hc
      · rw [List.mem_singleton.1 hc]
        exact ⟨by decide, by decide⟩
      · cases hc
    · rcases List.mem_cons.1 hc with rfl | hc
      · exact isNumeric_of_isDigit hd
      · exact ht c hc
  intro c hc
  obtain ⟨hlow, hhigh⟩ := hnumeric c hc
  -- So none of them is one of the three characters that are escaped.
  have hne : ∀ d : Char, d.toNat < 45 ∨ 57 < d.toNat → c ≠ d := by
    rintro d hd rfl
    omega
  refine ⟨?_, hne _ (by decide), hne _ (by decide), hne _ (by decide)⟩
  simp only [Xml.isXmlChar, Bool.or_eq_true, Bool.and_eq_true, decide_eq_true_eq]
  omega

theorem isPlain_currency (currency : Currency) : Xml.IsPlain currency.val := by
  intro c hc
  have hupper : c.isAlpha = true := Bool.or_eq_true_iff.2 (.inl (currency.property.2 c hc))
  have htag := @Xml.isTag_of_alpha [c] (by simpa using hupper) c List.mem_cons_self
  refine ⟨htag.1, ?_, htag.2.1, htag.2.2.1⟩
  rintro rfl
  cases hupper

/-- The document is written as its items are. -/
theorem element_eq_render (row : FeedRow) :
    row.element = Xml.render (listingItems row.fields) := by
  have hitems : Xml.render (listingItems row.fields) = Xml.startTag "listing".toList ++
      ((row.fields.flatMap fun field =>
        Xml.startTag field.1 ++ Xml.escape field.2 ++ Xml.endTag field.1) ++
      Xml.endTag "listing".toList) := by
    rw [listingItems, Xml.render_tag, Xml.render_append, Xml.render_elements, Xml.render_tag]
    exact congrArg _ (congrArg _ (List.append_nil _))
  rw [hitems]
  unfold FeedRow.element FeedRow.fields
  dsimp only
  rw [List.flatMap_append]
  simp only [List.flatMap_cons, List.flatMap_nil, List.append_nil, List.append_assoc,
    Xml.escape_eq_self (isPlain_purposeValue _), Xml.escape_eq_self (isPlain_propertyTypeValue _),
    Xml.escape_eq_self (isPlain_amountText _), Xml.escape_eq_self (isPlain_currency _)]
  by_cases hcover : row.coverUrl ≠ []
  · simp only [if_pos hcover, List.flatMap_cons, List.flatMap_nil, List.append_nil,
      List.append_assoc]
  · simp only [if_neg hcover, List.flatMap_nil, List.nil_append]

/-- `_xml_feed` writes the document of its rows. -/
theorem xmlFeed_eq_render (rows : List FeedRow) :
    xmlFeed rows = Xml.render (document (rows.map FeedRow.fields)) := by
  have hrows : rows.flatMap FeedRow.element =
      Xml.render ((rows.map FeedRow.fields).flatMap listingItems) := by
    rw [Xml.render, List.flatMap_assoc, List.flatMap_map]
    exact congrArg (List.flatMap · rows) (funext element_eq_render)
  rw [document, Xml.render_tag, Xml.render_tag, Xml.render_append, Xml.render_tag, xmlFeed, hrows,
    List.append_assoc, List.append_assoc]
  exact congrArg _ (congrArg _ (congrArg _ (List.append_nil _).symm))

/-- The names of the elements are names. -/
theorem isName_fields (row : FeedRow) : ∀ field ∈ row.fields, Xml.IsName field.1 := by
  intro field hfield
  have hnames : ∀ name ∈ ["reference".toList, "url".toList, "title".toList, "description".toList,
      "purpose".toList, "propertyType".toList, "price".toList, "currency".toList],
      Xml.IsName name := by
    decide
  have himage : Xml.IsName "image".toList := by decide
  unfold FeedRow.fields at hfield
  rcases List.mem_append.1 hfield with hfield | hfield
  · exact hnames _ (List.mem_map_of_mem (f := Prod.fst) hfield)
  · split at hfield
    · rw [List.mem_singleton.1 hfield]
      exact himage
    · cases hfield

/-- What holds of the tags around the elements, and of the elements, holds of all items. -/
theorem forall_document {listings : List (List (Text × Text))} {p : Xml.Item → Prop}
    (hdeclaration : p ⟨[], xmlDeclaration⟩)
    (hlistings : p ⟨[], "listings".toList⟩ ∧ p ⟨[], '/' :: "listings".toList⟩)
    (hlisting : p ⟨[], "listing".toList⟩ ∧ p ⟨[], '/' :: "listing".toList⟩)
    (hfields : ∀ fields ∈ listings, ∀ field ∈ fields,
      p ⟨[], field.1⟩ ∧ p ⟨field.2, '/' :: field.1⟩) :
    ∀ item ∈ document listings, p item := by
  intro item hitem
  rcases List.mem_cons.1 hitem with rfl | hitem
  · exact hdeclaration
  · rcases List.mem_cons.1 hitem with rfl | hitem
    · exact hlistings.1
    · rcases List.mem_append.1 hitem with hitem | hitem
      · obtain ⟨fields, hmem, hitem⟩ := List.mem_flatMap.1 hitem
        rcases List.mem_cons.1 hitem with rfl | hitem
        · exact hlisting.1
        · rcases List.mem_append.1 hitem with hitem | hitem
          · obtain ⟨field, hfield, hitem⟩ := List.mem_flatMap.1 hitem
            rcases List.mem_cons.1 hitem with rfl | hitem
            · exact (hfields fields hmem field hfield).1
            · rw [List.mem_singleton.1 hitem]
              exact (hfields fields hmem field hfield).2
          · rw [List.mem_singleton.1 hitem]
            exact hlisting.2
      · rw [List.mem_singleton.1 hitem]
        exact hlistings.2

/-- All tags of the feed are tags. -/
theorem isTag_document {listings : List (List (Text × Text))}
    (h : ∀ fields ∈ listings, ∀ field ∈ fields, Xml.IsName field.1) :
    ∀ item ∈ document listings, Xml.IsTag item.tag := by
  have hlisting : Xml.IsName "listing".toList := by decide
  have hlistings : Xml.IsName "listings".toList := by decide
  have hdeclaration : Xml.IsTag xmlDeclaration := by decide
  refine forall_document (p := fun item => Xml.IsTag item.tag) hdeclaration
    ⟨hlistings.isTag, hlistings.isTag_end⟩ ⟨hlisting.isTag, hlisting.isTag_end⟩ ?_
  intro fields hfields field hfield
  exact ⟨(h fields hfields field hfield).isTag, (h fields hfields field hfield).isTag_end⟩

/-- The elements of a listing are closed. -/
theorem nests_fields {fields : List (Text × Text)} (h : ∀ field ∈ fields, Xml.IsName field.1)
    (opened tags : List Text) :
    Xml.nests opened (((fields.flatMap fun field => Xml.element field.1 field.2).map
      Xml.Item.tag) ++ tags) = Xml.nests opened tags := by
  induction fields with
  | nil => rfl
  | cons field fields ih =>
    rw [List.flatMap_cons, List.map_append, List.append_assoc,
      (h field List.mem_cons_self).nests_element]
    exact ih fun f hf => h f (List.mem_cons_of_mem _ hf)

theorem nests_document {listings : List (List (Text × Text))}
    (h : ∀ fields ∈ listings, ∀ field ∈ fields, Xml.IsName field.1) :
    Xml.nests [] ((document listings).map Xml.Item.tag) = true := by
  have hlisting : Xml.IsName "listing".toList := by decide
  have hlistings : Xml.IsName "listings".toList := by decide
  have hnest : ∀ (opened tags : List Text), Xml.nests opened
      ((listings.flatMap listingItems).map Xml.Item.tag ++ tags) = Xml.nests opened tags := by
    intro opened tags
    induction listings with
    | nil => rfl
    | cons fields listings ih =>
      have hfields := nests_fields (h fields List.mem_cons_self) ("listing".toList :: opened)
        (('/' :: "listing".toList) :: ((listings.flatMap listingItems).map Xml.Item.tag ++ tags))
      rw [List.flatMap_cons, List.map_append, List.append_assoc, listingItems, List.map_cons,
        List.cons_append, hlisting.nests_start, List.map_append, List.append_assoc]
      refine hfields.trans ?_
      rw [Xml.nests_end]
      exact ih fun f hf => h f (List.mem_cons_of_mem _ hf)
  have hstart : Xml.nests [] ((document listings).map Xml.Item.tag) =
      Xml.nests [] ("listings".toList :: ((listings.flatMap listingItems).map Xml.Item.tag ++
        ['/' :: "listings".toList])) := by
    have hdeclaration : xmlDeclaration = '?' :: xmlDeclaration.tail := by decide
    rw [document, List.map_cons, hdeclaration, Xml.nests, List.map_cons, List.map_append]
    rfl
  rw [hstart, hlistings.nests_start, hnest, Xml.nests_end]
  rfl

/-- A document has no texts but those of the listings. -/
theorem allXml_document (listings : List (List (Text × Text))) :
    (∀ item ∈ document listings, Xml.AllXml item.text) ↔
      ∀ fields ∈ listings, ∀ field ∈ fields, Xml.AllXml field.2 := by
  have hempty : Xml.AllXml [] := fun c hc => by cases hc
  constructor
  · intro h fields hfields field hfield
    refine h ⟨field.2, '/' :: field.1⟩ (List.mem_cons_of_mem _ (List.mem_cons_of_mem _
      (List.mem_append_left _ (List.mem_flatMap.2 ⟨fields, hfields, List.mem_cons_of_mem _
        (List.mem_append_left _ (List.mem_flatMap.2 ⟨field, hfield, ?_⟩))⟩))))
    exact List.mem_cons_of_mem _ List.mem_cons_self
  · intro h
    exact forall_document (p := fun item => Xml.AllXml item.text) hempty ⟨hempty, hempty⟩
      ⟨hempty, hempty⟩ fun fields hfields field hfield => ⟨hempty, h fields hfields field hfield⟩

/-- **The document is read back**, whatever markup the texts look like, up to line breaks. But one
character that XML does not have, in any text of any listing, and there is no document. -/
theorem xml_read_back (settings : StorageSettings) (covers : UUID → Option Variants)
    (request : Request) (items : List Listing) :
    ∃ body, listingsFeed settings covers request "xml".toList items = some body ∧
      ((Xml.readXml body).isSome ↔ ∀ listing ∈ items,
        ∀ field ∈ (feedRow settings covers request listing).fields, Xml.AllXml field.2) ∧
      ∀ read, Xml.readXml body = some read → read =
        (document (items.map fun listing =>
          (feedRow settings covers request listing).fields)).map Xml.Item.normalized := by
  have hfeed : listingsFeed settings covers request "xml".toList items =
      some (xmlFeed (items.map (feedRow settings covers request))) := by
    have hne : "xml".toList ≠ "csv".toList := by decide
    unfold listingsFeed
    exact (if_neg hne).trans (if_pos rfl)
  have hnames : ∀ fields ∈ items.map fun listing =>
      (feedRow settings covers request listing).fields, ∀ field ∈ fields, Xml.IsName field.1 := by
    intro fields hfields
    obtain ⟨listing, -, rfl⟩ := List.mem_map.1 hfields
    exact isName_fields _
  -- What decides is the characters of the texts: the names are all admitted.
  have htexts := (allXml_document (items.map fun listing =>
    (feedRow settings covers request listing).fields)).trans List.forall_mem_map
  have hreadable := Xml.isSome_readXml (isTag_document hnames) (nests_document hnames)
  refine ⟨_, hfeed, ?_, fun read hread => ?_⟩
  · rw [xmlFeed_eq_render, List.map_map]
    exact hreadable.trans htexts
  · rw [xmlFeed_eq_render, List.map_map] at hread
    have hall := hreadable.1 (Option.isSome_iff_exists.2 ⟨read, hread⟩)
    have hback := Xml.readXml_render (isTag_document hnames) (nests_document hnames) hall
    exact Option.some.inj (hread.symm.trans hback)

end Feeds

end Syndication

end RealEstate
