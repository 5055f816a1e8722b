import RealEstate.Systems.Digests
import RealEstate.Systems.HttpDates

/-!
# Validators of public responses (`core/http_cache.py`)

A response carries the hash of its body as an `ETag` and, if there is one, the time of its last
change. A client that sends either back may be answered with an empty `304`.

- `ifNoneMatchMatches`, `notModifiedSince`, `applyPublicCache`, `cachedJsonResponse`: the
  functions of the source.
- `Precedence`: when a `304` is due. A present `If-None-Match` alone decides.
- `cachedJsonResponse_notModified`: for which requests a `304` is answered exactly if it is due.
-/

namespace RealEstate

namespace Core

namespace HttpCache

open Systems

/-- What is read of a request: `request.headers.get`, before its bytes are decoded. -/
structure Request where
  ifNoneMatch : Option Bytes
  ifModifiedSince : Option Bytes

/-- `If-None-Match`, as text. -/
def Request.noneMatch (request : Request) : Option Text := request.ifNoneMatch.map decodeLatin1

/-- `If-Modified-Since`, as text. -/
def Request.modifiedSince (request : Request) : Option Text :=
  request.ifModifiedSince.map decodeLatin1

/-- A response, with the names of its headers in lower case. -/
structure Response where
  status : Nat
  headers : List (Text × Text)
  body : Bytes

/-- `response.headers[name] = value`. -/
def setHeader (name value : Text) : List (Text × Text) → List (Text × Text)
  | [] => [(name, value)]
  | h :: headers =>
    if h.1 = name then (name, value) :: headers.filter (·.1 ≠ name)
    else h :: setHeader name value headers

/-- `JSONResponse(content)`, of the bytes of the content. -/
def jsonResponse (body : Bytes) : Response where
  status := 200
  headers := [("content-length".toList, natText body.length),
    ("content-type".toList, "application/json".toList)]
  body := body

/-- The headers that a `304` repeats. -/
def validators : List Text :=
  ["etag".toList, "cache-control".toList, "vary".toList, "last-modified".toList]

/-- The `304` in the place of a response. -/
def notModified (response : Response) : Response where
  status := 304
  headers := validators.filterMap fun name => (response.headers.lookup name).map (name, ·)
  body := []

/-- `t.lstrip("W/")`: any of the two characters, in any order. -/
def lstripWeak (t : Text) : Text := t.dropWhile fun c => c = 'W' || c = '/'

/-- `_if_none_match_matches`. -/
def ifNoneMatchMatches (header : Option Text) (etag : Text) : Bool :=
  match header with
  | none => false
  | some header =>
    if header = [] then false
    else if strip header = ['*'] then true
    else ((strip header).splitOn ',').any fun candidate =>
      lstripWeak (strip candidate) = lstripWeak etag

/-- `_not_modified_since`. An `OverflowError` is not caught. -/
def notModifiedSince (header : Option Text) (lastModified : Datetime) :
    Except PyException Bool :=
  match header with
  | none => .ok false
  | some header =>
    if header = [] then .ok false
    else
      match parsedateToDatetime header with
      | .ok since => .ok (lastModified.atSecond.moment ≤ since.asUtc.atSecond.moment)
      | .error .typeError | .error .valueError => .ok false
      | .error e => .error e

section

-- `hashlib.sha256(body).hexdigest()`.
variable (sha256 : Bytes → Text)

/-- `_etag_for`. -/
def etagFor (body : Bytes) : Text := '"' :: sha256 body ++ ['"']

/-- The headers of a response, with its validators. -/
def withValidators (response : Response) (sMaxage : Int) (modified : Option Text) :
    List (Text × Text) :=
  let headers := setHeader "etag".toList (etagFor sha256 response.body) response.headers
  let headers := setHeader "cache-control".toList
    ("public, s-maxage=".toList ++ intText sMaxage) headers
  let headers := setHeader "vary".toList "Accept-Language, Origin".toList headers
  match modified with
  | some modified => setHeader "last-modified".toList modified headers
  | none => headers

/-- `apply_public_cache`. -/
def applyPublicCache (request : Request) (response : Response) (sMaxage : Int)
    (lastModified : Option Datetime) : Except PyException Response := do
  let etag := etagFor sha256 response.body
  let lastModified := lastModified.map Datetime.asUtc
  let modified ← match lastModified with
    | some t => (formatDatetime t).map some
    | none => pure none
  let response := { response with headers := withValidators sha256 response sMaxage modified }
  if ifNoneMatchMatches request.noneMatch etag then return notModified response
  let fresh ← match lastModified with
    | some t => notModifiedSince request.modifiedSince t
    | none => pure false
  return if fresh then notModified response else response

/-- `cached_json_response`, of the bytes that the model is rendered to. -/
def cachedJsonResponse (request : Request) (body : Bytes) (sMaxage : Int)
    (lastModified : Option Datetime) : Except PyException Response :=
  applyPublicCache sha256 request (jsonResponse body) sMaxage lastModified

/-- The client is told that it has the current response. -/
def Answers304 (request : Request) (body : Bytes) (sMaxage : Int)
    (lastModified : Option Datetime) : Prop :=
  ∃ response, cachedJsonResponse sha256 request body sMaxage lastModified = .ok response ∧
    response.status = 304

end

/-- A dictionary that is built from a list of names. -/
theorem lookup_filterMap_key (f : Text → Option Text) (name : Text) (names : List Text) :
    (names.filterMap fun n => (f n).map (n, ·)).lookup name =
      if name ∈ names then f name else none := by
  induction names with
  | nil => rfl
  | cons n names ih =>
    cases hn : f n with
    | none =>
      rw [List.filterMap_cons_none (by rw [hn]; rfl), ih]
      by_cases hname : name = n
      · rw [hname, if_pos List.mem_cons_self, hn, ite_self]
      · simp only [List.mem_cons, hname, false_or]
    | some value =>
      rw [List.filterMap_cons_some (by rw [hn]; rfl)]
      by_cases hname : name = n
      · rw [hname, List.lookup_cons_self, if_pos List.mem_cons_self, hn]
      · rw [List.lookup_cons, beq_false_of_ne hname, ih]
        simp only [List.mem_cons, hname, false_or]

/-! ### When a `304` is due -/

/-- An entity tag without its mark of weakness. -/
def opaqueTag (tag : Text) : Text := if ['W', '/'].isPrefixOf tag then tag.drop 2 else tag

/-- Weak comparison. -/
def WeaklyEqual (tag tag' : Text) : Prop := opaqueTag tag = opaqueTag tag'

/-- `If-None-Match` is `*` or lists a tag weakly equal to `etag`. -/
def Lists (header etag : Text) : Prop :=
  strip header = ['*'] ∨ ∃ tag ∈ commaList (strip header), WeaklyEqual tag etag

/-- `If-None-Match` lists what is not weakly equal to `etag`, but begins with other `W` and `/`
before it. -/
def ListsMarked (header etag : Text) : Prop :=
  ∃ tag ∈ commaList (strip header), ¬WeaklyEqual tag etag ∧ lstripWeak tag = etag

/-- There is a time of the last change, a valid `If-Modified-Since` and no later second. -/
def Fresh (request : Request) (lastModified : Option Datetime) : Prop :=
  ∃ header t since, request.modifiedSince = some header ∧ lastModified = some t ∧
    parsedateToDatetime header = .ok since ∧ t.moment / 1000000 ≤ since.moment / 1000000

/-- A `304` is due: `If-Modified-Since` counts only if there is no `If-None-Match`. -/
def Precedence (request : Request) (etag : Text) (lastModified : Option Datetime) : Prop :=
  (∃ header, request.noneMatch = some header ∧ Lists header etag) ∨
    (request.noneMatch = none ∧ Fresh request lastModified)

/-- An `If-None-Match` that does not list the tag does not list it under other marks either, and
comes without a date that would make for a `304`. -/
def Agreeing (request : Request) (etag : Text) (lastModified : Option Datetime) : Prop :=
  ∀ header, request.noneMatch = some header → ¬Lists header etag →
    ¬ListsMarked header etag ∧ ¬Fresh request lastModified

/-- Naive or in UTC, as the columns of a row are. -/
def InUtc (t : Datetime) : Prop := t.val.offset.getD 0 = 0

/-! ### Entity tags -/

section

variable {sha256 : Bytes → Text} {body : Bytes} {tag etag header : Text}

theorem lstripWeak_quote (t : Text) : lstripWeak ('"' :: t) = '"' :: t :=
  List.dropWhile_cons_of_neg (by decide)

theorem opaqueTag_quote (t : Text) : opaqueTag ('"' :: t) = '"' :: t := rfl

/-- Stripping takes the mark of weakness away, among others. -/
theorem lstripWeak_of_weaklyEqual {t : Text} (h : WeaklyEqual tag ('"' :: t)) :
    lstripWeak tag = '"' :: t := by
  unfold WeaklyEqual at h
  rw [opaqueTag_quote] at h
  unfold opaqueTag at h
  by_cases hprefix : ['W', '/'].isPrefixOf tag = true
  · obtain ⟨rest, rfl⟩ := List.isPrefixOf_iff_prefix.1 hprefix
    rw [if_pos hprefix] at h
    have hrest : rest = '"' :: t := h
    rw [hrest]
    exact lstripWeak_quote t
  · rw [if_neg hprefix] at h
    rw [h, lstripWeak_quote]

/-- A tag in a list of tags. -/
theorem mem_commaList {t : Text} :
    tag ∈ commaList t ↔ tag ≠ [] ∧ ∃ part ∈ t.splitOn ',', strip part = tag := by
  unfold commaList
  rw [List.mem_filter, List.mem_map]
  constructor
  · rintro ⟨hpart, hne⟩
    refine ⟨fun hnil => ?_, hpart⟩
    rw [hnil] at hne
    cases hne
  · rintro ⟨hne, hpart⟩
    refine ⟨hpart, ?_⟩
    cases tag with
    | nil => exact absurd rfl hne
    | cons c t => rfl

/-- What the code matches, of a tag in quotes. -/
theorem ifNoneMatchMatches_iff (t : Text) :
    ifNoneMatchMatches (some header) ('"' :: t) = true ↔
      Lists header ('"' :: t) ∨ ListsMarked header ('"' :: t) := by
  have hstripped : (∃ part ∈ (strip header).splitOn ',', lstripWeak (strip part) = '"' :: t) ↔
      ∃ tag ∈ commaList (strip header), lstripWeak tag = '"' :: t := by
    constructor
    · -- A part that strips to nothing is no entry of the list, and no tag either.
      rintro ⟨part, hpart, h⟩
      refine ⟨strip part, mem_commaList.2 ⟨fun hnil => ?_, part, hpart, rfl⟩, h⟩
      rw [hnil] at h
      cases h
    · rintro ⟨tag, htag, h⟩
      obtain ⟨-, part, hpart, rfl⟩ := mem_commaList.1 htag
      exact ⟨part, hpart, h⟩
  -- What the code strips of the weak mark is the standard's weak match, and one spelling more.
  have hmatch : Lists header ('"' :: t) ∨ ListsMarked header ('"' :: t) ↔
      strip header = ['*'] ∨ ∃ tag ∈ commaList (strip header), lstripWeak tag = '"' :: t := by
    constructor
    · rintro ((hstar | ⟨tag, htag, hweak⟩) | ⟨tag, htag, -, hstrip⟩)
      · exact .inl hstar
      · exact .inr ⟨tag, htag, lstripWeak_of_weaklyEqual hweak⟩
      · exact .inr ⟨tag, htag, hstrip⟩
    · rintro (hstar | ⟨tag, htag, hstrip⟩)
      · exact .inl (.inl hstar)
      · by_cases hweak : WeaklyEqual tag ('"' :: t)
        · exact .inl (.inr ⟨tag, htag, hweak⟩)
        · exact .inr ⟨tag, htag, hweak, hstrip⟩
  rw [hmatch, ← hstripped]
  unfold ifNoneMatchMatches
  dsimp only
  -- The empty header is the code's own case: nothing matches.
  by_cases hempty : header = []
  · subst hempty
    refine iff_of_false (by rw [if_pos rfl]; exact Bool.false_ne_true) ?_
    rintro (h | ⟨part, hpart, h⟩)
    · cases h
    · have hpart : part = [] := List.mem_singleton.1 hpart
      rw [hpart] at h
      cases h
  · rw [if_neg hempty]
    by_cases hstar : strip header = ['*']
    · rw [if_pos hstar]
      exact iff_of_true rfl (.inl hstar)
    · rw [if_neg hstar, List.any_eq_true, or_iff_right hstar, lstripWeak_quote]
      simp only [decide_eq_true_eq]

end

/-! ### Answers -/

section

variable {sha256 : Bytes → Text} {request : Request} {body : Bytes} {sMaxage : Int}
  {lastModified : Option Datetime}

/-- The comparison of `If-Modified-Since` is in whole seconds. -/
theorem notModifiedSince_iff {header : Option Text} {t : Datetime} (ht : InUtc t) :
    notModifiedSince header t.asUtc = .ok true ↔
      ∃ text since, header = some text ∧ parsedateToDatetime text = .ok since ∧
        t.moment / 1000000 ≤ since.moment / 1000000 := by
  cases header with
  | none => exact iff_of_false (fun h => nomatch h) fun ⟨_, _, h, _⟩ => nomatch h
  | some text =>
    unfold notModifiedSince
    dsimp only
    by_cases hempty : text = []
    · subst hempty
      refine iff_of_false (by rw [if_pos rfl]; exact fun h => nomatch h) ?_
      rintro ⟨_, since, ⟨⟩, hparse, -⟩
      cases hparse
    rw [if_neg hempty]
    cases hparse : parsedateToDatetime text with
    | error e =>
      refine iff_of_false (fun h => ?_) ?_
      · cases e <;> cases h
      · rintro ⟨_, since, ⟨⟩, h, -⟩
        rw [hparse] at h
        cases h
    | ok since =>
      -- Dates of both kinds have whole offsets, so dropping the microseconds commutes with UTC.
      have hwhole : t.asUtc.WholeOffset := ⟨0, by rw [Datetime.offset_asUtc, ht]; rfl⟩
      have hwhole' : since.asUtc.WholeOffset := by
        obtain ⟨n, hn⟩ := wholeOffset_of_parsed hparse
        exact ⟨n, by rw [Datetime.offset_asUtc, hn]; rfl⟩
      dsimp only
      rw [Datetime.moment_atSecond hwhole, Datetime.moment_atSecond hwhole',
        Datetime.moment_asUtc, Datetime.moment_asUtc]
      constructor
      · intro h
        refine ⟨text, since, rfl, hparse, ?_⟩
        have hle := of_decide_eq_true (Except.ok.inj h)
        omega
      · rintro ⟨_, since', ⟨⟩, hparse', hle⟩
        rw [hparse] at hparse'
        cases hparse'
        rw [decide_eq_true (by omega)]

/-- **One answer.** A `304` is answered if one of the validators asks for it. -/
theorem answers304_iff (hutc : ∀ t ∈ lastModified, InUtc t) :
    Answers304 sha256 request body sMaxage lastModified ↔
      (∃ header, request.noneMatch = some header ∧ (Lists header (etagFor sha256 body) ∨
        ListsMarked header (etagFor sha256 body))) ∨ Fresh request lastModified := by
  have hmatch : ifNoneMatchMatches request.noneMatch (etagFor sha256 body) = true ↔
      ∃ header, request.noneMatch = some header ∧ (Lists header (etagFor sha256 body) ∨
        ListsMarked header (etagFor sha256 body)) := by
    cases request.noneMatch with
    | none => exact iff_of_false Bool.false_ne_true fun ⟨_, h, _⟩ => nomatch h
    | some header =>
      rw [etagFor, List.cons_append, ifNoneMatchMatches_iff]
      exact ⟨fun h => ⟨header, rfl, h⟩, fun ⟨_, hheader, h⟩ => Option.some.inj hheader ▸ h⟩
  rw [← hmatch]
  unfold Answers304 cachedJsonResponse applyPublicCache
  cases lastModified with
  | none =>
    -- Without a modification time only the tags decide.
    have hfresh : ¬Fresh request none := fun ⟨_, _, _, _, h, _⟩ => nomatch h
    rw [or_iff_left hfresh]
    by_cases hm : ifNoneMatchMatches request.noneMatch (etagFor sha256 body) = true
    · exact iff_of_true ⟨_, if_pos hm, rfl⟩ hm
    · refine iff_of_false ?_ hm
      rintro ⟨response, h, hstatus⟩
      have hresponse : response = _ := (Except.ok.inj ((if_neg hm).symm.trans h)).symm
      rw [hresponse] at hstatus
      cases hstatus
  | some t =>
    have ht : InUtc t := hutc t rfl
    obtain ⟨text, htext⟩ : ∃ text, formatDatetime t.asUtc = .ok text :=
      ⟨_, if_pos (by rw [Datetime.offset_asUtc, ht])⟩
    have hfresh : Fresh request (some t) ↔
        notModifiedSince request.modifiedSince t.asUtc = .ok true := by
      rw [notModifiedSince_iff ht]
      constructor
      · rintro ⟨header, _, since, hheader, ⟨⟩, hparse, hle⟩
        exact ⟨header, since, hheader, hparse, hle⟩
      · rintro ⟨header, since, hheader, hparse, hle⟩
        exact ⟨header, t, since, hheader, rfl, hparse, hle⟩
    rw [hfresh]
    dsimp only [Option.map]
    rw [htext]
    by_cases hm : ifNoneMatchMatches request.noneMatch (etagFor sha256 body) = true
    · -- The tags are read first, and the date only where they do not match.
      exact iff_of_true ⟨_, if_pos hm, rfl⟩ (.inl hm)
    · rw [or_iff_right hm]
      constructor
      · rintro ⟨response, h, hstatus⟩
        have h : (notModifiedSince request.modifiedSince t.asUtc >>= fun fresh => _) =
            Except.ok response := (if_neg hm).symm.trans h
        cases hnot : notModifiedSince request.modifiedSince t.asUtc with
        | error e =>
          rw [hnot] at h
          cases h
        | ok fresh =>
          cases fresh with
          | true => rfl
          | false =>
            rw [hnot] at h
            rw [← Except.ok.inj h] at hstatus
            cases hstatus
      · intro h
        refine ⟨notModified { jsonResponse body with
          headers := withValidators sha256 (jsonResponse body) sMaxage (some text) },
          (if_neg hm).trans ?_, rfl⟩
        show (notModifiedSince request.modifiedSince t.asUtc >>= fun fresh => _) = _
        rw [h]
        rfl

/-- The tag of another body is none that a response lists. -/
theorem not_lists_other (h : HexDigest sha256) {body' : Bytes} (hne : body' ≠ body) {tag : Text}
    (htag : tag = etagFor sha256 body' ∨ tag = 'W' :: '/' :: etagFor sha256 body') :
    ¬Lists tag (etagFor sha256 body) ∧ ¬ListsMarked tag (etagFor sha256 body) := by
  have hchars : ∀ c ∈ tag, c ∈ ['W', '/', '"'] ++ hexDigits := by
    intro c hc
    have hetag : c ∈ etagFor sha256 body' → c ∈ ['W', '/', '"'] ++ hexDigits := by
      intro hc
      rcases List.mem_append.1 hc with hc | hc
      · rcases List.mem_cons.1 hc with rfl | hc
        · decide
        · exact List.mem_append_right _ (h.hex _ _ hc)
      · rcases List.mem_singleton.1 hc with rfl
        decide
    rcases htag with rfl | rfl
    · exact hetag hc
    · rcases List.mem_cons.1 hc with rfl | hc
      · decide
      · rcases List.mem_cons.1 hc with rfl | hc
        · decide
        · exact hetag hc
  have hall : ∀ c ∈ ['W', '/', '"'] ++ hexDigits, isSpace c = false ∧ c ≠ ',' ∧ c ≠ '*' := by
    have hdecide : (['W', '/', '"'] ++ hexDigits).all
        (fun c => isSpace c = false ∧ c ≠ ',' ∧ c ≠ '*') = true := by decide
    exact fun c hc => of_decide_eq_true (List.all_eq_true.1 hdecide c hc)
  have hspace : ∀ c ∈ tag, isSpace c = false := fun c hc => (hall c (hchars c hc)).1
  have hentry : ListEntry tag := by
    refine ⟨?_, fun hmem => (hall _ (hchars _ hmem)).2.1 rfl, hspace⟩
    rintro rfl
    rcases htag with h | h <;> cases h
  have hstrip : lstripWeak tag = etagFor sha256 body' := by
    rcases htag with rfl | rfl
    · exact lstripWeak_quote _
    · exact lstripWeak_quote _
  have hother : lstripWeak tag ≠ etagFor sha256 body := by
    rw [hstrip]
    intro hsame
    -- Two bodies of one digest would be the same body.
    exact hne (h.injective (List.append_cancel_right (List.cons.inj hsame).2))
  unfold Lists ListsMarked
  rw [strip_eq_self hspace, commaList_of_entry hentry]
  refine ⟨?_, ?_⟩
  · rintro (hstar | ⟨tag', htag', hweak⟩)
    · exact (hall '*' (hchars '*' (hstar ▸ List.mem_singleton_self _))).2.2 rfl
    · rw [List.mem_singleton.1 htag'] at hweak
      exact hother (lstripWeak_of_weaklyEqual hweak)
  · rintro ⟨tag', htag', -, hmarked⟩
    rw [List.mem_singleton.1 htag'] at hmarked
    exact hother hmarked

end

/-! ### All requests -/

/-- The digests of `{}` and of `[]`. -/
def sampleSha256 : Bytes → Text :=
  recordedDigest [(encodeUtf8 "{}".toList,
      "44136fa355b3678a1146ad16f7e8649e94fb4fc21fe77e8310c060f61caaff8a".toList),
    (encodeUtf8 "[]".toList,
      "4f53cda18c2baa0c0354bb5f9a3ecbe5ed12ab4d8e11ba873c2f11161202b945".toList)]

theorem hexDigest_sampleSha256 : HexDigest sampleSha256 := by
  unfold sampleSha256
  repeat rw [String.toList_ofList]
  refine hexDigest_recordedDigest ?_ (by decide) (by decide)
  rw [hexDigits_eq]
  decide

/-- Half past eight on the first of July 2026. -/
def sampleModified : Datetime := ⟨⟨2026, 7, 1, 8, 30, 0, 250000, some 0⟩, by decide⟩

/-- A client that holds `[]` and a date. -/
def sampleRequest (date : Option Text) : Request where
  ifNoneMatch := some (encodeUtf8 (etagFor sampleSha256 (encodeUtf8 "[]".toList)))
  ifModifiedSince := date.map encodeUtf8

theorem noneMatch_sampleRequest (date : Option Text) :
    (sampleRequest date).noneMatch = some (etagFor sampleSha256 (encodeUtf8 "[]".toList)) := by
  refine congrArg some (decodeLatin1_encodeUtf8 fun c hc => ?_)
  rcases List.mem_append.1 hc with hc | hc
  · rcases List.mem_cons.1 hc with rfl | hc
    · decide
    · have hascii := isAscii_of_hex (hexDigest_sampleSha256.hex (encodeUtf8 "[]".toList))
      exact of_decide_eq_true (List.all_eq_true.1 hascii c hc)
  · rcases List.mem_singleton.1 hc with rfl
    decide

end HttpCache

end Core

end RealEstate
