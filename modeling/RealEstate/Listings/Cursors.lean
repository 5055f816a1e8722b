import RealEstate.Listings.Search

/-!
# Cursors that a client makes up

Every decoder over `decode_cursor`, against any string that is sent as a cursor.

- `Decoder`, `decode`: the decoders, by what they read and catch.
- `Keyset.Typed`: what the query compares: an aware time or a finite decimal.
- `Readable`: the condition on the JSON value in the cursor.
- `decode_total`: under it, and only then, the decoder returns such a keyset or raises
  `InvalidCursorError`.
-/

namespace RealEstate

namespace Listings

namespace Cursors

open RealEstate.Core Systems Search

/-! ### Decoders -/

/-- The decoders of the repository. -/
inductive Decoder where
  /-- `_decode_public_cursor`. -/
  | publicListings (sort : SearchSort)
  /-- `_decode_portal_cursor`. -/
  | portalListings (sort : PortalSort)
  /-- `_decode_keyset` and its like, in the lists of users and tenants, agents, appointments,
  blog posts, deals, favorites, leads, listings, notifications, pages and reviews. -/
  | keyset (field : String)
  /-- The audit logs of tenants and of the platform, which catch nothing. -/
  | auditLog
  /-- `_decode_cursor` of webhooks and syndication, whose repositories parse the time. -/
  | repository (field : String)

/-- What a query compares its rows with. -/
structure Keyset where
  featured : Option Bool := none
  key : Key
  id : UUID

/-- The exceptions that a `_decode_keyset` catches. -/
def keysetCaught : List PyException := [.keyError, .typeError, .valueError]

/-- `(datetime.fromisoformat(values[field]), uuid.UUID(values["id"]))`. -/
def keysetFields (field : String) (values : CursorFields) : Except PyException Keyset := do
  let t ← datetimeOf (← fieldOf field values)
  let id ← uuidOf (← fieldOf "id" values)
  return { key := .datetime t, id }

/-- `(values[field], uuid.UUID(values["id"]))`. -/
def rawFields (field : String) (values : CursorFields) : Except PyException (JsonValue × UUID) := do
  let value ← fieldOf field values
  let id ← uuidOf (← fieldOf "id" values)
  return (value, id)

/-- The decoder of one endpoint. -/
def decode (depth : Nat) (cursor : Text) : Decoder → Except CursorError Keyset
  | .publicListings sort => do
    let (featured, key, id) ← decodePublicCursor depth cursor sort
    return { featured := some featured, key, id }
  | .portalListings sort => do
    let (key, id) ← decodePortalCursor depth cursor sort
    return { key, id }
  | .keyset field => do
    let values ← decodeCursor depth cursor
    orMalformed keysetCaught (keysetFields field values)
  | .auditLog => do
    let values ← decodeCursor depth cursor
    orMalformed [] (keysetFields "created_at" values)
  | .repository field => do
    let values ← decodeCursor depth cursor
    let (value, id) ← orMalformed keysetCaught (rawFields field values)
    let t ← orMalformed [] (datetimeOf value)
    return { key := .datetime t, id }

/-! ### What is expected -/

/-- The column of the sort is a time. -/
def Decoder.byTime : Decoder → Bool
  | .publicListings sort => sort = .newest
  | .portalListings sort => sort = .newest ∨ sort = .updated
  | .keyset _ | .auditLog | .repository _ => true

/-- The key is a time. -/
def Key.isTime : Key → Bool
  | .datetime _ => true
  | .decimal _ => false

/-- The keyset has the types that the query compares: an aware time or a finite decimal, and a
flag for the public search. -/
structure Keyset.Typed (decoder : Decoder) (keyset : Keyset) : Prop where
  isTime : Key.isTime keyset.key = decoder.byTime
  comparable : keyset.key.number.isSome
  featured : keyset.featured.isSome ↔ ∃ sort, decoder = .publicListings sort

/-- A typed keyset, or an `InvalidCursorError`. -/
def Clean (decoder : Decoder) : Except CursorError Keyset → Prop
  | .ok keyset => keyset.Typed decoder
  | .error (.invalid _) => True
  | .error (.uncaught _) => False

/-! ### When it is so -/

/-- Absent, null or a string: `uuid.UUID` and the lookup raise nothing but what is caught. -/
def TextOrNone : Option JsonValue → Prop
  | none | some .null | some (.str _) => True
  | some _ => False

/-- The UUID in a field. -/
def uuidField (values : CursorFields) : Option UUID :=
  match values.lookup "id".toList with
  | some (.str t) => parseUuid t
  | _ => none

/-- The ISO time in a field. -/
def timeField (field : String) (values : CursorFields) : Option Datetime :=
  match values.lookup field.toList with
  | some (.str t) => fromisoformat t
  | _ => none

/-- The `id` is fit for a key that reads as `key`. -/
def IdReadable (values : CursorFields) (key : Key) : Prop :=
  TextOrNone (values.lookup "id".toList) ∧ ((uuidField values).isSome → key.number.isSome)

/-- The key of a listing, and then its `id`. A list may stand for a decimal, with numbers in it
that no C `long` holds. -/
def KeyReadable (byTime withFlag : Bool) (values : CursorFields) : Prop :=
  match values.lookup "key".toList with
  | none => True
  | some value => toKey byTime value ≠ .error .overflowError ∧
    ∀ key, toKey byTime value = .ok key →
      (withFlag = true → (values.lookup "featured".toList).isSome) → IdReadable values key

/-- The sort is the one that is asked for. -/
def HasSort (value : String) (values : CursorFields) : Prop :=
  values.lookup "sort".toList = some (.str value.toList)

/-- What a cursor must hold for its endpoint. -/
def FieldsReadable (values : CursorFields) : Decoder → Prop
  | .publicListings sort =>
    HasSort sort.value values → KeyReadable (sort = .newest) true values
  | .portalListings sort =>
    HasSort sort.value values → KeyReadable (sort = .newest ∨ sort = .updated) false values
  | .keyset field => ∀ t, timeField field values = some t → IdReadable values (.datetime t)
  | .auditLog => (uuidField values).isSome ∧
    ∃ t, timeField "created_at" values = some t ∧ t.instant.isSome
  | .repository field => (values.lookup field.toList).isSome →
    TextOrNone (values.lookup "id".toList) ∧ ((uuidField values).isSome →
      ∃ t, timeField field values = some t ∧ t.instant.isSome)

/-- The cursor is no base64 or JSON at all, or a value that is not too deep and without too long
a number, which is no object or one with readable fields. -/
def Readable (depth : Nat) (cursor : Text) (decoder : Decoder) : Prop :=
  match loadsCursor depth cursor with
  | .error e => e ∈ [PyException.binasciiError, .jsonDecodeError, .unicodeDecodeError]
  | .ok (.obj values) => FieldsReadable values decoder
  | .ok _ => True

/-! ### What the constructors raise -/

section

variable {values : CursorFields} {field : String} {decoder : Decoder}

/-- `uuid.UUID(values["id"])`. -/
def idOf (values : CursorFields) : Except PyException UUID := do
  uuidOf (← fieldOf "id" values)

/-- `datetime.fromisoformat(values[field])`. -/
def timeOf (field : String) (values : CursorFields) : Except PyException Datetime := do
  datetimeOf (← fieldOf field values)

/-- `UUID(...)` of text that is one. -/
theorem uuidOf_ok {t : Text} {id : UUID} (h : parseUuid t = some id) :
    uuidOf (.str t) = .ok id := by
  simp [uuidOf, h]

theorem uuidOf_error {t : Text} (h : parseUuid t = none) :
    uuidOf (.str t) = .error .valueError := by
  simp [uuidOf, h]

/-- `fromisoformat` of text that is a time. -/
theorem datetimeOf_ok {s : Text} {t : Datetime} (h : fromisoformat s = some t) :
    datetimeOf (.str s) = .ok t := by
  simp [datetimeOf, h]

theorem datetimeOf_error {s : Text} (h : fromisoformat s = none) :
    datetimeOf (.str s) = .error .valueError := by
  simp [datetimeOf, h]

/-- The `id` is read, or raises what is caught everywhere if it is absent, null or a string, and
else what is caught nowhere. -/
theorem idOf_cases (values : CursorFields) :
    (∃ id, idOf values = .ok id ∧ uuidField values = some id ∧
      TextOrNone (values.lookup "id".toList)) ∨
    (∃ e, idOf values = .error e ∧ uuidField values = none ∧
      (TextOrNone (values.lookup "id".toList) → e ∈ keysetCaught) ∧
      (¬TextOrNone (values.lookup "id".toList) → e = .attributeError)) := by
  unfold idOf fieldOf uuidField
  cases values.lookup "id".toList with
  | none => exact .inr ⟨_, rfl, rfl, fun _ => by decide, fun h => absurd trivial h⟩
  | some value =>
    cases value with
    | null => exact .inr ⟨_, rfl, rfl, fun _ => by decide, fun h => absurd trivial h⟩
    | str t =>
      cases hparse : parseUuid t with
      | some id => exact .inl ⟨id, uuidOf_ok hparse, hparse, trivial⟩
      | none =>
        exact .inr ⟨_, uuidOf_error hparse, hparse, fun _ => by decide,
          fun h => absurd trivial h⟩
    | bool | int | float | arr | obj => exact .inr ⟨_, rfl, rfl, False.elim, fun _ => rfl⟩

/-- Either way the error is one of those caught. -/
theorem timeOf_cases (field : String) (values : CursorFields) :
    (∃ t, timeOf field values = .ok t ∧ timeField field values = some t) ∨
    (∃ e, timeOf field values = .error e ∧ timeField field values = none ∧
      e ∈ keysetCaught) := by
  unfold timeOf fieldOf timeField
  cases values.lookup field.toList with
  | none => exact .inr ⟨_, rfl, rfl, by decide⟩
  | some value =>
    cases value with
    | str s =>
      cases hparse : fromisoformat s with
      | some t => exact .inl ⟨t, datetimeOf_ok hparse, hparse⟩
      | none => exact .inr ⟨_, datetimeOf_error hparse, hparse, by decide⟩
    | null | bool | int | float | arr | obj => exact .inr ⟨_, rfl, rfl, by decide⟩

/-- Where an exception comes from. -/
theorem bind_eq_error {α β : Type} {x : Except PyException α} {f : α → Except PyException β}
    {e : PyException} (h : (x >>= f) = .error e) : x = .error e ∨ ∃ a, f a = .error e := by
  cases x with
  | error e' =>
    cases h
    exact .inl rfl
  | ok a => exact .inr ⟨a, h⟩

theorem longOf_error {value : JsonValue} {e : PyException} (h : longOf value = .error e) :
    e = .valueError ∨ e = .overflowError := by
  unfold longOf at h
  split at h
  · split at h <;> cases h
    exact .inr rfl
  · cases h
  · cases h
    exact .inl rfl

theorem digitsOf_error {xs : List JsonValue} {e : PyException} (h : digitsOf xs = .error e) :
    e = .valueError ∨ e = .overflowError := by
  induction xs with
  | nil => cases h
  | cons x xs ih =>
    unfold digitsOf at h
    rcases bind_eq_error h with h | ⟨n, h⟩
    · exact longOf_error h
    · split at h
      · cases h
        exact .inl rfl
      · rcases bind_eq_error h with h | ⟨_, h⟩
        · exact ih h
        · cases h

theorem exponentOf_error {value : JsonValue} {e : PyException} (h : exponentOf value = .error e) :
    e = .valueError ∨ e = .overflowError := by
  unfold exponentOf at h
  split at h
  · split at h
    · cases h
    · cases h
      exact .inl rfl
  · cases h
    exact .inl rfl
  · cases hvalue : longOf value with
    | error e' =>
      rw [hvalue] at h
      cases h
      exact longOf_error hvalue
    | ok n =>
      rw [hvalue] at h
      cases h

/-- The errors of `Decimal`, from a tuple. -/
theorem decimalOfParts_error {sign digits exponent : JsonValue} {e : PyException}
    (h : decimalOfParts sign digits exponent = .error e) :
    e = .valueError ∨ e = .overflowError ∨ e = .invalidOperation := by
  have hlong : e = .valueError ∨ e = .overflowError →
      e = .valueError ∨ e = .overflowError ∨ e = .invalidOperation :=
    fun h => h.imp_right Or.inl
  unfold decimalOfParts at h
  rcases bind_eq_error h with h | ⟨n, h⟩
  · exact hlong (longOf_error h)
  dsimp only at h
  by_cases hn : n ≠ 0 ∧ n ≠ 1
  · rw [if_pos hn] at h
    cases h
    exact .inl rfl
  rw [if_neg hn] at h
  rcases bind_eq_error h with h | ⟨exponent', h⟩
  · exact hlong (exponentOf_error h)
  split at h
  · rcases bind_eq_error h with h | ⟨ds, h⟩
    · exact hlong (digitsOf_error h)
    · split at h
      · cases h
      · -- An exponent too large is the decimal library's own error.
        split at h <;> cases h
        exact .inr (.inr rfl)
  · cases h
    exact .inl rfl

/-- A decimal is read, or raises what the decoders of listings catch, but for an overflow. -/
theorem decimalOf_error {value : JsonValue} {e : PyException} (h : decimalOf value = .error e) :
    e ∈ caught ∨ e = .overflowError := by
  unfold decimalOf at h
  split at h
  · split at h <;> cases h
    exact .inl (by decide)
  iterate 5 cases h
  · rcases decimalOfParts_error h with rfl | rfl | rfl
    · exact .inl (by decide)
    · exact .inr rfl
    · exact .inl (by decide)
  all_goals
    cases h
    exact .inl (by decide)

/-- All errors are caught but the overflow of a tuple's exponent. -/
theorem toKey_error {byTime : Bool} {value : JsonValue} {e : PyException}
    (h : toKey byTime value = .error e) : e ∈ caught ∨ e = .overflowError := by
  unfold toKey at h
  split at h
  · cases hvalue : datetimeOf value with
    | error e' =>
      rw [hvalue] at h
      cases h
      unfold datetimeOf at hvalue
      split at hvalue
      · -- A time is a string that `fromisoformat` reads; everything else is one of two errors.
        split at hvalue <;> cases hvalue
        exact .inl (by decide)
      · cases hvalue
        exact .inl (by decide)
    | ok t =>
      rw [hvalue] at h
      cases h
  · cases hvalue : decimalOf value with
    | error e' =>
      rw [hvalue] at h
      cases h
      exact decimalOf_error hvalue
    | ok d =>
      rw [hvalue] at h
      cases h

/-- The key is of the kind that was asked for. -/
theorem toKey_isTime {byTime : Bool} {value : JsonValue} {key : Key}
    (h : toKey byTime value = .ok key) : Key.isTime key = byTime := by
  unfold toKey at h
  split at h
  · next htime =>
    cases hvalue : datetimeOf value with
    | error e' => rw [hvalue] at h; cases h
    | ok t => rw [hvalue] at h; cases h; exact htime.symm
  · next htime =>
    cases hvalue : decimalOf value with
    | error e' => rw [hvalue] at h; cases h
    | ok d => rw [hvalue] at h; cases h; exact (Bool.not_eq_true _ ▸ htime).symm

/-! ### The fields -/

/-- A typed keyset, or an exception that is caught. -/
def Settled (caught : List PyException) (decoder : Decoder) : Except PyException Keyset → Prop
  | .ok keyset => keyset.Typed decoder
  | .error e => e ∈ caught

/-- An error that is caught is reported as a malformed cursor. -/
theorem clean_orMalformed {c : List PyException} {result : Except PyException Keyset} :
    Clean decoder (orMalformed c result) ↔ Settled c decoder result := by
  cases result with
  | ok keyset => exact Iff.rfl
  | error e =>
    show Clean decoder (.error (if e ∈ c then malformed else .uncaught e)) ↔ e ∈ c
    by_cases h : e ∈ c
    · rw [if_pos h]
      exact iff_of_true trivial h
    · rw [if_neg h]
      exact iff_of_false id h

/-- After the key: the `id`. -/
theorem settled_id {c : List PyException} {keyset : UUID → Keyset} {key : Key}
    (hkey : ∀ id, (keyset id).Typed decoder ↔ key.number.isSome)
    (hc : ∀ e ∈ keysetCaught, e ∈ c) (hattribute : PyException.attributeError ∉ c) :
    Settled c decoder (idOf values >>= fun id => .ok (keyset id)) ↔ IdReadable values key := by
  rcases idOf_cases values with ⟨id, hid, hfield, htext⟩ | ⟨e, he, hfield, hcaught, hother⟩
  · rw [hid]
    show (keyset id).Typed decoder ↔ _
    rw [hkey, IdReadable, hfield]
    exact ⟨fun h => ⟨htext, fun _ => h⟩, fun h => h.2 rfl⟩
  · rw [he]
    show e ∈ c ↔ _
    rw [IdReadable, hfield]
    constructor
    · intro hmem
      refine ⟨?_, fun h => nomatch h⟩
      by_contra htext
      exact hattribute (hother htext ▸ hmem)
    · intro h
      exact hc e (hcaught h.1)

theorem keysetFields_eq : keysetFields field values = (timeOf field values >>= fun t =>
    idOf values >>= fun id => .ok { key := .datetime t, id }) := by
  simp only [keysetFields, timeOf, idOf, bind_assoc]
  rfl

theorem number_datetime (t : Datetime) : (Key.datetime t).number.isSome = t.instant.isSome := by
  rw [Key.number]
  cases t.instant <;> rfl

/-- A keyset of a time that is no cursor of the public search. -/
theorem typed_time (decoder : Decoder) {t : Datetime} {id : UUID} (htime : decoder.byTime = true)
    (hpublic : ∀ sort, decoder ≠ .publicListings sort) :
    Keyset.Typed decoder { key := .datetime t, id } ↔ (Key.datetime t).number.isSome := by
  constructor
  · exact Keyset.Typed.comparable
  · intro h
    refine ⟨htime.symm, h, ?_⟩
    exact iff_of_false (fun h => nomatch h) fun ⟨sort, hsort⟩ => hpublic sort hsort

/-- `keyset.py` catches what its parsing raises. -/
theorem settled_keyset : Settled keysetCaught (.keyset field) (keysetFields field values) ↔
    FieldsReadable values (.keyset field) := by
  rw [keysetFields_eq, FieldsReadable]
  rcases timeOf_cases field values with ⟨t, ht, hfield⟩ | ⟨e, he, hfield, hcaught⟩
  · rw [ht, hfield]
    show Settled keysetCaught (.keyset field) (idOf values >>= fun id =>
      .ok { key := .datetime t, id }) ↔ _
    rw [settled_id (fun id => typed_time (.keyset field) rfl nofun) (fun _ h => h) (by decide)]
    exact ⟨fun h t' ht' => Option.some.inj ht' ▸ h, fun h => h t rfl⟩
  · rw [he, hfield]
    exact iff_of_true hcaught fun _ h => nomatch h

theorem settled_auditLog : Settled [] .auditLog (keysetFields "created_at" values) ↔
    FieldsReadable values .auditLog := by
  rw [keysetFields_eq, FieldsReadable]
  rcases timeOf_cases "created_at" values with ⟨t, ht, hfield⟩ | ⟨e, he, hfield, -⟩
  · rw [ht, hfield]
    rcases idOf_cases values with ⟨id, hid, huuid, -⟩ | ⟨e, he, huuid, -, -⟩
    · rw [huuid]
      show Settled [] .auditLog (idOf values >>= fun id => .ok { key := .datetime t, id }) ↔ _
      rw [hid]
      show Keyset.Typed .auditLog _ ↔ _
      rw [typed_time .auditLog rfl nofun, number_datetime]
      exact ⟨fun h => ⟨rfl, t, rfl, h⟩, fun ⟨_, _, h, hinstant⟩ => Option.some.inj h ▸ hinstant⟩
    · rw [huuid]
      show Settled [] .auditLog (idOf values >>= fun id => .ok { key := .datetime t, id }) ↔ _
      rw [he]
      exact iff_of_false List.not_mem_nil fun h => nomatch h.1
  · rw [he, hfield]
    exact iff_of_false List.not_mem_nil fun ⟨_, _, h, _⟩ => nomatch h

/-- The decoders of webhooks and syndication, and the time that their repositories parse. -/
theorem clean_repository :
    Clean (.repository field) (do
      let (value, id) ← orMalformed keysetCaught (rawFields field values)
      let t ← orMalformed [] (datetimeOf value)
      return { key := .datetime t, id }) ↔
    FieldsReadable values (.repository field) := by
  have hraw : rawFields field values = (fieldOf field values >>= fun value =>
      idOf values >>= fun id => .ok (value, id)) := by
    simp only [rawFields, idOf, bind_assoc]
    rfl
  rw [hraw, FieldsReadable]
  unfold fieldOf timeField
  cases values.lookup field.toList with
  | none => exact iff_of_true trivial fun h => nomatch h
  | some value =>
    show Clean (.repository field) (orMalformed keysetCaught
      (idOf values >>= fun id => .ok (value, id)) >>= _) ↔ _
    -- The repository catches what the id raises, and not what the time raises later.
    rcases idOf_cases values with ⟨id, hid, huuid, htext⟩ | ⟨e, he, huuid, hcaught, hother⟩
    · rw [hid, huuid]
      show Clean (.repository field) (orMalformed [] (datetimeOf value) >>= fun t =>
        .ok { key := .datetime t, id }) ↔ _
      -- A time that does not read is raised outside the handler.
      have hbad : ∀ {e : PyException}, datetimeOf value = .error e →
          ¬Clean (.repository field) (orMalformed [] (datetimeOf value) >>= fun t =>
            .ok { key := .datetime t, id }) := by
        intro e he h
        rw [he] at h
        exact h
      cases value with
      | str s =>
        cases hparse : fromisoformat s with
        | some t =>
          rw [datetimeOf_ok hparse]
          show Keyset.Typed (.repository field) _ ↔ _
          rw [typed_time (.repository field) rfl nofun, number_datetime]
          exact ⟨fun h _ => ⟨htext, fun _ => ⟨t, hparse, h⟩⟩, fun h => by
            obtain ⟨t', ht', hinstant⟩ := (h rfl).2 rfl
            exact Option.some.inj (hparse.symm.trans ht') ▸ hinstant⟩
        | none =>
          refine iff_of_false (hbad (datetimeOf_error hparse)) fun h => ?_
          obtain ⟨t', ht', -⟩ := (h rfl).2 rfl
          exact nomatch hparse.symm.trans ht'
      | null | bool | int | float | arr | obj =>
        refine iff_of_false (hbad rfl) fun h => ?_
        obtain ⟨_, ht, -⟩ := (h rfl).2 rfl
        exact nomatch ht
    · rw [he, huuid]
      show Clean (.repository field) (.error (if e ∈ keysetCaught then malformed else _)) ↔ _
      -- An id that is no text raises what the handler does not catch.
      by_cases htext : TextOrNone (values.lookup "id".toList)
      · rw [if_pos (hcaught htext)]
        exact iff_of_true trivial fun _ => ⟨htext, fun h => nomatch h⟩
      · rw [hother htext]
        exact iff_of_false id fun h => htext (h rfl).1

/-! ### Listings -/

/-- The check of the sort raises what is caught, or lets the rest run. -/
theorem clean_checkSort {value : String} {rest : Except CursorError Keyset} :
    Clean decoder (checkSort value values >>= fun _ => rest) ↔
      (HasSort value values → Clean decoder rest) := by
  unfold checkSort fieldOf HasSort
  cases values.lookup "sort".toList with
  | none => exact iff_of_true trivial fun h => nomatch h
  | some sort =>
    show Clean decoder ((if sameSort value sort then pure () else throw _) >>= fun _ => rest) ↔ _
    by_cases hsame : sameSort value sort = true
    · rw [if_pos hsame]
      have hsort : sort = .str value.toList := by
        unfold sameSort at hsame
        split at hsame
        · rw [of_decide_eq_true hsame]
        · cases hsame
      exact ⟨fun h _ => h, fun h => h (congrArg some hsort)⟩
    · rw [if_neg hsame]
      refine iff_of_true trivial fun h => absurd ?_ hsame
      rw [Option.some.inj h]
      exact decide_eq_true rfl

/-- The key of a listing, the flag if there is one, and the `id`. -/
theorem settled_listing {byTime withFlag : Bool} {keyset : Bool → Key → UUID → Keyset}
    (hkey : ∀ featured key id, Key.isTime key = byTime →
      ((keyset featured key id).Typed decoder ↔ key.number.isSome)) :
    Settled caught decoder (do
      let key ← toKey byTime (← fieldOf "key" values)
      let featured ← if withFlag then fieldOf "featured" values else pure .null
      let id ← idOf values
      return keyset (boolOf featured) key id) ↔
    KeyReadable byTime withFlag values := by
  unfold KeyReadable fieldOf
  cases values.lookup "key".toList with
  | none =>
    have hmem : PyException.keyError ∈ caught := by decide
    exact iff_of_true hmem trivial
  | some value =>
    show Settled caught decoder (toKey byTime value >>= _) ↔
      (toKey byTime value ≠ .error .overflowError ∧ ∀ key, toKey byTime value = .ok key →
        (withFlag = true → (values.lookup "featured".toList).isSome) → IdReadable values key)
    cases hvalue : toKey byTime value with
    | error e =>
      show e ∈ caught ↔ _
      constructor
      · intro hmem
        -- The one uncaught error of a key is an overflow.
        refine ⟨fun h => ?_, fun _ h => nomatch h⟩
        cases h
        exact absurd hmem (by decide)
      · intro h
        exact (toKey_error hvalue).resolve_right fun he => h.1 (he ▸ rfl)
    | ok key =>
      have htime := toKey_isTime hvalue
      have hrest : ∀ featured, Settled caught decoder (idOf values >>= fun id =>
          .ok (keyset featured key id)) ↔ IdReadable values key := fun featured =>
        settled_id (fun id => hkey featured key id htime) (by decide) (by decide)
      have hread : ∀ {P : Prop}, P → (IdReadable values key ↔
          ((Except.ok key : Except PyException Key) ≠ .error .overflowError ∧
            ∀ key', (Except.ok key : Except PyException Key) = .ok key' → P →
              IdReadable values key')) := by
        intro P hP
        refine ⟨fun h => ⟨fun h => (nomatch h), fun key' heq _ => ?_⟩, fun h => h.2 key rfl hP⟩
        cases heq
        exact h
      cases withFlag with
      | false =>
        show Settled caught decoder (idOf values >>= fun id =>
          .ok (keyset (boolOf .null) key id)) ↔ _
        exact (hrest _).trans (hread fun h => (nomatch h))
      | true =>
        cases values.lookup "featured".toList with
        | none =>
          have hmem : PyException.keyError ∈ caught := by decide
          exact iff_of_true hmem ⟨fun h => (nomatch h), fun _ _ h => nomatch h rfl⟩
        | some featured =>
          show Settled caught decoder (idOf values >>= fun id =>
            .ok (keyset (boolOf featured) key id)) ↔ _
          exact (hrest _).trans (hread fun _ => rfl)

/-! ### Every decoder -/

/-- A keyset of the public search. -/
theorem typed_public (sort : SearchSort) {featured : Bool} {key : Key} {id : UUID}
    (htime : Key.isTime key = decide (sort = .newest)) :
    Keyset.Typed (.publicListings sort) { featured := some featured, key, id } ↔
      key.number.isSome := by
  constructor
  · exact Keyset.Typed.comparable
  · intro h
    exact ⟨htime, h, iff_of_true rfl ⟨sort, rfl⟩⟩

/-- A keyset of the portal's list. -/
theorem typed_portal (sort : PortalSort) {key : Key} {id : UUID}
    (htime : Key.isTime key = decide (sort = .newest ∨ sort = .updated)) :
    Keyset.Typed (.portalListings sort) { key, id } ↔ key.number.isSome := by
  constructor
  · exact Keyset.Typed.comparable
  · intro h
    exact ⟨htime, h, iff_of_false (fun h => nomatch h) fun ⟨_, hsort⟩ => nomatch hsort⟩

/-- What is read is put together in the `try` block or after it. -/
theorem orMalformed_map {α β : Type} (c : List PyException) (result : Except PyException α)
    (f : α → β) :
    (orMalformed c result >>= fun a => .ok (f a)) = orMalformed c (f <$> result) := by
  cases result <;> rfl

theorem clean_publicListings (sort : SearchSort) :
    Clean (.publicListings sort) (do
      checkSort sort.value values
      let (featured, key, id) ← orMalformed caught (publicFields sort values)
      return { featured := some featured, key, id }) ↔
    FieldsReadable values (.publicListings sort) := by
  rw [clean_checkSort, FieldsReadable]
  refine forall_congr' fun _ => ?_
  rw [← @settled_listing values (.publicListings sort) _ _
    (fun featured key id => { featured := some featured, key, id })
    fun _ _ _ htime => typed_public sort htime, ← clean_orMalformed]
  have hfields : (do
      let key ← toKey (sort = .newest) (← fieldOf "key" values)
      let featured ← if true then fieldOf "featured" values else pure .null
      let id ← idOf values
      return { featured := some (boolOf featured), key, id }) =
      (fun (featured, key, id) => { featured := some featured, key, id : Keyset }) <$>
        publicFields sort values := by
    simp only [publicFields, idOf, map_bind, bind_assoc, map_pure, if_true]
  rw [hfields, ← orMalformed_map]
  rfl

/-- The inventory. -/
theorem clean_portalListings (sort : PortalSort) :
    Clean (.portalListings sort) (do
      checkSort sort.value values
      let (key, id) ← orMalformed caught (portalFields sort values)
      return { key, id }) ↔
    FieldsReadable values (.portalListings sort) := by
  rw [clean_checkSort, FieldsReadable]
  refine forall_congr' fun _ => ?_
  rw [← @settled_listing values (.portalListings sort) _ _ (fun _ key id => { key, id })
    fun _ _ _ htime => typed_portal sort htime, ← clean_orMalformed]
  have hfields : (do
      let key ← toKey (sort = .newest ∨ sort = .updated) (← fieldOf "key" values)
      let _ ← if false then fieldOf "featured" values else pure .null
      let id ← idOf values
      return { key, id }) =
      (fun (key, id) => { key, id : Keyset }) <$> portalFields sort values := by
    simp [portalFields, idOf, map_bind]
  rw [hfields, ← orMalformed_map]
  rfl

/-! ### Every decoder -/

/-- The decoders on the fields of an object. -/
def decodeFields (values : CursorFields) : Decoder → Except CursorError Keyset
  | .publicListings sort => do
    checkSort sort.value values
    let (featured, key, id) ← orMalformed caught (publicFields sort values)
    return { featured := some featured, key, id }
  | .portalListings sort => do
    checkSort sort.value values
    let (key, id) ← orMalformed caught (portalFields sort values)
    return { key, id }
  | .keyset field => orMalformed keysetCaught (keysetFields field values)
  | .auditLog => orMalformed [] (keysetFields "created_at" values)
  | .repository field => do
    let (value, id) ← orMalformed keysetCaught (rawFields field values)
    let t ← orMalformed [] (datetimeOf value)
    return { key := .datetime t, id }

/-- All decoders read the JSON first. -/
theorem decode_eq (depth : Nat) (cursor : Text) (decoder : Decoder) :
    decode depth cursor decoder =
      (decodeCursor depth cursor >>= fun values => decodeFields values decoder) := by
  cases decoder with
  | publicListings sort =>
    simp only [decode, decodePublicCursor, decodeFields, bind_assoc]
  | portalListings sort =>
    simp only [decode, decodePortalCursor, decodeFields, bind_assoc]
  | keyset field => rfl
  | auditLog => rfl
  | repository field => rfl

/-- **Which fields are decoded, or refused as malformed, at every endpoint.** -/
theorem clean_decodeFields : Clean decoder (decodeFields values decoder) ↔
    FieldsReadable values decoder := by
  cases decoder with
  | publicListings sort => exact clean_publicListings sort
  | portalListings sort => exact clean_portalListings sort
  | keyset field => exact clean_orMalformed.trans settled_keyset
  | auditLog => exact clean_orMalformed.trans settled_auditLog
  | repository field => exact clean_repository

/-- **Cursors are total, of readable values.** For every string, a decoder returns a keyset of
the types that its query compares, or raises `InvalidCursorError`, if and only if what the
string encodes is readable. -/
theorem decode_total (depth : Nat) (cursor : Text) (decoder : Decoder) :
    Clean decoder (decode depth cursor decoder) ↔ Readable depth cursor decoder := by
  rw [decode_eq, decodeCursor, Readable]
  cases loadsCursor depth cursor with
  | error e =>
    show Clean decoder (.error (if e ∈ _ then malformed else .uncaught e)) ↔ _
    by_cases h : e ∈ [PyException.binasciiError, .jsonDecodeError, .unicodeDecodeError]
    · rw [if_pos h]
      exact iff_of_true trivial h
    · rw [if_neg h]
      exact iff_of_false id h
  | ok value =>
    cases value with
    | obj values => exact clean_decodeFields
    | null | bool | int | float | arr | str => exact iff_of_true trivial trivial

end

/-- A time without a zone, with an `id`. -/
def naiveCursor : Text :=
  encodeCursor [("created_at".toList, .str "2024-01-01T00:00:00".toList),
    ("id".toList, .str "00000000000000000000000000000001".toList)]

/-- An `id` that is no string. -/
def flagCursor : Text :=
  encodeCursor [("created_at".toList, .str "2024-01-01T00:00:00+00:00".toList),
    ("id".toList, .bool true)]

/-- A keyset of a time that is read and of any `id`. -/
theorem decode_createdAt {time : Text} {t : Datetime} (ht : fromisoformat time = some t)
    (id : Scalar) :
    decode 1000 (encodeCursor [("created_at".toList, .str time), ("id".toList, id)])
        (.keyset "created_at") =
      orMalformed keysetCaught ((uuidOf id.toJson).map fun id => { key := .datetime t, id }) := by
  have hkeys : (["created_at".toList, "id".toList] : List Text).Nodup := by simp
  have hvalue : fieldOf "created_at" [("created_at".toList, .str time), ("id".toList, id.toJson)] =
      .ok (.str time) := by simp [fieldOf]
  have hid : fieldOf "id" [("created_at".toList, .str time), ("id".toList, id.toJson)] =
      .ok id.toJson := by simp [fieldOf, List.lookup_cons]
  have htime : datetimeOf (.str time) = .ok t := by simp only [datetimeOf, ht]
  have hread := @decodeCursor_encodeCursor 1000 (by decide)
    [("created_at".toList, .str time), ("id".toList, id)] hkeys
  rw [decode, hread]
  show orMalformed keysetCaught (keysetFields "created_at" [("created_at".toList, .str time),
    ("id".toList, id.toJson)]) = _
  rw [keysetFields, hvalue, hid]
  show orMalformed keysetCaught ((datetimeOf (.str time)).bind fun t =>
    (uuidOf id.toJson).bind fun id => .ok (Keyset.mk none (.datetime t) id)) = _
  rw [htime]
  cases uuidOf id.toJson <;> rfl

/-- A naive time is returned as it is, and an `id` that is no string raises an
`AttributeError`. -/
theorem decode_not_total :
    (∃ keyset, decode 1000 naiveCursor (.keyset "created_at") = .ok keyset ∧
      ¬Keyset.Typed (.keyset "created_at") keyset) ∧
    decode 1000 flagCursor (.keyset "created_at") = .error (.uncaught .attributeError) ∧
    ¬∀ depth cursor decoder, Clean decoder (decode depth cursor decoder) := by
  have hflag : decode 1000 flagCursor (.keyset "created_at") =
      .error (.uncaught .attributeError) := by
    have htime : (fromisoformat "2024-01-01T00:00:00+00:00".toList).isSome = true := by
      rw [String.toList_ofList]
      decide +kernel
    obtain ⟨t, ht⟩ := Option.isSome_iff_exists.1 htime
    exact decode_createdAt ht (.bool true)
  refine ⟨?_, hflag, fun h => ?_⟩
  · let t : Datetime := ⟨⟨2024, 1, 1, 0, 0, 0, 0, none⟩, by decide⟩
    have htime : fromisoformat "2024-01-01T00:00:00".toList = some t := by
      rw [String.toList_ofList]
      decide +kernel
    have hid : parseUuid "00000000000000000000000000000001".toList = some 1 := by
      rw [String.toList_ofList]
      decide +kernel
    refine ⟨{ key := .datetime t, id := 1 }, ?_, fun h => ?_⟩
    · rw [naiveCursor, decode_createdAt htime, Scalar.toJson, uuidOf, hid]
      rfl
    · exact absurd h.comparable (by decide)
  · have hclean := h 1000 flagCursor (.keyset "created_at")
    rw [hflag] at hclean
    exact hclean

end Cursors

end Listings

end RealEstate
