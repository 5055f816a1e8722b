import RealEstate.Core.Pagination
import RealEstate.Systems.Digests
import RealEstate.Systems.Timestamps
import RealEstate.Tenants.Lifecycle

/-!
# The webhooks of the sandbox billing provider (`integrations/billing/stub.py`)

A webhook carries a header `t=<seconds>,v1=<hmac>` and a JSON body.

- `signPayload`, `verifyAndParseWebhook`: the header of a payload, and what is made of a header
  and a payload at a moment, in microseconds since 1970.
- `Readable`: the condition on the header and the body under which only declared exceptions are
  raised.
- `webhook_declared`: it is exact; an event comes only of a fresh HMAC, and a signed event is
  read back.
-/

namespace RealEstate

namespace Integrations

namespace Billing

open RealEstate.Core Systems
open RealEstate.Tenants (BillingEventType)

/-- How a webhook fails. -/
inductive Raised where
  | webhookVerificationError (message : String)
  | unhandledBillingEvent (eventId : Text)
  | uncaught (e : PyException)

/-- `BillingEvent`. What is lifted out of the raw event is of any JSON type. -/
structure BillingEvent where
  provider : Text
  eventId : Text
  type : BillingEventType
  createdAt : ℤ
  subscriptionId : JsonValue
  customerId : JsonValue
  plan : JsonValue
  currentPeriodEnd : Option ℤ
  raw : List (Text × JsonValue)

/-- The provider's name. -/
def providerKey : Text := "stub".toList

/-- Five minutes. -/
def webhookTolerance : ℤ := 300000000

/-- `_EVENT_TYPE_MAP`. -/
def eventTypeMap : List (Text × BillingEventType) :=
  [("subscription.activated".toList, .subscriptionActivated),
    ("subscription.renewed".toList, .subscriptionRenewed),
    ("payment.failed".toList, .paymentFailed),
    ("subscription.canceled".toList, .subscriptionCanceled)]

/-- An exception that nothing catches. -/
def raises {α : Type} (result : Except PyException α) : Except Raised α :=
  result.mapError .uncaught

/-! ### Header -/

/-- `item.split("=", 1)`, of the items with a `=`. -/
def headerParts (signature : Text) : List (Text × Text) :=
  ((signature.splitOn ',').filter ('=' ∈ ·)).map fun item =>
    ((partition '=' item).1, (partition '=' item).2.2)

/-- `dict(items)[key]`: of two items with a key, the last counts. -/
def partOf (key : Text) (parts : List (Text × Text)) : Option Text := parts.reverse.lookup key

/-- The timestamp and the signature in a header. -/
def headerOf (signature : Text) : Option (ℤ × Text) := do
  let timestamp ← (partOf ['t'] (headerParts signature)).bind (parseInt 10)
  let provided ← partOf ['v', '1'] (headerParts signature)
  return (timestamp, provided)

/-- `_parse_header`. -/
def parseHeader (signature : Text) : Except Raised (ℤ × Text) :=
  match headerOf signature with
  | some parts => .ok parts
  | none => .error (.webhookVerificationError "Malformed signature header.")

/-! ### Body -/

/-- `value.get`, for the method of an object. -/
def objectOf : JsonValue → Except PyException (List (Text × JsonValue))
  | .obj fields => .ok fields
  | _ => .error .attributeError

/-- `fields.get(key)`. -/
def getOf (key : String) (fields : List (Text × JsonValue)) : JsonValue :=
  (fields.lookup key.toList).getD .null

/-- `value or {}`. -/
def orEmpty (value : JsonValue) : JsonValue := if boolOf value then value else .obj []

/-- `datetime.fromtimestamp(value, tz=UTC) if isinstance(value, int | float) else None`. -/
def periodEndOf : JsonValue → Except PyException (Option ℤ)
  | .int n => (utcOfSeconds n).map some
  | .bool b => (utcOfSeconds b.toNat).map some
  | .float x => (utcOfFloat x).map some
  | _ => .ok none

section

-- `hmac.new(secret, _, sha256)`, how deep a JSON value may nest, and `repr` of a float, a list
-- and an object.
variable (hmac : Bytes → Bytes → Fin (2 ^ 256)) (depth : Nat)
  (repr : JsonValue → Except PyException Text) (secret : Bytes)

/-- `str(value)`. -/
def strOf : JsonValue → Except PyException Text
  | .str t => .ok t
  | .null => .ok "None".toList
  | .bool b => .ok (if b then "True".toList else "False".toList)
  | .int n => .ok (intText n)
  | value => repr value

/-- `_hmac`. -/
def hmacHex (timestamp : ℤ) (payload : Bytes) : Text :=
  numeral 16 64 (hmac secret (encodeUtf8 (intText timestamp ++ ['.']) ++ payload))

/-- The timestamp that a payload is signed with at a moment. -/
def signingSeconds (moment : ℤ) : ℤ := truncate (timestamp moment)

/-- `sign_payload`. -/
def signPayload (payload : Bytes) (moment : ℤ) : Text :=
  let ts := signingSeconds moment
  't' :: '=' :: intText ts ++ ",v1=".toList ++ hmacHex hmac secret ts payload

/-- `json.loads(payload)`, with what is caught. -/
def loadsPayload (payload : Bytes) : Except Raised JsonValue :=
  match loads depth payload with
  | .ok value => .ok value
  | .error e =>
    .error (if e ∈ [PyException.jsonDecodeError, .unicodeDecodeError, .valueError, .typeError] then
      .webhookVerificationError "Webhook payload is not valid JSON."
    else .uncaught e)

/-- `BillingEvent(...)`, of an event that is acted on. -/
def buildEvent (fields : List (Text × JsonValue)) (type : BillingEventType) (eventTime : ℤ) :
    Except PyException BillingEvent := do
  let data ← objectOf (orEmpty (getOf "data" fields))
  let eventId ← strOf repr (getOf "id" fields)
  let currentPeriodEnd ← periodEndOf (getOf "current_period_end" data)
  return {
    provider := providerKey
    eventId
    type
    createdAt := eventTime
    subscriptionId := getOf "subscription_id" data
    customerId := getOf "customer_id" data
    plan := getOf "plan" data
    currentPeriodEnd
    raw := fields }

/-- `_parse_event`, of an object. -/
def parseFields (fields : List (Text × JsonValue)) (eventTime : ℤ) :
    Except Raised BillingEvent := do
  let name ← raises (strOf repr (getOf "type" fields))
  let eventId := getOf "id" fields
  if boolOf eventId then
    match eventTypeMap.lookup name with
    | some type => raises (buildEvent repr fields type eventTime)
    | none => throw (.unhandledBillingEvent (← raises (strOf repr eventId)))
  else throw (.unhandledBillingEvent [])

/-- `_parse_event`. -/
def parseEvent (payload : Bytes) (eventTime : ℤ) : Except Raised BillingEvent := do
  let body ← loadsPayload depth payload
  parseFields repr (← raises (objectOf body)) eventTime

/-- `verify_and_parse_webhook`. -/
def verifyAndParseWebhook (payload : Bytes) (signature : Text) (now : ℤ) :
    Except Raised BillingEvent := do
  let (timestamp, provided) ← parseHeader signature
  if ← raises (compareDigest provided (hmacHex hmac secret timestamp payload)) then
    let eventTime ← raises (utcOfSeconds timestamp)
    if webhookTolerance < |now - eventTime| then
      throw (.webhookVerificationError "Webhook timestamp is outside the tolerance window.")
    parseEvent depth repr payload eventTime
  else throw (.webhookVerificationError "Signature verification failed.")

/-! ### What is declared -/

/-- An event, or one of the declared exceptions. -/
def Declared : Except Raised BillingEvent → Prop
  | .ok _ | .error (.webhookVerificationError _) | .error (.unhandledBillingEvent _) => True
  | .error (.uncaught _) => False

/-- The header carries the HMAC of its timestamp and the payload, and the timestamp is fresh. -/
def Carries (payload : Bytes) (signature : Text) (now : ℤ) : Prop :=
  ∃ ts, headerOf signature = some (ts, hmacHex hmac secret ts payload) ∧
    |now - ts * 1000000| ≤ webhookTolerance

/-- The object under `data`; a value that counts as false is as good as none. -/
def DataIs (fields data : List (Text × JsonValue)) : Prop :=
  getOf "data" fields = .obj data ∨ boolOf (getOf "data" fields) = false ∧ data = []

/-- The payload encodes a known event. -/
structure Encodes (payload : Bytes) (event : BillingEvent) : Prop where
  provider : event.provider = providerKey
  body : loads depth payload = .ok (.obj event.raw)
  type : ∃ name, getOf "type" event.raw = .str name ∧
    eventTypeMap.lookup name = some event.type
  id : boolOf (getOf "id" event.raw) ∧ strOf repr (getOf "id" event.raw) = .ok event.eventId
  data : ∃ data, DataIs event.raw data ∧
    event.subscriptionId = getOf "subscription_id" data ∧
    event.customerId = getOf "customer_id" data ∧ event.plan = getOf "plan" data ∧
    periodEndOf (getOf "current_period_end" data) = .ok event.currentPeriodEnd

/-! ### When it is so -/

/-- A number is a moment in the years from 1 to 9999. -/
def Datable : JsonValue → Prop
  | .int n => InYears n
  | .float (.decimal negative mantissa exponent) =>
    InYears (momentOf (doubleOf negative mantissa exponent) / 1000000)
  | .float _ => False
  | _ => True

/-- The fields of a body. -/
structure FieldsReadable (fields : List (Text × JsonValue)) : Prop where
  type : ∃ name, strOf repr (getOf "type" fields) = .ok name
  id : boolOf (getOf "id" fields) → ∃ t, strOf repr (getOf "id" fields) = .ok t
  data : ∀ name type, strOf repr (getOf "type" fields) = .ok name →
    eventTypeMap.lookup name = some type → boolOf (getOf "id" fields) →
    ∃ data, DataIs fields data ∧ Datable (getOf "current_period_end" data)

/-- A body is no JSON, or a readable object. -/
def PayloadReadable (payload : Bytes) : Prop :=
  match loads depth payload with
  | .ok (.obj fields) => FieldsReadable repr fields
  | .ok _ => False
  | .error e => e ∈ [PyException.jsonDecodeError, .unicodeDecodeError, .valueError, .typeError]

/-- The signature in the header is ASCII. If it is the HMAC, its timestamp is a moment, and if
that is fresh, the body is readable. -/
def Readable (payload : Bytes) (signature : Text) (now : ℤ) : Prop :=
  ∀ ts provided, headerOf signature = some (ts, provided) →
    isAscii provided ∧ (provided = hmacHex hmac secret ts payload →
      InYears ts ∧ (|now - ts * 1000000| ≤ webhookTolerance → PayloadReadable depth repr payload))

end

/-! ### Bodies -/

section

variable {hmac : Bytes → Bytes → Fin (2 ^ 256)} {depth : Nat}
  {repr : JsonValue → Except PyException Text} {secret : Bytes} {payload : Bytes}

/-- What is not caught must not be raised. -/
theorem declared_raises_bind {α : Type} {result : Except PyException α}
    {f : α → Except Raised BillingEvent} :
    Declared (raises result >>= f) ↔ ∃ a, result = .ok a ∧ Declared (f a) := by
  cases result with
  | error e => exact iff_of_false id fun ⟨_, h, _⟩ => nomatch h
  | ok a => exact ⟨fun h => ⟨a, rfl, h⟩, fun ⟨_, h, hf⟩ => Except.ok.inj h ▸ hf⟩

/-- Only a value is no exception here. -/
theorem declared_raises {result : Except PyException BillingEvent} :
    Declared (raises result) ↔ ∃ event, result = .ok event := by
  cases result with
  | error e => exact iff_of_false id fun ⟨_, h⟩ => nomatch h
  | ok event => exact iff_of_true trivial ⟨event, rfl⟩

theorem objectOf_eq_ok {value : JsonValue} {fields : List (Text × JsonValue)} :
    objectOf value = .ok fields ↔ value = .obj fields := by
  cases value with
  | obj xs => exact ⟨fun h => congrArg _ (Except.ok.inj h), fun h => by cases h; rfl⟩
  | null | bool | int | float | str | arr =>
    exact iff_of_false (fun h => nomatch h) fun h => nomatch h

/-- An object, or nothing at all. -/
theorem objectOf_orEmpty {fields data : List (Text × JsonValue)} :
    objectOf (orEmpty (getOf "data" fields)) = .ok data ↔ DataIs fields data := by
  rw [objectOf_eq_ok, DataIs, orEmpty]
  by_cases h : boolOf (getOf "data" fields) = true
  · rw [if_pos h]
    simp [h]
  · rw [if_neg h]
    constructor
    · intro heq
      cases heq
      exact .inr ⟨Bool.eq_false_of_not_eq_true h, rfl⟩
    · rintro (heq | ⟨-, rfl⟩)
      · rw [heq] at h
        cases data with
        | nil => rfl
        | cons x xs => exact absurd rfl h
      · rfl

theorem map_some_isOk {result : Except PyException ℤ} :
    (∃ t, result.map some = .ok t) ↔ ∃ n, result = .ok n := by
  cases result with
  | error e => exact iff_of_false (fun ⟨_, h⟩ => nomatch h) fun ⟨_, h⟩ => nomatch h
  | ok n => exact iff_of_true ⟨some n, rfl⟩ ⟨n, rfl⟩

/-- `fromtimestamp` is bounded by the years. -/
theorem utcOfMoment_isOk {moment : ℤ} :
    (∃ t, utcOfMoment moment = .ok t) ↔ InYears (moment / 1000000) := by
  constructor
  · rintro ⟨t, ht⟩
    by_contra h
    obtain ⟨e, he⟩ := utcOfMoment_error h
    exact nomatch ht.symm.trans he
  · intro h
    exact ⟨moment, utcOfMoment_ok h⟩

/-- A period's end is none, or a time that has a date. -/
theorem periodEndOf_isOk {value : JsonValue} :
    (∃ t, periodEndOf value = .ok t) ↔ Datable value := by
  cases value with
  | int n =>
    show (∃ t, (utcOfMoment (n * 1000000)).map some = .ok t) ↔ InYears n
    rw [map_some_isOk, utcOfMoment_isOk, Int.mul_ediv_cancel n (by decide)]
  | bool b =>
    refine iff_of_true ?_ trivial
    show ∃ t, (utcOfMoment (b.toNat * 1000000)).map some = .ok t
    rw [map_some_isOk, utcOfMoment_isOk, Int.mul_ediv_cancel _ (by decide)]
    cases b <;> decide
  | float x =>
    cases x with
    | decimal negative mantissa exponent =>
      show (∃ t, (utcOfMoment _).map some = .ok t) ↔ InYears _
      rw [map_some_isOk, utcOfMoment_isOk]
    | infinity | nan => exact iff_of_false (fun ⟨_, h⟩ => nomatch h) id
  | null | str | arr | obj => exact iff_of_true ⟨none, rfl⟩ trivial

/-- What the body must have to make an event. -/
theorem buildEvent_isOk {fields : List (Text × JsonValue)} {type : BillingEventType}
    {eventTime : ℤ} :
    (∃ event, buildEvent repr fields type eventTime = .ok event) ↔
      (∃ data, DataIs fields data ∧ Datable (getOf "current_period_end" data)) ∧
        ∃ t, strOf repr (getOf "id" fields) = .ok t := by
  simp only [← objectOf_orEmpty, ← periodEndOf_isOk]
  unfold buildEvent
  cases objectOf (orEmpty (getOf "data" fields)) with
  | error e => exact iff_of_false (fun ⟨_, h⟩ => nomatch h) fun ⟨⟨_, h, _⟩, _⟩ => nomatch h
  | ok data =>
    cases strOf repr (getOf "id" fields) with
    | error e => exact iff_of_false (fun ⟨_, h⟩ => nomatch h) fun ⟨_, _, h⟩ => nomatch h
    | ok id =>
      cases hperiod : periodEndOf (getOf "current_period_end" data) with
      | error e =>
        refine iff_of_false ?_ ?_
        · rintro ⟨event, h⟩
          simp [bind, Except.bind, hperiod] at h
        · rintro ⟨⟨data', hdata, t, ht⟩, -⟩
          cases hdata
          exact nomatch hperiod.symm.trans ht
      | ok period =>
        refine iff_of_true ?_ ⟨⟨data, rfl, period, hperiod⟩, id, rfl⟩
        simp [bind, Except.bind, hperiod, pure, Except.pure]

/-- When the fields of the body are read without another exception. -/
theorem declared_parseFields {fields : List (Text × JsonValue)} {eventTime : ℤ} :
    Declared (parseFields repr fields eventTime) ↔ FieldsReadable repr fields := by
  rw [parseFields, declared_raises_bind]
  constructor
  · rintro ⟨name, hname, h⟩
    -- An event without an id is the declared error, whatever else it holds.
    by_cases hid : boolOf (getOf "id" fields) = true
    · rw [if_pos hid] at h
      cases htype : eventTypeMap.lookup name with
      | some type =>
        rw [htype] at h
        obtain ⟨hdata, ht⟩ := buildEvent_isOk.1 (declared_raises.1 h)
        refine ⟨⟨name, hname⟩, fun _ => ht, fun _ _ _ _ _ => hdata⟩
      | none =>
        -- An unknown type is answered with its id and its name, and its data is not read.
        rw [htype] at h
        obtain ⟨t, ht, -⟩ := declared_raises_bind.1 h
        refine ⟨⟨name, hname⟩, fun _ => ⟨t, ht⟩, fun name' type hname' htype' _ => ?_⟩
        rw [hname] at hname'
        cases hname'
        exact nomatch htype.symm.trans htype'
    · exact ⟨⟨name, hname⟩, fun h => absurd h hid, fun _ _ _ _ h => absurd h hid⟩
  · rintro ⟨⟨name, hname⟩, hstr, hdata⟩
    refine ⟨name, hname, ?_⟩
    by_cases hid : boolOf (getOf "id" fields) = true
    · rw [if_pos hid]
      cases htype : eventTypeMap.lookup name with
      | some type =>
        exact declared_raises.2 (buildEvent_isOk.2 ⟨hdata name type hname htype hid, hstr hid⟩)
      | none =>
        obtain ⟨t, ht⟩ := hstr hid
        exact declared_raises_bind.2 ⟨t, ht, trivial⟩
    · rw [if_neg hid]
      trivial

/-- The same of the body itself. -/
theorem declared_parseEvent {eventTime : ℤ} :
    Declared (parseEvent depth repr payload eventTime) ↔ PayloadReadable depth repr payload := by
  unfold parseEvent loadsPayload PayloadReadable
  cases loads depth payload with
  | error e =>
    show Declared (.error (if _ then _ else _)) ↔ _
    split
    · next h => exact iff_of_true trivial h
    · next h => exact iff_of_false id h
  | ok value =>
    show Declared (raises (objectOf value) >>= _) ↔ _
    rw [declared_raises_bind]
    cases value with
    | obj fields =>
      exact ⟨fun ⟨_, h, hparse⟩ => declared_parseFields.1 (Except.ok.inj h ▸ hparse),
        fun h => ⟨fields, rfl, declared_parseFields.2 h⟩⟩
    | null | bool | int | float | str | arr =>
      exact iff_of_false (fun ⟨_, h, _⟩ => nomatch h) id

/-! ### Headers -/

theorem isAscii_hmacHex (ts : ℤ) : isAscii (hmacHex hmac secret ts payload) = true := by
  refine List.all_eq_true.2 fun c hc => decide_eq_true ?_
  by_contra hlarge
  refine not_mem_numeral (by decide) (by decide) ?_ hc
  cases hvalue : digitValue c with
  | none => rw [digit, hvalue]; rfl
  | some d =>
    have hplain := (plain_of_digit (c := c) (by rw [hvalue]; rfl)).1
    omega

/-- The comparison with the signature raises on text that is not ASCII. -/
theorem compareDigest_hmacHex (provided : Text) (ts : ℤ) :
    compareDigest provided (hmacHex hmac secret ts payload) =
      if isAscii provided then .ok (decide (provided = hmacHex hmac secret ts payload))
      else .error .typeError :=
  compareDigest_of_ascii (isAscii_hmacHex ts)

/-- What a webhook with a header ends with. -/
theorem verify_eq {signature provided : Text} {now ts : ℤ}
    (h : headerOf signature = some (ts, provided)) :
    verifyAndParseWebhook hmac depth repr secret payload signature now =
      (raises (compareDigest provided (hmacHex hmac secret ts payload)) >>= fun same =>
        if same then raises (utcOfSeconds ts) >>= fun eventTime =>
          if webhookTolerance < |now - eventTime| then
            .error (.webhookVerificationError "Webhook timestamp is outside the tolerance window.")
          else parseEvent depth repr payload eventTime
        else .error (.webhookVerificationError "Signature verification failed.")) := by
  unfold verifyAndParseWebhook parseHeader
  rw [h]
  rfl

/-- With a header that names a time and a signature. -/
theorem readable_of_header {signature provided : Text} {now ts : ℤ}
    (h : headerOf signature = some (ts, provided)) :
    Readable hmac depth repr secret payload signature now ↔ isAscii provided ∧
      (provided = hmacHex hmac secret ts payload → InYears ts ∧
        (|now - ts * 1000000| ≤ webhookTolerance → PayloadReadable depth repr payload)) := by
  unfold Readable
  rw [h]
  constructor
  · intro hread
    exact hread ts provided rfl
  · rintro hread _ _ ⟨⟩
    exact hread

/-- **When the webhook raises nothing but its own error.** -/
theorem declared_verify (payload : Bytes) (signature : Text) (now : ℤ) :
    Declared (verifyAndParseWebhook hmac depth repr secret payload signature now) ↔
      Readable hmac depth repr secret payload signature now := by
  cases hheader : headerOf signature with
  | none =>
    refine iff_of_true ?_ fun _ _ h => nomatch hheader.symm.trans h
    unfold verifyAndParseWebhook parseHeader
    rw [hheader]
    trivial
  | some parts =>
    obtain ⟨ts, provided⟩ := parts
    rw [readable_of_header hheader, verify_eq hheader, compareDigest_hmacHex]
    by_cases hascii : isAscii provided = true
    · rw [if_pos hascii]
      show Declared (if decide (provided = _) = true then _ else _) ↔ _
      by_cases hsame : provided = hmacHex hmac secret ts payload
      · rw [if_pos (decide_eq_true hsame), declared_raises_bind]
        constructor
        · rintro ⟨eventTime, htime, h⟩
          refine ⟨hascii, fun _ => ?_⟩
          have hyears : InYears ts := by
            by_contra hyears
            obtain ⟨e, he⟩ := utcOfSeconds_error hyears
            exact nomatch htime.symm.trans he
          rw [utcOfSeconds_ok hyears] at htime
          cases htime
          -- An old event is refused before its payload is read.
          refine ⟨hyears, fun hfresh => ?_⟩
          rw [if_neg (not_lt.2 hfresh)] at h
          exact declared_parseEvent.1 h
        · rintro ⟨-, h⟩
          obtain ⟨hyears, hpayload⟩ := h hsame
          refine ⟨_, utcOfSeconds_ok hyears, ?_⟩
          by_cases hfresh : webhookTolerance < |now - ts * 1000000|
          · rw [if_pos hfresh]
            trivial
          · rw [if_neg hfresh]
            exact declared_parseEvent.2 (hpayload (not_lt.1 hfresh))
      · -- The wrong signature is the declared error, whatever the rest.
        rw [if_neg fun h => hsame (of_decide_eq_true h)]
        exact iff_of_true trivial ⟨hascii, fun h => absurd h hsame⟩
    · -- A signature that is not ASCII raises in the comparison.
      rw [if_neg hascii]
      exact iff_of_false id fun h => hascii h.1

/-- What was checked before an event is returned. -/
theorem verify_ok {signature : Text} {now : ℤ} {event : BillingEvent}
    (h : verifyAndParseWebhook hmac depth repr secret payload signature now = .ok event) :
    ∃ ts, headerOf signature = some (ts, hmacHex hmac secret ts payload) ∧ InYears ts ∧
      |now - ts * 1000000| ≤ webhookTolerance ∧
      parseEvent depth repr payload (ts * 1000000) = .ok event := by
  cases hheader : headerOf signature with
  | none =>
    unfold verifyAndParseWebhook parseHeader at h
    rw [hheader] at h
    cases h
  | some parts =>
    obtain ⟨ts, provided⟩ := parts
    rw [verify_eq hheader, compareDigest_hmacHex] at h
    by_cases hascii : isAscii provided = true
    · rw [if_pos hascii] at h
      change (if decide (provided = _) = true then _ else _) = _ at h
      split at h
      · next hsame =>
        have hyears : InYears ts := by
          by_contra hyears
          obtain ⟨e, he⟩ := utcOfSeconds_error hyears
          rw [he] at h
          cases h
        rw [utcOfSeconds_ok hyears] at h
        change (if webhookTolerance < |now - ts * 1000000| then _ else _) = _ at h
        split at h
        · cases h
        · next hfresh =>
          -- The signature is right, the time is near, and the payload parses.
          exact ⟨ts, of_decide_eq_true hsame ▸ rfl, hyears, not_lt.1 hfresh, h⟩
      · cases h
    · rw [if_neg hascii] at h
      cases h

/-- A fresh HMAC leads to the body. -/
theorem verify_of_header {signature : Text} {now ts : ℤ}
    (h : headerOf signature = some (ts, hmacHex hmac secret ts payload)) (hyears : InYears ts)
    (hfresh : |now - ts * 1000000| ≤ webhookTolerance) :
    verifyAndParseWebhook hmac depth repr secret payload signature now =
      parseEvent depth repr payload (ts * 1000000) := by
  rw [verify_eq h, compareDigest_hmacHex, if_pos (isAscii_hmacHex ts)]
  show (if decide (_ = _) = true then raises (utcOfSeconds ts) >>= _ else _) = _
  rw [if_pos (decide_eq_true rfl), utcOfSeconds_ok hyears]
  exact if_neg (not_lt.2 hfresh)

/-! ### Signed payloads -/

/-- What a signed header is read as. -/
theorem headerOf_signPayload (moment : ℤ) :
    headerOf (signPayload hmac secret payload moment) =
      (parseInt 10 (intText (signingSeconds moment))).map fun ts =>
        (ts, hmacHex hmac secret (signingSeconds moment) payload) := by
  have htime : ',' ∉ intText (signingSeconds moment) := not_mem_intText rfl (by decide) _
  have hhex : ',' ∉ hmacHex hmac secret (signingSeconds moment) payload :=
    not_mem_numeral (by decide) (by decide) (by decide)
  -- Neither the time nor the digest holds a comma, so the header has its two parts.
  have hsplit : (signPayload hmac secret payload moment).splitOn ',' =
      ['t' :: '=' :: intText (signingSeconds moment),
        'v' :: '1' :: '=' :: hmacHex hmac secret (signingSeconds moment) payload] := by
    have hjoin : signPayload hmac secret payload moment =
        ('t' :: '=' :: intText (signingSeconds moment)) ++
          ',' :: ('v' :: '1' :: '=' :: hmacHex hmac secret (signingSeconds moment) payload) := by
      simp [signPayload]
    rw [hjoin, List.splitOn_append_cons_self, List.splitOn_eq_singleton (by simpa using htime),
      List.splitOn_eq_singleton (by simpa using hhex)]
    rfl
  have hparts : headerParts (signPayload hmac secret payload moment) =
      [(['t'], intText (signingSeconds moment)),
        (['v', '1'], hmacHex hmac secret (signingSeconds moment) payload)] := by
    have hfirst := partition_append (c := '=') (a := ['t']) (by decide)
      (intText (signingSeconds moment))
    have hsecond := partition_append (c := '=') (a := ['v', '1']) (by decide)
      (hmacHex hmac secret (signingSeconds moment) payload)
    rw [headerParts, hsplit]
    simp only [List.cons_append, List.nil_append] at hfirst hsecond
    simp [hfirst, hsecond]
  have ht : partOf ['t'] (headerParts (signPayload hmac secret payload moment)) =
      some (intText (signingSeconds moment)) := by
    rw [hparts]
    rfl
  have hv : partOf ['v', '1'] (headerParts (signPayload hmac secret payload moment)) =
      some (hmacHex hmac secret (signingSeconds moment) payload) := by
    rw [hparts]
    rfl
  rw [headerOf, ht, hv, Option.bind_some]
  cases parseInt 10 (intText (signingSeconds moment)) <;> rfl

/-- The body of a known event is read back. -/
theorem parseEvent_of_encodes {event : BillingEvent} (h : Encodes depth repr payload event) :
    parseEvent depth repr payload event.createdAt = .ok event := by
  obtain ⟨name, hname, htype⟩ := h.type
  obtain ⟨htrue, hid⟩ := h.id
  obtain ⟨data, hdata, hsubscription, hcustomer, hplan, hperiod⟩ := h.data
  have hbuild : buildEvent repr event.raw event.type event.createdAt = .ok event := by
    unfold buildEvent
    rw [objectOf_orEmpty.2 hdata, hid]
    simp only [bind, Except.bind, hperiod, pure, Except.pure, ← hsubscription, ← hcustomer,
      ← hplan, ← h.provider]
  have hfields : parseFields repr event.raw event.createdAt = .ok event := by
    unfold parseFields
    rw [hname]
    show (if boolOf (getOf "id" event.raw) = true then
      (match eventTypeMap.lookup name with
        | some type => raises (buildEvent repr event.raw type event.createdAt)
        | none => _) else _) = _
    rw [if_pos htrue, htype]
    show raises (buildEvent repr event.raw event.type event.createdAt) = _
    rw [hbuild]
    rfl
  unfold parseEvent loadsPayload
  rw [h.body]
  exact hfields

/-- A signed event is read back if and only if the second it is signed at is a moment. -/
theorem verify_signPayload {event : BillingEvent} {moment now : ℤ}
    (h : Encodes depth repr payload event)
    (hcreated : event.createdAt = signingSeconds moment * 1000000)
    (hfresh : |now - event.createdAt| ≤ webhookTolerance) :
    verifyAndParseWebhook hmac depth repr secret payload (signPayload hmac secret payload moment)
      now = .ok event ↔ InYears (signingSeconds moment) := by
  constructor
  · intro hok
    obtain ⟨ts, hheader, hyears, -⟩ := verify_ok hok
    rw [headerOf_signPayload] at hheader
    obtain ⟨m, hm, heq⟩ := Option.map_eq_some_iff.1 hheader
    have hts : m = ts := congrArg Prod.fst heq
    rw [← parseInt_intText_sound hm, hts]
    exact hyears
  · intro hyears
    have hshort : (natText (signingSeconds moment).natAbs).length ≤ maxStrDigits := by
      obtain ⟨hlow, hhigh⟩ := hyears
      refine Nat.le_trans (length_natText_le (k := 12) (by decide) (by omega)) (by decide)
    have hheader : headerOf (signPayload hmac secret payload moment) = _ :=
      headerOf_signPayload moment
    rw [parseInt_intText hshort, Option.map_some] at hheader
    rw [hcreated] at hfresh
    rw [verify_of_header hheader hyears hfresh, ← hcreated]
    exact parseEvent_of_encodes h

end

/-- **Webhooks end as declared, of readable headers and bodies.** Exactly under `Readable` a
webhook ends in an event or a declared exception. An event only comes of a header with a fresh
HMAC of the payload. A payload that encodes a known event is read back from its signature within
the window, if and only if the signed second is a moment at all. -/
theorem webhook_declared (hmac : Bytes → Bytes → Fin (2 ^ 256)) (depth : Nat)
    (repr : JsonValue → Except PyException Text) (secret payload : Bytes) :
    (∀ signature now,
      Declared (verifyAndParseWebhook hmac depth repr secret payload signature now) ↔
        Readable hmac depth repr secret payload signature now) ∧
    (∀ signature now event,
      verifyAndParseWebhook hmac depth repr secret payload signature now = .ok event →
        Carries hmac secret payload signature now) ∧
    ∀ event moment now, Encodes depth repr payload event →
      event.createdAt = signingSeconds moment * 1000000 →
      |now - event.createdAt| ≤ webhookTolerance →
      (verifyAndParseWebhook hmac depth repr secret payload
        (signPayload hmac secret payload moment) now = .ok event ↔
          InYears (signingSeconds moment)) := by
  refine ⟨fun signature now => declared_verify payload signature now, ?_, ?_⟩
  · intro signature now event h
    obtain ⟨ts, hheader, -, hfresh, -⟩ := verify_ok h
    exact ⟨ts, hheader, hfresh⟩
  · intro event moment now h hcreated hfresh
    exact verify_signPayload h hcreated hfresh

/-- A payment that failed, in a webhook signed in November 2023. -/
def failedPayment : BillingEvent where
  provider := providerKey
  eventId := "e1".toList
  type := .paymentFailed
  createdAt := 1700000000000000
  subscriptionId := .str "sub_1".toList
  customerId := .null
  plan := .null
  currentPeriodEnd := none
  raw := [("id".toList, .str "e1".toList), ("type".toList, .str "payment.failed".toList),
    ("data".toList, .obj [("subscription_id".toList, .str "sub_1".toList)])]

/-- Its payload, as text. -/
def failedPaymentText : Text :=
  '{' :: (dumpsField ("id".toList, .str "e1".toList) ++
    ',' :: (dumpsField ("type".toList, .str "payment.failed".toList) ++
      ',' :: (dumpsText "data".toList ++
        ':' :: (dumps [("subscription_id".toList, .str "sub_1".toList)] ++ ['}']))))

/-- And as bytes. -/
def failedPaymentBody : Bytes := encodeUtf8 failedPaymentText

/-- It is read field by field. -/
theorem loads_failedPaymentBody : loads 1000 failedPaymentBody = .ok (.obj failedPayment.raw) := by
  have hdecode : decodeJson failedPaymentBody = some failedPaymentText :=
    decodeJson_encodeUtf8 (by decide) (by decide) (by decide) (by decide) _
  have hopen : Reader.start.step 1000 '{' = .ok ⟨.key true, [.obj [] []]⟩ := rfl
  have hcomma : ∀ fields, Reader.step 1000 ⟨.comma, [.obj fields []]⟩ ',' =
    .ok ⟨.key false, [.obj fields []]⟩ := fun _ => rfl
  have hcolon : ∀ fields key, Reader.step 1000 ⟨.colon, [.obj fields key]⟩ ':' =
    .ok ⟨.value false, [.obj fields key]⟩ := fun _ _ => rfl
  rw [loads, hdecode]
  show loadsText 1000 failedPaymentText = _
  rw [loadsText, failedPaymentText, scan_step hopen, scan_append (scan_field _),
    scan_step (hcomma _), scan_append (scan_field _), scan_step (hcomma _),
    scan_append scan_dumpsText_key, scan_step (hcolon _ _),
    scan_append (scan_dumps (by decide) _)]
  show Except.ok (JsonValue.obj (setField _ (.obj (putFields [] _)) (setField _ _ _))) = _
  simp [setField, putFields, Scalar.toJson, failedPayment]

/-- Which encodes it. -/
theorem encodes_failedPayment :
    Encodes 1000 (fun _ => .ok []) failedPaymentBody failedPayment where
  provider := rfl
  body := loads_failedPaymentBody
  type := ⟨"payment.failed".toList, by simp [getOf, failedPayment, List.lookup_cons],
    by simp [eventTypeMap, failedPayment, List.lookup_cons]⟩
  id := by
    have hid : getOf "id" failedPayment.raw = .str failedPayment.eventId := by
      simp [getOf, failedPayment]
    rw [hid]
    exact ⟨rfl, rfl⟩
  data := by
    refine ⟨[("subscription_id".toList, .str "sub_1".toList)], .inl ?_, ?_, ?_, ?_, ?_⟩ <;>
      simp [getOf, failedPayment, periodEndOf, List.lookup_cons]

/-- Four minutes later the signature is fresh, and the event is read back. -/
theorem webhook_declared_signed :
    verifyAndParseWebhook (fun _ _ => 5) 1000 (fun _ => .ok []) [7] failedPaymentBody
      (signPayload (fun _ _ => 5) [7] failedPaymentBody 1700000000123456) 1700000240000000 =
        .ok failedPayment := by
  have hseconds : signingSeconds 1700000000123456 = 1700000000 := by decide +kernel
  refine ((webhook_declared _ 1000 _ [7] failedPaymentBody).2.2 failedPayment 1700000000123456
    1700000240000000 encodes_failedPayment ?_ (by decide)).2 ?_
  · rw [hseconds]
    rfl
  · rw [hseconds]
    decide

/-- A header with the HMAC zero. -/
def zeroHeader : Text := "t=0,v1=".toList ++ List.replicate 64 '0'

/-- A signature that is not ASCII, sent by anybody, raises a `TypeError`; a signed payload that
is no object raises an `AttributeError`. -/
theorem webhook_undeclared :
    verifyAndParseWebhook (fun _ _ => 0) 1000 (fun _ => .ok []) [] [] "t=0,v1=é".toList 0 =
      .error (.uncaught .typeError) ∧
    verifyAndParseWebhook (fun _ _ => 0) 1000 (fun _ => .ok []) [] (encodeUtf8 "[]".toList)
      zeroHeader 0 = .error (.uncaught .attributeError) ∧
    ¬∀ hmac depth repr secret payload signature now,
      Declared (verifyAndParseWebhook hmac depth repr secret payload signature now) := by
  have hascii : verifyAndParseWebhook (fun _ _ => 0) 1000 (fun _ => .ok []) [] []
      "t=0,v1=é".toList 0 = .error (.uncaught .typeError) := by
    have hheader : headerOf "t=0,v1=é".toList = some (0, ['é']) := by decide
    rw [verify_eq hheader, compareDigest_hmacHex]
    rfl
  refine ⟨hascii, ?_, fun h => ?_⟩
  · have hheader : headerOf zeroHeader =
        some (0, hmacHex (fun _ _ => 0) [] 0 (encodeUtf8 "[]".toList)) := by decide
    rw [verify_of_header hheader (by decide) (by decide)]
    rfl
  · have hdeclared := h (fun _ _ => 0) 1000 (fun _ => .ok []) [] [] "t=0,v1=é".toList 0
    rw [hascii] at hdeclared
    exact hdeclared

end Billing

end Integrations

end RealEstate
