import Mathlib
import RealEstate.Core.Base
import RealEstate.Systems.Machine
import RealEstate.Systems.Rows
import RealEstate.Systems.Store

/-!
# Idempotency keys (`core/idempotency.py`)

Requests that carry an `Idempotency-Key`, each split at its Redis commands, so that
every interleaving of them is a run of the machine `idempotency`.

- `Response.record` and `replay`: what is stored of a response and what a retry makes of it.
- `step`: `SET NX`, `GET`, the handler, and the `SET` or `DEL` that ends its claim. A
  failed command lets the request run unguarded, as the source does.
-/

namespace RealEstate

namespace Core

namespace Idempotency

open Systems

/-! ### Responses and records -/

/-- A response, as far as it is stored. -/
structure Response where
  statusCode : Int
  mediaType : Option String
  body : ByteArray
  headers : List (String × String) := []
  deriving DecidableEq

/-- `dict(headers)`: of a repeated header the first value stays. -/
def dictHeaders (headers : List (String × String)) : List (String × String) :=
  headers.eraseDupsBy fun a b => a.1 == b.1

/-- The JSON object stored for a response; `none` if the body is not UTF-8. -/
def Response.record (response : Response) : Option Json :=
  (String.fromUTF8? response.body).map fun body =>
    .obj [("status_code", .num response.statusCode),
      ("media_type", response.mediaType.elim .null .str),
      ("body", .str body),
      ("headers", .obj ((dictHeaders response.headers).map fun h => (h.1, .str h.2)))]

/-- `_REGENERATED_HEADERS`. -/
def regeneratedHeaders : List String := ["content-length", "content-type"]

/-- A header as it can be sent. -/
def stringHeader : String × Json → Option (String × String)
  | (name, .str value) => some (name, value)
  | _ => none

/-- `_replay_headers`; `none` where a header cannot be sent. -/
def replayHeaders : Json → Option (List (String × String))
  | .obj stored => (stored.filter fun h => h.1.toLower ∉ regeneratedHeaders).mapM stringHeader
  | .null | .bool false | .num 0 | .str "" | .arr [] => some []
  | _ => none

/-- A body read back from the record. -/
def replayBody : Json → Option ByteArray
  | .str body => some body.toUTF8
  | .null => some .empty
  | _ => none

/-- The media type of a record, which is text or `null`. -/
def replayMediaType : Json → Option (Option String)
  | .str mediaType => some (some mediaType)
  | .null => some none
  | _ => none

/-- The response built from a record; `none` where building it raises. -/
def replay : Json → Option Response
  | .obj stored => do
    let body ← (← stored.lookup "body") |> replayBody
    let .num statusCode ← stored.lookup "status_code" | none
    let mediaType ← (← stored.lookup "media_type") |> replayMediaType
    let headers ← replayHeaders (JsonObject.get stored "headers")
    return { statusCode, mediaType, body, headers }
  | _ => none

theorem replayMediaType_elim (mediaType : Option String) :
    replayMediaType (mediaType.elim .null .str) = some mediaType := by
  cases mediaType <;> rfl

/-- Headers that are strings come back, without those that are generated afresh. -/
theorem replayHeaders_map (headers : List (String × String)) :
    replayHeaders (.obj (headers.map fun h => (h.1, .str h.2))) =
      some (headers.filter fun h => h.1.toLower ∉ regeneratedHeaders) := by
  show ((headers.map _).filter _).mapM stringHeader = _
  induction headers with
  | nil => rfl
  | cons h headers ih =>
    rw [List.map_cons]
    by_cases hkeep : h.1.toLower ∈ regeneratedHeaders
    · rw [List.filter_cons_of_neg (by simpa using hkeep),
        List.filter_cons_of_neg (by simpa using hkeep)]
      exact ih
    · rw [List.filter_cons_of_pos (by simpa using hkeep),
        List.filter_cons_of_pos (by simpa using hkeep), List.mapM_cons, ih]
      rfl

/-- The UTF-8 decoding of a body encodes to the same bytes. -/
theorem toUTF8_of_fromUTF8 {body : ByteArray} {text : String}
    (h : String.fromUTF8? body = some text) : text.toUTF8 = body := by
  unfold String.fromUTF8? at h
  split at h
  · cases h
    rfl
  · cases h

/-- A UTF-8 body can be stored. -/
theorem record_of_utf8 {response : Response} (h : response.body.IsValidUTF8) :
    ∃ stored, response.record = some stored := by
  refine ⟨_, Option.map_eq_some_iff.mpr ⟨String.fromUTF8 response.body h, ?_, rfl⟩⟩
  unfold String.fromUTF8?
  exact dif_pos _

/-- What a record replays. -/
theorem replay_record {response : Response} {stored : Json}
    (h : response.record = some stored) :
    replay stored = some { response with
      headers := (dictHeaders response.headers).filter fun h =>
        h.1.toLower ∉ regeneratedHeaders } := by
  obtain ⟨text, htext, rfl⟩ := Option.map_eq_some_iff.mp h
  have hheaders := replayHeaders_map (dictHeaders response.headers)
  have hmedia := replayMediaType_elim response.mediaType
  have hbody : text.toByteArray = response.body := toUTF8_of_fromUTF8 htext
  simp [replay, List.lookup_cons, JsonObject.get, replayBody, hbody, hmedia, hheaders]

/-! ### Requests -/

/-- `_LOCK_SECONDS`. -/
def lockSeconds : Nat := 30

/-- What the cache key is made of. `tenant` is the id of the resolved tenant. -/
structure Incoming where
  tenant : Option String
  authorization : String
  route : String
  idempotencyKey : String

/-- `_actor_id`, with `hashlib.sha256(...).hexdigest()` as `sha256`. -/
def Incoming.actorId (sha256 : String → String) (incoming : Incoming) : String :=
  if incoming.authorization = "" then "anon" else sha256 incoming.authorization

/-- `_tenant_id`. -/
def Incoming.tenantId (incoming : Incoming) : String := incoming.tenant.getD "platform"

/-- `_cache_key`. -/
def Incoming.cacheKey (sha256 : String → String) (incoming : Incoming) : String :=
  "idempotency:" ++ incoming.tenantId ++ ":" ++ incoming.actorId sha256 ++ ":" ++ incoming.route ++
    ":" ++ incoming.idempotencyKey

/-- What Redis holds under a cache key: `_IN_PROGRESS`, or the JSON text of a record. -/
inductive Cached where
  | inProgress
  | record (stored : Json)

/-- A claim that is not yet a record. -/
def Cached.isMarker : Cached → Bool
  | .inProgress => true
  | .record _ => false

/-- How a handler run ends. -/
inductive Outcome where
  | returned (response : Response)
  | raised

/-- A 5xx response or a raised error. -/
def Outcome.failed : Outcome → Bool
  | .returned response => 500 ≤ response.statusCode
  | .raised => true

/-- How a request was answered. -/
inductive Reply where
  /-- The outcome of the request's own handler run, under its claim. -/
  | ran (outcome : Outcome)
  /-- `IdempotencyConflictError`. -/
  | conflict
  | replayed (response : Response)
  /-- The outcome of a run that Redis could not guard. -/
  | degraded (outcome : Outcome)

/-- Where a request stands. -/
inductive Progress where
  /-- `SET NX` found the key taken. -/
  | looking
  /-- The handler runs under the claim, or without one. -/
  | running
  | unguarded
  /-- The handler returned below 500; the `SET` of its record is next. -/
  | storing (response : Response)
  /-- The handler failed; the `DEL` is next. -/
  | freeing (outcome : Outcome)
  | answered (reply : Reply)

/-- The request holds its key. -/
def Progress.holds : Progress → Bool
  | .running | .storing _ | .freeing _ => true
  | _ => false

/-- A renewal of the request's lock may still be on its way: it is cancelled when the handler
returns, but a command already sent is not called back. -/
def Progress.renews : Progress → Bool
  | .answered (.ran _) => true
  | progress => progress.holds

/-- A request under way. -/
structure Request where
  cacheKey : String
  progress : Progress

/-- A claim of a key: the handler runs that ended and the answers given to other requests before
the next claim. -/
structure Round where
  runs : List (Nat × Outcome) := []
  answers : List (Nat × Reply) := []

/-- Redis, the requests, and the claims of every key, the latest first. -/
structure State where
  redis : Store String Cached
  requests : Rows Nat Request
  rounds : String → List Round

/-- `ok` says whether the Redis command of the step succeeded. -/
inductive Label where
  | wait (seconds : Nat)
  | acquire (n : Nat) (incoming : Incoming) (ok : Bool)
  | look (n : Nat) (ok : Bool)
  | finish (n : Nat) (outcome : Outcome)
  | renew (n : Nat) (ok : Bool)
  | store (n : Nat) (ok : Bool)
  | free (n : Nat) (ok : Bool)

/-- The latest round, changed. -/
def onLatest (f : Round → Round) : List Round → List Round
  | [] => [f {}]
  | round :: rounds => f round :: rounds

/-- Request `n` moves on. -/
def State.move (s : State) (n : Nat) (k : String) (progress : Progress) : State :=
  { s with requests := s.requests.put n ⟨k, progress⟩ }

/-- A change of the record of a key. -/
def State.onRounds (s : State) (k : String) (f : List Round → List Round) : State :=
  { s with rounds := Function.update s.rounds k (f (s.rounds k)) }

/-- A request that did not get the key is answered. -/
def State.answer (s : State) (n : Nat) (k : String) (reply : Reply) : State :=
  (s.move n k (.answered reply)).onRounds k
    (onLatest fun round => { round with answers := (n, reply) :: round.answers })

/-- A handler run ends. -/
def State.ran (s : State) (n : Nat) (k : String) (outcome : Outcome) (next : Progress) : State :=
  (s.move n k next).onRounds k
    (onLatest fun round => { round with runs := (n, outcome) :: round.runs })

/-- The step after the handler: `response.status_code < 500`, or not. -/
def afterRun : Outcome → Progress
  | .returned response =>
    if response.statusCode < 500 then .storing response else .freeing (.returned response)
  | .raised => .freeing .raised

section Machine

variable (sha256 : String → String) (ttl : Nat)

/-- One Redis command, one handler's end, or time passing. `ttl` is
`idempotency_key_ttl_seconds`. -/
def step (s : State) : Label → Option State
  | .wait seconds => some { s with redis := s.redis.wait seconds }
  | .acquire n incoming ok =>
    let k := incoming.cacheKey sha256
    if n ∈ s.requests.keys ∨ incoming.idempotencyKey = "" then none
    else if ok = false then some (s.move n k .unguarded)
    else match s.redis.setNx k .inProgress (some lockSeconds) with
      | none => some (s.move n k .looking)
      | some redis => some { (s.move n k .running).onRounds k ({} :: ·) with redis }
  | .look n ok =>
    match s.requests.row n with
    | some ⟨k, .looking⟩ =>
      if ok = false then some (s.move n k .unguarded)
      else match s.redis.get k with
        | none | some .inProgress => some (s.answer n k .conflict)
        | some (.record stored) =>
          match replay stored with
          | some response => some (s.answer n k (.replayed response))
          | none => some (s.move n k .unguarded)
    | _ => none
  | .finish n outcome =>
    match s.requests.row n with
    | some ⟨k, .running⟩ => some (s.ran n k outcome (afterRun outcome))
    | some ⟨k, .unguarded⟩ => some (s.ran n k outcome (.answered (.degraded outcome)))
    | _ => none
  | .renew n ok =>
    -- `EXPIRE`, which does not ask whose marker, or record, it finds.
    match s.requests.row n with
    | none => none
    | some request =>
      if request.progress.renews = false then none
      else if ok = false then some s
      else some { s with redis := s.redis.expire request.cacheKey lockSeconds }
  | .store n ok =>
    match s.requests.row n with
    | some ⟨k, .storing response⟩ =>
      -- A failure, also to decode the body, leaves the marker to its deadline.
      let redis := match ok, response.record with
        | true, some stored => s.redis.set k (.record stored) (some ttl)
        | _, _ => s.redis
      some { s.move n k (.answered (.ran (.returned response))) with redis }
    | _ => none
  | .free n ok =>
    match s.requests.row n with
    | some ⟨k, .freeing outcome⟩ =>
      let redis := if ok then s.redis.del k else s.redis
      some { s.move n k (.answered (.ran outcome)) with redis }
    | _ => none

/-- What a step comes to, by its command and what that meets. -/
inductive Effect (s : State) : Label → State → Prop where
  | wait (seconds : Nat) : Effect s (.wait seconds) { s with redis := s.redis.wait seconds }
  | unclaimed {n : Nat} {incoming : Incoming} : n ∉ s.requests.keys →
    Effect s (.acquire n incoming false) (s.move n (incoming.cacheKey sha256) .unguarded)
  | taken {n : Nat} {incoming : Incoming} {cached : Cached} : n ∉ s.requests.keys →
    s.redis.get (incoming.cacheKey sha256) = some cached →
    Effect s (.acquire n incoming true) (s.move n (incoming.cacheKey sha256) .looking)
  | claimed {n : Nat} {incoming : Incoming} : n ∉ s.requests.keys →
    s.redis.get (incoming.cacheKey sha256) = none →
    Effect s (.acquire n incoming true)
      { (s.move n (incoming.cacheKey sha256) .running).onRounds (incoming.cacheKey sha256)
          ({} :: ·) with
        redis := s.redis.set (incoming.cacheKey sha256) .inProgress (some lockSeconds) }
  | unread {n : Nat} {k : String} {ok : Bool} : s.requests.row n = some ⟨k, .looking⟩ →
    (ok = true → ∃ stored, s.redis.get k = some (.record stored) ∧ replay stored = none) →
    Effect s (.look n ok) (s.move n k .unguarded)
  | conflict {n : Nat} {k : String} : s.requests.row n = some ⟨k, .looking⟩ →
    (∀ stored, s.redis.get k ≠ some (.record stored)) →
    Effect s (.look n true) (s.answer n k .conflict)
  | replayed {n : Nat} {k : String} {stored : Json} {copy : Response} :
    s.requests.row n = some ⟨k, .looking⟩ → s.redis.get k = some (.record stored) →
    replay stored = some copy → Effect s (.look n true) (s.answer n k (.replayed copy))
  | finished {n : Nat} {k : String} {outcome : Outcome} :
    s.requests.row n = some ⟨k, .running⟩ →
    Effect s (.finish n outcome) (s.ran n k outcome (afterRun outcome))
  | degraded {n : Nat} {k : String} {outcome : Outcome} :
    s.requests.row n = some ⟨k, .unguarded⟩ →
    Effect s (.finish n outcome) (s.ran n k outcome (.answered (.degraded outcome)))
  | renewed {n : Nat} {request : Request} {ok : Bool} : s.requests.row n = some request →
    request.progress.renews = true →
    Effect s (.renew n ok)
      { s with redis := if ok then s.redis.expire request.cacheKey lockSeconds else s.redis }
  | stored {n : Nat} {k : String} {response : Response} {stored : Json} :
    s.requests.row n = some ⟨k, .storing response⟩ → response.record = some stored →
    Effect s (.store n true)
      { s.move n k (.answered (.ran (.returned response))) with
        redis := s.redis.set k (.record stored) (some ttl) }
  | unstored {n : Nat} {k : String} {response : Response} {ok : Bool} :
    s.requests.row n = some ⟨k, .storing response⟩ → (ok = true → response.record = none) →
    Effect s (.store n ok) (s.move n k (.answered (.ran (.returned response))))
  | freed {n : Nat} {k : String} {outcome : Outcome} {ok : Bool} :
    s.requests.row n = some ⟨k, .freeing outcome⟩ →
    Effect s (.free n ok) { s.move n k (.answered (.ran outcome)) with
      redis := if ok then s.redis.del k else s.redis }

variable {sha256 ttl}

theorem effect_of_acquire {s t : State} {n : Nat} {incoming : Incoming} {ok : Bool}
    (h : step sha256 ttl s (.acquire n incoming ok) = some t) :
    Effect sha256 ttl s (.acquire n incoming ok) t := by
  dsimp only [step] at h
  split at h
  · cases h
  · next hnew =>
    obtain ⟨hnew, -⟩ := not_or.mp hnew
    cases ok with
    | false =>
      cases h
      exact .unclaimed hnew
    | true =>
      rw [if_neg Bool.true_eq_false.mp, Store.setNx] at h
      cases hget : s.redis.get (incoming.cacheKey sha256) with
      | none =>
        rw [hget] at h
        cases h
        exact .claimed hnew hget
      | some cached =>
        rw [hget] at h
        cases h
        exact .taken hnew hget

/-- The lookup of what another request has stored. -/
theorem effect_of_look {s t : State} {n : Nat} {ok : Bool}
    (h : step sha256 ttl s (.look n ok) = some t) : Effect sha256 ttl s (.look n ok) t := by
  dsimp only [step] at h
  split at h
  · next k hrow =>
    cases ok with
    | false =>
      cases h
      exact .unread hrow fun hok => absurd hok Bool.false_ne_true
    | true =>
      rw [if_neg Bool.true_eq_false.mp] at h
      split at h
      · -- The entry is gone, or it holds the marker of a running request: a conflict either way.
        next hget =>
        cases h
        exact .conflict hrow fun stored hstored => nomatch hget.symm.trans hstored
      · next hget =>
        cases h
        exact .conflict hrow fun stored hstored => nomatch hget.symm.trans hstored
      · -- A stored answer is replayed where it can be read.
        next stored hget =>
        split at h
        · next copy hreplay =>
          cases h
          exact .replayed hrow hget hreplay
        · next hreplay =>
          cases h
          exact .unread hrow fun _ => ⟨stored, hget, hreplay⟩
  · cases h

theorem effect_of_finish {s t : State} {n : Nat} {outcome : Outcome}
    (h : step sha256 ttl s (.finish n outcome) = some t) :
    Effect sha256 ttl s (.finish n outcome) t := by
  dsimp only [step] at h
  split at h
  · next k hrow =>
    cases h
    exact .finished hrow
  · next k hrow =>
    cases h
    exact .degraded hrow
  · cases h

theorem effect_of_store {s t : State} {n : Nat} {ok : Bool}
    (h : step sha256 ttl s (.store n ok) = some t) : Effect sha256 ttl s (.store n ok) t := by
  dsimp only [step] at h
  split at h
  · next k response hrow =>
    cases hrecord : response.record with
    | none =>
      rw [hrecord] at h
      cases ok with
      | true | false =>
        cases h
        exact .unstored hrow fun _ => hrecord
    | some stored =>
      rw [hrecord] at h
      cases ok with
      | true =>
        cases h
        exact .stored hrow hrecord
      | false =>
        cases h
        exact .unstored hrow fun hok => absurd hok Bool.false_ne_true
  · cases h

/-- Every step has its effect. -/
theorem effect_of_step {s t : State} {l : Label} (h : step sha256 ttl s l = some t) :
    Effect sha256 ttl s l t := by
  cases l with
  | wait seconds =>
    cases h
    exact .wait seconds
  | acquire n incoming ok => exact effect_of_acquire h
  | look n ok => exact effect_of_look h
  | finish n outcome => exact effect_of_finish h
  | renew n ok =>
    dsimp only [step] at h
    split at h
    · cases h
    · next request hrow =>
      split at h
      · cases h
      · -- Renewing changes the lease alone, whether or not the store answers.
        next hrenews =>
        cases ok with
        | true | false =>
          cases h
          exact .renewed hrow (eq_true_of_ne_false hrenews)
  | store n ok => exact effect_of_store h
  | free n ok =>
    dsimp only [step] at h
    split at h
    · next k outcome hrow =>
      cases h
      exact .freed hrow
    · cases h

variable (sha256 ttl)

/-- Requests with idempotency keys, from the first on. -/
def idempotency : Machine State Label where
  init s := s = ⟨.empty, .empty, fun _ => []⟩
  step := step sha256 ttl

end Machine

end Idempotency

end Core

end RealEstate
