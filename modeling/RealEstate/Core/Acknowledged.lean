import RealEstate.Core.Idempotency

/-!
# Acknowledged and committed

Where a request's transaction ends. The session of `get_session` commits in the exit code of a
dependency, which runs once the response has been sent; `IdempotentRoute` stores its record
before that. `serving` puts the sending and the commit after the requests of `idempotency`.

- `billingWebhook`: what a delivery is answered with; it is a request without a key.
- `Acknowledged`: no success was sent, and nothing is kept under a key, for a transaction whose
  commit failed.
- `Settles`: the guard: a commit that fails is that of a request whose response is no success
  and that has nothing under its key.
- `acknowledged`: `Acknowledged` in every run that meets it; every other step breaks it.
-/

namespace RealEstate

namespace Core

namespace Idempotency

open Systems Function

/-- A status of the two hundreds. -/
def Response.Success (response : Response) : Prop :=
  200 ≤ response.statusCode ∧ response.statusCode < 300

/-- Two comparisons. -/
instance (response : Response) : Decidable response.Success :=
  inferInstanceAs (Decidable (_ ∧ _))

/-- What a run answers. -/
def Outcome.response : Outcome → Option Response
  | .returned response => some response
  | .raised => none

/-- The response of the request's own handler run. A conflict is raised outside of it. -/
def Reply.own : Reply → Option Response
  | .ran outcome | .degraded outcome => outcome.response
  | .conflict | .replayed _ => none

/-- The request whose transaction the response is of, and the response; `found` is the one whose
record is replayed. An error that is raised is answered as such, never as a success. -/
def Reply.made (n found : Nat) : Reply → Option (Nat × Response)
  | .ran outcome | .degraded outcome => outcome.response.map fun response => (n, response)
  | .replayed response => some (found, response)
  | .conflict => none

/-- The answer of a request's own run. -/
def Progress.own : Progress → Option Response
  | .answered reply => reply.own
  | .looking | .running | .unguarded | .storing _ | .freeing _ => none

namespace Serving

/-- `WebhookAck`, sent with a 200. -/
def webhookAck (received processed : Bool) : Response where
  statusCode := 200
  mediaType := some "application/json"
  body := ("\x7b\"received\":" ++ toString received ++ ",\"processed\":" ++ toString processed ++
    "\x7d").toUTF8

/-- `billing_webhook`, by what `handle_webhook` returns; `none` if it raises. -/
def billingWebhook : Option (Bool × Bool) → Outcome
  | some (received, processed) => .returned (webhookAck received processed)
  | none => .raised

/-- The middleware, what was sent, and which transactions have ended. -/
structure State where
  base : Idempotency.State
  /-- The request that put under a cache key what Redis holds there. -/
  holder : String → Nat
  /-- The request whose record another was answered with. -/
  found : Nat → Nat
  /-- The responses sent: the request, the one whose transaction it is of, and what was sent. -/
  sent : List (Nat × Nat × Response)
  /-- Whether the final commit of a request succeeded. -/
  ended : Nat → Option Bool

/-- A step of the middleware, the sending of a response, or the end of a transaction. -/
inductive Label where
  /-- A step of a request with a key, or the handler's end of one without. -/
  | request (l : Idempotency.Label)
  /-- A request without a key arrives, or one to another route. -/
  | plain (n : Nat)
  | send (n : Nat)
  /-- The exit code of `get_session`, after the response. -/
  | exit (n : Nat) (committed : Bool)

namespace State

/-- What a step of `idempotency` from `s` to `base` adds to the notes. -/
def note (s : State) (base : Idempotency.State) : Idempotency.Label → State
  | .acquire n _ _ =>
    match base.requests.row n with
    -- `SET NX` went through: what lies under the key is this request's marker.
    | some ⟨k, .running⟩ => { s with base, holder := update s.holder k n }
    | _ => { s with base }
  | .store n ok =>
    match s.base.requests.row n with
    | some ⟨k, .storing response⟩ =>
      if ok ∧ response.record.isSome then { s with base, holder := update s.holder k n }
      else { s with base }
    | _ => { s with base }
  | .look n _ =>
    match base.requests.row n with
    | some ⟨k, .answered (.replayed _)⟩ =>
      { s with base, found := update s.found n (s.holder k) }
    | _ => { s with base }
  | _ => { s with base }

/-- The response goes out. -/
def send (s : State) (n : Nat) : Option State :=
  match s.base.requests.row n with
  | some ⟨_, .answered reply⟩ =>
    -- `await response(scope, receive, send)`, before the exit stack unwinds.
    if n ∈ s.sent.map Prod.fst then none
    else (reply.made n (s.found n)).map fun made => { s with sent := (n, made) :: s.sent }
  | _ => none

/-- The exit stack unwinds: the transaction is committed or not. -/
def exit (s : State) (n : Nat) (committed : Bool) : Option State :=
  match s.base.requests.row n with
  | some request =>
    -- Only a run that returned commits, once its response is out; a raised one rolled back.
    if request.progress.own = none ∨ n ∉ s.sent.map Prod.fst ∨ s.ended n ≠ none then none
    else some { s with ended := update s.ended n (some committed) }
  | none => none

/-- Nothing of the request is a success or left under its key. -/
def Settled (s : State) (n : Nat) (request : Request) : Prop :=
  (∀ response ∈ request.progress.own, ¬response.Success) ∧
    (s.base.redis.get request.cacheKey = none ∨ s.holder request.cacheKey ≠ n)

/-- Two comparisons. -/
instance (s : State) (n : Nat) (request : Request) : Decidable (s.Settled n request) :=
  inferInstanceAs (Decidable (_ ∧ _))

end State

section Machine

variable (sha256 : String → String) (ttl : Nat)

/-- One step. -/
def step (s : State) : Label → Option State
  | .request l => (Idempotency.step sha256 ttl s.base l).map fun base => s.note base l
  | .plain n =>
    if n ∈ s.base.requests.keys then none
    else some { s with base := s.base.move n "" .unguarded }
  | .send n => s.send n
  | .exit n committed => s.exit n committed

/-- Requests and their transactions, from the first on. -/
def serving : Machine State Label where
  init s := s = ⟨⟨.empty, .empty, fun _ => []⟩, fun _ => 0, fun _ => 0, [], fun _ => none⟩
  step := step sha256 ttl

end Machine

/-- A commit that fails is that of a request whose response is no success and that has nothing
under its key. -/
def Settles (s : State) : Label → Prop
  | .exit n false => ∀ request ∈ s.base.requests.row n, s.Settled n request
  | _ => True

/-- By cases of the label. -/
instance (s : State) : ∀ l, Decidable (Settles s l)
  | .exit n false => inferInstanceAs (Decidable (∀ request ∈ s.base.requests.row n, _))
  | .exit _ true | .request _ | .plain _ | .send _ => inferInstanceAs (Decidable True)

/-- What was answered as done is done. -/
structure Acknowledged (s : State) : Prop where
  /-- A success that was sent is of a transaction whose commit has not failed. -/
  sent : ∀ n m response, (n, m, response) ∈ s.sent → response.Success → s.ended m ≠ some false
  /-- A stored response too. -/
  stored : ∀ k stored, s.base.redis.get k = some (.record stored) →
    s.ended (s.holder k) ≠ some false
  /-- Where the commit failed, the key is free, or a fresh attempt has it. -/
  free : ∀ n request, s.base.requests.row n = some request → s.ended n = some false →
    s.base.redis.get request.cacheKey = none ∨ s.holder request.cacheKey ≠ n

/-- What the notes say about the requests, and how failed commits were left. -/
structure Inv (s : State) : Prop where
  held : ∀ {k cached}, s.base.redis.get k = some cached →
    ∃ progress, s.base.requests.row (s.holder k) = some ⟨k, progress⟩
  found : ∀ {n k copy}, s.base.requests.row n = some ⟨k, .answered (.replayed copy)⟩ →
    ∃ run, s.base.requests.row (s.found n) = some ⟨k, .answered (.ran (.returned run))⟩ ∧
      copy.statusCode = run.statusCode
  stored : ∀ {k stored}, s.base.redis.get k = some (.record stored) →
    ∃ run, s.base.requests.row (s.holder k) = some ⟨k, .answered (.ran (.returned run))⟩ ∧
      run.record = some stored
  sent : ∀ {n m response}, (n, m, response) ∈ s.sent →
    ∃ k reply, s.base.requests.row n = some ⟨k, .answered reply⟩ ∧
      reply.made n (s.found n) = some (m, response)
  ended : ∀ {n committed}, s.ended n = some committed →
    ∃ k reply, s.base.requests.row n = some ⟨k, .answered reply⟩ ∧ reply.own.isSome = true
  settled : ∀ {n request}, s.ended n = some false → s.base.requests.row n = some request →
    s.Settled n request

theorem Inv.sound {s : State} (h : Inv s) : Acknowledged s where
  free n request hrow hended := (h.settled hended hrow).2
  stored k stored hget hended := by
    obtain ⟨run, hrow, -⟩ := h.stored hget
    rcases (h.settled hended hrow).2 with hfree | hother
    · rw [hget] at hfree
      cases hfree
    · exact hother rfl
  sent n m response hmem hsuccess hended := by
    obtain ⟨k, reply, hrow, hmade⟩ := h.sent hmem
    -- A response of the request's own, or a replay: the run behind it has the same status.
    have hself : ∀ outcome : Outcome, reply.own = outcome.response →
        outcome.response.map (fun response => (n, response)) = some (m, response) → False := by
      intro outcome hown hpair
      obtain ⟨own, hresponse, heq⟩ := Option.map_eq_some_iff.mp hpair
      cases heq
      exact (h.settled hended hrow).1 response (hown.trans hresponse) hsuccess
    cases reply with
    | ran outcome => exact hself outcome rfl hmade
    | degraded outcome => exact hself outcome rfl hmade
    | conflict => cases hmade
    | replayed copy =>
      cases hmade
      obtain ⟨run, hrun, hstatus⟩ := h.found hrow
      refine (h.settled hended hrun).1 run rfl ?_
      unfold Response.Success at hsuccess ⊢
      rw [← hstatus]
      exact hsuccess

section Steps

variable {sha256 : String → String} {ttl : Nat} {s t : State} {base : Idempotency.State} {n : Nat}
  {k : String} {progress : Progress}

/-- Request `n`, which is new or not answered yet, moves on. -/
structure Advances (s : State) (base : Idempotency.State) (n : Nat) (k : String)
    (progress : Progress) : Prop where
  own : ∀ request, s.base.requests.row n = some request →
    request.cacheKey = k ∧ ∀ reply, request.progress ≠ .answered reply
  requests : base.requests = s.base.requests.put n ⟨k, progress⟩

theorem Advances.self (h : Advances s base n k progress) :
    base.requests.row n = some ⟨k, progress⟩ := by
  rw [h.requests, Rows.row_put_self]

/-- An answer stays. -/
theorem Advances.answered (h : Advances s base n k progress) {m : Nat} {j : String}
    {reply : Reply} (hrow : s.base.requests.row m = some ⟨j, .answered reply⟩) :
    m ≠ n ∧ base.requests.row m = some ⟨j, .answered reply⟩ := by
  have hm : m ≠ n := by
    rintro rfl
    exact (h.own _ hrow).2 reply rfl
  rw [h.requests, Rows.row_put_of_ne _ _ hm]
  exact ⟨hm, hrow⟩

/-- A request keeps its key. -/
theorem Advances.keyed (h : Advances s base n k progress) {m : Nat} {j : String}
    {other : Progress} (hrow : s.base.requests.row m = some ⟨j, other⟩) :
    ∃ other', base.requests.row m = some ⟨j, other'⟩ := by
  by_cases hm : m = n
  · subst hm
    obtain ⟨rfl, -⟩ := h.own _ hrow
    exact ⟨progress, h.self⟩
  · rw [h.requests, Rows.row_put_of_ne _ _ hm]
    exact ⟨other, hrow⟩

/-- What Redis holds under `j` after request `n` came to `progress`, and on whose account. -/
inductive Holding (s : State) (n : Nat) (k : String) (progress : Progress) (holder : String → Nat)
    (j : String) : Cached → Prop where
  | kept {cached : Cached} : s.base.redis.get j = some cached → holder j = s.holder j →
    Holding s n k progress holder j cached
  | claimed : j = k → holder j = n → Holding s n k progress holder j .inProgress
  | stored {run : Response} {stored : Json} : j = k → holder j = n →
    progress = .answered (.ran (.returned run)) → run.record = some stored →
    Holding s n k progress holder j (.record stored)

/-- The answer of a replay is that of a run. -/
def Replays (s : State) (k : String) (m : Nat) : Progress → Prop
  | .answered (.replayed copy) =>
    ∃ run, s.base.requests.row m = some ⟨k, .answered (.ran (.returned run))⟩ ∧
      copy.statusCode = run.statusCode
  | _ => True

/-- Whatever a request does, it is not one whose commit was tried. -/
theorem Inv.advances (h : Inv s) (hadv : Advances s base n k progress) {holder : String → Nat}
    {found : Nat → Nat}
    (hredis : ∀ j cached, base.redis.get j = some cached → Holding s n k progress holder j cached)
    (hothers : ∀ m, m ≠ n → found m = s.found m) (hreplays : Replays s k (found n) progress) :
    Inv ⟨base, holder, found, s.sent, s.ended⟩ where
  held {j cached} hget := by
    show ∃ progress, base.requests.row (holder j) = some ⟨j, progress⟩
    cases hredis j cached hget with
    | kept hget hholder =>
      obtain ⟨other, hrow⟩ := h.held hget
      rw [hholder]
      exact hadv.keyed hrow
    | claimed hj hholder =>
      subst hj
      exact ⟨_, hholder ▸ hadv.self⟩
    | stored hj hholder =>
      subst hj
      exact ⟨_, hholder ▸ hadv.self⟩
  stored {j stored} hget := by
    show ∃ run, base.requests.row (holder j) = some ⟨j, .answered (.ran (.returned run))⟩ ∧ _
    cases hredis j _ hget with
    | kept hget hholder =>
      obtain ⟨run, hrow, hrecord⟩ := h.stored hget
      rw [hholder]
      exact ⟨run, (hadv.answered hrow).2, hrecord⟩
    | stored hj hholder hprogress hrecord =>
      subst hj
      exact ⟨_, hholder ▸ hprogress ▸ hadv.self, hrecord⟩
  found {m j copy} hrow := by
    have hrow : base.requests.row m = some ⟨j, .answered (.replayed copy)⟩ := hrow
    show ∃ run, base.requests.row (found m) = some ⟨j, .answered (.ran (.returned run))⟩ ∧ _
    rw [hadv.requests] at hrow
    rcases Rows.row_put hrow with ⟨rfl, hself⟩ | ⟨hm, hrow⟩
    · cases hself
      obtain ⟨run, hrun, hstatus⟩ := hreplays
      exact ⟨run, (hadv.answered hrun).2, hstatus⟩
    · obtain ⟨run, hrun, hstatus⟩ := h.found hrow
      rw [hothers m hm]
      exact ⟨run, (hadv.answered hrun).2, hstatus⟩
  sent {m o response} hmem := by
    obtain ⟨j, reply, hrow, hmade⟩ := h.sent hmem
    obtain ⟨hm, hrow⟩ := hadv.answered hrow
    exact ⟨j, reply, hrow, (congrArg (reply.made m) (hothers m hm)).trans hmade⟩
  ended {m committed} hended := by
    obtain ⟨j, reply, hrow, hown⟩ := h.ended hended
    exact ⟨j, reply, (hadv.answered hrow).2, hown⟩
  settled {m request} hended hrow := by
    -- A request whose commit was tried is answered, so it is not the one that moves.
    obtain ⟨j, reply, hbefore, -⟩ := h.ended hended
    obtain ⟨hm, hafter⟩ := hadv.answered hbefore
    cases hafter.symm.trans hrow
    obtain ⟨hresponse, hkey⟩ := h.settled hended hbefore
    refine ⟨hresponse, ?_⟩
    show base.redis.get j = none ∨ holder j ≠ m
    cases hget : base.redis.get j with
    | none => exact .inl rfl
    | some cached =>
      refine .inr fun hself => ?_
      cases hredis j cached hget with
      | kept hget hholder =>
        rcases hkey with hfree | hother
        · cases hget.symm.trans hfree
        · exact hother (hholder.symm.trans hself)
      | claimed _ hholder | stored _ hholder => exact hm (hself.symm.trans hholder)

/-- Only Redis changed, and nothing appeared. -/
theorem Inv.redis (h : Inv s) {redis : Store String Cached}
    (hredis : ∀ j cached, redis.get j = some cached → s.base.redis.get j = some cached) :
    Inv { s with base := { s.base with redis } } where
  held hget := h.held (hredis _ _ hget)
  found := h.found
  stored hget := h.stored (hredis _ _ hget)
  sent := h.sent
  ended := h.ended
  settled {m request} hended hrow := by
    obtain ⟨hresponse, hkey⟩ := h.settled hended hrow
    refine ⟨hresponse, ?_⟩
    show redis.get request.cacheKey = none ∨ s.holder request.cacheKey ≠ m
    cases hget : redis.get request.cacheKey with
    | none => exact .inl rfl
    | some cached =>
      rcases hkey with hfree | hother
      · cases (hredis _ _ hget).symm.trans hfree
      · exact .inr hother

/-- Redis is as it was, or keeps less, and the notes are as they were. -/
theorem Inv.moves (h : Inv s) (hadv : Advances s base n k progress)
    (hredis : ∀ j cached, base.redis.get j = some cached → s.base.redis.get j = some cached)
    (hreplays : Replays s k (s.found n) progress) : Inv { s with base } :=
  h.advances hadv (fun j cached hget => .kept (hredis j cached hget) rfl) (fun _ _ => rfl) hreplays

theorem advances_new (hnew : n ∉ s.base.requests.keys)
    (hput : base.requests = s.base.requests.put n ⟨k, progress⟩) :
    Advances s base n k progress :=
  ⟨fun _ hrow => absurd (s.base.requests.row_keys hrow) hnew, hput⟩

theorem advances_of_row {before : Progress} (hrow : s.base.requests.row n = some ⟨k, before⟩)
    (hopen : ∀ reply, before ≠ .answered reply)
    (hput : base.requests = s.base.requests.put n ⟨k, progress⟩) :
    Advances s base n k progress := by
  refine ⟨fun request hrequest => ?_, hput⟩
  cases hrow.symm.trans hrequest
  exact ⟨rfl, hopen⟩

/-- A request takes its key, and nothing else changes hands. -/
theorem Inv.claimed {incoming : Incoming} (h : Inv s) (hnew : n ∉ s.base.requests.keys) :
    Inv { s with
      base := { (s.base.move n (incoming.cacheKey sha256) .running).onRounds
          (incoming.cacheKey sha256) ({} :: ·) with
        redis := s.base.redis.set (incoming.cacheKey sha256) .inProgress (some lockSeconds) }
      holder := update s.holder (incoming.cacheKey sha256) n } := by
  have hreplays : Replays s (incoming.cacheKey sha256) (s.found n) .running := trivial
  refine h.advances (advances_new hnew rfl) (fun j cached hget => ?_) (fun _ _ => rfl) hreplays
  rcases Store.of_get_set hget with ⟨rfl, rfl⟩ | ⟨hj, hget⟩
  · exact .claimed rfl (update_self ..)
  · exact .kept hget (update_of_ne hj ..)

/-- A request is answered with a record, and notes whose it is. -/
theorem Inv.replayed {stored : Json} {copy : Response} (h : Inv s)
    (hrow : s.base.requests.row n = some ⟨k, .looking⟩)
    (hget : s.base.redis.get k = some (.record stored)) (hreplay : replay stored = some copy) :
    Inv { s with
      base := s.base.answer n k (.replayed copy)
      found := update s.found n (s.holder k) } := by
  refine h.advances (advances_of_row hrow (fun _ hanswered => nomatch hanswered) rfl)
    (fun j cached hget => .kept hget rfl) (fun m hm => update_of_ne hm ..) ?_
  obtain ⟨run, hrun, hrecord⟩ := h.stored hget
  rw [replay_record hrecord] at hreplay
  cases hreplay
  rw [update_self]
  exact ⟨run, hrun, rfl⟩

/-- A record is stored under the key of the request it is of. -/
theorem Inv.store {response : Response} {stored : Json} (h : Inv s)
    (hrow : s.base.requests.row n = some ⟨k, .storing response⟩)
    (hrecord : response.record = some stored) :
    Inv { s with
      base := { s.base.move n k (.answered (.ran (.returned response))) with
        redis := s.base.redis.set k (.record stored) (some ttl) }
      holder := update s.holder k n } := by
  have hreplays : Replays s k (s.found n) (.answered (.ran (.returned response))) := trivial
  refine h.advances (advances_of_row hrow (fun _ hanswered => nomatch hanswered) rfl)
    (fun j cached hget => ?_) (fun _ _ => rfl) hreplays
  rcases Store.of_get_set hget with ⟨rfl, rfl⟩ | ⟨hj, hget⟩
  · exact .stored rfl (update_self ..) rfl hrecord
  · exact .kept hget (update_of_ne hj ..)

theorem replays_afterRun (m : Nat) (outcome : Outcome) : Replays s k m (afterRun outcome) := by
  unfold afterRun
  split
  · split <;> trivial
  · trivial

/-- What a request's step keeps. -/
theorem Inv.effect {l : Idempotency.Label} (h : Inv s)
    (heffect : Effect sha256 ttl s.base l base) : Inv (s.note base l) := by
  cases heffect with
  | wait seconds => exact h.redis fun _ _ => Store.get_of_get_wait
  | @unclaimed n incoming hnew =>
    have hadv : Advances s (s.base.move n (incoming.cacheKey sha256) .unguarded) n
        (incoming.cacheKey sha256) .unguarded := advances_new hnew rfl
    dsimp only [State.note]
    rw [hadv.self]
    -- A step of one request that stores nothing leaves the stored answers alone.
    exact h.moves hadv (fun _ _ hget => hget) trivial
  | @taken n incoming _ hnew =>
    have hadv : Advances s (s.base.move n (incoming.cacheKey sha256) .looking) n
        (incoming.cacheKey sha256) .looking := advances_new hnew rfl
    dsimp only [State.note]
    rw [hadv.self]
    exact h.moves hadv (fun _ _ hget => hget) trivial
  | @claimed n incoming hnew =>
    have hself : (s.base.requests.put n ⟨incoming.cacheKey sha256, .running⟩).row n =
        some ⟨incoming.cacheKey sha256, .running⟩ := Rows.row_put_self ..
    dsimp only [State.note, Idempotency.State.onRounds, Idempotency.State.move]
    rw [hself]
    exact h.claimed hnew
  | @unread n k _ hrow =>
    have hadv : Advances s (s.base.move n k .unguarded) n k .unguarded :=
      advances_of_row hrow (fun _ hanswered => nomatch hanswered) rfl
    dsimp only [State.note]
    rw [hadv.self]
    exact h.moves hadv (fun _ _ hget => hget) trivial
  | @conflict n k hrow =>
    have hadv : Advances s (s.base.answer n k .conflict) n k (.answered .conflict) :=
      advances_of_row hrow (fun _ hanswered => nomatch hanswered) rfl
    dsimp only [State.note]
    rw [hadv.self]
    exact h.moves hadv (fun _ _ hget => hget) trivial
  | @replayed n k _ copy hrow hget hreplay =>
    have hself : (s.base.answer n k (.replayed copy)).requests.row n =
        some ⟨k, .answered (.replayed copy)⟩ := Rows.row_put_self ..
    dsimp only [State.note]
    rw [hself]
    exact h.replayed hrow hget hreplay
  | @finished n k outcome hrow =>
    have hadv : Advances s (s.base.ran n k outcome (afterRun outcome)) n k (afterRun outcome) :=
      advances_of_row hrow (fun _ hanswered => nomatch hanswered) rfl
    exact h.moves hadv (fun _ _ hget => hget) (replays_afterRun _ outcome)
  | @degraded n k outcome hrow =>
    have hadv : Advances s (s.base.ran n k outcome (.answered (.degraded outcome))) n k
        (.answered (.degraded outcome)) :=
      advances_of_row hrow (fun _ hanswered => nomatch hanswered) rfl
    exact h.moves hadv (fun _ _ hget => hget) trivial
  | renewed =>
    -- A lock that lives longer is no answer.
    refine h.redis fun j cached hget => ?_
    split at hget
    · rw [Store.get_expire _ _ _ (by decide)] at hget
      exact hget
    · exact hget
  | stored hrow hrecord =>
    dsimp only [State.note]
    rw [hrow]
    dsimp only
    rw [hrecord, if_pos ⟨rfl, rfl⟩]
    -- The response is stored before its transaction ends.
    exact h.store hrow hrecord
  | @unstored n k response _ hrow hnot =>
    have hadv : Advances s (s.base.move n k (.answered (.ran (.returned response)))) n k
        (.answered (.ran (.returned response))) :=
      advances_of_row hrow (fun _ hanswered => nomatch hanswered) rfl
    dsimp only [State.note]
    rw [hrow]
    dsimp only
    rw [if_neg fun hok => by simp [hnot hok.1] at hok]
    exact h.moves hadv (fun _ _ hget => hget) trivial
  | freed hrow =>
    refine h.moves (advances_of_row hrow (fun _ hanswered => nomatch hanswered) rfl)
      (fun j cached hget => ?_) trivial
    dsimp only at hget
    split at hget
    · exact (Store.of_get_del hget).2
    · exact hget

theorem Inv.plain (h : Inv s) (hnew : n ∉ s.base.requests.keys) :
    Inv { s with base := s.base.move n "" .unguarded } :=
  h.moves (advances_new hnew rfl) (fun _ _ hget => hget) trivial

/-! ### Sending and committing -/

/-- When a response can be sent. -/
theorem State.send_eq_some (hst : s.send n = some t) :
    ∃ k reply made, s.base.requests.row n = some ⟨k, .answered reply⟩ ∧
      reply.made n (s.found n) = some made ∧ t = { s with sent := (n, made) :: s.sent } := by
  unfold State.send at hst
  split at hst
  · next k reply hrow =>
    split at hst
    · cases hst
    · obtain ⟨made, hmade, rfl⟩ := Option.map_eq_some_iff.mp hst
      exact ⟨k, reply, made, hrow, hmade, rfl⟩
  · cases hst

theorem State.exit_eq_some {committed : Bool} (hst : s.exit n committed = some t) :
    ∃ request, s.base.requests.row n = some request ∧ request.progress.own.isSome = true ∧
      n ∈ s.sent.map Prod.fst ∧ s.ended n = none ∧
      t = { s with ended := update s.ended n (some committed) } := by
  unfold State.exit at hst
  split at hst
  · next request hrow =>
    split at hst
    · cases hst
    · next hready =>
      cases hst
      obtain ⟨hown, hready⟩ := not_or.mp hready
      obtain ⟨hsent, hended⟩ := not_or.mp hready
      exact ⟨request, hrow, Option.isSome_iff_ne_none.mpr hown, not_not.mp hsent,
        not_not.mp hended, rfl⟩
  · cases hst

theorem Inv.send (h : Inv s) (hst : s.send n = some t) : Inv t := by
  obtain ⟨k, reply, made, hrow, hmade, rfl⟩ := State.send_eq_some hst
  refine ⟨h.held, h.found, h.stored, fun {m o response} hmem => ?_, h.ended, h.settled⟩
  rcases List.mem_cons.mp hmem with heq | hmem
  · cases heq
    exact ⟨k, reply, hrow, hmade⟩
  · exact h.sent hmem

/-- Only a request that ran its handler has a commit. -/
theorem answered_of_own {request : Request} (h : request.progress.own.isSome = true) :
    ∃ reply, request = ⟨request.cacheKey, .answered reply⟩ ∧ reply.own.isSome = true := by
  obtain ⟨k, progress⟩ := request
  cases progress with
  | answered reply => exact ⟨reply, rfl, h⟩
  | looking | running | unguarded | storing | freeing => cases h

/-- The end of a transaction, if no stored success is lost by it. -/
theorem Inv.exit {committed : Bool} (h : Inv s) (hG : Settles s (.exit n committed))
    (hst : s.exit n committed = some t) : Inv t := by
  obtain ⟨request, hrow, hown, -, -, rfl⟩ := State.exit_eq_some hst
  constructor
  · exact h.held
  · exact h.found
  · exact h.stored
  · exact h.sent
  · intro m outcome hended
    rcases Machine.update_cases hended with ⟨rfl, -⟩ | ⟨-, hended⟩
    · obtain ⟨reply, hreply, hown⟩ := answered_of_own hown
      rw [hreply] at hrow
      exact ⟨_, reply, hrow, hown⟩
    · exact h.ended hended
  · intro m other hended hother
    rcases Machine.update_cases hended with ⟨rfl, heq⟩ | ⟨-, hended⟩
    · cases heq
      exact hG other hother
    · exact h.settled hended hother

theorem serving_inductive (sha256 : String → String) (ttl : Nat) :
    (serving sha256 ttl).Inductive Settles Inv where
  init s hs := by
    cases hs
    constructor
    · intro k cached hget
      cases hget
    · intro n k copy hrow
      cases hrow
    · intro k stored hget
      cases hget
    · intro n m response hmem
      cases hmem
    · intro n committed hended
      cases hended
    · intro n request hended
      cases hended
  step s l t h hG hst := by
    cases l with
    | request l =>
      obtain ⟨base, hbase, rfl⟩ := Option.map_eq_some_iff.mp hst
      exact h.effect (effect_of_step hbase)
    | plain n =>
      dsimp only [serving, step] at hst
      split at hst
      · cases hst
      · next hnew =>
        cases hst
        exact h.plain hnew
    | send n => exact h.send hst
    | exit n committed => exact h.exit hG hst

/-- A commit that fails otherwise has been acknowledged, or left something under the key. -/
theorem Inv.settles (h : Inv s) {l : Label} (hst : step sha256 ttl s l = some t)
    (ht : Acknowledged t) : Settles s l := by
  cases l with
  | request l => trivial
  | plain n => trivial
  | send n => trivial
  | exit n committed =>
    cases committed with
    | true => trivial
    | false =>
      obtain ⟨request, hrow, hown, hsent, -, rfl⟩ := State.exit_eq_some hst
      have hended : update s.ended n (some false) n = some false := update_self ..
      intro other hother
      cases hrow.symm.trans hother
      refine ⟨fun response hresponse hsuccess => ?_, ht.free n request hrow hended⟩
      -- What was sent to this request is what its own run returned.
      obtain ⟨⟨m, o, copy⟩, hmem, rfl⟩ := List.mem_map.mp hsent
      obtain ⟨k, reply, hanswered, hmade⟩ := h.sent hmem
      cases hrow.symm.trans hanswered
      have hmade' : reply.made m (s.found m) = some (m, response) := by
        cases reply with
        | ran outcome | degraded outcome => exact congrArg (Option.map _) hresponse
        | conflict | replayed => cases hresponse
      cases hmade.symm.trans hmade'
      exact ht.sent m m response hmem hsuccess hended

/-- **Acknowledged means committed**, in every run whose failed commits had nothing to take
back; any other failed commit leaves a success that was sent, or a key that is not free. -/
theorem acknowledged (h : (serving sha256 ttl).ReachVia Settles s) :
    Acknowledged s ∧
      ∀ l t, step sha256 ttl s l = some t → (Acknowledged t ↔ Settles s l) := by
  have hinv : Inv s := (serving_inductive sha256 ttl).always h
  refine ⟨hinv.sound, fun l t hst => ⟨hinv.settles hst, fun hG => ?_⟩⟩
  exact ((serving_inductive sha256 ttl).step s l t hinv hG hst).sound

end Steps

/-! ### A tour and a billing event -/

/-- A visitor's tour booking; no access token, so nothing is hashed. -/
def bookTour : Incoming where
  tenant := some "3f0e"
  authorization := ""
  route := "/api/v1/agents/{slug}/appointments"
  idempotencyKey := "tour-1"

/-- A created appointment. -/
def tourBooked : Response := ⟨201, some "application/json", "requested".toUTF8, []⟩

/-- A booking that is committed and then replayed, and a delivery that raises. -/
theorem acknowledged_tour : ∃ s, (serving id 86400).ReachVia Settles s ∧
    ((2, 1, tourBooked) ∈ s.sent ∧ s.ended 1 = some true) ∧
    Acknowledged s ∧ ∀ l t, step id 86400 s l = some t → (Acknowledged t ↔ Settles s l) := by
  obtain ⟨s, hs, hp⟩ := Machine.exists_reachVia_of_run (M := serving id 86400) (G := Settles)
    (s := ⟨⟨.empty, .empty, fun _ => []⟩, fun _ => 0, fun _ => 0, [], fun _ => none⟩)
    [.request (.acquire 1 bookTour true), .request (.finish 1 (.returned tourBooked)),
      .request (.store 1 true), .send 1, .exit 1 true, .request (.acquire 2 bookTour true),
      .request (.look 2 true), .send 2, .plain 3, .request (.finish 3 (billingWebhook none))]
    (fun s => (2, 1, tourBooked) ∈ s.sent ∧ s.ended 1 = some true) rfl (by decide)
  exact ⟨s, hs, of_decide_eq_true hp, acknowledged hs⟩

/-- The commits of a booking and of a billing event fail: the visitor was told the tour is
booked, a retry will be told so too, and the provider was told the event was received. -/
theorem uncommitted_acknowledged : ∃ s, (serving id 86400).Reachable s ∧
    ¬Acknowledged s ∧
    ((1, 1, tourBooked) ∈ s.sent ∧ s.ended 1 = some false) ∧
    ((2, 1, tourBooked) ∈ s.sent) ∧
    ((3, 3, webhookAck true true) ∈ s.sent ∧ s.ended 3 = some false) := by
  obtain ⟨s, hs, hp⟩ := Machine.exists_reachable_of_run (M := serving id 86400)
    (s := ⟨⟨.empty, .empty, fun _ => []⟩, fun _ => 0, fun _ => 0, [], fun _ => none⟩)
    [.request (.acquire 1 bookTour true), .request (.finish 1 (.returned tourBooked)),
      .request (.store 1 true), .send 1, .exit 1 false, .request (.acquire 2 bookTour true),
      .request (.look 2 true), .send 2, .plain 3,
      .request (.finish 3 (billingWebhook (some (true, true)))), .send 3, .exit 3 false]
    (fun s => ((1, 1, tourBooked) ∈ s.sent ∧ s.ended 1 = some false) ∧
      ((2, 1, tourBooked) ∈ s.sent) ∧
      ((3, 3, webhookAck true true) ∈ s.sent ∧ s.ended 3 = some false)) rfl (by decide)
  have hp := of_decide_eq_true hp
  exact ⟨s, hs, fun h => h.sent 1 1 tourBooked hp.1.1 (by decide) hp.1.2, hp⟩

end Serving

end Idempotency

end Core

end RealEstate
