import RealEstate.Core.Idempotency

/-!
# Giving up a claim (`core/idempotency.py`)

A request with an idempotency key, await by await: Redis executes a command and the call returns,
raises or is cancelled, with the renewal loop `_renew_lock` as a task of its own beside the
handler. A command whose call was given up may still reach Redis later.

- `Request.advance`: one step of a request, its loop or one of its commands.
- `GivenUp`: no loop outlives its handler, and a key is in progress only while a handler that
  claimed it runs, or within `lockSeconds` of its end.
- `Orderly`: the guard: no request is cancelled while its loop runs, and no `SET NX` or `EXPIRE`
  reaches Redis once the handler of its request has ended.
- `given_up`: `GivenUp` in every run that meets it.
-/

namespace RealEstate

namespace Core

namespace Idempotency

namespace Renewal

open Systems

/-! ### Tasks -/

/-- What a request sends to Redis under its key. -/
inductive Command where
  | claim
  | look
  | store (response : Response) (stored : Json)
  | free (outcome : Outcome)
  | renew

/-- What Redis replies. -/
inductive Answer where
  | acquired (ok : Bool)
  | found (cached : Option Cached)
  | done

/-- Where the request's task awaits. -/
inductive Task where
  /-- A command, and the reply once Redis has executed it. -/
  | waiting (command : Command) (answer : Option Answer)
  /-- `await original(request)`, with the loop beside it or without. -/
  | handling (guarded : Bool)
  | answered (reply : Reply)
  | cancelled

/-- `_renew_lock`. -/
inductive Loop where
  /-- `asyncio.sleep`, until this instant at least. -/
  | sleeping (until_ : Int)
  /-- `redis.expire`, executed or not yet. -/
  | sent (executed : Bool)
  | stopped

/-- The renewal task is alive. -/
def Loop.running : Loop → Bool
  | .sleeping _ | .sent _ => true
  | .stopped => false

/-- A request and its renewal task. -/
structure Request where
  cacheKey : String
  task : Task := .waiting .claim none
  loop : Loop := .stopped
  /-- Its `SET NX` found the key free. -/
  claimed : Bool := false
  /-- When its handler ended, or it became clear that it has none to run. -/
  ended : Option Int := none
  /-- Commands sent by calls that were given up. -/
  strays : List Command := []

/-- The handler of the task is still to end. -/
def Task.pending : Task → Bool
  | .waiting .claim _ | .waiting .look _ | .handling _ => true
  | _ => false

/-- The handler runs under the claim. -/
def Task.guarded : Task → Bool
  | .handling guarded => guarded
  | _ => false

/-- The commands that make a marker last. -/
def Command.prolongs : Command → Bool
  | .claim | .renew => true
  | .look | .store _ _ | .free _ => false

/-- What one of the request's tasks, or Redis on its behalf, does next. -/
inductive Action where
  /-- Redis executes the command the request awaits; the await returns; it raises. -/
  | execute
  | resume
  | fail
  /-- The handler returns or raises. -/
  | finish (outcome : Outcome)
  /-- The request's task is cancelled where it awaits. -/
  | cancel
  /-- The loop's sleep ends; Redis executes its `EXPIRE`; the call returns; it raises. -/
  | wake
  | renew
  | renewed
  | renewFail
  /-- Redis executes a command that was given up. -/
  | late (i : Nat)

/-! ### Steps -/

section Steps

variable (ttl : Nat)

/-- Redis executes a command. `ttl` is `idempotency_key_ttl_seconds`. -/
def Command.run (k : String) (redis : Store String Cached) : Command → Store String Cached
  | .claim => (redis.setNx k .inProgress (some lockSeconds)).getD redis
  | .look => redis
  | .store _ stored => redis.set k (.record stored) (some ttl)
  | .free _ => redis.del k
  | .renew => redis.expire k lockSeconds

/-- What Redis answers. -/
def Command.answer (k : String) (redis : Store String Cached) : Command → Answer
  | .claim => .acquired (redis.get k).isNone
  | .look => .found (redis.get k)
  | .store _ _ | .free _ | .renew => .done

namespace Request

variable (r : Request)

/-- The command found the key free, or the request had claimed it before. -/
def claims (redis : Store String Cached) : Command → Bool
  | .claim => r.claimed || (redis.get r.cacheKey).isNone
  | _ => r.claimed

/-- A call that has no reply yet is given up. -/
def drop : Request :=
  match r.task with
  | .waiting command none => { r with strays := r.strays ++ [command] }
  | _ => r

/-- `renew_task.cancel()`. -/
def cancelLoop : Request :=
  match r.loop with
  | .sent false => { r with loop := .stopped, strays := r.strays ++ [.renew] }
  | _ => { r with loop := .stopped }

/-- The handler has ended. -/
def finished (now : Int) : Request := { r with ended := r.ended.or (some now) }

/-- The handler's task goes on. -/
def goto (task : Task) : Request := { r with task }

/-- What follows the handler under the claim. -/
def settle : Outcome → Request
  | .returned response =>
    if response.statusCode < 500 then
      match response.record with
      | some stored => r.goto (.waiting (.store response stored) none)
      -- The body cannot be decoded: logged, and the marker is left to its deadline.
      | none => r.goto (.answered (.ran (.returned response)))
    else r.goto (.waiting (.free (.returned response)) none)
  | .raised => r.goto (.waiting (.free .raised) none)

/-- The await of a command returns. -/
def resume (now : Int) : Option Request :=
  match r.task with
  | .waiting .claim (some (.acquired true)) =>
    some { r with task := .handling true, loop := .sleeping (now + lockSeconds / 2) }
  | .waiting .claim (some (.acquired false)) => some (r.goto (.waiting .look none))
  | .waiting .look (some (.found (some (.record stored)))) =>
    match replay stored with
    | some response => some ((r.finished now).goto (.answered (.replayed response)))
    | none => some (r.goto (.handling false))
  | .waiting .look (some (.found _)) => some ((r.finished now).goto (.answered .conflict))
  | .waiting (.store response _) (some _) => some (r.goto (.answered (.ran (.returned response))))
  | .waiting (.free outcome) (some _) => some (r.goto (.answered (.ran outcome)))
  | _ => none

/-- The await of a command raises, executed or not. -/
def fail : Option Request :=
  match r.task with
  | .waiting .claim _ | .waiting .look _ => some (r.drop.goto (.handling false))
  | .waiting (.store response _) _ => some (r.drop.goto (.answered (.ran (.returned response))))
  | .waiting (.free outcome) _ => some (r.drop.goto (.answered (.ran outcome)))
  | _ => none

/-- The handler ends. -/
def finish (now : Int) (outcome : Outcome) : Option Request :=
  match r.task with
  | .handling true => some (((r.finished now).cancelLoop).settle outcome)
  | .handling false => some ((r.finished now).goto (.answered (.degraded outcome)))
  | _ => none

/-- `CancelledError` is no `Exception`: no handler of the source catches it, and none of them
cancels the loop. -/
def cancel (now : Int) : Option Request :=
  match r.task with
  | .waiting _ _ | .handling _ => some ((r.drop.finished now).goto .cancelled)
  | _ => none

/-- One step of the request, its loop or one of its commands. -/
def advance (redis : Store String Cached) : Action → Option (Request × Store String Cached)
  | .execute =>
    match r.task with
    | .waiting command none =>
      some ({ r with
        task := .waiting command (some (command.answer r.cacheKey redis))
        claimed := r.claims redis command }, command.run ttl r.cacheKey redis)
    | _ => none
  | .resume => (r.resume redis.now).map (·, redis)
  | .fail => r.fail.map (·, redis)
  | .finish outcome => (r.finish redis.now outcome).map (·, redis)
  | .cancel => (r.cancel redis.now).map (·, redis)
  | .wake =>
    match r.loop with
    | .sleeping until_ =>
      if until_ ≤ redis.now then some ({ r with loop := .sent false }, redis) else none
    | _ => none
  | .renew =>
    match r.loop with
    | .sent false => some ({ r with loop := .sent true }, Command.renew.run ttl r.cacheKey redis)
    | _ => none
  | .renewed =>
    match r.loop with
    | .sent true => some ({ r with loop := .sleeping (redis.now + lockSeconds / 2) }, redis)
    | _ => none
  -- Any exception ends the loop; a warning is logged.
  | .renewFail =>
    match r.loop with
    | .sent _ => some (r.cancelLoop, redis)
    | _ => none
  | .late i =>
    r.strays[i]?.map fun command =>
      ({ r with strays := r.strays.eraseIdx i, claimed := r.claims redis command },
        command.run ttl r.cacheKey redis)

end Request

end Steps

/-- Redis and the requests. -/
structure State where
  redis : Store String Cached
  requests : Rows Nat Request

/-- A step of a request, its arrival, or time that passes. -/
inductive Label where
  | wait (seconds : Nat)
  | arrive (n : Nat) (incoming : Incoming)
  | act (n : Nat) (action : Action)

section Machine

variable (sha256 : String → String) (ttl : Nat)

/-- One step. -/
def step (s : State) : Label → Option State
  | .wait seconds => some { s with redis := s.redis.wait seconds }
  | .arrive n incoming =>
    if n ∈ s.requests.keys ∨ incoming.idempotencyKey = "" then none
    else some { s with requests := s.requests.put n { cacheKey := incoming.cacheKey sha256 } }
  | .act n action => do
    let r ← s.requests.row n
    let (r', redis) ← r.advance ttl s.redis action
    return ⟨redis, s.requests.put n r'⟩

/-- Requests with idempotency keys and their renewal loops. -/
def renewals : Machine State Label where
  init s := s = ⟨.empty, .empty⟩
  step := step sha256 ttl

end Machine

/-- Every claim is given up. -/
structure GivenUp (s : State) : Prop where
  stopped : ∀ n r, s.requests.row n = some r → r.ended.isSome = true → r.loop.running = false
  /-- A key in progress was claimed by a request whose handler runs, or ended less than one lock
  lifetime ago. -/
  freed : ∀ k, s.redis.get k = some .inProgress → ∃ n r, s.requests.row n = some r ∧
    r.cacheKey = k ∧ r.claimed = true ∧
      ∀ ended, r.ended = some ended → s.redis.now < ended + lockSeconds

/-- The request is not cancelled while its loop runs, and what makes a marker last reaches Redis
before its handler has ended. -/
def Request.Orderly (r : Request) : Action → Prop
  | .cancel => r.loop.running = false
  | .late i => ∀ command ∈ r.strays[i]?, command.prolongs = true → r.ended = none
  | _ => True

/-- The condition, on steps of requests. -/
def Orderly (s : State) : Label → Prop
  | .act n action => ∀ r ∈ s.requests.row n, r.Orderly action
  | .wait _ | .arrive _ _ => True

/-- By cases of the action. -/
instance (r : Request) (action : Action) : Decidable (r.Orderly action) := by
  unfold Request.Orderly
  split <;> infer_instance

/-- By cases of the label. -/
instance (s : State) (l : Label) : Decidable (Orderly s l) := by
  unfold Orderly
  split <;> infer_instance

/-! ### What a request keeps -/

/-- A running loop belongs to a handler that runs under a claim. -/
structure Request.Sound (r : Request) : Prop where
  loop : r.loop.running = true → r.task.guarded = true
  pending : r.task.pending = true → r.ended = none
  guarded : r.task.guarded = true → r.claimed = true
  acquired : r.task = .waiting .claim (some (.acquired true)) → r.claimed = true
  awaits : ∀ answer, r.task ≠ .waiting .renew answer
  strays : .renew ∈ r.strays → r.claimed = true

/-- A marker found after a step of `r` was there before it, or lasts for one lock lifetime from
now under the claim of `r`, whose handler has not ended. -/
structure Leaves (redis : Store String Cached) (r : Request) (redis' : Store String Cached) :
    Prop where
  now : redis'.now = redis.now
  markers : ∀ k entry, redis'.entries k = some entry → entry.value = .inProgress →
    redis.entries k = some entry ∨ (entry.deadline = some (redis.now + lockSeconds) ∧
      r.cacheKey = k ∧ r.claimed = true ∧ r.ended = none)

theorem Leaves.refl (redis : Store String Cached) (r : Request) : Leaves redis r redis where
  now := rfl
  markers _ _ hentry _ := .inl hentry

/-- One step of a request. -/
structure Next (redis : Store String Cached) (r r' : Request) (redis' : Store String Cached) :
    Prop where
  key : r'.cacheKey = r.cacheKey
  claimed : r.claimed = true → r'.claimed = true
  ended : ∀ e, r'.ended = some e → r.ended = some e ∨ e = redis.now
  sound : r'.Sound
  leaves : Leaves redis r' redis'

section Next

variable {ttl : Nat} {redis redis' : Store String Cached} {r r' : Request}

/-- Setting a key leaves the entries of the others. -/
theorem entries_set {k j : String} {v : Cached} {seconds : Option Nat} {entry : Entry Cached}
    (h : (redis.set k v seconds).entries j = some entry) :
    (j = k ∧ entry = ⟨v, redis.deadline seconds⟩) ∨ redis.entries j = some entry := by
  rcases Machine.update_cases h with ⟨hj, hentry⟩ | ⟨-, hentry⟩
  · exact .inl ⟨hj, (Option.some.inj hentry).symm⟩
  · exact .inr hentry

/-- What a command leaves, if the request may make a marker last whenever the command does. -/
theorem leaves_run (command : Command)
    (hends : command.prolongs = true → r'.ended = none)
    (hclaims : command = .claim → redis.get r'.cacheKey = none → r'.claimed = true)
    (hrenews : command = .renew → r'.claimed = true) :
    Leaves redis r' (command.run ttl r'.cacheKey redis) := by
  cases command with
  | claim =>
    -- `SET NX` writes only where there is no key, and then the lock of this request.
    show Leaves redis r' ((redis.setNx _ _ _).getD redis)
    unfold Store.setNx
    split
    · exact .refl redis r'
    · next hfree =>
      refine ⟨rfl, fun k entry hentry _ => ?_⟩
      rcases entries_set hentry with ⟨rfl, rfl⟩ | hold
      · refine .inr ⟨rfl, rfl, hclaims rfl ?_, hends rfl⟩
        exact Option.not_isSome_iff_eq_none.mp hfree
      · exact .inl hold
  | look => exact .refl redis r'
  | store response stored =>
    refine ⟨rfl, fun k entry hentry hmarker => ?_⟩
    rcases entries_set hentry with ⟨rfl, rfl⟩ | hold
    · cases hmarker
    · exact .inl hold
  | free outcome =>
    refine ⟨rfl, fun k entry hentry _ => ?_⟩
    rcases Machine.update_cases hentry with ⟨-, hgone⟩ | ⟨-, hold⟩
    · cases hgone
    · exact .inl hold
  | renew =>
    -- `EXPIRE` keeps the value and moves the end, of a key that is there.
    refine ⟨redis.now_expire _ _, fun k entry hentry _ => ?_⟩
    replace hentry : (redis.expire r'.cacheKey lockSeconds).entries k = some entry := hentry
    unfold Store.expire at hentry
    split at hentry
    · exact .inl hentry
    · rcases entries_set hentry with ⟨rfl, rfl⟩ | hold
      · exact .inr ⟨rfl, rfl, hrenews rfl, hends rfl⟩
      · exact .inl hold

/-- The loop runs beside the handler only. -/
theorem Request.Sound.stopped (h : r.Sound) (hg : r.task.guarded = false) :
    r.loop.running = false := by
  refine eq_false_of_ne_true fun hrunning => ?_
  rw [h.loop hrunning] at hg
  cases hg

/-! ### One lemma an action -/

/-- `q` is `r` but for its task and its loop, when commands were given up or the handler ended. -/
structure Kept (now : Int) (r q : Request) : Prop where
  key : q.cacheKey = r.cacheKey
  claimed : q.claimed = r.claimed
  ended : ∀ e, q.ended = some e → r.ended = some e ∨ e = now
  strays : r.Sound → .renew ∈ q.strays → r.claimed = true

theorem Kept.refl (now : Int) (r : Request) : Kept now r r where
  key := rfl
  claimed := rfl
  ended _ he := .inl he
  strays h := h.strays

theorem Kept.finished {now : Int} {q : Request} (h : Kept now r q) :
    Kept now r (q.finished now) where
  key := h.key
  claimed := h.claimed
  strays := h.strays
  ended e he := by
    unfold Request.finished at he
    cases hended : q.ended with
    | none =>
      rw [hended] at he
      exact .inr (Option.some.inj he).symm
    | some e' =>
      rw [hended] at he
      exact h.ended e (hended.trans he)

/-- Dropping a late command changes nothing of the request. -/
theorem kept_drop (now : Int) (r : Request) : Kept now r r.drop := by
  unfold Request.drop
  split
  · next command htask =>
    refine ⟨rfl, rfl, fun e he => .inl he, fun h hmem => ?_⟩
    rcases List.mem_append.mp hmem with hold | hnew
    · exact h.strays hold
    · obtain rfl := List.mem_singleton.mp hnew
      exact absurd htask (h.awaits none)
  · exact .refl now r

theorem drop_loop (r : Request) : r.drop.loop = r.loop := by
  unfold Request.drop
  split <;> rfl

theorem drop_ended (r : Request) : r.drop.ended = r.ended := by
  unfold Request.drop
  split <;> rfl

/-- The loop was running, if its `EXPIRE` is on the way. -/
theorem Kept.cancelLoop {now : Int} {q : Request} (h : Kept now r q) (hloop : q.loop = r.loop) :
    Kept now r q.cancelLoop := by
  unfold Request.cancelLoop
  split
  · next hsent =>
    refine ⟨h.key, h.claimed, h.ended, fun hr _ => hr.guarded (hr.loop ?_)⟩
    rw [← hloop, hsent]
    rfl
  · exact ⟨h.key, h.claimed, h.ended, h.strays⟩

theorem cancelLoop_loop (q : Request) : q.cancelLoop.loop = .stopped := by
  unfold Request.cancelLoop
  split <;> rfl

theorem cancelLoop_ended (q : Request) : q.cancelLoop.ended = q.ended := by
  unfold Request.cancelLoop
  split <;> rfl

theorem cancelLoop_task (q : Request) : q.cancelLoop.task = q.task := by
  unfold Request.cancelLoop
  split <;> rfl

/-- The task neither runs the handler under the claim nor awaits the claim. -/
def Task.aside : Task → Bool
  | .handling true | .waiting .claim _ | .waiting .renew _ => false
  | _ => true

/-- The request goes on, without its loop. -/
theorem Kept.next {q : Request} {task : Task} (hq : Kept redis.now r q) (h : r.Sound)
    (hloop : q.loop.running = false) (haside : task.aside = true)
    (hpending : task.pending = true → q.ended = none) : Next redis r (q.goto task) redis where
  key := hq.key
  claimed hclaimed := hq.claimed.trans hclaimed
  ended := hq.ended
  leaves := .refl ..
  sound := by
    refine ⟨fun hrunning => ?_, hpending, fun hg => ?_, ?_, ?_, ?_⟩
    · rw [show (q.goto task).loop = q.loop from rfl, hloop] at hrunning
      cases hrunning
    · replace hg : task.guarded = true := hg
      cases task with
      | handling guarded =>
        cases guarded with
        | true => cases haside
        | false => cases hg
      | _ => cases hg
    · rintro (rfl : task = _)
      cases haside
    · rintro answer (rfl : task = _)
      cases haside
    · exact fun hmem => hq.claimed.trans (hq.strays h hmem)

theorem Request.claims_of_claimed (r : Request) (redis : Store String Cached) (command : Command)
    (h : r.claimed = true) : r.claims redis command = true := by
  unfold Request.claims
  split
  · rw [h, Bool.true_or]
  · exact h

/-- Redis executes the command of the request. -/
theorem next_execute (h : r.Sound) (hstep : r.advance ttl redis .execute = some (r', redis')) :
    Next redis r r' redis' := by
  dsimp only [Request.advance] at hstep
  split at hstep
  · next command htask =>
    cases hstep
    have hpending : r.task.pending = true → r.ended = none := h.pending
    -- No renewal runs while the request itself executes a command.
    have hstopped : r.loop.running = false := h.stopped (by rw [htask]; rfl)
    have hclaimed : r.claimed = true → r.claims redis command = true :=
      r.claims_of_claimed redis command
    refine ⟨rfl, hclaimed, fun e he => .inl he, ?_, ?_⟩
    · refine ⟨fun hrunning => ?_, fun hp => ?_, nofun, fun hacquired => ?_, ?_, ?_⟩
      · rw [hstopped] at hrunning
        cases hrunning
      · refine hpending ?_
        rw [htask]
        cases command <;> exact hp
      · -- A claim that is answered with success found the key free.
        cases command with
        | claim =>
          injection hacquired with _ hanswer
          injection hanswer with hanswer
          injection hanswer with hfree
          show (r.claimed || (redis.get r.cacheKey).isNone) = true
          rw [hfree, Bool.or_true]
        | _ => cases hacquired
      · rintro answer heq
        injection heq with hcommand
        rw [hcommand] at htask
        exact h.awaits none htask
      · exact fun hmem => hclaimed (h.strays hmem)
    · -- A marker that the command leaves is an old one, or it is the request's own.
      refine leaves_run command (fun hprolongs => ?_) (fun hcommand hfree => ?_) fun hcommand => ?_
      · refine hpending ?_
        rw [htask]
        cases command with
        | claim => rfl
        | renew => exact absurd htask (h.awaits none)
        | _ => cases hprolongs
      · subst hcommand
        show (r.claimed || (redis.get r.cacheKey).isNone) = true
        rw [show redis.get r.cacheKey = none from hfree]
        exact Bool.or_true _
      · subst hcommand
        exact absurd htask (h.awaits none)
  · cases hstep

/-- The request goes on with the answer. -/
theorem next_resume (h : r.Sound) (hstep : r.resume redis.now = some r') :
    Next redis r r' redis := by
  have hkept : Kept redis.now r r := .refl redis.now r
  unfold Request.resume at hstep
  split at hstep
  · -- The lock is acquired, and the loop starts with the claim behind it.
    next htask =>
    cases hstep
    have hclaimed := h.acquired htask
    have hended : r.ended = none := h.pending (by rw [htask]; rfl)
    exact ⟨rfl, id, fun e he => .inl he,
      ⟨fun _ => rfl, fun _ => hended, fun _ => hclaimed, nofun, nofun, h.strays⟩, .refl ..⟩
  · next htask =>
    cases hstep
    exact hkept.next h (h.stopped (by rw [htask]; rfl)) rfl fun _ => h.pending (by rw [htask]; rfl)
  · -- Another request's answer: replayed where it reads, a conflict where it does not.
    next stored htask =>
    have hstopped : r.loop.running = false := h.stopped (by rw [htask]; rfl)
    split at hstep
    · cases hstep
      exact hkept.finished.next h hstopped rfl nofun
    · cases hstep
      exact hkept.next h hstopped rfl fun _ => h.pending (by rw [htask]; rfl)
  · next htask =>
    cases hstep
    exact hkept.finished.next h (h.stopped (by rw [htask]; rfl)) rfl nofun
  · next htask =>
    cases hstep
    exact hkept.next h (h.stopped (by rw [htask]; rfl)) rfl nofun
  · next htask =>
    cases hstep
    exact hkept.next h (h.stopped (by rw [htask]; rfl)) rfl nofun
  · cases hstep

theorem next_fail (h : r.Sound) (hstep : r.fail = some r') : Next redis r r' redis := by
  have hkept : Kept redis.now r r.drop := kept_drop redis.now r
  have hstopped : r.task.guarded = false → r.drop.loop.running = false := by
    intro hguarded
    rw [drop_loop]
    exact h.stopped hguarded
  unfold Request.fail at hstep
  split at hstep
  · next htask =>
    cases hstep
    refine hkept.next h (hstopped (by rw [htask]; rfl)) rfl fun _ => ?_
    rw [drop_ended]
    exact h.pending (by rw [htask]; rfl)
  · next htask =>
    cases hstep
    refine hkept.next h (hstopped (by rw [htask]; rfl)) rfl fun _ => ?_
    rw [drop_ended]
    exact h.pending (by rw [htask]; rfl)
  · next htask =>
    cases hstep
    exact hkept.next h (hstopped (by rw [htask]; rfl)) rfl nofun
  · next htask =>
    cases hstep
    exact hkept.next h (hstopped (by rw [htask]; rfl)) rfl nofun
  · cases hstep

/-- Whatever the handler returned, the request goes on without its loop. -/
theorem Kept.next_settle {q : Request} (hq : Kept redis.now r q) (h : r.Sound)
    (hloop : q.loop.running = false) (outcome : Outcome) :
    Next redis r (q.settle outcome) redis := by
  unfold Request.settle
  split
  · split
    · split
      · exact hq.next h hloop rfl nofun
      · exact hq.next h hloop rfl nofun
    · exact hq.next h hloop rfl nofun
  · exact hq.next h hloop rfl nofun

/-- The handler ends, and the loop with it. -/
theorem next_finish {outcome : Outcome} (h : r.Sound)
    (hstep : r.finish redis.now outcome = some r') : Next redis r r' redis := by
  have hkept : Kept redis.now r (r.finished redis.now) := (Kept.refl redis.now r).finished
  unfold Request.finish at hstep
  split at hstep
  · cases hstep
    refine (hkept.cancelLoop rfl).next_settle h ?_ outcome
    rw [cancelLoop_loop]
    rfl
  · next htask =>
    cases hstep
    exact hkept.next h (h.stopped (by rw [htask]; rfl)) rfl nofun
  · cases hstep

/-- The request is cancelled, with its loop stopped. -/
theorem next_cancel (h : r.Sound) (hloop : r.loop.running = false)
    (hstep : r.cancel redis.now = some r') : Next redis r r' redis := by
  have hstopped : r.drop.loop.running = false := by
    rw [drop_loop]
    exact hloop
  unfold Request.cancel at hstep
  split at hstep
  · cases hstep
    exact (kept_drop redis.now r).finished.next h hstopped rfl nofun
  · cases hstep
    exact (kept_drop redis.now r).finished.next h hstopped rfl nofun
  · cases hstep

/-- The loop goes on beside the handler. -/
theorem Request.Sound.withLoop (h : r.Sound) (hrunning : r.loop.running = true) (loop : Loop) :
    ({ r with loop } : Request).Sound where
  loop _ := h.loop hrunning
  pending := h.pending
  guarded := h.guarded
  acquired := h.acquired
  awaits := h.awaits
  strays := h.strays

/-- A running loop is that of a handler that has not ended. -/
theorem Request.Sound.ended_eq_none (h : r.Sound) (hrunning : r.loop.running = true) :
    r.ended = none := by
  refine h.pending ?_
  have hguarded := h.loop hrunning
  cases htask : r.task with
  | handling guarded => rfl
  | _ =>
    rw [htask] at hguarded
    cases hguarded

theorem next_wake (h : r.Sound) (hstep : r.advance ttl redis .wake = some (r', redis')) :
    Next redis r r' redis' := by
  dsimp only [Request.advance] at hstep
  split at hstep
  · next until_ hloop =>
    split at hstep
    · cases hstep
      have hsound := h.withLoop (by rw [hloop]; rfl) (.sent false)
      exact ⟨rfl, id, fun e he => .inl he, hsound, .refl ..⟩
    · cases hstep
  · cases hstep

theorem next_renew (h : r.Sound) (hstep : r.advance ttl redis .renew = some (r', redis')) :
    Next redis r r' redis' := by
  dsimp only [Request.advance] at hstep
  split at hstep
  · next hloop =>
    cases hstep
    have hrunning : r.loop.running = true := by
      rw [hloop]
      rfl
    have hclaimed : r.claimed = true := h.guarded (h.loop hrunning)
    have hended : r.ended = none := h.ended_eq_none hrunning
    exact ⟨rfl, id, fun e he => .inl he, h.withLoop hrunning (.sent true),
      leaves_run .renew (fun _ => hended) nofun fun _ => hclaimed⟩
  · cases hstep

theorem next_renewed (h : r.Sound) (hstep : r.advance ttl redis .renewed = some (r', redis')) :
    Next redis r r' redis' := by
  dsimp only [Request.advance] at hstep
  split at hstep
  · next hloop =>
    cases hstep
    have hsound := h.withLoop (by rw [hloop]; rfl) (.sleeping (redis.now + lockSeconds / 2))
    exact ⟨rfl, id, fun e he => .inl he, hsound, .refl ..⟩
  · cases hstep

theorem next_renewFail (h : r.Sound)
    (hstep : r.advance ttl redis .renewFail = some (r', redis')) : Next redis r r' redis' := by
  dsimp only [Request.advance] at hstep
  split at hstep
  · next executed hloop =>
    cases hstep
    have hrunning : r.loop.running = true := by
      rw [hloop]
      rfl
    have hkept : Kept redis.now r r.cancelLoop := (Kept.refl redis.now r).cancelLoop rfl
    have hclaimed : r.cancelLoop.claimed = true := hkept.claimed.trans (h.guarded (h.loop hrunning))
    have hended : r.cancelLoop.ended = none := (cancelLoop_ended r).trans (h.ended_eq_none hrunning)
    refine ⟨hkept.key, fun _ => hclaimed, hkept.ended, ?_, .refl ..⟩
    refine ⟨fun hon => ?_, fun _ => hended, fun _ => hclaimed, fun _ => hclaimed, ?_,
      fun _ => hclaimed⟩
    · rw [cancelLoop_loop] at hon
      cases hon
    · rw [cancelLoop_task]
      exact h.awaits
  · cases hstep

/-- A command that was cancelled on its way arrives late. -/
theorem next_late {i : Nat} (h : r.Sound) (horderly : r.Orderly (.late i))
    (hstep : r.advance ttl redis (.late i) = some (r', redis')) : Next redis r r' redis' := by
  obtain ⟨command, hcommand, heq⟩ := Option.map_eq_some_iff.mp hstep
  cases heq
  have hclaims : r.claimed = true → r.claims redis command = true :=
    r.claims_of_claimed redis command
  refine ⟨rfl, hclaims, fun e he => .inl he, ?_, ?_⟩
  · refine ⟨h.loop, h.pending, fun hg => hclaims (h.guarded hg), fun ha => hclaims (h.acquired ha),
      h.awaits, fun hmem => hclaims (h.strays ?_)⟩
    exact List.mem_of_mem_eraseIdx hmem
  · refine leaves_run command (horderly command hcommand) (fun hclaim hfree => ?_) fun hrenew => ?_
    · subst hclaim
      show (r.claimed || (redis.get r.cacheKey).isNone) = true
      rw [show redis.get r.cacheKey = none from hfree]
      exact Bool.or_true _
    · subst hrenew
      exact hclaims (h.strays (List.mem_of_getElem? hcommand))

/-- One step of a request. -/
theorem next_of_advance {action : Action} (h : r.Sound) (horderly : r.Orderly action)
    (hstep : r.advance ttl redis action = some (r', redis')) : Next redis r r' redis' := by
  cases action with
  | execute => exact next_execute h hstep
  | wake => exact next_wake h hstep
  | renew => exact next_renew h hstep
  | renewed => exact next_renewed h hstep
  | renewFail => exact next_renewFail h hstep
  | late i => exact next_late h horderly hstep
  | resume =>
    obtain ⟨q, hq, heq⟩ := Option.map_eq_some_iff.mp hstep
    cases heq
    exact next_resume h hq
  | fail =>
    obtain ⟨q, hq, heq⟩ := Option.map_eq_some_iff.mp hstep
    cases heq
    exact next_fail h hq
  | finish outcome =>
    obtain ⟨q, hq, heq⟩ := Option.map_eq_some_iff.mp hstep
    cases heq
    exact next_finish h hq
  | cancel =>
    obtain ⟨q, hq, heq⟩ := Option.map_eq_some_iff.mp hstep
    cases heq
    exact next_cancel h horderly hq

end Next

/-! ### Runs -/

/-- Every marker lasts for one lock lifetime at most after the end of a handler whose request
claimed the key. -/
structure Inv (s : State) : Prop where
  sound : ∀ n r, s.requests.row n = some r → r.Sound
  markers : ∀ k entry, s.redis.entries k = some entry → entry.value = .inProgress →
    ∃ d, entry.deadline = some d ∧ d ≤ s.redis.now + lockSeconds ∧
      ∃ n r, s.requests.row n = some r ∧ r.cacheKey = k ∧ r.claimed = true ∧
        ∀ ended, r.ended = some ended → d ≤ ended + lockSeconds

theorem Inv.givenUp {s : State} (h : Inv s) : GivenUp s where
  stopped n r hrow hended := by
    refine eq_false_of_ne_true fun hrunning => ?_
    rw [(h.sound n r hrow).ended_eq_none hrunning] at hended
    cases hended
  freed k hget := by
    obtain ⟨entry, hentry, hread⟩ := Option.bind_eq_some_iff.mp hget
    obtain ⟨d, hd, -, n, r, hrow, hkey, hclaimed, hended⟩ :=
      h.markers k entry hentry (Entry.eq_of_read hread)
    refine ⟨n, r, hrow, hkey, hclaimed, fun ended he => ?_⟩
    have hle : d ≤ ended + lockSeconds := hended ended he
    have hlt : s.redis.now < d := Entry.lt_of_read hread hd
    omega

section Runs

variable {sha256 : String → String} {ttl : Nat} {s : State}

theorem Inv.wait (h : Inv s) (seconds : Nat) :
    Inv { s with redis := s.redis.wait seconds } where
  sound := h.sound
  markers k entry hentry hmarker := by
    obtain ⟨d, hd, hle, hrest⟩ := h.markers k entry hentry hmarker
    refine ⟨d, hd, ?_, hrest⟩
    show d ≤ s.redis.now + (seconds : Int) + lockSeconds
    omega

/-- A request that arrives has claimed nothing. -/
theorem Inv.arrive (h : Inv s) {n : Nat} (hn : n ∉ s.requests.keys) (k : String) :
    Inv { s with requests := s.requests.put n { cacheKey := k } } where
  sound m r hrow := by
    rcases Rows.row_put hrow with ⟨-, rfl⟩ | ⟨-, hold⟩
    · exact ⟨nofun, fun _ => rfl, nofun, nofun, nofun, nofun⟩
    · exact h.sound m r hold
  markers j entry hentry hmarker := by
    obtain ⟨d, hd, hle, m, r, hrow, hrest⟩ := h.markers j entry hentry hmarker
    refine ⟨d, hd, hle, m, r, ?_, hrest⟩
    have hne : m ≠ n := fun heq => hn (heq ▸ s.requests.row_keys hrow)
    exact (Rows.row_put_of_ne _ _ hne).trans hrow

theorem Inv.act (h : Inv s) {n : Nat} {r r' : Request} {redis : Store String Cached}
    (hrow : s.requests.row n = some r) (hnext : Next s.redis r r' redis) :
    Inv ⟨redis, s.requests.put n r'⟩ where
  sound m q hq := by
    rcases Rows.row_put hq with ⟨-, rfl⟩ | ⟨-, hold⟩
    · exact hnext.sound
    · exact h.sound m q hold
  markers k entry hentry hmarker := by
    show ∃ d, entry.deadline = some d ∧ d ≤ redis.now + lockSeconds ∧ _
    rw [hnext.leaves.now]
    rcases hnext.leaves.markers k entry hentry hmarker with hold | ⟨hd, hkey, hclaimed, hended⟩
    · obtain ⟨d, hd, hle, m, q, hq, hkey, hclaimed, hends⟩ := h.markers k entry hold hmarker
      -- An old marker: its holder is the same request, whichever request moved.
      refine ⟨d, hd, hle, ?_⟩
      by_cases hm : m = n
      · subst hm
        obtain rfl := Option.some.inj (hrow.symm.trans hq)
        refine ⟨m, r', Rows.row_put_self .., hnext.key.trans hkey, hnext.claimed hclaimed, ?_⟩
        intro ended he
        -- The request may have ended in this step, and the lock was long enough before it.
        rcases hnext.ended ended he with hbefore | rfl
        · exact hends ended hbefore
        · exact hle
      · exact ⟨m, q, (Rows.row_put_of_ne _ _ hm).trans hq, hkey, hclaimed, hends⟩
    · refine ⟨_, hd, Int.le_refl _, n, r', Rows.row_put_self .., hkey, hclaimed, ?_⟩
      intro ended he
      rw [hended] at he
      cases he

/-- One orderly step keeps the invariant. -/
theorem Inv.step {t : State} {l : Label} (h : Inv s) (horderly : Orderly s l)
    (hstep : step sha256 ttl s l = some t) : Inv t := by
  cases l with
  | wait seconds =>
    cases hstep
    exact h.wait seconds
  | arrive n incoming =>
    dsimp only [Renewal.step] at hstep
    split at hstep
    · cases hstep
    · next hnew =>
      cases hstep
      exact h.arrive (not_or.mp hnew).1 _
  | act n action =>
    obtain ⟨r, hrow, hstep⟩ := Option.bind_eq_some_iff.mp hstep
    obtain ⟨⟨r', redis⟩, hadvance, hstep⟩ := Option.bind_eq_some_iff.mp hstep
    cases hstep
    exact h.act hrow (next_of_advance (h.sound n r hrow) (horderly r hrow) hadvance)

variable (sha256 ttl)

theorem inv_inductive : (renewals sha256 ttl).Inductive Orderly Inv where
  init s hs := by
    cases hs
    exact ⟨fun _ _ hrow => (nomatch hrow), fun _ _ hentry => (nomatch hentry)⟩
  step _ _ _ h horderly hstep := h.step horderly hstep

/-- Whether the loop outlives a request that is cancelled: nothing stops it. -/
theorem cancel_givenUp {t : State} (h : Inv s) {n : Nat} {r : Request}
    (hrow : s.requests.row n = some r) (hstep : step sha256 ttl s (.act n .cancel) = some t) :
    GivenUp t ↔ r.loop.running = false := by
  constructor
  · intro hgiven
    obtain ⟨r₀, hrow₀, hrest⟩ := Option.bind_eq_some_iff.mp hstep
    obtain rfl := Option.some.inj (hrow.symm.trans hrow₀)
    obtain ⟨⟨q, redis⟩, hadvance, hstep⟩ := Option.bind_eq_some_iff.mp hrest
    cases hstep
    obtain ⟨q', hq, heq⟩ := Option.map_eq_some_iff.mp hadvance
    cases heq
    -- Every point at which a request can be cancelled leaves it ended, and its loop as it was.
    have hq : q = (r.drop.finished s.redis.now).goto .cancelled := by
      unfold Request.cancel at hq
      split at hq
      · exact (Option.some.inj hq).symm
      · exact (Option.some.inj hq).symm
      · cases hq
    have hended : q.ended.isSome = true := by
      rw [hq]
      show (r.drop.ended.or (some s.redis.now)).isSome = true
      cases r.drop.ended <;> rfl
    have hloop := hgiven.stopped n q (Rows.row_put_self ..) hended
    rw [hq] at hloop
    exact (drop_loop r) ▸ hloop
  · -- A loop already stopped renews nothing after the cancellation.
    intro hloop
    refine (h.step ?_ hstep).givenUp
    intro q hq
    obtain rfl := Option.some.inj (hrow.symm.trans hq)
    exact hloop

/-- **Every claim is given up**, however the calls and the handlers end, in every run that
cancels no request while its loop runs; such a cancellation leaves the loop running. -/
theorem given_up (h : (renewals sha256 ttl).ReachVia Orderly s) :
    GivenUp s ∧ ∀ n r t, s.requests.row n = some r →
      step sha256 ttl s (.act n .cancel) = some t → (GivenUp t ↔ r.loop.running = false) := by
  have hinv : Inv s := (inv_inductive sha256 ttl).always h
  exact ⟨hinv.givenUp, fun n r t hrow hstep => cancel_givenUp sha256 ttl hinv hrow hstep⟩

end Runs

/-! ### A checkout -/

/-- A checkout of the platform staff. -/
def checkout : Incoming where
  tenant := none
  authorization := ""
  route := "/api/v1/platform/tenants/{tenant_id}/checkout"
  idempotencyKey := "checkout-1"

/-- Whether the key of the checkout is in progress. -/
def State.checkingOut (s : State) : Bool :=
  (s.redis.get (checkout.cacheKey id)).any Cached.isMarker

/-- The handler outlasts a lock lifetime and raises, and the `DEL` fails; a second attempt is
cancelled as it looks the key up. -/
theorem given_up_checkout : ∃ s, (renewals id 86400).ReachVia Orderly s ∧
    s.checkingOut = true ∧ GivenUp s ∧ ∀ n r t, s.requests.row n = some r →
      step id 86400 s (.act n .cancel) = some t → (GivenUp t ↔ r.loop.running = false) := by
  obtain ⟨s, hs, hp⟩ := Machine.exists_reachVia_of_run (M := renewals id 86400) (G := Orderly)
    (s := ⟨.empty, .empty⟩)
    [.arrive 1 checkout, .act 1 .execute, .act 1 .resume, .wait 20, .act 1 .wake, .act 1 .renew,
      .act 1 .renewed, .wait 15, .arrive 2 checkout, .act 2 .execute, .act 2 .resume,
      .act 2 .cancel, .act 1 (.finish .raised), .act 1 .fail]
    State.checkingOut rfl (by decide)
  exact ⟨s, hs, hp, given_up id 86400 hs⟩

/-- A renewal of the loop. -/
def renewal : List Label := [.wait 15, .act 1 .wake, .act 1 .renew, .act 1 .renewed]

/-- The request is cancelled while the checkout runs: two lock lifetimes later its loop still
renews the marker, and no other request has come. -/
theorem checkout_in_progress : ∃ s, (renewals id 86400).Reachable s ∧ ¬GivenUp s ∧
    s.checkingOut = true ∧ s.redis.now = 60 ∧ s.requests.keys = [1] ∧
      (s.requests.row 1).all (·.ended = some 0) = true := by
  obtain ⟨s, hs, hp⟩ := Machine.exists_reachable_of_run (M := renewals id 86400)
    (s := ⟨.empty, .empty⟩)
    (.arrive 1 checkout :: .act 1 .execute :: .act 1 .resume :: .act 1 .cancel ::
      (List.replicate 4 renewal).flatten)
    (fun s => s.checkingOut ∧ s.redis.now = 60 ∧ s.requests.keys = [1] ∧
      (s.requests.row 1).all (·.ended = some 0)) rfl (by decide)
  have hp := of_decide_eq_true hp
  refine ⟨s, hs, fun hgiven => ?_, hp⟩
  obtain ⟨hmarker, hnow, hkeys, hended⟩ := hp
  obtain ⟨cached, hget, hin⟩ := (Option.any_eq_true _ _).mp hmarker
  cases cached with
  | record stored => cases hin
  | inProgress =>
    obtain ⟨n, r, hrow, -, -, hfreed⟩ := hgiven.freed _ hget
    have hn : n ∈ [1] := hkeys ▸ s.requests.row_keys hrow
    obtain rfl := List.mem_singleton.mp hn
    rw [hrow] at hended
    have hlt := hfreed 0 (of_decide_eq_true hended)
    rw [hnow] at hlt
    cases hlt

end Renewal

end Idempotency

end Core

end RealEstate
