import RealEstate.Core.Idempotency

/-!
# Replays and resources

The cache key names the route by its template, so that requests with one key may address
different resources. `crossing` runs `idempotency` with the URL every request addresses, and
notes whose record each replay was made of.

- `SameResource`: the guard: what a request meets under its cache key, and whoever is waiting
  for what it will store, addresses the same resource.
- `never_crosses`: then no request is answered with the record of another resource.
- `checkout_crosses`: the checkout of one tenant answered with another's.
-/

namespace RealEstate

namespace Core

namespace Idempotency

namespace Crossing

open Systems Function

/-- The request will store a record, unless its handler fails. -/
def writes : Progress → Bool
  | .running | .storing _ => true
  | .looking | .unguarded | .freeing _ | .answered _ => false

/-- The request is about to read what is stored. -/
def looks : Progress → Bool
  | .looking => true
  | .running | .storing _ | .unguarded | .freeing _ | .answered _ => false

/-- The middleware, and who answered whom. -/
structure State where
  base : Idempotency.State
  /-- The request whose record was stored last under a cache key. -/
  origin : String → Nat
  /-- A request, and the one whose record it was answered with. -/
  replays : List (Nat × Nat)

/-- The requests of a cache key that are at some point. -/
def State.under (s : State) (k : String) (p : Progress → Bool) : List Nat :=
  s.base.requests.select fun request => request.cacheKey = k ∧ p request.progress

/-- What a step of `idempotency` from `s` to `base` adds to the notes. -/
def State.note (s : State) (base : Idempotency.State) : Label → State
  | .store n ok =>
    match s.base.requests.row n with
    | some ⟨k, .storing response⟩ =>
      if ok ∧ response.record.isSome then
        { s with base, origin := Function.update s.origin k n }
      else { s with base }
    | _ => { s with base }
  | .look n _ =>
    match base.requests.row n with
    | some ⟨k, .answered (.replayed _)⟩ =>
      { s with base, replays := (n, s.origin k) :: s.replays }
    | _ => { s with base }
  | _ => { s with base }

section Machine

variable (sha256 : String → String) (ttl : Nat) (url : Nat → String)

/-- One step, with a note of who answered whom. -/
def step (s : State) (l : Label) : Option State :=
  (Idempotency.step sha256 ttl s.base l).map fun base => s.note base l

/-- Requests with idempotency keys, from the first on. -/
def crossing : Machine State Label where
  init s := s = ⟨⟨.empty, .empty, fun _ => []⟩, fun _ => 0, []⟩
  step := step sha256 ttl

/-- A request that finds its cache key taken addresses what those do that will store under it,
and what the stored record is about; one that takes it, what those do that are looking. -/
def SameResource (s : State) : Label → Prop
  | .acquire n incoming true =>
    let k := incoming.cacheKey sha256
    match s.base.redis.get k with
    | none => ∀ m ∈ s.under k looks, url m = url n
    | some .inProgress => ∀ m ∈ s.under k writes, url m = url n
    | some (.record _) => (∀ m ∈ s.under k writes, url m = url n) ∧ url (s.origin k) = url n
  | _ => True

/-- By cases of the label. -/
instance (s : State) : ∀ l, Decidable (SameResource sha256 url s l)
  | .acquire n incoming true => by
    unfold SameResource
    dsimp only
    split <;> infer_instance
  | .acquire _ _ false | .wait _ | .look _ _ | .finish _ _ | .renew _ _ | .store _ _ | .free _ _ =>
    inferInstanceAs (Decidable True)

end Machine

/-- Whoever is looking addresses what it may find. -/
structure Inv (url : Nat → String) (s : State) : Prop where
  writers : ∀ {k n m}, n ∈ s.under k looks → m ∈ s.under k writes → url m = url n
  stored : ∀ {k n stored}, n ∈ s.under k looks → s.base.redis.get k = some (.record stored) →
    url (s.origin k) = url n
  replays : ∀ {n m}, (n, m) ∈ s.replays → url n = url m

/-- The requests under a cache key. -/
theorem mem_under {s : State} {k : String} {p : Progress → Bool} {n : Nat} :
    n ∈ s.under k p ↔
      ∃ progress, s.base.requests.row n = some ⟨k, progress⟩ ∧ p progress = true := by
  unfold State.under
  rw [Rows.mem_select]
  constructor
  · rintro ⟨⟨key, progress⟩, hrow, hcond⟩
    obtain ⟨rfl, hp⟩ := of_decide_eq_true hcond
    exact ⟨progress, hrow, hp⟩
  · rintro ⟨progress, hrow, hp⟩
    exact ⟨⟨k, progress⟩, hrow, decide_eq_true ⟨rfl, hp⟩⟩

section Steps

variable {sha256 : String → String} {ttl : Nat} {url : Nat → String} {s : State} {n : Nat}
  {k : String} {base : Idempotency.State} {progress : Progress}

/-- Request `n` moves on, and no record appears that was not there. -/
structure Moves (s : State) (n : Nat) (k : String) (progress : Progress)
    (base : Idempotency.State) : Prop where
  requests : base.requests = s.base.requests.put n ⟨k, progress⟩
  redis : ∀ j stored, base.redis.get j = some (.record stored) →
    s.base.redis.get j = some (.record stored)

/-- A request that moves is the only one to. -/
theorem Moves.under (h : Moves s n k progress base) {j : String} {p : Progress → Bool} {m : Nat}
    {origin : String → Nat} {replays : List (Nat × Nat)}
    (hm : m ∈ State.under ⟨base, origin, replays⟩ j p) :
    (m = n ∧ j = k ∧ p progress = true) ∨ m ∈ s.under j p := by
  obtain ⟨other, hrow, hp⟩ := mem_under.mp hm
  have hrow : base.requests.row m = some ⟨j, other⟩ := hrow
  rw [h.requests] at hrow
  rcases Rows.row_put hrow with ⟨rfl, hself⟩ | ⟨-, hrow⟩
  · cases hself
    exact .inl ⟨rfl, rfl, hp⟩
  · exact .inr (mem_under.mpr ⟨other, hrow, hp⟩)

/-- Nobody starts looking or writing. -/
theorem Inv.moves (h : Inv url s) (hmoves : Moves s n k progress base)
    (hlooks : looks progress = false)
    (hwrites : writes progress = true → n ∈ s.under k writes)
    {replays : List (Nat × Nat)} (hreplays : ∀ {m o}, (m, o) ∈ replays → url m = url o) :
    Inv url ⟨base, s.origin, replays⟩ where
  writers {j l m} hl hm := by
    rcases hmoves.under hl with ⟨-, -, hself⟩ | hl
    · rw [hlooks] at hself
      cases hself
    · rcases hmoves.under hm with ⟨rfl, rfl, hself⟩ | hm
      · exact h.writers hl (hwrites hself)
      · exact h.writers hl hm
  stored {j l stored} hl hstored := by
    rcases hmoves.under hl with ⟨-, -, hself⟩ | hl
    · rw [hlooks] at hself
      cases hself
    · exact h.stored hl (hmoves.redis j stored hstored)
  replays := hreplays

/-- A claim is a marker, not a record. -/
theorem record_of_set {redis : Store String Cached} {j : String} {stored : Json}
    (h : (redis.set k .inProgress (some lockSeconds)).get j = some (.record stored)) :
    redis.get j = some (.record stored) := by
  rcases Store.of_get_set h with ⟨-, hmarker⟩ | ⟨-, hget⟩
  · cases hmarker
  · exact hget

/-- A request finds its key taken. -/
theorem Inv.looking (h : Inv url s) (hmoves : Moves s n k .looking base)
    (hwriters : ∀ m ∈ s.under k writes, url m = url n)
    (hrecord : ∀ stored, s.base.redis.get k = some (.record stored) →
      url (s.origin k) = url n) : Inv url ⟨base, s.origin, s.replays⟩ where
  writers {j l m} hl hm := by
    rcases hmoves.under hm with ⟨-, -, hself⟩ | hwriter
    · cases hself
    · rcases hmoves.under hl with ⟨rfl, rfl, -⟩ | hlooker
      · exact hwriters m hwriter
      · exact h.writers hlooker hwriter
  stored {j l stored} hl hstored := by
    have hstored := hmoves.redis j stored hstored
    rcases hmoves.under hl with ⟨rfl, rfl, -⟩ | hlooker
    · exact hrecord stored hstored
    · exact h.stored hlooker hstored
  replays := h.replays

/-- A request takes its key. -/
theorem Inv.claims (h : Inv url s) (hmoves : Moves s n k .running base)
    (hlookers : ∀ m ∈ s.under k looks, url m = url n) :
    Inv url ⟨base, s.origin, s.replays⟩ where
  writers {j l m} hl hm := by
    rcases hmoves.under hl with ⟨-, -, hself⟩ | hlooker
    · cases hself
    · rcases hmoves.under hm with ⟨rfl, rfl, -⟩ | hwriter
      · exact (hlookers l hlooker).symm
      · exact h.writers hlooker hwriter
  stored {j l stored} hl hstored := by
    rcases hmoves.under hl with ⟨-, -, hself⟩ | hlooker
    · cases hself
    · exact h.stored hlooker (hmoves.redis j stored hstored)
  replays := h.replays

/-- A request takes its key: whoever looks there addresses the same resource. -/
theorem Inv.claimed {incoming : Incoming} (h : Inv url s)
    (hsame : SameResource sha256 url s (.acquire n incoming true))
    (hget : s.base.redis.get (incoming.cacheKey sha256) = none) :
    Inv url ⟨{ (s.base.move n (incoming.cacheKey sha256) .running).onRounds
        (incoming.cacheKey sha256) ({} :: ·) with
      redis := s.base.redis.set (incoming.cacheKey sha256) .inProgress (some lockSeconds) },
      s.origin, s.replays⟩ := by
  dsimp only [SameResource] at hsame
  rw [hget] at hsame
  exact h.claims ⟨rfl, fun _ _ hstored => record_of_set hstored⟩ hsame

/-- A request finds its key taken, by requests or by the record of one. -/
theorem Inv.taken {incoming : Incoming} {cached : Cached} (h : Inv url s)
    (hsame : SameResource sha256 url s (.acquire n incoming true))
    (hget : s.base.redis.get (incoming.cacheKey sha256) = some cached) :
    Inv url ⟨s.base.move n (incoming.cacheKey sha256) .looking, s.origin, s.replays⟩ := by
  dsimp only [SameResource] at hsame
  rw [hget] at hsame
  have hmoves : Moves s n (incoming.cacheKey sha256) .looking
      (s.base.move n (incoming.cacheKey sha256) .looking) := ⟨rfl, fun _ _ hstored => hstored⟩
  cases cached with
  | inProgress =>
    refine h.looking hmoves hsame fun stored hstored => ?_
    rw [hget] at hstored
    cases hstored
  | record stored => exact h.looking hmoves hsame.1 fun _ _ => hsame.2

/-- A replay is of what the request addresses. -/
theorem Inv.replayed {stored : Json} {copy : Response} (h : Inv url s)
    (hrow : s.base.requests.row n = some ⟨k, .looking⟩)
    (hget : s.base.redis.get k = some (.record stored)) :
    Inv url ⟨s.base.answer n k (.replayed copy), s.origin, (n, s.origin k) :: s.replays⟩ := by
  have hmoves : Moves s n k (.answered (.replayed copy)) (s.base.answer n k (.replayed copy)) :=
    ⟨rfl, fun _ _ hstored => hstored⟩
  refine h.moves hmoves rfl (fun hself => Bool.false_ne_true.elim hself) fun {m o} hmem => ?_
  rcases List.mem_cons.mp hmem with heq | hmem
  · cases heq
    exact (h.stored (mem_under.mpr ⟨.looking, hrow, rfl⟩) hget).symm
  · exact h.replays hmem

/-- A record is stored: whoever looks for it addresses the same resource. -/
theorem Inv.store {response : Response} {stored : Json} (h : Inv url s)
    (hrow : s.base.requests.row n = some ⟨k, .storing response⟩) :
    Inv url ⟨{ s.base.move n k (.answered (.ran (.returned response))) with
      redis := s.base.redis.set k (.record stored) (some ttl) },
      update s.origin k n, s.replays⟩ := by
  -- Who looks or stores after this step did so before it, `n` apart.
  have hunder : ∀ {j : String} {p : Progress → Bool} {m : Nat},
      p (.answered (.ran (.returned response))) = false →
      m ∈ State.under ⟨{ s.base.move n k (.answered (.ran (.returned response))) with
        redis := s.base.redis.set k (.record stored) (some ttl) },
        update s.origin k n, s.replays⟩ j p → m ∈ s.under j p := by
    intro j p m hp hm
    obtain ⟨other, hother, hself⟩ := mem_under.mp hm
    have hother : (s.base.requests.put n
      ⟨k, .answered (.ran (.returned response))⟩).row m = some ⟨j, other⟩ := hother
    rcases Rows.row_put hother with ⟨rfl, hsame⟩ | ⟨-, hother⟩
    · cases hsame
      rw [hp] at hself
      cases hself
    · exact mem_under.mpr ⟨other, hother, hself⟩
  constructor
  · intro j l m hl hm
    exact h.writers (hunder rfl hl) (hunder rfl hm)
  · intro j l record hl hget
    have hlooker := hunder rfl hl
    show url (update s.origin k n j) = url l
    rcases Store.of_get_set hget with ⟨rfl, -⟩ | ⟨hj, hget⟩
    · -- Until now `n` was about to write what `l` is looking for.
      rw [update_self]
      exact h.writers hlooker (mem_under.mpr ⟨.storing response, hrow, rfl⟩)
    · rw [update_of_ne hj]
      exact h.stored hlooker hget
  · exact h.replays

/-- Only Redis changed, and no record appeared. -/
theorem Inv.redis (h : Inv url s) {redis : Store String Cached}
    (hredis : ∀ j stored, redis.get j = some (.record stored) →
      s.base.redis.get j = some (.record stored)) :
    Inv url ⟨{ s.base with redis }, s.origin, s.replays⟩ :=
  ⟨h.writers, fun hl hstored => h.stored hl (hredis _ _ hstored), h.replays⟩

/-- A request that neither looks nor writes any more. -/
theorem Inv.quiet (h : Inv url s) (hmoves : Moves s n k progress base)
    (hlooks : looks progress = false) (hwrites : writes progress = false) :
    Inv url ⟨base, s.origin, s.replays⟩ := by
  refine h.moves hmoves hlooks (fun hself => ?_) h.replays
  rw [hwrites] at hself
  cases hself

theorem Inv.unguarded (h : Inv url s) :
    Inv url ⟨s.base.move n k .unguarded, s.origin, s.replays⟩ := by
  have hmoves : Moves s n k .unguarded (s.base.move n k .unguarded) :=
    ⟨rfl, fun _ _ hstored => hstored⟩
  exact h.quiet hmoves rfl rfl

theorem Inv.answered {reply : Reply} (h : Inv url s)
    (hrequests : base.requests = s.base.requests.put n ⟨k, .answered reply⟩)
    (hredis : ∀ j stored, base.redis.get j = some (.record stored) →
      s.base.redis.get j = some (.record stored)) : Inv url ⟨base, s.origin, s.replays⟩ :=
  h.quiet ⟨hrequests, hredis⟩ rfl rfl

/-- The handler ends: what was going to be written still is, or nothing is. -/
theorem Inv.finished {outcome : Outcome} (h : Inv url s)
    (hrow : s.base.requests.row n = some ⟨k, .running⟩) :
    Inv url ⟨s.base.ran n k outcome (afterRun outcome), s.origin, s.replays⟩ := by
  have hmoves : Moves s n k (afterRun outcome) (s.base.ran n k outcome (afterRun outcome)) :=
    ⟨rfl, fun _ _ hstored => hstored⟩
  refine h.moves hmoves ?_ (fun _ => mem_under.mpr ⟨.running, hrow, rfl⟩) h.replays
  -- What follows a run is a write, a deletion or nothing, never a look.
  unfold afterRun
  split
  · split <;> rfl
  · rfl

/-- What a request's step keeps. -/
theorem Inv.effect {l : Label} (h : Inv url s) (hsame : SameResource sha256 url s l)
    (heffect : Effect sha256 ttl s.base l base) : Inv url (s.note base l) := by
  cases heffect with
  | wait seconds => exact h.redis fun _ _ => Store.get_of_get_wait
  | unclaimed => exact h.unguarded
  | taken _ hget => exact h.taken hsame hget
  | claimed _ hget => exact h.claimed hsame hget
  | @unread n k =>
    have hself : (s.base.move n k .unguarded).requests.row n = some ⟨k, .unguarded⟩ :=
      Rows.row_put_self ..
    dsimp only [State.note]
    rw [hself]
    exact h.unguarded
  | @conflict n k =>
    have hself : (s.base.answer n k .conflict).requests.row n = some ⟨k, .answered .conflict⟩ :=
      Rows.row_put_self ..
    dsimp only [State.note]
    rw [hself]
    exact h.answered rfl fun _ _ hstored => hstored
  | @replayed n k _ copy hrow hget =>
    have hself : (s.base.answer n k (.replayed copy)).requests.row n =
        some ⟨k, .answered (.replayed copy)⟩ := Rows.row_put_self ..
    dsimp only [State.note]
    rw [hself]
    exact h.replayed hrow hget
  | finished hrow => exact h.finished hrow
  | degraded => exact h.answered rfl fun _ _ hstored => hstored
  | renewed =>
    -- A late renewal may prolong a record, and does not make one.
    refine h.redis fun j stored hstored => ?_
    split at hstored
    · rw [Store.get_expire _ _ _ (by decide)] at hstored
      exact hstored
    · exact hstored
  | stored hrow hrecord =>
    dsimp only [State.note]
    rw [hrow]
    dsimp only
    rw [hrecord, if_pos ⟨rfl, rfl⟩]
    exact h.store hrow
  | unstored hrow hnot =>
    dsimp only [State.note]
    rw [hrow]
    dsimp only
    rw [if_neg fun hok => by simp [hnot hok.1] at hok]
    exact h.answered rfl fun _ _ hstored => hstored
  | freed =>
    refine h.answered rfl fun j stored hstored => ?_
    dsimp only at hstored
    split at hstored
    · exact (Store.of_get_del hstored).2
    · exact hstored

theorem crossing_inductive (sha256 : String → String) (ttl : Nat) (url : Nat → String) :
    (crossing sha256 ttl).Inductive (SameResource sha256 url) (Inv url) where
  init s hs := by
    cases hs
    constructor
    · intro k n m hn _
      cases hn
    · intro k n stored hn _
      cases hn
    · intro n m hmem
      cases hmem
  step s l s' h hsame hst := by
    obtain ⟨base, hbase, rfl⟩ := Option.map_eq_some_iff.mp hst
    exact h.effect hsame (effect_of_step hbase)

/-- **Replays stay with their resource.** Whatever Redis does, a request that is answered with
a record is answered with one of the resource it addresses. -/
theorem never_crosses (h : (crossing sha256 ttl).ReachVia (SameResource sha256 url) s) :
    ∀ n m, (n, m) ∈ s.replays → url n = url m :=
  fun _ _ hmem => ((crossing_inductive sha256 ttl url).always h).replays hmem

end Steps

/-! ### A checkout -/

/-- The hex digest of "Bearer staff-token". -/
def digest (_ : String) : String :=
  "fc27591e68753814cd331de0d55c91a483b4799091ec0ae993d63bd711162852"

/-- The checkout route of the platform, called by one member of staff with one key. -/
def checkout : Incoming where
  tenant := none
  authorization := "Bearer staff-token"
  route := "/api/v1/platform/tenants/{tenant_id}/checkout"
  idempotencyKey := "retry-1"

/-- A created checkout session. -/
def checkoutSession : Response :=
  ⟨201, some "application/json", "session".toUTF8, []⟩

/-- The tenant a request's URL names. -/
def checkoutOf (tenantId : Nat → String) (n : Nat) : String :=
  "/api/v1/platform/tenants/" ++ tenantId n ++ "/checkout"

/-- A checkout that is retried is answered with its own record; the key is used for another
tenant when the record is gone. -/
theorem never_crosses_retry : ∃ s,
    (crossing digest 86400).ReachVia
      (SameResource digest (checkoutOf fun n => if n = 3 then "8" else "7")) s ∧
    (2, 1) ∈ s.replays ∧
    checkoutOf (fun n => if n = 3 then "8" else "7") 2 =
      checkoutOf (fun n => if n = 3 then "8" else "7") 1 := by
  obtain ⟨s, hs, hp⟩ := Machine.exists_reachVia_of_run (M := crossing digest 86400)
    (G := SameResource digest (checkoutOf fun n => if n = 3 then "8" else "7"))
    (s := ⟨⟨.empty, .empty, fun _ => []⟩, fun _ => 0, []⟩)
    [.acquire 1 checkout true, .finish 1 (.returned checkoutSession), .store 1 true, .wait 60,
      .acquire 2 checkout true, .look 2 true, .wait 86400, .acquire 3 checkout true]
    (fun s => (2, 1) ∈ s.replays) rfl (by decide)
  exact ⟨s, hs, of_decide_eq_true hp, never_crosses hs 2 1 (of_decide_eq_true hp)⟩

/-- The checkouts of tenants 7 and 8: the second is answered with the first's session. -/
theorem checkout_crosses : ∃ (url : Nat → String) (s : State),
    (crossing digest 86400).Reachable s ∧ (2, 1) ∈ s.replays ∧ url 2 ≠ url 1 := by
  obtain ⟨s, hs, hp⟩ := Machine.exists_reachable_of_run (M := crossing digest 86400)
    (s := ⟨⟨.empty, .empty, fun _ => []⟩, fun _ => 0, []⟩)
    [.acquire 1 checkout true, .finish 1 (.returned checkoutSession), .store 1 true, .wait 60,
      .acquire 2 checkout true, .look 2 true]
    (fun s => (2, 1) ∈ s.replays) rfl (by decide +kernel)
  refine ⟨checkoutOf fun n => if n = 1 then "7" else "8", s, hs, of_decide_eq_true hp, ?_⟩
  decide

end Crossing

end Idempotency

end Core

end RealEstate
