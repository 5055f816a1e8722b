import RealEstate.Webhooks.Delivery

/-!
# The breaker of a webhook endpoint

- `BreakerHolds`: the failures an endpoint counts are those since its last success or
  re-activation, and its circuit is open just when they reach the threshold.
- `Guarded`: no request goes to an endpoint that is inactive, or whose circuit is open.
  The circuit is checked under the lock that is held through the POST; whether the endpoint
  is active is checked by the fan-out only.
- `guarded_step_iff`: a request that is sent keeps `Guarded` just when its endpoint is
  active. `guarded_run`, `breaker_guarded`: runs of such steps.
- `disabled_endpoint_called`: an endpoint is disabled while a delivery waits.
-/

namespace RealEstate

namespace Webhooks

namespace Delivery

open RealEstate.Core Systems
open RowService (effectsOf)

/-- What an endpoint's row is to its history. -/
def Follows (_ : Uuid) (row : EndpointRow) (history : List Attempt) : Prop :=
  row.breaker.Tracks circuitBreakerThreshold history

/-- The counter and the circuit of every endpoint are what its history makes of them. -/
def BreakerHolds (s : State) : Prop :=
  ∀ id row, s.endpoints.rows id = some row → Follows id row (effectsOf id s.log)

/-- No request was sent to an endpoint that was inactive, or whose circuit was open. -/
def Guarded (s : State) : Prop :=
  ∀ post ∈ s.posts, post.circuitOpen = false ∧ post.isActive = true

/-- A delivery that comes to its endpoint and finds the circuit closed finds it active. -/
def SendsActive (s : State) : Label → Prop
  | .lockEndpoint t =>
    match s.txns t with
    | some (.deliver task (.taken endpointId)) =>
      ∀ endpoint ∈ (s.endpoints.visible t endpointId).filter (·.tenantId = task.tenantId),
        endpoint.circuitOpen = false → endpoint.isActive = true
    | _ => True
  | _ => True

/-- Whether an endpoint is active is read off its row. -/
instance (s : State) (l : Label) : Decidable (SendsActive s l) := by
  unfold SendsActive
  split
  · split <;> infer_instance
  · infer_instance

/-- Until its answer a delivery has written no endpoint. -/
def Unwritten (endpoints : Table Uuid EndpointRow Nat) (t : Nat) : Txn → Prop
  | .deliver _ (.done _) | .update | .delete _ => True
  | .deliver _ _ => ∀ k, endpoints.dirty t k = none

/-- Every committed row of an endpoint follows from its history. -/
structure EndpointsInv (s : State) : Prop where
  idle : ∀ t, s.txns t = none → ∀ k, s.endpoints.lock k ≠ some t
  recorded : Recorded Follows s.endpoints s.log s.pending
  fresh : ∀ id, id ∉ s.endpoints.keys → effectsOf id s.log = []
  unwritten : ∀ t txn, s.txns t = some txn → Unwritten s.endpoints t txn
  closed : ∀ post ∈ s.posts, post.circuitOpen = false

section Steps

variable {s s' : State} {t u : Nat} {txn : Txn} {task : Task} {id endpointId : Uuid}
  {endpoints endpoints' : Table Uuid EndpointRow Nat} {delivery : DeliveryRow}
  {endpoint : EndpointRow}

/-- It takes a failure to open. -/
theorem threshold_pos : 0 < circuitBreakerThreshold := by decide

/-- An answer moves the breaker by the attempt it is. -/
theorem follows_record {history : List Attempt} (h : Follows id endpoint history)
    (answer : Answer) (now : DateTime) :
    Follows id (answer.record delivery endpoint now).2.1 (history ++ [answer.attempt]) := by
  cases answer with
  | ssrfError message => exact Breaker.Tracks.fail h
  | transportError message => exact Breaker.Tracks.fail h
  | status code =>
    unfold Answer.record Answer.attempt
    dsimp only
    split
    · exact Breaker.tracks_over threshold_pos nofun
    · exact Breaker.Tracks.fail h

/-- An update moves the breaker if it re-activates the endpoint. -/
theorem follows_update {history : List Attempt} (h : Follows id endpoint history)
    (data : WebhookEndpointUpdate) :
    Follows id (data.apply endpoint)
      (history ++ if data.isActive = some true then [.reset] else []) := by
  by_cases hactive : data.isActive = some true
  · rw [if_pos hactive]
    have hbreaker : (data.apply endpoint).breaker = {} := by
      simp [EndpointRow.breaker, WebhookEndpointUpdate.apply, hactive]
    rw [Follows, hbreaker]
    exact Breaker.tracks_over threshold_pos nofun
  · rw [if_neg hactive, List.append_nil]
    have hbreaker : (data.apply endpoint).breaker = endpoint.breaker := by
      simp [EndpointRow.breaker, WebhookEndpointUpdate.apply, hactive]
    rw [Follows, hbreaker]
    exact h

/-- What others do is no write of the transaction's. -/
theorem Unwritten.of_same (h : Unwritten endpoints t txn)
    (hsame : Table.SameFor t endpoints endpoints') : Unwritten endpoints' t txn := by
  match txn, h with
  | .deliver _ (.done _), _ | .update, _ | .delete _, _ => trivial
  | .deliver _ .starting, h | .deliver _ (.taken _), h | .deliver _ (.posting _), h =>
    exact fun k => (hsame.dirty k).trans (h k)

theorem EndpointsInv.empty :
    EndpointsInv ⟨.empty, .empty, [], fun _ => none, [], fun _ => [], [], []⟩ where
  idle _ _ _ := nofun
  recorded := .empty
  fresh _ _ := rfl
  unwritten _ _ h := nomatch h
  closed _ h := nomatch h

/-- A statement of a transaction: `s'` is what it makes of the tables. -/
theorem EndpointsInv.goes (h : EndpointsInv s)
    (hkeys : ∀ k ∈ s.endpoints.keys, k ∈ s'.endpoints.keys)
    (hother : ∀ u, u ≠ t → Table.SameFor u s.endpoints s'.endpoints)
    (htxns : s'.txns = s.txns) (hlog : s'.log = s.log)
    (hrecorded : Recorded Follows s'.endpoints s'.log s'.pending)
    (hclosed : ∀ post ∈ s'.posts, post.circuitOpen = false)
    (hunwritten : Unwritten s'.endpoints t txn) : EndpointsInv (s'.goes t txn) where
  idle := by
    have hidle : Table.Idle s'.txns s.endpoints := htxns ▸ h.idle
    exact hidle.goes hother
  recorded := hrecorded
  fresh k hk := by
    show effectsOf k s'.log = []
    rw [hlog]
    exact h.fresh k fun hmem => hk (hkeys k hmem)
  unwritten := by
    refine Machine.each_goes (P := Unwritten s.endpoints) ?_
      (fun u _ hne hu => hu.of_same (hother u hne)) hunwritten
    rw [htxns]
    exact h.unwritten
  closed := hclosed

/-- `s'` differs from `s` in its deliveries and its queues only. -/
structure SameEndpoints (s s' : State) : Prop where
  endpoints : s'.endpoints = s.endpoints
  txns : s'.txns = s.txns
  log : s'.log = s.log
  pending : s'.pending = s.pending
  posts : s'.posts = s.posts

/-- A step that leaves the endpoints alone. -/
theorem EndpointsInv.same (h : EndpointsInv s) (hsame : SameEndpoints s s') :
    EndpointsInv s' where
  idle := by
    rw [hsame.endpoints, hsame.txns]
    exact h.idle
  recorded := by
    rw [hsame.endpoints, hsame.log, hsame.pending]
    exact h.recorded
  fresh := by
    rw [hsame.endpoints, hsame.log]
    exact h.fresh
  unwritten := by
    rw [hsame.endpoints, hsame.txns]
    exact h.unwritten
  closed := by
    rw [hsame.posts]
    exact h.closed

/-- A statement that leaves the endpoints alone. -/
theorem EndpointsInv.stays (h : EndpointsInv s) (hunwritten : Unwritten s.endpoints t txn) :
    EndpointsInv (s.goes t txn) :=
  h.goes (fun _ hk => hk) (fun u _ => Table.SameFor.refl u _) rfl rfl h.recorded h.closed
    hunwritten

/-- A write of a delivery is one. -/
theorem sameEndpoints_writeDelivery {row : Option DeliveryRow}
    (hst : s.writeDelivery t id row = some s') : SameEndpoints s s' := by
  obtain ⟨deliveries, -, rfl⟩ := Option.map_eq_some_iff.1 hst
  exact ⟨rfl, rfl, rfl, rfl, rfl⟩

/-- A write of an endpoint sends nothing. -/
theorem posts_writeEndpoint {row : Option EndpointRow} {attempts : List Attempt}
    (hst : s.writeEndpoint t id row attempts = some s') : (s'.goes t txn).posts = s.posts := by
  obtain ⟨endpoints, -, rfl⟩ := Option.map_eq_some_iff.1 hst
  rfl

/-- The write of an endpoint whose breaker follows its history. -/
theorem EndpointsInv.writeEndpoint (h : EndpointsInv s) {row : Option EndpointRow}
    {attempts : List Attempt} (hst : s.writeEndpoint t id row attempts = some s')
    (hfollows : ∀ v, row = some v →
      Follows id v (effectsOf id s.log ++ effectsOf id (s.pending t) ++ attempts))
    (hunwritten : ∀ endpoints, Unwritten endpoints t txn) : EndpointsInv (s'.goes t txn) := by
  obtain ⟨endpoints, hwrite, rfl⟩ := Option.map_eq_some_iff.1 hst
  have hwrote := Table.wrote_of_write hwrite
  have hkeys : ∀ k ∈ s.endpoints.keys, k ∈ endpoints.keys := by
    intro k hk
    rcases hwrote.keys with heq | ⟨-, heq⟩
    · rw [heq]
      exact hk
    · rw [heq]
      exact List.mem_cons_of_mem _ hk
  exact h.goes hkeys hwrote.other rfl rfl (h.recorded.wrote attempts hwrote hfollows) h.closed
    (hunwritten _)

theorem EndpointsInv.lockDelivery (h : EndpointsInv s)
    (ht : s.txns t = some (.deliver task .starting))
    (hst : s.lockDelivery t task = some s') : EndpointsInv s' ∧ s'.posts = s.posts := by
  have hclean : ∀ k, s.endpoints.dirty t k = none := h.unwritten t _ ht
  unfold State.lockDelivery at hst
  split at hst
  · cases hst
    exact ⟨h.stays trivial, rfl⟩
  · obtain ⟨deliveries, -, rfl⟩ := Option.map_eq_some_iff.1 hst
    have hsame : EndpointsInv { s with deliveries } := h.same ⟨rfl, rfl, rfl, rfl, rfl⟩
    dsimp only
    split
    · exact ⟨hsame.stays trivial, rfl⟩
    · exact ⟨hsame.stays hclean, rfl⟩

/-- What a delivery does at its endpoint: it sends one request to a closed circuit, or none. -/
theorem EndpointsInv.lockEndpoint (h : EndpointsInv s)
    (ht : s.txns t = some (.deliver task (.taken endpointId)))
    (hst : s.lockEndpoint t task endpointId delivery = some s') :
    EndpointsInv s' ∧ (s'.posts = s.posts ∨ ∃ post endpoint,
      endpoint ∈ (s.endpoints.visible t endpointId).filter (·.tenantId = task.tenantId) ∧
      endpoint.circuitOpen = false ∧ s'.posts = s.posts ++ [post] ∧
      post.circuitOpen = false ∧ post.isActive = endpoint.isActive) := by
  have hclean : ∀ k, s.endpoints.dirty t k = none := h.unwritten t _ ht
  unfold State.lockEndpoint at hst
  split at hst
  · obtain ⟨s₁, hwrite, rfl⟩ := Option.map_eq_some_iff.1 hst
    have hsame := sameEndpoints_writeDelivery hwrite
    exact ⟨(h.same hsame).stays trivial, .inl hsame.posts⟩
  · next endpoint hendpoint =>
    obtain ⟨endpoints, hacquire, hst⟩ := Option.bind_eq_some_iff.1 hst
    obtain ⟨hk, rfl⟩ := Table.acquire_eq_some.1 hacquire
    have hrecorded : Recorded Follows (s.endpoints.acquired t endpointId hk) s.log s.pending :=
      h.recorded.of_same rfl rfl
    have hlocked : ∀ {posts : List Post} {deliveries : Table Uuid DeliveryRow Nat} {txn : Txn},
        (∀ post ∈ posts, post.circuitOpen = false) →
          Unwritten (s.endpoints.acquired t endpointId hk) t txn →
            EndpointsInv (State.goes
              { s with
                endpoints := s.endpoints.acquired t endpointId hk
                deliveries, posts } t txn) := fun hclosed hunwritten =>
      h.goes (fun _ hk => hk) (fun u hu => Table.acquired_sameFor hu hk) rfl rfl hrecorded
        hclosed hunwritten
    split at hst
    · obtain ⟨s₁, hwrite, rfl⟩ := Option.map_eq_some_iff.1 hst
      obtain ⟨deliveries, -, rfl⟩ := Option.map_eq_some_iff.1 hwrite
      exact ⟨hlocked h.closed trivial, .inl rfl⟩
    · next hopen =>
      cases hst
      -- the committed row is the one the delivery sees
      have hrow : s.endpoints.rows endpointId = some endpoint := by
        rw [← Table.visible_of_clean (hclean endpointId)]
        exact (Option.filter_eq_some_iff.1 hendpoint).1
      have hclosed : endpoint.circuitOpen = false := by simpa using hopen
      refine ⟨hlocked (fun post hpost => ?_) hclean,
        .inr ⟨_, endpoint, hendpoint, hclosed, rfl, ?_, ?_⟩⟩
      · rcases List.mem_append.1 hpost with hpost | hpost
        · exact h.closed post hpost
        · cases List.mem_singleton.1 hpost
          rw [hrow]
          exact hclosed
      · rw [hrow]
        exact hclosed
      · rw [hrow]
        rfl

theorem EndpointsInv.answer (h : EndpointsInv s) {answer : Answer} {now : DateTime}
    (hvisible : s.endpoints.visible t endpointId = some endpoint)
    (hst : s.answer t task endpointId answer now delivery endpoint = some s') :
    EndpointsInv s' ∧ s'.posts = s.posts := by
  obtain ⟨s₁, hdelivery, hst⟩ := Option.bind_eq_some_iff.1 hst
  obtain ⟨s₂, hendpoint, rfl⟩ := Option.map_eq_some_iff.1 hst
  have hsame := sameEndpoints_writeDelivery hdelivery
  refine ⟨(h.same hsame).writeEndpoint hendpoint ?_ fun _ => trivial,
    (posts_writeEndpoint hendpoint).trans hsame.posts⟩
  intro v hv
  cases hv
  rw [hsame.log, hsame.pending]
  exact follows_record (h.recorded.visible hvisible) answer now

/-- A commit, whatever it does to the queue. -/
theorem EndpointsInv.commit (h : EndpointsInv s) (t : Nat) : EndpointsInv (s.commit t) where
  idle := Table.Idle.commit h.idle
  recorded := h.recorded.commit t
  fresh id hid := by
    have hclean : s.endpoints.dirty t id = none := by
      cases hd : s.endpoints.dirty t id with
      | none => rfl
      | some w => exact absurd (s.endpoints.lock_keys (s.endpoints.dirty_lock hd)) hid
    show effectsOf id (s.log ++ s.pending t) = []
    rw [RowService.effectsOf_append, h.fresh id hid, h.recorded.clean hclean]
    rfl
  unwritten := Machine.each_ends h.unwritten fun _ _ hne hu =>
    hu.of_same (Table.commit_sameFor hne)
  closed := h.closed

theorem EndpointsInv.rollback (h : EndpointsInv s) (t : Nat) :
    EndpointsInv (s.ends t (s.endpoints.rollback t) (s.deliveries.rollback t) s.log) where
  idle := Table.Idle.rollback h.idle
  recorded := h.recorded.rollback t
  fresh := h.fresh
  unwritten := Machine.each_ends h.unwritten fun _ _ hne hu =>
    hu.of_same (Table.rollback_sameFor hne)
  closed := h.closed

/-- The task ends, or is queued again. -/
theorem EndpointsInv.execute (h : EndpointsInv s) (outcome : DeliveryOutcome) :
    EndpointsInv (s.execute task outcome) ∧ (s.execute task outcome).posts = s.posts := by
  unfold State.execute
  split
  · exact ⟨{ h with }, rfl⟩
  · exact ⟨{ h with }, rfl⟩

/-- A new endpoint: nothing in the log is about it. -/
theorem EndpointsInv.create (h : EndpointsInv s)
    (hpublish : s.endpoints.publish endpoint.id
      { endpoint with isActive := true, consecutiveFailures := 0, circuitOpen := false } =
        some endpoints) : EndpointsInv { s with endpoints } := by
  obtain ⟨hid, rfl⟩ := Table.publish_eq_some.1 hpublish
  have hnew : effectsOf endpoint.id s.log = [] := h.fresh _ hid
  exact {
    idle := h.idle
    recorded := h.recorded.published hid (by
      rw [hnew]
      exact Breaker.tracks_new threshold_pos)
    fresh := fun id hk => h.fresh id fun hmem => hk (List.mem_cons_of_mem _ hmem)
    unwritten := fun u txn hu =>
      (h.unwritten u txn hu).of_same (Table.published_sameFor u hid)
    closed := h.closed }

/-- What a step does to the requests sent: none, or one to a closed circuit. -/
inductive Sends (s : State) : Label → List Post → Prop where
  | none {l : Label} : Sends s l s.posts
  | post {t : Nat} {task : Task} {endpointId : Uuid} {endpoint : EndpointRow} {post : Post} :
    s.txns t = some (.deliver task (.taken endpointId)) →
    endpoint ∈ (s.endpoints.visible t endpointId).filter (·.tenantId = task.tenantId) →
    endpoint.circuitOpen = false → post.circuitOpen = false →
    post.isActive = endpoint.isActive → Sends s (.lockEndpoint t) (s.posts ++ [post])

/-- One step keeps the invariant, and says what it sends. -/
theorem endpointsInv_step {l : Label} (h : EndpointsInv s) (hst : step s l = some s') :
    EndpointsInv s' ∧ Sends s l s'.posts := by
  have hnone : ∀ {s' : State} {l : Label}, EndpointsInv s' ∧ s'.posts = s.posts →
      EndpointsInv s' ∧ Sends s l s'.posts := by
    rintro s' l ⟨hinv, hposts⟩
    exact ⟨hinv, hposts ▸ .none⟩
  cases stepped_of_step hst with
  | createEndpoint hpublish => exact hnone ⟨h.create hpublish, rfl⟩
  | dispatch _ _ _ => exact hnone ⟨h.same ⟨rfl, rfl, rfl, rfl, rfl⟩, rfl⟩
  | @update t tenantId endpointId data endpoint s₁ _ hvisible _ hwrite =>
    refine hnone ⟨h.writeEndpoint hwrite ?_ fun _ => trivial, posts_writeEndpoint hwrite⟩
    rintro v ⟨⟩
    exact follows_update (h.recorded.visible hvisible) data
  | delete _ _ _ hwrite =>
    -- a row that is gone has no breaker to follow
    refine hnone ⟨h.writeEndpoint hwrite ?_ fun _ => trivial, posts_writeEndpoint hwrite⟩
    rintro v ⟨⟩
  | cascade _ _ _ hwrite =>
    have hsame := sameEndpoints_writeDelivery hwrite
    exact hnone ⟨h.same hsame, hsame.posts⟩
  | @take t i task ht _ =>
    have hsame : EndpointsInv { s with queue := s.queue.eraseIdx i } :=
      h.same ⟨rfl, rfl, rfl, rfl, rfl⟩
    exact hnone ⟨hsame.stays (Table.Idle.clean h.idle t ht), rfl⟩
  | lockDelivery ht hst => exact hnone (h.lockDelivery ht hst)
  | lockEndpoint ht _ hst =>
    obtain ⟨hinv, hposts | ⟨post, endpoint, hvisible, hclosed, hposts, hpost, hactive⟩⟩ :=
      h.lockEndpoint ht hst
    · exact hnone ⟨hinv, hposts⟩
    · exact ⟨hinv, hposts ▸ .post ht hvisible hclosed hpost hactive⟩
  | answer _ _ hvisible hst => exact hnone (h.answer hvisible hst)
  | execute _ => exact hnone ((h.commit _).execute _)
  | commit => exact hnone ⟨h.commit _, rfl⟩
  | rollback => exact hnone ⟨h.rollback _, rfl⟩

/-- A step keeps `Guarded` exactly if it does not send to an inactive endpoint. -/
theorem guarded_step_iff {l : Label} (h : EndpointsInv s) (hguarded : Guarded s)
    (hst : step s l = some s') (hposts : s'.posts ≠ s.posts) :
    Guarded s' ↔ SendsActive s l := by
  obtain ⟨-, hsends⟩ := endpointsInv_step h hst
  generalize hnew : s'.posts = posts at hsends hposts
  cases hsends with
  | none => exact absurd rfl hposts
  | @post t task endpointId endpoint post ht hvisible hclosed hpost hactive =>
    have hsend : SendsActive s (.lockEndpoint t) ↔ endpoint.isActive = true := by
      simp only [SendsActive, ht]
      constructor
      · intro hsend
        exact hsend endpoint hvisible hclosed
      · intro hactive endpoint' hvisible' _
        -- the transaction sees one row
        obtain rfl := Option.some.inj (hvisible.symm.trans hvisible')
        exact hactive
    rw [hsend, Guarded, hnew, ← hactive]
    constructor
    · intro hall
      exact (hall post (List.mem_append_right _ List.mem_cons_self)).2
    · intro hpost_active p hp
      rcases List.mem_append.1 hp with hp | hp
      · exact hguarded p hp
      · cases List.mem_singleton.1 hp
        exact ⟨hpost, hpost_active⟩

end Steps

/-- So it is one of all runs. -/
theorem endpointsInv_inductive : machine.Inductive (fun _ _ => True) EndpointsInv where
  init s hs := by
    cases hs
    exact .empty
  step s l t h _ hst := (endpointsInv_step h hst).1

/-- And holds in every reachable state. -/
theorem endpointsInv {s : State} (h : machine.Reachable s) : EndpointsInv s :=
  endpointsInv_inductive.always h

/-- Nothing was sent to an open or inactive endpoint. -/
theorem guarded_run {s : State} (h : machine.ReachVia SendsActive s) : Guarded s := by
  -- on the run: a step that sends nothing leaves `Guarded` as it was
  induction h with
  | init hs =>
    cases hs
    exact fun _ hpost => nomatch hpost
  | @step s s' l hr hsends hst ih =>
    by_cases hposts : s'.posts = s.posts
    · rw [Guarded, hposts]
      exact ih
    · exact (guarded_step_iff (endpointsInv hr.reachable) ih hst hposts).2 hsends

/-- **The endpoint state is what the deliveries made of it**, and no request goes to a closed
door in runs that send to active endpoints only. -/
theorem breaker_guarded {s : State} (h : machine.ReachVia SendsActive s) :
    BreakerHolds s ∧ Guarded s :=
  ⟨fun _ _ hrow => (endpointsInv h.reachable).recorded.committed hrow, guarded_run h⟩

/-! ### An endpoint is disabled while a delivery waits -/

/-- An endpoint for new leads. -/
def newEndpoint (id : Uuid) : EndpointRow :=
  { id, tenantId := 7, url := "https://crm.example/hook", events := ["lead.created"]
    secret := "s" }

/-- An endpoint, and a delivery to it. -/
def queued : List Label :=
  [.createEndpoint (newEndpoint 1), .dispatch 10 1 "lead.created" []]

/-- One execution of the task that is first in the queue, up to its commit. -/
def execution (t : Nat) (answer : Answer) : List Label :=
  [.take t 0, .lockDelivery t, .lockEndpoint t, .answer t answer 0, .commit t]

/-- **A disabled endpoint is called**: the admin turned it off before the task ran. -/
theorem disabled_endpoint_called :
    ¬ ∀ s, machine.Reachable s → BreakerHolds s ∧ Guarded s := by
  intro h
  obtain ⟨s, hs, hp⟩ := Machine.exists_reachable_of_run (M := machine)
    (List.flatten
      [queued, [.update 1 7 1 { isActive := some false }, .commit 1], execution 2 (.status 200)])
    (fun s => s.posts.any fun post => !post.isActive) rfl (by decide)
  obtain ⟨post, hpost, hinactive⟩ := List.any_eq_true.1 hp
  have hactive := ((h s hs).2 post hpost).2
  rw [hactive] at hinactive
  cases hinactive

/-- A failure, a disabling and a re-activation: the count starts over, and the delivery that
is retried is sent. -/
theorem breaker_guarded_reactivated :
    ∃ s, machine.ReachVia SendsActive s ∧
      effectsOf 1 s.log = [.failure, .reset, .success] ∧ s.posts.length = 2 ∧
      BreakerHolds s ∧ Guarded s := by
  obtain ⟨s, hs, hp⟩ := Machine.exists_reachVia_of_run (M := machine) (G := SendsActive)
    (List.flatten
      [queued, execution 1 (.status 503),
        [.update 2 7 1 { isActive := some false }, .commit 2,
          .update 2 7 1 { isActive := some true }, .commit 2], execution 1 (.status 200)])
    (fun s => effectsOf 1 s.log = [.failure, .reset, .success] ∧ s.posts.length = 2) rfl
    (by decide)
  obtain ⟨hlog, hposts⟩ := of_decide_eq_true hp
  exact ⟨s, hs, hlog, hposts, breaker_guarded hs⟩

end Delivery

end Webhooks

end RealEstate
