import RealEstate.Webhooks.Breaker

/-!
# The end of a delivery's task chain

- `Terminal`: a delivery whose last execution has returned, or has no retry left, is
  delivered or failed, if its row still exists.
- `Ages`: a row keeps its tenant, and once it has left `pending` it never returns.
- `Retried`: an execution with no retry left does not fail for a transient reason below the
  breaker's threshold. `terminal`: runs of such steps.
- `left_pending`: the seventh transient failure of a delivery whose endpoint succeeds with
  another in between.
-/

namespace RealEstate

namespace Webhooks

namespace Delivery

open RealEstate.Core Systems

/-- The deliveries, by id. -/
abbrev Deliveries := Table Uuid DeliveryRow Nat

/-- The row, if there is one, is delivered or failed. -/
def Left (row : Option DeliveryRow) : Prop := ∀ r ∈ row, r.status ≠ .pending

/-- Every chain that has ended has left its row delivered or failed. -/
def Terminal (s : State) : Prop := ∀ id ∈ s.ended, Left (s.deliveries.rows id)

/-- An execution that has no retry left is not answered by a transient failure that leaves the
breaker closed. -/
def Retried (s : State) : Label → Prop
  | .answer t answer _ =>
    match s.txns t with
    | some (.deliver task (.posting endpointId)) =>
      answer.transient = true → maxDeliveryRetries ≤ task.retries →
        ∀ endpoint ∈ s.endpoints.visible t endpointId,
          circuitBreakerThreshold ≤ endpoint.consecutiveFailures + 1
    | _ => True
  | _ => True

/-- Whether a failed post is retried, computed. -/
def retried (s : State) : Label → Bool
  | .answer t answer _ =>
    match s.txns t with
    | some (.deliver task (.posting endpointId)) =>
      decide (answer.transient = true → maxDeliveryRetries ≤ task.retries →
        ∀ endpoint ∈ s.endpoints.visible t endpointId,
          circuitBreakerThreshold ≤ endpoint.consecutiveFailures + 1)
    | _ => true
  | _ => true

/-- The computation is right. -/
theorem retried_iff (s : State) (l : Label) : retried s l = true ↔ Retried s l := by
  unfold retried Retried
  split
  · split
    · exact decide_eq_true_iff
    · exact iff_of_true rfl trivial
  · exact iff_of_true rfl trivial

/-- So it is decided. -/
instance (s : State) (l : Label) : Decidable (Retried s l) :=
  decidable_of_iff _ (retried_iff s l)

/-! ### Rows -/

/-- What becomes of a row. -/
def RowAges (row row' : DeliveryRow) : Prop :=
  row'.tenantId = row.tenantId ∧ (row.status ≠ .pending → row'.status ≠ .pending)

/-- A key in use has a row that has aged, or none. -/
def Ages (deliveries deliveries' : Deliveries) : Prop :=
  ∀ k ∈ deliveries.keys, k ∈ deliveries'.keys ∧ ∀ row', deliveries'.rows k = some row' →
    ∃ row, deliveries.rows k = some row ∧ RowAges row row'

/-- The delivery the task is for is known, and its row belongs to the tenant. -/
def Known (deliveries : Deliveries) (task : Task) : Prop :=
  task.deliveryId ∈ deliveries.keys ∧
    ∀ row, deliveries.rows task.deliveryId = some row → row.tenantId = task.tenantId

/-- The delivery has left `pending` for good: it is committed so, or the transaction has locked
it and made it so. -/
def Leaves (deliveries : Deliveries) (t : Nat) (id : Uuid) : Prop :=
  (id ∈ deliveries.keys ∧ Left (deliveries.rows id)) ∨
    (deliveries.lock id = some t ∧ Left (deliveries.visible t id))

/-- What a transaction knows of the delivery it works on. -/
def ChainTxn (deliveries : Deliveries) (t : Nat) : Txn → Prop
  | .deliver task (.done outcome) => Known deliveries task ∧
    ((outcome.retry = true ∧ task.retries < maxDeliveryRetries) ∨
      Leaves deliveries t task.deliveryId)
  | .deliver task .starting => Known deliveries task ∧ ∀ k, deliveries.dirty t k = none
  | .deliver task _ => Known deliveries task
  | .update | .delete _ => True

/-- A pending delivery has a task, queued or at work. -/
structure ChainInv (s : State) : Prop where
  idle : ∀ t, s.txns t = none → ∀ k, s.deliveries.lock k ≠ some t
  /-- Only committed rows are written. -/
  written : ∀ t k w, s.deliveries.dirty t k = some w →
    ∃ row, s.deliveries.rows k = some row ∧ ∀ row' ∈ w, RowAges row row'
  queued : ∀ task ∈ s.queue, Known s.deliveries task
  txn : ∀ t txn, s.txns t = some txn → ChainTxn s.deliveries t txn
  ended : ∀ id ∈ s.ended, id ∈ s.deliveries.keys ∧ Left (s.deliveries.rows id)

section Steps

variable {s s' : State} {t u : Nat} {txn : Txn} {task : Task} {id endpointId : Uuid}
  {deliveries deliveries' : Deliveries} {delivery row row' : DeliveryRow}
  {endpoint : EndpointRow}

theorem RowAges.refl (row : DeliveryRow) : RowAges row row := ⟨rfl, fun h => h⟩

theorem RowAges.trans {row'' : DeliveryRow} (h : RowAges row row') (h' : RowAges row' row'') :
    RowAges row row'' :=
  ⟨h'.1.trans h.1, fun hleft => h'.2 (h.2 hleft)⟩

/-- The same rows, the same ages. -/
theorem ages_of_rows (hrows : deliveries'.rows = deliveries.rows)
    (hkeys : ∀ k ∈ deliveries.keys, k ∈ deliveries'.keys) : Ages deliveries deliveries' :=
  fun k hk => ⟨hkeys k hk, fun row' hrow => ⟨row', hrows ▸ hrow, .refl row'⟩⟩

/-- A task knows its delivery as it gets older. -/
theorem Known.ages (h : Known deliveries task) (hages : Ages deliveries deliveries') :
    Known deliveries' task := by
  obtain ⟨hkey, hrows⟩ := hages _ h.1
  refine ⟨hkey, fun row' hrow' => ?_⟩
  obtain ⟨row, hrow, hage⟩ := hrows row' hrow'
  exact hage.1.trans (h.2 row hrow)

theorem left_ages (hk : id ∈ deliveries.keys) (h : Left (deliveries.rows id))
    (hages : Ages deliveries deliveries') :
    id ∈ deliveries'.keys ∧ Left (deliveries'.rows id) := by
  obtain ⟨hkey, hrows⟩ := hages id hk
  refine ⟨hkey, fun row' hrow' => ?_⟩
  obtain ⟨row, hrow, hage⟩ := hrows row' hrow'
  exact hage.2 (h row hrow)

/-- A transaction does not notice what the others do to the deliveries it has locked. -/
theorem ChainTxn.of_same (h : ChainTxn deliveries t txn)
    (hsame : Table.SameFor t deliveries deliveries') (hages : Ages deliveries deliveries') :
    ChainTxn deliveries' t txn := by
  match txn, h with
  | .update, _ | .delete _, _ => trivial
  | .deliver task .starting, ⟨hknown, hclean⟩ =>
    exact ⟨hknown.ages hages, fun k => (hsame.dirty k).trans (hclean k)⟩
  | .deliver task (.taken _), h | .deliver task (.posting _), h => exact Known.ages h hages
  | .deliver task (.done outcome), ⟨hknown, hend⟩ =>
    refine ⟨hknown.ages hages, hend.imp_right fun hleaves => ?_⟩
    rcases hleaves with ⟨hkey, hleft⟩ | ⟨hlock, hleft⟩
    · exact .inl (left_ages hkey hleft hages)
    · refine .inr ⟨(hsame.lock _).2 hlock, ?_⟩
      rw [hsame.visible hlock]
      exact hleft

theorem ChainInv.empty :
    ChainInv ⟨.empty, .empty, [], fun _ => none, [], fun _ => [], [], []⟩ where
  idle _ _ _ := nofun
  written _ _ _ h := nomatch h
  queued _ h := nomatch h
  txn _ _ h := nomatch h
  ended _ h := nomatch h

/-- The row a transaction sees has aged since it was committed. -/
theorem ChainInv.visible (h : ChainInv s) (hvisible : s.deliveries.visible t id = some row) :
    ∃ old, s.deliveries.rows id = some old ∧ RowAges old row := by
  cases hd : s.deliveries.dirty t id with
  | none =>
    rw [Table.visible_of_clean hd] at hvisible
    exact ⟨row, hvisible, .refl row⟩
  | some w =>
    rw [Table.visible_of_dirty hd] at hvisible
    obtain ⟨old, hold, hages⟩ := h.written t id w hd
    exact ⟨old, hold, hages row hvisible⟩

/-- A statement of a transaction: `s'` is what it makes of the tables and queues. -/
theorem ChainInv.goes (h : ChainInv s) (hrows : s'.deliveries.rows = s.deliveries.rows)
    (hkeys : ∀ k ∈ s.deliveries.keys, k ∈ s'.deliveries.keys)
    (hother : ∀ u, u ≠ t → Table.SameFor u s.deliveries s'.deliveries)
    (htxns : s'.txns = s.txns) (hqueue : ∀ task ∈ s'.queue, task ∈ s.queue)
    (hended : s'.ended = s.ended)
    (hwritten : ∀ k w, s'.deliveries.dirty t k = some w →
      ∃ row, s.deliveries.rows k = some row ∧ ∀ row' ∈ w, RowAges row row')
    (htxn : ChainTxn s'.deliveries t txn) : ChainInv (s'.goes t txn) := by
  have hages : Ages s.deliveries s'.deliveries := ages_of_rows hrows hkeys
  constructor
  case idle =>
    have hidle : Table.Idle s'.txns s.deliveries := htxns ▸ h.idle
    exact hidle.goes hother
  case written =>
    intro u k w hd
    show ∃ row, s'.deliveries.rows k = some row ∧ _
    rw [hrows]
    by_cases hu : u = t
    · subst hu
      exact hwritten k w hd
    · exact h.written u k w (((hother u hu).dirty k).symm.trans hd)
  case queued => exact fun task htask => (h.queued task (hqueue task htask)).ages hages
  case txn =>
    refine Machine.each_goes (P := ChainTxn s.deliveries) ?_
      (fun u _ hne hu => hu.of_same (hother u hne) hages) htxn
    rw [htxns]
    exact h.txn
  case ended =>
    intro id hid
    obtain ⟨hkey, hleft⟩ := h.ended id (hended ▸ hid)
    exact left_ages hkey hleft hages

/-- A statement that leaves the deliveries alone. -/
theorem ChainInv.stays (h : ChainInv s) (hdeliveries : s'.deliveries = s.deliveries)
    (htxns : s'.txns = s.txns) (hqueue : ∀ task ∈ s'.queue, task ∈ s.queue)
    (hended : s'.ended = s.ended) (htxn : ChainTxn s.deliveries t txn) :
    ChainInv (s'.goes t txn) := by
  refine h.goes (by rw [hdeliveries]) (by rw [hdeliveries]; exact fun _ hk => hk) (fun u _ => ?_)
    htxns hqueue hended (fun k w hd => ?_) (by rw [hdeliveries]; exact htxn)
  · rw [hdeliveries]
    exact Table.SameFor.refl u _
  · rw [hdeliveries] at hd
    exact h.written t k w hd

/-- The write of a delivery that has aged. -/
theorem ChainInv.writes (h : ChainInv s) {w : Option DeliveryRow} {deliveries : Deliveries}
    (hwrite : s.deliveries.write t id w = some deliveries)
    (hdeliveries : s'.deliveries = deliveries) (htxns : s'.txns = s.txns)
    (hqueue : s'.queue = s.queue) (hended : s'.ended = s.ended)
    (hrow : ∃ row, s.deliveries.rows id = some row ∧ ∀ row' ∈ w, RowAges row row')
    (htxn : Table.Wrote t id w s.deliveries deliveries → ChainTxn deliveries t txn) :
    ChainInv (s'.goes t txn) := by
  have hwrote := Table.wrote_of_write hwrite
  subst hdeliveries
  have hkeys : ∀ k ∈ s.deliveries.keys, k ∈ s'.deliveries.keys := by
    intro k hk
    rcases hwrote.keys with heq | ⟨-, heq⟩
    · rw [heq]
      exact hk
    · rw [heq]
      exact List.mem_cons_of_mem _ hk
  refine h.goes hwrote.rows hkeys hwrote.other htxns (hqueue ▸ fun _ ht => ht) hended
    (fun k w' hd => ?_) (htxn hwrote)
  by_cases hk : k = id
  · subst hk
    cases hwrote.self.symm.trans hd
    exact hrow
  · exact h.written t k w' ((hwrote.rest k hk).symm.trans hd)

/-- A delivery is parked: its row is failed. -/
theorem ChainInv.park (h : ChainInv s) (hknown : Known s.deliveries task) {error : String}
    {outcome : DeliveryOutcome} (hdeliveries : s'.deliveries = s.deliveries)
    (htxns : s'.txns = s.txns) (hqueue : s'.queue = s.queue) (hended : s'.ended = s.ended)
    (hvisible : s.deliveries.visible t task.deliveryId = some delivery) {s'' : State}
    (hst : s'.park t task delivery error outcome = some s'') : ChainInv s'' := by
  obtain ⟨s₁, hparked, rfl⟩ := Option.map_eq_some_iff.1 hst
  obtain ⟨deliveries, hwrite, rfl⟩ := Option.map_eq_some_iff.1 hparked
  rw [hdeliveries] at hwrite
  obtain ⟨old, hold, hage⟩ := h.visible hvisible
  refine h.writes hwrite rfl htxns hqueue hended ⟨old, hold, fun row' hrow' => ?_⟩
    fun hwrote => ⟨?_, .inr (.inr ⟨(hwrote.lock _).2 (.inl rfl), ?_⟩)⟩
  · cases hrow'
    exact hage.trans ⟨rfl, fun _ => nofun⟩
  · obtain ⟨hkey, htenant⟩ := hknown
    exact ⟨hwrote.mem_keys, hwrote.rows ▸ htenant⟩
  · rw [hwrote.visible_self]
    intro row' hrow'
    cases hrow'
    exact nofun

theorem ChainInv.lockDelivery (h : ChainInv s)
    (ht : s.txns t = some (.deliver task .starting))
    (hst : s.lockDelivery t task = some s') : ChainInv s' := by
  obtain ⟨hknown, hclean⟩ := h.txn t _ ht
  unfold State.lockDelivery at hst
  split at hst
  · next hgone =>
    cases hst
    refine h.stays rfl rfl (fun _ hmem => hmem) rfl ⟨hknown, .inr (.inl ⟨hknown.1, ?_⟩)⟩
    -- the row belongs to the tenant, so it is the row that is gone
    intro row hrow
    rw [Table.visible_of_clean (hclean _), hrow] at hgone
    exact absurd (hknown.2 row hrow) (by simpa using hgone)
  · next delivery hdelivery =>
    obtain ⟨deliveries, hacquire, rfl⟩ := Option.map_eq_some_iff.1 hst
    obtain ⟨hk, rfl⟩ := Table.acquire_eq_some.1 hacquire
    have hrow : s.deliveries.rows task.deliveryId = some delivery := by
      rw [← Table.visible_of_clean (hclean _)]
      exact (Option.filter_eq_some_iff.1 hdelivery).1
    have hlocked : ∀ {txn : Txn},
        ChainTxn (s.deliveries.acquired t task.deliveryId hk) t txn →
          ChainInv (State.goes
            { s with deliveries := s.deliveries.acquired t task.deliveryId hk } t txn) :=
      fun htxn => h.goes rfl (fun _ hk => hk) (fun u hu => Table.acquired_sameFor hu hk) rfl
        (fun _ hmem => hmem) rfl (fun k w hd => h.written t k w hd) htxn
    dsimp only
    split
    · next hstatus =>
      refine hlocked ⟨hknown, .inr (.inl ⟨hknown.1, fun row' hrow' => ?_⟩)⟩
      obtain rfl := Option.some.inj (hrow.symm.trans hrow')
      rw [hstatus]
      intro hpending
      cases hpending
    · exact hlocked hknown

theorem ChainInv.lockEndpoint (h : ChainInv s)
    (ht : s.txns t = some (.deliver task (.taken endpointId)))
    (hvisible : s.deliveries.visible t task.deliveryId = some delivery)
    (hst : s.lockEndpoint t task endpointId delivery = some s') : ChainInv s' := by
  have hknown : Known s.deliveries task := h.txn t _ ht
  unfold State.lockEndpoint at hst
  split at hst
  · exact h.park hknown rfl rfl rfl rfl hvisible hst
  · obtain ⟨endpoints, -, hst⟩ := Option.bind_eq_some_iff.1 hst
    have hsame : State.deliveries { s with endpoints } = s.deliveries := rfl
    split at hst
    · exact h.park hknown hsame rfl rfl rfl hvisible hst
    · cases hst
      exact h.stays rfl rfl (fun _ hmem => hmem) rfl hknown

/-- What a failure leaves in the row of the delivery: its old status only if the task is to be
retried. -/
theorem recordFailure_end {detail : String} {permanent : Bool} {responseStatus : Option Nat}
    (delivery : DeliveryRow) (endpoint : EndpointRow) :
    let recorded := recordFailure delivery endpoint detail permanent responseStatus
    RowAges delivery recorded.1 ∧ (recorded.1.status ≠ .pending ∨
      (permanent = false ∧ endpoint.consecutiveFailures + 1 < circuitBreakerThreshold ∧
        recorded.2.2.retry = true)) := by
  unfold recordFailure
  dsimp only
  by_cases htripped : circuitBreakerThreshold ≤ endpoint.consecutiveFailures + 1
  · simp [RowAges, htripped]
  · cases permanent
    · simp [RowAges, htripped, Nat.not_le.1 htripped]
    · simp [RowAges, htripped]

/-- An answer leaves a row pending only if it is a transient failure below the threshold. -/
theorem record_end (answer : Answer) (delivery : DeliveryRow) (endpoint : EndpointRow)
    (now : DateTime) :
    RowAges delivery (answer.record delivery endpoint now).1 ∧
      ((answer.record delivery endpoint now).1.status ≠ .pending ∨
        (answer.transient = true ∧
          endpoint.consecutiveFailures + 1 < circuitBreakerThreshold ∧
          (answer.record delivery endpoint now).2.2.retry = true)) := by
  cases answer with
  | ssrfError message =>
    obtain ⟨hage, hend⟩ := recordFailure_end delivery endpoint
    -- A refused address is a permanent failure, and is not tried again.
    exact ⟨hage, hend.imp_right fun ⟨hpermanent, _⟩ => nomatch hpermanent⟩
  | transportError message =>
    obtain ⟨hage, hend⟩ := recordFailure_end delivery endpoint
    exact ⟨hage, hend.imp_right fun ⟨_, hrest⟩ => ⟨rfl, hrest⟩⟩
  | status code =>
    unfold Answer.record Answer.transient
    dsimp only
    by_cases hok : 200 ≤ code ∧ code < 300
    · -- A 2xx answer ends the chain.
      rw [if_pos hok]
      exact ⟨⟨rfl, fun _ => nofun⟩, .inl nofun⟩
    · rw [if_neg hok]
      obtain ⟨hage, hend⟩ := recordFailure_end delivery endpoint
      refine ⟨hage, hend.imp_right fun ⟨hpermanent, hrest⟩ => ⟨?_, hrest⟩⟩
      rw [hpermanent, decide_eq_false hok]
      rfl

theorem ChainInv.answer (h : ChainInv s) {answer : Answer} {now : DateTime}
    (ht : s.txns t = some (.deliver task (.posting endpointId)))
    (hretried : Retried s (.answer t answer now))
    (hdelivery : s.deliveries.visible t task.deliveryId = some delivery)
    (hendpoint : s.endpoints.visible t endpointId = some endpoint)
    (hst : s.answer t task endpointId answer now delivery endpoint = some s') :
    ChainInv s' := by
  have hknown : Known s.deliveries task := h.txn t _ ht
  simp only [Retried, ht] at hretried
  obtain ⟨s₁, hanswered, hst⟩ := Option.bind_eq_some_iff.1 hst
  obtain ⟨s₂, hcounted, rfl⟩ := Option.map_eq_some_iff.1 hst
  obtain ⟨deliveries, hwrite, rfl⟩ := Option.map_eq_some_iff.1 hanswered
  obtain ⟨endpoints, -, rfl⟩ := Option.map_eq_some_iff.1 hcounted
  obtain ⟨old, hold, hage⟩ := h.visible hdelivery
  obtain ⟨hrecorded, hend⟩ :=
    record_end answer { delivery with attempts := delivery.attempts + 1 } endpoint now
  refine h.writes hwrite rfl rfl rfl rfl ⟨old, hold, fun row' hrow' => ?_⟩
    fun hwrote => ⟨⟨hwrote.mem_keys, hwrote.rows ▸ hknown.2⟩, ?_⟩
  · cases hrow'
    exact (hage.trans ⟨rfl, fun hleft => hleft⟩).trans hrecorded
  · rcases hend with hleft | ⟨htransient, hlow, hretry⟩
    · refine .inr (.inr ⟨(hwrote.lock _).2 (.inl rfl), ?_⟩)
      rw [hwrote.visible_self]
      intro row' hrow'
      cases hrow'
      exact hleft
    · refine .inl ⟨hretry, Nat.not_le.1 fun hexhausted => ?_⟩
      -- with no retry left the answer would have opened the breaker
      have hreached := hretried htransient hexhausted endpoint hendpoint
      exact absurd hlow (Nat.not_lt.2 hreached)

theorem ChainInv.ages_commit (h : ChainInv s) (t : Nat) :
    Ages s.deliveries (s.deliveries.commit t) :=
  fun _ hk => ⟨hk, fun _ hrow => h.visible hrow⟩

theorem ChainInv.commit (h : ChainInv s) (t : Nat) : ChainInv (s.commit t) where
  idle := Table.Idle.commit h.idle
  written u k w hd := by
    obtain ⟨hne, hd⟩ := Table.commit_dirty.1 hd
    have hrow := Table.commit_rows_of_lock (s.deliveries.dirty_lock hd) hne
    obtain ⟨row, hold, hages⟩ := h.written u k w hd
    exact ⟨row, hrow.trans hold, hages⟩
  queued task htask := (h.queued task htask).ages (h.ages_commit t)
  txn := Machine.each_ends h.txn fun _ _ hne hu =>
    hu.of_same (Table.commit_sameFor hne) (h.ages_commit t)
  ended id hid := by
    obtain ⟨hkey, hleft⟩ := h.ended id hid
    exact left_ages hkey hleft (h.ages_commit t)

/-- A rollback publishes nothing; the task stays. -/
theorem ChainInv.rollback (h : ChainInv s) (t : Nat) :
    ChainInv (s.ends t (s.endpoints.rollback t) (s.deliveries.rollback t) s.log) where
  idle := Table.Idle.rollback h.idle
  written u k w hd := h.written u k w (Table.rollback_dirty.1 hd).2
  queued := h.queued
  txn := Machine.each_ends h.txn fun _ _ hne hu =>
    hu.of_same (Table.rollback_sameFor hne) (ages_of_rows rfl fun _ hk => hk)
  ended := h.ended

/-- The end of an execution. -/
theorem ChainInv.execute (h : ChainInv s) {outcome : DeliveryOutcome}
    (ht : s.txns t = some (.deliver task (.done outcome))) :
    ChainInv ((s.commit t).execute task outcome) := by
  have hcommit := h.commit t
  obtain ⟨hknown, hend⟩ := h.txn t _ ht
  have hknown := hknown.ages (h.ages_commit t)
  unfold State.execute
  split
  · refine { hcommit with queued := fun next hnext => ?_ }
    rcases List.mem_append.1 hnext with hnext | hnext
    · exact hcommit.queued next hnext
    · cases List.mem_singleton.1 hnext
      exact hknown
  · next hover =>
    refine { hcommit with ended := fun id hid => ?_ }
    rcases List.mem_append.1 hid with hid | hid
    · exact hcommit.ended id hid
    · cases List.mem_singleton.1 hid
      -- the chain is over, so what is left of `ChainTxn` is that the row has left `pending`
      rcases hend.resolve_left hover with ⟨hkey, hleft⟩ | ⟨-, hleft⟩
      · exact left_ages hkey hleft (h.ages_commit t)
      · exact ⟨hknown.1, hleft⟩

/-- A delivery comes with its task. -/
theorem ChainInv.dispatch (h : ChainInv s) {new : DeliveryRow}
    (hpublish : s.deliveries.publish id new = some deliveries) :
    ChainInv { s with
      deliveries
      queue := s.queue ++ [{ tenantId := new.tenantId, deliveryId := id }] } := by
  obtain ⟨hid, rfl⟩ := Table.publish_eq_some.1 hpublish
  have hages : Ages s.deliveries (s.deliveries.published id new hid) := by
    intro k hk
    have hne : k ≠ id := fun heq => hid (heq ▸ hk)
    refine ⟨List.mem_cons_of_mem _ hk, fun row' hrow' => ⟨row', ?_, .refl row'⟩⟩
    exact (Function.update_of_ne hne ..).symm.trans hrow'
  constructor
  case idle => exact h.idle
  case written =>
    intro u k w hd
    obtain ⟨row, hrow, hage⟩ := h.written u k w hd
    have hne : k ≠ id := fun heq => hid (heq ▸ s.deliveries.rows_keys hrow)
    exact ⟨row, (Function.update_of_ne hne ..).trans hrow, hage⟩
  case queued =>
    intro task htask
    rcases List.mem_append.1 htask with htask | htask
    · exact (h.queued task htask).ages hages
    · cases List.mem_singleton.1 htask
      refine ⟨List.mem_cons_self, fun row hrow => ?_⟩
      rcases Machine.update_cases hrow with ⟨-, heq⟩ | ⟨hne, -⟩
      · cases heq
        rfl
      · exact absurd rfl hne
  case txn =>
    intro u txn hu
    exact (h.txn u txn hu).of_same (Table.published_sameFor u hid) hages
  case ended =>
    intro k hk
    obtain ⟨hkey, hleft⟩ := h.ended k hk
    exact left_ages hkey hleft hages

/-- A deleted endpoint takes its deliveries along. -/
theorem ChainInv.cascade (h : ChainInv s) (ht : s.txns t = some (.delete endpointId))
    (hvisible : s.deliveries.visible t id = some delivery)
    (hst : s.writeDelivery t id none = some s') : ChainInv s' := by
  obtain ⟨deliveries, hwrite, rfl⟩ := Option.map_eq_some_iff.1 hst
  obtain ⟨old, hold, -⟩ := h.visible hvisible
  have hgoes : ChainInv (State.goes { s with deliveries } t (.delete endpointId)) :=
    h.writes hwrite rfl rfl rfl rfl ⟨old, hold, nofun⟩ fun _ => trivial
  rw [State.goes, Function.update_eq_self_iff.2 ht.symm] at hgoes
  exact hgoes

/-- One step keeps the invariant. -/
theorem chainInv_step {l : Label} (h : ChainInv s) (hretried : Retried s l)
    (hst : step s l = some s') : ChainInv s' := by
  cases stepped_of_step hst with
  | createEndpoint _ => exact { h with }
  | dispatch _ _ hpublish => exact h.dispatch hpublish
  | update _ _ _ hwrite =>
    obtain ⟨endpoints, -, rfl⟩ := Option.map_eq_some_iff.1 hwrite
    exact h.stays rfl rfl (fun _ hmem => hmem) rfl trivial
  | delete _ _ _ hwrite =>
    obtain ⟨endpoints, -, rfl⟩ := Option.map_eq_some_iff.1 hwrite
    exact h.stays rfl rfl (fun _ hmem => hmem) rfl trivial
  | cascade ht hvisible _ hwrite => exact h.cascade ht hvisible hwrite
  | take ht htask =>
    have hknown := h.queued _ (List.mem_of_getElem? htask)
    have hclean := Table.Idle.clean h.idle _ ht
    exact h.stays rfl rfl (fun _ hmem => List.mem_of_mem_eraseIdx hmem) rfl ⟨hknown, hclean⟩
  | lockDelivery ht hst => exact h.lockDelivery ht hst
  | lockEndpoint ht hvisible hst => exact h.lockEndpoint ht hvisible hst
  | answer ht hdelivery hendpoint hst => exact h.answer ht hretried hdelivery hendpoint hst
  | execute ht => exact h.execute ht
  | commit => exact h.commit _
  | rollback => exact h.rollback _

end Steps

/-- So it is one of all runs whose failures are retried. -/
theorem chainInv_inductive : machine.Inductive Retried ChainInv where
  init s hs := by
    cases hs
    exact .empty
  step s l t h hretried hst := chainInv_step h hretried hst

/-- **Deliveries terminate**: no chain ends with its delivery pending, unless its last retry
fails for a transient reason below the breaker's threshold. -/
theorem terminal {s : State} (h : machine.ReachVia Retried s) : Terminal s :=
  fun id hid => ((chainInv_inductive.always h).ended id hid).2

/-! ### An endpoint that fails now and then -/

/-- Delivery 10 fails; the task that is retried waits behind the others. -/
def unavailable : List Label := execution 1 (.status 503)

/-- Seven executions of delivery 10 are answered 503; after the fourth, delivery 11 to the same
endpoint is answered 200. -/
def seventhFailure : List Label :=
  List.flatten
    [queued, unavailable, unavailable, unavailable, unavailable,
      [.dispatch 11 1 "lead.created" [], .take 2 1, .lockDelivery 2, .lockEndpoint 2,
        .answer 2 (.status 200) 0, .commit 2],
      unavailable, unavailable, unavailable]

/-- **A delivery is left pending** when its retries are exhausted and the breaker is closed. -/
theorem left_pending : ¬ ∀ s, machine.Reachable s → Terminal s := by
  intro h
  obtain ⟨s, hs, hp⟩ := Machine.exists_reachable_of_run (M := machine) seventhFailure
    (fun s => 10 ∈ s.ended && (s.deliveries.rows 10).any (·.status = .pending)) rfl
    (by decide)
  obtain ⟨hended, hpending⟩ := Bool.and_eq_true_iff.1 hp
  obtain ⟨row, hrow, hstatus⟩ := (Option.any_eq_true _ _).1 hpending
  exact h s hs 10 (of_decide_eq_true hended) row hrow (of_decide_eq_true hstatus)

/-- Five failures in a row open the breaker, and the delivery has failed. -/
theorem terminal_tripped :
    ∃ s, machine.ReachVia Retried s ∧ 10 ∈ s.ended ∧
      (s.deliveries.rows 10).any (·.status = .failed) = true ∧ Terminal s := by
  obtain ⟨s, hs, hp⟩ := Machine.exists_reachVia_of_run (M := machine) (G := Retried)
    (List.flatten
      [queued, unavailable, unavailable, unavailable, unavailable, unavailable])
    (fun s => 10 ∈ s.ended && (s.deliveries.rows 10).any (·.status = .failed)) rfl
    (by decide)
  obtain ⟨hended, hfailed⟩ := Bool.and_eq_true_iff.1 hp
  exact ⟨s, hs, of_decide_eq_true hended, hfailed, terminal hs⟩

end Delivery

end Webhooks

end RealEstate
