import RealEstate.Core.Events
import RealEstate.Systems.Machine
import RealEstate.Systems.Table
import RealEstate.Tenants.Models

/-!
# The relay: concurrent drains over one outbox table

`core/events.py` and `workers/tasks/outbox.py` as a state machine. Producers
commit events, ticks of the relay claim due rows `FOR UPDATE SKIP LOCKED`,
deliver them one by one, and commit; any number of ticks run at the same time,
and any of them may be aborted or die while it runs its post-commit callbacks.

- `relay reg`: the machine, for the handler registry `reg`.
- `Accounted`: what the row of an event says about its attempts, and what its
  attempts left in the database; `accounted` proves it of every committed row.
- `advances`: the only way a committed row changes.
- `run_deliver`: delivering a claimed batch step by step is `drainOutbox`.

The attempt log is not stored by the program. A tick's part of it is committed
and lost together with the tick's rows.
-/

namespace RealEstate

namespace Core

namespace Relay

open Systems Events Tenants
open Machine (update_cases old_of_update)

variable {E W C : Type}

/-! ### The machine -/

/-- One delivery attempt: who ran it, what its handlers read, what they did. -/
structure Attempt (E W C : Type) where
  tenant : TenantContext
  envs : Nat → E
  run : HandlerRun W C

/-- A relay tick inside its transaction. `todo` are the rows it claimed and has not
delivered yet. -/
structure Tick (E W C : Type) where
  tenant : TenantContext
  now : DateTime
  todo : List OutboxEvent
  session : Session W C := {}
  log : List (Effect (Attempt E W C)) := []

/-- The outbox, the open ticks, the rows handlers committed and the callbacks that ran. -/
structure State (E W C : Type) where
  outbox : Table Uuid OutboxEvent Nat
  ticks : Nat → Option (Tick E W C)
  effects : List (Effect W)
  ran : List (Effect C)
  log : List (Effect (Attempt E W C))

/-- An empty outbox. -/
def State.empty : State E W C where
  outbox := Table.empty
  ticks _ := none
  effects := []
  ran := []
  log := []

/-- A step of a tick, or a producer's commit. -/
inductive Label (E : Type) where
  /-- A producer's transaction commits an event. -/
  | emit (tenant : TenantContext) (eventType : String) (payload : JsonObject) (id : Uuid)
      (now : DateTime)
  /-- A tick opens its transaction and claims a batch. -/
  | claim (t : Nat) (tenant : Tenant) (now : DateTime)
  /-- A tick delivers the next event of its batch. -/
  | deliver (t : Nat) (envs : Nat → E)
  /-- A tick commits and runs its callbacks; the worker survives the first `survives`
  of them. -/
  | commit (t : Nat) (survives : Nat)
  /-- A tick's transaction is rolled back. -/
  | abort (t : Nat)

namespace State

variable (s : State E W C)

/-- The rows `drain_outbox` claims: due, not locked by another tick, oldest first. -/
def claimBatch (t : Nat) (tenantId : Uuid) (now : DateTime) : List OutboxEvent :=
  claimOrder (((s.outbox.scan t (·.due tenantId now)).filter
    fun k => decide (s.outbox.Free t k)).filterMap (s.outbox.visible t))

/-- A producer commits an event. -/
def emit (tenant : TenantContext) (eventType : String) (payload : JsonObject) (id : Uuid)
    (now : DateTime) : Option (State E W C) :=
  (s.outbox.publish id (emitEvent tenant eventType payload id now)).map fun outbox =>
    { s with outbox }

/-- `relay_outbox` opens a drain for every tenant that is not suspended. -/
def claim (t : Nat) (tenant : Tenant) (now : DateTime) : Option (State E W C) :=
  match s.ticks t with
  | some _ => none
  | none =>
    if tenant.status = .suspended then none
    else
      let batch := s.claimBatch t tenant.id now
      some { s with
        outbox := s.outbox.skipLocked t (batch.map (·.id))
        ticks := Function.update s.ticks t
          (some { tenant := tenant.toContext, now, todo := batch }) }

/-- A tick delivers its next event. -/
def deliver (reg : Registry E W C) (t : Nat) (envs : Nat → E) : Option (State E W C) :=
  match s.ticks t with
  | none => none
  | some tick =>
    match tick.todo with
    | [] => none
    | ev :: rest =>
      let r := deliverEvent reg tick.tenant tick.now envs tick.session ev
      let run := attemptRun reg tick.tenant envs tick.session.seen ev.eventType ev.payload
      (s.outbox.write t ev.id (some r.1)).map fun outbox =>
        { s with
          outbox
          ticks := Function.update s.ticks t (some { tick with
            todo := rest
            session := r.2
            log := tick.log ++ [⟨ev.id, ev.attempts + 1, ⟨tick.tenant, envs, run⟩⟩] }) }

/-- The commit publishes the rows; only then are the session's callbacks run, in order. -/
def commit (t survives : Nat) : Option (State E W C) :=
  match s.ticks t with
  | none => none
  | some tick =>
    match tick.todo with
    | _ :: _ => none
    | [] =>
      some {
        outbox := s.outbox.commit t
        ticks := Function.update s.ticks t none
        effects := s.effects ++ tick.session.writes
        ran := s.ran ++ tick.session.callbacks.take survives
        log := s.log ++ tick.log }

/-- A tick fails, and is rolled back. -/
def abort (t : Nat) : Option (State E W C) :=
  match s.ticks t with
  | none => none
  | some _ =>
    some { s with outbox := s.outbox.rollback t, ticks := Function.update s.ticks t none }

end State

/-- One step of the machine. -/
def step (reg : Registry E W C) (s : State E W C) : Label E → Option (State E W C)
  | .emit tenant eventType payload id now => s.emit tenant eventType payload id now
  | .claim t tenant now => s.claim t tenant now
  | .deliver t envs => s.deliver reg t envs
  | .commit t survives => s.commit t survives
  | .abort t => s.abort t

/-- The relay over an initially empty outbox. -/
def relay (reg : Registry E W C) : Machine (State E W C) (Label E) where
  init s := s = State.empty
  step := step reg

/-! ### What each step does -/

section Steps

variable {s s' : State E W C}

/-- An event under a new id. -/
theorem emit_eq_some {tenant : TenantContext} {eventType : String} {payload : JsonObject}
    {id : Uuid} {now : DateTime} (h : s.emit tenant eventType payload id now = some s') :
    ∃ hk, s' = { s with
      outbox := s.outbox.published id (emitEvent tenant eventType payload id now) hk } := by
  rw [State.emit, Option.map_eq_some_iff] at h
  obtain ⟨tb, htb, rfl⟩ := h
  obtain ⟨hk, rfl⟩ := Table.publish_eq_some.mp htb
  exact ⟨hk, rfl⟩

/-- A claim skips what is locked. -/
theorem claim_eq_some {t : Nat} {tenant : Tenant} {now : DateTime}
    (h : s.claim t tenant now = some s') :
    s.ticks t = none ∧ s' = { s with
      outbox := s.outbox.skipLocked t ((s.claimBatch t tenant.id now).map (·.id))
      ticks := Function.update s.ticks t (some {
        tenant := tenant.toContext, now, todo := s.claimBatch t tenant.id now }) } := by
  unfold State.claim at h
  cases hs : s.ticks t with
  | some tick => rw [hs] at h; cases h
  | none =>
    rw [hs] at h
    dsimp only at h
    split at h
    · cases h
    · exact ⟨rfl, (Option.some.inj h).symm⟩

/-- A delivery writes the event's row, in the tick's transaction. -/
theorem deliver_eq_some {reg : Registry E W C} {t : Nat} {envs : Nat → E}
    (h : s.deliver reg t envs = some s') :
    ∃ tick ev rest hk, s.ticks t = some tick ∧ tick.todo = ev :: rest ∧ s' = { s with
      outbox := s.outbox.written t ev.id
        (some (deliverEvent reg tick.tenant tick.now envs tick.session ev).1) hk
      ticks := Function.update s.ticks t (some { tick with
        todo := rest
        session := (deliverEvent reg tick.tenant tick.now envs tick.session ev).2
        log := tick.log ++ [⟨ev.id, ev.attempts + 1, ⟨tick.tenant, envs,
          attemptRun reg tick.tenant envs tick.session.seen ev.eventType ev.payload⟩⟩] }) } := by
  unfold State.deliver at h
  cases hs : s.ticks t with
  | none => rw [hs] at h; cases h
  | some tick =>
    rw [hs] at h
    dsimp only at h
    cases htodo : tick.todo with
    | nil => rw [htodo] at h; cases h
    | cons ev rest =>
      rw [htodo] at h
      dsimp only at h
      rw [Option.map_eq_some_iff] at h
      obtain ⟨tb, htb, rfl⟩ := h
      obtain ⟨hk, rfl⟩ := Table.write_eq_some.mp htb
      exact ⟨tick, ev, rest, hk, rfl, htodo, rfl⟩

/-- A commit publishes what was done, and runs the callbacks. -/
theorem commit_eq_some {t survives : Nat} (h : s.commit t survives = some s') :
    ∃ tick, s.ticks t = some tick ∧ tick.todo = [] ∧ s' = {
      outbox := s.outbox.commit t
      ticks := Function.update s.ticks t none
      effects := s.effects ++ tick.session.writes
      ran := s.ran ++ tick.session.callbacks.take survives
      log := s.log ++ tick.log } := by
  unfold State.commit at h
  cases hs : s.ticks t with
  | none => rw [hs] at h; cases h
  | some tick =>
    rw [hs] at h
    dsimp only at h
    cases htodo : tick.todo with
    | nil => rw [htodo] at h; exact ⟨tick, rfl, htodo, (Option.some.inj h).symm⟩
    | cons ev rest => rw [htodo] at h; cases h

theorem abort_eq_some {t : Nat} (h : s.abort t = some s') :
    ∃ tick, s.ticks t = some tick ∧ s' = { s with
      outbox := s.outbox.rollback t
      ticks := Function.update s.ticks t none } := by
  unfold State.abort at h
  cases hs : s.ticks t with
  | none => rw [hs] at h; cases h
  | some tick => rw [hs] at h; exact ⟨tick, rfl, (Option.some.inj h).symm⟩

/-- A claimed event is pending, due and free. -/
theorem mem_claimBatch {t : Nat} {tenantId : Uuid} {now : DateTime} {ev : OutboxEvent}
    (h : ev ∈ s.claimBatch t tenantId now) :
    ∃ k ∈ s.outbox.keys, s.outbox.Free t k ∧ s.outbox.visible t k = some ev ∧
      ev.tenantId = tenantId ∧ ev.status = .pending := by
  have hmem := mem_of_mem_claimOrder h
  rw [List.mem_filterMap] at hmem
  obtain ⟨k, hk, hv⟩ := hmem
  rw [List.mem_filter, Table.mem_scan] at hk
  obtain ⟨⟨ev', hv', hdue⟩, hfree⟩ := hk
  have he : ev' = ev := Option.some.inj (hv'.symm.trans hv)
  subst he
  have hd : ev'.tenantId = tenantId ∧ ev'.status = .pending ∧ ev'.nextAttemptAt ≤ now := by
    simpa [OutboxEvent.due] using hdue
  exact ⟨k, Table.visible_keys hv, of_decide_eq_true hfree, hv, hd.1, hd.2.1⟩

end Steps

/-! ### The account of one event -/

/-- What the row `ev` says about the attempts `tries` made on it and about `effects`, the
rows those attempts left in the database. -/
structure Accounted (reg : Registry E W C) (ev : OutboxEvent) (tries : List (Attempt E W C))
    (effects : List W) : Prop where
  /-- `attempts` counts the attempts. -/
  counted : ev.attempts = tries.length
  bounded : ev.attempts ≤ outboxMaxAttempts
  /-- A pending event has attempts left. -/
  pending : ev.status = .pending → ev.attempts < outboxMaxAttempts
  /-- Until an event is delivered every attempt raised, and none left a row. -/
  unsettled : ev.status ≠ .delivered → (∀ a ∈ tries, a.run.raised ≠ none) ∧ effects = []
  /-- A delivered event owes its rows to its last attempt, the only one that did not
  raise. -/
  delivered : ev.status = .delivered → ∃ earlier last, tries = earlier ++ [last] ∧
    (∀ a ∈ earlier, a.run.raised ≠ none) ∧ last.run.raised = none ∧
      effects = last.run.writes
  /-- Every attempt ran the registered handlers for the event's own tenant. -/
  genuine : ∀ a ∈ tries, a.tenant.id = ev.tenantId ∧
    ∃ seen, a.run = attemptRun reg a.tenant a.envs seen ev.eventType ev.payload

/-- `new` is `old`, or a later version of the pending row `old`. -/
def Advances (old new : OutboxEvent) : Prop :=
  new = old ∨ (old.status = .pending ∧ old.attempts < new.attempts ∧ new.id = old.id ∧
    new.tenantId = old.tenantId ∧ new.eventType = old.eventType ∧ new.payload = old.payload)

theorem accounted_emitEvent (reg : Registry E W C) (tenant : TenantContext)
    (eventType : String) (payload : JsonObject) (id : Uuid) (now : DateTime) :
    Accounted (E := E) reg (emitEvent tenant eventType payload id now) [] [] where
  counted := rfl
  bounded := Nat.zero_le _
  pending _ := by show (0 : Nat) < 8; omega
  unsettled _ := ⟨by simp, rfl⟩
  delivered h := nomatch h
  genuine := by simp

/-- One attempt on a pending event keeps the account. -/
theorem Accounted.attempt {reg : Registry E W C} {ev row : OutboxEvent}
    {tries : List (Attempt E W C)} {effects : List W} {a : Attempt E W C}
    (h : Accounted reg ev tries effects) (hp : ev.status = .pending)
    (hs : Settled ev row a.run) (ht : a.tenant.id = ev.tenantId)
    (hg : ∃ seen, a.run = attemptRun reg a.tenant a.envs seen ev.eventType ev.payload) :
    Accounted reg row (tries ++ [a])
      (effects ++ if a.run.raised.isNone then a.run.writes else []) := by
  obtain ⟨hraised, rfl⟩ := h.unsettled (by rw [hp]; decide)
  have hlt := h.pending hp
  refine ⟨?_, ?_, ?_, ?_, ?_, ?_⟩
  · rw [hs.attempts, h.counted, List.length_append, List.length_singleton]
  · rw [hs.attempts]
    exact hlt
  · -- Still pending: the attempt raised, and attempts are left.
    intro hrow
    cases hr : a.run.raised with
    | none => exact absurd ((hs.delivered hr).symm.trans hrow) (by decide)
    | some exc =>
      rcases hs.raised (by rw [hr]; simp) with hf | ⟨-, hmax⟩
      · exact absurd (hf.symm.trans hrow) (by decide)
      · exact hmax
  · -- Not delivered: every attempt so far has raised, this one included.
    intro hrow
    cases hr : a.run.raised with
    | none => exact absurd (hs.delivered hr) hrow
    | some exc =>
      refine ⟨fun b hb => ?_, rfl⟩
      rcases List.mem_append.mp hb with hb | hb
      · exact hraised b hb
      · rw [List.mem_singleton.mp hb, hr]
        simp
  · -- Delivered: this attempt is the first that raised nothing.
    intro hrow
    cases hr : a.run.raised with
    | none => exact ⟨tries, a, rfl, hraised, hr, rfl⟩
    | some exc =>
      rcases hs.raised (by rw [hr]; simp) with hf | ⟨hsame, -⟩
      · exact absurd (hf.symm.trans hrow) (by decide)
      · exact absurd (hsame.symm.trans hrow) (by rw [hp]; decide)
  · intro b hb
    rw [hs.tenantId, hs.eventType, hs.payload]
    rcases List.mem_append.mp hb with hb | hb
    · exact h.genuine b hb
    · rw [List.mem_singleton.mp hb]
      exact ⟨ht, hg⟩

theorem Advances.attempt {old ev row : OutboxEvent} {r : HandlerRun W C}
    (h : Advances old ev) (hold : old.status = .pending) (hs : Settled ev row r) :
    Advances old row := by
  have hlt : ev.attempts < row.attempts := by
    rw [hs.attempts]
    exact Nat.lt_succ_self _
  rcases h with rfl | ⟨-, hlt', hid, hten, hty, hpay⟩
  · exact .inr ⟨hold, hlt, hs.id, hs.tenantId, hs.eventType, hs.payload⟩
  · exact .inr ⟨hold, hlt'.trans hlt, hs.id.trans hid, hs.tenantId.trans hten,
      hs.eventType.trans hty, hs.payload.trans hpay⟩

/-! ### The invariant of the relay -/

/-- The view of an event by the tick that locked it: the committed version `row₀` is
pending, and the tick's own version accounts for the committed and its own attempts. -/
def Held (reg : Registry E W C) (e : Uuid) (row₀ row : Option OutboxEvent)
    (tries : List (Attempt E W C)) (effects : List W) : Prop :=
  ∃ ev₀ ev, row₀ = some ev₀ ∧ row = some ev ∧ ev₀.status = .pending ∧ ev.id = e ∧
    Advances ev₀ ev ∧ Accounted reg ev tries effects

/-- What a tick has done to the rows that it holds. -/
structure TickInv (reg : Registry E W C) (s : State E W C) (t : Nat) (tick : Tick E W C) :
    Prop where
  held : ∀ e, s.outbox.lock e = some t →
    Held reg e (s.outbox.rows e) (s.outbox.visible t e)
      (valuesOf e s.log ++ valuesOf e tick.log)
      (valuesOf e s.effects ++ valuesOf e tick.session.writes)
  foreign : ∀ e, s.outbox.lock e ≠ some t →
    valuesOf e tick.log = [] ∧ valuesOf e tick.session.writes = []
  todo_nodup : (tick.todo.map (·.id)).Nodup
  todo_held : ∀ ev ∈ tick.todo, s.outbox.lock ev.id = some t ∧
    s.outbox.visible t ev.id = some ev ∧ ev.status = .pending ∧
      ev.tenantId = tick.tenant.id

/-- Every row is accounted for by the attempts of its event. -/
structure Inv (reg : Registry E W C) (s : State E W C) : Prop where
  rows : ∀ e ev, s.outbox.rows e = some ev →
    ev.id = e ∧ Accounted reg ev (valuesOf e s.log) (valuesOf e s.effects)
  fresh : ∀ e, e ∉ s.outbox.keys → valuesOf e s.log = [] ∧ valuesOf e s.effects = []
  ticks : ∀ t tick, s.ticks t = some tick → TickInv reg s t tick
  idle : ∀ t, s.ticks t = none → ∀ e, s.outbox.lock e ≠ some t

section Preservation

variable {reg : Registry E W C} {s s' : State E W C}

theorem inv_empty : Inv reg (State.empty : State E W C) where
  rows _ _ h := nomatch h
  fresh _ _ := ⟨rfl, rfl⟩
  ticks _ _ h := nomatch h
  idle _ _ _ h := nomatch h

/-- A tick keeps its invariant while others act, if they log nothing on its rows. -/
theorem TickInv.frame {t : Nat} {tick : Tick E W C} (hT : TickInv reg s t tick)
    (hs : Table.SameFor t s.outbox s'.outbox)
    (hlog : ∀ e, s.outbox.lock e = some t →
      valuesOf e s'.log = valuesOf e s.log ∧ valuesOf e s'.effects = valuesOf e s.effects) :
    TickInv reg s' t tick where
  held e he := by
    have hl := (hs.lock e).mp he
    rw [hs.rows e hl, hs.visible hl, (hlog e hl).1, (hlog e hl).2]
    exact hT.held e hl
  foreign e he := hT.foreign e fun hl => he ((hs.lock e).mpr hl)
  todo_nodup := hT.todo_nodup
  todo_held ev hev := by
    obtain ⟨hl, hv, hrest⟩ := hT.todo_held ev hev
    exact ⟨(hs.lock _).mpr hl, (hs.visible hl).trans hv, hrest⟩

/-- An idle tick has no version of any row. -/
theorem Inv.visible_idle (hI : Inv reg s) {t : Nat} (ht : s.ticks t = none) (e : Uuid) :
    s.outbox.visible t e = s.outbox.rows e :=
  Table.visible_of_unlocked (hI.idle t ht e)

/-- A new event has had no attempt. -/
theorem Inv.emit (hI : Inv reg s) {tenant : TenantContext} {eventType : String}
    {payload : JsonObject} {id : Uuid} {now : DateTime}
    (h : s.emit tenant eventType payload id now = some s') : Inv reg s' := by
  obtain ⟨hk, rfl⟩ := emit_eq_some h
  refine ⟨fun e ev hev => ?_, fun e he => ?_, fun t tick ht => ?_, hI.idle⟩
  · rcases update_cases hev with ⟨rfl, hrow⟩ | ⟨-, hrow⟩
    · obtain rfl := Option.some.inj hrow
      rw [(hI.fresh e hk).1, (hI.fresh e hk).2]
      exact ⟨rfl, accounted_emitEvent ..⟩
    · exact hI.rows e ev hrow
  · exact hI.fresh e fun hmem => he (List.mem_cons_of_mem _ hmem)
  · exact (hI.ticks t tick ht).frame (Table.published_sameFor t hk) fun _ _ => ⟨rfl, rfl⟩

/-- Selecting rows by key keeps the keys distinct. -/
theorem filterMap_ids_sublist {f : Uuid → Option OutboxEvent}
    (hf : ∀ k ev, f k = some ev → ev.id = k) (ks : List Uuid) :
    ((ks.filterMap f).map (·.id)).Sublist ks := by
  induction ks with
  | nil => exact .slnil
  | cons k ks ih =>
    cases hk : f k with
    | none =>
      rw [List.filterMap_cons_none hk]
      exact ih.cons _
    | some ev =>
      rw [List.filterMap_cons_some hk, List.map_cons, hf k ev hk]
      exact ih.cons_cons _

theorem Inv.claim (hI : Inv reg s) {t : Nat} {tenant : Tenant} {now : DateTime}
    (h : s.claim t tenant now = some s') : Inv reg s' := by
  obtain ⟨hidle, rfl⟩ := claim_eq_some h
  have hid : ∀ k ev, s.outbox.visible t k = some ev → ev.id = k := fun k ev hv =>
    (hI.rows k ev (hI.visible_idle hidle k ▸ hv)).1
  have hother : ∀ {u}, u ≠ t → Table.SameFor u s.outbox (s.outbox.skipLocked t
      ((s.claimBatch t tenant.id now).map (·.id))) := fun hu =>
    Table.skipLocked_sameFor hu _
  -- What the batch holds is locked by this worker, pending and of its tenant.
  have hbatch : ∀ ev ∈ s.claimBatch t tenant.id now, (s.outbox.skipLocked t
      ((s.claimBatch t tenant.id now).map (·.id))).lock ev.id = some t ∧
        s.outbox.visible t ev.id = some ev ∧ ev.tenantId = tenant.id ∧
          ev.status = .pending := by
    intro ev hev
    obtain ⟨k, hk, hfree, hv, hten, hst⟩ := mem_claimBatch hev
    obtain rfl := hid k ev hv
    refine ⟨?_, hv, hten, hst⟩
    rw [Table.skipLocked_lock, if_pos ⟨List.mem_map_of_mem hev, hk, hfree⟩]
  refine ⟨hI.rows, hI.fresh, fun u tick hu => ?_, fun u hu e => ?_⟩
  · rcases update_cases hu with ⟨rfl, htick⟩ | ⟨hut, hu⟩
    · obtain rfl := Option.some.inj htick
      -- A lock of this worker is one it has just taken.
      refine ⟨fun e he => ?_, fun e _ => ⟨rfl, rfl⟩, ?_, fun ev hev => ?_⟩
      · rw [Table.skipLocked_lock] at he
        split at he
        · next hc =>
          obtain ⟨ev, hev, rfl⟩ := List.mem_map.mp hc.1
          obtain ⟨-, hv, -, hst⟩ := hbatch ev hev
          have hrow : s.outbox.rows ev.id = some ev := hI.visible_idle hidle _ ▸ hv
          refine ⟨ev, ev, hrow, hv, hst, rfl, .inl rfl, ?_⟩
          simpa using (hI.rows _ ev hrow).2
        · exact absurd he (hI.idle u hidle e)
      · -- No event is in the batch twice.
        refine claimOrder_ids_nodup ?_
        exact ((s.outbox.scan_nodup u _).filter _).sublist (filterMap_ids_sublist hid _)
      · obtain ⟨hl, hv, hten, hst⟩ := hbatch ev hev
        exact ⟨hl, hv, hst, hten⟩
    · exact (hI.ticks u tick hu).frame (hother hut) fun _ _ => ⟨rfl, rfl⟩
  · obtain ⟨hut, hu⟩ := old_of_update hu nofun
    exact fun hl => hI.idle u hu e (((hother hut).lock e).mp hl)

/-- A delivery is accounted for in its tick. -/
theorem Inv.deliver (hI : Inv reg s) {t : Nat} {envs : Nat → E}
    (h : s.deliver reg t envs = some s') : Inv reg s' := by
  obtain ⟨tick, ev, rest, hk, ht, htodo, rfl⟩ := deliver_eq_some h
  have hT := hI.ticks t tick ht
  obtain ⟨hlock, hvis, hpend, hten⟩ := hT.todo_held ev (htodo ▸ List.mem_cons_self)
  have hnodup : (∀ x ∈ rest, x.id ≠ ev.id) ∧ (rest.map (·.id)).Nodup := by
    simpa [htodo] using hT.todo_nodup
  -- The row was locked by the claim, so delivering changes no lock.
  have hsame : Function.update s.outbox.lock ev.id (some t) = s.outbox.lock :=
    Function.update_eq_self_iff.mpr hlock.symm
  have hframe : ∀ {u e} {row : Option OutboxEvent}, ¬(u = t ∧ e = ev.id) →
      (s.outbox.written t ev.id row hk).visible u e = s.outbox.visible u e := by
    intro u e row hne
    rw [Table.visible, Table.written_dirty, Table.setDirty, if_neg hne]
    rfl
  have hsettled := deliverEvent_settled reg tick.tenant tick.now envs tick.session ev
  refine ⟨hI.rows, hI.fresh, fun u tick' hu => ?_, fun u hu e => ?_⟩
  · rcases update_cases hu with ⟨rfl, htick⟩ | ⟨hut, hu⟩
    · obtain rfl := Option.some.inj htick
      refine ⟨fun e he => ?_, fun e he => ?_, hnodup.2, fun x hx => ?_⟩
      · rw [Table.written_lock, hsame] at he
        by_cases hee : e = ev.id
        · subst hee
          obtain ⟨ev₀, ev', hrow₀, hrow, hpend₀, -, hadv, hacc⟩ := hT.held _ he
          obtain rfl := Option.some.inj (hrow.symm.trans hvis)
          refine ⟨ev₀, _, hrow₀, Table.visible_of_dirty (Table.setDirty_self ..), hpend₀,
            hsettled.id, hadv.attempt hpend₀ hsettled, ?_⟩
          have hnext := hacc.attempt (a := ⟨tick.tenant, envs, attemptRun reg tick.tenant
            envs tick.session.seen ev'.eventType ev'.payload⟩) hpend hsettled hten.symm
            ⟨_, rfl⟩
          rw [valuesOf_append, deliverEvent_session]
          convert hnext using 1
          · simp [valuesOf]
          · rw [List.append_assoc, Session.nested]
            split <;> simp [valuesOf_map_self]
        · rw [Table.written_rows, hframe (fun h => hee h.2), deliverEvent_session,
            valuesOf_append]
          convert hT.held e he using 1
          · simp [valuesOf, Ne.symm hee]
          · rw [Session.nested]
            split <;> simp [valuesOf_map_of_ne (Ne.symm hee)]
      · rw [Table.written_lock, hsame] at he
        have hee : ev.id ≠ e := fun h => he (h ▸ hlock)
        rw [valuesOf_append, deliverEvent_session, (hT.foreign e he).1, Session.nested]
        refine ⟨by simp [valuesOf, hee], ?_⟩
        split <;> simp [valuesOf_map_of_ne hee, (hT.foreign e he).2]
      · rw [Table.written_lock, hsame, hframe (fun h => hnodup.1 x hx h.2)]
        exact hT.todo_held x (htodo ▸ List.mem_cons_of_mem _ hx)
    · exact (hI.ticks u tick' hu).frame (Table.written_sameFor hut hk) fun _ _ => ⟨rfl, rfl⟩
  · obtain ⟨-, hu⟩ := old_of_update hu (Option.some_ne_none _)
    rw [Table.written_lock, hsame]
    exact hI.idle u hu e

/-- And for everybody once the tick commits. -/
theorem Inv.commit (hI : Inv reg s) {t survives : Nat} (h : s.commit t survives = some s') :
    Inv reg s' := by
  obtain ⟨tick, ht, -, rfl⟩ := commit_eq_some h
  have hT := hI.ticks t tick ht
  refine ⟨fun e ev hev => ?_, fun e he => ?_, fun u tick' hu => ?_, fun u hu e hl => ?_⟩
  · rw [Table.commit_rows] at hev
    rw [valuesOf_append, valuesOf_append]
    by_cases hl : s.outbox.lock e = some t
    · obtain ⟨ev₀, ev', -, hrow, -, hid, -, hacc⟩ := hT.held e hl
      obtain rfl := Option.some.inj (hrow.symm.trans hev)
      exact ⟨hid, hacc⟩
    · rw [(hT.foreign e hl).1, (hT.foreign e hl).2, List.append_nil, List.append_nil]
      exact hI.rows e ev (Table.visible_of_unlocked hl ▸ hev)
  · have hl : s.outbox.lock e ≠ some t := fun hl => he (s.outbox.lock_keys hl)
    rw [valuesOf_append, valuesOf_append, (hT.foreign e hl).1, (hT.foreign e hl).2,
      List.append_nil, List.append_nil]
    exact hI.fresh e he
  · obtain ⟨hut, hu⟩ := old_of_update hu nofun
    refine (hI.ticks u tick' hu).frame (Table.commit_sameFor hut) fun e he => ?_
    -- What `u` has locked is foreign to `t`.
    have hne : s.outbox.lock e ≠ some t := fun hl =>
      hut (Option.some.inj (he.symm.trans hl))
    rw [valuesOf_append, valuesOf_append, (hT.foreign e hne).1, (hT.foreign e hne).2,
      List.append_nil, List.append_nil]
    exact ⟨rfl, rfl⟩
  · rw [Table.commit_lock] at hl
    rcases update_cases hu with ⟨hut, -⟩ | ⟨-, hu⟩
    · exact hl.1 hut
    · exact hI.idle u hu e hl.2

theorem Inv.abort (hI : Inv reg s) {t : Nat} (h : s.abort t = some s') : Inv reg s' := by
  obtain ⟨tick, ht, rfl⟩ := abort_eq_some h
  refine ⟨hI.rows, hI.fresh, fun u tick' hu => ?_, fun u hu e hl => ?_⟩
  · obtain ⟨hut, hu⟩ := old_of_update hu nofun
    exact (hI.ticks u tick' hu).frame (Table.rollback_sameFor hut) fun _ _ => ⟨rfl, rfl⟩
  · rw [Table.rollback_lock] at hl
    rcases update_cases hu with ⟨hut, -⟩ | ⟨-, hu⟩
    · exact hl.1 hut
    · exact hI.idle u hu e hl.2

/-- One step keeps the invariant. -/
theorem Inv.step (hI : Inv reg s) (l : Label E) (h : Relay.step reg s l = some s') :
    Inv reg s' := by
  cases l with
  | emit tenant eventType payload id now => exact hI.emit h
  | claim t tenant now => exact hI.claim h
  | deliver t envs => exact hI.deliver h
  | commit t survives => exact hI.commit h
  | abort t => exact hI.abort h

end Preservation

theorem inv_inductive (reg : Registry E W C) :
    (relay reg).Inductive (fun _ _ => True) (Inv reg) where
  init := by
    rintro _ rfl
    exact inv_empty
  step _ l _ hI _ hst := hI.step l hst

/-! ### Every run of the relay -/

section Runs

variable {reg : Registry E W C} {s s' : State E W C}

/-- The row of every event accounts for all attempts made on it, in every state of every
run. -/
theorem accounted (h : (relay reg).Reachable s) {e : Uuid} {ev : OutboxEvent}
    (hev : s.outbox.rows e = some ev) :
    Accounted reg ev (valuesOf e s.log) (valuesOf e s.effects) :=
  (((inv_inductive reg).always h).rows e ev hev).2

/-- Rows never vanish, and a step changes a row only by settling or retrying an event that
was pending: `delivered` and `failed` are terminal. -/
theorem advances (h : (relay reg).Reachable s) {l : Label E}
    (hst : step reg s l = some s') {e : Uuid} {ev : OutboxEvent}
    (hev : s.outbox.rows e = some ev) :
    ∃ ev', s'.outbox.rows e = some ev' ∧ Advances ev ev' := by
  have hI := (inv_inductive reg).always h
  cases l with
  | emit tenant eventType payload id now =>
    obtain ⟨hk, rfl⟩ := emit_eq_some hst
    have hne : e ≠ id := fun he => hk (he ▸ s.outbox.rows_keys hev)
    exact ⟨ev, (Function.update_of_ne hne ..).trans hev, .inl rfl⟩
  | claim t tenant now =>
    obtain ⟨-, rfl⟩ := claim_eq_some hst
    exact ⟨ev, hev, .inl rfl⟩
  | deliver t envs =>
    obtain ⟨tick, ev', rest, hk, -, -, rfl⟩ := deliver_eq_some hst
    exact ⟨ev, hev, .inl rfl⟩
  | commit t survives =>
    obtain ⟨tick, ht, -, rfl⟩ := commit_eq_some hst
    -- A commit changes the rows its worker holds, and no other.
    by_cases hl : s.outbox.lock e = some t
    · obtain ⟨ev₀, ev', hrow₀, hrow, -, -, hadv, -⟩ := (hI.ticks t tick ht).held e hl
      obtain rfl := Option.some.inj (hrow₀.symm.trans hev)
      exact ⟨ev', hrow, hadv⟩
    · exact ⟨ev, (Table.visible_of_unlocked hl).trans hev, .inl rfl⟩
  | abort t =>
    obtain ⟨tick, -, rfl⟩ := abort_eq_some hst
    exact ⟨ev, hev, .inl rfl⟩

/-- Delivering the batch of an open tick one event at a time computes `drainOutbox`: the
tick ends with the drain's session, and sees the drain's rows. -/
theorem run_deliver (t : Nat) (envs : Uuid → Nat → E) (batch : List OutboxEvent) :
    ∀ {s : State E W C} {tick : Tick E W C} (d : Drain W C), Inv reg s →
      s.ticks t = some tick → tick.todo = batch → d.session = tick.session →
      ∃ s' tick' rows,
        (relay reg).run s (batch.map fun ev => .deliver t (envs ev.id)) = some s' ∧
        s'.ticks t = some tick' ∧ tick'.todo = [] ∧
        tick'.session =
          (batch.foldl (Drain.next reg tick.tenant tick.now envs) d).session ∧
        (batch.foldl (Drain.next reg tick.tenant tick.now envs) d).rows = d.rows ++ rows ∧
        batch.map (fun ev => s'.outbox.visible t ev.id) = rows.map some ∧
        ∀ e, e ∉ batch.map (·.id) → s'.outbox.visible t e = s.outbox.visible t e := by
  induction batch with
  | nil =>
    intro s tick d _ ht htodo hd
    exact ⟨s, tick, [], rfl, ht, htodo, hd.symm, by simp, rfl, fun _ _ => rfl⟩
  | cons ev batch ih =>
    intro s tick d hI ht htodo hd
    have hT := hI.ticks t tick ht
    obtain ⟨hlock, -, -, -⟩ := hT.todo_held ev (htodo ▸ List.mem_cons_self)
    have hnodup : (∀ x ∈ batch, x.id ≠ ev.id) ∧ (batch.map (·.id)).Nodup := by
      simpa [htodo] using hT.todo_nodup
    have hk : ev.id ∈ s.outbox.keys ∧ s.outbox.Free t ev.id :=
      ⟨s.outbox.lock_keys hlock, .inr hlock⟩
    obtain ⟨s₁, hstep⟩ : ∃ s₁, s.deliver reg t (envs ev.id) = some s₁ := by
      simp only [State.deliver, ht, htodo, Table.write, dif_pos hk, Option.map_some]
      exact ⟨_, rfl⟩
    have hI₁ := hI.deliver hstep
    obtain ⟨tick₁, ev₁, rest₁, hk₁, ht₁, htodo₁, hs₁⟩ := deliver_eq_some hstep
    obtain rfl := Option.some.inj (ht₁.symm.trans ht)
    obtain ⟨rfl, rfl⟩ := List.cons.inj (htodo₁.symm.trans htodo)
    have hd₁ : (Drain.next reg tick₁.tenant tick₁.now envs d ev₁).session =
        (deliverEvent reg tick₁.tenant tick₁.now (envs ev₁.id) tick₁.session ev₁).2 := by
      rw [← hd]
      rfl
    -- The rest of the batch is drained from the state this leaves.
    obtain ⟨s', tick', rows, hrun, ht', htodo', hsess, hrows, hvis, hframe⟩ :=
      ih (s := s₁) (Drain.next reg tick₁.tenant tick₁.now envs d ev₁) hI₁
        (by rw [hs₁]; exact Function.update_self ..) rfl hd₁
    refine ⟨s', tick', (deliverEvent reg tick₁.tenant tick₁.now (envs ev₁.id) tick₁.session
      ev₁).1 :: rows, ?_, ht', htodo', hsess, ?_, ?_, fun e he => ?_⟩
    · show (s.deliver reg t (envs ev₁.id)).bind _ = _
      rw [hstep]
      exact hrun
    · rw [List.foldl_cons, hrows]
      simp [Drain.next, hd]
    · -- The row stays as it is while the others are delivered: no event is twice in the batch.
      have hev : ev₁.id ∉ rest₁.map (·.id) := by
        simpa using hnodup.1
      rw [List.map_cons, List.map_cons, hvis, hframe _ hev, hs₁]
      exact congrArg (· :: _) (Table.visible_of_dirty (Table.setDirty_self ..))
    · rw [List.map_cons, List.mem_cons, not_or] at he
      rw [hframe e he.2, hs₁]
      show ((Table.setDirty s.outbox.dirty t ev₁.id _) t e).getD _ = _
      rw [Table.setDirty_of_ne_key he.1]
      rfl

end Runs

end Relay

end Core

end RealEstate
