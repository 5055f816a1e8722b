import RealEstate.Core.Relay

/-!
# Which post-commit callbacks the relay runs (`core/database.py`, `workers/db.py`)

Handlers queue external effects with `on_commit`: callbacks kept in
`session.info` and run once the tick's transaction has committed. A savepoint
rollback undoes an attempt's rows and leaves its callbacks in place.

- `CallbacksOfDelivered`: only callbacks of delivered attempts ran, each once.
- `DeliversQuietly`: the step delivers an event whose attempt, if it raises, has
  not registered a callback.
- `callbacks_of_delivered`: runs of such steps only reach states with
  `CallbacksOfDelivered`.
-/

namespace RealEstate

namespace Core

namespace Relay

open Systems Events Tenants
open Machine (update_cases old_of_update)

variable {E W C : Type}

/-- No attempt that raises has registered a callback: the condition on a step. -/
def DeliversQuietly (reg : Registry E W C) (s : State E W C) : Label E → Prop
  | .deliver t envs =>
    match s.ticks t with
    | some { tenant, todo := ev :: _, session, .. } =>
      let r := attemptRun reg tenant envs session.seen ev.eventType ev.payload
      r.raised.isNone ∨ r.callbacks.isEmpty
    | _ => True
  | _ => True

/-- By cases of the label. -/
instance (reg : Registry E W C) (s : State E W C) (l : Label E) :
    Decidable (DeliversQuietly reg s l) := by
  unfold DeliversQuietly
  split
  · split <;> infer_instance
  · infer_instance

/-- The callbacks of the attempts that did not raise. -/
def keptCallbacks (tries : List (Attempt E W C)) : List C :=
  tries.flatMap fun a => if a.run.raised.isNone then a.run.callbacks else []

/-- Callbacks are kept attempt by attempt. -/
@[simp] theorem keptCallbacks_append (as bs : List (Attempt E W C)) :
    keptCallbacks (as ++ bs) = keptCallbacks as ++ keptCallbacks bs :=
  List.flatMap_append ..

/-- An attempt that raises keeps none. -/
theorem keptCallbacks_raised {tries : List (Attempt E W C)}
    (h : ∀ a ∈ tries, a.run.raised ≠ none) : keptCallbacks tries = [] := by
  rw [keptCallbacks, List.flatMap_eq_nil_iff]
  intro a ha
  rw [if_neg]
  rw [Option.isNone_iff_eq_none]
  exact h a ha

/-- The attempt a callback was registered in: it is logged and it did not raise. -/
def Registered (log : List (Effect (Attempt E W C))) (c : Effect C) : Prop :=
  ∃ a ∈ log, a.event = c.event ∧ a.attempt = c.attempt ∧ a.value.run.raised = none ∧
    c.value ∈ a.value.run.callbacks

theorem Registered.mono {log log' : List (Effect (Attempt E W C))} {c : Effect C}
    (h : Registered log c) (hsub : ∀ a ∈ log, a ∈ log') : Registered log' c := by
  obtain ⟨a, ha, hrest⟩ := h
  exact ⟨a, hsub a ha, hrest⟩

/-- Callbacks, those that ran and those a tick still holds, come from attempts that did
not raise, in order. -/
structure CallbackInv (s : State E W C) : Prop where
  ran : ∀ c ∈ s.ran, Registered s.log c
  ran_prefix : ∀ e, valuesOf e s.ran <+: keptCallbacks (valuesOf e s.log)
  ticks : ∀ t tick, s.ticks t = some tick →
    (∀ c ∈ tick.session.callbacks, Registered tick.log c) ∧
      ∀ e, valuesOf e tick.session.callbacks = keptCallbacks (valuesOf e tick.log)

section Callbacks

variable {reg : Registry E W C} {s s' : State E W C}

theorem CallbackInv.deliver (hC : CallbackInv s) {t : Nat} {envs : Nat → E}
    (hq : DeliversQuietly reg s (.deliver t envs))
    (h : s.deliver reg t envs = some s') : CallbackInv s' := by
  obtain ⟨tick, ev, rest, hk, ht, htodo, rfl⟩ := deliver_eq_some h
  refine ⟨hC.ran, hC.ran_prefix, fun u tick' hu => ?_⟩
  rcases update_cases hu with ⟨rfl, htick⟩ | ⟨-, hu⟩
  · obtain rfl := Option.some.inj htick
    obtain ⟨tenant, now, todo, session, log⟩ := tick
    obtain rfl : todo = ev :: rest := htodo
    obtain ⟨hreg, hkept⟩ := hC.ticks u _ ht
    simp only [DeliversQuietly, ht] at hq
    rw [deliverEvent_session]
    generalize attemptRun reg tenant envs session.seen ev.eventType ev.payload = r at hq ⊢
    refine ⟨fun c hc => ?_, fun e => ?_⟩
    · -- Callbacks of this attempt: it has not raised, or has registered none.
      rcases List.mem_append.mp hc with hc | hc
      · exact (hreg c hc).mono fun a ha => List.mem_append_left _ ha
      · obtain ⟨v, hv, rfl⟩ := List.mem_map.mp hc
        refine ⟨_, List.mem_append_right _ List.mem_cons_self, rfl, rfl, ?_, hv⟩
        rcases hq with hq | hq
        · exact Option.isNone_iff_eq_none.mp hq
        · rw [List.isEmpty_iff.mp hq] at hv
          cases hv
    · show valuesOf e (session.callbacks ++ r.callbacks.map _) = _
      rw [valuesOf_append, valuesOf_append, keptCallbacks_append, ← hkept e]
      congr 1
      by_cases he : ev.id = e
      · subst he
        rw [valuesOf_map_self]
        rcases hq with hq | hq
        · simp [valuesOf, keptCallbacks, Option.isNone_iff_eq_none.mp hq]
        · simp [valuesOf, keptCallbacks, List.isEmpty_iff.mp hq]
      · rw [valuesOf_map_of_ne he]
        simp [valuesOf, keptCallbacks, he]
  · exact hC.ticks u tick' hu

theorem CallbackInv.commit (hI : Inv reg s) (hC : CallbackInv s) {t survives : Nat}
    (h : s.commit t survives = some s') : CallbackInv s' := by
  obtain ⟨tick, ht, -, rfl⟩ := commit_eq_some h
  have hT := hI.ticks t tick ht
  obtain ⟨hreg, hkept⟩ := hC.ticks t tick ht
  refine ⟨fun c hc => ?_, fun e => ?_, fun u tick' hu => ?_⟩
  · rcases List.mem_append.mp hc with hc | hc
    · exact (hC.ran c hc).mono fun a ha => List.mem_append_left _ ha
    · exact (hreg c (List.mem_of_mem_take hc)).mono fun a ha => List.mem_append_right _ ha
  · have htake : valuesOf e (tick.session.callbacks.take survives) <+:
        keptCallbacks (valuesOf e tick.log) := by
      rw [← hkept e]
      exact ((List.take_prefix ..).filter _).map _
    rw [valuesOf_append, valuesOf_append, keptCallbacks_append]
    by_cases hl : s.outbox.lock e = some t
    · -- The committed row is pending, so none of its logged attempts kept a callback.
      obtain ⟨ev₀, -, hrow₀, -, hpend, -⟩ := hT.held e hl
      have hnone := keptCallbacks_raised
        ((hI.rows e ev₀ hrow₀).2.unsettled (by rw [hpend]; decide)).1
      have hran := hC.ran_prefix e
      rw [hnone, List.prefix_nil] at hran
      rw [hnone, hran]
      exact htake
    · rw [(hT.foreign e hl).1] at htake ⊢
      -- A tick that does not hold the row has attempted nothing of it.
      rw [show keptCallbacks ([] : List (Attempt E W C)) = [] from rfl, List.prefix_nil]
        at htake
      rw [htake, List.append_nil]
      exact (hC.ran_prefix e).trans (List.prefix_append ..)
  · exact hC.ticks u tick' (old_of_update hu nofun).2

/-- One step keeps the invariant. -/
theorem CallbackInv.step (hI : Inv reg s) (hC : CallbackInv s) {l : Label E}
    (hq : DeliversQuietly reg s l) (h : Relay.step reg s l = some s') : CallbackInv s' := by
  cases l with
  | emit tenant eventType payload id now =>
    obtain ⟨hk, rfl⟩ := emit_eq_some h
    exact ⟨hC.ran, hC.ran_prefix, hC.ticks⟩
  | claim t tenant now =>
    obtain ⟨-, rfl⟩ := claim_eq_some h
    refine ⟨hC.ran, hC.ran_prefix, fun u tick hu => ?_⟩
    rcases update_cases hu with ⟨-, htick⟩ | ⟨-, hu⟩
    · obtain rfl := Option.some.inj htick
      exact ⟨by simp, fun e => rfl⟩
    · exact hC.ticks u tick hu
  | deliver t envs => exact hC.deliver hq h
  | commit t survives => exact hC.commit hI h
  | abort t =>
    obtain ⟨tick, -, rfl⟩ := abort_eq_some h
    refine ⟨hC.ran, hC.ran_prefix, fun u tick hu => ?_⟩
    exact hC.ticks u tick (old_of_update hu nofun).2

/-- In every state that such a run reaches. -/
theorem callbackInv (h : (relay reg).ReachVia (DeliversQuietly reg) s) : CallbackInv s := by
  refine Machine.ReachVia.relative (J := Inv reg) (fun s hs =>
    (inv_inductive reg).always hs.reachable) ?_ ?_ h
  · rintro _ rfl
    exact ⟨by simp [State.empty], fun e => List.nil_prefix, fun t tick ht => nomatch ht⟩
  · exact fun s l t hI _ hC hq hst => hC.step hI hq hst

/-- Every callback that ran was registered by an attempt that did not raise; an event that
is not delivered has had no callback run, and a delivered one at most those of its last
attempt, each at most once. -/
def CallbacksOfDelivered (s : State E W C) : Prop :=
  (∀ c ∈ s.ran, Registered s.log c) ∧
    ∀ e ev, s.outbox.rows e = some ev →
      (ev.status ≠ .delivered → valuesOf e s.ran = []) ∧
      (ev.status = .delivered → ∃ earlier last, valuesOf e s.log = earlier ++ [last] ∧
        (∀ a ∈ earlier, a.run.raised ≠ none) ∧ valuesOf e s.ran <+: last.run.callbacks)

/-- **If no handler raises after it has registered a callback, the callbacks that run are those of
delivered events.** -/
theorem callbacks_of_delivered (h : (relay reg).ReachVia (DeliversQuietly reg) s) :
    CallbacksOfDelivered s := by
  have hC := callbackInv h
  refine ⟨hC.ran, fun e ev hev => ?_⟩
  have hacc := accounted h.reachable hev
  have hpre := hC.ran_prefix e
  refine ⟨fun hst => ?_, fun hst => ?_⟩
  · rw [keptCallbacks_raised (hacc.unsettled hst).1, List.prefix_nil] at hpre
    exact hpre
  · obtain ⟨earlier, last, htries, hearlier, hlast, -⟩ := hacc.delivered hst
    refine ⟨earlier, last, htries, hearlier, ?_⟩
    rw [htries, keptCallbacks_append, keptCallbacks_raised hearlier] at hpre
    simpa [keptCallbacks, hlast] using hpre

end Callbacks

end Relay

end Core

end RealEstate
