import RealEstate.Systems.Machine
import RealEstate.Systems.Upsert
import RealEstate.Tenants.Lifecycle

/-!
# Deliveries of billing events

`BillingService.handle_webhook`, statement by statement: the insert that records the event,
with its uniqueness on `(provider, event_id)`, and then `_apply`, in one transaction.

- `webhooks`: the machine. A delivery may be rolled back anywhere and sent again.
- `SameEvent`: deliveries that overlap carry the same event.
- `firsts`, `replay`: what should come out: the first committed delivery of each event, applied
  one after the other.
- `applied_once`: it does, and the records are those of the committed deliveries.
-/

namespace RealEstate

namespace Tenants

namespace Deliveries

open RealEstate.Core Systems Function

/-- What `verify_and_parse_webhook` makes of a signed payload. -/
inductive Delivery where
  | verified (event : BillingEvent)
  /-- `UnhandledBillingEvent`; its id is empty when the payload has none. -/
  | unhandled (provider eventId : String)

/-- The member's value. -/
def eventTypeValue : BillingEventType → String
  | .subscriptionActivated => "subscription.activated"
  | .subscriptionRenewed => "subscription.renewed"
  | .paymentFailed => "payment.failed"
  | .subscriptionCanceled => "subscription.canceled"

/-- `(provider, event_id)`. -/
def Delivery.key : Delivery → String × String
  | .verified event => (event.provider, event.eventId)
  | .unhandled provider eventId => (provider, eventId)

/-- The `event_type` of the record, if there is one to insert. -/
def Delivery.record : Delivery → Option String
  | .verified event => some (eventTypeValue event.type)
  | .unhandled _ eventId => if eventId = "" then none else some "unhandled"

/-- Where a delivery's transaction stands. -/
inductive Phase where
  /-- Before `record_billing_event`. -/
  | received (delivery : Delivery)
  /-- The record is inserted, `_apply` is next. -/
  | recorded (event : BillingEvent)
  /-- `_apply` ran at `now` and left `platform`, which nobody else sees yet. -/
  | applied (event : BillingEvent) (now : DateTime) (platform : Platform)
  /-- A replay, or an event without effect. -/
  | settled (delivery : Delivery)

/-- The provider and the event id of the delivery being handled. -/
def Phase.key : Phase → String × String
  | .received delivery | .settled delivery => delivery.key
  | .recorded event | .applied event _ _ => (Delivery.verified event).key

/-- A committed delivery of an event, and when it was handled. -/
structure Handled where
  now : DateTime
  delivery : Delivery

/-- The platform, the recorded events and the requests at work on them. -/
structure State where
  now : DateTime
  platform : Platform
  /-- The types of the `billing_events`. -/
  events : Table (String × String) String Nat
  txns : Nat → Option Phase
  /-- The transactions that have been started. -/
  started : List Nat
  /-- The committed deliveries with a key, the latest first. -/
  commits : List Handled
  /-- The events whose effects were committed. -/
  effects : List (String × String)

/-- A step of a delivery of a webhook. -/
inductive Label where
  | wait (seconds : Nat)
  | receive (t : Nat) (delivery : Delivery)
  | advance (t : Nat)
  | commit (t : Nat)
  | rollback (t : Nat)

section Machine

variable (parseUuid : String → Option Uuid) (settings : LifecycleSettings)

/-- `_apply`, at a moment; an unhandled event has no effect. -/
def Delivery.apply (now : DateTime) (p : Platform) : Delivery → Except AppError Platform
  | .verified event => { p with now }.applyEvent parseUuid settings event
  | .unhandled _ _ => .ok p

namespace State

/-- Transaction `t` goes on with the records as they are. -/
def goes (s : State) (t : Nat) (phase : Phase) : State :=
  { s with txns := update s.txns t (some phase) }

/-- The next statement of transaction `t`; one that raises can only be rolled back. -/
def advance (s : State) (t : Nat) : Phase → Option State
  | .received delivery =>
    match delivery.record with
    | none => some (s.goes t (.settled delivery))
    | some type =>
      (s.events.insertIgnore t delivery.key type).map fun (events, isNew) =>
        { s with events }.goes t <|
          match delivery with
          | .verified event => if isNew then .recorded event else .settled delivery
          | .unhandled _ _ => .settled delivery
  | .recorded event =>
    ((Delivery.verified event).apply parseUuid settings s.now s.platform).toOption.map
      fun platform => s.goes t (.applied event s.now platform)
  | .applied _ _ _ | .settled _ => none

/-- The end of transaction `t`, after `commits`. -/
def ends (s : State) (t : Nat) (commits : List Handled) : State :=
  { s with events := s.events.commit t, txns := update s.txns t none, commits }

/-- The record, the effects and the answer become visible together. -/
def commit (s : State) (t : Nat) : Phase → Option State
  | .received _ | .recorded _ => none
  | .applied event now platform =>
    some { s.ends t (⟨now, .verified event⟩ :: s.commits) with
      platform
      effects := (Delivery.verified event).key :: s.effects }
  | .settled delivery =>
    some (s.ends t
      (if delivery.record.isSome then ⟨s.now, delivery⟩ :: s.commits else s.commits))

/-- Everything the request wrote is undone. -/
def rollback (s : State) (t : Nat) : State :=
  { s with events := s.events.rollback t, txns := update s.txns t none }

/-- The deliveries of the provider. -/
def step (s : State) : Label → Option State
  | .wait seconds => some { s with now := s.now + seconds }
  | .receive t delivery =>
    if (s.txns t).isNone then
      some { s.goes t (.received delivery) with started := t :: s.started }
    else none
  | .advance t => (s.txns t).bind (s.advance parseUuid settings t)
  | .commit t => (s.txns t).bind (s.commit t)
  | .rollback t => some (s.rollback t)

end State

/-- The webhook endpoint, from a platform that has seen no event. -/
def webhooks (start : Platform) : Machine State Label where
  init s := s = ⟨start.now, start, .empty, fun _ => none, [], [], []⟩
  step := State.step parseUuid settings

/-! ### What should come out -/

/-- The first committed delivery of each event, the latest first. -/
def firsts : List Handled → List Handled
  | [] => []
  | c :: older =>
    if c.delivery.key ∈ older.map (·.delivery.key) then firsts older else c :: firsts older

/-- Apply deliveries one after the other, each at its time. -/
def replay (start : Platform) : List Handled → Except AppError Platform
  | [] => .ok start
  | c :: older => (replay start older).bind fun p => c.delivery.apply parseUuid settings c.now p

end Machine

/-- A delivery that arrives while others are under way carries the same event. -/
def SameEvent (s : State) : Label → Prop
  | .receive _ delivery =>
    ∀ u ∈ s.started, ∀ phase ∈ s.txns u, phase.key = delivery.key
  | _ => True

/-- Whether a delivery repeats the event at work is decided by the keys. -/
instance (s : State) : ∀ l, Decidable (SameEvent s l)
  | .receive _ _ => inferInstanceAs (Decidable (∀ u ∈ s.started, ∀ phase ∈ s.txns u, _))
  | .wait _ | .advance _ | .commit _ | .rollback _ => inferInstanceAs (Decidable True)

/-! ### Records and transactions -/

/-- `billing_events`, unique by provider and event id. -/
abbrev Events := Table (String × String) String Nat

/-- Transaction `t` has inserted nothing. -/
def Clean (events : Events) (t : Nat) : Prop := ∀ key, events.dirty t key = none

/-- Transaction `t` has inserted the record of `key`, and it is the first. -/
structure Owns (events : Events) (t : Nat) (key : String × String) : Prop where
  first : events.rows key = none
  record : ∃ type, events.dirty t key = some (some type)
  rest : ∀ other, other ≠ key → events.dirty t other = none

section Sound

variable (parseUuid : String → Option Uuid) (settings : LifecycleSettings)

/-- What an open transaction has inserted and computed. -/
def Phase.Sound (platform : Platform) (events : Events) (t : Nat) : Phase → Prop
  | .received _ => Clean events t
  | .recorded event => Owns events t (Delivery.verified event).key
  | .applied event now left =>
    Owns events t (Delivery.verified event).key ∧
      (Delivery.verified event).apply parseUuid settings now platform = .ok left
  | .settled delivery =>
    (Clean events t ∧
        (delivery.record.isSome → (events.rows delivery.key).isSome)) ∨
      (Owns events t delivery.key ∧ delivery.record.isSome ∧
        ∀ now p, delivery.apply parseUuid settings now p = .ok p)

/-- A transaction between deliveries has inserted nothing. -/
def State.Sound (s : State) (t : Nat) : Prop :=
  (s.txns t).elim (Clean s.events t) (Phase.Sound parseUuid settings s.platform s.events t)

/-- The keys of the committed deliveries. -/
def State.handled (s : State) : List (String × String) := s.commits.map (·.delivery.key)

/-- The committed events, each once and in order, make the platform of now. -/
structure Inv (start : Platform) (s : State) : Prop where
  same : ∀ {t u p q}, s.txns t = some p → s.txns u = some q → p.key = q.key
  known : ∀ {t p}, s.txns t = some p → t ∈ s.started
  outcome : replay parseUuid settings start (firsts s.commits) = .ok s.platform
  records : ∀ key, (s.events.rows key).isSome ↔ key ∈ s.handled
  effects : s.effects.Nodup
  effects_handled : ∀ key ∈ s.effects, key ∈ s.handled
  sound : ∀ t, s.Sound parseUuid settings t

end Sound

section Frames

variable {parseUuid : String → Option Uuid} {settings : LifecycleSettings} {start : Platform}
  {s s' : State} {t u : Nat} {platform platform' : Platform} {events events' : Events}
  {phase : Phase}

/-- A request has written nothing, or it holds its event's row. -/
theorem Phase.Sound.clean_or_owns (h : phase.Sound parseUuid settings platform events t) :
    Clean events t ∨ Owns events t phase.key := by
  cases phase with
  | received delivery => exact .inl h
  | recorded event => exact .inr h
  | applied event now left => exact .inr h.1
  | settled delivery =>
    rcases h with ⟨hclean, -⟩ | ⟨howns, -⟩
    · exact .inl hclean
    · exact .inr howns

/-- What others do leaves a clean request clean. -/
theorem Clean.frame (h : Clean events t) (hevents : Table.SameFor t events events') :
    Clean events' t :=
  fun key => (hevents.dirty key).trans (h key)

/-- And leaves an owner its row. -/
theorem Owns.frame {key : String × String} (h : Owns events t key)
    (hevents : Table.SameFor t events events') : Owns events' t key := by
  obtain ⟨type, hrecord⟩ := h.record
  constructor
  · rw [hevents.rows key (events.dirty_lock hrecord)]
    exact h.first
  · exact ⟨type, (hevents.dirty key).trans hrecord⟩
  · intro other hne
    exact (hevents.dirty other).trans (h.rest other hne)

/-- Whoever has inserted nothing does not mind the platform changing. -/
theorem Phase.Sound.frame (h : phase.Sound parseUuid settings platform events t)
    (hevents : Table.SameFor t events events')
    (hkept : ∀ key, (events.rows key).isSome → (events'.rows key).isSome)
    (hplatform : platform' = platform ∨ Clean events t) :
    phase.Sound parseUuid settings platform' events' t := by
  cases phase with
  | received delivery => exact Clean.frame h hevents
  | recorded event => exact Owns.frame h hevents
  | applied event now left =>
    refine ⟨h.1.frame hevents, ?_⟩
    rcases hplatform with rfl | hclean
    · exact h.2
    · obtain ⟨type, hrecord⟩ := h.1.record
      rw [hclean] at hrecord
      cases hrecord
  | settled delivery =>
    rcases h with ⟨hclean, hseen⟩ | ⟨howns, hinert⟩
    · exact .inl ⟨hclean.frame hevents, fun hrecord => hkept _ (hseen hrecord)⟩
    · exact .inr ⟨howns.frame hevents, hinert⟩

/-- Only one transaction at a time has inserted the record of an event. -/
theorem Owns.unique {key : String × String} (h : Owns events t key) (h' : Owns events u key) :
    t = u := by
  obtain ⟨type, hrecord⟩ := h.record
  obtain ⟨type', hrecord'⟩ := h'.record
  exact Table.dirty_unique hrecord hrecord'

/-- What holds of a request at work. -/
theorem State.sound_iff_phase (hphase : s.txns t = some phase) :
    s.Sound parseUuid settings t ↔
      phase.Sound parseUuid settings s.platform s.events t := by
  unfold State.Sound
  rw [hphase]
  exact Iff.rfl

/-- What holds of an idle one. -/
theorem State.sound_iff_clean (hidle : s.txns t = none) :
    s.Sound parseUuid settings t ↔ Clean s.events t := by
  unfold State.Sound
  rw [hidle]
  exact Iff.rfl

/-- A request at work is sound. -/
theorem Inv.opened (h : Inv parseUuid settings start s) (hphase : s.txns t = some phase) :
    phase.Sound parseUuid settings s.platform s.events t :=
  (State.sound_iff_phase hphase).mp (h.sound t)

theorem Inv.clean (h : Inv parseUuid settings start s) (hidle : s.txns t = none) :
    Clean s.events t :=
  (State.sound_iff_clean hidle).mp (h.sound t)

/-- In a step of transaction `t`, the others stay as they are. -/
theorem Inv.sound_of_step (h : Inv parseUuid settings start s)
    (hevents : ∀ u, u ≠ t → Table.SameFor u s.events s'.events)
    (hkept : ∀ key, (s.events.rows key).isSome → (s'.events.rows key).isSome)
    (hplatform : ∀ u, u ≠ t → s'.platform = s.platform ∨ Clean s.events u)
    (htxns : ∀ u, u ≠ t → s'.txns u = s.txns u) (hown : s'.Sound parseUuid settings t) :
    ∀ u, s'.Sound parseUuid settings u := by
  intro u
  by_cases hu : u = t
  · exact hu ▸ hown
  · cases hphase : s.txns u with
    | none =>
      exact (State.sound_iff_clean ((htxns u hu).trans hphase)).mpr
        ((h.clean hphase).frame (hevents u hu))
    | some phase =>
      exact (State.sound_iff_phase ((htxns u hu).trans hphase)).mpr
        ((h.opened hphase).frame (hevents u hu) hkept (hplatform u hu))

/-- What a commit publishes. -/
theorem Owns.visible {key : String × String} (h : Owns events t key) (other : String × String) :
    (events.visible t other).isSome ↔ other = key ∨ (events.rows other).isSome := by
  obtain ⟨type, hrecord⟩ := h.record
  by_cases hother : other = key
  · subst hother
    rw [Table.visible_of_dirty hrecord]
    exact iff_of_true rfl (.inl rfl)
  · rw [Table.visible_of_clean (h.rest other hother), or_iff_right hother]

/-- The insert of a record met none, so that nothing else was inserted. -/
theorem Clean.owns {key : String × String} {type : String} (h : Clean events t)
    (hnone : events.visible t key = none)
    (hwrote : Table.Wrote t key (some type) events events') : Owns events' t key where
  first := by
    rw [hwrote.rows, ← Table.visible_of_clean (h key)]
    exact hnone
  record := ⟨type, hwrote.self⟩
  rest other hother := (hwrote.rest other hother).trans (h other)

/-! ### Steps -/

/-- A transaction goes on, and publishes nothing. -/
theorem Inv.goes {q : Phase} (h : Inv parseUuid settings start s)
    (hphase : s.txns t = some phase) (hkey : q.key = phase.key)
    (hevents : ∀ u, u ≠ t → Table.SameFor u s.events events) (hrows : events.rows = s.events.rows)
    (hown : q.Sound parseUuid settings s.platform events t) :
    Inv parseUuid settings start ({ s with events }.goes t q) where
  same {u v p p'} hu hv := by
    rcases Machine.update_cases hu with ⟨rfl, hp⟩ | ⟨-, hu'⟩ <;>
      rcases Machine.update_cases hv with ⟨rfl, hp'⟩ | ⟨-, hv'⟩
    · exact congrArg Phase.key (Option.some.inj (hp.symm.trans hp'))
    · rw [← Option.some.inj hp, hkey]
      exact h.same hphase hv'
    · rw [← Option.some.inj hp', hkey]
      exact h.same hu' hphase
    · exact h.same hu' hv'
  known {u p} hu := by
    rcases Machine.update_cases hu with ⟨rfl, -⟩ | ⟨-, hu⟩
    · exact h.known hphase
    · exact h.known hu
  outcome := h.outcome
  records key := by
    show (events.rows key).isSome ↔ _
    rw [hrows]
    exact h.records key
  effects := h.effects
  effects_handled := h.effects_handled
  sound := by
    refine h.sound_of_step hevents (fun key hkey => ?_) (fun _ _ => .inl rfl)
      (fun u hu => update_of_ne hu ..)
      ((State.sound_iff_phase (s := { s with events }.goes t q) (update_self ..)).mpr hown)
    show (events.rows key).isSome
    rw [hrows]
    exact hkey

/-- A request goes on: its record, then its effects. -/
theorem Inv.advance (h : Inv parseUuid settings start s) (hphase : s.txns t = some phase)
    (hst : s.advance parseUuid settings t phase = some s') : Inv parseUuid settings start s' := by
  have hsound := h.opened hphase
  cases phase with
  | received delivery =>
    dsimp only [State.advance] at hst
    split at hst
    · next hrecord =>
      -- An unhandled type without a record to write: nothing is inserted.
      cases hst
      refine h.goes hphase rfl (fun u _ => .refl u _) rfl (.inl ⟨hsound, fun hsome => ?_⟩)
      rw [hrecord] at hsome
      cases hsome
    · next type hrecord =>
      obtain ⟨⟨events, isNew⟩, hinsert, rfl⟩ := Option.map_eq_some_iff.mp hst
      rcases Table.insertIgnore_cases hinsert with ⟨rfl, rfl, type', hseen⟩ | ⟨rfl, hnone, hwrote⟩
      · -- A replay: the record it met is committed, since `t` has none of its own.
        have hsettled : Phase.Sound parseUuid settings s.platform s.events t
            (.settled delivery) := by
          refine .inl ⟨hsound, fun _ => ?_⟩
          rw [Table.visible_of_clean (hsound _)] at hseen
          rw [hseen]
          rfl
        cases delivery with
        | verified event => exact h.goes hphase rfl (fun u _ => .refl u _) rfl hsettled
        | unhandled provider eventId =>
          exact h.goes hphase rfl (fun u _ => .refl u _) rfl hsettled
      · -- The insert met nobody's record, so that `t` now owns the first of this event.
        have howns := Clean.owns hsound hnone hwrote
        cases delivery with
        | verified event => exact h.goes hphase rfl hwrote.other hwrote.rows howns
        | unhandled provider eventId =>
          refine h.goes hphase rfl hwrote.other hwrote.rows
            (.inr ⟨howns, ?_, fun _ _ => rfl⟩)
          rw [hrecord]
          rfl
  | recorded event =>
    obtain ⟨left, hleft, rfl⟩ := Option.map_eq_some_iff.mp hst
    exact h.goes hphase rfl (fun u _ => .refl u _) rfl ⟨hsound, toOption_eq_some hleft⟩
  | applied event now left => cases hst
  | settled delivery => cases hst

/-- All requests left are of one event. -/
theorem Inv.same_of_end (h : Inv parseUuid settings start s) {v : Nat} {p q : Phase}
    (hu : update s.txns t none u = some p) (hv : update s.txns t none v = some q) :
    p.key = q.key :=
  h.same (Machine.old_of_update hu nofun).2 (Machine.old_of_update hv nofun).2

theorem Inv.known_of_end (h : Inv parseUuid settings start s) {p : Phase}
    (hu : update s.txns t none u = some p) : u ∈ s.started :=
  h.known (Machine.old_of_update hu nofun).2

/-- A transaction commits what it has inserted and computed. -/
theorem Inv.ends {commits : List Handled} {effects : List (String × String)}
    (h : Inv parseUuid settings start s)
    (houtcome : replay parseUuid settings start (firsts commits) = .ok platform)
    (hrecords : ∀ key, (s.events.visible t key).isSome ↔ key ∈ commits.map (·.delivery.key))
    (hkept : ∀ key ∈ s.handled, key ∈ commits.map (·.delivery.key))
    (hplatform : ∀ u, u ≠ t → platform = s.platform ∨ Clean s.events u)
    (hnodup : effects.Nodup) (hhandled : ∀ key ∈ effects, key ∈ commits.map (·.delivery.key)) :
    Inv parseUuid settings start { s.ends t commits with platform, effects } where
  same := h.same_of_end
  known := h.known_of_end
  outcome := houtcome
  records := hrecords
  effects := hnodup
  effects_handled := hhandled
  sound := by
    refine h.sound_of_step (fun u hu => Table.commit_sameFor hu) (fun key hkey => ?_) hplatform
      (fun u hu => update_of_ne hu ..) ((State.sound_iff_clean (update_self ..)).mpr
        fun _ => if_pos rfl)
    exact (hrecords key).mpr (hkept key ((h.records key).mp hkey))

/-- The first record of an event is published with its delivery. -/
theorem Inv.records_of_owns {c : Handled} (h : Inv parseUuid settings start s)
    (howns : Owns s.events t c.delivery.key) (key : String × String) :
    (s.events.visible t key).isSome ↔ key ∈ (c :: s.commits).map (·.delivery.key) := by
  rw [howns.visible, h.records, List.map_cons, List.mem_cons]
  exact Iff.rfl

/-- The delivery that inserted the record of its event is the first of it. -/
theorem Inv.firsts_of_owns {c : Handled} (h : Inv parseUuid settings start s)
    (howns : Owns s.events t c.delivery.key) :
    c.delivery.key ∉ s.handled ∧ firsts (c :: s.commits) = c :: firsts s.commits := by
  have hnew : c.delivery.key ∉ s.handled := by
    rw [← h.records, howns.first]
    exact Bool.false_ne_true
  exact ⟨hnew, if_neg hnew⟩

/-- A first delivery commits: its event is the next of the history. -/
theorem Inv.commit_applied {event : BillingEvent} {now : DateTime} {left : Platform}
    (h : Inv parseUuid settings start s) (hphase : s.txns t = some (.applied event now left)) :
    Inv parseUuid settings start
      { s.ends t (⟨now, .verified event⟩ :: s.commits) with
        platform := left
        effects := (Delivery.verified event).key :: s.effects } := by
  obtain ⟨howns, hleft⟩ := h.opened hphase
  obtain ⟨hnew, hfirsts⟩ := h.firsts_of_owns (c := ⟨now, .verified event⟩) howns
  refine h.ends ?_ (h.records_of_owns howns) (fun key hkey => List.mem_cons_of_mem _ hkey)
    (fun u hu => .inr ?_) ?_ fun key hkey => ?_
  · rw [hfirsts, replay, h.outcome]
    exact hleft
  · -- Another delivery under way is of the same event, and has not recorded it.
    cases hother : s.txns u with
    | none => exact h.clean hother
    | some other =>
      rcases (h.opened hother).clean_or_owns with hclean | howns'
      · exact hclean
      · rw [h.same hother hphase] at howns'
        exact absurd (howns'.unique howns) hu
  · exact List.nodup_cons.mpr ⟨fun hmem => hnew (h.effects_handled _ hmem), h.effects⟩
  · rcases List.mem_cons.mp hkey with rfl | hkey
    · exact List.mem_cons_self
    · exact List.mem_cons_of_mem _ (h.effects_handled key hkey)

/-- A repeated one commits and changes nothing. -/
theorem Inv.commit_settled {delivery : Delivery} (h : Inv parseUuid settings start s)
    (hphase : s.txns t = some (.settled delivery)) :
    Inv parseUuid settings start (s.ends t
      (if delivery.record.isSome then ⟨s.now, delivery⟩ :: s.commits else s.commits)) := by
  rcases h.opened hphase with ⟨hclean, hseen⟩ | ⟨howns, hsome, hinert⟩
  · -- Nothing to record, or a replay of what is recorded: `firsts` skips it.
    have hrows : ∀ key, (s.events.visible t key).isSome ↔ key ∈ s.handled := by
      intro key
      rw [Table.visible_of_clean (hclean key)]
      exact h.records key
    split
    · next hsome =>
      have hmem : delivery.key ∈ s.handled := (h.records _).mp (hseen hsome)
      -- A replay adds no key.
      have hmap : ∀ key, key ∈ ((⟨s.now, delivery⟩ : Handled) :: s.commits).map
          (·.delivery.key) ↔ key ∈ s.handled := by
        intro key
        rw [List.map_cons, List.mem_cons]
        exact or_iff_right_of_imp fun heq => heq ▸ hmem
      refine h.ends ?_ (fun key => (hrows key).trans (hmap key).symm)
        (fun key hkey => (hmap key).mpr hkey) (fun _ _ => .inl rfl) h.effects
        fun key hkey => (hmap key).mpr (h.effects_handled key hkey)
      have hfirsts : firsts (⟨s.now, delivery⟩ :: s.commits) = firsts s.commits := if_pos hmem
      rw [hfirsts]
      exact h.outcome
    · exact h.ends h.outcome hrows (fun _ hkey => hkey) (fun _ _ => .inl rfl) h.effects
        h.effects_handled
  · -- The first delivery of an unhandled event, which leaves the platform as it is.
    rw [if_pos hsome]
    obtain ⟨-, hfirsts⟩ := h.firsts_of_owns (c := ⟨s.now, delivery⟩) howns
    refine h.ends ?_ (h.records_of_owns (c := ⟨s.now, delivery⟩) howns)
      (fun key hkey => List.mem_cons_of_mem _ hkey)
      (fun _ _ => .inl rfl) h.effects
      fun key hkey => List.mem_cons_of_mem _ (h.effects_handled key hkey)
    rw [hfirsts, replay, h.outcome]
    exact hinert _ _

/-- A request that fails leaves nothing. -/
theorem Inv.rollback (h : Inv parseUuid settings start s) (t : Nat) :
    Inv parseUuid settings start (s.rollback t) where
  same := h.same_of_end
  known := h.known_of_end
  outcome := h.outcome
  records := h.records
  effects := h.effects
  effects_handled := h.effects_handled
  sound := by
    refine h.sound_of_step (fun u hu => Table.rollback_sameFor hu) (fun _ hkey => hkey)
      (fun _ _ => .inl rfl) (fun u hu => update_of_ne hu ..)
      ((State.sound_iff_clean (update_self ..)).mpr fun _ => if_pos rfl)

theorem Inv.receive {delivery : Delivery} (h : Inv parseUuid settings start s)
    (hidle : s.txns t = none)
    (hsame : ∀ u ∈ s.started, ∀ phase ∈ s.txns u, phase.key = delivery.key) :
    Inv parseUuid settings start
      { s.goes t (.received delivery) with started := t :: s.started } where
  same {u v p q} hu hv := by
    rcases Machine.update_cases hu with ⟨-, hp⟩ | ⟨-, hu'⟩ <;>
      rcases Machine.update_cases hv with ⟨-, hq⟩ | ⟨-, hv'⟩
    · rw [← Option.some.inj hp, ← Option.some.inj hq]
    · rw [← Option.some.inj hp]
      -- The guard: two deliveries of one event carry the same.
      exact (hsame v (h.known hv') q hv').symm
    · rw [← Option.some.inj hq]
      exact hsame u (h.known hu') p hu'
    · exact h.same hu' hv'
  known {u p} hu := by
    rcases Machine.update_cases hu with ⟨rfl, -⟩ | ⟨-, hu'⟩
    · exact List.mem_cons_self
    · exact List.mem_cons_of_mem _ (h.known hu')
  outcome := h.outcome
  records := h.records
  effects := h.effects
  effects_handled := h.effects_handled
  sound := by
    refine h.sound_of_step (fun u _ => .refl u _) (fun _ hkey => hkey) (fun _ _ => .inl rfl)
      (fun u hu => update_of_ne hu ..) ((State.sound_iff_phase (update_self ..)).mpr ?_)
    -- A free transaction has no record of its own.
    exact h.clean hidle

end Frames

/-- The invariant of all deliveries of one event. -/
theorem webhooks_inductive (parseUuid : String → Option Uuid) (settings : LifecycleSettings)
    (start : Platform) :
    (webhooks parseUuid settings start).Inductive SameEvent (Inv parseUuid settings start) where
  init s hs := by
    cases hs
    exact {
      same := fun hp => nomatch hp
      known := fun hp => nomatch hp
      outcome := rfl
      records := fun key => iff_of_false Bool.false_ne_true (List.not_mem_nil)
      effects := List.nodup_nil
      effects_handled := fun _ hkey => nomatch hkey
      sound := fun _ _ => rfl }
  step s l s' h hG hst := by
    cases l with
    | wait seconds =>
      cases hst
      exact { h with }
    | receive t delivery =>
      obtain ⟨hidle, hst⟩ := Option.ite_none_right_eq_some.mp hst
      cases hst
      exact h.receive (Option.isNone_iff_eq_none.mp hidle) hG
    | advance t =>
      obtain ⟨phase, hphase, hst⟩ := Option.bind_eq_some_iff.mp hst
      exact h.advance hphase hst
    | commit t =>
      obtain ⟨phase, hphase, hst⟩ := Option.bind_eq_some_iff.mp hst
      cases phase with
      | received delivery => cases hst
      | recorded event => cases hst
      | applied event now left =>
        cases hst
        exact h.commit_applied hphase
      | settled delivery =>
        cases hst
        exact h.commit_settled hphase
    | rollback t =>
      cases hst
      exact h.rollback t

/-- The platform changes with the commit of an event's effects, and with nothing else. -/
theorem platform_step {parseUuid : String → Option Uuid} {settings : LifecycleSettings}
    {s s' : State} {l : Label} (hst : s.step parseUuid settings l = some s') :
    (s'.platform = s.platform ∧ s'.effects = s.effects) ∨
      ∃ key, s'.effects = key :: s.effects := by
  cases l with
  | wait seconds | rollback t =>
    cases hst
    exact .inl ⟨rfl, rfl⟩
  | receive t delivery =>
    obtain ⟨-, hst⟩ := Option.ite_none_right_eq_some.mp hst
    cases hst
    exact .inl ⟨rfl, rfl⟩
  | advance t =>
    obtain ⟨phase, -, hst⟩ := Option.bind_eq_some_iff.mp hst
    cases phase with
    | received delivery =>
      dsimp only [State.advance] at hst
      split at hst
      · cases hst
        exact .inl ⟨rfl, rfl⟩
      · obtain ⟨_, -, rfl⟩ := Option.map_eq_some_iff.mp hst
        exact .inl ⟨rfl, rfl⟩
    | recorded event =>
      obtain ⟨_, -, rfl⟩ := Option.map_eq_some_iff.mp hst
      exact .inl ⟨rfl, rfl⟩
    | applied event now left => cases hst
    | settled delivery => cases hst
  | commit t =>
    obtain ⟨phase, -, hst⟩ := Option.bind_eq_some_iff.mp hst
    cases phase with
    | received delivery | recorded event => cases hst
    | applied event now left =>
      cases hst
      -- The one step that writes the platform.
      exact .inr ⟨_, rfl⟩
    | settled delivery =>
      cases hst
      exact .inl ⟨rfl, rfl⟩

/-- **Billing events are applied once.** Whatever is delivered, again and again and at the same
time, the platform is the one the first committed delivery of each event leaves when they are
applied one after the other; an event has a record exactly if a delivery of it has committed;
and each event's effects are committed at most once, which is all that changes the platform. -/
theorem applied_once {parseUuid : String → Option Uuid} {settings : LifecycleSettings}
    {start : Platform} {s : State}
    (h : (webhooks parseUuid settings start).ReachVia SameEvent s) :
    replay parseUuid settings start (firsts s.commits) = .ok s.platform ∧
      (∀ key, (s.events.rows key).isSome ↔ key ∈ s.commits.map (·.delivery.key)) ∧
      s.effects.Nodup ∧
      ∀ l s', (webhooks parseUuid settings start).step s l = some s' →
        (s'.platform = s.platform ∧ s'.effects = s.effects) ∨
          ∃ key, s'.effects = key :: s.effects := by
  have hinv := (webhooks_inductive parseUuid settings start).always h
  exact ⟨hinv.outcome, hinv.records, hinv.effects, fun _ _ hst => platform_step hst⟩

/-- A tenant `7` in its trial, whose provider knows it as "7". -/
def onTrial : Platform :=
  ⟨0, Rows.empty.put 7 { id := 7, name := "Atlas", slug := "atlas" }, .empty, []⟩

/-- A reader of ids that knows one. -/
def parseSeven (text : String) : Option Uuid := if text = "7" then some 7 else none

/-- An activation is delivered twice at once and rolled back once, a failed payment follows, and
the activation is sent again: the tenant is active and its subscription past due. -/
theorem applied_once_replayed : ∃ s, (webhooks parseSeven {} onTrial).ReachVia SameEvent s ∧
    ((s.platform.tenants.row 7).map (·.status) = some .active ∧
      (s.platform.subscriptions.row 7).map (·.status) = some .pastDue ∧
      s.effects = [("stub", "e2"), ("stub", "e1")]) ∧
    replay parseSeven {} onTrial (firsts s.commits) = .ok s.platform ∧
    (s.events.rows ("stub", "e1")).isSome := by
  let activation : BillingEvent :=
    { provider := "stub", eventId := "e1", type := .subscriptionActivated
      subscriptionId := some "sub_1", customerId := some "7", plan := some "growth" }
  let failure : BillingEvent :=
    { provider := "stub", eventId := "e2", type := .paymentFailed
      subscriptionId := some "sub_1" }
  obtain ⟨s, hs, hp⟩ := Machine.exists_reachVia_of_run (M := webhooks parseSeven {} onTrial)
    (G := SameEvent) (s := ⟨0, onTrial, .empty, fun _ => none, [], [], []⟩)
    [.receive 0 (.verified activation), .receive 1 (.verified activation), .advance 0,
      .advance 0, .rollback 0, .wait 5, .advance 1, .advance 1, .receive 0 (.verified activation),
      .commit 1, .advance 0, .commit 0, .wait 60, .receive 0 (.verified failure), .advance 0,
      .advance 0, .commit 0, .receive 0 (.verified activation), .advance 0, .commit 0]
    (fun s => (s.platform.tenants.row 7).map (·.status) = some .active ∧
      (s.platform.subscriptions.row 7).map (·.status) = some .pastDue ∧
      s.effects = [("stub", "e2"), ("stub", "e1")] ∧
      (s.events.rows ("stub", "e1")).isSome) rfl (by decide)
  obtain ⟨htenant, hsubscription, heffects, hrecord⟩ := of_decide_eq_true hp
  exact ⟨s, hs, ⟨htenant, hsubscription, heffects⟩, (applied_once hs).1, hrecord⟩

end Deliveries

end Tenants

end RealEstate
