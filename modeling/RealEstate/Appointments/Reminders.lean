import RealEstate.Appointments.Slots
import RealEstate.Systems.Ascent
import RealEstate.Systems.Sends

/-!
# Tour reminders

`_remind_tenant` of `workers/tasks/appointments.py`, run by any number of sweeps.

- `selectHour`, `selectDay`: the two reads of due appointments, without a lock. The rows come
  in any order.
- `remind`: one round of the loop. The stamps are set in memory and the mail is handed to
  `send_email.delay`, which no rollback takes back.
- `flush`: the `UPDATE` of the stamps of one appointment, before the commit.
- `Once`: an appointment is mailed each reminder at most once, tomorrow's before the one an
  hour ahead.
- `Steady`: a reminder leaves while the stamp of its window is null in the committed row and no
  sweep that is still open has sent it, or a later one; a sweep that has sent a mail commits.
  `once`: runs of such steps. `reminded_twice`: what happens otherwise.
-/

namespace RealEstate

namespace Appointments

open RealEstate.Core Systems
open RowService (effectsOf)

/-- A row of `appointments`, with the columns of its reminders. -/
structure Tour extends Appointment where
  contactId : Uuid
  reminder24hSentAt : Option DateTime := none
  reminder1hSentAt : Option DateTime := none
  deriving DecidableEq

/-- The windows that the stamps of an appointment close. -/
def Tour.level (tour : Tour) : Nat :=
  if tour.reminder1hSentAt.isSome then 2 else if tour.reminder24hSentAt.isSome then 1 else 0

namespace Reminders

/-- `REMINDER_WINDOW_24H`. -/
def reminderWindow24h : Seconds := 24 * 3600

/-- `REMINDER_WINDOW_1H`. -/
def reminderWindow1h : Seconds := 3600

/-- The condition of `_due_reminders`. -/
def due (tenantId : Uuid) (now : DateTime) (soon : Bool) (tour : Tour) : Bool :=
  let window := if soon then reminderWindow1h else reminderWindow24h
  let stamp := if soon then tour.reminder1hSentAt else tour.reminder24hSentAt
  tour.tenantId = tenantId && tour.status = .confirmed && now < tour.startAt &&
    tour.startAt ≤ now + window && stamp.isNone

/-- An appointment of the loop, as it was loaded. -/
structure Due where
  id : Uuid
  tour : Tour
  soon : Bool

/-- The stamps set in memory: `reminder_1h_sent_at` if `soon`, `reminder_24h_sent_at` if it is
the `first`. -/
structure Stamp where
  id : Uuid
  soon : Bool
  first : Bool

/-- What the sweep will write to a tour that it reminds of. -/
def Due.stamp (due : Due) : Stamp :=
  { id := due.id, soon := due.soon, first := due.tour.reminder24hSentAt.isNone }

/-- The columns that a reminder stamps. -/
def Stamp.apply (stamp : Stamp) (now : DateTime) (tour : Tour) : Tour :=
  { tour with
    reminder1hSentAt := if stamp.soon then some now else tour.reminder1hSentAt
    reminder24hSentAt := if stamp.first then some now else tour.reminder24hSentAt }

/-- What `send_email` is called with; the text names `start_at`. -/
structure Mail where
  soon : Bool
  recipient : String
  subject : String
  startAt : DateTime
  deriving DecidableEq

/-- The mail of a reminder. -/
def Due.mail (due : Due) (email : String) : Mail where
  soon := due.soon
  recipient := email
  subject :=
    if due.soon then "Reminder: your property visit is in one hour"
    else "Reminder: your property visit is tomorrow"
  startAt := due.tour.startAt

/-- Where a sweep stands: after its first read, or in the loop and the flush after it, with the
appointments ahead, the stamps set and those of them that are not flushed. -/
inductive Phase where
  | hour (due1h : List (Uuid × Tour))
  | loop (emails : List (Uuid × String)) (todo : List Due) (stamped left : List Stamp)

/-- `_remind_tenant` for one tenant. -/
structure Sweep where
  tenantId : Uuid
  now : DateTime
  phase : Phase

/-- The tours, the sweeps under way and the mails. -/
structure State where
  table : Table Uuid Tour Nat
  sweeps : Nat → Option Sweep
  /-- The mails sent, by appointment. -/
  mails : List (Uuid × Mail)
  /-- Those of them whose sweep is still open. -/
  unsettled : List (Nat × Uuid × Mail)

/-- A step of a sweep, or a request on a tour. -/
inductive Label where
  | create (id : Uuid) (appointment : Appointment) (contactId : Uuid)
  | transition (n : Nat) (id : Uuid) (toStatus : AppointmentStatus) (now : DateTime)
  | selectHour (n : Nat) (tenantId : Uuid) (now : DateTime) (found : List Uuid)
  | selectDay (n : Nat) (found : List Uuid) (emails : List (Uuid × String))
  | remind (n : Nat)
  | flush (n : Nat) (id : Uuid)
  | commit (n : Nat)
  /-- A sweep fails; the next one is a sweep of its own. -/
  | abort (n : Nat)

/-- The sweep goes on. -/
def State.goes (s : State) (n : Nat) (sweep : Sweep) : State :=
  { s with sweeps := Function.update s.sweeps n (some sweep) }

/-- The sweep ends. -/
def State.ends (s : State) (n : Nat) (table : Table Uuid Tour Nat) : State :=
  { s with
    table
    sweeps := Function.update s.sweeps n none
    unsettled := s.unsettled.filter (·.1 ≠ n) }

/-- A mail leaves. -/
def State.sends (s : State) (n : Nat) (id : Uuid) (mail : Mail) : State :=
  { s with mails := s.mails ++ [(id, mail)], unsettled := (n, id, mail) :: s.unsettled }

/-- `transition`, which holds the lock of its row to its commit. -/
def State.transition (s : State) (n : Nat) (id : Uuid) (toStatus : AppointmentStatus)
    (now : DateTime) : Option State :=
  (s.table.visible n id).bind fun tour =>
    if toStatus ∈ tour.status.transitions then
      (s.table.write n id (some { tour with
        status := toStatus
        confirmedAt := if toStatus = .confirmed then some now else tour.confirmedAt })).map
          fun table => { s with table := table.commit n }
    else none

/-- The e-mail address of the contact; an empty one is none. -/
def address (emails : List (Uuid × String)) (due : Due) : Option String :=
  (emails.lookup due.tour.contactId).filter (· ≠ "")

/-- One statement, one round of the loop, or the end of a transaction. -/
def step (s : State) : Label → Option State
  | .create id appointment contactId =>
    (s.table.publish id { appointment with contactId }).map fun table => { s with table }
  | .transition n id toStatus now =>
    -- a request has a session of its own
    if (s.sweeps n).isSome then none else s.transition n id toStatus now
  | .selectHour n tenantId now found =>
    if (s.sweeps n).isNone ∧ found.Perm (s.table.scan n (due tenantId now true)) then
      some (s.goes n { tenantId, now, phase := .hour (s.table.load n found) })
    else none
  | .selectDay n found emails =>
    match s.sweeps n with
    | some ⟨tenantId, now, .hour due1h⟩ =>
      if found.Perm (s.table.scan n (due tenantId now false)) then
        let due24h := s.table.load n (found.filter fun id => id ∉ due1h.map (·.1))
        let todo := due1h.map (fun row => Due.mk row.1 row.2 true) ++
          due24h.map fun row => Due.mk row.1 row.2 false
        some (s.goes n { tenantId, now, phase := .loop emails todo [] [] })
      else none
    | _ => none
  | .remind n =>
    match s.sweeps n with
    | some ⟨tenantId, now, .loop emails (due :: todo) stamped left⟩ =>
      let next := s.goes n
        { tenantId, now, phase := .loop emails todo (due.stamp :: stamped) (due.stamp :: left) }
      -- stamped anyway: without an address it never becomes due again
      some (match address emails due with
        | some email => next.sends n due.id (due.mail email)
        | none => next)
    | _ => none
  | .flush n id =>
    match s.sweeps n with
    | some ⟨tenantId, now, .loop emails [] stamped left⟩ =>
      (left.find? (·.id = id)).bind fun stamp =>
        (s.table.visible n id).bind fun tour =>
          (s.table.write n id (some (stamp.apply now tour))).map fun table =>
            State.goes { s with table } n
              { tenantId, now, phase := .loop emails [] stamped (left.filter (·.id ≠ id)) }
    | _ => none
  | .commit n =>
    match s.sweeps n with
    | some ⟨_, _, .loop _ [] _ []⟩ => some (s.ends n (s.table.commit n))
    | _ => none
  | .abort n =>
    if (s.sweeps n).isSome then some (s.ends n (s.table.rollback n)) else none

/-- Any number of appointments and sweeps, from an empty table on. -/
def machine : Machine State Label where
  init s := s = ⟨.empty, fun _ => none, [], []⟩
  step := step

/-! ### What is expected, and of which runs -/

/-- The reminders an appointment has been mailed, in the order they were sent. -/
def State.reminders (s : State) (id : Uuid) : List Bool :=
  (effectsOf id s.mails).map (·.soon)

/-- No reminder is sent twice, and that of the last hour comes last. -/
structure Once (s : State) : Prop where
  tomorrow : ∀ id, (s.reminders id).count false ≤ 1
  hour : ∀ id, (s.reminders id).count true ≤ 1
  order : ∀ id, ¬ [true, false].Sublist (s.reminders id)

/-- How far the reminders of a tour have come. -/
def State.level (s : State) (id : Uuid) : Nat :=
  (s.table.rows id).elim 0 Tour.level

/-- The reminder of the last hour ranks above that of the day before. -/
def Mail.rank (mail : Mail) : Nat := mail.soon.toNat

/-- A mail leaves while the committed stamps leave its window open, and no open sweep has sent
that reminder or a later one; a sweep that fails has sent nothing. -/
def Steady (s : State) : Label → Prop
  | .remind n =>
    match s.sweeps n with
    | some ⟨_, _, .loop emails (due :: _) _ _⟩ =>
      (address emails due).isSome = true → s.level due.id ≤ due.soon.toNat ∧
        ∀ sent ∈ s.unsettled, sent.2.1 = due.id → sent.2.2.rank < due.soon.toNat
    | _ => True
  | .abort n => ∀ sent ∈ s.unsettled, sent.1 ≠ n
  | _ => True

/-- By cases, as `Steady` is defined. -/
instance (s : State) (l : Label) : Decidable (Steady s l) := by
  unfold Steady
  split
  · split <;> infer_instance
  · infer_instance
  · infer_instance

/-! ### The invariant -/

/-- The stamps only close windows. -/
def Later (old new : Tour) : Prop := old.level ≤ new.level

/-- What a sweep in its loop has set and flushed. -/
structure LoopInv (table : Table Uuid Tour Nat) (n : Nat) (todo : List Due)
    (stamped left : List Stamp) : Prop where
  nodup : (stamped.map (·.id) ++ todo.map (·.id)).Nodup
  unstamped : ∀ due ∈ todo, due.soon = false → due.tour.reminder24hSentAt = none
  first : ∀ stamp ∈ stamped, stamp.soon = false → stamp.first = true
  left_subset : ∀ stamp ∈ left, stamp ∈ stamped
  flushed : ∀ stamp ∈ stamped, stamp ∈ left ∨
    ∃ new, table.dirty n stamp.id = some (some new) ∧ stamp.soon.toNat < new.level

/-- What a sweep has in hand is still as it was read. -/
def PhaseInv (table : Table Uuid Tour Nat) (n : Nat) : Phase → Prop
  | .hour due1h => (due1h.map (·.1)).Nodup
  | .loop _ todo stamped left => LoopInv table n todo stamped left

/-- The sweep has set the stamp of a mail it has sent. -/
def Phase.Stamped (id : Uuid) (mail : Mail) : Phase → Prop
  | .loop _ _ stamped _ => ∃ stamp ∈ stamped, stamp.id = id ∧ stamp.soon = mail.soon
  | .hour _ => False

/-- Levels only rise, and every mail is accounted for by the level of its tour. -/
structure Inv (s : State) : Prop where
  ascends : s.table.Ascends Later
  accounted : Accounted Mail.rank s.level (fun id mail => ∃ n, (n, id, mail) ∈ s.unsettled) s.mails
  phase : ∀ n sweep, s.sweeps n = some sweep → PhaseInv s.table n sweep.phase
  stamped : ∀ n id mail, (n, id, mail) ∈ s.unsettled →
    ∃ sweep, s.sweeps n = some sweep ∧ sweep.phase.Stamped id mail

section Stamps

theorem Later.refl (tour : Tour) : Later tour tour := Nat.le_refl _

theorem Later.trans (a b c : Tour) : Later a b → Later b c → Later a c := Nat.le_trans

theorem Stamp.later (stamp : Stamp) (now : DateTime) (tour : Tour) :
    Later tour (stamp.apply now tour) := by
  unfold Later Stamp.apply Tour.level
  cases stamp.soon <;> cases stamp.first <;> cases tour.reminder1hSentAt <;>
    cases tour.reminder24hSentAt <;> simp

/-- A stamp lifts the level above the rank of its mail. -/
theorem Stamp.lt_level {stamp : Stamp} (hfirst : stamp.soon = false → stamp.first = true)
    (now : DateTime) (tour : Tour) : stamp.soon.toNat < (stamp.apply now tour).level := by
  unfold Stamp.apply Tour.level
  cases hsoon : stamp.soon with
  | true => exact Nat.one_lt_two
  | false =>
    rw [hfirst hsoon]
    cases tour.reminder1hSentAt <;> simp

end Stamps

section Sweeps

variable {s s' : State} {table table' : Table Uuid Tour Nat} {n : Nat} {id : Uuid}
  {sweep : Sweep} {todo : List Due} {stamped left : List Stamp}

/-- A sweep that reads the same tours keeps its phase. -/
theorem PhaseInv.of_same {phase : Phase} (h : PhaseInv table n phase)
    (hsame : Table.SameFor n table table') : PhaseInv table' n phase := by
  cases phase with
  | hour due1h => exact h
  | loop emails todo stamped left =>
    refine ⟨h.nodup, h.unstamped, h.first, h.left_subset, fun stamp hstamp => ?_⟩
    rcases h.flushed stamp hstamp with hleft | ⟨new, hnew, hlevel⟩
    · exact .inl hleft
    · exact .inr ⟨new, (hsame.dirty stamp.id).trans hnew, hlevel⟩

theorem level_mono (h : ∀ old, s.table.rows id = some old →
    ∃ new, table.rows id = some new ∧ Later old new) :
    s.level id ≤ (table.rows id).elim 0 Tour.level := by
  unfold State.level
  cases hold : s.table.rows id with
  | none => exact Nat.zero_le _
  | some old =>
    obtain ⟨new, hnew, hlater⟩ := h old hold
    rw [hnew]
    exact hlater

theorem Inv.empty : Inv ⟨.empty, fun _ => none, [], []⟩ where
  ascends := .empty
  accounted := .empty
  phase _ _ h := nomatch h
  stamped _ _ _ h := nomatch h

/-- A step that sends nothing, and after which the tours are at least where they were. -/
theorem Inv.moves (h : Inv s) (hascends : table.Ascends Later)
    (hrows : ∀ id old, s.table.rows id = some old →
      ∃ new, table.rows id = some new ∧ Later old new)
    {sweeps : Nat → Option Sweep}
    (hphase : ∀ n sweep, sweeps n = some sweep → PhaseInv table n sweep.phase)
    (hstamped : ∀ n id mail sweep, s.sweeps n = some sweep → sweep.phase.Stamped id mail →
      ∃ sweep', sweeps n = some sweep' ∧ sweep'.phase.Stamped id mail) :
    Inv { s with table, sweeps } where
  ascends := hascends
  accounted := h.accounted.settle (fun id => level_mono (hrows id)) fun _ _ => .inr
  phase := hphase
  stamped n id mail hmem := by
    obtain ⟨sweep, hn, hstamp⟩ := h.stamped n id mail hmem
    exact hstamped n id mail sweep hn hstamp

/-- The appointments change, by other transactions than the sweeps'. -/
theorem Inv.others (h : Inv s) (hascends : table.Ascends Later)
    (hrows : ∀ id old, s.table.rows id = some old →
      ∃ new, table.rows id = some new ∧ Later old new)
    (hsame : ∀ n sweep, s.sweeps n = some sweep → Table.SameFor n s.table table) :
    Inv { s with table } :=
  h.moves hascends hrows (fun n sweep hn => (h.phase n sweep hn).of_same (hsame n sweep hn))
    fun _ _ _ sweep hn hstamp => ⟨sweep, hn, hstamp⟩

/-- A sweep goes on, and forgets no stamp. -/
theorem Inv.goes (h : Inv s) (hascends : table.Ascends Later)
    (hrows : table.rows = s.table.rows) (hother : ∀ m, m ≠ n → Table.SameFor m s.table table)
    (hphase : PhaseInv table n sweep.phase)
    (hstamped : ∀ old id mail, s.sweeps n = some old → old.phase.Stamped id mail →
      sweep.phase.Stamped id mail) : Inv (State.goes { s with table } n sweep) := by
  refine h.moves hascends (fun id old hold => ⟨old, ?_, Later.refl old⟩) ?_ ?_
  case refine_1 =>
    rw [hrows]
    exact hold
  case refine_2 =>
    exact Machine.each_goes h.phase (fun m _ hne hm => hm.of_same (hother m hne)) hphase
  case refine_3 =>
    intro m id mail old hold hstamp
    by_cases hm : m = n
    · subst hm
      exact ⟨sweep, Function.update_self .., hstamped old id mail hold hstamp⟩
    · exact ⟨old, (Function.update_of_ne hm ..).trans hold, hstamp⟩

theorem Inv.goes_same (h : Inv s) (hphase : PhaseInv s.table n sweep.phase)
    (hstamped : ∀ old id mail, s.sweeps n = some old → old.phase.Stamped id mail →
      sweep.phase.Stamped id mail) : Inv (s.goes n sweep) :=
  h.goes h.ascends rfl (fun m _ => Table.SameFor.refl m _) hphase hstamped

/-- A new tour has no reminders. -/
theorem Inv.create (h : Inv s) {tour : Tour}
    (hst : (s.table.publish id tour).map (fun table => { s with table }) = some s') : Inv s' := by
  obtain ⟨table, hpublish, rfl⟩ := Option.map_eq_some_iff.1 hst
  obtain ⟨hid, rfl⟩ := Table.publish_eq_some.1 hpublish
  refine h.others (h.ascends.published hid) (fun k old hold => ⟨old, ?_, Later.refl old⟩)
    fun n _ _ => Table.published_sameFor n hid
  have hk : k ≠ id := by
    rintro rfl
    exact hid (s.table.rows_keys hold)
  exact (Function.update_of_ne hk ..).trans hold

/-- A transition leaves the stamps alone. -/
theorem Inv.transition (h : Inv s) {toStatus : AppointmentStatus} {now : DateTime}
    (hn : s.sweeps n = none) (hst : s.transition n id toStatus now = some s') : Inv s' := by
  obtain ⟨tour, htour, hst⟩ := Option.bind_eq_some_iff.1 hst
  obtain ⟨-, hst⟩ := Option.ite_none_right_eq_some.1 hst
  obtain ⟨table, hwrite, rfl⟩ := Option.map_eq_some_iff.1 hst
  have hwrote := Table.wrote_of_write hwrite
  have hascends : table.Ascends Later :=
    h.ascends.wrote Later.refl Later.trans hwrote fun seen hseen => by
      obtain rfl := Option.some.inj (htour.symm.trans hseen)
      exact Later.refl tour
  refine h.others (hascends.commit n) (fun k old hold => ?_) fun m sweep hm => ?_
  · exact hascends.commit_rows Later.refl n (hwrote.rows ▸ hold)
  · have hne : m ≠ n := by
      rintro rfl
      rw [hn] at hm
      cases hm
    exact (hwrote.other m hne).trans (Table.commit_sameFor hne)

/-- The query of the last hour. -/
theorem Inv.selectHour (h : Inv s) {tenantId : Uuid} {now : DateTime} {found : List Uuid}
    (hn : s.sweeps n = none) (hfound : found.Perm (s.table.scan n (due tenantId now true))) :
    Inv (s.goes n { tenantId, now, phase := .hour (s.table.load n found) }) := by
  refine h.goes_same ?_ fun old id mail hold => ?_
  · have hnodup : found.Nodup := hfound.nodup_iff.2 (Table.scan_nodup ..)
    exact (s.table.map_load n found).nodup hnodup
  · rw [hn] at hold
    cases hold

/-- The second read adds the appointments that are not in the first. -/
theorem Inv.selectDay (h : Inv s) {tenantId : Uuid} {now : DateTime} {found : List Uuid}
    {due1h : List (Uuid × Tour)} {emails : List (Uuid × String)}
    (hn : s.sweeps n = some ⟨tenantId, now, .hour due1h⟩)
    (hfound : found.Perm (s.table.scan n (due tenantId now false)))
    (htodo : todo = due1h.map (fun row => Due.mk row.1 row.2 true) ++
      (s.table.load n (found.filter fun id => id ∉ due1h.map (·.1))).map
        fun row => Due.mk row.1 row.2 false) :
    Inv (s.goes n { tenantId, now, phase := .loop emails todo [] [] }) := by
  refine h.goes_same ?_ fun old id mail hold hstamp => ?_
  case refine_2 =>
    rw [hn] at hold
    cases hold
    exact hstamp.elim
  subst htodo
  refine ⟨?_, fun d hd hsoon => ?_, nofun, nofun, nofun⟩
  · -- The day's list leaves out what the hour's has.
    have hload := s.table.map_load n (found.filter fun id => id ∉ due1h.map (·.1))
    have hnodup : found.Nodup := hfound.nodup_iff.2 (Table.scan_nodup ..)
    have hhour : (due1h.map (·.1)).Nodup := h.phase n _ hn
    rw [List.map_nil, List.nil_append, List.map_append, List.map_map, List.map_map]
    refine List.nodup_append'.2 ⟨hhour, hload.nodup (hnodup.filter _), fun k hk hk' => ?_⟩
    have hnew := (List.mem_filter.1 (hload.subset hk')).2
    exact of_decide_eq_true hnew hk
  · rcases List.mem_append.1 hd with hhour | hday
    · obtain ⟨row, -, rfl⟩ := List.mem_map.1 hhour
      cases hsoon
    · -- A row of the day's list is as the scan found it: without a stamp.
      obtain ⟨row, hrow, rfl⟩ := List.mem_map.1 hday
      obtain ⟨hmem, hvisible⟩ := Table.mem_load hrow
      obtain ⟨tour, htour, hdue⟩ := Table.mem_scan.1 (hfound.mem_iff.1 (List.mem_filter.1 hmem).1)
      obtain rfl := Option.some.inj (hvisible.symm.trans htour)
      exact Option.isNone_iff_eq_none.1 (Bool.and_eq_true_iff.1 hdue).2

/-- A round of the loop sets the stamps of one appointment more. -/
theorem LoopInv.remind {due : Due} (h : LoopInv table n (due :: todo) stamped left) :
    LoopInv table n todo (due.stamp :: stamped) (due.stamp :: left) where
  nodup := by
    have hnodup := h.nodup
    rw [List.map_cons] at hnodup
    exact (List.perm_middle.nodup_iff).1 hnodup
  unstamped d hd := h.unstamped d (List.mem_cons_of_mem _ hd)
  first stamp hstamp := by
    rcases List.mem_cons.1 hstamp with rfl | hold
    · intro hsoon
      exact Option.isNone_iff_eq_none.2 (h.unstamped due List.mem_cons_self hsoon)
    · exact h.first stamp hold
  left_subset stamp hstamp := by
    rcases List.mem_cons.1 hstamp with rfl | hold
    · exact List.mem_cons_self
    · exact List.mem_cons_of_mem _ (h.left_subset stamp hold)
  flushed stamp hstamp := by
    rcases List.mem_cons.1 hstamp with rfl | hold
    · exact .inl List.mem_cons_self
    · exact (h.flushed stamp hold).imp (List.mem_cons_of_mem _) id

/-- The stamps of one appointment are flushed. -/
theorem LoopInv.flush {stamp : Stamp} {now : DateTime} {tour : Tour}
    (h : LoopInv table n todo stamped left) (hleft : stamp ∈ left)
    (hwrote : Table.Wrote n stamp.id (some (stamp.apply now tour)) table table') :
    LoopInv table' n todo stamped (left.filter (·.id ≠ stamp.id)) where
  nodup := h.nodup
  unstamped := h.unstamped
  first := h.first
  left_subset other hother := h.left_subset other (List.mem_filter.1 hother).1
  flushed other hother := by
    have hstamp := h.left_subset stamp hleft
    -- one stamp to an appointment, so this is the one that was flushed
    by_cases hid : other.id = stamp.id
    · have hids : (stamped.map (·.id)).Nodup := (List.nodup_append'.1 h.nodup).1
      obtain rfl := List.inj_on_of_nodup_map hids hother hstamp hid
      exact .inr ⟨_, hwrote.self, Stamp.lt_level (h.first other hother) now tour⟩
    · rcases h.flushed other hother with hold | ⟨new, hnew, hlevel⟩
      · exact .inl (List.mem_filter.2 ⟨hold, decide_eq_true hid⟩)
      · exact .inr ⟨new, (hwrote.rest other.id hid).trans hnew, hlevel⟩

/-- A mail leaves, after its stamp was set. -/
theorem Inv.sends (h : Inv s) {mail : Mail} (hlevel : s.level id ≤ mail.rank)
    (hfree : ∀ sent ∈ s.unsettled, sent.2.1 = id → sent.2.2.rank < mail.rank)
    (hn : s.sweeps n = some sweep) (hstamp : sweep.phase.Stamped id mail) :
    Inv (s.sends n id mail) where
  ascends := h.ascends
  accounted := by
    refine h.accounted.send hlevel ?_ ?_ ⟨n, List.mem_cons_self⟩
    · rintro other ⟨m, hm⟩
      exact hfree _ hm rfl
    · rintro k other ⟨m, hm⟩
      exact ⟨m, List.mem_cons_of_mem _ hm⟩
  phase := h.phase
  stamped m k other hmem := by
    rcases List.mem_cons.1 hmem with heq | hold
    · cases heq
      exact ⟨sweep, hn, hstamp⟩
    · exact h.stamped m k other hold

/-- One round of the loop: the stamps, and the mail if the contact has an address. -/
theorem Inv.remind (h : Inv s) {tenantId : Uuid} {now : DateTime}
    {emails : List (Uuid × String)} {due : Due}
    (hn : s.sweeps n = some ⟨tenantId, now, .loop emails (due :: todo) stamped left⟩)
    (hsteady : Steady s (.remind n)) (hst : step s (.remind n) = some s') : Inv s' := by
  have hloop : LoopInv s.table n (due :: todo) stamped left := h.phase n _ hn
  have hnext : Inv (s.goes n ⟨tenantId, now, .loop emails todo (due.stamp :: stamped)
      (due.stamp :: left)⟩) := by
    refine h.goes_same hloop.remind fun old id mail hold hstamp => ?_
    obtain rfl := Option.some.inj (hn.symm.trans hold)
    obtain ⟨stamp, hmem, hstamp⟩ := hstamp
    exact ⟨stamp, List.mem_cons_of_mem _ hmem, hstamp⟩
  rw [Steady, hn] at hsteady
  simp only [step, hn] at hst
  cases hst
  cases haddress : address emails due with
  | none => exact hnext
  | some email =>
    obtain ⟨hlevel, hfree⟩ := hsteady (by rw [haddress]; rfl)
    exact hnext.sends hlevel hfree (Function.update_self ..)
      ⟨due.stamp, List.mem_cons_self, rfl, rfl⟩

/-- The `UPDATE` of the stamps that the loop has set on one appointment. -/
theorem Inv.flush (h : Inv s) {tenantId : Uuid} {now : DateTime}
    {emails : List (Uuid × String)} {stamp : Stamp} {tour : Tour}
    (hn : s.sweeps n = some ⟨tenantId, now, .loop emails [] stamped left⟩)
    (hleft : stamp ∈ left) (htour : s.table.visible n stamp.id = some tour)
    (hwrote : Table.Wrote n stamp.id (some (stamp.apply now tour)) s.table table) :
    Inv (State.goes { s with table } n
      ⟨tenantId, now, .loop emails [] stamped (left.filter (·.id ≠ stamp.id))⟩) := by
  have hloop : LoopInv s.table n [] stamped left := h.phase n _ hn
  refine h.goes (h.ascends.wrote Later.refl Later.trans hwrote fun seen hseen => ?_)
    hwrote.rows hwrote.other (hloop.flush hleft hwrote) fun old id mail hold hstamp => ?_
  · obtain rfl := Option.some.inj (htour.symm.trans hseen)
    exact stamp.later now tour
  · -- what is flushed is still among the stamps
    obtain rfl := Option.some.inj (hn.symm.trans hold)
    exact hstamp

/-- A sweep ends, and the mails it has sent are covered by the stamps. -/
theorem Inv.ends (h : Inv s) (hascends : table.Ascends Later)
    (hrows : ∀ id old, s.table.rows id = some old →
      ∃ new, table.rows id = some new ∧ Later old new)
    (hother : ∀ m, m ≠ n → Table.SameFor m s.table table)
    (hsettled : ∀ id mail, (n, id, mail) ∈ s.unsettled →
      mail.rank < (table.rows id).elim 0 Tour.level) : Inv (s.ends n table) where
  ascends := hascends
  accounted := by
    refine h.accounted.settle (fun id => level_mono (hrows id)) ?_
    rintro id mail ⟨m, hm⟩
    by_cases hne : m = n
    · subst hne
      exact .inl (hsettled id mail hm)
    · exact .inr ⟨m, List.mem_filter.2 ⟨hm, decide_eq_true hne⟩⟩
  phase := Machine.each_ends h.phase fun m _ hne hm => hm.of_same (hother m hne)
  stamped m id mail hmem := by
    obtain ⟨hold, hne⟩ := List.mem_filter.1 hmem
    obtain ⟨sweep, hm, hstamp⟩ := h.stamped m id mail hold
    exact ⟨sweep, (Function.update_of_ne (of_decide_eq_true hne) ..).trans hm, hstamp⟩

/-- A sweep that has gone through its list commits. -/
theorem Inv.commit (h : Inv s) {tenantId : Uuid} {now : DateTime}
    {emails : List (Uuid × String)}
    (hn : s.sweeps n = some ⟨tenantId, now, .loop emails [] stamped []⟩) :
    Inv (s.ends n (s.table.commit n)) := by
  refine h.ends (h.ascends.commit n) (fun id old hold => h.ascends.commit_rows Later.refl n hold)
    (fun m hm => Table.commit_sameFor hm) fun id mail hmem => ?_
  obtain ⟨sweep, hsweep, hstamp⟩ := h.stamped n id mail hmem
  obtain rfl := Option.some.inj (hn.symm.trans hsweep)
  obtain ⟨stamp, hstamped, rfl, hsoon⟩ := hstamp
  have hloop : LoopInv s.table n [] stamped [] := h.phase n _ hn
  rcases hloop.flushed stamp hstamped with hleft | ⟨new, hnew, hlevel⟩
  · cases hleft
  · rw [Table.commit_rows, Table.visible_of_dirty hnew, Mail.rank, ← hsoon]
    exact hlevel

/-- A sweep that fails has sent nothing. -/
theorem Inv.abort (h : Inv s) (hunsent : ∀ sent ∈ s.unsettled, sent.1 ≠ n) :
    Inv (s.ends n (s.table.rollback n)) :=
  h.ends (h.ascends.rollback n) (fun _ old hold => ⟨old, hold, Later.refl old⟩)
    (fun _ hm => Table.rollback_sameFor hm) fun _ _ hmem => absurd rfl (hunsent _ hmem)

end Sweeps

/-! ### Runs -/

/-- One steady step keeps the invariant. -/
theorem inv_step {s s' : State} {l : Label} (h : Inv s) (hsteady : Steady s l)
    (hst : step s l = some s') : Inv s' := by
  cases l with
  | create id appointment contactId => exact h.create hst
  | transition n id toStatus now =>
    obtain ⟨hidle, hst⟩ := Option.ite_none_left_eq_some.1 hst
    exact h.transition (Option.not_isSome_iff_eq_none.1 hidle) hst
  | selectHour n tenantId now found =>
    obtain ⟨⟨hidle, hfound⟩, hst⟩ := Option.ite_none_right_eq_some.1 hst
    cases hst
    exact h.selectHour (Option.isNone_iff_eq_none.1 hidle) hfound
  | selectDay n found emails =>
    rw [step] at hst
    split at hst
    · next tenantId now due1h hn =>
      obtain ⟨hfound, hst⟩ := Option.ite_none_right_eq_some.1 hst
      cases hst
      exact h.selectDay hn hfound rfl
    · cases hst
  | remind n =>
    -- What the guard says is about the tours as they are now.
    have hremind := hst
    rw [step] at hst
    split at hst
    · next hn => exact h.remind hn hsteady hremind
    · cases hst
  | flush n id =>
    rw [step] at hst
    split at hst
    · next tenantId now emails stamped left hn =>
      obtain ⟨stamp, hfind, hst⟩ := Option.bind_eq_some_iff.1 hst
      obtain ⟨tour, htour, hst⟩ := Option.bind_eq_some_iff.1 hst
      obtain ⟨table, hwrite, rfl⟩ := Option.map_eq_some_iff.1 hst
      have hid : stamp.id = id := by simpa using List.find?_some hfind
      subst hid
      exact h.flush hn (List.mem_of_find?_eq_some hfind) htour (Table.wrote_of_write hwrite)
    · cases hst
  | commit n =>
    rw [step] at hst
    split at hst
    · next hn =>
      cases hst
      exact h.commit hn
    · cases hst
  | abort n =>
    obtain ⟨-, hst⟩ := Option.ite_none_right_eq_some.1 hst
    cases hst
    exact h.abort hsteady

theorem inv_inductive : machine.Inductive Steady Inv where
  init s hs := by
    cases hs
    exact .empty
  step s l t h hsteady hst := inv_step h hsteady hst

/-- What is sent in increasing order is sent once. -/
theorem once_of_increasing {reminders : List Bool}
    (h : reminders.Pairwise fun soon later => soon.toNat < later.toNat) :
    (∀ soon, reminders.count soon ≤ 1) ∧ ¬ [true, false].Sublist reminders := by
  constructor
  · have hnodup : reminders.Nodup := h.imp fun hlt heq => by
      rw [heq] at hlt
      exact Nat.lt_irrefl _ hlt
    exact List.nodup_iff_count_le_one.1 hnodup
  · intro hsublist
    have hpair := h.sublist hsublist
    have hlt : Bool.toNat true < Bool.toNat false := List.rel_of_pairwise_cons hpair
      (List.mem_singleton_self false)
    exact absurd hlt (by decide)

/-- **Reminders are sent once**, tomorrow's before the one an hour ahead, in every state that
steady steps reach. -/
theorem once {s : State} (h : machine.ReachVia Steady s) : Once s := by
  have hincreasing : ∀ id,
      (s.reminders id).Pairwise fun soon later => soon.toNat < later.toNat := by
    intro id
    rw [State.reminders, List.pairwise_map]
    exact (inv_inductive.always h).accounted.increasing id
  exact {
    tomorrow := fun id => (once_of_increasing (hincreasing id)).1 false
    hour := fun id => (once_of_increasing (hincreasing id)).1 true
    order := fun id => (once_of_increasing (hincreasing id)).2 }

/-! ### Sweeps that overlap, and a sweep that fails -/

/-- Tour 5 of tenant 7 is confirmed. -/
def confirmed : List Label :=
  [.create 5 { tenantId := 7, agentUserId := 3, startAt := 50000, endAt := 53600 } 9,
    .transition 1 5 .confirmed 10]

/-- A sweep finds the tour on the day before it. -/
def found (n : Nat) (now : DateTime) : List Label :=
  [.selectHour n 7 now [], .selectDay n [5] [(9, "c@x")]]

/-- Two sweeps find the tour a minute before its last hour, and a third one in it. All mail it,
the third one first. -/
def overlapping : List Label :=
  List.flatten
    [confirmed, found 2 46340, found 3 46340,
      [.selectHour 4 7 46400 [5], .selectDay 4 [5] [(9, "c@x")], .remind 4, .remind 2, .remind 3,
        .flush 4 5, .commit 4, .flush 2 5, .commit 2, .flush 3 5, .commit 3]]

/-- A sweep mails the tour and is rolled back, and the next one mails it again. -/
def failing : List Label :=
  List.flatten
    [confirmed, found 2 20, [.remind 2, .abort 2], found 3 920, [.remind 3, .flush 3 5, .commit 3]]

theorem not_once {s : State} (id : Uuid) (h : 1 < (s.reminders id).count false) : ¬ Once s :=
  fun honce => Nat.not_le.2 h (honce.tomorrow id)

/-- **A reminder is sent twice**, and after the one an hour ahead, by sweeps that overlap; and
twice by sweeps one after the other, the first of which fails. -/
theorem reminded_twice :
    (∃ s, machine.Reachable s ∧ s.reminders 5 = [true, false, false] ∧ ¬ Once s) ∧
      ∃ s, machine.Reachable s ∧ s.reminders 5 = [false, false] ∧ ¬ Once s := by
  constructor
  · obtain ⟨s, hs, hp⟩ := Machine.exists_reachable_of_run (M := machine) overlapping
      (fun s => s.reminders 5 = [true, false, false]) rfl (by decide)
    have hreminders := of_decide_eq_true hp
    exact ⟨s, hs, hreminders, not_once 5 (by rw [hreminders]; decide)⟩
  · obtain ⟨s, hs, hp⟩ := Machine.exists_reachable_of_run (M := machine) failing
      (fun s => s.reminders 5 = [false, false]) rfl (by decide)
    have hreminders := of_decide_eq_true hp
    exact ⟨s, hs, hreminders, not_once 5 (by rw [hreminders]; decide)⟩

/-- A sweep tomorrow and one an hour ahead. -/
theorem once_both :
    ∃ s, machine.ReachVia Steady s ∧ s.reminders 5 = [false, true] ∧ Once s := by
  obtain ⟨s, hs, hp⟩ := Machine.exists_reachVia_of_run (M := machine) (G := Steady)
    (List.flatten
      [confirmed, found 2 20, [.remind 2, .flush 2 5, .commit 2, .selectHour 3 7 49000 [5],
        .selectDay 3 [] [(9, "c@x")], .remind 3, .flush 3 5, .commit 3]])
    (fun s => s.reminders 5 = [false, true]) rfl (by decide)
  exact ⟨s, hs, of_decide_eq_true hp, once hs⟩

end Reminders

end Appointments

end RealEstate
