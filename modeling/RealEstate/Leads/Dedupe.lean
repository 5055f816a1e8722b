import RealEstate.Core.Json
import RealEstate.Leads.Models
import RealEstate.Systems.Text
import RealEstate.Systems.Transactions
import RealEstate.Systems.Upsert

/-!
# Contact dedupe

`find_or_create_contact`, which every capture, booking and manual lead goes through, and
`update_contact` of `modules/leads/service.py`, statement by statement.

- `capture`, `findPhone`: `find_contact_for_dedupe`, without a lock. More than one row raises.
- `flush`: the insert, or the `UPDATE` of the columns that are filled in or edited.
- `Deduped`: no two contacts of a tenant share a phone number or, ignoring case, an e-mail
  address, and no capture has met two rows.
- `Steady`: when a request commits an e-mail address or a phone number that it has set, the
  dedupe query for it finds no other contact. `deduped`: runs of such commits.
- `shared_phone`: a capture that fills in the phone number of another contact.

`lower` is the database's and Python's `lower`.
-/

namespace RealEstate

namespace Leads

open RealEstate.Core Systems

namespace Dedupe

/-! ### Input -/

/-- `ContactCaptureIn` as it comes. -/
structure ContactCaptureIn where
  firstName : Option String := none
  lastName : Option String := none
  email : Option String := none
  phone : Option String := none
  whatsapp : Option String := none
  marketingConsent : Bool := false

/-- The fields of `ContactUpdate` that are set. `consent` and `tags` may not be null. -/
structure ContactUpdate where
  firstName : Option (Option String) := none
  lastName : Option (Option String) := none
  email : Option (Option String) := none
  phone : Option (Option String) := none
  whatsapp : Option (Option String) := none
  consent : Option JsonObject := none
  tags : Option (List String) := none
  notes : Option (Option String) := none

/-- `x or None`. -/
def orNone (value : Option String) : Option String := value.filter (· ≠ "")

/-- `normalize_phone`. -/
def normalizePhone (value : Option String) : Option String :=
  orNone ((orNone value).map fun s => String.ofList (strip s.toList))

section Normalize

variable (lower : String → String)

/-- `normalize_email`. -/
def normalizeEmail (value : Option String) : Option String :=
  orNone ((orNone value).map fun s => lower (String.ofList (strip s.toList)))

/-- The validators of a capture. -/
def ContactCaptureIn.normalize (data : ContactCaptureIn) : ContactCaptureIn :=
  { data with
    email := normalizeEmail lower data.email
    phone := normalizePhone data.phone
    whatsapp := normalizePhone data.whatsapp }

/-- The validators of an update. -/
def ContactUpdate.normalize (data : ContactUpdate) : ContactUpdate :=
  { data with
    email := data.email.map (normalizeEmail lower)
    phone := data.phone.map normalizePhone
    whatsapp := data.whatsapp.map normalizePhone }

end Normalize

/-- `email_or_phone`. -/
def ContactCaptureIn.valid (data : ContactCaptureIn) : Bool :=
  data.email.isSome || data.phone.isSome

/-! ### Contacts -/

/-- An `UPDATE` of the columns that are set. -/
def ContactUpdate.apply (columns : ContactUpdate) (contact : Contact) : Contact :=
  { contact with
    firstName := columns.firstName.getD contact.firstName
    lastName := columns.lastName.getD contact.lastName
    email := columns.email.getD contact.email
    phone := columns.phone.getD contact.phone
    whatsapp := columns.whatsapp.getD contact.whatsapp
    consent := columns.consent.getD contact.consent
    tags := columns.tags.getD contact.tags
    notes := columns.notes.getD contact.notes }

/-- The columns whose value the flush finds changed. -/
def ContactUpdate.changes (data : ContactUpdate) (contact : Contact) : ContactUpdate where
  firstName := data.firstName.filter (· ≠ contact.firstName)
  lastName := data.lastName.filter (· ≠ contact.lastName)
  email := data.email.filter (· ≠ contact.email)
  phone := data.phone.filter (· ≠ contact.phone)
  whatsapp := data.whatsapp.filter (· ≠ contact.whatsapp)
  consent := data.consent.filter (· ≠ contact.consent)
  tags := data.tags.filter (· ≠ contact.tags)
  notes := data.notes.filter (· ≠ contact.notes)

/-- A patch that names none of the columns. -/
def ContactUpdate.isEmpty (columns : ContactUpdate) : Bool :=
  columns.firstName.isNone && columns.lastName.isNone && columns.email.isNone &&
    columns.phone.isNone && columns.whatsapp.isNone && columns.consent.isNone &&
    columns.tags.isNone && columns.notes.isNone

/-- A null column takes a value that is not empty. -/
def fill (old new : Option String) : Option (Option String) :=
  if old.isNone && (orNone new).isSome then some new else none

/-- The columns that `find_or_create_contact` fills in on a match. -/
def mergeFill (data : ContactCaptureIn) (contact : Contact) : ContactUpdate where
  firstName := fill contact.firstName data.firstName
  lastName := fill contact.lastName data.lastName
  email := fill contact.email data.email
  phone := fill contact.phone data.phone
  whatsapp := fill contact.whatsapp data.whatsapp
  consent :=
    if data.marketingConsent && !(JsonObject.get contact.consent "marketing_email").truthy then
      some (contact.consent.set "marketing_email" (.bool true))
    else none

/-- The contact that `find_or_create_contact` makes. -/
def newContact (id tenantId : Uuid) (data : ContactCaptureIn) : Contact where
  id := id
  tenantId := tenantId
  firstName := data.firstName
  lastName := data.lastName
  email := data.email
  phone := data.phone
  whatsapp := data.whatsapp
  consent := if data.marketingConsent then [("marketing_email", .bool true)] else []

/-! ### Requests -/

/-- A request, between two statements: before the look-up by phone, before the insert, before
the `UPDATE`, and once it has written (the columns it has set). -/
inductive Proc where
  | byPhone (tenantId : Uuid) (data : ContactCaptureIn)
  | creating (tenantId : Uuid) (data : ContactCaptureIn)
  | updating (id : Uuid) (columns : ContactUpdate)
  | written (id : Uuid) (columns : ContactUpdate)

/-- The contacts and the requests on them. -/
structure State where
  table : Table Uuid Contact Nat
  procs : Nat → Option Proc
  /-- A capture has met more than one row. -/
  raised : Bool

/-- A statement of a request. -/
inductive Label where
  | capture (n : Nat) (tenantId : Uuid) (data : ContactCaptureIn)
  | findPhone (n : Nat)
  | updateContact (n : Nat) (tenantId id : Uuid) (data : ContactUpdate)
  | flush (n : Nat) (newId : Uuid)
  | commit (n : Nat)
  /-- The request fails, later on. -/
  | abort (n : Nat)

/-- The request goes on. -/
def State.goes (s : State) (n : Nat) (proc : Proc) : State :=
  { s with procs := Function.update s.procs n (some proc) }

/-- The request ends. -/
def State.ends (s : State) (n : Nat) (table : Table Uuid Contact Nat) : State :=
  { s with table, procs := Function.update s.procs n none }

/-- The conditions of `find_contact_for_dedupe`. -/
def hasEmail (lower : String → String) (tenantId : Uuid) (email : String) (c : Contact) : Bool :=
  c.tenantId = tenantId && c.email.map lower = some (lower email)

/-- The `WHERE` of the lookup by number. -/
def hasPhone (tenantId : Uuid) (phone : String) (c : Contact) : Bool :=
  c.tenantId = tenantId && c.phone = some phone

/-- What a `SELECT` of the dedupe finds; `scalar_one_or_none` raises on two rows. -/
def State.find (s : State) (n : Nat) (p : Contact → Bool) : List (Uuid × Contact) :=
  s.table.load n (s.table.scan n p)

/-- The request goes on from what it has found. -/
def State.finds (s : State) (n : Nat) (data : ContactCaptureIn) (next : Proc) :
    List (Uuid × Contact) → State
  | [] => s.goes n next
  | [(id, contact)] => s.goes n (.updating id (mergeFill data contact))
  -- nothing was written yet
  | _ => { s.ends n (s.table.rollback n) with raised := true }

section Steps

variable (lower : String → String)

/-- One statement, or the end of a transaction. -/
def step (s : State) : Label → Option State
  | .capture n tenantId data =>
    let data := data.normalize lower
    if (s.procs n).isSome || !data.valid then none
    else
      -- a match by e-mail wins; `findPhone` comes after none
      let found := data.email.elim [] fun email => s.find n (hasEmail lower tenantId email)
      some (s.finds n data (.byPhone tenantId data) found)
  | .findPhone n =>
    match s.procs n with
    | some (.byPhone tenantId data) =>
      let found := data.phone.elim [] fun phone => s.find n (hasPhone tenantId phone)
      some (s.finds n data (.creating tenantId data) found)
    | _ => none
  | .updateContact n tenantId id data =>
    if (s.procs n).isSome then none
    else
      ((s.table.visible n id).filter (·.tenantId = tenantId)).map fun contact =>
        s.goes n (.updating id ((data.normalize lower).changes contact))
  | .flush n newId =>
    match s.procs n with
    | some (.creating tenantId data) =>
      (s.table.insert n newId (newContact newId tenantId data)).map fun table =>
        State.goes { s with table } n
          (.written newId { email := some data.email, phone := some data.phone })
    | some (.updating id columns) =>
      if columns.isEmpty then some (s.goes n (.written id columns))
      else
        (s.table.visible n id).bind fun contact =>
          (s.table.write n id (some (columns.apply contact))).map fun table =>
            State.goes { s with table } n (.written id columns)
    | _ => none
  | .commit n =>
    match s.procs n with
    | some (.written _ _) => some (s.ends n (s.table.commit n))
    | _ => none
  | .abort n =>
    if (s.procs n).isSome then some (s.ends n (s.table.rollback n)) else none

/-- Any number of requests, from an empty CRM on. -/
def machine : Machine State Label where
  init s := s = ⟨.empty, fun _ => none, false⟩
  step := step lower

/-! ### What is expected, and of which runs -/

/-- What the dedupe takes an e-mail address for. -/
def emailKey (c : Contact) : Option (Uuid × String) := c.email.map fun email =>
  (c.tenantId, lower email)

/-- A number, within its tenant. -/
def phoneKey (c : Contact) : Option (Uuid × String) := c.phone.map fun phone =>
  (c.tenantId, phone)

/-- No two contacts under one key. -/
def Unshared (key : Contact → Option (Uuid × String)) (rows : Uuid → Option Contact) : Prop :=
  ∀ j k i, (rows j).bind key = some i → (rows k).bind key = some i → j = k

/-- What the claim says of a state. -/
structure Deduped (s : State) : Prop where
  email : Unshared (emailKey lower) s.table.rows
  phone : Unshared phoneKey s.table.rows
  found : s.raised = false

/-- No other committed contact is under the key of the contact that `n` is about to commit. -/
def Free (key : Contact → Option (Uuid × String)) (table : Table Uuid Contact Nat) (n : Nat)
    (id : Uuid) : Prop :=
  ∀ k ∈ table.keys, k ≠ id → ((table.visible n id).bind key).isSome = true →
    (table.rows k).bind key ≠ (table.visible n id).bind key

/-- Over the rows. -/
instance (key : Contact → Option (Uuid × String)) (table : Table Uuid Contact Nat) (n : Nat)
    (id : Uuid) : Decidable (Free key table n id) := by
  unfold Free
  infer_instance

/-- What a request sets, no other contact has when it commits. -/
def Steady (s : State) : Label → Prop
  | .commit n =>
    match s.procs n with
    | some (.written id columns) =>
      (columns.email.isSome = true → Free (emailKey lower) s.table n id) ∧
        (columns.phone.isSome = true → Free phoneKey s.table n id)
    | _ => True
  | _ => True

/-- By cases of the label. -/
instance (s : State) (l : Label) : Decidable (Steady lower s l) := by
  unfold Steady
  split
  · split <;> infer_instance
  · infer_instance

end Steps

/-! ### The invariant -/

/-- The request has left the key of its row as it was. -/
def Kept (key : Contact → Option (Uuid × String)) (table : Table Uuid Contact Nat) (n : Nat)
    (id : Uuid) : Prop :=
  ∀ v, table.dirty n id = some v → v.bind key = (table.rows id).bind key

section Invariants

variable (lower : String → String)

/-- What a request has written, and that nobody shares it. -/
def ProcInv (table : Table Uuid Contact Nat) (n : Nat) : Proc → Prop
  | .written id columns =>
    (∀ k, k ≠ id → table.dirty n k = none) ∧
      (columns.email.isSome = false → Kept (emailKey lower) table n id) ∧
        (columns.phone.isSome = false → Kept phoneKey table n id)
  | _ => ∀ k, table.dirty n k = none

/-- The invariant. -/
structure Inv (s : State) : Prop where
  email : Unshared (emailKey lower) s.table.rows
  phone : Unshared phoneKey s.table.rows
  found : s.raised = false
  idle : ∀ n, s.procs n = none → ∀ k, s.table.dirty n k = none
  proc : ∀ n proc, s.procs n = some proc → ProcInv lower s.table n proc

end Invariants

section Requests

variable {lower : String → String} {s s' : State} {table table' : Table Uuid Contact Nat}
  {n : Nat} {id tenantId : Uuid} {proc : Proc} {key : Contact → Option (Uuid × String)}
  {columns : ContactUpdate} {data : ContactCaptureIn}

theorem emailKey_apply (h : columns.email.isSome = false) (contact : Contact) :
    emailKey lower (columns.apply contact) = emailKey lower contact := by
  have hnone : columns.email = none := Option.isSome_eq_false_iff.1 h |> Option.isNone_iff_eq_none.1
  unfold emailKey ContactUpdate.apply
  rw [hnone]
  rfl

theorem phoneKey_apply (h : columns.phone.isSome = false) (contact : Contact) :
    phoneKey (columns.apply contact) = phoneKey contact := by
  have hnone : columns.phone = none := Option.isSome_eq_false_iff.1 h |> Option.isNone_iff_eq_none.1
  unfold phoneKey ContactUpdate.apply
  rw [hnone]
  rfl

/-- A row that nobody else has written. -/
theorem Kept.of_same (h : Kept key table n id) (hsame : Table.SameFor n table table') :
    Kept key table' n id := by
  intro v hv
  have hold := (hsame.dirty id).symm.trans hv
  rw [hsame.rows id (table.dirty_lock hold)]
  exact h v hold

/-- The `UPDATE` of the row leaves a key as it was if it does not set it. -/
theorem Kept.of_wrote {old new : Contact} (hold : table.rows id = some old)
    (hwrote : Table.Wrote n id (some new) table table') (hkey : key new = key old) :
    Kept key table' n id := by
  intro v hv
  obtain rfl := Option.some.inj (hwrote.self.symm.trans hv)
  rw [hwrote.rows, hold]
  exact hkey

theorem ProcInv.of_same (h : ProcInv lower table n proc) (hsame : Table.SameFor n table table') :
    ProcInv lower table' n proc := by
  have hclean : (∀ k, table.dirty n k = none) → ∀ k, table'.dirty n k = none :=
    fun hclean k => (hsame.dirty k).trans (hclean k)
  cases proc with
  | byPhone tenantId data => exact hclean h
  | creating tenantId data => exact hclean h
  | updating id columns => exact hclean h
  | written id columns =>
    obtain ⟨hrest, hemail, hphone⟩ := h
    exact ⟨fun k hk => (hsame.dirty k).trans (hrest k hk), fun hset => (hemail hset).of_same hsame,
      fun hset => (hphone hset).of_same hsame⟩

/-- What a request commits is under the keys it had, or under keys that are free. -/
theorem Unshared.commit (h : Unshared key table.rows)
    (hrest : ∀ k, k ≠ id → table.dirty n k = none)
    (hkey : Kept key table n id ∨ Free key table n id) : Unshared key (table.commit n).rows := by
  have hsame : ∀ {k}, k ≠ id → table.visible n k = table.rows k :=
    fun hk => Table.visible_of_clean (hrest _ hk)
  have hother : ∀ {k i}, (table.visible n id).bind key = some i → (table.rows k).bind key = some i →
      k = id := by
    intro k i hid hk
    rcases hkey with hkept | hfree
    · cases hd : table.dirty n id with
      | none =>
        rw [Table.visible_of_clean hd] at hid
        exact h k id i hk hid
      | some v =>
        rw [Table.visible_of_dirty hd, hkept v hd] at hid
        exact h k id i hk hid
    · by_contra hne
      obtain ⟨contact, hrow, -⟩ := Option.bind_eq_some_iff.1 hk
      refine hfree k (table.rows_keys hrow) hne ?_ (hk.trans hid.symm)
      rw [hid]
      rfl
  intro j k i hj hk
  rw [Table.commit_rows] at hj hk
  -- at most one of the two is the row that was written
  by_cases hj' : j = id <;> by_cases hk' : k = id
  · rw [hj', hk']
  · subst hj'
    rw [hsame hk'] at hk
    exact (hother hj hk).symm
  · subst hk'
    rw [hsame hj'] at hj
    exact hother hk hj
  · rw [hsame hj'] at hj
    rw [hsame hk'] at hk
    exact h j k i hj hk

theorem Inv.empty : Inv lower ⟨.empty, fun _ => none, false⟩ where
  email _ _ _ h := nomatch h
  phone _ _ _ h := nomatch h
  found := rfl
  idle _ _ _ := rfl
  proc _ _ h := nomatch h

/-- A request goes on, and the committed contacts stay as they are. -/
theorem Inv.goes (h : Inv lower s) (hrows : table.rows = s.table.rows)
    (hother : ∀ m, m ≠ n → Table.SameFor m s.table table) (hproc : ProcInv lower table n proc) :
    Inv lower (State.goes { s with table } n proc) where
  email := by
    show Unshared (emailKey lower) table.rows
    rw [hrows]
    exact h.email
  phone := by
    show Unshared phoneKey table.rows
    rw [hrows]
    exact h.phone
  found := h.found
  idle := Table.Clean.goes h.idle hother
  proc := Machine.each_goes h.proc (fun m _ hne hm => hm.of_same (hother m hne)) hproc

/-- A request goes on without a write. -/
theorem Inv.goes_same (h : Inv lower s) (hproc : ProcInv lower s.table n proc) :
    Inv lower (s.goes n proc) :=
  h.goes rfl (fun m _ => Table.SameFor.refl m _) hproc

/-- A query of the dedupe finds at most one row. -/
theorem find_unique (hkey : Unshared key s.table.rows) (hclean : ∀ k, s.table.dirty n k = none)
    {p : Contact → Bool} {i : Uuid × String} (hp : ∀ c, p c = true → key c = some i)
    {a b : Uuid × Contact} (ha : a ∈ s.find n p) (hb : b ∈ s.find n p) : a.1 = b.1 := by
  have hunder : ∀ {row}, row ∈ s.find n p → (s.table.rows row.1).bind key = some i := by
    intro row hrow
    obtain ⟨hmem, hvisible⟩ := Table.mem_load hrow
    obtain ⟨contact, hcontact, hmatch⟩ := Table.mem_scan.1 hmem
    rw [Table.visible_of_clean (hclean _)] at hcontact
    rw [hcontact]
    exact hp contact hmatch
  exact hkey a.1 b.1 i (hunder ha) (hunder hb)

theorem find_nodup (s : State) (n : Nat) (p : Contact → Bool) :
    ((s.find n p).map Prod.fst).Nodup :=
  (s.table.map_load n _).nodup (Table.scan_nodup ..)

/-- The look-up goes on, with a row or without one. -/
theorem Inv.finds (h : Inv lower s) (hclean : ∀ k, s.table.dirty n k = none)
    {next : Proc} (hnext : ProcInv lower s.table n next) {found : List (Uuid × Contact)}
    (hnodup : (found.map Prod.fst).Nodup) (hunique : ∀ a ∈ found, ∀ b ∈ found, a.1 = b.1) :
    Inv lower (s.finds n data next found) := by
  match found, hnodup, hunique with
  | [], _, _ => exact h.goes_same hnext
  | [(id, contact)], _, _ =>
    have hproc : ProcInv lower s.table n (.updating id (mergeFill data contact)) := hclean
    exact h.goes_same hproc
  | a :: b :: found, hnodup, hunique =>
    have heq := hunique a List.mem_cons_self b (List.mem_cons_of_mem _ List.mem_cons_self)
    rw [List.map_cons, List.map_cons, heq] at hnodup
    exact absurd List.mem_cons_self (List.nodup_cons.1 hnodup).1

/-- A capture looks for the address first. -/
theorem Inv.capture (h : Inv lower s) (hn : s.procs n = none)
    (data : ContactCaptureIn) :
    Inv lower (s.finds n data (.byPhone tenantId data)
      (data.email.elim [] fun email => s.find n (hasEmail lower tenantId email))) := by
  have hclean := h.idle n hn
  have hnext : ProcInv lower s.table n (.byPhone tenantId data) := hclean
  cases data.email with
  | none => exact h.finds hclean hnext List.nodup_nil fun _ h => absurd h List.not_mem_nil
  | some email =>
    refine h.finds hclean hnext (find_nodup s n _) fun a ha b hb => ?_
    refine find_unique (i := (tenantId, lower email)) h.email hclean (fun c hc => ?_) ha hb
    obtain ⟨htenant, hlower⟩ := Bool.and_eq_true_iff.1 hc
    obtain ⟨e, he, heq⟩ := Option.map_eq_some_iff.1 (of_decide_eq_true hlower)
    rw [emailKey, he, of_decide_eq_true htenant, ← heq]
    rfl

/-- Then for the number. -/
theorem Inv.findPhone (h : Inv lower s) (hn : s.procs n = some (.byPhone tenantId data)) :
    Inv lower (s.finds n data (.creating tenantId data)
      (data.phone.elim [] fun phone => s.find n (hasPhone tenantId phone))) := by
  have hclean : ∀ k, s.table.dirty n k = none := h.proc n _ hn
  have hnext : ProcInv lower s.table n (.creating tenantId data) := hclean
  cases hphone : data.phone with
  | none => exact h.finds hclean hnext List.nodup_nil fun _ h => absurd h List.not_mem_nil
  | some phone =>
    refine h.finds hclean hnext (find_nodup s n _) fun a ha b hb => ?_
    refine find_unique (i := (tenantId, phone)) h.phone hclean (fun c hc => ?_) ha hb
    obtain ⟨htenant, hsame⟩ := Bool.and_eq_true_iff.1 hc
    rw [phoneKey, of_decide_eq_true hsame, of_decide_eq_true htenant]
    rfl

/-- The one write of a request. -/
theorem Inv.writes (h : Inv lower s) {contact : Contact}
    (hclean : ∀ k, s.table.dirty n k = none)
    (hwrote : Table.Wrote n id (some contact) s.table table)
    (hemail : columns.email.isSome = false → Kept (emailKey lower) table n id)
    (hphone : columns.phone.isSome = false → Kept phoneKey table n id) :
    Inv lower (State.goes { s with table } n (.written id columns)) :=
  h.goes hwrote.rows hwrote.other
    ⟨fun k hk => (hwrote.rest k hk).trans (hclean k), hemail, hphone⟩

/-- Then it writes: a new row, or the one that it found. -/
theorem Inv.flush (h : Inv lower s) {newId : Uuid} (hst : step lower s (.flush n newId) = some s') :
    Inv lower s' := by
  rw [step] at hst
  split at hst
  · next tenantId data hn =>
    obtain ⟨table, hinsert, rfl⟩ := Option.map_eq_some_iff.1 hst
    exact h.writes (h.proc n _ hn) (Table.wrote_of_insert hinsert) nofun nofun
  · next id columns hn =>
    have hclean : ∀ k, s.table.dirty n k = none := h.proc n _ hn
    split at hst
    · cases hst
      refine h.goes_same ⟨fun k _ => hclean k, fun _ v hv => ?_, fun _ v hv => ?_⟩ <;>
        · rw [hclean id] at hv
          cases hv
    · obtain ⟨contact, hcontact, hst⟩ := Option.bind_eq_some_iff.1 hst
      obtain ⟨table, hwrite, rfl⟩ := Option.map_eq_some_iff.1 hst
      have hwrote := Table.wrote_of_write hwrite
      rw [Table.visible_of_clean (hclean id)] at hcontact
      exact h.writes hclean hwrote
        (fun hset => .of_wrote hcontact hwrote (emailKey_apply hset contact))
        (fun hset => .of_wrote hcontact hwrote (phoneKey_apply hset contact))
  · cases hst

/-- A request ends. -/
theorem Inv.ends (h : Inv lower s) (hclean : ∀ k, table.dirty n k = none)
    (hother : ∀ m, m ≠ n → Table.SameFor m s.table table)
    (hemail : Unshared (emailKey lower) table.rows) (hphone : Unshared phoneKey table.rows) :
    Inv lower (s.ends n table) where
  email := hemail
  phone := hphone
  found := h.found
  idle := Table.Clean.ends h.idle hclean hother
  proc := Machine.each_ends h.proc fun m _ hne hm => hm.of_same (hother m hne)

/-- A commit, if nobody has committed the same key since. -/
theorem Inv.commit (h : Inv lower s) (hn : s.procs n = some (.written id columns))
    (hsteady : Steady lower s (.commit n)) : Inv lower (s.ends n (s.table.commit n)) := by
  rw [Steady, hn] at hsteady
  obtain ⟨hemail, hphone⟩ := hsteady
  obtain ⟨hrest, hkept_email, hkept_phone⟩ := h.proc n _ hn
  refine h.ends (fun _ => if_pos rfl) (fun m hm => Table.commit_sameFor hm)
    (h.email.commit hrest ?_) (h.phone.commit hrest ?_)
  · cases hset : columns.email.isSome with
    | true => exact .inr (hemail hset)
    | false => exact .inl (hkept_email hset)
  · cases hset : columns.phone.isSome with
    | true => exact .inr (hphone hset)
    | false => exact .inl (hkept_phone hset)

theorem Inv.abort (h : Inv lower s) (n : Nat) : Inv lower (s.ends n (s.table.rollback n)) :=
  h.ends (fun _ => if_pos rfl) (fun _ hm => Table.rollback_sameFor hm) h.email h.phone

/-! ### Runs -/

/-- One steady step keeps the invariant. -/
theorem inv_step {l : Label} (h : Inv lower s) (hsteady : Steady lower s l)
    (hst : step lower s l = some s') : Inv lower s' := by
  cases l with
  | capture n tenantId data =>
    obtain ⟨hn, hst⟩ := Option.ite_none_left_eq_some.1 hst
    cases hst
    have hidle : (s.procs n).isSome = false := (Bool.or_eq_false_iff.1 (Bool.eq_false_iff.2 hn)).1
    exact h.capture (Option.isSome_eq_false_iff.1 hidle |> Option.isNone_iff_eq_none.1) _
  | findPhone n =>
    rw [step] at hst
    split at hst
    · next tenantId data hn =>
      cases hst
      exact h.findPhone hn
    · cases hst
  | updateContact n tenantId id data =>
    obtain ⟨hn, hst⟩ := Option.ite_none_left_eq_some.1 hst
    obtain ⟨contact, -, rfl⟩ := Option.map_eq_some_iff.1 hst
    have hclean := h.idle n (Option.not_isSome_iff_eq_none.1 hn)
    exact h.goes_same hclean
  | flush n newId => exact h.flush hst
  | commit n =>
    rw [step] at hst
    split at hst
    · next id columns hn =>
      cases hst
      -- A commit publishes the row, and the guard says that no twin has committed since.
      exact h.commit hn hsteady
    · cases hst
  | abort n =>
    obtain ⟨-, hst⟩ := Option.ite_none_right_eq_some.1 hst
    cases hst
    exact h.abort n

end Requests

theorem inv_inductive (lower : String → String) :
    (machine lower).Inductive (Steady lower) (Inv lower) where
  init s hs := by
    cases hs
    exact .empty
  step s l t h hsteady hst := inv_step h hsteady hst

/-- **Contacts are not duplicated** and a capture never meets two of them, in every state that
steady commits reach. -/
theorem deduped (lower : String → String) {s : State}
    (h : (machine lower).ReachVia (Steady lower) s) : Deduped lower s := by
  have hinv := (inv_inductive lower).always h
  exact ⟨hinv.email, hinv.phone, hinv.found⟩

/-! ### Two contacts that converge -/

/-- A capture under an id, start to end. -/
def captured (n : Nat) (data : ContactCaptureIn) (newId : Uuid) : List Label :=
  [.capture n 7 data, .findPhone n, .flush n newId, .commit n]

/-- A contact with an e-mail address and one with a phone number, of different requests. -/
def contacts : List Label :=
  List.flatten
    [captured 1 { email := some "a@x" } 10, captured 2 { phone := some " 555 " } 11]

/-- A request names both; it matches the first, and fills in the number of the second. The next
capture by number meets the two. -/
def converging : List Label :=
  List.flatten
    [contacts,
      [.capture 3 7 { email := some "a@x", phone := some "555" }, .flush 3 0, .commit 3,
        .capture 4 7 { phone := some "555" }, .findPhone 4]]

/-- **Two contacts share a phone number**, and a capture fails, one request after the other. -/
theorem shared_phone :
    ∃ s, (machine id).Reachable s ∧ (s.table.rows 10).any (·.phone = some "555") = true ∧
      (s.table.rows 11).any (·.phone = some "555") = true ∧ s.raised = true ∧ ¬ Deduped id s := by
  obtain ⟨s, hs, hp⟩ := Machine.exists_reachable_of_run (M := machine id) converging
    (fun s => (s.table.rows 10).any (·.phone = some "555") &&
      (s.table.rows 11).any (·.phone = some "555") && s.raised) rfl (by decide)
  obtain ⟨hphones, hraised⟩ := Bool.and_eq_true_iff.1 hp
  obtain ⟨hfirst, hsecond⟩ := Bool.and_eq_true_iff.1 hphones
  refine ⟨s, hs, hfirst, hsecond, hraised, fun hdeduped => ?_⟩
  rw [hdeduped.found] at hraised
  cases hraised

/-- Two captures of one person are one contact, and an edit gives it a number. -/
theorem deduped_merged :
    ∃ s, (machine id).ReachVia (Steady id) s ∧
      (s.table.rows 10).any (fun c => c.firstName = some "Ann" && c.phone = some "777") = true ∧
        s.table.rows 12 = none ∧ Deduped id s := by
  obtain ⟨s, hs, hp⟩ := Machine.exists_reachVia_of_run (M := machine id) (G := Steady id)
    (List.flatten
      [contacts,
        [.capture 3 7 { email := some "a@x", firstName := some "Ann" }, .flush 3 12, .commit 3,
          .updateContact 4 7 10 { phone := some (some "777") }, .flush 4 0, .commit 4]])
    (fun s => (s.table.rows 10).any (fun c => c.firstName = some "Ann" && c.phone = some "777") &&
      (s.table.rows 12).isNone) rfl (by decide)
  obtain ⟨hmerged, hnone⟩ := Bool.and_eq_true_iff.1 hp
  exact ⟨s, hs, hmerged, Option.isNone_iff_eq_none.1 hnone, deduped id hs⟩

end Dedupe

end Leads

end RealEstate
