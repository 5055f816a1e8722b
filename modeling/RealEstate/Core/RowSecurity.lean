import RealEstate.Core.Exceptions
import RealEstate.Systems.Machine
import RealEstate.Systems.Uuid

/-!
# Row-level security (`core/rls.py`, `core/database.py`, `workers/db.py`)

All tenants share the tables and the pool of connections. What keeps them apart are the policies
of the tables, which read a setting of the connection, and the setting that `set_tenant_guc` makes
for one transaction.

- `Policy.using`: the two policies, with the setting as text: unset, empty or a UUID.
- `Schema`: the keys and references of the tables, which PostgreSQL enforces on all rows, and the
  referential actions, which it takes on all rows.
- `attempt`, `execute`: a statement under a policy, however wrong its conditions are, and the
  constraints after it.
- `machine`: the requests and the tasks of all tenants, each a transaction on a connection that
  others used before.
- `execute_spec`, `attempt_filter`: a statement returns and writes rows of its scope only, and what
  it attempts does not depend on the others.
-/

namespace RealEstate

namespace Core

namespace RowSecurity

open Systems

/-! ### Policies -/

/-- What PostgreSQL raises. -/
inductive SqlError where
  | undefinedObject
  | invalidTextRepresentation
  | insufficientPrivilege
  | uniqueViolation
  | foreignKeyViolation
  deriving DecidableEq

/-- `current_setting('app.tenant_id', missing_ok)`. -/
def currentSetting (setting : Option Text) (missingOk : Bool) : Except SqlError (Option Text) :=
  if setting.isNone && !missingOk then .error .undefinedObject else .ok setting

/-- `NULLIF(value, '')`. -/
def nullIfEmpty (value : Option Text) : Option Text := value.filter (· ≠ [])

/-- `value::uuid`; `NULL` stays `NULL`. -/
def castUuid : Option Text → Except SqlError (Option UUID)
  | none => .ok none
  | some text =>
    match parseUuid text with
    | some u => .ok (some u)
    | none => .error .invalidTextRepresentation

/-- Which policy a table got in its migration. -/
inductive Policy where
  /-- `enable_tenant_rls_sql`. -/
  | tenant
  /-- `enable_identity_rls_sql`. -/
  | identity
  deriving DecidableEq

/-- The migrations: identity tables have platform rows, with `NULL` for the tenant. -/
def policyOf (table : String) : Policy :=
  if table ∈ ["users", "sessions", "oauth_identities"] then .identity else .tenant

/-- The `USING` expression, for a row of this tenant. -/
def Policy.using (setting : Option Text) (tenantId : Option UUID) :
    Policy → Except SqlError Bool
  | .tenant => do
    let scope ← castUuid (← currentSetting setting false)
    -- `=` is not true of a `NULL`
    return tenantId.isSome && tenantId = scope
  | .identity => do
    let scope ← castUuid (nullIfEmpty (← currentSetting setting true))
    return tenantId = scope

/-! ### Statements -/

/-- A row of any table that has a policy. Ids are UUIDs that are not drawn twice. -/
structure Row (A : Type) where
  table : String
  id : UUID
  tenantId : Option UUID
  columns : A

/-- A statement, with whatever conditions. -/
inductive Statement (A : Type) where
  | select (table : String)
  | insert (row : Row A)
  | update (table : String) (condition : Row A → Bool) (set : Row A → Option UUID × A)
  | delete (table : String) (condition : Row A → Bool)
  /-- `purge_scheduled_tenants` deletes a row of `tenants`, which has no policy. Whether a
  `RESTRICT` refuses that depends on the order in which PostgreSQL visits the tables. -/
  | purgeTenant (tenantId : UUID) (refused : Bool)
  /-- `prune_analytics_events` drops the events of a month, as the owner of their table. -/
  | dropPartition (month : Row A → Bool)

/-- What a statement does to the tables; a transaction keeps it to itself until it commits. -/
inductive Write (A : Type) where
  | insert (row : Row A)
  | update (row : Row A)
  | delete (row : Row A)
  | purge (tenantId : UUID)
  | drop (month : Row A → Bool)

/-! ### Keys and references -/

/-- What becomes of a row if a row that it refers to is deleted. -/
inductive OnDelete where
  | cascade
  | setNull
  | restrict
  deriving DecidableEq

/-- The value of a foreign key. -/
structure Reference where
  target : UUID
  onDelete : OnDelete

variable {A : Type}

/-- What the migrations declare besides the policies. -/
structure Schema (A : Type) where
  references : Row A → List Reference
  /-- Two rows with the same key, in a primary key or a unique index. -/
  clash : Row A → Row A → Bool
  /-- The columns without the `SET NULL` references to these rows. -/
  setNull : List UUID → Row A → A
  /-- The longest chain of `CASCADE` references between the tables. -/
  depth : Nat
  setNull_references : ∀ ids row, references { row with columns := setNull ids row } ⊆
    references row
  setNull_eq_self : ∀ ids row, (∀ r ∈ references row, r.target ∉ ids) →
    setNull ids row = row.columns

section Schema

variable (S : Schema A)

/-- The row has a reference of this kind to one of these. -/
def Schema.refersTo (onDelete : OnDelete) (ids : List UUID) (row : Row A) : Bool :=
  (S.references row).any fun r => r.onDelete = onDelete && r.target ∈ ids

/-- What is deleted with these rows. -/
def Schema.doomed (rows : List (Row A)) : Nat → List UUID → List UUID
  | 0, ids => ids
  | k + 1, ids =>
    doomed rows k (ids ++ (rows.filter (S.refersTo .cascade ids)).map (·.id))

/-- A deletion, with the referential actions, which no policy holds back. -/
def Schema.remove (ids : List UUID) (rows : List (Row A)) : List (Row A) :=
  let gone := S.doomed rows S.depth ids
  (rows.filter (·.id ∉ gone)).map fun row => { row with columns := S.setNull gone row }

/-- What a write makes of the rows. -/
def Write.apply (rows : List (Row A)) : Write A → List (Row A)
  | .insert row => rows ++ [row]
  | .update row => rows.map fun r => if r.id = row.id then row else r
  | .delete row => S.remove [row.id] rows
  | .purge tenantId => S.remove ((rows.filter (·.tenantId = some tenantId)).map (·.id)) rows
  | .drop month => rows.filter fun row => !(row.table = "analytics_events" && month row)

/-- The rows after some writes. -/
def applyAll (writes : List (Write A)) (rows : List (Row A)) : List (Row A) :=
  writes.foldl (Write.apply S) rows

/-- The new row. -/
def Write.written : Write A → Option (Row A)
  | .insert row | .update row => some row
  | .delete _ | .purge _ | .drop _ => none

/-- The row that is deleted. -/
def Write.deleted : Write A → Option UUID
  | .delete row => some row.id
  | .insert _ | .update _ | .purge _ | .drop _ => none

/-- No other row has its key. -/
def Schema.unique (rows : List (Row A)) (row : Row A) : Bool :=
  rows.all fun other => other.id = row.id || !S.clash row other

/-- What it refers to exists. -/
def Schema.refers (rows : List (Row A)) (row : Row A) : Bool :=
  (S.references row).all fun r => rows.any (·.id = r.target)

/-- A row that stays does not let them be deleted. -/
def Schema.restricted (rows : List (Row A)) (ids : List UUID) : Bool :=
  let gone := S.doomed rows S.depth ids
  rows.any fun row => row.id ∉ gone && S.refersTo .restrict gone row

/-- The constraints, which PostgreSQL checks on all rows. -/
def Schema.enforce (view : List (Row A)) (writes : List (Write A)) : Except SqlError Unit :=
  let written := writes.filterMap Write.written
  let after := applyAll S writes view
  if !written.all (S.unique after) then .error .uniqueViolation
  else if !written.all (S.refers after) || S.restricted view (writes.filterMap Write.deleted) then
    .error .foreignKeyViolation
  else .ok ()

end Schema

/-! ### Statements under a policy -/

/-- The rows of a table that the policy lets through; it is evaluated on every row. -/
def visible (setting : Option Text) (table : String) : List (Row A) → Except SqlError (List (Row A))
  | [] => .ok []
  | row :: rows => do
    if row.table = table then
      let seen ← (policyOf table).using setting row.tenantId
      let rest ← visible setting table rows
      return if seen then row :: rest else rest
    else visible setting table rows

/-- The implicit `WITH CHECK` on a new row. -/
def check (setting : Option Text) (row : Row A) : Except SqlError Unit := do
  if ← (policyOf row.table).using setting row.tenantId then return ()
  else throw .insufficientPrivilege

/-- A statement on the rows that its transaction sees, before the constraints: what it writes, and
what it returns. -/
def attempt (setting : Option Text) (view : List (Row A)) :
    Statement A → Except SqlError (List (Write A) × List (Row A))
  | .select table => do
    let rows ← visible setting table view
    return ([], rows)
  | .insert row => do
    check setting row
    return ([.insert row], [row])
  | .update table condition set => do
    let rows ← visible setting table view
    let rows := (rows.filter condition).map fun row =>
      { row with tenantId := (set row).1, columns := (set row).2 }
    rows.forM (check setting)
    return (rows.map .update, rows)
  | .delete table condition => do
    let rows ← visible setting table view
    let rows := rows.filter condition
    return (rows.map .delete, rows)
  | .purgeTenant tenantId refused =>
    if refused then .error .foreignKeyViolation else .ok ([.purge tenantId], [])
  | .dropPartition month => .ok ([.drop month], [])

/-- A statement. -/
def execute (S : Schema A) (setting : Option Text) (view : List (Row A)) (statement : Statement A) :
    Except SqlError (List (Write A) × List (Row A)) := do
  let (writes, rows) ← attempt setting view statement
  S.enforce view writes
  return (writes, rows)

/-! ### The machine -/

/-- An open transaction. -/
structure Transaction (A : Type) where
  connection : Nat
  /-- The tenant of the request or of the task; the platform has none. -/
  tenant : Option UUID
  /-- The last `set_tenant_guc`. -/
  scope : Option UUID
  pending : List (Write A)
  answers : List (Except SqlError (List (Row A)))
  failed : Bool

/-- The tables, the connections and the transactions. -/
structure State (A : Type) where
  rows : List (Row A)
  /-- Ids that were ever inserted, with the tenant of their row. -/
  born : UUID → Option (Option UUID)
  /-- `app.tenant_id` of the connections, outside of transactions. -/
  settings : Nat → Option Text
  /-- The connections that are checked out. -/
  busy : Nat → Bool
  transactions : Nat → Option (Transaction A)
  /-- What ended transactions were answered. -/
  log : List (Option UUID × List (Except SqlError (List (Row A))))

/-- A step of a transaction. -/
inductive Label (A : Type) where
  /-- `get_session` and `_scoped_transaction`: a transaction begins, and has its tenant set. -/
  | begin (t connection : Nat) (tenant : Option UUID)
  /-- `first_admin_for_tenant`: the platform looks up a tenant's administrator. -/
  | scope (t : Nat) (tenantId : UUID)
  | run (t : Nat) (statement : Statement A)
  | commit (t : Nat)
  | rollback (t : Nat)

/-- The setting as a transaction reads it: its own, or what is left on the connection. -/
def State.setting (s : State A) (tx : Transaction A) : Option Text :=
  tx.scope.elim (s.settings tx.connection) fun tenantId => some (uuidText tenantId)

/-- What a transaction sees: what is committed, and its own writes. -/
def Transaction.view (S : Schema A) (tx : Transaction A) (rows : List (Row A)) : List (Row A) :=
  applyAll S tx.pending rows

/-- The answer of a statement. -/
def Transaction.record (tx : Transaction A) :
    Except SqlError (List (Write A) × List (Row A)) → Transaction A
  | .ok (writes, rows) =>
    { tx with pending := tx.pending ++ writes, answers := tx.answers ++ [.ok rows] }
  -- an error aborts the transaction
  | .error e => { tx with answers := tx.answers ++ [.error e], failed := true }

/-- It writes nothing. -/
def Statement.isSelect : Statement A → Bool
  | .select _ => true
  | _ => false

/-- New rows have new ids. -/
def Statement.fresh (born : UUID → Option (Option UUID)) : Statement A → Bool
  | .insert row => (born row.id).isNone
  | _ => true

@[simp] theorem record_tenant (tx : Transaction A) (result) :
    (tx.record result).tenant = tx.tenant := by
  cases result <;> rfl

@[simp] theorem record_connection (tx : Transaction A) (result) :
    (tx.record result).connection = tx.connection := by
  cases result <;> rfl

/-- Only the platform's tasks have these. -/
def Statement.isPlatform : Statement A → Bool
  | .purgeTenant _ _ | .dropPartition _ => true
  | _ => false

/-- The platform writes nothing once it looks into a tenant, and nobody else deletes tenants or
drops tables. -/
def Transaction.allows (tx : Transaction A) (statement : Statement A) : Bool :=
  !tx.failed && (statement.isSelect || tx.scope = tx.tenant) &&
    (!statement.isPlatform || tx.tenant.isNone)

/-- A new id is its row's tenant's. -/
def Statement.born (born : UUID → Option (Option UUID)) :
    Statement A → UUID → Option (Option UUID)
  | .insert row => Function.update born row.id (some row.tenantId)
  | _ => born

/-- A transaction ends. Its setting goes with it, but what is left is not unset any more: it is
empty. -/
def State.finish (s : State A) (t : Nat) (tx : Transaction A) : State A :=
  { s with
    settings := if tx.scope.isSome then Function.update s.settings tx.connection (some [])
      else s.settings
    busy := Function.update s.busy tx.connection false
    transactions := Function.update s.transactions t none
    log := (tx.tenant, tx.answers) :: s.log }

/-- One step. -/
def State.step (S : Schema A) (s : State A) : Label A → Option (State A)
  | .begin t connection tenant =>
    if (s.transactions t).isSome || s.busy connection then none
    else some { s with
      busy := Function.update s.busy connection true
      transactions := Function.update s.transactions t
        (some ⟨connection, tenant, tenant, [], [], false⟩) }
  | .scope t tenantId =>
    ((s.transactions t).filter fun tx => tx.scope.isNone && !tx.failed).map fun tx =>
      { s with
        transactions := Function.update s.transactions t
          (some { tx with scope := some tenantId }) }
  | .run t statement =>
    let allowed (tx : Transaction A) := tx.allows statement && statement.fresh s.born
    ((s.transactions t).filter allowed).map fun tx =>
      { s with
        born := statement.born s.born
        transactions := Function.update s.transactions t
          (some (tx.record (execute S (s.setting tx) (tx.view S s.rows) statement))) }
  | .commit t =>
    (s.transactions t).map fun tx =>
      { s.finish t tx with rows := if tx.failed then s.rows else tx.view S s.rows }
  | .rollback t => (s.transactions t).map (s.finish t)

/-- Empty tables and fresh connections. -/
def State.start : State A := ⟨[], fun _ => none, fun _ => none, fun _ => false, fun _ => none, []⟩

/-- All transactions of all tenants, from empty tables and fresh connections on. -/
def machine (S : Schema A) : Machine (State A) (Label A) where
  init s := s = .start
  step := State.step S

/-- The tenant that takes a step. -/
def Label.tenant (s : State A) : Label A → Option UUID
  | .begin _ _ tenant => tenant
  | .scope t _ | .run t _ | .commit t | .rollback t => (s.transactions t).bind (·.tenant)

/-! ### What the policies let through -/

/-- A setting that stands for a scope: unset and empty both stand for none. -/
def Means (setting : Option Text) : Option UUID → Prop
  | some tenantId => setting = some (uuidText tenantId)
  | none => setting = none ∨ setting = some []

/-- A setting that is a UUID lets the rows of that tenant through. -/
theorem using_text {text : Text} {u : UUID} (hparse : parseUuid text = some u) (policy : Policy)
    (tenantId : Option UUID) : policy.using (some text) tenantId = .ok (tenantId = some u) := by
  have hcast : castUuid (some text) = .ok (some u) := by
    rw [castUuid, hparse]
  cases policy with
  | tenant =>
    show (castUuid (some text) >>= fun scope =>
      Except.ok (tenantId.isSome && decide (tenantId = scope))) = _
    rw [hcast]
    cases tenantId with
    | none => rfl
    | some v => rfl
  | identity =>
    have hne : text ≠ [] := by
      rintro rfl
      cases hparse
    have hnull : nullIfEmpty (some text) = some text :=
      Option.filter_some_pos (decide_eq_true hne)
    show (castUuid (nullIfEmpty (some text)) >>= fun scope =>
      Except.ok (decide (tenantId = scope))) = _
    rw [hnull, hcast]
    rfl

/-- In particular the one that `set_tenant_guc` makes. -/
theorem using_some (policy : Policy) (u : UUID) (tenantId : Option UUID) :
    policy.using (some (uuidText u)) tenantId = .ok (tenantId = some u) :=
  using_text (parseUuid_uuidText u) policy tenantId

/-- No setting lets platform rows through at most. -/
theorem using_unscoped {setting : Option Text} (hnone : setting = none ∨ setting = some [])
    {policy : Policy} {tenantId : Option UUID} {seen : Bool}
    (h : policy.using setting tenantId = .ok seen) : seen = decide (tenantId = none) := by
  -- the policy of tenant tables raises, that of identity tables reads a `NULL`
  rcases hnone with rfl | rfl
  all_goals
    cases policy with
    | tenant => cases h
    | identity => exact (Except.ok.inj h).symm

/-- A policy lets through what is of the scope. -/
theorem eq_of_using {setting : Option Text} {scope tenantId : Option UUID} {policy : Policy}
    {seen : Bool} (hscope : Means setting scope) (h : policy.using setting tenantId = .ok seen) :
    seen = decide (tenantId = scope) := by
  cases scope with
  | some u =>
    have hsetting : setting = some (uuidText u) := hscope
    rw [hsetting, using_some] at h
    exact (Except.ok.inj h).symm
  | none => exact using_unscoped hscope h

theorem ok_of_ite {α : Type} {c : Prop} [Decidable c] {e : SqlError} {a b : α}
    (h : (if c then Except.error e else .ok a) = .ok b) : ¬c ∧ a = b := by
  split at h
  · cases h
  · next hc => exact ⟨hc, Except.ok.inj h⟩

/-- The rows of a table that are of the scope. -/
def rowsOf (table : String) (scope : Option UUID) (view : List (Row A)) : List (Row A) :=
  view.filter fun row => row.table = table && row.tenantId = scope

theorem visible_some (table : String) (u : UUID) (view : List (Row A)) :
    visible (some (uuidText u)) table view = .ok (rowsOf table (some u) view) := by
  induction view with
  | nil => rfl
  | cons row view ih =>
    rw [visible, rowsOf, List.filter_cons]
    by_cases htable : row.table = table
    · rw [if_pos htable, using_some, ih, decide_eq_true htable, Bool.true_and]
      show Except.ok _ = _
      by_cases htenant : row.tenantId = some u
      · rw [if_pos (decide_eq_true htenant), if_pos (decide_eq_true htenant)]
        rfl
      · rw [if_neg (by simp [htenant]), if_neg (by simp [htenant])]
        rfl
    · rw [if_neg htable, ih, decide_eq_false htable, Bool.false_and, if_neg Bool.false_ne_true]
      rfl

/-- Whoever sees anything sees rows of the scope. -/
theorem eq_of_visible {setting : Option Text} {scope : Option UUID} {table : String}
    (hscope : Means setting scope) : ∀ {view rows : List (Row A)},
    visible setting table view = .ok rows → rows = rowsOf table scope view
  | [], rows, h => (Except.ok.inj h).symm
  | row :: view, rows, h => by
    rw [visible] at h
    rw [rowsOf, List.filter_cons]
    by_cases htable : row.table = table
    · rw [if_pos htable] at h
      obtain ⟨seen, hseen, h⟩ := bind_eq_ok h
      obtain ⟨rest, hrest, h⟩ := bind_eq_ok h
      cases eq_of_using hscope hseen
      cases eq_of_visible hscope hrest
      cases h
      rw [decide_eq_true htable, Bool.true_and]
      rfl
    · rw [if_neg htable] at h
      rw [decide_eq_false htable, Bool.false_and, if_neg Bool.false_ne_true]
      exact eq_of_visible hscope h

/-- A row that passes the check is of the scope. -/
theorem tenantId_of_check {setting : Option Text} {scope : Option UUID} {row : Row A}
    (hscope : Means setting scope) (h : check setting row = .ok ()) : row.tenantId = scope := by
  obtain ⟨seen, hseen, h⟩ := bind_eq_ok h
  cases eq_of_using hscope hseen
  by_contra hne
  rw [if_neg (by simpa using hne)] at h
  cases h

theorem forM_check {setting : Option Text} {scope : Option UUID} (hscope : Means setting scope) :
    ∀ {rows : List (Row A)}, rows.forM (check setting) = .ok () →
      ∀ row ∈ rows, row.tenantId = scope
  | [], _, row, hrow => absurd hrow List.not_mem_nil
  | r :: rows, h, row, hrow => by
    obtain ⟨_, hr, h⟩ := bind_eq_ok h
    rcases List.mem_cons.1 hrow with rfl | hrow
    · exact tenantId_of_check hscope hr
    · exact forM_check hscope h row hrow

/-- Where a write comes from: a statement of the platform, or a row of the scope of its statement,
and only an insertion brings a new one. -/
inductive Write.From (statement : Statement A) (view : List (Row A)) (scope : Option UUID) :
    Write A → Prop where
  | insert {row : Row A} : row.tenantId = scope → statement = .insert row →
      From statement view scope (.insert row)
  | update {row old : Row A} : row.tenantId = scope → old ∈ view → old.id = row.id →
      old.tenantId = scope → From statement view scope (.update row)
  | delete {row : Row A} : row ∈ view → row.tenantId = scope →
      From statement view scope (.delete row)
  | purge {tenantId : UUID} : statement = .purgeTenant tenantId false →
      From statement view scope (.purge tenantId)
  | drop {month : Row A → Bool} : statement = .dropPartition month →
      From statement view scope (.drop month)

/-- What a statement returns and writes, whatever its conditions say: rows of its scope. -/
theorem attempt_spec {setting : Option Text} {scope : Option UUID} {view rows : List (Row A)}
    {statement : Statement A} {writes : List (Write A)} (hscope : Means setting scope)
    (h : attempt setting view statement = .ok (writes, rows)) :
    (∀ row ∈ rows, row.tenantId = scope) ∧
      ∀ w ∈ writes, statement.isSelect = false ∧ w.From statement view scope := by
  cases statement with
  | select table =>
    obtain ⟨seen, hseen, h⟩ := bind_eq_ok h
    cases eq_of_visible hscope hseen
    cases h
    refine ⟨fun row hrow => ?_, fun w hw => absurd hw List.not_mem_nil⟩
    exact of_decide_eq_true (Bool.and_eq_true_iff.1 (List.mem_filter.1 hrow).2).2
  | insert row =>
    obtain ⟨_, hcheck, h⟩ := bind_eq_ok h
    cases h
    -- The policy's check refuses a new row of another tenant.
    have htenant := tenantId_of_check hscope hcheck
    refine ⟨fun r hr => ?_, fun w hw => ?_⟩
    · rw [List.mem_singleton.1 hr]
      exact htenant
    · rw [List.mem_singleton.1 hw]
      exact ⟨rfl, .insert htenant rfl⟩
  | update table condition set =>
    obtain ⟨seen, hseen, h⟩ := bind_eq_ok h
    obtain ⟨_, hcheck, h⟩ := bind_eq_ok h
    cases eq_of_visible hscope hseen
    cases h
    -- An update passes both sides of the policy: the rows seen, and the rows they become.
    have hnew := forM_check hscope hcheck
    refine ⟨hnew, fun w hw => ?_⟩
    obtain ⟨row, hrow, rfl⟩ := List.mem_map.1 hw
    obtain ⟨old, hold, rfl⟩ := List.mem_map.1 hrow
    obtain ⟨hview, hp⟩ := List.mem_filter.1 (List.mem_filter.1 hold).1
    exact ⟨rfl, .update (hnew _ hrow) hview rfl
      (of_decide_eq_true (Bool.and_eq_true_iff.1 hp).2)⟩
  | delete table condition =>
    obtain ⟨seen, hseen, h⟩ := bind_eq_ok h
    cases eq_of_visible hscope hseen
    cases h
    have hrows : ∀ row ∈ (rowsOf table scope view).filter condition,
        row ∈ view ∧ row.tenantId = scope := by
      intro row hrow
      obtain ⟨hview, hp⟩ := List.mem_filter.1 (List.mem_filter.1 hrow).1
      exact ⟨hview, of_decide_eq_true (Bool.and_eq_true_iff.1 hp).2⟩
    refine ⟨fun row hrow => (hrows row hrow).2, fun w hw => ?_⟩
    obtain ⟨row, hrow, rfl⟩ := List.mem_map.1 hw
    exact ⟨rfl, .delete (hrows row hrow).1 (hrows row hrow).2⟩
  | purgeTenant tenantId refused =>
    obtain ⟨hrefused, h⟩ := ok_of_ite h
    cases h
    refine ⟨fun row hrow => absurd hrow List.not_mem_nil, fun w hw => ?_⟩
    rw [List.mem_singleton.1 hw]
    exact ⟨rfl, .purge (by rw [Bool.eq_false_of_not_eq_true hrefused])⟩
  | dropPartition month =>
    cases h
    refine ⟨fun row hrow => absurd hrow List.not_mem_nil, fun w hw => ?_⟩
    rw [List.mem_singleton.1 hw]
    exact ⟨rfl, .drop rfl⟩

/-- The constraints only refuse. -/
theorem execute_eq_ok {S : Schema A} {setting : Option Text} {view rows : List (Row A)}
    {statement : Statement A} {writes : List (Write A)}
    (h : execute S setting view statement = .ok (writes, rows)) :
    attempt setting view statement = .ok (writes, rows) ∧ S.enforce view writes = .ok () := by
  obtain ⟨result, hattempt, h⟩ := bind_eq_ok h
  obtain ⟨⟨⟩, henforce, h⟩ := bind_eq_ok h
  cases h
  exact ⟨hattempt, henforce⟩

/-- The same of a statement that met all constraints. -/
theorem execute_spec {S : Schema A} {setting : Option Text} {scope : Option UUID}
    {view rows : List (Row A)} {statement : Statement A} {writes : List (Write A)}
    (hscope : Means setting scope) (h : execute S setting view statement = .ok (writes, rows)) :
    (∀ row ∈ rows, row.tenantId = scope) ∧
      ∀ w ∈ writes, statement.isSelect = false ∧ w.From statement view scope :=
  attempt_spec hscope (execute_eq_ok h).1

/-- What a statement in the scope of a tenant attempts does not depend on the rows of the others. -/
theorem attempt_filter (u : UUID) (view : List (Row A)) (statement : Statement A) :
    attempt (some (uuidText u)) (view.filter fun row => row.tenantId = some u) statement =
      attempt (some (uuidText u)) view statement := by
  have hvisible : ∀ table, visible (some (uuidText u)) table
      (view.filter fun row => row.tenantId = some u) = visible (some (uuidText u)) table view := by
    intro table
    rw [visible_some, visible_some, rowsOf, List.filter_filter]
    refine congrArg Except.ok (List.filter_congr fun row _ => ?_)
    rw [Bool.and_assoc, Bool.and_self]
  cases statement with
  | select table | update table condition set | delete table condition =>
    rw [attempt, attempt, hvisible]
  | insert row | purgeTenant tenantId refused | dropPartition month => rfl

end RowSecurity

end Core

end RealEstate
